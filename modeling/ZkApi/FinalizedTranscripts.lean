import ZkApi.LeaseRows

/-!
# Where finalized rows come from

In a run from an empty store, every finalized row carries the transcript that
some task wrote, for the request it processed or for the lease it settled.  A
task that has found a row finalized has seen what the row still says.
-/

namespace ZkApi

open ConstrainedTable Interleaving MachineIntegers

variable {P : Protocol}

section Origins

/-- A task has written this transcript for a request and a response, and had
cause to. -/
def WrittenFor (P : Protocol) (trace : List (Event (server P))) (request : ApiRequestV2)
    (response : ProviderResponse) (transcript : TranscriptRecord) : Prop :=
  ∃ task call kind next proofBytes createdAt finalizedAt,
    .performed task (.finalize request.nullifier transcript) (.ok ()) ∈ trace ∧
    Cause P call (historyOf task trace) request response ∧
    transcript = transcriptOf P request kind response next proofBytes createdAt finalizedAt

theorem WrittenFor.mono {trace later : List (Event (server P))} {request : ApiRequestV2}
    {response : ProviderResponse} {transcript : TranscriptRecord}
    (written : WrittenFor P trace request response transcript) (grows : trace <:+ later) :
    WrittenFor P later request response transcript := by
  obtain ⟨task, call, kind, next, proofBytes, createdAt, finalizedAt, event, cause, same⟩ :=
    written
  exact ⟨task, call, kind, next, proofBytes, createdAt, finalizedAt, grows.subset event,
    cause.mono (historyOf_suffix task grows), same⟩

/-- The row carries a transcript of the run. -/
def RowWritten (P : Protocol) (trace : List (Event (server P))) (row : NullifierRow) : Prop :=
  ∃ request response transcript, WrittenFor P trace request response transcript ∧
    WrittenWith P request.nullifier transcript row

theorem RowWritten.grow {trace later : List (Event (server P))} {row grown : NullifierRow}
    (written : RowWritten P trace row) (suffix : trace <:+ later)
    (rowGrows : RowGrows P row grown) : RowWritten P later grown := by
  obtain ⟨request, response, transcript, writtenFor, writtenWith⟩ := written
  exact ⟨request, response, transcript, writtenFor.mono suffix,
    WrittenWith.grows request.nullifier transcript row grown rowGrows writtenWith⟩

/-- Every finalized row carries a transcript of the run. -/
def FinalizedRows (P : Protocol) (world : World) (trace : List (Event (server P))) : Prop :=
  ∀ row ∈ world.store.nullifiers, strToStatus row.status = .finalized → RowWritten P trace row

private theorem FinalizedRows.same {world after : World} {trace : List (Event (server P))}
    (finalized : FinalizedRows P world trace)
    (nullifiers : after.store.nullifiers = world.store.nullifiers)
    (event : Event (server P)) : FinalizedRows P after (event :: trace) := by
  intro row member status
  rw [nullifiers] at member
  exact (finalized row member status).grow (List.suffix_cons event trace) (.same row)

private theorem finalizedRows_performed {task : Nat} {call : Call} {op : Op} {answer : Answer}
    {world after : World} {response : Resp op} {trace : List (Event (server P))}
    (allowed : Allowed P world.config call (historyOf task trace) op)
    (executed : execute P task op answer world = some (response, after))
    (held : FinalizedRows P world trace) :
    FinalizedRows P after (.performed task op response :: trace) := by
  have suffix := List.suffix_cons (Event.performed task op response) trace
  intro grown member status
  cases nullifierEffect executed with
  | kept same =>
      rw [same] at member
      exact (held grown member status).grow suffix (.same grown)
  | reserved request kind inserted =>
      rcases (Table.mem_insert inserted).mp member with old | rfl
      · exact (held grown old status).grow suffix (.same grown)
      · cases status
  | finalized nullifier transcript updated found =>
      obtain ⟨row, rowMember, rfl⟩ := (Table.mem_update updated).mp member
      by_cases reserved : Store.isReserved P nullifier row = true
      · obtain ⟨request, provided, rfl, cause, record, next, proofBytes, createdAt,
          finalizedAt, _, _, rfl⟩ := allowed
        refine ⟨request, provided, _, ⟨task, call, record.reservationKind, next, proofBytes,
          createdAt, finalizedAt, List.mem_cons_self,
          cause.mono (historyOf_suffix task suffix), rfl⟩, ?_, world.now, row, ?_⟩
        · rw [Table.updatedRow, if_pos reserved]
          exact (of_decide_eq_true reserved).1
        · rw [Table.updatedRow, if_pos reserved]
      · rw [Table.updatedRow, if_neg reserved] at status ⊢
        exact (held row rowMember status).grow suffix (.same row)
  | cleared nullifier inserted =>
      rcases (Table.mem_insert inserted).mp member with old | rfl
      · exact (held grown old status).grow suffix (.same grown)
      · cases status

theorem finalizedRows_preserved : (discipline P).Inductive (FinalizedRows P) where
  started _ _ _ _ held := held.same rfl _
  performed _ _ allowed executed _ held := finalizedRows_performed allowed executed held
  returned := by
    intro world trace task call result _ _ _ _ _ held
    apply held.same
    rfl
  aborted := by
    intro world trace task _ _ held
    apply held.same
    rfl
  moved := by
    intro world trace change after moved _ held
    have moved : move world change = some after := moved
    apply held.same
    rw [move_eq moved]
  restarted := by
    intro world trace change after rebooted _ held grown member status
    have rebooted : reboot P world change = some after := rebooted
    have suffix := List.suffix_cons (Event.restarted change) trace
    rw [(reboot_eq rebooted).1] at member
    obtain ⟨row, rowMember, rfl | ⟨lease, _, bound⟩⟩ := backfill_row_origin member
    · exact (held grown rowMember status).grow suffix (.same grown)
    · have rowStatus : strToStatus row.status = .finalized := by
        obtain ⟨request, _, _, rfl⟩ := bound.request
        exact status
      exact (held row rowMember rowStatus).grow suffix (.bound bound)

theorem finalizedRows_initial {world : World} (empty : world.store = Store.empty) :
    FinalizedRows P world [] := by
  intro row member
  rw [empty] at member
  exact (Table.not_mem_empty row member).elim

end Origins

section Lookups

/-- The row is finalized and says what the record says about the settlement. -/
def FinalizedAs (P : Protocol) (nullifier : Felt252) (record : TranscriptRecord)
    (row : NullifierRow) : Prop :=
  row.nullifier = P.feltToHex nullifier ∧ strToStatus row.status = .finalized ∧
    row.chargeApplied.map asU128 = record.chargeApplied ∧
    row.responsePayload = record.responsePayload

theorem FinalizedAs.grows (nullifier : Felt252) (record : TranscriptRecord)
    (row grown : NullifierRow) (rowGrows : RowGrows P row grown)
    (finalized : FinalizedAs P nullifier record row) :
    FinalizedAs P nullifier record grown := by
  cases rowGrows with
  | same => exact finalized
  | finalized _ reserved =>
      have status := finalized.2.1
      rw [reserved, strToStatus_statusToStr] at status
      cases status
  | bound bound =>
      obtain ⟨request, _, _, rfl⟩ := bound.request
      exact finalized

def ShowsFinalized : Event (server P) → Felt252 × TranscriptRecord → Prop
  | .performed _ (.lookupByNullifier nullifier) (some record), index =>
      (nullifier, record) = index ∧ record.status = .finalized
  | _, _ => False

/-- What was read from a finalized row can still be read. -/
abbrev FinalizedLookups (P : Protocol) : World → List (Event (server P)) → Prop :=
  Evidence (fun _ => True) ShowsFinalized fun index world =>
    HasRow world (FinalizedAs P index.1 index.2)

theorem finalizedLookups_preserved : (discipline P).Inductive (FinalizedLookups P) := by
  refine server_evidence suffixClosed_true ?_
    (fun index => hasRow_lasting (FinalizedAs.grows index.1 index.2)) ?_ ?_
  · intro event index shown
    cases event with
    | performed task op response => trivial
    | _ => cases shown
  · intro world after trace task call op answer response index _ executed _ _ shown
    unfold ShowsFinalized at shown
    split at shown
    · rename_i same
      cases same
      obtain ⟨rfl, finalized⟩ := shown
      obtain ⟨found, rfl⟩ := execute_lookupByNullifier executed
      obtain ⟨row, member, rowNullifier, rfl⟩ := lookup_eq_some found
      exact ⟨row, member, rowNullifier, finalized, rfl, rfl⟩
    · exact shown.elim
  · intro world trace task call result index _ _ _ _ shown
    cases shown

end Lookups

end ZkApi
