import ZkApi.NullifierLifecycle

/-!
# What a reservation leaves behind

A reservation binds its row to one request on one endpoint, and the row stays
bound to it for ever.  Every task that goes on with a request has reserved it
or has found a row bound to it, so it can be traced back to the checks that
were made when the row was inserted.
-/

namespace ZkApi

open ConstrainedTable Interleaving

variable {P : Protocol}

section Configuration

/-- The configuration in force after these events, for a server started with
the given one. -/
def configAt (initial : ServerConfig) : List (Event (server P)) → ServerConfig
  | [] => initial
  | .restarted change :: _ => change.config
  | .started _ _ :: earlier => configAt initial earlier
  | .performed _ _ _ :: earlier => configAt initial earlier
  | .returned _ _ _ :: earlier => configAt initial earlier
  | .aborted _ :: earlier => configAt initial earlier
  | .moved _ :: earlier => configAt initial earlier

theorem configAt_preserved (initial : ServerConfig) :
    (discipline P).Inductive fun world trace => world.config = configAt initial trace where
  started _ _ _ _ held := held
  performed _ _ _ executed _ held := (execute_config executed).trans held
  returned _ _ _ _ _ held := held
  aborted _ _ held := held
  moved moved _ held := by
    rw [move_eq moved]
    exact held
  restarted rebooted _ _ := by
    rw [(reboot_eq rebooted).1]
    rfl

/-- The server is only ever restarted with the configuration it started with. -/
def KeepsConfig (initial : ServerConfig) (trace : List (Event (server P))) : Prop :=
  ∀ change, .restarted change ∈ trace → change.config = initial

/-- The event does not change the configuration. -/
def keepsConfigEvent (initial : ServerConfig) : Event (server P) → Bool
  | .restarted change => change.config = initial
  | _ => true

instance (initial : ServerConfig) (trace : List (Event (server P))) :
    Decidable (KeepsConfig initial trace) :=
  decidable_of_iff (∀ event ∈ trace, keepsConfigEvent initial event = true) (by
    constructor
    · intro kept change member
      exact of_decide_eq_true (kept _ member)
    · intro keeps event member
      cases event with
      | restarted change => exact decide_eq_true (keeps change member)
      | _ => rfl)

theorem keepsConfig_suffixClosed (initial : ServerConfig) :
    SuffixClosed (KeepsConfig (P := P) initial) :=
  fun _ _ keeps change member => keeps change (List.mem_cons_of_mem _ member)

/-- Such a server has its first configuration throughout. -/
theorem configAt_eq_of_keeps {initial : ServerConfig} {trace : List (Event (server P))}
    (keeps : KeepsConfig initial trace) : configAt initial trace = initial := by
  induction trace with
  | nil => rfl
  | cons event trace ih =>
      have earlier := ih (keepsConfig_suffixClosed initial event trace keeps)
      cases event with
      | restarted change => exact keeps change List.mem_cons_self
      | _ => exact earlier

end Configuration

section Bindings

/-- The row is reserved for exactly this request on this endpoint. -/
def BoundTo (P : Protocol) (request : ApiRequestV2) (kind : ReservationKind)
    (row : NullifierRow) : Prop :=
  row.nullifier = P.feltToHex request.nullifier ∧ row.reservationKind = kind.asStr ∧
    row.apiRequestBinding = some (apiRequestBinding P request)

theorem BoundTo.grows (request : ApiRequestV2) (kind : ReservationKind)
    (row grown : NullifierRow) (rowGrows : RowGrows P row grown)
    (bound : BoundTo P request kind row) : BoundTo P request kind grown := by
  cases rowGrows with
  | same => exact bound
  | finalized => exact bound
  | bound boundBy =>
      have unbound := boundBy.unbound
      rw [bound.2.2] at unbound
      cases unbound

/-- The event shows that the row of a request is bound to it. -/
def ShowsBinding (P : Protocol) : Event (server P) → ApiRequestV2 × ReservationKind → Prop
  | .performed _ (.reserve request kind) (.ok ()), index => (request, kind) = index
  | .performed _ (.lookupByNullifier nullifier) (some record), index =>
      nullifier = index.1.nullifier ∧ SameRequest P index.1 index.2 record
  | _, _ => False

/-- A request that was reserved or found reserved has a row bound to it. -/
abbrev Bindings (P : Protocol) : World → List (Event (server P)) → Prop :=
  Evidence (fun _ => True) (ShowsBinding P) fun index world =>
    HasRow world (BoundTo P index.1 index.2)

theorem bindings_preserved : (discipline P).Inductive (Bindings P) := by
  refine server_evidence suffixClosed_true ?_
    (fun index => hasRow_lasting (BoundTo.grows index.1 index.2)) ?_ ?_
  · intro event index shown
    cases event with
    | performed task op response => trivial
    | _ => cases shown
  · intro world after trace task call op answer response index _ executed _ _ shown
    unfold ShowsBinding at shown
    split at shown
    · rename_i same
      cases same
      subst shown
      cases nullifierEffect executed with
      | kept _ passive => exact (passive trivial).elim
      | reserved _ _ inserted =>
          exact ⟨_, (Table.mem_insert inserted).mpr (Or.inr rfl), rfl, rfl, rfl⟩
    · rename_i same
      cases same
      obtain ⟨sameNullifier, sameRequest⟩ := shown
      obtain ⟨found, rfl⟩ := execute_lookupByNullifier executed
      obtain ⟨row, member, rowNullifier, rfl⟩ := lookup_eq_some found
      rw [sameNullifier] at rowNullifier
      exact ⟨row, member, rowNullifier, sameRequest.2.2.1, sameRequest.2.2.2⟩
    · exact shown.elim
  · intro world trace task call result index _ _ _ _ shown
    cases shown

theorem Admitted.hasRow {world : World} {trace : List (Event (server P))}
    (bindings : Bindings P world trace) {task : Nat} {request : ApiRequestV2}
    {kind : ReservationKind} (admitted : Admitted P request kind (historyOf task trace)) :
    HasRow world (BoundTo P request kind) := by
  rcases admitted with reserved | ⟨record, found, same, _⟩
  · exact bindings trivial _ (saw_historyOf_iff.mp reserved) (request, kind) rfl
  · exact bindings trivial _ (saw_historyOf_iff.mp found) (request, kind) ⟨rfl, same⟩

theorem Replayed.hasRow {world : World} {trace : List (Event (server P))}
    (bindings : Bindings P world trace) {task : Nat} {request : ApiRequestV2}
    {kind : ReservationKind} {response : RequestResponseV2}
    (replayed : Replayed P request kind (historyOf task trace) response) :
    HasRow world (BoundTo P request kind) := by
  obtain ⟨record, found, same, _⟩ := replayed
  exact bindings trivial _ (saw_historyOf_iff.mp found) (request, kind) ⟨rfl, same⟩

/-- A row is bound to one request on one endpoint. -/
theorem BoundTo.unique {row : NullifierRow} {first second : ApiRequestV2}
    {firstKind secondKind : ReservationKind} (collisionFree : P.CollisionFree)
    (jsonInjective : P.RequestJsonInjective) (firstBound : BoundTo P first firstKind row)
    (secondBound : BoundTo P second secondKind row) :
    first = second ∧ firstKind = secondKind := by
  obtain ⟨_, kind, binding⟩ := firstBound
  obtain ⟨_, otherKind, otherBinding⟩ := secondBound
  rw [binding] at otherBinding
  rw [kind] at otherKind
  exact ⟨apiRequestBinding_injective collisionFree jsonInjective
    (Option.some.inj otherBinding), ReservationKind.asStr_injective otherKind⟩

end Bindings

section Transcripts

/-- The row of a nullifier carries this transcript. -/
def WrittenWith (P : Protocol) (nullifier : Felt252) (transcript : TranscriptRecord)
    (row : NullifierRow) : Prop :=
  row.nullifier = P.feltToHex nullifier ∧
    ∃ now old, row = Store.finalizedRow P now transcript old

theorem WrittenWith.grows (nullifier : Felt252) (transcript : TranscriptRecord)
    (row grown : NullifierRow) (rowGrows : RowGrows P row grown)
    (written : WrittenWith P nullifier transcript row) :
    WrittenWith P nullifier transcript grown := by
  refine ⟨rowGrows.nullifier_eq.trans written.1, ?_⟩
  obtain ⟨_, now, old, rfl⟩ := written
  cases rowGrows with
  | same => exact ⟨now, old, rfl⟩
  | finalized _ reserved =>
      have impossible : statusToStr .finalized = statusToStr .reserved := reserved
      exact absurd impossible (by decide)
  | bound bound =>
      obtain ⟨request, _, _, rfl⟩ := bound.request
      exact ⟨now, { old with apiRequestBinding := _ }, rfl⟩

def WritesTranscript : Event (server P) → Felt252 × TranscriptRecord → Prop
  | .performed _ (.finalize nullifier transcript) (.ok ()), index =>
      (nullifier, transcript) = index
  | _, _ => False

/-- A transcript that was written is still there. -/
abbrev Transcripts (P : Protocol) : World → List (Event (server P)) → Prop :=
  Evidence (fun _ => True) WritesTranscript fun index world =>
    HasRow world (WrittenWith P index.1 index.2)

theorem transcripts_preserved : (discipline P).Inductive (Transcripts P) := by
  refine server_evidence suffixClosed_true ?_
    (fun index => hasRow_lasting (WrittenWith.grows index.1 index.2)) ?_ ?_
  · intro event index writes
    cases event with
    | performed task op response => trivial
    | _ => cases writes
  · intro world after trace task call op answer response index _ executed _ _ writes
    unfold WritesTranscript at writes
    split at writes
    · rename_i same
      cases same
      subst writes
      cases nullifierEffect executed with
      | kept _ passive => exact (passive trivial).elim
      | finalized nullifier transcript updated found =>
          obtain ⟨row, member, reserved⟩ := Table.exists_of_affected found
          refine ⟨_, (Table.mem_update updated).mpr ⟨row, member, rfl⟩, ?_⟩
          rw [Table.updatedRow, if_pos reserved]
          exact ⟨(of_decide_eq_true reserved).1, world.now, row, rfl⟩
    · exact writes.elim
  · intro world trace task call result index _ _ _ _ writes
    cases writes

/-- The row of a nullifier belongs to this endpoint. -/
def HasKind (P : Protocol) (nullifier : Felt252) (kind : String) (row : NullifierRow) :
    Prop :=
  row.nullifier = P.feltToHex nullifier ∧ row.reservationKind = kind

theorem HasKind.grows (nullifier : Felt252) (kind : String) (row grown : NullifierRow)
    (rowGrows : RowGrows P row grown) (has : HasKind P nullifier kind row) :
    HasKind P nullifier kind grown := by
  refine ⟨rowGrows.nullifier_eq.trans has.1, ?_⟩
  cases rowGrows with
  | same => exact has.2
  | finalized => exact has.2
  | bound bound =>
      obtain ⟨request, _, _, rfl⟩ := bound.request
      exact has.2

def ShowsKind : Event (server P) → Felt252 × String → Prop
  | .performed _ (.lookupByNullifier nullifier) (some record), index =>
      (nullifier, record.reservationKind) = index
  | _, _ => False

/-- A row that was looked up keeps the kind it was found with. -/
abbrev Kinds (P : Protocol) : World → List (Event (server P)) → Prop :=
  Evidence (fun _ => True) ShowsKind fun index world =>
    HasRow world (HasKind P index.1 index.2)

theorem kinds_preserved : (discipline P).Inductive (Kinds P) := by
  refine server_evidence suffixClosed_true ?_
    (fun index => hasRow_lasting (HasKind.grows index.1 index.2)) ?_ ?_
  · intro event index shows
    cases event with
    | performed task op response => trivial
    | _ => cases shows
  · intro world after trace task call op answer response index _ executed _ _ shows
    unfold ShowsKind at shows
    split at shows
    · rename_i same
      cases same
      subst shows
      obtain ⟨found, rfl⟩ := execute_lookupByNullifier executed
      obtain ⟨row, member, rowNullifier, rfl⟩ := lookup_eq_some found
      exact ⟨row, member, rowNullifier, rfl⟩
    · exact shows.elim
  · intro world trace task call result index _ _ _ _ shows
    cases shows

/-- The kind that a task has looked up is the kind of the row that the request
is bound to. -/
theorem kind_of_boundTo {world : World} {trace : List (Event (server P))}
    (kinds : Kinds P world trace) {task : Nat} {request : ApiRequestV2}
    {kind : ReservationKind} (bound : HasRow world (BoundTo P request kind))
    {record : TranscriptRecord} (found : Saw (historyOf task trace)
      (.lookupByNullifier request.nullifier) (some record)) :
    record.reservationKind = kind.asStr := by
  obtain ⟨row, member, nullifier, rowKind⟩ := kinds trivial _ (saw_historyOf_iff.mp found)
    (request.nullifier, record.reservationKind) rfl
  obtain ⟨other, otherMember, otherNullifier, otherKind, _⟩ := bound
  obtain rfl := row_unique member otherMember (nullifier.trans otherNullifier.symm)
  exact rowKind.symm.trans otherKind

end Transcripts

section Memory

/-- Everything about requests that the store of a server remembers of its
run. -/
abbrev Remembers (P : Protocol) (initial : ServerConfig) (world : World)
    (trace : List (Event (server P))) : Prop :=
  world.config = configAt initial trace ∧ Bindings P world trace ∧
    Transcripts P world trace ∧ Kinds P world trace

theorem remembers_preserved (initial : ServerConfig) :
    (discipline P).Inductive (Remembers P initial) :=
  (configAt_preserved initial).both
    (bindings_preserved.both (transcripts_preserved.both kinds_preserved))

theorem remembers_initial (world : World) : Remembers P world.config world [] :=
  ⟨rfl, evidence_initial (M := server P) world, evidence_initial (M := server P) world,
    evidence_initial (M := server P) world⟩

end Memory

end ZkApi
