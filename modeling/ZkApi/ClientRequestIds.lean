import ZkApi.LeaseRows
import ZkApi.ReferenceProtocol

/-!
# Client request ids

A nullifier row carries the id that the client chose for its request.  The
table is keyed by nullifier only, so two clients can choose one id.  An id
names one row exactly as long as every request is reserved under an id that no
reserved request has.
-/

namespace ZkApi

open ConstrainedTable Interleaving

variable {P : Protocol}

section Rows

/-- The row of a nullifier carries this id. -/
def CarriesId (nullifier clientRequestId : String) (row : NullifierRow) : Prop :=
  row.nullifier = nullifier ∧ row.clientRequestId = some clientRequestId

theorem CarriesId.grows (nullifier clientRequestId : String) (row grown : NullifierRow)
    (rowGrows : RowGrows P row grown) (carries : CarriesId nullifier clientRequestId row) :
    CarriesId nullifier clientRequestId grown := by
  refine ⟨rowGrows.nullifier_eq.trans carries.1, ?_⟩
  cases rowGrows with
  | same => exact carries.2
  | finalized => exact carries.2
  | bound bound =>
      obtain ⟨request, _, _, rfl⟩ := bound.request
      exact carries.2

/-- The event shows that the row of a request carries its id. -/
def ShowsId : Event (server P) → ApiRequestV2 → Prop
  | .performed _ (.reserve request _) (.ok ()), index => request = index
  | .performed _ (.lookupByNullifier nullifier) (some record), index =>
      nullifier = index.nullifier ∧ record.clientRequestId = some index.clientRequestId
  | _, _ => False

/-- A request that was reserved or found reserved has a row with its id. -/
abbrev IdsCarried (P : Protocol) : World → List (Event (server P)) → Prop :=
  Evidence (fun _ => True) ShowsId fun request world =>
    HasRow world (CarriesId (P.feltToHex request.nullifier) request.clientRequestId)

theorem idsCarried_preserved : (discipline P).Inductive (IdsCarried P) := by
  refine server_evidence suffixClosed_true ?_ (fun request =>
    hasRow_lasting (CarriesId.grows _ request.clientRequestId)) ?_ ?_
  · intro event request shown
    cases event with
    | performed task op response => trivial
    | _ => cases shown
  · intro world after trace task call op answer response request _ executed _ _ shown
    unfold ShowsId at shown
    split at shown
    · rename_i same
      cases same
      subst shown
      cases nullifierEffect executed with
      | kept _ passive => exact (passive trivial).elim
      | reserved _ _ inserted =>
          exact ⟨_, (Table.mem_insert inserted).mpr (Or.inr rfl), rfl, rfl⟩
    · rename_i same
      cases same
      obtain ⟨rfl, sameId⟩ := shown
      obtain ⟨found, rfl⟩ := execute_lookupByNullifier executed
      obtain ⟨row, member, rowNullifier, rfl⟩ := lookup_eq_some found
      exact ⟨row, member, rowNullifier, sameId⟩
    · exact shown.elim
  · intro world trace task call result request _ _ _ _ shown
    cases shown

theorem Admitted.carriesId {world : World} {trace : List (Event (server P))}
    (carried : IdsCarried P world trace) {task : Nat} {request : ApiRequestV2}
    {kind : ReservationKind} (admitted : Admitted P request kind (historyOf task trace)) :
    HasRow world (CarriesId (P.feltToHex request.nullifier) request.clientRequestId) := by
  rcases admitted with reserved | ⟨record, found, same, _⟩
  · exact carried trivial _ (saw_historyOf_iff.mp reserved) request rfl
  · exact carried trivial _ (saw_historyOf_iff.mp found) request ⟨rfl, same.1⟩

/-- The request was reserved in this run. -/
def WasReserved (trace : List (Event (server P))) (request : ApiRequestV2) : Prop :=
  ∃ task kind, .performed task (.reserve request kind) (.ok ()) ∈ trace

theorem WasReserved.mono {trace later : List (Event (server P))} {request : ApiRequestV2}
    (reserved : WasReserved trace request) (grows : trace <:+ later) :
    WasReserved later request := by
  obtain ⟨task, kind, event⟩ := reserved
  exact ⟨task, kind, grows.subset event⟩

/-- Every row with an id was inserted for a reserved request of that id. -/
def IdsReserved (P : Protocol) (world : World) (trace : List (Event (server P))) : Prop :=
  ∀ row ∈ world.store.nullifiers, ∀ clientRequestId, row.clientRequestId = some clientRequestId →
    ∃ request, WasReserved trace request ∧ request.clientRequestId = clientRequestId ∧
      row.nullifier = P.feltToHex request.nullifier

private theorem IdsReserved.mono {world after : World} {trace : List (Event (server P))}
    (reserved : IdsReserved P world trace)
    (rows : ∀ grown ∈ after.store.nullifiers, ∃ row ∈ world.store.nullifiers,
      grown.nullifier = row.nullifier ∧ grown.clientRequestId = row.clientRequestId)
    (event : Event (server P)) : IdsReserved P after (event :: trace) := by
  intro grown member clientRequestId carries
  obtain ⟨row, rowMember, sameNullifier, sameId⟩ := rows grown member
  obtain ⟨request, was, requestId, nullifier⟩ :=
    reserved row rowMember clientRequestId (sameId.symm.trans carries)
  exact ⟨request, was.mono (List.suffix_cons event trace), requestId,
    sameNullifier.trans nullifier⟩

private theorem IdsReserved.same {world after : World} {trace : List (Event (server P))}
    (reserved : IdsReserved P world trace)
    (nullifiers : after.store.nullifiers = world.store.nullifiers)
    (event : Event (server P)) : IdsReserved P after (event :: trace) := by
  apply reserved.mono
  intro row member
  rw [nullifiers] at member
  exact ⟨row, member, rfl, rfl⟩

private theorem idsReserved_performed {task : Nat} {op : Op} {answer : Answer}
    {world after : World} {response : Resp op} {trace : List (Event (server P))}
    (executed : execute P task op answer world = some (response, after))
    (held : IdsReserved P world trace) :
    IdsReserved P after (.performed task op response :: trace) := by
  cases nullifierEffect executed with
  | kept same => exact held.same same _
  | reserved request kind inserted =>
      intro row member clientRequestId carries
      rcases (Table.mem_insert inserted).mp member with old | rfl
      · obtain ⟨other, was, otherId, nullifier⟩ := held row old clientRequestId carries
        exact ⟨other, was.mono (List.suffix_cons _ trace), otherId, nullifier⟩
      · exact ⟨request, ⟨task, kind, List.mem_cons_self⟩, Option.some.inj carries, rfl⟩
  | finalized nullifier transcript updated found =>
      apply held.mono
      intro grown member
      obtain ⟨row, rowMember, rfl⟩ := (Table.mem_update updated).mp member
      refine ⟨row, rowMember, ?_⟩
      unfold Table.updatedRow
      split <;> exact ⟨rfl, rfl⟩
  | cleared nullifier inserted =>
      intro row member clientRequestId carries
      rcases (Table.mem_insert inserted).mp member with old | rfl
      · obtain ⟨other, was, otherId, otherNullifier⟩ := held row old clientRequestId carries
        exact ⟨other, was.mono (List.suffix_cons _ trace), otherId, otherNullifier⟩
      · cases carries

theorem idsReserved_preserved : (discipline P).Inductive (IdsReserved P) where
  started _ _ _ _ held := held.same rfl _
  performed _ _ _ executed _ held := idsReserved_performed executed held
  returned := by
    intro world trace task call result _ _ _ _ _ held
    apply held.same
    rfl
  aborted := by
    intro world trace task _ _ held
    apply held.same
    rfl
  moved := by
    intro world trace change after moved _ held
    have moved : move world change = some after := moved
    apply held.same
    rw [move_eq moved]
  restarted := by
    intro world trace change after rebooted _ held
    have rebooted : reboot P world change = some after := rebooted
    apply held.mono
    intro grown member
    rw [(reboot_eq rebooted).1] at member
    obtain ⟨row, rowMember, rfl | ⟨lease, _, bound⟩⟩ := backfill_row_origin member
    · exact ⟨grown, rowMember, rfl, rfl⟩
    · obtain ⟨request, _, _, rfl⟩ := bound.request
      exact ⟨row, rowMember, rfl, rfl⟩

end Rows

section Leases

/-- The reservation of every lease carries the id of the lease. -/
def LeasesCarried (world : World) : Prop :=
  ∀ lease ∈ world.store.leases,
    HasRow world (CarriesId lease.requestNullifier lease.clientRequestId)

theorem LeasesCarried.mono {world after : World} (carried : LeasesCarried world)
    (leases : ∀ grown ∈ after.store.leases, ∃ row ∈ world.store.leases, SameLease grown row)
    (grows : RowsGrow P world after) : LeasesCarried after := by
  intro grown member
  obtain ⟨row, rowMember, same⟩ := leases grown member
  rw [same.clientRequestId, same.requestNullifier]
  exact (carried row rowMember).grow grows (CarriesId.grows _ row.clientRequestId)

theorem leasesCarried_preserved :
    (discipline P).Preserved (IdsCarried P) fun world _ => LeasesCarried world where
  started _ _ _ _ held := held
  performed := by
    intro world trace task call op answer response after _ _ allowed executed carried held
    have allowed : Allowed P world.config call (historyOf task trace) op := allowed
    have grows := execute_rowsGrow executed
    intro grown member
    rcases (leaseEffect executed).row_origin member with ⟨row, rowMember, leaseGrows⟩ |
        ⟨created, keySource, issuedAt, expiresAt, settleAfter, spendingLimitUsd, same, rfl⟩
    · rw [leaseGrows.sameLease.clientRequestId, leaseGrows.sameLease.requestNullifier]
      exact (held row rowMember).grow grows (CarriesId.grows _ row.clientRequestId)
    · cases same
      exact (allowed.2.admitted.carriesId carried).grow grows
        (CarriesId.grows _ created.clientRequestId)
  returned _ _ _ _ _ held := held
  aborted _ _ held := held
  moved := by
    intro world trace change after moved _ held
    have moved : move world change = some after := moved
    refine held.mono ?_ (move_rowsGrow (P := P) moved)
    intro grown member
    rw [move_eq moved] at member
    exact ⟨grown, member, (LeaseGrows.same grown).sameLease⟩
  restarted := by
    intro world trace change after rebooted _ held
    have rebooted : reboot P world change = some after := rebooted
    refine held.mono ?_ (reboot_rowsGrow rebooted)
    intro grown member
    rw [(reboot_eq rebooted).1] at member
    exact ⟨grown, member, (LeaseGrows.same grown).sameLease⟩

end Leases

section Ids

/-- An id names one row, and everything that is keyed by the id of a reserved
request is about that request. -/
structure IdsNameRequests (P : Protocol) (world : World) (trace : List (Event (server P))) :
    Prop where
  unique : ∀ first ∈ world.store.nullifiers, ∀ second ∈ world.store.nullifiers,
    first.clientRequestId.isSome → first.clientRequestId = second.clientRequestId →
      first = second
  recovery : ∀ request, WasReserved trace request →
    world.store.lookupByClientId P request.clientRequestId =
      world.store.lookupByNullifier P request.nullifier
  leases : ∀ request, WasReserved trace request → ∀ lease ∈ world.store.leases,
    lease.clientRequestId = request.clientRequestId →
      lease.requestNullifier = P.feltToHex request.nullifier

/-- Whenever a request is reserved, no request with its id was reserved
before. -/
def ReservesFreshIds (trace : List (Event (server P))) : Prop :=
  ∀ task request kind earlier,
    .performed task (.reserve request kind) (.ok ()) :: earlier <:+ trace →
      ∀ other, WasReserved earlier other → other.clientRequestId ≠ request.clientRequestId

/-- Under fresh ids, reserved requests with one id are one request. -/
theorem ReservesFreshIds.request_unique {trace : List (Event (server P))}
    (fresh : ReservesFreshIds trace) {first second : ApiRequestV2}
    (firstReserved : WasReserved trace first) (secondReserved : WasReserved trace second)
    (sameId : first.clientRequestId = second.clientRequestId) : first = second := by
  obtain ⟨task, kind, event⟩ := firstReserved
  obtain ⟨otherTask, otherKind, otherEvent⟩ := secondReserved
  obtain ⟨later, earlier, split⟩ := List.append_of_mem event
  have suffix : .performed task (.reserve first kind) (.ok ()) :: earlier <:+ trace :=
    ⟨later, split.symm⟩
  rw [split] at otherEvent
  rcases List.mem_append.mp otherEvent with after | before
  · obtain ⟨newest, middle, laterSplit⟩ := List.append_of_mem after
    have otherSuffix : .performed otherTask (.reserve second otherKind) (.ok ()) ::
        (middle ++ .performed task (.reserve first kind) (.ok ()) :: earlier) <:+ trace := by
      refine ⟨newest, ?_⟩
      rw [split, laterSplit]
      simp
    have was : WasReserved (middle ++ .performed task (.reserve first kind) (.ok ()) :: earlier)
        first := ⟨task, kind, by simp⟩
    exact (fresh _ _ _ _ otherSuffix first was sameId).elim
  · rcases List.mem_cons.mp before with same | before
    · cases same
      rfl
    · exact (fresh _ _ _ _ suffix second ⟨otherTask, otherKind, before⟩ sameId.symm).elim

variable {world : World} {trace : List (Event (server P))}

private theorem lookupByClientId_of_unique
    (unique : ∀ first ∈ world.store.nullifiers, ∀ second ∈ world.store.nullifiers,
      first.clientRequestId.isSome → first.clientRequestId = second.clientRequestId →
        first = second) {nullifier : Felt252} {clientRequestId : String}
    (carries : HasRow world (CarriesId (P.feltToHex nullifier) clientRequestId)) :
    world.store.lookupByClientId P clientRequestId =
      world.store.lookupByNullifier P nullifier := by
  obtain ⟨row, member, rowNullifier, rowId⟩ := carries
  rw [lookup_of_mem member rowNullifier, Store.lookupByClientId]
  cases found : world.store.nullifiers.first
      fun row => row.clientRequestId = some clientRequestId with
  | none =>
      have missing := Table.first_eq_none found member
      simp [rowId] at missing
  | some other =>
      obtain ⟨otherMember, otherId⟩ := Table.first_eq_some found
      have otherId := of_decide_eq_true otherId
      rw [unique other otherMember row member (by simp [otherId]) (otherId.trans rowId.symm)]
      rfl

theorem idsNameRequests_of_fresh (carried : IdsCarried P world trace)
    (reserved : IdsReserved P world trace) (leases : LeasesCarried world)
    (fresh : ReservesFreshIds trace) : IdsNameRequests P world trace := by
  have unique : ∀ first ∈ world.store.nullifiers, ∀ second ∈ world.store.nullifiers,
      first.clientRequestId.isSome → first.clientRequestId = second.clientRequestId →
        first = second := by
    intro first firstMember second secondMember present same
    obtain ⟨clientRequestId, firstId⟩ := Option.isSome_iff_exists.mp present
    obtain ⟨request, was, requestId, nullifier⟩ :=
      reserved first firstMember clientRequestId firstId
    obtain ⟨other, otherWas, otherId, otherNullifier⟩ :=
      reserved second secondMember clientRequestId (same.symm.trans firstId)
    have sameRequest := fresh.request_unique was otherWas (requestId.trans otherId.symm)
    apply row_unique firstMember secondMember
    rw [nullifier, otherNullifier, sameRequest]
  have hasRow : ∀ request, WasReserved trace request →
      HasRow world (CarriesId (P.feltToHex request.nullifier) request.clientRequestId) := by
    rintro request ⟨task, kind, event⟩
    exact carried trivial _ event request rfl
  refine ⟨unique, fun request was => lookupByClientId_of_unique unique (hasRow request was), ?_⟩
  intro request was lease member sameId
  obtain ⟨row, rowMember, rowNullifier, rowId⟩ := hasRow request was
  obtain ⟨other, otherMember, otherNullifier, otherId⟩ := leases lease member
  rw [sameId] at otherId
  have sameRow := unique other otherMember row rowMember (by simp [otherId])
    (otherId.trans rowId.symm)
  rw [← otherNullifier, sameRow, rowNullifier]

theorem fresh_of_idsNameRequests (carried : IdsCarried P world trace)
    (occurred : (discipline P).Occurred (IdsCarried P) trace)
    (names : IdsNameRequests P world trace) : ReservesFreshIds trace := by
  intro task request kind earlier suffix other was sameId
  obtain ⟨otherTask, otherKind, otherEvent⟩ := was
  obtain ⟨row, member, rowNullifier, rowId⟩ := carried trivial _
    (suffix.subset List.mem_cons_self) request rfl
  obtain ⟨otherRow, otherMember, otherNullifier, otherId⟩ := carried trivial _
    (suffix.subset (List.mem_cons_of_mem _ otherEvent)) other rfl
  have sameRow := names.unique otherRow otherMember row member (by simp [otherId])
    (by rw [otherId, rowId, sameId])
  obtain ⟨call, before, answer, after, _, _, executed, carriedBefore⟩ := occurred _ _ suffix
  obtain ⟨old, oldMember, oldNullifier, _⟩ := carriedBefore trivial _ otherEvent other rfl
  have executed : execute P task (.reserve request kind) answer before =
    some (.ok (), after) := executed
  cases nullifierEffect executed with
  | kept _ passive => exact passive trivial
  | reserved _ _ inserted =>
      apply Table.not_clash_of_insert inserted oldMember
      change old.nullifier = P.feltToHex request.nullifier
      rw [oldNullifier, ← otherNullifier, sameRow, rowNullifier]

/-- In a run from an empty store, ids name requests exactly as long as requests
are reserved under fresh ids. -/
theorem ids_name_requests_iff (P : Protocol) (world : World) (empty : world.store = Store.empty)
    {state : State (server P)} (run : (State.initial (server P) world).Reaches state) :
    IdsNameRequests P state.world state.trace ↔ ReservesFreshIds state.trace := by
  have unreserved : IdsReserved P world [] := by
    intro row member
    rw [empty] at member
    exact (Table.not_mem_empty row member).elim
  have uncarried : LeasesCarried world := by
    intro row member
    rw [empty] at member
    exact (Table.not_mem_empty row member).elim
  have nothing : IdsCarried P world [] := evidence_initial (M := server P) world
  obtain ⟨carried, leases⟩ := (idsCarried_preserved.and leasesCarried_preserved).holds
    ⟨nothing, uncarried⟩ run
  have reserved := idsReserved_preserved.holds unreserved run
  constructor
  · exact fresh_of_idsNameRequests carried (idsCarried_preserved.occurred_holds nothing run)
  · exact idsNameRequests_of_fresh carried reserved leases

theorem ids_name_requests_iff_proxied :
    ∃ state, (State.initial (server Reference.protocol)
        (Reference.world (Reference.config 10 1 false none))).Reaches state ∧
      state.trace.countP (isFinalization ⟨6⟩) = 1 ∧
      (IdsNameRequests Reference.protocol state.world state.trace ↔
        ReservesFreshIds state.trace) := by
  have reached : ∃ state, (State.initial (server Reference.protocol)
        (Reference.world (Reference.config 10 1 false none))).Reaches state ∧
      state.trace.countP (isFinalization ⟨6⟩) = 1 :=
    State.reaches_of_decide (Reference.runs 0 (.processRequest Reference.proxyRequest)
      (Reference.requestAnswers 10)) (by decide)
  obtain ⟨state, run, finalized⟩ := reached
  exact ⟨state, run, finalized, ids_name_requests_iff Reference.protocol _ rfl run⟩

/-- Two requests with one id and different nullifiers are both reserved. -/
theorem ids_shared :
    ∃ state, (State.initial (server Reference.protocol)
        (Reference.world (Reference.config 10 1 false none))).Reaches state ∧
      ¬ IdsNameRequests Reference.protocol state.world state.trace := by
  have reached : ∃ state, (State.initial (server Reference.protocol)
        (Reference.world (Reference.config 10 1 false none))).Reaches state ∧
      ∃ first ∈ state.world.store.nullifiers.rows,
        ∃ second ∈ state.world.store.nullifiers.rows,
          first.clientRequestId = some "req-1" ∧ second.clientRequestId = some "req-1" ∧
            first.nullifier ≠ second.nullifier :=
    State.reaches_of_decide (Reference.runs 0 (.processRequest Reference.proxyRequest)
        (List.replicate 4 .nothing) ++
      Reference.runs 1 (.processRequest (Reference.request "req-1" "other" 7 10))
        (List.replicate 4 .nothing)) (by decide)
  obtain ⟨state, run, first, firstMember, second, secondMember, firstId, secondId, apart⟩ :=
    reached
  refine ⟨state, run, fun names => apart ?_⟩
  rw [names.unique first firstMember second secondMember (by simp [firstId])
    (firstId.trans secondId.symm)]

end Ids

end ZkApi
