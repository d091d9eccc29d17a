import ZkApi.ServerMachine

/-!
# What one operation does to the store

Each operation leaves the nullifier table alone, inserts one row or finalizes
one row; restarting may fill in a missing binding.  Lease rows are inserted,
changed in place or removed.  Everything later chapters need of the store
follows from these few shapes.
-/

namespace ZkApi

open ConstrainedTable Interleaving MachineIntegers

section Nullifiers

/-- The operation has changed the nullifier table. -/
def WritesNullifiers : (op : Op) → Resp op → Prop
  | .reserve _ _, .ok _ => True
  | .finalize _ _, .ok _ => True
  | .reserveClearance _, .ok _ => True
  | _, _ => False

/-- What an operation with this response has done to the nullifier table. -/
inductive NullifierEffect (P : Protocol) (world after : World) :
    (op : Op) → Resp op → Prop
  | kept {op : Op} {response : Resp op}
      (same : after.store.nullifiers = world.store.nullifiers)
      (passive : ¬ WritesNullifiers op response) : NullifierEffect P world after op response
  | reserved (request : ApiRequestV2) (kind : ReservationKind)
      (inserted : world.store.nullifiers.insert (Store.reservedRow P world.now
        request.nullifier request.clientRequestId request.payloadHash kind.asStr
        (some (apiRequestBinding P request))) = some after.store.nullifiers) :
      NullifierEffect P world after (.reserve request kind) (.ok ())
  | finalized (nullifier : Felt252) (transcript : TranscriptRecord)
      (updated : world.store.nullifiers.update (Store.isReserved P nullifier)
        (Store.finalizedRow P world.now transcript) = some after.store.nullifiers)
      (found : world.store.nullifiers.affected (Store.isReserved P nullifier) ≠ 0) :
      NullifierEffect P world after (.finalize nullifier transcript) (.ok ())
  | cleared (nullifier : Felt252)
      (inserted : world.store.nullifiers.insert
        (Store.clearanceRow P world.now nullifier) = some after.store.nullifiers) :
      NullifierEffect P world after (.reserveClearance nullifier) (.ok ())

variable {P : Protocol} {task : Nat} {op : Op} {answer : Answer} {world after : World}
  {response : Resp op}

theorem nullifierEffect
    (executed : execute P task op answer world = some (response, after)) :
    NullifierEffect P world after op response := by
  cases op with
  | reserve request kind =>
      cases Option.some.inj executed
      dsimp only [Store.reserveBoundV2, Store.reserveWithKind]
      split
      · exact .reserved request kind ‹_›
      · exact .kept rfl id
  | finalize nullifier transcript =>
      cases Option.some.inj executed
      dsimp only [Store.finalize]
      split
      · exact .kept rfl id
      · split
        · exact .kept rfl id
        · exact .finalized nullifier transcript ‹_› ‹_›
  | reserveClearance nullifier =>
      cases Option.some.inj executed
      dsimp only [Store.reserveClearance]
      split
      · exact .cleared nullifier ‹_›
      · exact .kept rfl id
  | _ =>
      refine .kept ?_ id
      rcases execute_cases executed with ⟨outcome, found, _, rfl⟩ | ⟨_, outside⟩
      · cases found <;>
          simp [Store.updateOpenRouterLeaseTiming, Store.activateOpenRouterLease]
      · rw [executeOutside_eq outside]

/-- A row without a binding has been bound to the request of a lease row. -/
structure BoundBy (P : Protocol) (lease : LeaseRow) (row grown : NullifierRow) : Prop where
  unbound : row.apiRequestBinding = none
  kind : row.reservationKind = ReservationKind.openRouterLease.asStr
  nullifier : row.nullifier = lease.requestNullifier
  request : ∃ request, P.requestFromJson lease.apiRequestJson = some request ∧
    P.feltToHex request.nullifier = lease.requestNullifier ∧
    grown = { row with apiRequestBinding := some (apiRequestBinding P request) }

/-- How a nullifier row can change. -/
inductive RowGrows (P : Protocol) : NullifierRow → NullifierRow → Prop
  | same (row : NullifierRow) : RowGrows P row row
  | finalized (row : NullifierRow) (reserved : row.status = statusToStr .reserved)
      (now : UInt64) (transcript : TranscriptRecord) :
      RowGrows P row (Store.finalizedRow P now transcript row)
  | bound {lease : LeaseRow} {row grown : NullifierRow} (bound : BoundBy P lease row grown) :
      RowGrows P row grown

theorem RowGrows.nullifier_eq {row grown : NullifierRow} (grows : RowGrows P row grown) :
    grown.nullifier = row.nullifier := by
  cases grows with
  | same => rfl
  | finalized => rfl
  | bound bound =>
      obtain ⟨request, _, _, rfl⟩ := bound.request
      rfl

theorem updatedRow_finalizedRow_grows (nullifier : Felt252) (now : UInt64)
    (transcript : TranscriptRecord) (row : NullifierRow) :
    RowGrows P row (Table.updatedRow (Store.isReserved P nullifier)
      (Store.finalizedRow P now transcript) row) := by
  unfold Table.updatedRow
  split
  · rename_i reserved
    exact .finalized row (of_decide_eq_true reserved).2 _ _
  · exact .same row

/-- No row is ever lost. -/
theorem NullifierEffect.row_grows (effect : NullifierEffect P world after op response)
    {row : NullifierRow} (member : row ∈ world.store.nullifiers) :
    ∃ grown ∈ after.store.nullifiers, RowGrows P row grown := by
  cases effect with
  | kept same => exact ⟨row, same ▸ member, .same row⟩
  | reserved request kind inserted =>
      exact ⟨row, (Table.mem_insert inserted).mpr (Or.inl member), .same row⟩
  | finalized nullifier transcript updated found =>
      exact ⟨_, (Table.mem_update updated).mpr ⟨row, member, rfl⟩,
        updatedRow_finalizedRow_grows nullifier world.now transcript row⟩
  | cleared nullifier inserted =>
      exact ⟨row, (Table.mem_insert inserted).mpr (Or.inl member), .same row⟩

/-- A row that is new in the table is the row an operation has inserted. -/
theorem NullifierEffect.row_origin (effect : NullifierEffect P world after op response)
    {grown : NullifierRow} (member : grown ∈ after.store.nullifiers) :
    (∃ row ∈ world.store.nullifiers, RowGrows P row grown) ∨
      (∃ (request : ApiRequestV2) (kind : ReservationKind),
        grown = Store.reservedRow P world.now request.nullifier request.clientRequestId
          request.payloadHash kind.asStr (some (apiRequestBinding P request))) ∨
      ∃ nullifier, grown = Store.clearanceRow P world.now nullifier := by
  cases effect with
  | kept same => exact Or.inl ⟨grown, same ▸ member, .same grown⟩
  | reserved request kind inserted =>
      rcases (Table.mem_insert inserted).mp member with old | rfl
      · exact Or.inl ⟨grown, old, .same grown⟩
      · exact Or.inr (Or.inl ⟨request, kind, rfl⟩)
  | finalized nullifier transcript updated found =>
      obtain ⟨row, rowMember, rfl⟩ := (Table.mem_update updated).mp member
      exact Or.inl ⟨row, rowMember,
        updatedRow_finalizedRow_grows nullifier world.now transcript row⟩
  | cleared nullifier inserted =>
      rcases (Table.mem_insert inserted).mp member with old | rfl
      · exact Or.inl ⟨grown, old, .same grown⟩
      · exact Or.inr (Or.inr ⟨nullifier, rfl⟩)

section Backfill

private theorem backfillBinding_cases (table : Table NullifierRow.Clash)
    (lease : LeaseRow) :
    Store.backfillBinding P table lease = table ∨
      ∃ request, P.requestFromJson lease.apiRequestJson = some request ∧
        P.feltToHex request.nullifier = lease.requestNullifier ∧
        table.update (Store.isUnbound P lease request.payloadHash) (fun row =>
          { row with apiRequestBinding := some (apiRequestBinding P request) }) =
            some (Store.backfillBinding P table lease) := by
  unfold Store.backfillBinding
  split
  · exact Or.inl rfl
  rename_i request decoded
  split
  · exact Or.inl rfl
  rename_i agrees
  push Not at agrees
  cases updated : table.update (Store.isUnbound P lease request.payloadHash) fun row =>
      { row with apiRequestBinding := some (apiRequestBinding P request) } with
  | none => exact Or.inl rfl
  | some bound => exact Or.inr ⟨request, decoded, agrees.2, updated⟩

private theorem updatedRow_boundBy {lease : LeaseRow} {request : ApiRequestV2}
    (decoded : P.requestFromJson lease.apiRequestJson = some request)
    (agrees : P.feltToHex request.nullifier = lease.requestNullifier)
    (row : NullifierRow) :
    Table.updatedRow (Store.isUnbound P lease request.payloadHash) (fun row =>
        { row with apiRequestBinding := some (apiRequestBinding P request) }) row = row ∨
      BoundBy P lease row
        (Table.updatedRow (Store.isUnbound P lease request.payloadHash) (fun row =>
          { row with apiRequestBinding := some (apiRequestBinding P request) }) row) := by
  unfold Table.updatedRow
  split
  · rename_i unbound
    have unbound := of_decide_eq_true unbound
    exact Or.inr ⟨unbound.2.2.2.2, unbound.2.2.2.1, unbound.1,
      request, decoded, agrees, rfl⟩
  · exact Or.inl rfl

private theorem backfillBinding_mem {table : Table NullifierRow.Clash} {lease : LeaseRow}
    {grown : NullifierRow} (member : grown ∈ Store.backfillBinding P table lease) :
    ∃ row ∈ table, grown = row ∨ BoundBy P lease row grown := by
  rcases backfillBinding_cases table lease with same | ⟨request, decoded, agrees, updated⟩
  · exact ⟨grown, same ▸ member, Or.inl rfl⟩
  · obtain ⟨row, rowMember, rfl⟩ := (Table.mem_update updated).mp member
    exact ⟨row, rowMember, updatedRow_boundBy decoded agrees row⟩

private theorem backfillBinding_grows {table : Table NullifierRow.Clash}
    (lease : LeaseRow) {row : NullifierRow} (member : row ∈ table) :
    ∃ grown ∈ Store.backfillBinding P table lease,
      grown = row ∨ BoundBy P lease row grown := by
  rcases backfillBinding_cases table lease with same | ⟨request, decoded, agrees, updated⟩
  · exact ⟨row, same.symm ▸ member, Or.inl rfl⟩
  · exact ⟨_, (Table.mem_update updated).mpr ⟨row, member, rfl⟩,
      updatedRow_boundBy decoded agrees row⟩

private theorem BoundBy.final {first second : LeaseRow} {row middle grown : NullifierRow}
    (bound : BoundBy P first row middle) : ¬ BoundBy P second middle grown := by
  intro again
  obtain ⟨request, _, _, rfl⟩ := bound.request
  cases again.unbound

private theorem boundBy_trans {lease : LeaseRow} {leases : List LeaseRow}
    {row middle grown : NullifierRow}
    (first : middle = row ∨ BoundBy P lease row middle)
    (later : grown = middle ∨ ∃ other ∈ leases, BoundBy P other middle grown) :
    grown = row ∨ ∃ other ∈ lease :: leases, BoundBy P other row grown := by
  rcases first with rfl | first
  · rcases later with rfl | ⟨other, member, bound⟩
    · exact Or.inl rfl
    · exact Or.inr ⟨other, List.mem_cons_of_mem _ member, bound⟩
  · rcases later with rfl | ⟨other, _, bound⟩
    · exact Or.inr ⟨lease, List.mem_cons_self, first⟩
    · exact (first.final bound).elim

/-- A row of the migrated table is an old row, bound at most once. -/
theorem backfill_row_origin {store : Store} {grown : NullifierRow}
    (member : grown ∈ (store.backfillOpenRouterRequestBindings P).nullifiers) :
    ∃ row ∈ store.nullifiers,
      grown = row ∨ ∃ lease ∈ store.leases, BoundBy P lease row grown := by
  change grown ∈ store.leases.rows.foldl _ _ at member
  change ∃ row ∈ store.nullifiers,
    grown = row ∨ ∃ lease ∈ store.leases.rows, BoundBy P lease row grown
  generalize store.leases.rows = leases at member
  generalize store.nullifiers = table at member
  induction leases generalizing table with
  | nil => exact ⟨grown, member, Or.inl rfl⟩
  | cons lease leases ih =>
      obtain ⟨middle, middleMember, later⟩ := ih _ member
      obtain ⟨row, rowMember, first⟩ := backfillBinding_mem middleMember
      exact ⟨row, rowMember, boundBy_trans first later⟩

theorem backfill_row_grows {store : Store} {row : NullifierRow}
    (member : row ∈ store.nullifiers) :
    ∃ grown ∈ (store.backfillOpenRouterRequestBindings P).nullifiers,
      RowGrows P row grown := by
  change ∃ grown ∈ store.leases.rows.foldl _ _, RowGrows P row grown
  suffices ∃ grown ∈ store.leases.rows.foldl (Store.backfillBinding P) store.nullifiers,
      grown = row ∨ ∃ lease ∈ store.leases.rows, BoundBy P lease row grown by
    obtain ⟨grown, grownMember, rfl | ⟨lease, _, bound⟩⟩ := this
    · exact ⟨grown, grownMember, .same grown⟩
    · exact ⟨grown, grownMember, .bound bound⟩
  generalize store.leases.rows = leases
  generalize store.nullifiers = table at member
  induction leases generalizing table row with
  | nil => exact ⟨row, member, Or.inl rfl⟩
  | cons lease leases ih =>
      obtain ⟨middle, middleMember, first⟩ := backfillBinding_grows lease member
      obtain ⟨grown, grownMember, later⟩ := ih _ middleMember
      exact ⟨grown, grownMember, boundBy_trans first later⟩

end Backfill

end Nullifiers

section Leases

/-- The operation may have changed the lease table. -/
def WritesLeases : (op : Op) → Resp op → Prop
  | .createLease _ _ _ _ _ _, .ok _ => True
  | .updateLeaseTiming _ _ _, .ok _ => True
  | .activateLease _ _, .ok _ => True
  | .removeFailedLease _, _ => True
  | .recordLeaseError _ _, .ok _ => True
  | .finalizeLease _ _ _, .ok _ => True
  | _, _ => False

/-- What an operation with this response has done to the lease table. -/
inductive LeaseEffect (P : Protocol) (world after : World) : (op : Op) → Resp op → Prop
  | kept {op : Op} {response : Resp op}
      (same : after.store.leases = world.store.leases)
      (passive : ¬ WritesLeases op response) : LeaseEffect P world after op response
  | created (request : ApiRequestV2) (keySource : String)
      (issuedAt expiresAt settleAfter : UInt64) (spendingLimitUsd : Float)
      (inserted : world.store.leases.insert (Store.provisioningRow P world.now request
        keySource issuedAt expiresAt settleAfter spendingLimitUsd) =
          some after.store.leases) :
      LeaseEffect P world after
        (.createLease request keySource issuedAt expiresAt settleAfter spendingLimitUsd)
        (.ok ())
  | timed (clientRequestId : String) (expiresAt settleAfter : UInt64)
      (updated : world.store.leases.update (Store.isProvisioning clientRequestId)
        (Store.timedRow world.now expiresAt settleAfter) = some after.store.leases)
      (found : world.store.leases.affected (Store.isProvisioning clientRequestId) ≠ 0) :
      LeaseEffect P world after
        (.updateLeaseTiming clientRequestId expiresAt settleAfter) (.ok ())
  | activated (clientRequestId keyHash : String)
      (updated : world.store.leases.update (Store.isProvisioning clientRequestId)
        (Store.activeRow world.now keyHash) = some after.store.leases)
      (found : world.store.leases.affected (Store.isProvisioning clientRequestId) ≠ 0) :
      LeaseEffect P world after (.activateLease clientRequestId keyHash) (.ok ())
  | removed (clientRequestId : String)
      (deleted : after.store.leases =
        world.store.leases.delete (Store.isFailedProvisioning clientRequestId)) :
      LeaseEffect P world after (.removeFailedLease clientRequestId) (.ok ())
  | errored (clientRequestId error : String)
      (updated : world.store.leases.update
        (fun row => row.clientRequestId = clientRequestId ∧ row.status = "active")
        (fun row => { row with lastError := some error, updatedAt := world.now.toInt64 }) =
          some after.store.leases) :
      LeaseEffect P world after (.recordLeaseError clientRequestId error) (.ok ())
  | settled (clientRequestId : String) (usageUsd : Float) (chargeApplied : Nat)
      (updated : world.store.leases.update
        (fun row => row.clientRequestId = clientRequestId)
        (Store.settledRow world.now usageUsd chargeApplied) = some after.store.leases) :
      LeaseEffect P world after
        (.finalizeLease clientRequestId usageUsd chargeApplied) (.ok ())

variable {P : Protocol} {task : Nat} {op : Op} {answer : Answer} {world after : World}
  {response : Resp op}

private theorem updateProvisioning_cases (store : Store) (clientRequestId refused : String)
    (change : LeaseRow → LeaseRow) :
    (∃ error, (store.updateProvisioning clientRequestId change refused).1 = .error error ∧
      (store.updateProvisioning clientRequestId change refused).2.leases = store.leases) ∨
    (store.updateProvisioning clientRequestId change refused).1 = .ok () ∧
      store.leases.update (Store.isProvisioning clientRequestId) change =
        some (store.updateProvisioning clientRequestId change refused).2.leases ∧
      store.leases.affected (Store.isProvisioning clientRequestId) ≠ 0 := by
  have atMostOne : store.leases.affected (Store.isProvisioning clientRequestId) ≤ 1 := by
    refine Table.affected_le_one fun first second firstHolds secondHolds => Or.inl ?_
    rw [(of_decide_eq_true firstHolds).1, (of_decide_eq_true secondHolds).1]
  unfold Store.updateProvisioning
  split
  · exact Or.inl ⟨_, rfl, rfl⟩
  rename_i leases updated
  split
  · rename_i notOne
    refine Or.inl ⟨_, rfl, Table.update_of_affected_eq_zero updated ?_⟩
    omega
  · rename_i one
    push Not at one
    exact Or.inr ⟨rfl, updated, by omega⟩

theorem leaseEffect
    (executed : execute P task op answer world = some (response, after)) :
    LeaseEffect P world after op response := by
  cases op with
  | createLease request keySource issuedAt expiresAt settleAfter spendingLimitUsd =>
      cases Option.some.inj executed
      dsimp only [Store.createOpenRouterLease]
      split
      · exact .created request keySource issuedAt expiresAt settleAfter spendingLimitUsd ‹_›
      · exact .kept rfl id
  | updateLeaseTiming clientRequestId expiresAt settleAfter =>
      cases Option.some.inj executed
      dsimp only [Store.updateOpenRouterLeaseTiming]
      rcases updateProvisioning_cases world.store clientRequestId
          "lease timing update failed: constraint violation"
          (Store.timedRow world.now expiresAt settleAfter) with
        ⟨error, refused, kept⟩ | ⟨done, updated, found⟩
      · rw [refused]
        exact .kept kept id
      · rw [done]
        exact .timed clientRequestId expiresAt settleAfter updated found
  | activateLease clientRequestId keyHash =>
      cases Option.some.inj executed
      dsimp only [Store.activateOpenRouterLease]
      rcases updateProvisioning_cases world.store clientRequestId
          "lease activation failed: constraint violation"
          (Store.activeRow world.now keyHash) with
        ⟨error, refused, kept⟩ | ⟨done, updated, found⟩
      · rw [refused]
        exact .kept kept id
      · rw [done]
        exact .activated clientRequestId keyHash updated found
  | removeFailedLease clientRequestId =>
      cases Option.some.inj executed
      exact .removed clientRequestId rfl
  | recordLeaseError clientRequestId error =>
      cases Option.some.inj executed
      dsimp only [Store.recordOpenRouterLeaseError]
      split
      · exact .kept rfl id
      · exact .errored clientRequestId error ‹_›
  | finalizeLease clientRequestId usageUsd chargeApplied =>
      cases Option.some.inj executed
      dsimp only [Store.finalizeOpenRouterLease]
      split
      · exact .kept rfl id
      · exact .settled clientRequestId usageUsd chargeApplied ‹_›
  | _ =>
      refine .kept ?_ id
      rcases execute_cases executed with ⟨outcome, found, _, rfl⟩ | ⟨_, outside⟩
      · cases found <;> simp
      · rw [executeOutside_eq outside]

/-- How a lease row can change. -/
inductive LeaseGrows : LeaseRow → LeaseRow → Prop
  | same (row : LeaseRow) : LeaseGrows row row
  | timed (row : LeaseRow) (provisioning : row.status = "provisioning")
      (now expiresAt settleAfter : UInt64) :
      LeaseGrows row (Store.timedRow now expiresAt settleAfter row)
  | activated (row : LeaseRow) (provisioning : row.status = "provisioning")
      (now : UInt64) (keyHash : String) : LeaseGrows row (Store.activeRow now keyHash row)
  | errored (row : LeaseRow) (active : row.status = "active") (now : UInt64)
      (error : String) :
      LeaseGrows row { row with lastError := some error, updatedAt := now.toInt64 }
  | settled (row : LeaseRow) (now : UInt64) (usageUsd : Float) (chargeApplied : Nat) :
      LeaseGrows row (Store.settledRow now usageUsd chargeApplied row)

/-- The columns of a lease row that never change. -/
structure SameLease (first second : LeaseRow) : Prop where
  clientRequestId : first.clientRequestId = second.clientRequestId
  requestNullifier : first.requestNullifier = second.requestNullifier
  apiRequestJson : first.apiRequestJson = second.apiRequestJson
  keySource : first.keySource = second.keySource
  issuedAt : first.issuedAt = second.issuedAt
  spendingLimitUsd : first.spendingLimitUsd = second.spendingLimitUsd

theorem LeaseGrows.sameLease {row grown : LeaseRow} (grows : LeaseGrows row grown) :
    SameLease grown row := by
  cases grows <;> exact ⟨rfl, rfl, rfl, rfl, rfl, rfl⟩

private theorem updatedRow_grows {condition : LeaseRow → Bool}
    {change : LeaseRow → LeaseRow}
    (changes : ∀ row, condition row = true → LeaseGrows row (change row)) (row : LeaseRow) :
    LeaseGrows row (Table.updatedRow condition change row) := by
  unfold Table.updatedRow
  split
  · rename_i satisfied
    exact changes row satisfied
  · exact .same row

private theorem updated_origin {table changed : Table LeaseRow.Clash}
    {condition : LeaseRow → Bool} {change : LeaseRow → LeaseRow}
    (updated : table.update condition change = some changed) {grown : LeaseRow}
    (member : grown ∈ changed) :
    grown ∈ table ∨ ∃ row ∈ table, condition row = true ∧ grown = change row := by
  obtain ⟨row, rowMember, rfl⟩ := (Table.mem_update updated).mp member
  unfold Table.updatedRow
  split
  · rename_i satisfied
    exact Or.inr ⟨row, rowMember, satisfied, rfl⟩
  · exact Or.inl rowMember

/-- An effect inserts a row, deletes one, or lets rows grow in place. -/
private theorem LeaseEffect.cases_on_table
    (effect : LeaseEffect P world after op response) :
    (∃ condition change, world.store.leases.update condition change =
        some after.store.leases ∧
      ∀ row, condition row = true → LeaseGrows row (change row)) ∨
    (∃ request keySource issuedAt expiresAt settleAfter spendingLimitUsd,
      (⟨op, response⟩ : (op : Op) × Resp op) = ⟨.createLease request keySource issuedAt
        expiresAt settleAfter spendingLimitUsd, .ok ()⟩ ∧
      world.store.leases.insert (Store.provisioningRow P world.now request keySource issuedAt
        expiresAt settleAfter spendingLimitUsd) = some after.store.leases) ∨
    (∃ clientRequestId,
      (⟨op, response⟩ : (op : Op) × Resp op) = ⟨.removeFailedLease clientRequestId, .ok ()⟩ ∧
      after.store.leases =
        world.store.leases.delete (Store.isFailedProvisioning clientRequestId)) ∨
    after.store.leases = world.store.leases := by
  cases effect with
  | kept same => exact Or.inr (Or.inr (Or.inr same))
  | created request keySource issuedAt expiresAt settleAfter spendingLimitUsd inserted =>
      exact Or.inr (Or.inl ⟨request, keySource, issuedAt, expiresAt, settleAfter,
        spendingLimitUsd, rfl, inserted⟩)
  | timed clientRequestId expiresAt settleAfter updated =>
      exact Or.inl ⟨_, _, updated, fun row satisfied =>
        .timed row (of_decide_eq_true satisfied).2 _ _ _⟩
  | activated clientRequestId keyHash updated =>
      exact Or.inl ⟨_, _, updated, fun row satisfied =>
        .activated row (of_decide_eq_true satisfied).2 _ _⟩
  | removed clientRequestId deleted =>
      exact Or.inr (Or.inr (Or.inl ⟨clientRequestId, rfl, deleted⟩))
  | errored clientRequestId error updated =>
      exact Or.inl ⟨_, _, updated, fun row satisfied =>
        .errored row (of_decide_eq_true satisfied).2 _ _⟩
  | settled clientRequestId usageUsd chargeApplied updated =>
      exact Or.inl ⟨_, _, updated, fun row _ => .settled row _ _ _⟩

/-- A row that is new in the lease table was inserted as a provisioning one. -/
theorem LeaseEffect.row_origin (effect : LeaseEffect P world after op response)
    {grown : LeaseRow} (member : grown ∈ after.store.leases) :
    (∃ row ∈ world.store.leases, LeaseGrows row grown) ∨
      ∃ request keySource issuedAt expiresAt settleAfter spendingLimitUsd,
        (⟨op, response⟩ : (op : Op) × Resp op) = ⟨.createLease request keySource issuedAt
          expiresAt settleAfter spendingLimitUsd, .ok ()⟩ ∧
        grown = Store.provisioningRow P world.now request keySource issuedAt expiresAt
          settleAfter spendingLimitUsd := by
  rcases effect.cases_on_table with ⟨condition, change, updated, changes⟩ |
      ⟨request, keySource, issuedAt, expiresAt, settleAfter, spendingLimitUsd, same, inserted⟩ |
      ⟨clientRequestId, same, deleted⟩ | same
  · obtain ⟨row, rowMember, rfl⟩ := (Table.mem_update updated).mp member
    exact Or.inl ⟨row, rowMember, updatedRow_grows changes row⟩
  · rcases (Table.mem_insert inserted).mp member with old | added
    · exact Or.inl ⟨grown, old, .same grown⟩
    · exact Or.inr ⟨request, keySource, issuedAt, expiresAt, settleAfter, spendingLimitUsd,
        same, added⟩
  · rw [deleted] at member
    exact Or.inl ⟨grown, (Table.mem_delete.mp member).1, .same grown⟩
  · rw [same] at member
    exact Or.inl ⟨grown, member, .same grown⟩

/-- Only a row that is still being provisioned can be lost, and only to a
cleanup. -/
theorem LeaseEffect.row_grows (effect : LeaseEffect P world after op response)
    {row : LeaseRow} (member : row ∈ world.store.leases) :
    (∃ grown ∈ after.store.leases, LeaseGrows row grown) ∨
      (⟨op, response⟩ : (op : Op) × Resp op) =
        ⟨.removeFailedLease row.clientRequestId, .ok ()⟩ ∧
      row.status = "provisioning" ∧ row.keyHash = none := by
  rcases effect.cases_on_table with ⟨condition, change, updated, changes⟩ |
      ⟨request, keySource, issuedAt, expiresAt, settleAfter, spendingLimitUsd, same, inserted⟩ |
      ⟨clientRequestId, same, deleted⟩ | same
  · exact Or.inl ⟨_, (Table.mem_update updated).mpr ⟨row, member, rfl⟩,
      updatedRow_grows changes row⟩
  · exact Or.inl ⟨row, (Table.mem_insert inserted).mpr (Or.inl member), .same row⟩
  · by_cases failed : Store.isFailedProvisioning clientRequestId row = true
    · obtain ⟨rfl, provisioning, keyless⟩ := of_decide_eq_true failed
      exact Or.inr ⟨same, provisioning, keyless⟩
    · refine Or.inl ⟨row, ?_, .same row⟩
      rw [deleted]
      exact Table.mem_delete.mpr ⟨member, by simpa using failed⟩
  · exact Or.inl ⟨row, same ▸ member, .same row⟩

/-- A finalized row was finalized before, or a settlement has just closed it. -/
theorem LeaseEffect.finalized_origin (effect : LeaseEffect P world after op response)
    {grown : LeaseRow} (member : grown ∈ after.store.leases)
    (finalized : grown.status = "finalized") :
    grown ∈ world.store.leases ∨
      ∃ clientRequestId usageUsd chargeApplied, ∃ row ∈ world.store.leases,
        (⟨op, response⟩ : (op : Op) × Resp op) =
          ⟨.finalizeLease clientRequestId usageUsd chargeApplied, .ok ()⟩ ∧
        row.clientRequestId = clientRequestId ∧
        grown = Store.settledRow world.now usageUsd chargeApplied row := by
  cases effect with
  | kept same => exact Or.inl (same ▸ member)
  | created request keySource issuedAt expiresAt settleAfter spendingLimitUsd inserted =>
      rcases (Table.mem_insert inserted).mp member with old | rfl
      · exact Or.inl old
      · exact absurd finalized (by decide : "provisioning" ≠ "finalized")
  | timed clientRequestId expiresAt settleAfter updated =>
      rcases updated_origin updated member with old | ⟨row, _, satisfied, rfl⟩
      · exact Or.inl old
      · have provisioning : row.status = "provisioning" := (of_decide_eq_true satisfied).2
        exact absurd (provisioning.symm.trans finalized) (by decide)
  | activated clientRequestId keyHash updated =>
      rcases updated_origin updated member with old | ⟨row, _, _, rfl⟩
      · exact Or.inl old
      · exact absurd finalized (by decide : "active" ≠ "finalized")
  | removed clientRequestId deleted =>
      rw [deleted] at member
      exact Or.inl (Table.mem_delete.mp member).1
  | errored clientRequestId error updated =>
      rcases updated_origin updated member with old | ⟨row, _, satisfied, rfl⟩
      · exact Or.inl old
      · have active : row.status = "active" := (of_decide_eq_true satisfied).2
        exact absurd (active.symm.trans finalized) (by decide)
  | settled clientRequestId usageUsd chargeApplied updated =>
      rcases updated_origin updated member with old | ⟨row, rowMember, satisfied, rfl⟩
      · exact Or.inl old
      · exact Or.inr ⟨clientRequestId, usageUsd, chargeApplied, row, rowMember, rfl,
          of_decide_eq_true satisfied, rfl⟩

end Leases

end ZkApi
