import ZkApi.ReservedRequests

/-!
# The rows of leases

A lease row is created for a reserved request, and the request never changes.
A row that is past provisioning is never lost, so whatever a task has read
from it stays true.
-/

namespace ZkApi

open ConstrainedTable Interleaving

variable {P : Protocol}

section Rows

/-- The lease table has a row with this property. -/
def HasLease (world : World) (holds : LeaseRow → Prop) : Prop :=
  ∃ row ∈ world.store.leases, holds row

/-- Rows of the same id or the same nullifier are the same row. -/
theorem lease_unique {world : World} {first second : LeaseRow}
    (firstMember : first ∈ world.store.leases) (secondMember : second ∈ world.store.leases)
    (same : first.clientRequestId = second.clientRequestId ∨
      first.requestNullifier = second.requestNullifier) : first = second := by
  refine Table.eq_of_clash LeaseRow.clash_symm firstMember secondMember ?_
  rcases same with sameId | sameNullifier
  · exact Or.inl sameId
  · exact Or.inr (Or.inl sameNullifier)

theorem lookupLease_eq_some {world : World} {clientRequestId : String}
    {lease : OpenRouterLeaseRecord}
    (found : world.store.lookupOpenRouterLease P clientRequestId = some lease) :
    ∃ row ∈ world.store.leases, row.clientRequestId = clientRequestId ∧
      rowToOpenRouterLease P row = some lease := by
  obtain ⟨row, first, read⟩ := Option.bind_eq_some_iff.mp found
  obtain ⟨member, same⟩ := Table.first_eq_some first
  exact ⟨row, member, of_decide_eq_true same, read⟩

theorem mem_dueLeases {world : World} {now : UInt64} {lease : OpenRouterLeaseRecord}
    (member : lease ∈ world.store.dueOpenRouterLeases P now) :
    ∃ row ∈ world.store.leases, row.status = "active" ∧
      rowToOpenRouterLease P row = some lease := by
  obtain ⟨row, sorted, read⟩ := List.mem_filterMap.mp member
  have selected := (List.mergeSort_perm _ _).mem_iff.mp sorted
  obtain ⟨rowMember, due⟩ := Table.mem_select.mp selected
  exact ⟨row, rowMember, (of_decide_eq_true due).1, read⟩

/-- A property of rows past provisioning that they keep as they grow lasts. -/
theorem hasLease_lasting {holds : LeaseRow → Prop}
    (closed : ∀ row grown, LeaseGrows row grown → holds row → holds grown)
    (issued : ∀ row, holds row → row.status ≠ "provisioning") :
    Lasting (server P) (HasLease · holds) where
  execute := by
    rintro task op answer world response after executed ⟨row, member, held⟩
    rcases (leaseEffect executed).row_grows member with
      ⟨grown, grownMember, grows⟩ | ⟨_, provisioning, _⟩
    · exact ⟨grown, grownMember, closed row grown grows held⟩
    · exact (issued row held provisioning).elim
  finish has := has
  environment := by
    rintro change world after moved ⟨row, member, held⟩
    have moved : move world change = some after := moved
    refine ⟨row, ?_, held⟩
    rw [move_eq moved]
    exact member
  restart := by
    rintro change world after rebooted ⟨row, member, held⟩
    have rebooted : reboot P world change = some after := rebooted
    refine ⟨row, ?_, held⟩
    rw [(reboot_eq rebooted).1]
    exact member

end Rows

section Reading

/-- The row is past provisioning, and this is what every reader finds in the
columns that are fixed from then on. -/
structure Reads (P : Protocol) (lease : OpenRouterLeaseRecord) (row : LeaseRow) : Prop where
  issued : row.status ≠ "provisioning"
  clientRequestId : row.clientRequestId = lease.clientRequestId
  requestNullifier : (P.feltFromHex row.requestNullifier).getD Felt252.zero =
    lease.requestNullifier
  apiRequest : P.requestFromJson row.apiRequestJson = some lease.apiRequest
  keyHash : row.keyHash = lease.keyHash
  keySource : row.keySource = lease.keySource
  issuedAt : row.issuedAt.toUInt64 = lease.issuedAt
  expiresAt : row.expiresAt.toUInt64 = lease.expiresAt

theorem Reads.grows (lease : OpenRouterLeaseRecord) (row grown : LeaseRow)
    (leaseGrows : LeaseGrows row grown) (reads : Reads P lease row) : Reads P lease grown := by
  cases leaseGrows with
  | same => exact reads
  | timed provisioning => exact (reads.issued provisioning).elim
  | activated provisioning => exact (reads.issued provisioning).elim
  | errored => exact { reads with }
  | settled => exact { reads with issued := (by decide : "finalized" ≠ "provisioning") }

theorem reads_of_record {row : LeaseRow} {lease : OpenRouterLeaseRecord}
    (read : rowToOpenRouterLease P row = some lease) (issued : lease.status ≠ "provisioning") :
    Reads P lease row := by
  obtain ⟨request, decoded, rfl⟩ := Option.map_eq_some_iff.mp read
  exact ⟨issued, rfl, rfl, decoded, rfl, rfl, rfl, rfl⟩

/-- The event shows a lease that is past provisioning. -/
def ShowsLease : Event (server P) → OpenRouterLeaseRecord → Prop
  | .performed _ (.lookupLease _) (some found), lease =>
      found = lease ∧ lease.status ≠ "provisioning"
  | .performed _ (.dueLeases _) due, lease => lease ∈ due
  | _, _ => False

/-- What was read from a lease past provisioning can still be read. -/
abbrev SeenLeases (P : Protocol) : World → List (Event (server P)) → Prop :=
  Evidence (fun _ => True) ShowsLease fun lease world => HasLease world (Reads P lease)

theorem seenLeases_preserved : (discipline P).Inductive (SeenLeases P) := by
  refine server_evidence suffixClosed_true ?_ (fun lease =>
    hasLease_lasting (Reads.grows lease) fun row reads => reads.issued) ?_ ?_
  · intro event lease shown
    cases event with
    | performed task op response => trivial
    | _ => cases shown
  · intro world after trace task call op answer response lease _ executed _ _ shown
    unfold ShowsLease at shown
    split at shown
    · rename_i same
      cases same
      obtain ⟨rfl, issued⟩ := shown
      obtain ⟨found, rfl⟩ := execute_lookupLease executed
      obtain ⟨row, member, _, read⟩ := lookupLease_eq_some found
      exact ⟨row, member, reads_of_record read issued⟩
    · rename_i same
      cases same
      obtain ⟨found, rfl⟩ := execute_dueLeases executed
      rw [← found] at shown
      obtain ⟨row, member, active, read⟩ := mem_dueLeases shown
      refine ⟨row, member, reads_of_record read ?_⟩
      obtain ⟨request, _, rfl⟩ := Option.map_eq_some_iff.mp read
      change row.status ≠ "provisioning"
      rw [active]
      decide
    · exact shown.elim
  · intro world trace task call result lease _ _ _ _ shown
    cases shown

theorem SawActive.hasLease {world : World} {trace : List (Event (server P))}
    (seen : SeenLeases P world trace) {task : Nat} {lease : OpenRouterLeaseRecord}
    (active : SawActive (historyOf task trace) lease) : HasLease world (Reads P lease) := by
  rcases active with ⟨clientRequestId, found, status⟩ | ⟨now, due, found, member⟩
  · refine seen trivial _ (saw_historyOf_iff.mp found) lease ⟨rfl, ?_⟩
    rw [status]
    decide
  · exact seen trivial _ (saw_historyOf_iff.mp found) lease member

end Reading

section Owners

/-- The row is the lease of this request. -/
structure LeaseOf (P : Protocol) (request : ApiRequestV2) (row : LeaseRow) : Prop where
  clientRequestId : row.clientRequestId = request.clientRequestId
  requestNullifier : row.requestNullifier = P.feltToHex request.nullifier
  apiRequestJson : row.apiRequestJson = P.requestToJson request

theorem LeaseOf.grows (request : ApiRequestV2) (row grown : LeaseRow)
    (same : SameLease grown row) (leaseOf : LeaseOf P request row) :
    LeaseOf P request grown where
  clientRequestId := same.clientRequestId.trans leaseOf.clientRequestId
  requestNullifier := same.requestNullifier.trans leaseOf.requestNullifier
  apiRequestJson := same.apiRequestJson.trans leaseOf.apiRequestJson

/-- Every lease row belongs to a request that is reserved for it. -/
def LeasesOwned (P : Protocol) (world : World) : Prop :=
  ∀ row ∈ world.store.leases, ∃ request, LeaseOf P request row ∧
    HasRow world (BoundTo P request .openRouterLease)

theorem LeasesOwned.mono {world after : World} (owned : LeasesOwned P world)
    (leases : ∀ grown ∈ after.store.leases, ∃ row ∈ world.store.leases, SameLease grown row)
    (grows : RowsGrow P world after) : LeasesOwned P after := by
  intro grown member
  obtain ⟨row, rowMember, same⟩ := leases grown member
  obtain ⟨request, leaseOf, bound⟩ := owned row rowMember
  exact ⟨request, LeaseOf.grows request row grown same leaseOf,
    bound.grow grows (BoundTo.grows request .openRouterLease)⟩

theorem leasesOwned_preserved :
    (discipline P).Preserved (Bindings P) fun world _ => LeasesOwned P world where
  started _ _ _ _ held := held
  performed := by
    intro world trace task call op answer response after _ _ allowed executed bindings held
    have allowed : Allowed P world.config call (historyOf task trace) op := allowed
    have grows := execute_rowsGrow executed
    intro grown member
    rcases (leaseEffect executed).row_origin member with ⟨row, rowMember, leaseGrows⟩ |
        ⟨created, keySource, issuedAt, expiresAt, settleAfter, spendingLimitUsd, same, rfl⟩
    · obtain ⟨request, leaseOf, bound⟩ := held row rowMember
      exact ⟨request, LeaseOf.grows request row grown leaseGrows.sameLease leaseOf,
        bound.grow grows (BoundTo.grows request .openRouterLease)⟩
    · cases same
      have bound := allowed.2.admitted.hasRow bindings
      exact ⟨created, ⟨rfl, rfl, rfl⟩,
        bound.grow grows (BoundTo.grows created .openRouterLease)⟩
  returned _ _ _ _ _ held := held
  aborted _ _ held := held
  moved := by
    intro world trace change after moved _ held
    have moved : move world change = some after := moved
    refine held.mono ?_ (move_rowsGrow moved)
    intro grown member
    rw [move_eq moved] at member
    exact ⟨grown, member, (LeaseGrows.same grown).sameLease⟩
  restarted := by
    intro world trace change after rebooted _ held
    have rebooted : reboot P world change = some after := rebooted
    refine held.mono ?_ (reboot_rowsGrow rebooted)
    intro grown member
    rw [(reboot_eq rebooted).1] at member
    exact ⟨grown, member, (LeaseGrows.same grown).sameLease⟩

/-- The request that a reader finds in a lease is the one the lease is for. -/
theorem Reads.apiRequest_eq (roundTrips : P.RequestJsonRoundTrips)
    {lease : OpenRouterLeaseRecord} {row : LeaseRow} (reads : Reads P lease row)
    {request : ApiRequestV2} (leaseOf : LeaseOf P request row) : lease.apiRequest = request := by
  have decoded := reads.apiRequest
  rw [leaseOf.apiRequestJson, roundTrips] at decoded
  exact (Option.some.inj decoded).symm

end Owners

end ZkApi
