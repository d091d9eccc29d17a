import ZkApi.NullifierStore

/-!
# Lease statements of the store

Creation, activation and settlement of lease rows, and the migration that
binds the reservations of older lease rows when the store is opened.
-/

namespace ZkApi

open ConstrainedTable MachineIntegers

namespace Store

variable (P : Protocol) (store : Store) (now : UInt64)

/-- The row a new lease starts with. -/
def provisioningRow (request : ApiRequestV2) (keySource : String)
    (issuedAt expiresAt settleAfter : UInt64) (spendingLimitUsd : Float) : LeaseRow where
  clientRequestId := request.clientRequestId
  requestNullifier := P.feltToHex request.nullifier
  apiRequestJson := P.requestToJson request
  keyHash := none
  keySource := keySource
  status := "provisioning"
  issuedAt := issuedAt.toInt64
  expiresAt := expiresAt.toInt64
  settleAfter := settleAfter.toInt64
  spendingLimitUsd := spendingLimitUsd
  usageUsd := none
  chargeApplied := none
  lastError := none
  updatedAt := now.toInt64

def createOpenRouterLease (request : ApiRequestV2) (keySource : String)
    (issuedAt expiresAt settleAfter : UInt64) (spendingLimitUsd : Float) :
    Except ServerError Unit × Store :=
  match store.leases.insert
      (provisioningRow P now request keySource issuedAt expiresAt settleAfter
        spendingLimitUsd) with
  | some leases => (.ok (), { store with leases := leases })
  | none => (.error (.database "lease insert failed: constraint violation"), store)

/-- The condition of the statements that only touch a lease still being
provisioned. -/
def isProvisioning (clientRequestId : String) (row : LeaseRow) : Bool :=
  row.clientRequestId = clientRequestId ∧ row.status = "provisioning"

def timedRow (expiresAt settleAfter : UInt64) (row : LeaseRow) : LeaseRow :=
  { row with
    expiresAt := expiresAt.toInt64
    settleAfter := settleAfter.toInt64
    updatedAt := now.toInt64 }

/-- An update that must affect exactly one provisioning lease. -/
def updateProvisioning (clientRequestId : String) (change : LeaseRow → LeaseRow)
    (refused : String) : Except ServerError Unit × Store :=
  match store.leases.update (isProvisioning clientRequestId) change with
  | none => (.error (.database refused), store)
  | some leases =>
      if store.leases.affected (isProvisioning clientRequestId) ≠ 1 then
        (.error (.internal "lease was not in provisioning state"),
          { store with leases := leases })
      else
        (.ok (), { store with leases := leases })

def updateOpenRouterLeaseTiming (clientRequestId : String)
    (expiresAt settleAfter : UInt64) : Except ServerError Unit × Store :=
  store.updateProvisioning clientRequestId (timedRow now expiresAt settleAfter)
    "lease timing update failed: constraint violation"

def activeRow (keyHash : String) (row : LeaseRow) : LeaseRow :=
  { row with
    status := "active"
    keyHash := some keyHash
    updatedAt := now.toInt64 }

def activateOpenRouterLease (clientRequestId : String) (keyHash : String) :
    Except ServerError Unit × Store :=
  store.updateProvisioning clientRequestId (activeRow now keyHash)
    "lease activation failed: constraint violation"

/-- The condition of the cleanup `DELETE`. -/
def isFailedProvisioning (clientRequestId : String) (row : LeaseRow) : Bool :=
  row.clientRequestId = clientRequestId ∧ row.status = "provisioning" ∧ row.keyHash = none

def removeFailedOpenRouterLease (clientRequestId : String) :
    Except ServerError Unit × Store :=
  (.ok (), { store with
    leases := store.leases.delete (isFailedProvisioning clientRequestId) })

def lookupOpenRouterLease (clientRequestId : String) : Option OpenRouterLeaseRecord :=
  (store.leases.first fun row => row.clientRequestId = clientRequestId).bind
    (rowToOpenRouterLease P)

/-- The condition of the settlement scan; times compare as signed columns. -/
def isDue (row : LeaseRow) : Bool :=
  row.status = "active" ∧ row.settleAfter ≤ now.toInt64

def dueOpenRouterLeases : List OpenRouterLeaseRecord :=
  ((store.leases.select (isDue now)).mergeSort
      fun first second => first.settleAfter ≤ second.settleAfter).filterMap
    (rowToOpenRouterLease P)

def recordOpenRouterLeaseError (clientRequestId : String) (error : String) :
    Except ServerError Unit × Store :=
  match store.leases.update
      (fun row => row.clientRequestId = clientRequestId ∧ row.status = "active")
      (fun row => { row with lastError := some error, updatedAt := now.toInt64 }) with
  | none => (.error (.database "lease error update failed: constraint violation"), store)
  | some leases => (.ok (), { store with leases := leases })

def settledRow (usageUsd : Float) (chargeApplied : Nat) (row : LeaseRow) : LeaseRow :=
  { row with
    status := "finalized"
    usageUsd := some usageUsd
    chargeApplied := some (asI64 chargeApplied)
    lastError := none
    updatedAt := now.toInt64 }

def finalizeOpenRouterLease (clientRequestId : String) (usageUsd : Float)
    (chargeApplied : Nat) : Except ServerError Unit × Store :=
  match store.leases.update (fun row => row.clientRequestId = clientRequestId)
      (settledRow now usageUsd chargeApplied) with
  | none => (.error (.database "lease finalize failed: constraint violation"), store)
  | some leases => (.ok (), { store with leases := leases })

section Frames

variable {P store now}

@[simp]
theorem createOpenRouterLease_nullifiers (request : ApiRequestV2) (keySource : String)
    (issuedAt expiresAt settleAfter : UInt64) (spendingLimitUsd : Float) :
    (store.createOpenRouterLease P now request keySource issuedAt expiresAt settleAfter
      spendingLimitUsd).2.nullifiers = store.nullifiers := by
  unfold createOpenRouterLease
  split <;> rfl

@[simp]
theorem updateProvisioning_nullifiers (clientRequestId : String)
    (change : LeaseRow → LeaseRow) (refused : String) :
    (store.updateProvisioning clientRequestId change refused).2.nullifiers =
      store.nullifiers := by
  unfold updateProvisioning
  split
  · rfl
  · split <;> rfl

@[simp]
theorem removeFailedOpenRouterLease_nullifiers (clientRequestId : String) :
    (store.removeFailedOpenRouterLease clientRequestId).2.nullifiers = store.nullifiers :=
  rfl

@[simp]
theorem recordOpenRouterLeaseError_nullifiers (clientRequestId error : String) :
    (store.recordOpenRouterLeaseError now clientRequestId error).2.nullifiers =
      store.nullifiers := by
  unfold recordOpenRouterLeaseError
  split <;> rfl

@[simp]
theorem finalizeOpenRouterLease_nullifiers (clientRequestId : String) (usageUsd : Float)
    (chargeApplied : Nat) :
    (store.finalizeOpenRouterLease now clientRequestId usageUsd chargeApplied).2.nullifiers =
      store.nullifiers := by
  unfold finalizeOpenRouterLease
  split <;> rfl

end Frames

/-- The reservations a migrated lease row binds. -/
def isUnbound (lease : LeaseRow) (payloadHash : Felt252) (row : NullifierRow) : Bool :=
  row.nullifier = lease.requestNullifier ∧
    row.clientRequestId = some lease.clientRequestId ∧
    row.payloadHash = some (P.feltToHex payloadHash) ∧
    row.reservationKind = "openrouter_lease" ∧ row.apiRequestBinding = none

/-- Bind the reservation of one lease row to the request the row holds. -/
def backfillBinding (nullifiers : Table NullifierRow.Clash) (lease : LeaseRow) :
    Table NullifierRow.Clash :=
  match P.requestFromJson lease.apiRequestJson with
  | none => nullifiers
  | some request =>
      if request.clientRequestId ≠ lease.clientRequestId ∨
          P.feltToHex request.nullifier ≠ lease.requestNullifier then
        nullifiers
      else
        (nullifiers.update (isUnbound P lease request.payloadHash) fun row =>
          { row with
            apiRequestBinding := some (ZkApi.apiRequestBinding P request) }).getD nullifiers

def backfillOpenRouterRequestBindings : Store :=
  { store with nullifiers := store.leases.rows.foldl (backfillBinding P) store.nullifiers }

end Store

end ZkApi
