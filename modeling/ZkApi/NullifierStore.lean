import ZkApi.ConstrainedTable
import ZkApi.MachineIntegers
import ZkApi.ServerConfig

/-!
# The nullifier and lease store

Two SQLite tables, column by column.  Every function is one statement and
therefore atomic; a refused statement changes nothing.
-/

namespace ZkApi

open ConstrainedTable MachineIntegers

/-- A row of the `nullifiers` table. -/
structure NullifierRow where
  nullifier : String
  status : String
  reservationKind : String
  clientRequestId : Option String
  payloadHash : Option String
  chargeApplied : Option Int64
  responseCode : Option Int32
  responsePayload : Option String
  responseHash : Option String
  nextCommitmentX : Option String
  nextCommitmentY : Option String
  nextAnchor : Option String
  blindDeltaSrv : Option String
  nextStateSigEpoch : Option Int32
  nextStateSigRoot : Option String
  nextStateSigJson : Option String
  policyReasonCode : Option Int32
  policyEvidenceHash : Option String
  proofBlob : Option (List UInt8)
  requestInputsJson : Option String
  apiRequestBinding : Option String
  createdAt : Int64
  finalizedAt : Option Int64
deriving DecidableEq

/-- A row of the `openrouter_leases` table. -/
structure LeaseRow where
  clientRequestId : String
  requestNullifier : String
  apiRequestJson : String
  keyHash : Option String
  keySource : String
  status : String
  issuedAt : Int64
  expiresAt : Int64
  settleAfter : Int64
  spendingLimitUsd : Float
  usageUsd : Option Float
  chargeApplied : Option Int64
  lastError : Option String
  updatedAt : Int64
deriving DecidableEq

/-- `nullifier TEXT PRIMARY KEY`. -/
def NullifierRow.Clash (first second : NullifierRow) : Prop :=
  first.nullifier = second.nullifier
deriving Decidable

/-- `client_request_id` is the primary key; `request_nullifier` and
`key_hash` are unique. -/
def LeaseRow.Clash (first second : LeaseRow) : Prop :=
  first.clientRequestId = second.clientRequestId ∨
    first.requestNullifier = second.requestNullifier ∨
      (first.keyHash.isSome ∧ first.keyHash = second.keyHash)
deriving Decidable

theorem NullifierRow.clash_symm (first second : NullifierRow)
    (clash : first.Clash second) : second.Clash first :=
  Eq.symm clash

theorem LeaseRow.clash_symm (first second : LeaseRow)
    (clash : first.Clash second) : second.Clash first := by
  rcases clash with same | same | ⟨present, same⟩
  · exact Or.inl same.symm
  · exact Or.inr (Or.inl same.symm)
  · exact Or.inr (Or.inr ⟨same ▸ present, same.symm⟩)

structure Store where
  nullifiers : Table NullifierRow.Clash
  leases : Table LeaseRow.Clash

def Store.empty : Store := ⟨Table.empty, Table.empty⟩

structure TranscriptRecord where
  nullifier : Felt252
  status : NullifierStatus
  reservationKind : String
  clientRequestId : Option String
  payloadHash : Option Felt252
  chargeApplied : Option Nat
  responseCode : Option UInt16
  responsePayload : Option String
  responseHash : Option Felt252
  nextCommitmentX : Option Felt252
  nextCommitmentY : Option Felt252
  nextAnchor : Option Felt252
  blindDeltaSrv : Option Felt252
  nextStateSigEpoch : Option UInt32
  nextStateSigRoot : Option Felt252
  nextStateSig : Option SchnorrSignature
  policyReasonCode : Option UInt32
  policyEvidenceHash : Option Felt252
  proofBlob : Option (List UInt8)
  requestInputsJson : Option String
  apiRequestBinding : Option String
  createdAt : UInt64
  finalizedAt : Option UInt64
deriving DecidableEq

/-- Durable metadata of one lease; the runtime key itself is never stored. -/
structure OpenRouterLeaseRecord where
  clientRequestId : String
  requestNullifier : Felt252
  apiRequest : ApiRequestV2
  keyHash : Option String
  keySource : String
  status : String
  issuedAt : UInt64
  expiresAt : UInt64
  settleAfter : UInt64
  spendingLimitUsd : Float
  usageUsd : Option Float
  chargeApplied : Option Nat
  lastError : Option String
deriving DecidableEq

def statusToStr : NullifierStatus → String
  | .reserved => "Reserved"
  | .finalized => "Finalized"
  | .clearanceReserved => "ClearanceReserved"

def strToStatus (text : String) : NullifierStatus :=
  if text = "Reserved" then .reserved
  else if text = "Finalized" then .finalized
  else if text = "ClearanceReserved" then .clearanceReserved
  else .reserved

@[simp]
theorem strToStatus_statusToStr (status : NullifierStatus) :
    strToStatus (statusToStr status) = status := by
  cases status <;> decide

section Rows

variable (P : Protocol)

def parseOptFelt (text : Option String) : Option Felt252 :=
  text.bind P.feltFromHex

def rowToRecord (row : NullifierRow) : TranscriptRecord where
  nullifier := (P.feltFromHex row.nullifier).getD Felt252.zero
  status := strToStatus row.status
  reservationKind := row.reservationKind
  clientRequestId := row.clientRequestId
  payloadHash := parseOptFelt P row.payloadHash
  chargeApplied := row.chargeApplied.map asU128
  responseCode := row.responseCode.map i32AsU16
  responsePayload := row.responsePayload
  responseHash := parseOptFelt P row.responseHash
  nextCommitmentX := parseOptFelt P row.nextCommitmentX
  nextCommitmentY := parseOptFelt P row.nextCommitmentY
  nextAnchor := parseOptFelt P row.nextAnchor
  blindDeltaSrv := parseOptFelt P row.blindDeltaSrv
  nextStateSigEpoch := row.nextStateSigEpoch.map Int32.toUInt32
  nextStateSigRoot := parseOptFelt P row.nextStateSigRoot
  nextStateSig := row.nextStateSigJson.bind P.signatureFromJson
  policyReasonCode := row.policyReasonCode.map Int32.toUInt32
  policyEvidenceHash := parseOptFelt P row.policyEvidenceHash
  proofBlob := row.proofBlob
  requestInputsJson := row.requestInputsJson
  apiRequestBinding := row.apiRequestBinding
  createdAt := row.createdAt.toUInt64
  finalizedAt := row.finalizedAt.map Int64.toUInt64

/-- A lease row whose request does not decode is not readable. -/
def rowToOpenRouterLease (row : LeaseRow) : Option OpenRouterLeaseRecord :=
  (P.requestFromJson row.apiRequestJson).map fun apiRequest =>
    { clientRequestId := row.clientRequestId
      requestNullifier := (P.feltFromHex row.requestNullifier).getD Felt252.zero
      apiRequest := apiRequest
      keyHash := row.keyHash
      keySource := row.keySource
      status := row.status
      issuedAt := row.issuedAt.toUInt64
      expiresAt := row.expiresAt.toUInt64
      settleAfter := row.settleAfter.toUInt64
      spendingLimitUsd := row.spendingLimitUsd
      usageUsd := row.usageUsd
      chargeApplied := row.chargeApplied.map asU128
      lastError := row.lastError }

end Rows

namespace Store

variable (P : Protocol) (store : Store) (now : UInt64)

/-- The row a reservation inserts. -/
def reservedRow (nullifier : Felt252) (clientRequestId : String)
    (payloadHash : Felt252) (reservationKind : String)
    (binding : Option String) : NullifierRow where
  nullifier := P.feltToHex nullifier
  status := statusToStr .reserved
  reservationKind := reservationKind
  clientRequestId := some clientRequestId
  payloadHash := some (P.feltToHex payloadHash)
  chargeApplied := none
  responseCode := none
  responsePayload := none
  responseHash := none
  nextCommitmentX := none
  nextCommitmentY := none
  nextAnchor := none
  blindDeltaSrv := none
  nextStateSigEpoch := none
  nextStateSigRoot := none
  nextStateSigJson := none
  policyReasonCode := none
  policyEvidenceHash := none
  proofBlob := none
  requestInputsJson := none
  apiRequestBinding := binding
  createdAt := now.toInt64
  finalizedAt := none

def reserveWithKind (nullifier : Felt252) (clientRequestId : String)
    (payloadHash : Felt252) (reservationKind : String)
    (binding : Option String) : Except ServerError Unit × Store :=
  match store.nullifiers.insert
      (reservedRow P now nullifier clientRequestId payloadHash reservationKind binding) with
  | some nullifiers => (.ok (), { store with nullifiers := nullifiers })
  | none => (.error .replay, store)

/-- `reserve_v2` and `reserve_openrouter_lease`: reserve a request and bind
every field of it. -/
def reserveBoundV2 (request : ApiRequestV2) (kind : ReservationKind) :
    Except ServerError Unit × Store :=
  store.reserveWithKind P now request.nullifier request.clientRequestId
    request.payloadHash kind.asStr (some (ZkApi.apiRequestBinding P request))

/-- The row a reserved row becomes when its transcript is written. -/
def finalizedRow (transcript : TranscriptRecord) (row : NullifierRow) : NullifierRow :=
  { row with
    status := statusToStr .finalized
    chargeApplied := transcript.chargeApplied.map asI64
    responseCode := transcript.responseCode.map u16AsI32
    responsePayload := transcript.responsePayload
    responseHash := transcript.responseHash.map P.feltToHex
    nextCommitmentX := transcript.nextCommitmentX.map P.feltToHex
    nextCommitmentY := transcript.nextCommitmentY.map P.feltToHex
    nextAnchor := transcript.nextAnchor.map P.feltToHex
    blindDeltaSrv := transcript.blindDeltaSrv.map P.feltToHex
    nextStateSigEpoch := transcript.nextStateSigEpoch.map UInt32.toInt32
    nextStateSigRoot := transcript.nextStateSigRoot.map P.feltToHex
    nextStateSigJson := transcript.nextStateSig.map P.signatureToJson
    policyReasonCode := transcript.policyReasonCode.map UInt32.toInt32
    policyEvidenceHash := transcript.policyEvidenceHash.map P.feltToHex
    proofBlob := transcript.proofBlob
    requestInputsJson := transcript.requestInputsJson
    finalizedAt := some now.toInt64 }

/-- The condition of the finalizing `UPDATE`. -/
def isReserved (nullifier : Felt252) (row : NullifierRow) : Bool :=
  row.nullifier = P.feltToHex nullifier ∧ row.status = statusToStr .reserved

def finalize (nullifier : Felt252) (transcript : TranscriptRecord) :
    Except ServerError Unit × Store :=
  match store.nullifiers.update (isReserved P nullifier)
      (finalizedRow P now transcript) with
  | none => (.error (.database "finalize failed: constraint violation"), store)
  | some nullifiers =>
      if store.nullifiers.affected (isReserved P nullifier) = 0 then
        (.error (.internal "nullifier not in Reserved state or does not exist"), store)
      else
        (.ok (), { store with nullifiers := nullifiers })

def lookupByNullifier (nullifier : Felt252) : Option TranscriptRecord :=
  (store.nullifiers.first fun row => row.nullifier = P.feltToHex nullifier).map
    (rowToRecord P)

def lookupByClientId (clientRequestId : String) : Option TranscriptRecord :=
  (store.nullifiers.first fun row => row.clientRequestId = some clientRequestId).map
    (rowToRecord P)

/-- The row a clearance reservation inserts; every other column is null or
takes its default. -/
def clearanceRow (nullifier : Felt252) : NullifierRow :=
  { reservedRow P now nullifier "" nullifier "proxy" none with
    status := statusToStr .clearanceReserved
    clientRequestId := none
    payloadHash := none }

def reserveClearance (nullifier : Felt252) : Except ServerError Unit × Store :=
  match store.nullifiers.insert (clearanceRow P now nullifier) with
  | some nullifiers => (.ok (), { store with nullifiers := nullifiers })
  | none => (.error .nullifierUsed, store)

section Frames

variable {P store now}

@[simp]
theorem reserveBoundV2_leases (request : ApiRequestV2) (kind : ReservationKind) :
    (store.reserveBoundV2 P now request kind).2.leases = store.leases := by
  unfold reserveBoundV2 reserveWithKind
  split <;> rfl

@[simp]
theorem finalize_leases (nullifier : Felt252) (transcript : TranscriptRecord) :
    (store.finalize P now nullifier transcript).2.leases = store.leases := by
  unfold finalize
  split
  · rfl
  · split <;> rfl

@[simp]
theorem reserveClearance_leases (nullifier : Felt252) :
    (store.reserveClearance P now nullifier).2.leases = store.leases := by
  unfold reserveClearance
  split <;> rfl

end Frames

end Store

end ZkApi
