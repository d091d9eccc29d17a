import ZkApi.ResumptionProgram
import ZkApi.ServerOperations

/-!
# Request handlers

The handlers of proxied requests, clearances and recovery as programs over the
operations of the server.  Validation and finalization are shared with the
lease handlers.
-/

namespace ZkApi

open Interleaving JsonText

/-- A handler ends with a value, an error or a panic. -/
abbrev Handler (α : Type) := Program Op Resp Failure α

namespace Handler

abbrev call (op : Op) : Handler (Resp op) := Program.call op

/-- End with an error. -/
def throw {α : Type} (cause : ServerError) : Handler α :=
  .fail (.error cause)

/-- End with an error unless the condition holds. -/
def ensure (condition : Prop) [Decidable condition] (cause : ServerError) :
    Handler Unit :=
  Program.require condition (.error cause)

/-- The `?` operator. -/
def propagate {α : Type} : Except ServerError α → Handler α
  | .ok value => .ret value
  | .error cause => throw cause

/-- The value of an option, or an error. -/
def okOr {α : Type} (value : Option α) (cause : ServerError) : Handler α :=
  match value with
  | some value => .ret value
  | none => throw cause

end Handler

open Handler

/-- `MAX_REQUEST_AGE_SECONDS`. -/
def maxRequestAgeSeconds : UInt64 := 300

/-- `MAX_FUTURE_SKEW_SECONDS`. -/
def maxFutureSkewSeconds : UInt64 := 30

def responseFromRecord (record : TranscriptRecord) (clientRequestId : String) :
    Except ServerError RequestResponseV2 :=
  match record.nextStateSig with
  | none => .error (.internal "stored response lacks signature")
  | some signature =>
      .ok {
        status := "ok"
        clientRequestId := clientRequestId
        requestNullifier := record.nullifier
        responseCode := record.responseCode.getD 200
        responsePayload := record.responsePayload.getD ""
        responseHash := record.responseHash.getD Felt252.zero
        chargeApplied := record.chargeApplied.getD 0
        nextCommitment :=
          ⟨record.nextCommitmentX.getD Felt252.zero, record.nextCommitmentY.getD Felt252.zero⟩
        nextAnchor := record.nextAnchor.getD Felt252.zero
        blindDeltaSrv := record.blindDeltaSrv.getD Felt252.zero
        nextStateSignature := signature
        policyReasonCode := record.policyReasonCode
        policyEvidenceHash := record.policyEvidenceHash }

def recoveryFromRecord (record : TranscriptRecord) : RecoveryResponseV2 where
  status := "ok"
  nullifierStatus := match record.status with
    | .reserved => "reserved"
    | .finalized => "finalized"
    | .clearanceReserved => "clearance_reserved"
  requestResponse :=
    if record.status = .finalized then
      (responseFromRecord record (record.clientRequestId.getD "")).toOption
    else none

def notFoundRecovery : RecoveryResponseV2 :=
  ⟨"not_found", "unknown", none⟩

section Validation

variable (P : Protocol) (config : ServerConfig)

/-- `state_signing_key`. -/
def stateSigningKey : CurvePointWire :=
  P.publicKey config.stateSeed

/-- The request names this deployment. -/
def DeploymentMatches (inputs : RequestPublicInputsV2) : Prop :=
  inputs.protocolVersion = config.protocolVersion ∧ inputs.chainId = config.chainId ∧
    inputs.contractAddress = config.contractAddress
deriving Decidable

/-- A stored reservation was made by the same request on the same endpoint. -/
def SameRequest (request : ApiRequestV2) (kind : ReservationKind)
    (existing : TranscriptRecord) : Prop :=
  existing.clientRequestId = some request.clientRequestId ∧
    existing.payloadHash = some request.payloadHash ∧
    existing.reservationKind = kind.asStr ∧
    existing.apiRequestBinding = some (apiRequestBinding P request)
deriving Decidable

/-- The request time lies in the accepted window around `now`. -/
def FreshAt (now : UInt64) (inputs : RequestPublicInputsV2) : Prop :=
  ¬ (MachineIntegers.saturatingAdd inputs.requestTime maxRequestAgeSeconds < now ∨
    inputs.requestTime > MachineIntegers.saturatingAdd now maxFutureSkewSeconds)
deriving Decidable

/-- The authorization tag binds the request id and the payload. -/
def TagBinds (request : ApiRequestV2) : Prop :=
  P.authorizationTag request.nullifier
      (P.canonicalRequestContext request.clientRequestId
        (P.canonicalPayloadHash request.payload)) =
    request.publicInputs.authorizationTag
deriving Decidable

/-- Validate a request and reserve its nullifier.  A finalized request gives
its stored response instead. -/
def validateAndReserve (request : ApiRequestV2) (kind : ReservationKind) :
    Handler (Option RequestResponseV2) := do
  let inputs := request.publicInputs
  ensure (P.canonicalPayloadHash request.payload = request.payloadHash)
    (.invalidRequest "payload_hash does not match payload bytes")
  ensure (DeploymentMatches config inputs)
    (.protocolMismatch "version, chain, or contract mismatch")
  match ← call (.lookupByNullifier request.nullifier) with
  | some existing =>
      ensure (SameRequest P request kind existing) .replay
      match existing.status with
      | .finalized =>
          let response ← propagate (responseFromRecord existing request.clientRequestId)
          return some response
      | .reserved => return none
      | .clearanceReserved => throw .replay
  | none =>
      let root ← call .currentRoot
      ensure (inputs.activeRoot = root) (.staleRoot (P.feltToHex root))
      ensure (inputs.stateSigningKeyX = (stateSigningKey P config).x ∧
          inputs.stateSigningKeyY = (stateSigningKey P config).y)
        (.invalidRequest "state signing key does not match this deployment")
      let now ← call .currentTimestamp
      ensure (FreshAt now inputs)
        (.invalidRequest "request_time is outside the accepted freshness window")
      ensure (config.requiredSolvency ≤ inputs.solvencyBound)
        (.invalidRequest ("solvency_bound " ++ toString inputs.solvencyBound ++
          " is below required " ++ toString config.requiredSolvency))
      ensure (TagBinds P request)
        (.invalidProof "proof authorization tag does not bind this request id and payload")
      let verified ← propagate
        ((P.verify config.proofSetupDir inputs request.proof).mapError .invalidProof)
      ensure (verified = true) (.invalidProof "Groth16 verification returned false")
      let reserved ← call (.reserve request kind)
      propagate reserved
      return none

end Validation

section Finalization

variable (P : Protocol) (config : ServerConfig)

/-- The largest charge that finalization accepts. -/
def chargeCap (reservationKind : String) (request : ApiRequestV2)
    (response : ProviderResponse) : Nat :=
  if reservationKind = ReservationKind.openRouterLease.asStr then
    request.publicInputs.solvencyBound
  else if config.policyEnabled && response.policyReasonCode.isSome then
    config.policyChargeCap
  else
    config.requestChargeCap

/-- The values a finalization draws or computes for the next wallet state. -/
structure NextState where
  blindDelta : Felt252
  commitment : CurvePointWire
  anchor : Felt252
  signature : SchnorrSignature

/-- The transcript that finalization archives. -/
def transcriptOf (request : ApiRequestV2) (reservationKind : String)
    (response : ProviderResponse) (next : NextState) (proofBytes : List UInt8)
    (createdAt finalizedAt : UInt64) : TranscriptRecord where
  nullifier := request.nullifier
  status := .finalized
  reservationKind := reservationKind
  clientRequestId := some request.clientRequestId
  payloadHash := some request.payloadHash
  chargeApplied := some response.chargeApplied
  responseCode := some response.statusCode
  responsePayload := some response.payload
  responseHash := some (P.canonicalResponseHash response.payload)
  nextCommitmentX := some next.commitment.x
  nextCommitmentY := some next.commitment.y
  nextAnchor := some next.anchor
  blindDeltaSrv := some next.blindDelta
  nextStateSigEpoch := none
  nextStateSigRoot := none
  nextStateSig := some next.signature
  policyReasonCode := response.policyReasonCode
  policyEvidenceHash := response.policyEvidenceHash
  proofBlob := some proofBytes
  requestInputsJson := some (P.jsonToString (request.publicInputs.toJson P))
  apiRequestBinding := some (apiRequestBinding P request)
  createdAt := createdAt
  finalizedAt := some finalizedAt

/-- The response that finalization releases. -/
def responseOf (request : ApiRequestV2) (response : ProviderResponse)
    (next : NextState) : RequestResponseV2 where
  status := "ok"
  clientRequestId := request.clientRequestId
  requestNullifier := request.nullifier
  responseCode := response.statusCode
  responsePayload := response.payload
  responseHash := P.canonicalResponseHash response.payload
  chargeApplied := response.chargeApplied
  nextCommitment := next.commitment
  nextAnchor := next.anchor
  blindDeltaSrv := next.blindDelta
  nextStateSignature := next.signature
  policyReasonCode := response.policyReasonCode
  policyEvidenceHash := response.policyEvidenceHash

/-- Draw the next wallet state of a request and sign it. -/
def drawNextState (request : ApiRequestV2) (charge : Nat) : Handler NextState := do
  let inputs := request.publicInputs
  let blindDelta ← call .randomScalar
  let commitment ← propagate
    ((P.serverUpdate ⟨inputs.anonymousCommitmentX, inputs.anonymousCommitmentY⟩ charge
      blindDelta).mapError .invalidProof)
  let seed ← call .randomField
  let anchor := P.nextAnchor seed request.nullifier commitment.x commitment.y
  let signature ← call (.signState (P.stateMessage config.protocolVersion config.chainId
    config.contractAddress commitment.x commitment.y anchor))
  return ⟨blindDelta, commitment, anchor, signature⟩

def finalizeRequest (request : ApiRequestV2) (response : ProviderResponse) :
    Handler RequestResponseV2 := do
  let existing ← okOr (← call (.lookupByNullifier request.nullifier))
    (.internal "request nullifier is no longer reserved")
  let cap := chargeCap config existing.reservationKind request response
  ensure (response.chargeApplied ≤ cap)
    (.internal ("provider charge " ++ toString response.chargeApplied ++
      " exceeds cap " ++ toString cap))
  let next ← drawNextState P config request response.chargeApplied
  let proofBytes ← propagate ((P.base64Decode request.proof.proof).mapError .invalidProof)
  let createdAt ← call .currentTimestamp
  let finalizedAt ← call .currentTimestamp
  let finalized ← call (.finalize request.nullifier
    (transcriptOf P request existing.reservationKind response next proofBytes createdAt
      finalizedAt))
  propagate finalized
  return responseOf P request response next

end Finalization

section Endpoints

variable (P : Protocol) (config : ServerConfig)

def processRequest (request : ApiRequestV2) : Handler RequestResponseV2 := do
  match ← validateAndReserve P config request .proxy with
  | some response => return response
  | none =>
      let executed ← call
        (.execute request.clientRequestId request.payload request.payloadHash)
      let response ← propagate executed
      finalizeRequest P config request response

/-- The signature is made before the reservation, and only released after it. -/
def processClearance (request : ClearanceRequest) : Handler ClearanceResponseV2 := do
  let nullifier := request.withdrawalNullifier
  let alreadyReserved ← match ← call (.lookupByNullifier nullifier) with
    | some record =>
        if record.status = .clearanceReserved then pure true else throw .nullifierUsed
    | none => pure false
  let signature ← call (.signClearance (P.clearanceMessage config.protocolVersion
    config.chainId config.contractAddress nullifier))
  if alreadyReserved then
    return ⟨"ok", nullifier, signature⟩
  else
    let reserved ← call (.reserveClearance nullifier)
    propagate reserved
    return ⟨"ok", nullifier, signature⟩

def recoverByClientId (clientRequestId : String) : Handler RecoveryResponseV2 := do
  let record ← call (.lookupByClientId clientRequestId)
  return (record.map recoveryFromRecord).getD notFoundRecovery

def recoverByNullifier (nullifier : Felt252) : Handler RecoveryResponseV2 := do
  let record ← call (.lookupByNullifier nullifier)
  return (record.map recoveryFromRecord).getD notFoundRecovery

end Endpoints

end ZkApi
