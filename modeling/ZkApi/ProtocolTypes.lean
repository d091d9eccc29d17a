import ZkApi.JsonText

/-!
# Wire and error types of the server

The records that requests, responses and signatures consist of, as the routes
receive and return them.  Field elements and signatures are only moved,
compared, hashed and printed by the server, so they are opaque values here.
-/

namespace ZkApi

structure Felt252 where
  value : Nat
deriving DecidableEq

/-- `Felt252::ZERO`. -/
def Felt252.zero : Felt252 := ⟨0⟩

structure SchnorrSignature where
  value : Nat
deriving DecidableEq

structure CurvePointWire where
  x : Felt252
  y : Felt252
deriving DecidableEq

inductive ProofBackendWire where
  | groth16Bn254
  | stwoCairo
deriving DecidableEq

structure Groth16ProofWire where
  backend : ProofBackendWire
  proof : String
deriving DecidableEq

structure RequestPublicInputsV2 where
  protocolVersion : UInt16
  chainId : UInt64
  contractAddress : Felt252
  activeRoot : Felt252
  stateSigningKeyX : Felt252
  stateSigningKeyY : Felt252
  requestTime : UInt64
  solvencyBound : Nat
  requestNullifier : Felt252
  authorizationTag : Felt252
  anonymousCommitmentX : Felt252
  anonymousCommitmentY : Felt252
deriving DecidableEq

structure ApiRequestV2 where
  clientRequestId : String
  payload : String
  payloadHash : Felt252
  publicInputs : RequestPublicInputsV2
  proof : Groth16ProofWire
deriving DecidableEq

/-- The nullifier a request spends. -/
abbrev ApiRequestV2.nullifier (request : ApiRequestV2) : Felt252 :=
  request.publicInputs.requestNullifier

structure ClearanceRequest where
  withdrawalNullifier : Felt252
deriving DecidableEq

structure ClearanceResponseV2 where
  status : String
  withdrawalNullifier : Felt252
  signature : SchnorrSignature
deriving DecidableEq

structure RequestResponseV2 where
  status : String
  clientRequestId : String
  requestNullifier : Felt252
  responseCode : UInt16
  responsePayload : String
  responseHash : Felt252
  chargeApplied : Nat
  nextCommitment : CurvePointWire
  nextAnchor : Felt252
  blindDeltaSrv : Felt252
  nextStateSignature : SchnorrSignature
  policyReasonCode : Option UInt32
  policyEvidenceHash : Option Felt252
deriving DecidableEq

structure RecoveryResponseV2 where
  status : String
  nullifierStatus : String
  requestResponse : Option RequestResponseV2
deriving DecidableEq

structure OpenRouterLeaseAuthorization where
  mode : String
  version : Nat
deriving DecidableEq

/-- `OpenRouterLeaseAuthorization::default()`. -/
def OpenRouterLeaseAuthorization.default : OpenRouterLeaseAuthorization :=
  ⟨"openrouter_ephemeral_lease", 1⟩

structure OpenRouterLeaseResponse where
  status : String
  clientRequestId : String
  apiKey : String
  openrouterApiBase : String
  issuedAt : UInt64
  expiresAt : UInt64
  validForSeconds : UInt64
  settleAfter : UInt64
  spendingLimitUsd : Float
deriving DecidableEq

structure OpenRouterLeaseStatusResponse where
  status : String
  clientRequestId : String
  issuedAt : UInt64
  expiresAt : UInt64
  settleAfter : UInt64
  spendingLimitUsd : Float
  usageUsd : Option Float
  chargeApplied : Option Nat
  lastError : Option String
deriving DecidableEq

structure OaKeyVerificationEvidence where
  verifierUrl : String
  stationId : String
  stationRecentlyAttested : Bool
  keyValidTill : UInt64
  stationSignature : String
  orgSignature : String
deriving DecidableEq

structure IssuedOpenRouterLease where
  lease : OpenRouterLeaseResponse
  keySource : String
  verification : Option OaKeyVerificationEvidence
deriving DecidableEq

inductive NullifierStatus where
  | reserved
  | finalized
  | clearanceReserved
deriving DecidableEq

/-- Which endpoint reserved a nullifier. -/
inductive ReservationKind where
  | proxy
  | openRouterLease
deriving DecidableEq

def ReservationKind.asStr : ReservationKind → String
  | .proxy => "proxy"
  | .openRouterLease => "openrouter_lease"

theorem ReservationKind.asStr_injective : Function.Injective ReservationKind.asStr := by
  intro first second equal
  cases first <;> cases second <;> first | rfl | exact absurd equal (by decide)

inductive ServerError where
  | invalidProof (message : String)
  | staleRoot (latestRoot : String)
  | replay
  | noteExpired
  | internal (message : String)
  | capacityExhausted
  | nullifierUsed
  | database (message : String)
  | invalidRequest (message : String)
  | protocolMismatch (message : String)
  | leasePending
  | leaseSettlementPending (retryAfterSeconds : UInt64)
  | oaRateLimited (reason : String) (retryAfterSeconds : UInt64)
deriving DecidableEq

/-- The text of an error. -/
def ServerError.display : ServerError → String
  | .invalidProof message => "invalid proof: " ++ message
  | .staleRoot latestRoot => "stale root: latest is " ++ latestRoot
  | .replay => "replayed nullifier"
  | .noteExpired => "note expired"
  | .internal message => "internal error: " ++ message
  | .capacityExhausted => "capacity exhausted"
  | .nullifierUsed => "nullifier already used"
  | .database message => "database error: " ++ message
  | .invalidRequest message => "invalid request: " ++ message
  | .protocolMismatch message => "protocol mismatch: " ++ message
  | .leasePending => "OpenRouter lease is already active or awaiting settlement"
  | .leaseSettlementPending retryAfterSeconds =>
      s!"OpenRouter lease settlement is still pending; retry after {retryAfterSeconds} seconds"
  | .oaRateLimited reason retryAfterSeconds =>
      s!"OA org key issuance was rate limited ({reason}); retry after {retryAfterSeconds} seconds"

/-- How a request handler can end other than with a value. -/
inductive Failure where
  | error (cause : ServerError)
  | panic
deriving DecidableEq

end ZkApi
