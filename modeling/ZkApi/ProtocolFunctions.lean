import ZkApi.ProtocolTypes
import Mathlib.Logic.Function.Basic

/-!
# Functions the server takes from other crates

Field encoding, hashing, proof verification, commitment updates and the JSON
and base64 codecs live outside the server.  The server is modelled over any
such functions; what it relies on is stated as named properties of them.
-/

namespace ZkApi

open JsonText

/-- The parts of a parsed URL that the server looks at. -/
structure Url where
  asStr : String
  username : String
  password : Option String
  query : Option String
  fragment : Option String

structure Protocol where
  feltToHex : Felt252 → String
  feltFromHex : String → Option Felt252
  canonicalPayloadHash : String → Felt252
  canonicalResponseHash : String → Felt252
  canonicalRequestContext : String → Felt252 → Felt252
  authorizationTag : Felt252 → Felt252 → Felt252
  loadVerifier : String → Except String Unit
  verify : String → RequestPublicInputsV2 → Groth16ProofWire → Except String Bool
  publicKey : Felt252 → CurvePointWire
  serverUpdate : CurvePointWire → Nat → Felt252 → Except String CurvePointWire
  nextAnchor : Felt252 → Felt252 → Felt252 → Felt252 → Felt252
  stateMessage : UInt16 → UInt64 → Felt252 → Felt252 → Felt252 → Felt252 → Felt252
  clearanceMessage : UInt16 → UInt64 → Felt252 → Felt252 → Felt252
  base64Decode : String → Except String (List UInt8)
  keccak256Hex : String → String
  requestToJson : ApiRequestV2 → String
  requestFromJson : String → Option ApiRequestV2
  requestValuesEqual : ApiRequestV2 → ApiRequestV2 → Except String Bool
  signatureToJson : SchnorrSignature → String
  signatureFromJson : String → Option SchnorrSignature
  authorizationFromJson : String → Except String OpenRouterLeaseAuthorization
  jsonToString : Json → String
  jsonFromStr : String → Option Json
  parseUrl : String → Option Url

namespace Protocol

variable (P : Protocol)

def FeltHexRoundTrips : Prop :=
  ∀ felt, P.feltFromHex (P.feltToHex felt) = some felt

def SignatureJsonRoundTrips : Prop :=
  ∀ signature, P.signatureFromJson (P.signatureToJson signature) = some signature

def RequestJsonRoundTrips : Prop :=
  ∀ request, P.requestFromJson (P.requestToJson request) = some request

/-- Keccak-256 has no collision. -/
def CollisionFree : Prop :=
  Function.Injective P.keccak256Hex

/-- Different requests have different JSON texts. -/
def RequestJsonInjective : Prop :=
  Function.Injective P.requestToJson

def JsonFaithful : Prop :=
  ObjectTextFaithful P.jsonToString P.jsonFromStr

variable {P}

theorem FeltHexRoundTrips.injective (roundTrips : P.FeltHexRoundTrips) :
    Function.Injective P.feltToHex := by
  intro first second equal
  have same := congrArg P.feltFromHex equal
  rw [roundTrips, roundTrips] at same
  exact Option.some.inj same

theorem RequestJsonRoundTrips.injective (roundTrips : P.RequestJsonRoundTrips) :
    P.RequestJsonInjective := by
  intro first second equal
  have same := congrArg P.requestFromJson equal
  rw [roundTrips, roundTrips] at same
  exact Option.some.inj same

end Protocol

/-- Digest of the complete request under a domain separator. -/
def apiRequestBinding (P : Protocol) (request : ApiRequestV2) : String :=
  P.keccak256Hex ("zkapi:v2:api-request-binding\x00" ++ P.requestToJson request)

/-- The digest determines the request. -/
theorem apiRequestBinding_injective {P : Protocol}
    (collisionFree : P.CollisionFree) (jsonInjective : P.RequestJsonInjective) :
    Function.Injective (apiRequestBinding P) := by
  intro first second equal
  have texts := collisionFree equal
  exact jsonInjective (by simpa using texts)

/-- JSON of the v2 public inputs, one field for each declared one. -/
def RequestPublicInputsV2.toJson (P : Protocol) (inputs : RequestPublicInputsV2) : Json :=
  .object
    [("protocol_version", .integer inputs.protocolVersion.toNat),
      ("chain_id", .integer inputs.chainId.toNat),
      ("contract_address", .string (P.feltToHex inputs.contractAddress)),
      ("active_root", .string (P.feltToHex inputs.activeRoot)),
      ("state_signing_key_x", .string (P.feltToHex inputs.stateSigningKeyX)),
      ("state_signing_key_y", .string (P.feltToHex inputs.stateSigningKeyY)),
      ("request_time", .integer inputs.requestTime.toNat),
      ("solvency_bound", .integer inputs.solvencyBound),
      ("request_nullifier", .string (P.feltToHex inputs.requestNullifier)),
      ("authorization_tag", .string (P.feltToHex inputs.authorizationTag)),
      ("anonymous_commitment_x", .string (P.feltToHex inputs.anonymousCommitmentX)),
      ("anonymous_commitment_y", .string (P.feltToHex inputs.anonymousCommitmentY))]

end ZkApi
