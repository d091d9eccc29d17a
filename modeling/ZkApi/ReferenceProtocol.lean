import ZkApi.ServerMachine
import Mathlib.Data.Countable.Basic
import Mathlib.Data.Nat.Digits.Defs
import Mathlib.Logic.Equiv.List

/-!
# Reference functions

One choice of the external functions that has every property the server relies
on.  Field elements are printed in hexadecimal, hashing is replaced by an
injective function, and every proof text that is not empty verifies.  The JSON
codecs number their values, except that two requests have their real texts.
-/

namespace ZkApi.Reference

open Interleaving JsonText

section Hexadecimal

def hexDigit (digit : Nat) : Char :=
  Char.ofNat (if digit < 10 then 48 + digit else 87 + digit)

def hexValue (character : Char) : Nat :=
  if character.toNat < 58 then character.toNat - 48 else character.toNat - 87

def toHex (value : Nat) : String :=
  "0x" ++ String.ofList ((Nat.digits 16 value).reverse.map hexDigit)

def fromHex (text : String) : Option Nat :=
  match text.toList with
  | '0' :: 'x' :: digits => some (Nat.ofDigits 16 (digits.map hexValue).reverse)
  | _ => none

theorem hexValue_hexDigit : ∀ digit < 16, hexValue (hexDigit digit) = digit := by
  decide

theorem fromHex_toHex (value : Nat) : fromHex (toHex value) = some value := by
  have digits : ((Nat.digits 16 value).reverse.map hexDigit).map hexValue =
      (Nat.digits 16 value).reverse := by
    rw [List.map_map]
    refine (List.map_congr_left fun digit member => ?_).trans (List.map_id _)
    exact hexValue_hexDigit digit
      (Nat.digits_lt_base (by decide) (List.mem_reverse.mp member))
  have text : (toHex value).toList =
      '0' :: 'x' :: (Nat.digits 16 value).reverse.map hexDigit := by
    simp [toHex]
  unfold fromHex
  rw [text]
  simp only [digits, List.reverse_reverse, Nat.ofDigits_digits]

end Hexadecimal

section Numbering

instance charCountable : Countable Char :=
  Function.Injective.countable (f := Char.toNat) fun _ _ same => Char.toNat_inj.mp same

instance stringCountable : Countable String :=
  Function.Injective.countable (f := String.toList) fun _ _ same =>
    String.toList_injective same

/-- A number for every value of a countable type. -/
noncomputable def index {α : Type} [Countable α] : α → Nat :=
  (Countable.exists_injective_nat α).choose

theorem index_injective {α : Type} [Countable α] : Function.Injective (index : α → Nat) :=
  (Countable.exists_injective_nat α).choose_spec

/-- A text for every value of a countable type. -/
noncomputable def numbered {α : Type} [Countable α] (value : α) : String :=
  String.ofList (List.replicate (index value) '#')

theorem numbered_injective {α : Type} [Countable α] :
    Function.Injective (numbered : α → String) := by
  intro first second same
  have lengths := congrArg (fun text => text.toList.length) same
  simp only [numbered, String.toList_ofList, List.length_replicate] at lengths
  exact index_injective lengths

end Numbering

section Requests

/-- The texts and numbers a request consists of. -/
def requestParts (request : ApiRequestV2) : List String × List Nat :=
  let inputs := request.publicInputs
  ([request.clientRequestId, request.payload, request.proof.proof],
    [request.payloadHash.value, inputs.protocolVersion.toNat, inputs.chainId.toNat,
      inputs.contractAddress.value, inputs.activeRoot.value,
      inputs.stateSigningKeyX.value, inputs.stateSigningKeyY.value,
      inputs.requestTime.toNat, inputs.solvencyBound, inputs.requestNullifier.value,
      inputs.authorizationTag.value, inputs.anonymousCommitmentX.value,
      inputs.anonymousCommitmentY.value,
      match request.proof.backend with
      | .groth16Bn254 => 0
      | .stwoCairo => 1])

theorem requestParts_injective : Function.Injective requestParts := by
  intro first second same
  rcases first with ⟨id, payload, ⟨hash⟩, ⟨version, chain, ⟨contract⟩, ⟨root⟩, ⟨keyX⟩, ⟨keyY⟩,
    time, bound, ⟨nullifier⟩, ⟨tag⟩, ⟨commitmentX⟩, ⟨commitmentY⟩⟩, backend, proof⟩
  rcases second with ⟨id', payload', ⟨hash'⟩, ⟨version', chain', ⟨contract'⟩, ⟨root'⟩, ⟨keyX'⟩,
    ⟨keyY'⟩, time', bound', ⟨nullifier'⟩, ⟨tag'⟩, ⟨commitmentX'⟩, ⟨commitmentY'⟩⟩, backend', proof'⟩
  simp only [requestParts, Prod.mk.injEq, List.cons.injEq, and_true, UInt16.toNat_inj,
    UInt64.toNat_inj] at same
  obtain ⟨⟨rfl, rfl, rfl⟩, rfl, rfl, rfl, rfl, rfl, rfl, rfl, rfl, rfl, rfl, rfl, rfl, rfl,
    backends⟩ := same
  cases backend <;> cases backend' <;> first | rfl | cases backends

instance requestCountable : Countable ApiRequestV2 :=
  requestParts_injective.countable

end Requests

section Objects

/-- What printing keeps of a value: integers and strings. -/
def flatValue : Json → Option (Nat ⊕ String)
  | .integer value => some (.inl value)
  | .string value => some (.inr value)
  | _ => none

def jsonValue : Option (Nat ⊕ String) → Json
  | some (.inl value) => .integer value
  | some (.inr value) => .string value
  | none => .null

theorem jsonValue_flatValue {value : Json} (exact : value.Exact) :
    jsonValue (flatValue value) = value := by
  cases value with
  | integer value => rfl
  | string value => rfl
  | _ => cases exact

theorem lookup_map {α β : Type} (change : α → β) (fields : List (String × α)) (key : String) :
    (fields.map fun field => (field.1, change field.2)).lookup key =
      (fields.lookup key).map change := by
  induction fields with
  | nil => rfl
  | cons field fields ih =>
      rcases field with ⟨name, value⟩
      cases same : key == name <;> simp [List.lookup_cons, same, ih]

noncomputable def objectToString : Json → String
  | .object fields => numbered (fields.map fun field => (field.1, flatValue field.2))
  | _ => ""

noncomputable def objectFromString (text : String) : Option Json :=
  (Function.partialInv numbered text).map fun fields : List (String × Option (Nat ⊕ String)) =>
    .object (fields.map fun field => (field.1, jsonValue field.2))

theorem objectText_faithful : ObjectTextFaithful objectToString objectFromString := by
  intro fields
  refine ⟨(fields.map fun field => (field.1, flatValue field.2)).map fun field =>
    (field.1, jsonValue field.2), ?_, fun key => ⟨?_, fun value found exact => ?_⟩⟩
  · simp only [objectFromString, objectToString, Function.partialInv_left numbered_injective,
      Option.map_some]
  · rw [lookup_map, lookup_map]
    simp
  · rw [lookup_map, lookup_map, found]
    exact congrArg some (jsonValue_flatValue exact)

end Objects

section Samples

/-- The prompt-free payload of a lease request. -/
def leaseAuthorization : String :=
  "\x7b\"mode\":\"openrouter_ephemeral_lease\",\"version\":1\x7d"

def payloadHash (payload : String) : Felt252 := ⟨payload.utf8ByteSize⟩

def requestContext (clientRequestId : String) (payloadHash : Felt252) : Felt252 :=
  ⟨clientRequestId.utf8ByteSize + payloadHash.value⟩

def authorizationTag (nullifier context : Felt252) : Felt252 :=
  ⟨nullifier.value + context.value⟩

/-- A request that passes every check of the sample configurations. -/
def request (clientRequestId payload : String) (nullifier solvencyBound : Nat) :
    ApiRequestV2 where
  clientRequestId := clientRequestId
  payload := payload
  payloadHash := payloadHash payload
  publicInputs :=
    { protocolVersion := 2
      chainId := 1
      contractAddress := ⟨0xdead⟩
      activeRoot := ⟨11⟩
      stateSigningKeyX := ⟨7⟩
      stateSigningKeyY := ⟨7⟩
      requestTime := 1000
      solvencyBound := solvencyBound
      requestNullifier := ⟨nullifier⟩
      authorizationTag := authorizationTag ⟨nullifier⟩
        (requestContext clientRequestId (payloadHash payload))
      anonymousCommitmentX := ⟨3⟩
      anonymousCommitmentY := ⟨4⟩ }
  proof := ⟨.groth16Bn254, "AQID"⟩

/-- A lease request for one dollar. -/
def leaseRequest : ApiRequestV2 :=
  request "lease-1" leaseAuthorization 5 1000000

/-- A proxied request for at most ten credits. -/
def proxyRequest : ApiRequestV2 :=
  request "req-1" "hello" 6 10

/-- What the JSON texts of the two requests have in common. -/
def publicInputsJson : String :=
  "\"public_inputs\":\x7b\"protocol_version\":2,\"chain_id\":1," ++
  "\"contract_address\":\"0xdead\",\"active_root\":\"0xb\"," ++
  "\"state_signing_key_x\":\"0x7\",\"state_signing_key_y\":\"0x7\"," ++
  "\"request_time\":1000,\"solvency_bound\":"

def proofJson : String :=
  "\"anonymous_commitment_x\":\"0x3\",\"anonymous_commitment_y\":\"0x4\"\x7d," ++
  "\"proof\":\x7b\"backend\":\"groth16_bn254\",\"proof\":\"AQID\"\x7d\x7d"

/-- The JSON text of `leaseRequest`. -/
def leaseRequestJson : String :=
  "\x7b" ++ ("\"client_request_id\":\"lease-1\"," ++
  "\"payload\":\"\x7b\\\"mode\\\":\\\"openrouter_ephemeral_lease\\\"," ++
  "\\\"version\\\":1\x7d\",\"payload_hash\":\"0x31\"," ++ publicInputsJson ++
  "1000000,\"request_nullifier\":\"0x5\",\"authorization_tag\":\"0x3d\"," ++ proofJson)

/-- The JSON text of `proxyRequest`. -/
def proxyRequestJson : String :=
  "\x7b" ++ ("\"client_request_id\":\"req-1\",\"payload\":\"hello\"," ++
  "\"payload_hash\":\"0x5\"," ++ publicInputsJson ++
  "10,\"request_nullifier\":\"0x6\",\"authorization_tag\":\"0x10\"," ++ proofJson)

noncomputable def requestToJson (request : ApiRequestV2) : String :=
  if request = leaseRequest then leaseRequestJson
  else if request = proxyRequest then proxyRequestJson
  else numbered request

noncomputable def requestFromJson (text : String) : Option ApiRequestV2 :=
  if text = leaseRequestJson then some leaseRequest
  else if text = proxyRequestJson then some proxyRequest
  else Function.partialInv numbered text

theorem numbered_ne_brace (request : ApiRequestV2) (text : String) :
    numbered request ≠ "\x7b" ++ text := by
  intro same
  have member : '\x7b' ∈ (numbered request).toList := by
    rw [same, String.toList_append]
    exact List.mem_append_left _ (by decide)
  rw [numbered, String.toList_ofList] at member
  exact absurd (List.eq_of_mem_replicate member) (by decide)

theorem proxyRequestJson_ne : proxyRequestJson ≠ leaseRequestJson := by
  decide

theorem requestFromJson_requestToJson (request : ApiRequestV2) :
    requestFromJson (requestToJson request) = some request := by
  unfold requestToJson requestFromJson
  split
  · rename_i same
    rw [if_pos rfl, same]
  · split
    · rename_i same
      rw [if_neg proxyRequestJson_ne, if_pos rfl, same]
    · have notLease : numbered request ≠ leaseRequestJson := numbered_ne_brace request _
      have notProxy : numbered request ≠ proxyRequestJson := numbered_ne_brace request _
      rw [if_neg notLease, if_neg notProxy, Function.partialInv_left numbered_injective]

noncomputable def protocol : Protocol where
  feltToHex felt := toHex felt.value
  feltFromHex text := (fromHex text).map Felt252.mk
  canonicalPayloadHash := payloadHash
  canonicalResponseHash := payloadHash
  canonicalRequestContext := requestContext
  authorizationTag := authorizationTag
  loadVerifier _ := .ok ()
  verify _ _ proof := .ok (proof.proof != "")
  publicKey seed := ⟨seed, seed⟩
  serverUpdate point charge blindDelta := .ok ⟨⟨point.x.value + charge⟩, ⟨blindDelta.value⟩⟩
  nextAnchor seed _ _ _ := seed
  stateMessage _ _ _ x y anchor := ⟨x.value + y.value + anchor.value⟩
  clearanceMessage _ _ _ nullifier := nullifier
  base64Decode text := .ok (text.toList.map fun character => character.toNat.toUInt8)
  keccak256Hex text := text
  requestToJson := requestToJson
  requestFromJson := requestFromJson
  requestValuesEqual first second := .ok (first = second)
  signatureToJson signature := toHex signature.value
  signatureFromJson text := (fromHex text).map SchnorrSignature.mk
  authorizationFromJson text :=
    if text = leaseAuthorization then .ok OpenRouterLeaseAuthorization.default
    else .error "expected a lease authorization"
  jsonToString := objectToString
  jsonFromStr := objectFromString
  parseUrl text := some ⟨text, "", none, none, none⟩

theorem feltHexRoundTrips : protocol.FeltHexRoundTrips := by
  intro felt
  simp [protocol, fromHex_toHex]

theorem signatureJsonRoundTrips : protocol.SignatureJsonRoundTrips := by
  intro signature
  simp [protocol, fromHex_toHex]

theorem requestJsonRoundTrips : protocol.RequestJsonRoundTrips :=
  requestFromJson_requestToJson

theorem collisionFree : protocol.CollisionFree :=
  fun _ _ same => same

theorem jsonFaithful : protocol.JsonFaithful :=
  objectText_faithful

/-- A configuration that accepts the sample requests. -/
def config (requestChargeCap policyChargeCap : Nat) (policyEnabled : Bool)
    (openrouterLeases : Option OpenRouterLeaseConfig) : ServerConfig where
  protocolVersion := 2
  chainId := 1
  contractAddress := ⟨0xdead⟩
  requestChargeCap := requestChargeCap
  policyChargeCap := policyChargeCap
  policyEnabled := policyEnabled
  stateSeed := ⟨7⟩
  clearSeed := ⟨8⟩
  openrouterLeases := openrouterLeases
  proofSetupDir := "setup/v2"

/-- A server that accepts the sample requests, with an empty store. -/
def world (config : ServerConfig) : World :=
  World.boot config ⟨11⟩ 1000 Store.empty true

/-- Leases of ten minutes whose keys come from OpenRouter. -/
def openrouterLeases : OpenRouterLeaseConfig where
  source := .openRouter "management" "https://openrouter.ai/api"
  ttlSeconds := 600
  settlementGraceSeconds := 120

/-- A configuration that leases OpenRouter keys. -/
def leasingConfig : ServerConfig :=
  config 10 1 false (some openrouterLeases)

/-- Leases of ten minutes whose keys come from the OA org. -/
def oaOrgLeases : OpenRouterLeaseConfig where
  source := .oaOrg "https://org.example" "secret"
  ttlSeconds := 600
  settlementGraceSeconds := 120

/-- A configuration that leases keys of the OA org. -/
def oaLeasingConfig : ServerConfig :=
  config 10 1 false (some oaOrgLeases)

/-- A successful reply. -/
def reply {Body : Type} (body : Body) : Exchange Body :=
  .received ⟨200, "200 OK"⟩ none "" (.ok body)

/-- What OpenRouter says about the key of `leaseRequest`. -/
def childKey (usage : Float) : KeyData where
  hash := "hash-1"
  usage := usage
  byokUsage := 0.0
  name := "zkapi-lease-1"
  limit := some 1.0
  expiresAt := some "1970-01-01T00:26:40Z"
  includeByokInLimit := true

/-- The key that the OA org mints for `leaseRequest` at time 1000. -/
def oaKey : OaOrgKeyResponse where
  source := "oa_org"
  key := "sk-oa"
  keyHash := "hash-oa"
  creditLimit := 1.0
  durationMinutes := 10
  expiresAtUnix := 1600
  stationId := "station-1"
  stationRecentlyAttested := true
  stationSignature := String.ofList (List.replicate 128 '0')
  orgSignature := String.ofList (List.replicate 128 '1')
  verifierUrl := "https://verifier.example"
  openrouterApiBase := "https://openrouter.ai/api/v1"

/-- Start a call as the task with this number and let it run with these
answers. -/
noncomputable def runs (task : Nat) (call : Call) (answers : List Answer) :
    List (Action (server protocol)) :=
  .start call :: answers.map (.advance task)

/-- What the outside answers while a proxied request is processed from its
first lookup to its transcript. -/
def requestAnswers (charge : Nat) : List Answer :=
  [.nothing, .nothing, .nothing, .nothing, .executed (.ok ⟨200, "hi", charge, none, none⟩),
    .nothing, .felt ⟨1⟩, .felt ⟨2⟩, .signature ⟨3⟩, .nothing, .nothing, .nothing]

/-- What the outside answers while OpenRouter issues the key of
`leaseRequest`. -/
def issueAnswers : List Answer :=
  List.replicate 9 .nothing ++
    [.created (reply ⟨"sk-1", childKey 0.0⟩), .nothing, .nothing]

/-- What the outside answers while the OA org is asked for the key of
`leaseRequest` for the first time, and when this is repeated. -/
def oaIssueAnswers : List Answer :=
  List.replicate 9 .nothing ++ [.oaKey (reply oaKey)]

def oaRetryAnswers : List Answer :=
  List.replicate 5 .nothing ++ [.oaKey (reply oaKey)]

/-- An OA org that answers every request for a key with the same key. -/
def oaAnswers : Op → Answer
  | .oaRequestKey _ _ _ _ => .oaKey (reply oaKey)
  | _ => .nothing

/-- What the outside answers while the key of `leaseRequest` is billed, up to the
write of the transcript. -/
def billingAnswers (usage : Float) : List Answer :=
  [.usage (reply (childKey usage)), .nothing, .felt ⟨1⟩, .felt ⟨2⟩, .signature ⟨3⟩, .nothing,
    .nothing, .nothing]

end Samples

end ZkApi.Reference
