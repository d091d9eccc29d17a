import ZkApi.RequestHandlers

/-!
# Lease handlers

Issuing a runtime key against a reserved request, and settling it: the clients
of the two key services and the handlers that use them.
-/

namespace ZkApi

open Interleaving JsonText MachineIntegers Handler

/-- `OA_LEASE_EXPIRY_SAFETY_SECONDS`. -/
def oaLeaseExpirySafetySeconds : UInt64 := 30

section OpenRouter

/-- The body of a successful reply to an OpenRouter call, or the error that
names the failed stage. -/
def decodeReply {Body : Type} (call response returned invalid : String) :
    Exchange Body → Except ServerError Body
  | .unsent error => .error (.internal (call ++ ": " ++ error))
  | .unread _ _ error => .error (.internal (response ++ ": " ++ error))
  | .received status _ text decoded =>
      if status.isSuccess then
        decoded.mapError fun error => .internal (invalid ++ ": " ++ error)
      else
        .error (.internal (returned ++ " " ++ status.text ++ ": " ++ truncate text 300))

theorem decodeReply_eq_ok {Body : Type} {call response returned invalid : String}
    {reply : Exchange Body} {body : Body}
    (decoded : decodeReply call response returned invalid reply = .ok body) :
    ∃ status retryAfter text, reply = .received status retryAfter text (.ok body) ∧
      status.isSuccess = true := by
  cases reply with
  | unsent error => cases decoded
  | unread status retryAfter error => cases decoded
  | received status retryAfter text found =>
      simp only [decodeReply] at decoded
      split at decoded
      · rename_i success
        cases found with
        | error message => cases decoded
        | ok value =>
            cases decoded
            exact ⟨status, retryAfter, text, rfl, success⟩
      · cases decoded

def deleteKey (hash : String) : Handler Unit := do
  let reply ← call (.openrouterDelete hash)
  let refused (status : HttpStatus) (text : String) : Handler Unit :=
    ensure (status.isSuccess = true)
      (.internal ("OpenRouter key deletion returned " ++ status.text ++ ": " ++
        truncate text 200))
  match reply with
  | .unsent error => throw (.internal ("OpenRouter key deletion failed: " ++ error))
  | .unread status _ _ => refused status ""
  | .received status _ text _ => refused status text

/-- Run a step whose failure is ignored. -/
def ignoring {α : Type} (program : Handler α) : Handler Unit := do
  let _ ← program.attempt
  return ()

/-- The created key has the requested limit and expiry. -/
def keyBoundsMatch (data : KeyData) (limitUsd : Float) (expiresAtIso : String) : Bool :=
  data.limit.any (limitsAgree · limitUsd) &&
    data.expiresAt.any (openrouterExpiryMatches · expiresAtIso) &&
    data.includeByokInLimit

def createKey (name : String) (limitUsd : Float) (expiresAt : UInt64) :
    Handler CreatedKey := do
  let reply ← call (.openrouterCreate name limitUsd expiresAt)
  let envelope ← propagate (decodeReply "OpenRouter key creation failed"
    "OpenRouter key response failed" "OpenRouter key creation returned"
    "invalid OpenRouter key response" reply)
  ensure (envelope.key ≠ "" ∧ envelope.data.hash ≠ "")
    (.internal "OpenRouter returned an incomplete key response")
  if keyBoundsMatch envelope.data limitUsd (unixToIso8601 expiresAt) then
    return ⟨envelope.key, envelope.data.hash⟩
  else
    ignoring (deleteKey envelope.data.hash)
    throw (.internal "OpenRouter did not apply the requested key limit and expiry")

def getKeyUsage (hash : String) : Handler Float := do
  let reply ← call (.openrouterUsage hash)
  let data ← propagate (decodeReply "OpenRouter usage read failed"
    "OpenRouter usage response failed" "OpenRouter usage read returned"
    "invalid OpenRouter usage response" reply)
  return data.usageUsd

/-- The listing loop of `delete_keys_named`, page by page.  Every page that is
not the last one has a key, so `pages` rounds cover `pages` keys. -/
def hashesNamed (name : String) : Nat → Nat → List String → Handler (List String)
  | 0, _, _ =>
      throw (.internal "OpenRouter key reconciliation exceeded 10,000 keys")
  | pages + 1, offset, matching => do
      let reply ← call (.openrouterList offset)
      let data ← propagate (decodeReply "OpenRouter key listing failed"
        "OpenRouter key-list response failed" "OpenRouter key listing returned"
        "invalid OpenRouter key-list response" reply)
      if data.isEmpty then
        return matching
      else
        ensure (offset + data.length ≤ 10000)
          (.internal "OpenRouter key reconciliation exceeded 10,000 keys")
        hashesNamed name pages (offset + data.length)
          (matching ++ (data.filter fun key => key.name == name && key.hash != "").map
            KeyData.hash)

def deleteKeysNamed (name : String) : Handler Unit := do
  let hashes ← hashesNamed name 10001 0 []
  Program.forEach hashes deleteKey

def trimEndSlashes (base : String) : String :=
  String.ofList (base.toList.reverse.dropWhile (· == '/')).reverse

/-- `inference_base`. -/
def inferenceBase (apiBase : String) : String :=
  trimEndSlashes apiBase ++ "/v1"

end OpenRouter

section OaOrg

variable (P : Protocol)

/-- The body of a reply of the OA org; a rate limit is reported as such. -/
def decodeOaReply {Body : Type} (request response : String) :
    Exchange Body → Except ServerError Body
  | .unsent error => .error (.internal (request ++ " failed: " ++ error))
  | .unread status retryAfter error =>
      if status.code = 429 then .error (parseOaRateLimit P retryAfter "")
      else .error (.internal (response ++ " failed: " ++ error))
  | .received status retryAfter text decoded =>
      if status.code = 429 then .error (parseOaRateLimit P retryAfter text)
      else if status.isSuccess then
        decoded.mapError fun error => .internal ("invalid " ++ response ++ ": " ++ error)
      else .error (.internal (request ++ " returned " ++ status.text))

theorem decodeOaReply_eq_ok {P : Protocol} {Body : Type} {request response : String}
    {reply : Exchange Body} {body : Body}
    (decoded : decodeOaReply P request response reply = .ok body) :
    ∃ status retryAfter text, reply = .received status retryAfter text (.ok body) := by
  cases reply with
  | unsent error => cases decoded
  | unread status retryAfter error =>
      simp only [decodeOaReply] at decoded
      split at decoded <;> cases decoded
  | received status retryAfter text found =>
      simp only [decodeOaReply] at decoded
      split at decoded
      · cases decoded
      split at decoded
      · cases found with
        | error message => cases decoded
        | ok value =>
            cases decoded
            exact ⟨status, retryAfter, text, rfl⟩
      · cases decoded

def oaCreateKey (clientRequestId : String) (limitUsd : Float) (limitCredits : Nat)
    (ttlSeconds : UInt64) : Handler OaOrgCreatedKey := do
  ensure (ttlSeconds ≠ 0 ∧ ttlSeconds % 60 = 0)
    (.invalidRequest "OA org lease TTL must be a positive whole number of minutes")
  let durationMinutes := ttlSeconds / 60
  let reply ← call (.oaRequestKey clientRequestId limitUsd limitCredits durationMinutes)
  let response ← propagate
    (decodeOaReply P "OA org key request" "OA org key response" reply)
  let now ← call .currentTimestamp
  propagate (validateResponse now response limitUsd durationMinutes ttlSeconds)
  return {
    key := response.key
    hash := response.keyHash
    expiresAt := response.expiresAtUnix
    openrouterApiBase := response.openrouterApiBase
    verification :=
      ⟨response.verifierUrl, response.stationId, response.stationRecentlyAttested,
        response.expiresAtUnix, response.stationSignature, response.orgSignature⟩ }

/-- The `Retry-After` header of an answered call. -/
def retryAfterHeader {Body : Type} : Exchange Body → Option UInt64
  | .received _ retryAfter _ _ => retryAfter
  | _ => none

def oaGetKeyUsage (clientRequestId keyHash : String)
    (expectation : OaOrgUsageExpectation) : Handler OaOrgUsage := do
  let reply ← call (.oaKeyUsage clientRequestId keyHash expectation)
  let response ← propagate
    (decodeOaReply P "OA org usage request" "OA org usage response" reply)
  let pendingRetryAfterSeconds :=
    max (((retryAfterHeader reply).or response.retryAfterSeconds).getD 1) 1
  propagate (validateUsageResponse response clientRequestId keyHash
    expectation.limitCredits expectation.minimumExpiresAt expectation.maximumExpiresAt
    pendingRetryAfterSeconds)

end OaOrg

section Issue

variable (P : Protocol) (config : ServerConfig)

/-- What a lease still being provisioned tells its retry. -/
structure Resumption where
  resumeProvisioning : Bool
  issuedAt : UInt64
  spendingLimitUsd : Float

/-- A runtime key that a service has handed out. -/
structure RuntimeKey where
  apiKey : String
  keyHash : String
  openrouterApiBase : String
  expiresAt : UInt64
  verification : Option OaKeyVerificationEvidence

def keyName (request : ApiRequestV2) : String :=
  "zkapi-" ++ request.clientRequestId

/-- Reconcile with the lease row of an earlier attempt: an OpenRouter key is
revoked and its row removed, an OA lease is taken up where it was left. -/
def resumeExisting (lease : OpenRouterLeaseConfig) (request : ApiRequestV2)
    (fresh : Resumption) (existing : OpenRouterLeaseRecord) : Handler Resumption := do
  ensure (existing.requestNullifier = request.nullifier ∧
      apiRequestBinding P existing.apiRequest = apiRequestBinding P request)
    (.internal "pending lease request does not match its nullifier reservation")
  ensure (existing.keySource = lease.source.label)
    (.internal ("pending lease source " ++ existing.keySource ++
      " does not match configured source " ++ lease.source.label))
  ensure (existing.status = "provisioning" ∧ existing.keyHash = none) .leasePending
  match lease.source with
  | .openRouter _ _ =>
      deleteKeysNamed (keyName request)
      let removed ← call (.removeFailedLease request.clientRequestId)
      propagate removed
      return fresh
  | .oaOrg _ _ =>
      let persistedLimit :=
        Pricing.creditsToUsd existing.apiRequest.publicInputs.solvencyBound
      ensure (existing.spendingLimitUsd.toBits = persistedLimit.toBits ∧
          persistedLimit.isFinite = true ∧ ¬ persistedLimit ≤ 0.0)
        (.internal "pending lease spending limit does not match its bound request")
      return ⟨true, existing.issuedAt, existing.spendingLimitUsd⟩

/-- Ask the configured key service for the runtime key of a lease. -/
def obtainKey (lease : OpenRouterLeaseConfig) (request : ApiRequestV2)
    (spendingLimitUsd : Float) (requestedExpiresAt : UInt64) : Handler RuntimeKey :=
  match lease.source with
  | .openRouter _ apiBase => do
      match ← (createKey (keyName request) spendingLimitUsd requestedExpiresAt).attempt with
      | .ok created =>
          return ⟨created.key, created.hash, inferenceBase apiBase, requestedExpiresAt, none⟩
      | .error error =>
          let _ ← call (.removeFailedLease request.clientRequestId)
          .fail error
  | .oaOrg _ _ => do
      let created ← oaCreateKey P request.clientRequestId spendingLimitUsd
        request.publicInputs.solvencyBound lease.ttlSeconds
      let usableExpiresAt := saturatingSub created.expiresAt oaLeaseExpirySafetySeconds
      let now ← call .currentTimestamp
      ensure (now < usableExpiresAt) (.internal "OA org key has no safe usable lifetime")
      return ⟨created.key, created.hash, created.openrouterApiBase, usableExpiresAt,
        some created.verification⟩

/-- Activate a lease; an OpenRouter key that cannot be activated is revoked. -/
def activate (lease : OpenRouterLeaseConfig) (request : ApiRequestV2)
    (keyHash : String) : Handler Unit := do
  match ← call (.activateLease request.clientRequestId keyHash) with
  | .ok () => return ()
  | .error error =>
      match lease.source with
      | .openRouter _ _ =>
          ignoring (deleteKey keyHash)
          throw error
      | .oaOrg _ _ => throw error

/-- Everything `issue_openrouter_lease` checks before it takes the lock. -/
def leaseConfigFor (request : ApiRequestV2) : Except ServerError OpenRouterLeaseConfig :=
  match P.authorizationFromJson request.payload with
  | .error error => .error (.invalidRequest
      ("invalid prompt-free OpenRouter lease authorization: " ++ error))
  | .ok authorization =>
      if authorization ≠ OpenRouterLeaseAuthorization.default then
        .error (.invalidRequest "unsupported OpenRouter lease authorization")
      else
        match config.openrouterLeases with
        | none => .error (.invalidRequest
            "prompt-private OpenRouter leases are not enabled on this server")
        | some lease =>
            if config.policyEnabled then
              .error (.invalidRequest
                "prompt-private leases cannot enforce server-side prompt policy")
            else .ok lease

/-- The lease a request is answered with once its key is active. -/
def issuedLease (lease : OpenRouterLeaseConfig) (request : ApiRequestV2)
    (resumption : Resumption) (key : RuntimeKey) : IssuedOpenRouterLease where
  lease :=
    { status := "active"
      clientRequestId := request.clientRequestId
      apiKey := key.apiKey
      openrouterApiBase := key.openrouterApiBase
      issuedAt := resumption.issuedAt
      expiresAt := key.expiresAt
      validForSeconds := saturatingSub key.expiresAt resumption.issuedAt
      settleAfter := saturatingAdd key.expiresAt lease.settlementGraceSeconds
      spendingLimitUsd := resumption.spendingLimitUsd }
  keySource := lease.source.label
  verification := key.verification

/-- Look for the row of an earlier attempt. -/
def reconcile (lease : OpenRouterLeaseConfig) (request : ApiRequestV2)
    (fresh : Resumption) : Handler Resumption := do
  match ← call (.lookupLease request.clientRequestId) with
  | some existing => resumeExisting P lease request fresh existing
  | none => return fresh

/-- Persist the lease before any key service is asked, unless it already is. -/
def persistLease (lease : OpenRouterLeaseConfig) (request : ApiRequestV2)
    (resumption : Resumption) (requestedExpiresAt : UInt64) : Handler Unit :=
  if resumption.resumeProvisioning then
    return ()
  else do
    let created ← call (.createLease request lease.source.label resumption.issuedAt
      requestedExpiresAt (saturatingAdd requestedExpiresAt lease.settlementGraceSeconds)
      resumption.spendingLimitUsd)
    propagate created

/-- Obtain the key of a persisted lease and activate it. -/
def deliverKey (lease : OpenRouterLeaseConfig) (request : ApiRequestV2)
    (resumption : Resumption) (requestedExpiresAt : UInt64) :
    Handler IssuedOpenRouterLease := do
  let key ← obtainKey P lease request resumption.spendingLimitUsd requestedExpiresAt
  let timed ← call (.updateLeaseTiming request.clientRequestId key.expiresAt
    (saturatingAdd key.expiresAt lease.settlementGraceSeconds))
  propagate timed
  activate lease request key.keyHash
  return issuedLease lease request resumption key

def issueOpenRouterLease (request : ApiRequestV2) : Handler IssuedOpenRouterLease := do
  let lease ← propagate (leaseConfigFor P config request)
  call .lockIssue
  let replayed ← validateAndReserve P config request .openRouterLease
  ensure (replayed = none) .replay
  let spendingLimitUsd := Pricing.creditsToUsd request.publicInputs.solvencyBound
  ensure (spendingLimitUsd.isFinite = true ∧ ¬ spendingLimitUsd ≤ 0.0)
    (.invalidRequest "lease spending limit must be positive")
  let issuedAt ← call .currentTimestamp
  let resumption ← reconcile P lease request ⟨false, issuedAt, spendingLimitUsd⟩
  let now ← call .currentTimestamp
  let requestedExpiresAt := saturatingAdd now lease.ttlSeconds
  persistLease lease request resumption requestedExpiresAt
  deliverKey P lease request resumption requestedExpiresAt

end Issue

section Settlement

variable (P : Protocol) (config : ServerConfig)

/-- A value of a stored settlement payload. -/
def payloadField (record : TranscriptRecord) (key : String) : Option Json :=
  (record.responsePayload.bind P.jsonFromStr).map (·.index key)

/-- The transcript of a lease whose settlement was interrupted after its first
write. -/
def finalizedTranscript (lease : OpenRouterLeaseRecord) :
    Handler (Option TranscriptRecord) := do
  let record ← call (.lookupByNullifier lease.requestNullifier)
  return record.filter fun record => record.status = .finalized

def settlementResponse (payload : String) (charge : Nat) : ProviderResponse where
  statusCode := 200
  payload := payload
  chargeApplied := charge
  policyReasonCode := none
  policyEvidenceHash := none

/-- The payload of an OA settlement.  Building it panics when the usage does
not fit into 64 bits. -/
def oaSettlementPayload (lease : OpenRouterLeaseRecord) (receipt : OaOrgFinalUsage) :
    Option Json :=
  (Json.ofU128 receipt.usageCredits).map fun usageCredits => .object
    [("type", .string "oa_org_ephemeral_lease_settlement"),
      ("issued_at", .integer lease.issuedAt.toNat),
      ("expires_at", .integer lease.expiresAt.toNat),
      ("usage_credits", usageCredits),
      ("usage_usd", Json.ofF64 (Pricing.creditsToUsd receipt.usageCredits)),
      ("usage_receipt_expires_at", .integer receipt.expiresAt.toNat),
      ("usage_receipt_closed_at", .integer receipt.closedAt.toNat),
      ("usage_finalized_at", .integer receipt.finalizedAt.toNat),
      ("station_id", .string receipt.stationId),
      ("station_signature", .string receipt.stationSignature),
      ("org_signature", .string receipt.orgSignature)]

/-- The receipt of the OA org for a closed lease. -/
def oaReceipt (lease : OpenRouterLeaseRecord) : Handler OaOrgFinalUsage := do
  let keyHash ← okOr lease.keyHash (.internal "active OA org lease has no key hash")
  ensure (config.hasOaOrg = true) (.internal "OA org lease provider is unavailable")
  let leaseConfig ← okOr config.openrouterLeases
    (.internal "OA org lease configuration is unavailable")
  ensure (leaseConfig.ttlSeconds ≠ 0 ∧ leaseConfig.ttlSeconds % 60 = 0)
    (.internal "OA org lease duration is not a positive whole number of minutes")
  let usage ← oaGetKeyUsage P lease.clientRequestId keyHash
    { creditLimitUsd := lease.spendingLimitUsd
      durationMinutes := leaseConfig.ttlSeconds / 60
      limitCredits := lease.apiRequest.publicInputs.solvencyBound
      minimumExpiresAt := lease.expiresAt
      maximumExpiresAt := saturatingAdd lease.expiresAt oaLeaseExpirySafetySeconds }
  match usage with
  | .pending retryAfterSeconds => throw (.leaseSettlementPending retryAfterSeconds)
  | .finalized receipt =>
      ensure (lease.issuedAt ≤ receipt.closedAt)
        (.internal "OA org usage receipt predates the issued lease")
      return receipt

def settleOaOrgLease (lease : OpenRouterLeaseRecord) : Handler Unit := do
  match ← finalizedTranscript lease with
  | some record =>
      let usageCredits := ((payloadField P record "usage_credits").bind Json.asU64).getD 0
      let settled ← call (.finalizeLease lease.clientRequestId
        (Pricing.creditsToUsd usageCredits) (record.chargeApplied.getD 0))
      propagate settled
  | none =>
      let receipt ← oaReceipt P config lease
      match oaSettlementPayload lease receipt with
      | none => .fail .panic
      | some payload =>
          let _ ← finalizeRequest P config lease.apiRequest
            (settlementResponse (P.jsonToString payload) receipt.usageCredits)
          let settled ← call (.finalizeLease lease.clientRequestId
            (Pricing.creditsToUsd receipt.usageCredits) receipt.usageCredits)
          propagate settled

def openrouterSettlementPayload (lease : OpenRouterLeaseRecord) (usageUsd : Float) : Json :=
  .object
    [("type", .string "openrouter_ephemeral_lease_settlement"),
      ("issued_at", .integer lease.issuedAt.toNat),
      ("expires_at", .integer lease.expiresAt.toNat),
      ("usage_usd", Json.ofF64 usageUsd)]

/-- The charge for the usage of an OpenRouter key, within the proven bound. -/
def leaseCharge (lease : OpenRouterLeaseRecord) (usageUsd : Float) : Nat :=
  min (Pricing.usdToCredits usageUsd) lease.apiRequest.publicInputs.solvencyBound

/-- Read the usage of a key, bill it, and delete the key last. -/
def settleOpenRouterLease (lease : OpenRouterLeaseRecord) : Handler Unit := do
  match ← finalizedTranscript lease with
  | some record =>
      let usageUsd := ((payloadField P record "usage_usd").bind Json.asF64).getD 0.0
      let settled ← call (.finalizeLease lease.clientRequestId usageUsd
        (record.chargeApplied.getD 0))
      propagate settled
  | none =>
      let keyHash ← okOr lease.keyHash
        (.internal "active OpenRouter lease has no key hash")
      let usageUsd ← getKeyUsage keyHash
      let charge := leaseCharge lease usageUsd
      let _ ← finalizeRequest P config lease.apiRequest
        (settlementResponse (P.jsonToString (openrouterSettlementPayload lease usageUsd))
          charge)
      let settled ← call (.finalizeLease lease.clientRequestId usageUsd charge)
      propagate settled
      ignoring (deleteKey keyHash)

/-- Settle one lease with the service that issued its key. -/
def settleLease (lease : OpenRouterLeaseRecord) : Handler Unit := do
  if lease.keySource = "openrouter" then
    ensure (config.hasOpenRouter = true)
      (.internal "direct OpenRouter settlement credential is unavailable")
    settleOpenRouterLease P config lease
  else if lease.keySource = "oa_org" then
    settleOaOrgLease P config lease
  else
    throw (.internal ("unsupported lease key source " ++ lease.keySource))

/-- One round of the settlement scan: an error is recorded for the next scan,
a panic ends the scan. -/
def settleOrRecord (lease : OpenRouterLeaseRecord) : Handler Unit := do
  match ← (settleLease P config lease).attempt with
  | .ok () => return ()
  | .error (.error cause) =>
      let _ ← call (.recordLeaseError lease.clientRequestId cause.display)
      return ()
  | .error .panic => .fail .panic

def settleDueOpenRouterLeases : Handler Unit := do
  call .lockSettlement
  let now ← call .currentTimestamp
  let due ← call (.dueLeases now)
  Program.forEach due (settleOrRecord P config)

def leaseStatusOf (lease : OpenRouterLeaseRecord) : OpenRouterLeaseStatusResponse where
  status := lease.status
  clientRequestId := lease.clientRequestId
  issuedAt := lease.issuedAt
  expiresAt := lease.expiresAt
  settleAfter := lease.settleAfter
  spendingLimitUsd := lease.spendingLimitUsd
  usageUsd := lease.usageUsd
  chargeApplied := lease.chargeApplied
  lastError := lease.lastError

def openrouterLeaseStatus (clientRequestId : String) :
    Handler (Option OpenRouterLeaseStatusResponse) := do
  let lease ← call (.lookupLease clientRequestId)
  return lease.map leaseStatusOf

/-- The settlement of a lease that its holder retires early. -/
def settleUnlessFinalized (lease : OpenRouterLeaseRecord) : Handler Unit :=
  if lease.status = "finalized" then
    return ()
  else do
    ensure (lease.status = "active") .leasePending
    settleLease P config lease

def retireOpenRouterLease (clientRequestId : String) (request : ApiRequestV2) :
    Handler OpenRouterLeaseStatusResponse := do
  call .lockSettlement
  let lease ← okOr (← call (.lookupLease clientRequestId))
    (.invalidRequest "unknown OpenRouter lease")
  let requestMatches ← propagate
    ((P.requestValuesEqual request lease.apiRequest).mapError fun error =>
      .internal ("failed to compare lease retirement proof: " ++ error))
  ensure (request.clientRequestId = clientRequestId ∧ requestMatches = true)
    (.invalidRequest "lease retirement proof does not match the issued lease")
  settleUnlessFinalized P config lease
  let status ← openrouterLeaseStatus clientRequestId
  okOr status (.internal "retired lease disappeared")

end Settlement

end ZkApi
