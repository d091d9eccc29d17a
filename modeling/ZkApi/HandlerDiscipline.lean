import ZkApi.ServerMachine

/-!
# The discipline of the handlers

What a handler may do after what it has seen itself.  A reservation follows
every check, a provider is called only for an admitted request, a transcript is
written only for a charge within its cap, and lease rows are touched only by
the handler that holds the lock and knows the row.
-/

namespace ZkApi

open Interleaving Handler

/-- The request a call submits, and the kind of its reservation. -/
def Call.Submits : Call → ApiRequestV2 → ReservationKind → Prop
  | .processRequest submitted, request, .proxy => submitted = request
  | .issueOpenRouterLease submitted, request, .openRouterLease => submitted = request
  | _, _, _ => False

section Evidence

variable (P : Protocol)

/-- A request passes every check of `validate_and_reserve` against this root
and clock. -/
structure Checked (config : ServerConfig) (request : ApiRequestV2) (root : Felt252)
    (now : UInt64) : Prop where
  payload : P.canonicalPayloadHash request.payload = request.payloadHash
  deployment : DeploymentMatches config request.publicInputs
  root : request.publicInputs.activeRoot = root
  signingKey : request.publicInputs.stateSigningKeyX = (stateSigningKey P config).x ∧
    request.publicInputs.stateSigningKeyY = (stateSigningKey P config).y
  fresh : FreshAt now request.publicInputs
  solvent : config.requiredSolvency ≤ request.publicInputs.solvencyBound
  tag : TagBinds P request
  proof : P.verify config.proofSetupDir request.publicInputs request.proof = .ok true

/-- The task has reserved the request, or has found it reserved. -/
def Admitted (request : ApiRequestV2) (kind : ReservationKind)
    (history : History Resp) : Prop :=
  Saw history (.reserve request kind) (.ok ()) ∨
    ∃ record, Saw history (.lookupByNullifier request.nullifier) (some record) ∧
      SameRequest P request kind record ∧ record.status = .reserved

/-- The task has found the request finalized, with this response. -/
def Replayed (request : ApiRequestV2) (kind : ReservationKind)
    (history : History Resp) (response : RequestResponseV2) : Prop :=
  ∃ record, Saw history (.lookupByNullifier request.nullifier) (some record) ∧
    SameRequest P request kind record ∧ record.status = .finalized ∧
    responseFromRecord record request.clientRequestId = .ok response

/-- A lease that the task has found active. -/
def SawActive (history : History Resp) (lease : OpenRouterLeaseRecord) : Prop :=
  (∃ clientRequestId, Saw history (.lookupLease clientRequestId) (some lease) ∧
    lease.status = "active") ∨
  ∃ now leases, Saw history (.dueLeases now) leases ∧ lease ∈ leases

/-- What a settlement bills for a lease, and the usage it records. -/
inductive Billed (history : History Resp) (lease : OpenRouterLeaseRecord) :
    ProviderResponse → Float → Prop
  | openrouter {hash : String} {status : HttpStatus} {retryAfter : Option UInt64}
      {text : String} {data : KeyData} (source : lease.keySource = "openrouter")
      (key : lease.keyHash = some hash)
      (read : Saw history (.openrouterUsage hash)
        (.received status retryAfter text (.ok data)))
      (success : status.isSuccess = true) :
      Billed history lease
        (settlementResponse
          (P.jsonToString (openrouterSettlementPayload lease data.usageUsd))
          (leaseCharge lease data.usageUsd))
        data.usageUsd
  | oaOrg {receipt : OaOrgFinalUsage} {payload : JsonText.Json}
      (source : lease.keySource = "oa_org")
      (bounded : receipt.usageCredits ≤ lease.apiRequest.publicInputs.solvencyBound)
      (built : oaSettlementPayload lease receipt = some payload) :
      Billed history lease
        (settlementResponse (P.jsonToString payload) receipt.usageCredits)
        (Pricing.creditsToUsd receipt.usageCredits)

section Monotone

variable {P} {history later : History Resp}

theorem Admitted.mono {request : ApiRequestV2} {kind : ReservationKind}
    (admitted : Admitted P request kind history) (grows : history <:+ later) :
    Admitted P request kind later := by
  rcases admitted with reserved | ⟨record, found, same, status⟩
  · exact Or.inl (reserved.mono grows)
  · exact Or.inr ⟨record, found.mono grows, same, status⟩

theorem SawActive.mono {lease : OpenRouterLeaseRecord} (active : SawActive history lease)
    (grows : history <:+ later) : SawActive later lease := by
  rcases active with ⟨clientRequestId, found, status⟩ | ⟨now, leases, found, member⟩
  · exact Or.inl ⟨clientRequestId, found.mono grows, status⟩
  · exact Or.inr ⟨now, leases, found.mono grows, member⟩

theorem Billed.mono {lease : OpenRouterLeaseRecord} {response : ProviderResponse}
    {usageUsd : Float} (billed : Billed P history lease response usageUsd)
    (grows : history <:+ later) : Billed P later lease response usageUsd := by
  cases billed with
  | openrouter source key read success =>
      exact .openrouter source key (read.mono grows) success
  | oaOrg source bounded built => exact .oaOrg source bounded built

end Monotone

/-- Why a transcript with this response may be written for a request. -/
inductive Cause (call : Call) (history : History Resp) :
    ApiRequestV2 → ProviderResponse → Prop
  | executed {request : ApiRequestV2} {response : ProviderResponse}
      (submitted : call = .processRequest request)
      (admitted : Admitted P request .proxy history)
      (executed : Saw history
        (.execute request.clientRequestId request.payload request.payloadHash)
        (.ok response)) :
      Cause call history request response
  | settled {lease : OpenRouterLeaseRecord} {response : ProviderResponse}
      {usageUsd : Float} (active : SawActive history lease)
      (billed : Billed P history lease response usageUsd) :
      Cause call history lease.apiRequest response

theorem Cause.mono {P : Protocol} {call : Call} {history later : History Resp}
    {request : ApiRequestV2} {response : ProviderResponse}
    (cause : Cause P call history request response) (grows : history <:+ later) :
    Cause P call later request response := by
  cases cause with
  | executed submitted admitted executed =>
      exact .executed submitted (admitted.mono grows) (executed.mono grows)
  | settled active billed => exact .settled (active.mono grows) (billed.mono grows)

/-- The transcript of a request with a response whose charge is within the cap
that the stored reservation has under this configuration. -/
def Transcribes (config : ServerConfig) (history : History Resp)
    (request : ApiRequestV2) (response : ProviderResponse)
    (transcript : TranscriptRecord) : Prop :=
  ∃ record next proofBytes createdAt finalizedAt,
    Saw history (.lookupByNullifier request.nullifier) (some record) ∧
    response.chargeApplied ≤ chargeCap config record.reservationKind request response ∧
    transcript = transcriptOf P request record.reservationKind response next proofBytes
      createdAt finalizedAt

/-- The usage and charge with which a lease may be closed: those of the
transcript the task has just written, or those of the transcript it found. -/
inductive Closes (history : History Resp) (lease : OpenRouterLeaseRecord) :
    Float → Nat → Prop
  | settled {response : ProviderResponse} {usageUsd : Float}
      {transcript : TranscriptRecord} (billed : Billed P history lease response usageUsd)
      (charge : transcript.chargeApplied = some response.chargeApplied)
      (payload : transcript.responsePayload = some response.payload)
      (written : Saw history (.finalize lease.apiRequest.nullifier transcript) (.ok ())) :
      Closes history lease usageUsd response.chargeApplied
  | recovered {record : TranscriptRecord} {usageUsd : Float}
      (found : Saw history (.lookupByNullifier lease.requestNullifier) (some record))
      (finalized : record.status = .finalized)
      (usage : lease.keySource = "oa_org" → usageUsd = Pricing.creditsToUsd
        (((payloadField P record "usage_credits").bind JsonText.Json.asU64).getD 0)) :
      Closes history lease usageUsd (record.chargeApplied.getD 0)

theorem Closes.mono {P : Protocol} {history later : History Resp}
    {lease : OpenRouterLeaseRecord} {usageUsd : Float} {charge : Nat}
    (closes : Closes P history lease usageUsd charge) (grows : history <:+ later) :
    Closes P later lease usageUsd charge := by
  cases closes with
  | settled billed charged payload written =>
      exact .settled (billed.mono grows) charged payload (written.mono grows)
  | recovered found finalized usage => exact .recovered (found.mono grows) finalized usage

/-- The task knows that the lease row of its request is being provisioned: since
it took the lock it has created the row, or has found it and not removed it. -/
def KnowsProvisioning (request : ApiRequestV2) : History Resp → Prop
  | [] => False
  | ⟨.createLease created _ _ _ _ _, .ok ()⟩ :: earlier =>
      created = request ∨ KnowsProvisioning request earlier
  | ⟨.lookupLease clientRequestId, some existing⟩ :: earlier =>
      clientRequestId = request.clientRequestId ∧
        existing.requestNullifier = request.nullifier ∧
        existing.status = "provisioning" ∧ existing.keyHash = none ∨
      KnowsProvisioning request earlier
  | ⟨.removeFailedLease _, _⟩ :: _ => False
  | ⟨.activateLease _ _, _⟩ :: _ => False
  | ⟨.lockIssue, _⟩ :: _ => False
  | _ :: earlier => KnowsProvisioning request earlier

/-- What an issuing task has established when it creates its lease row. -/
structure Provisions (config : ServerConfig) (request : ApiRequestV2)
    (keySource : String) (spendingLimitUsd : Float) (history : History Resp) : Prop where
  locked : Saw history .lockIssue ()
  admitted : Admitted P request .openRouterLease history
  payload : P.canonicalPayloadHash request.payload = request.payloadHash
  deployment : DeploymentMatches config request.publicInputs
  source : ∃ lease, leaseConfigFor P config request = .ok lease ∧
    keySource = lease.source.label
  limit : spendingLimitUsd = Pricing.creditsToUsd request.publicInputs.solvencyBound
  positive : spendingLimitUsd.isFinite = true ∧ ¬ spendingLimitUsd ≤ 0.0

/-- The state of an issuing task between creating its lease row and
activating it. -/
structure Issuing (request : ApiRequestV2) (history : History Resp) : Prop where
  locked : Saw history .lockIssue ()
  admitted : Admitted P request .openRouterLease history
  knows : KnowsProvisioning request history

/-- A key service has delivered this key with this hash to the task. -/
def KeyDelivered (history : History Resp) (apiKey keyHash : String) : Prop :=
  (∃ name limitUsd expiresAt status retryAfter text envelope,
    Saw history (.openrouterCreate name limitUsd expiresAt)
      (.received status retryAfter text (.ok envelope)) ∧
    envelope.key = apiKey ∧ envelope.data.hash = keyHash) ∨
  ∃ clientRequestId limitUsd limitCredits durationMinutes status retryAfter text response,
    Saw history (.oaRequestKey clientRequestId limitUsd limitCredits durationMinutes)
      (.received status retryAfter text (.ok response)) ∧
    response.key = apiKey ∧ response.keyHash = keyHash

end Evidence

section Rules

variable (P : Protocol) (config : ServerConfig) (call : Call) (history : History Resp)

/-- The operations a task may perform next. -/
def Allowed : Op → Prop
  | .reserve request kind => call.Submits request kind ∧
      ∃ root now, Saw history .currentRoot root ∧ Saw history .currentTimestamp now ∧
        Checked P config request root now
  | .finalize nullifier transcript => ∃ request response,
      nullifier = request.nullifier ∧ Cause P call history request response ∧
        Transcribes P config history request response transcript
  | .reserveClearance nullifier => call = .processClearance ⟨nullifier⟩
  | .createLease request keySource _ _ _ spendingLimitUsd =>
      call = .issueOpenRouterLease request ∧
        Provisions P config request keySource spendingLimitUsd history
  | .updateLeaseTiming clientRequestId _ _ => ∃ request,
      call = .issueOpenRouterLease request ∧
        clientRequestId = request.clientRequestId ∧ Issuing P request history
  | .activateLease clientRequestId _ => ∃ request expiresAt settleAfter earlier,
      call = .issueOpenRouterLease request ∧
        clientRequestId = request.clientRequestId ∧ Issuing P request history ∧
        history = ⟨.updateLeaseTiming clientRequestId expiresAt settleAfter, .ok ()⟩ :: earlier
  | .removeFailedLease clientRequestId => ∃ request,
      call = .issueOpenRouterLease request ∧
        clientRequestId = request.clientRequestId ∧ Issuing P request history
  | .finalizeLease clientRequestId usageUsd charge => ∃ lease,
      SawActive history lease ∧ lease.clientRequestId = clientRequestId ∧
        Closes P history lease usageUsd charge
  | .execute clientRequestId payload payloadHash => ∃ request,
      call = .processRequest request ∧ clientRequestId = request.clientRequestId ∧
        payload = request.payload ∧ payloadHash = request.payloadHash ∧
        Admitted P request .proxy history
  | .openrouterCreate name _ _ => ∃ request, call = .issueOpenRouterLease request ∧
      name = keyName request ∧ Admitted P request .openRouterLease history
  | .oaRequestKey clientRequestId _ _ _ => ∃ request,
      call = .issueOpenRouterLease request ∧
        clientRequestId = request.clientRequestId ∧
        Admitted P request .openRouterLease history
  | _ => True

/-- Why `validate_and_reserve` fails. -/
def Rejected (request : ApiRequestV2) (kind : ReservationKind) (failure : Failure) : Prop :=
  ∃ cause, failure = .error cause ∧
    (P.canonicalPayloadHash request.payload ≠ request.payloadHash ∨
      (∃ message, cause = .protocolMismatch message) ∨
      (∃ message, cause = .internal message) ∨
      Saw history (.lookupByNullifier request.nullifier) none ∨
      ∃ record, Saw history (.lookupByNullifier request.nullifier) (some record) ∧
        (SameRequest P request kind record → record.status = .clearanceReserved))

/-- Why `finalize_request` fails. -/
def Unfinalized (request : ApiRequestV2) (charge : Nat) (failure : Failure) : Prop :=
  ∃ cause, failure = .error cause ∧
    ((∃ message, cause = .internal message) ∨
      (∃ message blindDelta, cause = .invalidProof message ∧
        P.serverUpdate ⟨request.publicInputs.anonymousCommitmentX,
          request.publicInputs.anonymousCommitmentY⟩ charge blindDelta = .error message) ∨
      (∃ message, cause = .invalidProof message ∧
        P.base64Decode request.proof.proof = .error message) ∨
      ∃ transcript, Saw history (.finalize request.nullifier transcript) (.error cause))

/-- The task has written the transcript that its response is taken from. -/
def Finalized (request : ApiRequestV2) (provided : ProviderResponse)
    (response : RequestResponseV2) : Prop :=
  ∃ record next proofBytes createdAt finalizedAt,
    response = responseOf P request provided next ∧
    provided.chargeApplied ≤ chargeCap config record.reservationKind request provided ∧
    Saw history (.lookupByNullifier request.nullifier) (some record) ∧
    Saw history (.finalize request.nullifier (transcriptOf P request
      record.reservationKind provided next proofBytes createdAt finalizedAt)) (.ok ())

/-- How a task may return. -/
def Returns : (call : Call) → Except Failure (Result call) → Prop
  | .processRequest request, .ok response =>
      Replayed P request .proxy history response ∨
        Admitted P request .proxy history ∧
          ∃ provided, Finalized P config history request provided response
  | .processRequest request, .error failure =>
      Rejected P history request .proxy failure ∨
        (∃ cause, failure = .error cause ∧ Saw history
          (.execute request.clientRequestId request.payload request.payloadHash)
          (.error cause)) ∨
        ∃ charge, Unfinalized P history request charge failure
  | .issueOpenRouterLease request, .ok issued => ∃ keyHash earlier,
      KeyDelivered history issued.lease.apiKey keyHash ∧
        Admitted P request .openRouterLease history ∧
        history = ⟨.activateLease request.clientRequestId keyHash, .ok ()⟩ ::
          ⟨.updateLeaseTiming request.clientRequestId issued.lease.expiresAt
            issued.lease.settleAfter, .ok ()⟩ :: earlier
  | .processClearance request, .ok _ =>
      Saw history (.reserveClearance request.withdrawalNullifier) (.ok ()) ∨
        ∃ record, Saw history (.lookupByNullifier request.withdrawalNullifier)
          (some record) ∧ record.status = .clearanceReserved
  | .recoverByClientId clientRequestId, .ok response => ∃ record,
      Saw history (.lookupByClientId clientRequestId) record ∧
        response = (record.map recoveryFromRecord).getD notFoundRecovery
  | .recoverByNullifier nullifier, .ok response => ∃ record,
      Saw history (.lookupByNullifier nullifier) record ∧
        response = (record.map recoveryFromRecord).getD notFoundRecovery
  | _, _ => True

end Rules

end ZkApi
