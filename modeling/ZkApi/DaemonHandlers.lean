import ZkApi.WalletFiles

/-!
# Handlers of the client daemon

What the routes of the daemon do, step by step.  A step is one critical section
of a lock, one wallet operation under the wallet lock, or one exchange with the
outside; between any two steps other requests run.
-/

namespace ZkApi.Clientd

open Interleaving MachineIntegers

/-- What a call that runs requests through the wallet has sent, and its result. -/
structure FlowReply where
  sent : List Felt252
  result : Except AuthError CoreResponse
deriving DecidableEq

/-- The result of a withdrawal proof, with the nullifier for which the server has
reserved a clearance on the way. -/
structure WithdrawReply where
  reserved : Option Felt252
  result : Except AuthError WithdrawalPlan
deriving DecidableEq

/-- A confirmed deposit, with the note that was active before. -/
structure DepositReply where
  before : Option NoteState
  result : Except AuthError WalletStatus
deriving DecidableEq

/-- The result of a reset, with the files that it found and those that it left. -/
structure ResetReply where
  outcome : Option ResetOutcome
  before : StateDir
  after : StateDir
  result : Except AuthError WalletStatus
deriving DecidableEq

/-- The reply to a plain read of the protocol server. -/
inductive GetReply (α : Type) where
  | unreachable (message : String)
  | success (value : α)
  | malformed (message : String)
  | failed (status : UInt16) (message : String)
deriving DecidableEq

inductive Op where
  | readPrepared
  | lockPrepared
  | setPrepared (plan : Option WithdrawalPlan)
  | unlockPrepared
  | clearPrepared
  | persistPrepared (plan : WithdrawalPlan)
  | removePrepared
  | readSlot
  | lockSlot
  | setSlot (lease : Option ActiveOpenRouterLease)
  | unlockSlot
  | takeSlot
  | clearSlot
  | dropSlot (clientRequestId : String)
  | readRequest
  | writeRequest
  | tryWriteRequest
  | releaseRequest
  | status
  | retireLowBalanceNote
  | confirmDeposit (request : ConfirmDepositRequest)
  | recover
  | resetFiles
  | requestFlow (request : CoreRequest)
  | prepareLease
  | clearPendingRequest
  | withdraw (mode : WithdrawalMode) (destination : Address)
  | ensureSchemeAgreement
  | postLease (request : ApiRequestV2)
  | leaseStatus (clientRequestId : String)
  | requestRecovery (clientRequestId : String)
  | nullifierRecovery (nullifier : Felt252)
  | retireLease (clientRequestId : String) (request : ApiRequestV2)
  | submitKey (url apiKey : String) (evidence : OaKeyVerificationEvidence)
  | postPrompt (url apiKey body : String)
  | readBody
  | now
  | withinDeadline
  | vaultNotes (noteId : UInt32)
  | vaultPending (noteId : UInt32)
  | submitWithdrawal (plan : WithdrawalPlan) (dryRun : Bool)
  | finalizeEscape (noteId : UInt32) (dryRun : Bool)
  | readNoteStatus (noteId : UInt32)
  | awaitNoteStatus (noteId : UInt32) (expected : UInt64)
deriving DecidableEq

@[reducible]
def Resp : Op → Type
  | .readPrepared => Option WithdrawalPlan
  | .lockPrepared => Option WithdrawalPlan
  | .setPrepared _ => Unit
  | .unlockPrepared => Unit
  | .clearPrepared => Option WithdrawalPlan
  | .persistPrepared _ => Except AuthError Unit
  | .removePrepared => Except AuthError Unit
  | .readSlot => Option ActiveOpenRouterLease
  | .lockSlot => Option ActiveOpenRouterLease
  | .setSlot _ => Unit
  | .unlockSlot => Unit
  | .takeSlot => Option ActiveOpenRouterLease
  | .clearSlot => Unit
  | .dropSlot _ => Unit
  | .readRequest => Unit
  | .writeRequest => Unit
  | .tryWriteRequest => Bool
  | .releaseRequest => Unit
  | .status => Except AuthError WalletStatus
  | .retireLowBalanceNote => Except AuthError (Option RetiredNote)
  | .confirmDeposit _ => DepositReply
  | .recover => Except AuthError RecoverResult
  | .resetFiles => ResetReply
  | .requestFlow _ => FlowReply
  | .prepareLease => Except AuthError ApiRequestV2
  | .clearPendingRequest => Except AuthError Unit
  | .withdraw _ _ => WithdrawReply
  | .ensureSchemeAgreement => Except AuthError Unit
  | .postLease _ => Reply IssuedOpenRouterLease
  | .leaseStatus _ => GetReply OpenRouterLeaseStatusResponse
  | .requestRecovery _ => GetReply RecoveryResponseV2
  | .nullifierRecovery _ => GetReply RecoveryResponseV2
  | .retireLease _ _ => Reply OpenRouterLeaseStatusResponse
  | .submitKey _ _ _ => VerifierReply
  | .postPrompt _ _ _ => UpstreamReply
  | .readBody => Except String String
  | .now => UInt64
  | .withinDeadline => Bool
  | .vaultNotes _ => Except AuthError UInt64
  | .vaultPending _ => Except AuthError UInt64
  | .submitWithdrawal _ _ => Except AuthError Unit
  | .finalizeEscape _ _ => Except AuthError Unit
  | .readNoteStatus _ => Except AuthError UInt64
  | .awaitNoteStatus _ _ => Except AuthError Unit

abbrev Handler (α : Type) := Program Op Resp AuthError α

abbrev call (op : Op) : Handler (Resp op) :=
  Program.call op

section Remote

def getOk {α : Type} : GetReply α → Handler α
  | .unreachable message => .fail (.wallet message)
  | .success value => return value
  | .malformed message => .fail (.serialization message)
  | .failed _ message => .fail (.wallet message)

def fetchDirectLeaseStatus (clientRequestId : String) :
    Handler OpenRouterLeaseStatusResponse := do
  getOk (← call (.leaseStatus clientRequestId))

/-- A lease that the server does not know is no error. -/
def fetchOptionalDirectLeaseStatus (clientRequestId : String) :
    Handler (Option OpenRouterLeaseStatusResponse) := do
  match ← call (.leaseStatus clientRequestId) with
  | .failed 404 _ => return none
  | reply => do
      let lease ← getOk reply
      return some lease

def fetchRequestRecovery (clientRequestId : String) : Handler RecoveryResponseV2 := do
  getOk (← call (.requestRecovery clientRequestId))

def fetchNullifierRecovery (nullifier : Felt252) : Handler RecoveryResponseV2 := do
  getOk (← call (.nullifierRecovery nullifier))

/-- The remaining time of the key outlasts the delay. -/
def retryFitsLease (now expiresAt delaySeconds : UInt64) : Bool :=
  saturatingAdd (saturatingAdd now delaySeconds) 1 < expiresAt

/-- The delay before the next attempt: that of the server, or a backoff of at
most half a second. -/
def directRemoteRetryDelay (retryAfter : Option UInt64) : UInt64 :=
  retryAfter.getD 1

end Remote

section Wallet

def status : Handler WalletStatus := do
  Program.lift (← call .status)

def retireLowBalanceNote : Handler (Option RetiredNote) := do
  Program.lift (← call .retireLowBalanceNote)

def confirmDeposit (request : ConfirmDepositRequest) : Handler WalletStatus := do
  let reply ← call (.confirmDeposit request)
  Program.lift reply.result

def recover : Handler RecoverResult := do
  Program.lift (← call .recover)

def resetWallet : Handler WalletStatus := do
  let reply ← call .resetFiles
  let status ← Program.lift reply.result
  let _ ← call .clearPrepared
  call .clearSlot
  return status

def prepareDirectLeaseRequest : Handler ApiRequestV2 := do
  Program.lift (← call .prepareLease)

def clearPendingRequest : Handler Unit := do
  Program.lift (← call .clearPendingRequest)

def executeRequestDemo (request : CoreRequest) : Handler CoreResponse := do
  Program.lift (← call .ensureSchemeAgreement)
  let reply ← call (.requestFlow request)
  Program.lift reply.result

end Wallet

section Retirement

/-- One post of a retirement; `again` goes on after a retriable refusal while
the time allows it. -/
def retireOnce (clientRequestId : String) (request : ApiRequestV2)
    (again : Option (Handler OpenRouterLeaseStatusResponse)) :
    Handler OpenRouterLeaseStatusResponse := do
  let refuse (error : ErrorResponse) : Handler OpenRouterLeaseStatusResponse :=
    if error.errorCode = "lease_pending" then
      .fail (.leasePending s!"lease {clientRequestId} usage is not finalized yet")
    else .fail (.wallet s!"{error.errorCode}: {error.errorMessage}")
  match ← call (.retireLease clientRequestId request) with
  | .unreachable message => .fail (.wallet message)
  | .success status => return status
  | .malformed message => .fail (.serialization message)
  | .failed status body => .fail (.wallet s!"HTTP {status}: {body}")
  | .refused error =>
      if error.retriable then do
        let intime ← call .withinDeadline
        match intime, again with
        | true, some again => again
        | _, _ => refuse error
      else refuse error

/-- The retirement loop; the deadline leaves time for this many delays. -/
def retireRounds (clientRequestId : String) (request : ApiRequestV2) :
    Nat → Handler OpenRouterLeaseStatusResponse
  | 0 => retireOnce clientRequestId request none
  | rounds + 1 =>
      retireOnce clientRequestId request (some (retireRounds clientRequestId request rounds))

def directLeaseRetireDelays : Nat := 22

def retireDirectOpenrouterLease (clientRequestId : String) : Handler Unit := do
  let request ← prepareDirectLeaseRequest
  if request.clientRequestId ≠ clientRequestId then
    .fail (.leasePending "pending proof does not match the rejected OpenRouter lease")
  else
    let status ← retireRounds clientRequestId request directLeaseRetireDelays
    if status.status ≠ "finalized" then
      .fail (.leasePending
        s!"lease {status.clientRequestId} was not finalized during retirement")
    else
      let recovered ← recover
      Program.require (recovered.recovered = true) (.leasePending
        s!"lease {clientRequestId} retired but its wallet update is not recoverable")

end Retirement

section Issuance

/-- The lease that the daemon makes of an issued one, if it can use it. -/
def acceptLease (config : AuthConfig) (sessionId : String) (now : UInt64)
    (issued : IssuedOpenRouterLease) : Except AuthError ActiveOpenRouterLease :=
  let lease := issued.lease
  let accept (verification : Option OaKeyVerificationEvidence) (verified : Bool) :
      ActiveOpenRouterLease :=
    { sessionId := sessionId
      clientRequestId := lease.clientRequestId
      apiKey := lease.apiKey
      openrouterApiBase := lease.openrouterApiBase
      expiresAt := lease.expiresAt
      settleAfter := lease.settleAfter
      verification := verification
      verified := verified
      requestsServed := 0 }
  if lease.apiKey.isEmpty || lease.expiresAt ≤ now then
    .error (.wallet "server returned an unusable OpenRouter lease")
  else if matchesTrustedUrl lease.openrouterApiBase config.openrouterInferenceBase = false then
    .error (.keyVerification
      "lease inference origin does not match the client's trusted OpenRouter origin")
  else if issued.keySource = "openrouter" then do
    enforceRequiredKeySource config.requireOaOrgKeySource "openrouter"
    if issued.verification.isSome then
      .error (.keyVerification "direct OpenRouter lease included unexpected OA evidence")
    else return accept none true
  else if issued.keySource = "oa_org" then
    match issued.verification with
    | none => .error (.keyVerification "OA org lease omitted verification evidence")
    | some evidence => return accept (some evidence) false
  else .error (.keyVerification s!"server returned unsupported key source {issued.keySource}")

/-- One round of the issuance loop; `onStale` and `onLost` go on after a stale
root and after a lease whose key was lost, if they may still do so. -/
def issueRound (config : AuthConfig) (sessionId : String)
    (onStale onLost : Option (Handler ActiveOpenRouterLease)) :
    Handler ActiveOpenRouterLease := do
  let request ← prepareDirectLeaseRequest
  match ← call (.postLease request) with
  | .unreachable message => .fail (.wallet message)
  | .malformed message => .fail (.serialization message)
  | .failed status body => .fail (.wallet s!"HTTP {status}: {body}")
  | .success issued => do
      let now ← call .now
      Program.lift (acceptLease config sessionId now issued)
  | .refused error =>
      let refuse : Handler ActiveOpenRouterLease :=
        .fail (.wallet s!"{error.errorCode}: {error.errorMessage}")
      if error.errorCode = "stale_root" then
        match onStale with
        | some again => do
            clearPendingRequest
            again
        | none => refuse
      else if error.errorCode = "lease_pending" then do
        let lease ← fetchDirectLeaseStatus request.clientRequestId
        match onLost with
        | none => .fail (.leasePending
            s!"lease {lease.clientRequestId} is still {lease.status} after local recovery")
        | some again =>
            if lease.status = "active" then do
              retireDirectOpenrouterLease lease.clientRequestId
              again
            else if lease.status = "finalized" then do
              let recovered ← recover
              if !recovered.recovered && recovered.wallet.pendingRequest then
                .fail (.leasePending
                  s!"finalized lease {lease.clientRequestId} is not yet recoverable")
              else again
            else .fail (.leasePending (s!"lease {lease.clientRequestId} is {lease.status}; " ++
              s!"key expiry {lease.expiresAt}, settlement after {lease.settleAfter}"))
      else refuse

/-- Each of the two branches that go on is taken once at most. -/
def issueDirectOpenrouterLease (config : AuthConfig) (sessionId : String) :
    Handler ActiveOpenRouterLease :=
  let last := issueRound config sessionId none none
  let afterStale := issueRound config sessionId none (some last)
  let afterLost := issueRound config sessionId (some last) none
  issueRound config sessionId (some afterStale) (some afterLost)

/-- Put a new lease into the empty slot. -/
def replaceLease (config : AuthConfig) (sessionId : String) : Handler ActiveOpenRouterLease := do
  let _ ← recover
  let lease ← issueDirectOpenrouterLease config sessionId
  call (.setSlot (some lease))
  return lease

/-- The lease of the slot, or a new one in its place; the caller holds the lock
of the slot and has read it. -/
def ensureDirectOpenrouterLease (config : AuthConfig) (slot : Option ActiveOpenRouterLease)
    (sessionId : String) : Handler ActiveOpenRouterLease := do
  match slot with
  | none => replaceLease config sessionId
  | some lease => do
      let now ← call .now
      if saturatingAdd now 1 < lease.expiresAt then
        if lease.sessionId = sessionId then return lease
        else .fail (.leaseSessionConflict lease.sessionId lease.expiresAt)
      else
        call (.setSlot none)
        retireDirectOpenrouterLease lease.clientRequestId
        replaceLease config sessionId

end Issuance

section Verification

def keyUnverified (status : UInt16) (detail : Option String) : AuthError :=
  .keyVerification (s!"trusted verifier rejected the station key (HTTP {status}: " ++
    detail.getD "station key was not verified" ++ ")")

/-- Go on after a delay if the key outlasts it, and fail otherwise. -/
def retryWithin {α : Type} (expiresAt : UInt64) (retryAfter : Option UInt64) (error : AuthError)
    (again : Option (Handler α)) : Handler α := do
  match again with
  | none => .fail error
  | some again => do
      let now ← call .now
      if retryFitsLease now expiresAt (directRemoteRetryDelay retryAfter) then again
      else .fail error

def submitOnce (url apiKey : String) (expiresAt : UInt64) (evidence : OaKeyVerificationEvidence)
    (again : Option (Handler Unit)) : Handler Unit := do
  match ← call (.submitKey url apiKey evidence) with
  | .unreachable message =>
      retryWithin expiresAt none (.keyVerification s!"verifier request failed: {message}") again
  | .unreadable message => .fail (.keyVerification s!"invalid verifier response: {message}")
  | .invalid status retryAfter message =>
      let error := .keyVerification s!"invalid verifier response: {message}"
      if isTransientRemoteStatus status then retryWithin expiresAt retryAfter error again
      else .fail error
  | .json status retryAfter verdict retryable detail =>
      if 200 ≤ status && status < 300 && verdict == some "verified" then return ()
      else if retryable.getD false || isTransientRemoteStatus status then
        retryWithin expiresAt retryAfter (keyUnverified status detail) again
      else .fail (keyUnverified status detail)

/-- Where keys are submitted for verification. -/
def submitKeyUrl (config : AuthConfig) : String :=
  trimEndSlashes config.oaVerifierUrl ++ "/submit_key"

/-- Three attempts, each going on with the next one. -/
def threeAttempts {α : Type} (attempt : Option (Handler α) → Handler α) : Handler α :=
  attempt (some (attempt (some (attempt none))))

def verifyOaKey (config : AuthConfig) (apiKey : String) (expiresAt : UInt64)
    (evidence : OaKeyVerificationEvidence) : Handler Unit := do
  Program.require (matchesTrustedUrl evidence.verifierUrl config.oaVerifierUrl = true)
    (.keyVerification "lease verifier does not match the client's trusted OA verifier")
  Program.lift (validateOaKeyEvidence expiresAt evidence)
  threeAttempts (submitOnce (submitKeyUrl config) apiKey expiresAt evidence)

/-- The lease with its key verified. -/
def verifyLease (config : AuthConfig) (lease : ActiveOpenRouterLease) :
    Handler ActiveOpenRouterLease := do
  match lease.verification with
  | none => .fail (.keyVerification "OA lease lost its verification evidence")
  | some evidence => do
      verifyOaKey config lease.apiKey lease.expiresAt evidence
      let now ← call .now
      if lease.expiresAt ≤ saturatingAdd now 1 then
        .fail (.keyVerification "OA key expired while verification was in progress")
      else return { lease with verified := true }

end Verification

section Inference

variable (W : WalletFunctions) (config : AuthConfig)

def postOnce (url apiKey body : String) (expiresAt : UInt64)
    (again : Option (Handler UInt16)) : Handler UInt16 := do
  match ← call (.postPrompt url apiKey body) with
  | .unreachable message => retryWithin expiresAt none (.upstream message) again
  | .success status => return status
  | .unreadable message => .fail (.upstream message)
  | .failure status retryAfter body =>
      let error := .upstreamResponse status (truncateForError body 500)
      if isTransientRemoteStatus status then retryWithin expiresAt retryAfter error again
      else .fail error

def sendOpenrouterRequest (url apiKey body : String) (expiresAt : UInt64) : Handler UInt16 :=
  threeAttempts (postOnce url apiKey body expiresAt)

def sendVerifiedOpenrouterRequest (lease : ActiveOpenRouterLease) (path body : String) :
    Handler UInt16 := do
  let lease ← if lease.verified then pure lease else verifyLease config lease
  sendOpenrouterRequest (trimEndSlashes lease.openrouterApiBase ++ path) lease.apiKey body
    lease.expiresAt

/-- The path and body that a request has at the inference endpoint. -/
def openrouterRequest (request : CoreRequest) : String × String :=
  ("/chat/completions", W.openrouterBody request.path request.body)

/-- An answered inference call; the request lock is still held for reading. -/
structure Opened where
  clientRequestId : String
  status : UInt16
deriving DecidableEq

/-- Retire the lease that an error has come back for, and go on with another one
if its key was rejected. -/
def replaceRejected (lease : ActiveOpenRouterLease) (error : AuthError)
    (again : Option (Handler Opened)) : Handler Opened := do
  call .releaseRequest
  call .writeRequest
  call (.dropSlot lease.clientRequestId)
  let rejected := isRejectedOpenrouterKey W error ||
    (0 < lease.requestsServed && isExhaustedOpenrouterKey error)
  match again, rejected with
  | some again, true => do
      retireDirectOpenrouterLease lease.clientRequestId
      call .releaseRequest
      again
  | _, _ => do
      let _ ← (retireDirectOpenrouterLease lease.clientRequestId).attempt
      .fail error

/-- Send the request with a lease of the slot, which is locked until the request
has been counted. -/
def serveLease (lease : ActiveOpenRouterLease) (path body : String)
    (again : Option (Handler Opened)) : Handler Opened := do
  call (.setSlot (some lease.served))
  call .unlockSlot
  match ← (sendVerifiedOpenrouterRequest config lease path body).attempt with
  | .ok status => return ⟨lease.clientRequestId, status⟩
  | .error error => replaceRejected W lease error again

/-- One round of the inference loop; `again` goes on with a replacement key. -/
def openRound (sessionId path body : String) (again : Option (Handler Opened)) :
    Handler Opened := do
  call .readRequest
  let slot ← call .lockSlot
  let lease ← ensureDirectOpenrouterLease config slot sessionId
  if lease.verified then serveLease W config lease path body again
  else
    let verified ← verifyLease config lease
    call (.setSlot (some verified))
    serveLease W config verified path body again

def openDirectOpenrouterResponse (request : CoreRequest) (sessionId : String) :
    Handler Opened := do
  Program.lift (← call .ensureSchemeAgreement)
  let (path, body) := openrouterRequest W request
  openRound W config sessionId path body (some (openRound W config sessionId path body none))

def executeDirectOpenrouter (request : CoreRequest) (sessionId : String) :
    Handler CoreResponse := do
  let opened ← openDirectOpenrouterResponse W config request sessionId
  let payload ← call .readBody
  call .releaseRequest
  match payload with
  | .error message => .fail (.upstream message)
  | .ok rawPayload => do
      let wallet ← status
      return {
        clientRequestId := opened.clientRequestId
        responseCode := opened.status
        rawPayload := rawPayload
        chargeApplied := 0
        nextAnchor := (wallet.note.map NoteState.currentAnchor).getD Felt252.zero
        remainingBalance := wallet.note.map NoteState.currentBalance }

/-- The body is forwarded while the request lock is held for reading. -/
def executeDirectOpenrouterStreaming (request : CoreRequest) (sessionId : String) :
    Handler UInt16 := do
  let opened ← openDirectOpenrouterResponse W config request sessionId
  let _ ← call .readBody
  call .releaseRequest
  return opened.status

/-- The prepared-withdrawal guard of the routes that execute requests. -/
def checkPreparedWithdrawal : Handler Unit := do
  match ← call .readPrepared with
  | none => return ()
  | some plan => .fail (.withdrawalPending
      (s!"{withdrawalModeLabel plan.mode} withdrawal for note {plan.publicInputs.noteId} is " ++
        "prepared; finish it before sending more requests"))

def executeRequestInSession (request : CoreRequest) (sessionId : Option String) :
    Handler CoreResponse := do
  checkPreparedWithdrawal
  match config.requestMode with
  | .proxy => executeRequestDemo request
  | .directOpenrouter => do
      let sessionId ← Program.lift (normalizeSessionId sessionId)
      executeDirectOpenrouter W config request sessionId

def executeStreamingRequestInSession (request : CoreRequest) (sessionId : Option String) :
    Handler UInt16 := do
  checkPreparedWithdrawal
  match config.requestMode with
  | .directOpenrouter => do
      let sessionId ← Program.lift (normalizeSessionId sessionId)
      executeDirectOpenrouterStreaming W config request sessionId
  | .proxy => .fail (.invalidInput "streaming is available only in direct-openrouter mode")

end Inference

section Withdrawal

variable (config : AuthConfig)

def reconcileDirectOpenrouter : Handler Unit := do
  if config.requestMode = .directOpenrouter then
    let taken ← call .tryWriteRequest
    if taken then
      match ← recover.attempt with
      | .ok result => do
          if result.recovered then
            call .clearSlot
          call .releaseRequest
      | .error _ => call .releaseRequest

/-- The lease of an interrupted issuance, if the server may have accepted it. -/
def findDirectLeaseForWithdrawal (request : ApiRequestV2) :
    Nat → Handler (Option OpenRouterLeaseStatusResponse)
  | 0 => return none
  | attempts + 1 => do
      match ← fetchOptionalDirectLeaseStatus request.clientRequestId with
      | some lease => return some lease
      | none => do
          let recovery ← fetchRequestRecovery request.clientRequestId
          if recovery.requestResponse.isSome || recovery.nullifierStatus == "finalized" then do
            let recovered ← recover
            if recovered.recovered || !recovered.wallet.pendingRequest then return none
            else .fail (.leasePending
              s!"request {request.clientRequestId} is finalized but not yet recoverable")
          else if recovery.status ≠ "not_found" ∨ recovery.nullifierStatus ≠ "unknown" then
            .fail (.leasePending (s!"request {request.clientRequestId} has server status " ++
              s!"{recovery.status} and nullifier status {recovery.nullifierStatus}"))
          else do
            let nullifier ← fetchNullifierRecovery request.nullifier
            if nullifier.nullifierStatus = "clearance_reserved" then return none
            else if nullifier.status ≠ "not_found" ∨ nullifier.nullifierStatus ≠ "unknown" then
              .fail (.leasePending (s!"request {request.clientRequestId} is unknown, but its " ++
                s!"nullifier has server status {nullifier.status} and nullifier status " ++
                nullifier.nullifierStatus))
            else findDirectLeaseForWithdrawal request attempts

/-- The part of a settlement that finishes a lease whose key is not in the slot. -/
def settlePendingLease : Handler (Option WalletStatus) := do
  let request ← prepareDirectLeaseRequest
  match ← findDirectLeaseForWithdrawal request 3 with
  | none => do
      clearPendingRequest
      let wallet ← status
      if wallet.pendingRequest then .fail .pendingRequest
      else return some wallet
  | some lease =>
      if lease.status = "active" then do
        retireDirectOpenrouterLease request.clientRequestId
        return none
      else if lease.status = "finalized" then do
        let recovered ← recover
        if !recovered.recovered && recovered.wallet.pendingRequest then
          .fail (.leasePending
            s!"finalized lease {request.clientRequestId} is not yet recoverable")
        else return none
      else .fail (.leasePending (s!"lease {request.clientRequestId} is {lease.status}; " ++
        s!"key expiry {lease.expiresAt}, settlement after {lease.settleAfter}"))

def settleOpenRequest : Handler (Option WalletStatus) := do
  match config.requestMode with
  | .directOpenrouter => do
      match ← call .takeSlot with
      | some lease => do
          retireDirectOpenrouterLease lease.clientRequestId
          return none
      | none => do
          let wallet ← status
          if wallet.pendingRequest then settlePendingLease
          else return none
  | .proxy => do
      let wallet ← status
      if wallet.pendingRequest then
        let recovered ← recover
        if !recovered.recovered && recovered.wallet.pendingRequest then .fail .pendingRequest
        else return none
      else return none

def settleForWithdrawal : Handler WalletStatus := do
  call .writeRequest
  match ← settleOpenRequest config with
  | some wallet => do
      call .releaseRequest
      return wallet
  | none => do
      let wallet ← status
      if wallet.pendingRequest then .fail .pendingRequest
      else
        call .releaseRequest
        return wallet

/-- Prepare a plan; the caller holds the lock of the plan. -/
def prepareWithdrawal (mode : WithdrawalMode) (destination : Address) :
    Handler WithdrawalPlan := do
  reconcileDirectOpenrouter config
  match ← call .readSlot with
  | some lease => .fail (.leasePending (s!"chat {lease.sessionId} owns an unsettled key until " ++
      s!"{lease.expiresAt}; wait for settlement before withdrawing"))
  | none => do
      let reply ← call (.withdraw mode destination)
      let plan ← Program.lift reply.result
      call (.setPrepared (some plan))
      Program.lift (← call (.persistPrepared plan))
      call .unlockPrepared
      return plan

/-- A plan that is prepared already is handed out again, and a mutual close to
the same destination may fall back to the escape path. -/
def createWithdrawal (mode : WithdrawalMode) (destination : Address) : Handler WithdrawalPlan := do
  match ← call .lockPrepared with
  | none => prepareWithdrawal config mode destination
  | some plan =>
      if plan.mode = mode ∧ plan.publicInputs.destination = destination then do
        call .unlockPrepared
        return plan
      else if plan.mode = .mutual ∧ mode = .escape ∧ plan.publicInputs.destination = destination
      then prepareWithdrawal config mode destination
      else .fail (.withdrawalPending
        (s!"{withdrawalModeLabel plan.mode} withdrawal for note {plan.publicInputs.noteId} is " ++
          s!"already prepared for {formatAddress plan.publicInputs.destination}"))

/-- The status of a note in the vault, and the deadline of its challenge. -/
def onchainWithdrawalStatus (noteId : UInt32) : Handler (String × Option UInt64) := do
  let rawStatus ← Program.lift (← call (.vaultNotes noteId))
  if rawStatus = 1 then return ("active", none)
  else if rawStatus = 2 then do
    let deadline ← Program.lift (← call (.vaultPending noteId))
    return ("pending_withdrawal", some deadline)
  else if rawStatus = 3 then return ("closed", none)
  else if rawStatus = 0 then .fail (.wallet s!"vault note {noteId} is uninitialized")
  else .fail (.wallet s!"vault note {noteId} has unknown status {rawStatus}")

/-- An escape plan is dropped, from memory and then from its file. -/
def dropEscapePlan : Handler Unit := do
  let prepared ← call .lockPrepared
  if (prepared.map WithdrawalPlan.mode) = some .escape then
    call (.setPrepared none)
    Program.lift (← call .removePrepared)
    call .unlockPrepared
  else call .unlockPrepared

def confirmWithdrawal : Handler WithdrawalChainStatus := do
  let walletBefore ← status
  match walletBefore.note with
  | none => .fail .noActiveNote
  | some note => do
      let (chainStatus, challengeDeadline) ← onchainWithdrawalStatus note.noteId
      if chainStatus = "closed" then do
        let _ ← call .clearPrepared
        call .clearSlot
        let wallet ← resetWallet
        return ⟨note.noteId, chainStatus, none, wallet⟩
      else if chainStatus = "active" then do
        dropEscapePlan
        return ⟨note.noteId, chainStatus, none, walletBefore⟩
      else return ⟨note.noteId, chainStatus, challengeDeadline, walletBefore⟩

end Withdrawal

section CommandLine

variable (config : AuthConfig)

def runManagedWithdrawal (mode : WithdrawalMode) (destination : Address) (dryRun : Bool) :
    Handler Unit := do
  let settled ← settleForWithdrawal config
  match settled.note with
  | none => .fail (.wallet "the local client has no active note to withdraw")
  | some localNote => do
      Program.require (settled.pendingRequest = false)
        (.wallet "the local client still has a pending request after settlement")
      let plan ← createWithdrawal config mode destination
      Program.require (plan.mode = mode)
        (.wallet "local client returned the wrong withdrawal mode")
      Program.require (plan.publicInputs.destination = destination)
        (.wallet "withdrawal proof does not match --destination")
      Program.require (plan.publicInputs.noteId = localNote.noteId)
        (.wallet (s!"the withdrawal proof is for note {plan.publicInputs.noteId}, but the " ++
          s!"settled local note is {localNote.noteId}"))
      Program.lift (← call (.submitWithdrawal plan dryRun))
      if dryRun then return ()
      else match mode with
        | .mutual => do
            Program.lift (← call (.awaitNoteStatus plan.publicInputs.noteId 3))
            let reset ← resetWallet
            Program.require (reset.hasNote = false) (.wallet ("the on-chain withdrawal " ++
              "succeeded, but the local client still reports an active note"))
        | .escape => do
            Program.lift (← call (.awaitNoteStatus plan.publicInputs.noteId 2))

/-- Reset the wallet if its note is the one that was closed. -/
def resetClosedNote (localNoteId : Option UInt32) (noteId : UInt32) : Handler Unit := do
  if localNoteId = some noteId then
    let reset ← resetWallet
    Program.require (reset.hasNote = false) (.wallet ("escape finalization succeeded, " ++
      "but the local client still reports an active note"))
  else return ()

def finalizeEscapeWithdrawal (requested : Option UInt32) (dryRun : Bool) : Handler Unit := do
  let wallet ← status
  let localNoteId := wallet.note.map NoteState.noteId
  match requested.or localNoteId with
  | none => .fail (.wallet "--note-id is required when the local client has no active note")
  | some noteId => do
      Program.require (localNoteId = none ∨ localNoteId = some noteId)
        (.wallet s!"--note-id {noteId} does not match the local client's note")
      let current ← Program.lift (← call (.readNoteStatus noteId))
      if current = 2 then do
        Program.lift (← call (.finalizeEscape noteId dryRun))
        if dryRun then return ()
        else
          Program.lift (← call (.awaitNoteStatus noteId 3))
          resetClosedNote localNoteId noteId
      else if current = 3 then
        if dryRun then
          .fail (.wallet s!"note {noteId} is already closed; there is nothing to simulate")
        else resetClosedNote localNoteId noteId
      else .fail (.wallet (s!"note {noteId} is not pending an escape withdrawal (on-chain " ++
        s!"status {current})"))

end CommandLine

end ZkApi.Clientd
