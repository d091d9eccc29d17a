import ZkApi.DaemonMachine

/-!
# The steps that programs of the daemon consist of

Which kinds of steps the routes that execute requests, and those that settle
them, can take at all.
-/

namespace ZkApi.Clientd

open Interleaving Program

/-- The steps of retiring a lease. -/
def Op.isRetiring : Op → Bool
  | .prepareLease | .retireLease _ _ | .withinDeadline | .recover => true
  | _ => false

/-- The steps of verifying a key and of sending prompts with it. -/
def Op.isSending : Op → Bool
  | .submitKey _ _ _ | .postPrompt _ _ _ | .now => true
  | _ => false

/-- The steps of a settlement. -/
def Op.isSettling : Op → Bool
  | .writeRequest | .releaseRequest | .takeSlot | .status | .clearPendingRequest
  | .leaseStatus _ | .requestRecovery _ | .nullifierRecovery _ => true
  | op => op.isRetiring

/-- The steps of executing a request, after the guard. -/
def Op.isExecuting : Op → Bool
  | .ensureSchemeAgreement | .requestFlow _ | .readRequest | .writeRequest | .releaseRequest
  | .lockSlot | .setSlot _ | .unlockSlot | .dropSlot _ | .postLease _ | .leaseStatus _
  | .clearPendingRequest | .readBody | .status => true
  | op => op.isRetiring || op.isSending

variable {kind : Op → Bool}

theorem only_lift_call {α : Type} {op : Op} {result : Resp op → Except AuthError α}
    (holds : kind op = true) :
    (call op >>= fun response => lift (result response) : Handler α).Only kind :=
  (only_call holds).bind fun _ => only_lift _

theorem only_getOk {α : Type} (reply : GetReply α) : (getOk reply).Only kind := by
  cases reply <;> constructor

section Retirement

theorem only_retireOnce {clientRequestId : String} {request : ApiRequestV2}
    {again : Option (Handler OpenRouterLeaseStatusResponse)}
    (goesOn : ∀ program, again = some program → program.Only Op.isRetiring) :
    (retireOnce clientRequestId request again).Only Op.isRetiring := by
  apply (only_call rfl).bind
  intro reply
  cases reply with
  | unreachable message | success status | malformed message | failed status body => constructor
  | refused error =>
      dsimp only
      split
      · apply (only_call rfl).bind
        intro intime
        split
        · exact goesOn _ rfl
        · split <;> constructor
      · split <;> constructor

theorem only_retireRounds (clientRequestId : String) (request : ApiRequestV2) (rounds : Nat) :
    (retireRounds clientRequestId request rounds).Only Op.isRetiring := by
  induction rounds with
  | zero => exact only_retireOnce nofun
  | succ rounds ih =>
      apply only_retireOnce
      intro program same
      cases same
      exact ih

theorem only_retire (clientRequestId : String) :
    (retireDirectOpenrouterLease clientRequestId).Only Op.isRetiring := by
  apply Only.bind (only_lift_call rfl)
  intro request
  split
  · constructor
  apply (only_retireRounds _ _ _).bind
  intro status
  split
  · constructor
  apply Only.bind (only_lift_call rfl)
  intro recovered
  exact only_require _ _

end Retirement

section Execution

theorem isExecuting_of_isRetiring (op : Op) (holds : op.isRetiring = true) :
    op.isExecuting = true := by
  cases op <;> first | rfl | cases holds

theorem isExecuting_of_isSending (op : Op) (holds : op.isSending = true) :
    op.isExecuting = true := by
  cases op <;> first | rfl | cases holds

theorem only_prepare (holds : kind .prepareLease = true) :
    prepareDirectLeaseRequest.Only kind :=
  only_lift_call holds

theorem only_recover (holds : kind .recover = true) : recover.Only kind :=
  only_lift_call holds

theorem only_status (holds : kind .status = true) : status.Only kind :=
  only_lift_call holds

theorem only_clear (holds : kind .clearPendingRequest = true) :
    clearPendingRequest.Only kind :=
  only_lift_call holds

theorem only_issueRound {config : AuthConfig} {sessionId : String}
    {onStale onLost : Option (Handler ActiveOpenRouterLease)}
    (goesOn : ∀ program, onStale = some program ∨ onLost = some program →
      program.Only Op.isExecuting) :
    (issueRound config sessionId onStale onLost).Only Op.isExecuting := by
  apply (only_prepare rfl).bind
  intro request
  apply (only_call rfl).bind
  intro reply
  cases reply with
  | unreachable message | malformed message | failed status body => constructor
  | success issued =>
      apply (only_call rfl).bind
      intro now
      exact only_lift _
  | refused error =>
      dsimp only
      split
      · split
        · apply (only_clear rfl).bind
          intro cleared
          exact goesOn _ (Or.inl rfl)
        · constructor
      · split
        · have fetches : (fetchDirectLeaseStatus request.clientRequestId).Only Op.isExecuting :=
            (only_call rfl).bind fun reply => only_getOk reply
          apply fetches.bind
          intro lease
          split
          · constructor
          · split
            · apply ((only_retire _).mono isExecuting_of_isRetiring).bind
              intro retired
              exact goesOn _ (Or.inr rfl)
            · split
              · apply (only_recover rfl).bind
                intro recovered
                split
                · constructor
                · exact goesOn _ (Or.inr rfl)
              · constructor
        · constructor

theorem only_issue (config : AuthConfig) (sessionId : String) :
    (issueDirectOpenrouterLease config sessionId).Only Op.isExecuting := by
  have last : (issueRound config sessionId none none).Only Op.isExecuting :=
    only_issueRound (by simp)
  unfold issueDirectOpenrouterLease
  apply only_issueRound
  rintro program (same | same)
  · cases same
    apply only_issueRound
    rintro program (same | same)
    · cases same
    · cases same
      exact last
  · cases same
    apply only_issueRound
    rintro program (same | same)
    · cases same
      exact last
    · cases same

theorem only_replaceLease (config : AuthConfig) (sessionId : String) :
    (replaceLease config sessionId).Only Op.isExecuting := by
  apply (only_recover rfl).bind
  intro recovered
  apply (only_issue _ _).bind
  intro lease
  exact (only_call rfl).bind fun _ => .ret _

theorem only_ensure (config : AuthConfig) (slot : Option ActiveOpenRouterLease)
    (sessionId : String) :
    (ensureDirectOpenrouterLease config slot sessionId).Only Op.isExecuting := by
  unfold ensureDirectOpenrouterLease
  cases slot with
  | none => exact only_replaceLease _ _
  | some lease =>
      apply (only_call rfl).bind
      intro now
      split
      · split <;> constructor
      · apply (only_call rfl).bind
        intro emptied
        apply ((only_retire _).mono isExecuting_of_isRetiring).bind
        intro retired
        exact only_replaceLease _ _

theorem only_retryWithin {α : Type} {expiresAt : UInt64} {retryAfter : Option UInt64}
    {error : AuthError} {again : Option (Handler α)}
    (goesOn : ∀ program, again = some program → program.Only Op.isSending) :
    (retryWithin expiresAt retryAfter error again).Only Op.isSending := by
  unfold retryWithin
  cases again with
  | none => constructor
  | some again =>
      apply (only_call rfl).bind
      intro now
      split
      · exact goesOn _ rfl
      · constructor

theorem only_submitOnce {url apiKey : String} {expiresAt : UInt64}
    {evidence : OaKeyVerificationEvidence} {again : Option (Handler Unit)}
    (goesOn : ∀ program, again = some program → program.Only Op.isSending) :
    (submitOnce url apiKey expiresAt evidence again).Only Op.isSending := by
  apply (only_call rfl).bind
  intro reply
  cases reply with
  | unreachable message => exact only_retryWithin goesOn
  | unreadable message => constructor
  | invalid status retryAfter message =>
      dsimp only
      split
      · exact only_retryWithin goesOn
      · constructor
  | json status retryAfter verdict retryable detail =>
      dsimp only
      split
      · constructor
      · split
        · exact only_retryWithin goesOn
        · constructor

theorem only_postOnce {url apiKey body : String} {expiresAt : UInt64}
    {again : Option (Handler UInt16)}
    (goesOn : ∀ program, again = some program → program.Only Op.isSending) :
    (postOnce url apiKey body expiresAt again).Only Op.isSending := by
  apply (only_call rfl).bind
  intro reply
  cases reply with
  | unreachable message => exact only_retryWithin goesOn
  | success status | unreadable message => constructor
  | failure status retryAfter body =>
      dsimp only
      split
      · exact only_retryWithin goesOn
      · constructor

theorem only_threeAttempts {α : Type} {attempt : Option (Handler α) → Handler α}
    (each : ∀ again, (∀ program, again = some program → program.Only kind) →
      (attempt again).Only kind) :
    (threeAttempts attempt).Only kind := by
  apply each
  intro program same
  cases same
  apply each
  intro program same
  cases same
  exact each none nofun

theorem only_verifyOaKey (config : AuthConfig) (apiKey : String) (expiresAt : UInt64)
    (evidence : OaKeyVerificationEvidence) :
    (verifyOaKey config apiKey expiresAt evidence).Only Op.isSending := by
  unfold verifyOaKey
  apply Only.bind
  · exact only_require _ _
  · intro trusted
    apply Only.bind
    · exact only_lift _
    · intro valid
      exact only_threeAttempts fun again goesOn => only_submitOnce goesOn

theorem only_verifyLease (config : AuthConfig) (lease : ActiveOpenRouterLease) :
    (verifyLease config lease).Only Op.isSending := by
  unfold verifyLease
  cases lease.verification with
  | none => constructor
  | some evidence =>
      apply (only_verifyOaKey _ _ _ _).bind
      intro verified
      apply (only_call rfl).bind
      intro now
      split <;> constructor

theorem only_sendVerified (config : AuthConfig) (lease : ActiveOpenRouterLease)
    (path body : String) :
    (sendVerifiedOpenrouterRequest config lease path body).Only Op.isSending := by
  have sends : ∀ lease : ActiveOpenRouterLease, (sendOpenrouterRequest
      (trimEndSlashes lease.openrouterApiBase ++ path) lease.apiKey body lease.expiresAt).Only
        Op.isSending :=
    fun lease => only_threeAttempts fun again goesOn => only_postOnce goesOn
  unfold sendVerifiedOpenrouterRequest
  split
  · exact sends _
  · exact (only_verifyLease _ _).bind sends

theorem only_replaceRejected {W : WalletFunctions} {lease : ActiveOpenRouterLease}
    {error : AuthError} {again : Option (Handler Opened)}
    (goesOn : ∀ program, again = some program → program.Only Op.isExecuting) :
    (replaceRejected W lease error again).Only Op.isExecuting := by
  have retires : (retireDirectOpenrouterLease lease.clientRequestId).Only Op.isExecuting :=
    (only_retire _).mono isExecuting_of_isRetiring
  apply (only_call rfl).bind
  intro released
  apply (only_call rfl).bind
  intro entered
  apply (only_call rfl).bind
  intro dropped
  dsimp only
  split
  · apply retires.bind
    intro retired
    apply (only_call rfl).bind
    intro released
    exact goesOn _ rfl
  · exact retires.attempt.bind fun _ => .fail _

theorem only_serveLease {W : WalletFunctions} {config : AuthConfig}
    {lease : ActiveOpenRouterLease} {path body : String} {again : Option (Handler Opened)}
    (goesOn : ∀ program, again = some program → program.Only Op.isExecuting) :
    (serveLease W config lease path body again).Only Op.isExecuting := by
  apply (only_call rfl).bind
  intro counted
  apply (only_call rfl).bind
  intro unlocked
  apply ((only_sendVerified _ _ _ _).attempt.mono isExecuting_of_isSending).bind
  intro sent
  cases sent with
  | ok status => constructor
  | error error => exact only_replaceRejected goesOn

theorem only_openRound {W : WalletFunctions} {config : AuthConfig} {sessionId path body : String}
    {again : Option (Handler Opened)}
    (goesOn : ∀ program, again = some program → program.Only Op.isExecuting) :
    (openRound W config sessionId path body again).Only Op.isExecuting := by
  apply (only_call rfl).bind
  intro entered
  apply (only_call rfl).bind
  intro slot
  apply (only_ensure _ _ _).bind
  intro lease
  split
  · exact only_serveLease goesOn
  · apply ((only_verifyLease _ _).mono isExecuting_of_isSending).bind
    intro verified
    apply (only_call rfl).bind
    intro stored
    exact only_serveLease goesOn

theorem only_open (W : WalletFunctions) (config : AuthConfig) (request : CoreRequest)
    (sessionId : String) :
    (openDirectOpenrouterResponse W config request sessionId).Only Op.isExecuting := by
  apply (only_lift_call rfl).bind
  intro agreed
  apply only_openRound
  intro program same
  cases same
  exact only_openRound nofun

theorem only_executeRequestDemo (request : CoreRequest) :
    (executeRequestDemo request).Only Op.isExecuting := by
  apply (only_lift_call rfl).bind
  intro agreed
  exact only_lift_call rfl

theorem only_executeDirect (W : WalletFunctions) (config : AuthConfig) (request : CoreRequest)
    (sessionId : String) :
    (executeDirectOpenrouter W config request sessionId).Only Op.isExecuting := by
  apply (only_open _ _ _ _).bind
  intro opened
  apply (only_call rfl).bind
  intro payload
  apply (only_call rfl).bind
  intro released
  cases payload with
  | error message => constructor
  | ok rawPayload => exact (only_status rfl).bind fun _ => .ret _

theorem only_executeDirectStreaming (W : WalletFunctions) (config : AuthConfig)
    (request : CoreRequest) (sessionId : String) :
    (executeDirectOpenrouterStreaming W config request sessionId).Only Op.isExecuting := by
  apply (only_open _ _ _ _).bind
  intro opened
  apply (only_call rfl).bind
  intro payload
  exact (only_call rfl).bind fun _ => .ret _

end Execution

section Settlement

/-- The steps that neither send a request nor take part in a withdrawal. -/
def Op.isPlain : Op → Bool
  | .status | .retireLowBalanceNote | .confirmDeposit _ | .recover | .resetFiles
  | .clearPrepared | .clearSlot | .tryWriteRequest | .releaseRequest | .now | .vaultNotes _
  | .vaultPending _ | .readNoteStatus _ | .awaitNoteStatus _ _ | .submitWithdrawal _ _
  | .finalizeEscape _ _ => true
  | _ => false

theorem isSettling_of_isRetiring (op : Op) (holds : op.isRetiring = true) :
    op.isSettling = true := by
  cases op <;> first | rfl | cases holds

theorem only_fetchOptional (clientRequestId : String) :
    (fetchOptionalDirectLeaseStatus clientRequestId).Only Op.isSettling := by
  apply (only_call rfl).bind
  intro reply
  split
  · constructor
  · exact (only_getOk _).bind fun _ => .ret _

theorem only_findLease (request : ApiRequestV2) (attempts : Nat) :
    (findDirectLeaseForWithdrawal request attempts).Only Op.isSettling := by
  induction attempts with
  | zero => constructor
  | succ attempts ih =>
      apply (only_fetchOptional _).bind
      intro lease
      cases lease with
      | some lease => constructor
      | none =>
          have fetches : (fetchRequestRecovery request.clientRequestId).Only Op.isSettling :=
            (only_call rfl).bind fun _ => only_getOk _
          apply fetches.bind
          intro recovery
          split
          · apply (only_recover rfl).bind
            intro recovered
            split <;> constructor
          · split
            · constructor
            · have fetches : (fetchNullifierRecovery request.nullifier).Only Op.isSettling :=
                (only_call rfl).bind fun _ => only_getOk _
              apply fetches.bind
              intro nullifier
              split
              · constructor
              · split
                · constructor
                · exact ih

theorem only_settlePendingLease : settlePendingLease.Only Op.isSettling := by
  apply (only_prepare rfl).bind
  intro request
  apply (only_findLease _ _).bind
  intro lease
  cases lease with
  | none =>
      apply (only_clear rfl).bind
      intro cleared
      apply (only_status rfl).bind
      intro wallet
      split <;> constructor
  | some lease =>
      dsimp only
      split
      · exact ((only_retire _).mono isSettling_of_isRetiring).bind fun _ => .ret _
      · split
        · apply (only_recover rfl).bind
          intro recovered
          split <;> constructor
        · constructor

theorem only_resetWallet : resetWallet.Only Op.isPlain := by
  apply (only_call rfl).bind
  intro reply
  apply (only_lift _).bind
  intro wallet
  apply (only_call rfl).bind
  intro dropped
  exact (only_call rfl).bind fun _ => .ret _

/-- The steps of a reconciliation. -/
def Op.isReconciling : Op → Bool
  | .tryWriteRequest | .recover | .clearSlot | .releaseRequest => true
  | _ => false

/-- The reads of the vault by the daemon. -/
def Op.isVaultRead : Op → Bool
  | .vaultNotes _ | .vaultPending _ => true
  | _ => false

theorem isPlain_of_isReconciling (op : Op) (holds : op.isReconciling = true) :
    op.isPlain = true := by
  cases op <;> first | rfl | cases holds

theorem isPlain_of_isVaultRead (op : Op) (holds : op.isVaultRead = true) :
    op.isPlain = true := by
  cases op <;> first | rfl | cases holds

theorem only_reconcile (config : AuthConfig) :
    (reconcileDirectOpenrouter config).Only Op.isReconciling := by
  unfold reconcileDirectOpenrouter
  split
  · apply (only_call rfl).bind
    intro taken
    split
    · apply (only_recover rfl).attempt.bind
      intro result
      cases result with
      | error error => exact only_call rfl
      | ok result =>
          dsimp only
          split
          · exact (only_call rfl).bind fun _ => only_call rfl
          · exact only_call rfl
    · constructor
  · constructor

/-- The steps of preparing a withdrawal and of dropping a plan. -/
def Op.isWithdrawing : Op → Bool
  | .lockPrepared | .setPrepared _ | .unlockPrepared | .persistPrepared _ | .removePrepared
  | .readSlot | .withdraw _ _ => true
  | op => op.isReconciling

theorem isWithdrawing_of_isReconciling (op : Op) (holds : op.isReconciling = true) :
    op.isWithdrawing = true := by
  cases op <;> first | rfl | cases holds

theorem only_prepareWithdrawal (config : AuthConfig) (mode : WithdrawalMode)
    (destination : Address) :
    (prepareWithdrawal config mode destination).Only Op.isWithdrawing := by
  apply ((only_reconcile config).mono isWithdrawing_of_isReconciling).bind
  intro reconciled
  apply (only_call rfl).bind
  intro slot
  cases slot with
  | some lease => constructor
  | none =>
      apply (only_call rfl).bind
      intro reply
      apply (only_lift _).bind
      intro plan
      apply (only_call rfl).bind
      intro stored
      apply (only_lift_call rfl).bind
      intro persisted
      exact (only_call rfl).bind fun _ => .ret _

theorem only_createWithdrawal (config : AuthConfig) (mode : WithdrawalMode)
    (destination : Address) :
    (createWithdrawal config mode destination).Only Op.isWithdrawing := by
  apply (only_call rfl).bind
  intro prepared
  cases prepared with
  | none => exact only_prepareWithdrawal _ _ _
  | some plan =>
      dsimp only
      split
      · exact (only_call rfl).bind fun _ => .ret _
      · split
        · exact only_prepareWithdrawal _ _ _
        · constructor

theorem only_dropEscapePlan : dropEscapePlan.Only Op.isWithdrawing := by
  apply (only_call rfl).bind
  intro prepared
  split
  · apply (only_call rfl).bind
    intro dropped
    apply (only_lift_call rfl).bind
    intro removed
    exact only_call rfl
  · exact only_call rfl

theorem only_onchainWithdrawalStatus (noteId : UInt32) :
    (onchainWithdrawalStatus noteId).Only Op.isVaultRead := by
  apply (only_lift_call rfl).bind
  intro rawStatus
  split
  · constructor
  · split
    · exact (only_lift_call rfl).bind fun _ => .ret _
    · split
      · constructor
      · split <;> constructor

theorem only_resetClosedNote (localNoteId : Option UInt32) (noteId : UInt32) :
    (resetClosedNote localNoteId noteId).Only Op.isPlain := by
  unfold resetClosedNote
  split
  · exact only_resetWallet.bind fun _ => only_require _ _
  · constructor

theorem only_finalizeEscapeWithdrawal (requested : Option UInt32) (dryRun : Bool) :
    (finalizeEscapeWithdrawal requested dryRun).Only Op.isPlain := by
  apply (only_status rfl).bind
  intro wallet
  dsimp only
  split
  · constructor
  · apply (only_require _ _).bind
    intro matches_
    apply (only_lift_call rfl).bind
    intro current
    split
    · apply (only_lift_call rfl).bind
      intro submitted
      split
      · constructor
      · exact (only_lift_call rfl).bind fun _ => only_resetClosedNote _ _
    · split
      · split
        · constructor
        · exact only_resetClosedNote _ _
      · constructor

end Settlement

section Routes

/-- The steps of a route that executes requests. -/
def Op.isServing : Op → Bool
  | .readPrepared => true
  | op => op.isExecuting

theorem isServing_of_isExecuting (op : Op) (holds : op.isExecuting = true) :
    op.isServing = true := by
  cases op <;> first | rfl | cases holds

theorem only_checkPreparedWithdrawal : checkPreparedWithdrawal.Only Op.isServing := by
  apply (only_call rfl).bind
  intro prepared
  cases prepared <;> constructor

theorem only_executeRequest (W : WalletFunctions) (config : AuthConfig) (request : CoreRequest)
    (sessionId : Option String) :
    (executeRequestInSession W config request sessionId).Only Op.isServing := by
  apply only_checkPreparedWithdrawal.bind
  intro passed
  split
  · exact (only_executeRequestDemo _).mono isServing_of_isExecuting
  · apply (only_lift _).bind
    intro session
    exact (only_executeDirect _ _ _ _).mono isServing_of_isExecuting

theorem only_executeStreamingRequest (W : WalletFunctions) (config : AuthConfig)
    (request : CoreRequest) (sessionId : Option String) :
    (executeStreamingRequestInSession W config request sessionId).Only Op.isServing := by
  apply only_checkPreparedWithdrawal.bind
  intro passed
  split
  · apply (only_lift _).bind
    intro session
    exact (only_executeDirectStreaming _ _ _ _).mono isServing_of_isExecuting
  · constructor

theorem only_requestSubmit (request : CoreRequest) :
    (executeRequestDemo request).Only Op.isServing :=
  (only_executeRequestDemo _).mono isServing_of_isExecuting

end Routes

end ZkApi.Clientd
