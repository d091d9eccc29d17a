import ZkApi.BackgroundStarts

/-!
# Recovery of a background withdrawal

A sync looks for the transactions and the nonces of a withdrawal that was set aside.  When
all of them are final, the claims are resolved, and a retry archives them.  A prompt that
replaced a transaction can also be released without an answer of its wallet.
-/

namespace ZkApi.Browser.Background

open Expiry Escape

section Types

/-- A claim as the sync reads it; a saved retry has no prompt. -/
structure StartClaim where
  submissionId : Option String
  operationId : Option String
  sender : Option String
  nonce : Option Nat
deriving DecidableEq

def PastClaim.start (claim : PastClaim) : StartClaim :=
  ⟨claim.submissionId, claim.operationId, claim.sender, claim.nonce⟩

end Types

section Operations

variable (record : Record)

/-- The claims of `backgroundWithdrawalClaims`, with what is saved of them. -/
def savedStartClaims : List StartClaim :=
  let plan := record.preparedWithdrawal
  (record.startSubmissionId.toList.map fun submissionId =>
      ⟨some submissionId, record.startOperationId, record.startSubmissionFrom,
        record.startSubmissionNonce⟩) ++
    (plan.submissionId.toList.map fun submissionId =>
      ⟨some submissionId, plan.operationId, plan.submissionFrom, plan.submissionNonce⟩) ++
    record.supersededStartSubmissionClaims.map PastClaim.start ++
    record.ambiguousStartReplacements.map PastClaim.start ++
    (plan.ambiguousReplacements.map fun claim =>
      { claim.start with operationId := plan.operationId }) ++
    (record.startRetry.toList.map fun retry =>
      ⟨none, retry.operationId, some retry.sender, some retry.nonce⟩)

/-- The claims with what is saved of the attempts. -/
def startEvidence : List StartClaim :=
  savedStartClaims record ++
    (record.transactionAttempts ++ record.preparedWithdrawal.transactionAttempts).map
      fun attempt => attempt.claim.start

/-- The senders of the same operation and nonce. -/
def StartClaim.senders (claim : StartClaim) (evidence : List StartClaim) : List String :=
  ((evidence.filter fun candidate => candidate.sender.isSome &&
    candidate.operationId == claim.operationId && candidate.nonce.isSome &&
    candidate.nonce == claim.nonce).filterMap fun candidate =>
      candidate.sender.map lowerCase).eraseDups

def StartClaim.withSender (evidence : List StartClaim) (claim : StartClaim) : StartClaim :=
  if claim.sender.isSome then claim
  else match claim.senders evidence with
    | [sender] => { claim with sender := some sender }
    | _ => claim

def backgroundWithdrawalClaims : List StartClaim :=
  (savedStartClaims record).map (StartClaim.withSender (startEvidence record))

/-- The sender and the nonce of the claim are known, and the nonce is consumed. -/
def StartClaim.isConsumed (consumed : String → Nat → Bool) (claim : StartClaim) : Bool :=
  claim.sender.any (hasDigits 40) && claim.nonce.any fun nonce =>
    consumed (claim.sender.getD "") nonce

/-- The claim goes to those that are resolved, if it is not one of them. -/
def resolveStartClaim (resolved : List PastClaim) (claim : StartClaim) : List PastClaim :=
  match claim.submissionId with
  | none => resolved
  | some submissionId =>
      if resolved.any fun saved => saved.submissionId == some submissionId &&
          saved.operationId == claim.operationId then resolved
      else resolved ++ [⟨submissionId, claim.operationId, claim.sender.map lowerCase,
        claim.nonce⟩]

def savedStartHashes : List String :=
  ((record.transactionHashes ++ record.transactionAttempts.map StartAttempt.hash ++
    record.preparedWithdrawal.transactionHashes ++
    record.preparedWithdrawal.transactionAttempts.map StartAttempt.hash).map lowerCase).eraseDups

/-- `tracksStartRecovery`. -/
def tracksStartRecovery : Bool :=
  record.startRecoveryPending || record.phase == .submittedUnconfirmed ||
    record.startSubmissionId.isSome || !(savedStartHashes record).isEmpty ||
    !(backgroundWithdrawalClaims record).isEmpty ||
    (record.startSubmissionOutcome == some .resolved &&
      (!record.resolvedStartClaims.isEmpty || decide (0 < record.startResolutionBlock)))

/-- The sync has found the starts resolved: every hash (`hashesResolved`) and the nonce of
every claim (`consumed`) is final. -/
def resolveStarts (hashesResolved : Bool) (consumed : String → Nat → Bool)
    (status : ChainStatus) (block : Nat) : Record :=
  let claims := backgroundWithdrawalClaims record
  let resolved := claims.foldl resolveStartClaim record.resolvedStartClaims
  if tracksStartRecovery record ∧ hashesResolved ∧ claims.all (StartClaim.isConsumed consumed) ∧
      (record.startRecoveryPending ∨ record.startSubmissionId.isSome ∨ claims ≠ [] ∨
        record.chainStatus ≠ status) then
    { record with
      startRecoveryPending := false
      chainStatus := status
      startSubmissionId := none
      startOperationId := none
      startSubmissionFrom := none
      startSubmissionNonce := none
      startSubmissionOutcome := some .resolved
      startReplacementTransactionHashes := []
      startRetry := none
      resolvedStartClaims := resolved
      startResolutionBlock := max record.startResolutionBlock block
      preparedWithdrawal :=
        if record.preparedWithdrawal.submissionId = record.startSubmissionId ∨
          resolved.any fun claim =>
            claim.submissionId == record.preparedWithdrawal.submissionId &&
              claim.operationId == record.preparedWithdrawal.operationId then
          record.preparedWithdrawal.withoutClaim
        else record.preparedWithdrawal }
  else record

/-- The sync has found the starts unresolved, with or without a receipt of each hash. -/
def markStartsUnresolved (allMissing : Bool) (replaceable : List String) : Record :=
  let next := { record with phase := .submittedUnconfirmed, chainStatus := .active }
  if record.startSubmissionId.isSome then next
  else if allMissing then
    { next with
      startSubmissionOutcome := some .receiptMissing
      startReplacementTransactionHashes := replaceable }
  else if record.startSubmissionOutcome = some .receiptMissing ∨
      record.startSubmissionOutcome = some .replacementResultUnknown then
    { next with startSubmissionOutcome := none, startReplacementTransactionHashes := [] }
  else next

/-- A plan without anything in it. -/
def Plan.blank : Plan where
  phase := .prepared
  operationId := none
  hasProof := false
  submissionId := none
  submissionFrom := none
  submissionNonce := none
  submissionOutcome := none
  submissionNonceJournalRequired := false
  transactionHashes := []
  transactionAttempts := []
  ambiguousReplacements := []
  replacementOf := none

/-- What a retry archives. -/
def Record.archive : Archive where
  transactionHashes := savedStartHashes record
  lateObservedHashes := []
  resolvedClaims := record.resolvedStartClaims
  transactionAttempts :=
    record.transactionAttempts ++ record.preparedWithdrawal.transactionAttempts

/-- The record after a retry, with a plan that has no proof yet. -/
def Record.archived (operationId : String) : Record :=
  { record with
    phase := .parked
    chainStatus := .active
    hasBlocks := false
    startRecoveryPending := false
    startSubmissionOutcome := some .resolved
    startSubmissionFrom := none
    startSubmissionNonce := none
    startRetry := none
    transactionHashes := []
    transactionAttempts := []
    startReplacementTransactionHashes := []
    supersededStartSubmissionClaims := []
    ambiguousStartReplacements := []
    resolvedStartClaims := []
    startResolutionBlock := 0
    resolvedStartTransactionHistory := record.resolvedStartTransactionHistory ++ [record.archive]
    hasPlan := true
    preparedWithdrawal := { Plan.blank with operationId := some operationId } }

/-- `isFinal` says that the blocks of the evidence are in order, `isFree` that no late
attempt of the note is open, and `operationId` is the new one. -/
def resolveBrowserBackgroundWithdrawalForRetry (resolvedTransactionHashes : List String)
    (isFinal isFree : Bool) (operationId : String) : Except String Record :=
  let known := savedStartHashes record
  let resolved := resolvedTransactionHashes.map lowerCase
  if record.noteId = none ∨ record.isMutual = false ∨ record.chainStatus ≠ .active ∨ record.startRecoveryPending ∨
      record.startSubmissionOutcome ≠ some .resolved ∨ record.startSubmissionId.isSome ∨
      record.startRetry.isSome ∨ record.preparedWithdrawal.submissionId.isSome ∨
      record.hasFinalization ∨ isFinal = false then
    .error ("The withdrawal changed or still has unresolved transactions. Check its status " ++
      "again.")
  else if isFree = false then .error "A late withdrawal transaction still needs reconciliation."
  else if known.all (hasDigits 64) = false ∨
      (known.all (resolved.contains ·) && resolved.all (known.contains ·)) = false then
    .error "Every saved withdrawal transaction must be finalized before retrying."
  else .ok (record.archived operationId)

/-- A new plan has a proof and no prompt. -/
def saveBrowserBackgroundWithdrawalPlan (operationId : String) (isFree : Bool) :
    Except String Record :=
  if isAvailable record isFree = false then
    .error "Check this saved withdrawal before preparing another transaction."
  else .ok { record with
    phase := .parked
    independentWithdrawal := true
    hasPlan := true
    preparedWithdrawal :=
      { Plan.blank with operationId := some operationId, hasProof := true } }

/-- The nonce that a release of a replacement has to name. -/
def Record.promptNonce : Option Nat :=
  if record.preparedWithdrawal.submissionId = record.startSubmissionId then
    record.preparedWithdrawal.submissionNonce.or record.startSubmissionNonce
  else record.startSubmissionNonce

/-- The branch of a claim in the record; `isSame` says that the note, the deployment, the
mode and the destination are those of the submission. -/
def releaseBrowserWithdrawalStartSubmission (submission : Submission)
    (replacementNonce : Option Nat) (replacementUnknown isSame : Bool) : Record :=
  let plan := record.preparedWithdrawal
  if record.startSubmissionId = some submission.submissionId ∧
      record.startOperationId.or plan.operationId = submission.operationId ∧ isSame ∧
      (replacementUnknown → replacementNonce.isSome ∧
        record.promptNonce = replacementNonce) then
    let identity := (record.liveIdentity.filter fun identity => hasDigits 40 identity.1).map
      fun identity => (lowerCase identity.1, identity.2)
    let retry := identity.filter fun identity => replacementUnknown ||
      (record.supersededStartSubmissionClaims.any fun claim =>
        claim.operationId == submission.operationId &&
          claim.sender.map lowerCase == some identity.1 && claim.nonce == some identity.2) ||
      record.ambiguousStartReplacements.any fun claim =>
        claim.operationId == submission.operationId && claim.nonce == some identity.2
    let released : Plan :=
      if plan.submissionId = some submission.submissionId then
        { plan.withoutClaim with
          phase := if replacementUnknown then .droppedOrPending
            else if plan.transactionHashes.isEmpty then .prepared else .submitted
          submissionOutcome := some (if replacementUnknown then .replacementResultUnknown
            else .rejectedBeforeBroadcast)
          ambiguousReplacements := if replacementUnknown then
            lastEight (plan.ambiguousReplacements ++
              [⟨some submission.submissionId, none, none, replacementNonce⟩])
            else plan.ambiguousReplacements }
      else plan
    { record with
      preparedWithdrawal := released
      startSubmissionId := none
      startOperationId := none
      startSubmissionFrom := none
      startSubmissionNonce := none
      startRetry := match retry with
        | some (sender, nonce) =>
            if plan.operationId = submission.operationId then
              some ⟨sender, nonce, submission.operationId⟩ else record.startRetry
        | none => none
      startSubmissionOutcome := some (if replacementUnknown then .replacementResultUnknown
        else .rejectedBeforeBroadcast)
      ambiguousStartReplacements := if replacementUnknown then
        lastEight (record.ambiguousStartReplacements ++
          [⟨some submission.submissionId, submission.operationId, none, replacementNonce⟩])
        else record.ambiguousStartReplacements
      dismissedStartSubmissionClaims := if replacementUnknown then
        record.dismissedStartSubmissionClaims
        else lastEight (record.dismissedStartSubmissionClaims ++
          [⟨some submission.submissionId, submission.operationId, none, none⟩]) }
  else record

end Operations

end ZkApi.Browser.Background
