import ZkApi.EscapeFinalization

/-!
# Start prompts of a background withdrawal

A balance that was set aside can be withdrawn while another note is selected.  A tab
claims the wallet prompt in the record of the withdrawal and in its plan, writes down the
sender and the nonce before the wallet may broadcast, and then reports what was sent.
Each operation is one transaction on the record.
-/

namespace ZkApi.Browser.Background

open Expiry Escape

section Types

inductive Phase where
  | parked
  | restored
  | submittedUnconfirmed
  | closedUnconfirmed
  | closed
  | other (name : String)
deriving DecidableEq

inductive PlanPhase where
  | reserving
  | prepared
  | awaitingWallet
  | submitted
  | ambiguous
  | droppedOrPending
deriving DecidableEq

/-- `startSubmissionOutcome`. -/
inductive Outcome where
  | awaitingWallet
  | replacementAwaitingWallet
  | ambiguous
  | rejectedBeforeBroadcast
  | submitted
  | receiptMissing
  | replacementResultUnknown
  | resolved
deriving DecidableEq

/-- A claim in one of the lists of claims that are over. -/
structure PastClaim where
  submissionId : Option String
  operationId : Option String
  sender : Option String
  nonce : Option Nat
deriving DecidableEq

structure StartAttempt where
  hash : String
  claim : PastClaim
deriving DecidableEq

/-- What is kept of the claims of an earlier plan; the attempts are those of the record and
then those of the plan. -/
structure Archive where
  transactionHashes : List String
  lateObservedHashes : List String
  resolvedClaims : List PastClaim
  transactionAttempts : List StartAttempt
deriving DecidableEq

structure RetryIdentity where
  sender : String
  nonce : Nat
  operationId : Option String
deriving DecidableEq

/-- `preparedWithdrawal`. -/
structure Plan where
  phase : PlanPhase
  operationId : Option String
  hasProof : Bool
  submissionId : Option String
  submissionFrom : Option String
  submissionNonce : Option Nat
  submissionOutcome : Option Outcome
  submissionNonceJournalRequired : Bool
  transactionHashes : List String
  transactionAttempts : List StartAttempt
  ambiguousReplacements : List PastClaim
  replacementOf : Option (List String)
deriving DecidableEq

/-- What these operations read and write of a record.  `noteId` is the note of its state
and `hasPlan` says that it has a plan: a record that is closed for good has neither.
`isMutual` says that its identity, its mode, its destination and its clearance are those of
a mutual withdrawal, `hasFinalization` that it knows a claim or a hash of a finalization, and
`hasBlocks` that it knows the block of a start, a close or a challenge. -/
structure Record where
  noteId : Option Nat
  hasPlan : Bool
  isMutual : Bool
  hasFinalization : Bool
  hasBlocks : Bool
  independentWithdrawal : Bool
  phase : Phase
  chainStatus : ChainStatus
  startRecoveryPending : Bool
  startOperationId : Option String
  startSubmissionId : Option String
  startSubmissionFrom : Option String
  startSubmissionNonce : Option Nat
  startSubmissionOutcome : Option Outcome
  startRetry : Option RetryIdentity
  startResolutionBlock : Nat
  transactionHashes : List String
  transactionAttempts : List StartAttempt
  startReplacementTransactionHashes : List String
  dismissedStartSubmissionClaims : List PastClaim
  supersededStartSubmissionClaims : List PastClaim
  ambiguousStartReplacements : List PastClaim
  resolvedStartClaims : List PastClaim
  resolvedStartTransactionHistory : List Archive
  preparedWithdrawal : Plan
deriving DecidableEq

/-- The claim that a tab was given. -/
structure Submission where
  submissionId : String
  operationId : Option String
deriving DecidableEq

end Types

section Eligibility

variable (record : Record)

/-- `backgroundHasTransactions`. -/
def backgroundHasTransactions : Bool :=
  !record.transactionHashes.isEmpty || !record.transactionAttempts.isEmpty ||
    record.preparedWithdrawal.submissionId.isSome ||
    !record.preparedWithdrawal.transactionHashes.isEmpty ||
    !record.preparedWithdrawal.transactionAttempts.isEmpty || record.hasFinalization ||
    record.startRecoveryPending || record.startSubmissionId.isSome || record.startRetry.isSome ||
    !record.supersededStartSubmissionClaims.isEmpty || !record.ambiguousStartReplacements.isEmpty

/-- An outcome that leaves open whether the wallet has sent something. -/
def Outcome.isOpen : Outcome → Bool
  | .rejectedBeforeBroadcast | .resolved => false
  | _ => true

/-- `isUnsubmittedParkedMutualWithdrawal`, beyond `backgroundHasTransactions`. -/
def hasSubmissionEvidence : Bool :=
  record.startSubmissionFrom.isSome || record.startSubmissionNonce.isSome ||
    record.preparedWithdrawal.submissionFrom.isSome ||
    record.preparedWithdrawal.submissionNonce.isSome ||
    !record.preparedWithdrawal.ambiguousReplacements.isEmpty ||
    record.preparedWithdrawal.replacementOf.any (!·.isEmpty) ||
    record.startSubmissionOutcome.any Outcome.isOpen ||
    record.preparedWithdrawal.submissionOutcome.any Outcome.isOpen

/-- `assertBrowserBackgroundWithdrawalAvailable`; `isFree` says that the note is not
selected and has no late attempt. -/
def isAvailable (isFree : Bool) : Bool :=
  record.noteId.isSome && record.hasPlan && record.isMutual &&
    (record.phase == .parked || record.phase == .restored) &&
    !backgroundHasTransactions record && !record.hasBlocks &&
    record.chainStatus != .pendingWithdrawal && record.chainStatus != .closed &&
    (record.preparedWithdrawal.phase == .reserving ||
      record.preparedWithdrawal.phase == .prepared) &&
    !hasSubmissionEvidence record && isFree

/-- `isBrowserBackgroundWithdrawalPreparationCancelable`. -/
def isPreparationCancelable (isFree : Bool) : Bool :=
  let plan := record.preparedWithdrawal
  record.independentWithdrawal && plan.submissionNonceJournalRequired &&
    record.phase == .submittedUnconfirmed && plan.phase == .awaitingWallet &&
    record.startSubmissionOutcome == some .awaitingWallet &&
    plan.submissionOutcome == some .awaitingWallet &&
    record.startSubmissionId.isSome && record.startOperationId.isSome &&
    record.startSubmissionId == plan.submissionId && record.startOperationId == plan.operationId &&
    record.startResolutionBlock == 0 && record.resolvedStartClaims.isEmpty &&
    plan.submissionFrom.isNone && plan.submissionNonce.isNone &&
    record.startSubmissionFrom.isNone && record.startSubmissionNonce.isNone &&
    record.startRetry.isNone &&
    isAvailable { record with
      phase := .parked
      startSubmissionId := none
      startRecoveryPending := false
      startSubmissionOutcome := some .rejectedBeforeBroadcast
      preparedWithdrawal := { plan with
        phase := .prepared
        submissionId := none
        submissionOutcome := some .rejectedBeforeBroadcast } } isFree

/-- `assertBackgroundClaim`. -/
def isClaimedBy (submission : Submission) : Bool :=
  record.startSubmissionId == some submission.submissionId &&
    record.startOperationId == submission.operationId &&
    record.preparedWithdrawal.submissionId == some submission.submissionId &&
    record.preparedWithdrawal.operationId == submission.operationId

end Eligibility

section Operations

variable (record : Record)

def claimBrowserBackgroundWithdrawalSubmission (expectedOperationId submissionId : String)
    (isFree : Bool) : Except String Record :=
  let plan := record.preparedWithdrawal
  if isAvailable record isFree = false then
    .error "Check this saved withdrawal before preparing another transaction."
  else if plan.operationId ≠ some expectedOperationId ∨ plan.hasProof = false ∨
      plan.phase ≠ .prepared then
    .error "The saved withdrawal proof changed before its wallet request."
  else .ok { record with
    phase := .submittedUnconfirmed
    startRecoveryPending := true
    startOperationId := plan.operationId
    startSubmissionId := some submissionId
    startSubmissionOutcome := some .awaitingWallet
    preparedWithdrawal := { plan with
      phase := .awaitingWallet
      submissionId := some submissionId
      submissionOutcome := some .awaitingWallet
      submissionNonceJournalRequired := true } }

def rememberBrowserBackgroundWithdrawalMetadata (submission : Submission) (sender : String)
    (nonce : Nat) : Except String Record :=
  if hasDigits 40 sender = false then .error "The withdrawal transaction metadata is invalid."
  else if isClaimedBy record submission = false then
    .error "The saved withdrawal wallet claim changed."
  else if record.startSubmissionFrom.isSome ∧ (record.startSubmissionFrom ≠ some (lowerCase sender) ∨
      record.startSubmissionNonce ≠ some nonce) then .error "The saved wallet nonce changed."
  else .ok { record with
    startSubmissionFrom := some (lowerCase sender)
    startSubmissionNonce := some nonce
    preparedWithdrawal := { record.preparedWithdrawal with
      submissionFrom := some (lowerCase sender)
      submissionNonce := some nonce } }

def markBrowserBackgroundWithdrawalAmbiguous (submission : Submission) : Except String Record :=
  if isClaimedBy record submission = false then .error "The saved withdrawal wallet claim changed."
  else .ok { record with
    startSubmissionOutcome := some .ambiguous
    preparedWithdrawal := { record.preparedWithdrawal with
      phase := .ambiguous
      submissionOutcome := some .ambiguous } }

/-- The plan without its prompt. -/
def Plan.withoutClaim (plan : Plan) : Plan :=
  { plan with
    submissionId := none
    submissionFrom := none
    submissionNonce := none
    submissionNonceJournalRequired := false }

/-- The record without its prompt, and its plan without it as well. -/
def Record.withoutClaim : Record :=
  { record with
    startSubmissionId := none
    startOperationId := none
    startSubmissionFrom := none
    startSubmissionNonce := none
    preparedWithdrawal := record.preparedWithdrawal.withoutClaim }

def releaseBrowserBackgroundWithdrawalSubmission (submission : Submission) (requireNoNonce : Bool)
    (isFree : Bool) : Except String Record :=
  if isClaimedBy record submission = false then .error "The saved withdrawal wallet claim changed."
  else if requireNoNonce = true ∧ isPreparationCancelable record isFree = false then
    .error ("This withdrawal may already have reached MetaMask. Check its status instead of " ++
      "canceling its preparation.")
  else
    let next := record.withoutClaim
    let unresolved := backgroundHasTransactions { next with startRecoveryPending := false }
    .ok { next with
      dismissedStartSubmissionClaims := lastEight (record.dismissedStartSubmissionClaims ++
        [⟨some submission.submissionId, submission.operationId, record.startSubmissionFrom,
          record.startSubmissionNonce⟩])
      startSubmissionOutcome := some .rejectedBeforeBroadcast
      startRecoveryPending := unresolved
      phase := if unresolved then .submittedUnconfirmed else .parked
      preparedWithdrawal := { next.preparedWithdrawal with
        phase := if unresolved then .submitted else .prepared
        submissionOutcome := some .rejectedBeforeBroadcast } }

/-- The sender and the nonce of the live claim. -/
def Record.liveIdentity : Option (String × Nat) :=
  record.startSubmissionFrom.bind fun sender => record.startSubmissionNonce.map fun nonce =>
    (sender, nonce)

/-- The sender and the nonce that a replacement takes over. -/
def claimIdentity : Option (String × Nat) :=
  if record.startSubmissionId.isSome then
    (record.liveIdentity.filter fun identity => hasDigits 40 identity.1).map fun identity =>
      (lowerCase identity.1, identity.2)
  else (record.startRetry.filter fun retry => hasDigits 40 retry.sender).map fun retry =>
    (lowerCase retry.sender, retry.nonce)

/-- The dropped transactions of the plan that may be replaced. -/
def replacementHashes : List String :=
  (record.startReplacementTransactionHashes.map lowerCase).filter fun hash =>
    (record.transactionHashes.map lowerCase).contains hash &&
      (record.preparedWithdrawal.transactionHashes.map lowerCase).contains hash

def replacementIdentities : List (String × Nat) :=
  match claimIdentity record with
  | some identity => [identity]
  | none => ((record.transactionAttempts.filter fun attempt =>
      (replacementHashes record).contains (lowerCase attempt.hash) &&
        attempt.claim.operationId == record.preparedWithdrawal.operationId &&
        attempt.claim.sender.any (hasDigits 40)).map fun attempt =>
          (lowerCase (attempt.claim.sender.getD ""), attempt.claim.nonce.getD 0)).eraseDups

/-- The live claim, as it is kept when another prompt takes it over. -/
def Record.supersededClaim : List PastClaim :=
  record.startSubmissionId.toList.map fun submissionId =>
    ⟨some submissionId, record.startOperationId, record.startSubmissionFrom,
      record.startSubmissionNonce⟩

def claimBrowserWithdrawalStartReplacement (submissionId operationId expectedFrom : String) :
    Except String Record :=
  let plan := record.preparedWithdrawal
  let identity := claimIdentity record
  let isEligible := record.startSubmissionOutcome = some .receiptMissing ∨
    record.startSubmissionOutcome = some .replacementResultUnknown
  if record.noteId = none ∨ record.hasPlan = false ∨ record.startRecoveryPending = false ∨
      record.phase ≠ .submittedUnconfirmed ∨ record.chainStatus ≠ .active ∨
      (¬ isEligible ∧ identity = none) then
    .error "Check the background withdrawal before replacing its transaction."
  else if plan.hasProof = false then
    .error "The retained background withdrawal proof is incomplete."
  else if record.startSubmissionId.isSome ∧ identity.isSome ∧
      (plan.submissionId ≠ record.startSubmissionId ∨
        (record.startOperationId.or plan.operationId) ≠ plan.operationId) then
    .error "The background wallet claim does not match its retained withdrawal proof."
  else if record.startSubmissionId = none ∧ identity.isSome ∧
      (record.startRetry.bind RetryIdentity.operationId) ≠ plan.operationId then
    .error "The saved background retry does not match its retained withdrawal proof."
  else if identity = none ∧ replacementHashes record = [] then
    .error ("The dropped transaction does not match the retained withdrawal proof. Cancel or " ++
      "speed it up in MetaMask, then check again.")
  else match replacementIdentities record with
    | [(sender, nonce)] =>
        if hasDigits 40 expectedFrom = false ∨ sender ≠ lowerCase expectedFrom then
          .error s!"Connect the MetaMask account {sender} that submitted this withdrawal."
        else
          let operationId := (plan.operationId.or record.startOperationId).getD operationId
          .ok { record with
            preparedWithdrawal := { plan with
              phase := .awaitingWallet
              operationId := some operationId
              submissionOutcome := some .replacementAwaitingWallet
              submissionId := some submissionId
              submissionFrom := some sender
              submissionNonce := some nonce
              submissionNonceJournalRequired := true
              replacementOf := if identity.isSome then
                plan.replacementOf.or (some (plan.transactionHashes.map lowerCase).eraseDups)
                else some (replacementHashes record).eraseDups }
            startOperationId := some operationId
            startSubmissionId := some submissionId
            startSubmissionFrom := some sender
            startSubmissionNonce := some nonce
            startSubmissionOutcome := some .replacementAwaitingWallet
            supersededStartSubmissionClaims := if record.startSubmissionId.isSome then
              lastEight (record.supersededStartSubmissionClaims ++ record.supersededClaim)
              else record.supersededStartSubmissionClaims
            startRetry := none }
    | [] => .error ("The background withdrawal has no replacement nonce. Check its transaction " ++
        "status first.")
    | _ => .error ("The background withdrawal has more than one wallet nonce. Cancel or speed up " ++
        "those transactions in MetaMask, then check again.")

def PastClaim.isOf (claim : PastClaim) (submission : Submission) : Bool :=
  claim.submissionId == some submission.submissionId &&
    claim.operationId == submission.operationId

/-- The claims of an archive that a late hash may belong to. -/
def Archive.claims (archive : Archive) : List PastClaim :=
  archive.resolvedClaims ++ archive.transactionAttempts.map StartAttempt.claim

/-- A saved claim agrees with what the wallet says that it sent. -/
def PastClaim.fits (claim : PastClaim) (sender : String) (nonce : Nat) : Bool :=
  claim.sender.all (fun saved => lowerCase saved == lowerCase sender) &&
    claim.nonce.all fun saved => saved == nonce

def Archive.withLateHash (archive : Archive) (hash : String) : Archive :=
  if hash ∈ archive.transactionHashes ++ archive.lateObservedHashes then archive
  else { archive with lateObservedHashes := archive.lateObservedHashes ++ [hash] }

/-- The claims that are over and not archived. -/
def Record.priorClaims : List PastClaim :=
  record.dismissedStartSubmissionClaims ++ record.supersededStartSubmissionClaims ++
    record.ambiguousStartReplacements ++ record.transactionAttempts.map StartAttempt.claim

def Record.isActive (submission : Submission) : Bool :=
  record.startSubmissionId == some submission.submissionId &&
    record.startOperationId == submission.operationId

/-- What is saved of the claim, live or over. -/
def Record.savedClaim (submission : Submission) : Option PastClaim :=
  if record.isActive submission then
    some ⟨some submission.submissionId, submission.operationId, record.startSubmissionFrom,
      record.startSubmissionNonce⟩
  else record.priorClaims.find? fun claim => claim.isOf submission

/-- The record with a hash of a claim that is not archived. -/
def Record.withHash (submission : Submission) (hash sender : String) (nonce : Nat) : Record :=
  let plan := record.preparedWithdrawal
  let hashes := (record.transactionHashes ++ [lowerCase hash]).eraseDups
  let attempts := (record.transactionAttempts.filter fun attempt =>
    attempt.hash != lowerCase hash) ++ [⟨lowerCase hash, some submission.submissionId,
      submission.operationId, some (lowerCase sender), some nonce⟩]
  let next : Record := { record with
    transactionHashes := hashes
    transactionAttempts := attempts
    phase := if record.phase = .closed ∨ record.phase = .closedUnconfirmed then record.phase
      else .submittedUnconfirmed
    startRecoveryPending := record.phase != .closed
    preparedWithdrawal := if plan.operationId = submission.operationId then { plan with
        transactionHashes := hashes
        transactionAttempts := attempts
        phase := .submitted
        submissionOutcome := some .submitted }
      else plan }
  if record.isActive submission then
    { next.withoutClaim with startSubmissionOutcome := some .submitted }
  else next

/-- The sender and the nonce of a late transaction: what the wallet says, or what was
saved. -/
def lateIdentity (claim : PastClaim) (metadata : Option (String × Nat)) : Option (String × Nat) :=
  metadata.or (claim.sender.bind fun sender => claim.nonce.map fun nonce => (sender, nonce))

def rememberBrowserBackgroundWithdrawalTransaction (hash : String) (submission : Submission)
    (metadata : Option (String × Nat)) : Except String Record :=
  if hasDigits 64 hash = false then
    .error "MetaMask returned an invalid withdrawal transaction hash."
  else
    let archives := record.resolvedStartTransactionHistory
    match archives.findIdx? fun archive => archive.claims.any fun claim => claim.isOf submission with
    | some place =>
        let claim := (archives[place]?).bind fun archive =>
          archive.claims.find? fun claim => claim.isOf submission
        if claim.any (fun claim => claim.sender.any (hasDigits 40) && claim.nonce.isSome &&
            metadata.all fun identity => claim.fits identity.1 identity.2) then
          -- a hash of a finalized nonce is only written down
          .ok { record with
            resolvedStartTransactionHistory := archives.modify place fun archive =>
              archive.withLateHash (lowerCase hash) }
        else .error "The late transaction does not match its finalized wallet nonce."
    | none => match record.savedClaim submission with
      | none => .error "The transaction does not belong to a saved withdrawal claim."
      | some claim => match lateIdentity claim metadata with
        | none => .error "The transaction does not match its saved wallet nonce."
        | some (sender, nonce) =>
            if hasDigits 40 sender = false ∨ claim.fits sender nonce = false then
              .error "The transaction does not match its saved wallet nonce."
            else .ok (record.withHash submission hash sender nonce)

end Operations

end ZkApi.Browser.Background
