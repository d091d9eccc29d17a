import ZkApi.BackgroundRecovery
import ZkApi.LateTransfer

/-!
# What else changes a background withdrawal

A sync writes down what it reads of the vault, and clears the record when its close is
final: all claims that it knows go to one last archive.  A late transaction of a prompt that
replaced another is transferred to the record from the runtime.
-/

namespace ZkApi.Browser.Background

open Expiry Escape

section Types

/-- What a sync, a finalization or a repair writes of a record. -/
structure Standing where
  phase : Phase
  chainStatus : ChainStatus
  isMutual : Bool
  hasFinalization : Bool
  hasBlocks : Bool
deriving DecidableEq

end Types

section Closes

variable (record : Record)

def Record.standing (standing : Standing) : Record :=
  { record with
    phase := standing.phase
    chainStatus := standing.chainStatus
    isMutual := standing.isMutual
    hasFinalization := standing.hasFinalization
    hasBlocks := standing.hasBlocks }

/-- The claims that a close archives. -/
def Record.closingClaims : List PastClaim :=
  let plan := record.preparedWithdrawal
  let live : List PastClaim :=
    [⟨record.startSubmissionId, record.startOperationId, record.startSubmissionFrom,
        record.startSubmissionNonce⟩,
      ⟨plan.submissionId, plan.operationId, plan.submissionFrom, plan.submissionNonce⟩]
  (live ++ record.resolvedStartClaims ++ record.dismissedStartSubmissionClaims ++
    record.supersededStartSubmissionClaims ++ record.ambiguousStartReplacements).filter fun claim =>
      claim.submissionId.isSome && claim.operationId.isSome

/-- What a close archives. -/
def Record.closingArchive : Archive where
  transactionHashes := record.transactionHashes.eraseDups
  lateObservedHashes := []
  resolvedClaims := record.closingClaims
  transactionAttempts :=
    record.transactionAttempts ++ record.preparedWithdrawal.transactionAttempts

/-- The record without its live claims. -/
def Record.closed : Record :=
  { record with
    resolvedStartTransactionHistory :=
      record.resolvedStartTransactionHistory ++ [record.closingArchive]
    startRecoveryPending := false
    startSubmissionId := none
    startOperationId := none
    startSubmissionFrom := none
    startSubmissionNonce := none
    startSubmissionOutcome := none
    startRetry := none
    startReplacementTransactionHashes := []
    supersededStartSubmissionClaims := []
    ambiguousStartReplacements := []
    resolvedStartClaims := [] }

/-- The record without the private state of its note. -/
def Record.sanitized : Record :=
  { record with
    noteId := none
    hasPlan := false
    hasFinalization := false
    preparedWithdrawal := .blank }

def updateBrowserWithdrawal (standing : Standing) (sanitize : Bool) : Except String Record :=
  if record.phase = .closed ∧ standing.phase ≠ .closed then
    .error "A completed withdrawal cannot return to an earlier phase."
  else
    let next := record.standing standing
    if sanitize then .ok (if standing.phase = .closed then next.closed else next).sanitized
    else .ok next

end Closes

section Readings

/-- A nonce as a transfer reads it. -/
def savedNonce (nonce : Option Nat) : LateTransfers.SavedNonce :=
  (nonce.map LateTransfers.SavedNonce.number).getD .missing

def StartAttempt.entry (attempt : StartAttempt) : LateTransfers.Entry :=
  ⟨attempt.hash, attempt.claim.operationId, attempt.claim.submissionId, attempt.claim.sender,
    savedNonce attempt.claim.nonce⟩

def attemptOf (entry : LateTransfers.Entry) : StartAttempt :=
  ⟨entry.hash, entry.submissionId, entry.operationId, entry.sender, entry.nonce.known⟩

/-- The plan as a transfer reads it, without its clearance. -/
def Plan.late (plan : Plan) : LateTransfers.Plan where
  isMutual := false
  clearanceReserved := false
  withdrawalNullifier := none
  operationId := plan.operationId
  submissionId := plan.submissionId
  submissionFrom := plan.submissionFrom
  submissionNonce := savedNonce plan.submissionNonce
  submissionNonceJournalRequired := plan.submissionNonceJournalRequired
  transactionHashes := plan.transactionHashes
  transactionAttempts := plan.transactionAttempts.map StartAttempt.entry

variable (record : Record)

/-- The record as a transfer reads it, without its clearance. -/
def Record.late : LateTransfers.Record where
  noteId := record.noteId
  preparedWithdrawal := if record.hasPlan then some record.preparedWithdrawal.late else none
  transactionHashes := record.transactionHashes
  transactionAttempts := record.transactionAttempts.map StartAttempt.entry
  startRecoveryPending := record.startRecoveryPending
  startSubmissionId := record.startSubmissionId
  startOperationId := record.startOperationId
  startSubmissionFrom := record.startSubmissionFrom
  startSubmissionNonce := savedNonce record.startSubmissionNonce
  dismissedStartSubmissionClaims := record.dismissedStartSubmissionClaims.map fun claim =>
    (claim.submissionId, claim.operationId)
  clearanceReserved := false
  withdrawalNullifier := none

end Readings

section Transfers

/-- A late transaction that is transferred to the record, with the runtime, its selected plan
and what the caller says of the record. -/
structure Merge where
  transfer : LateTransfers.Transfer
  runtime : LateTransfers.Runtime
  selected : Option Plan
  chainStatus : ChainStatus
  isMutual : Bool
  hasBlocks : Bool
deriving DecidableEq

variable (merge : Merge) (record : Record)

def TransferPhase.phase : LateTransfers.TransferPhase → Phase
  | .pending => .other "pending"
  | .submittedUnconfirmed => .submittedUnconfirmed
  | .challengedUnconfirmed => .other "challenged_unconfirmed"
  | .closedUnconfirmed => .closedUnconfirmed

/-- The runtime with its plan. -/
def Merge.reads : LateTransfers.Runtime :=
  { merge.runtime with preparedWithdrawal := merge.selected.map Plan.late }

/-- The plan that the record goes on with. -/
def Merge.source : Option Plan :=
  if record.hasPlan then some record.preparedWithdrawal else merge.selected

def Merge.resolves (attempt : LateTransfers.LateAttempt) : Bool :=
  LateTransfers.resolvesStartClaim merge.reads (some record.late) attempt

def Merge.migrates (attempt : LateTransfers.LateAttempt) : Bool :=
  merge.transfer.migrates merge.reads (some record.late) attempt

/-- The record that `LateTransfers` makes. -/
def Merge.made (attempt : LateTransfers.LateAttempt) : LateTransfers.Record :=
  merge.transfer.durableRecord merge.reads (some record.late) attempt

/-- The attempts of the record after the transfer. -/
def Merge.entries (attempt : LateTransfers.LateAttempt) : List StartAttempt :=
  (merge.made record attempt).transactionAttempts.map attemptOf

/-- The plan of the record, with what the transfer does not read of it. -/
def Merge.plan (attempt : LateTransfers.LateAttempt) (source : Plan) : Plan :=
  match (merge.made record attempt).preparedWithdrawal with
  | none => source
  | some plan =>
      let next := { source with
        submissionId := plan.submissionId
        submissionFrom := plan.submissionFrom
        submissionNonce := plan.submissionNonce.known
        submissionNonceJournalRequired := plan.submissionNonceJournalRequired
        transactionHashes := plan.transactionHashes
        transactionAttempts := plan.transactionAttempts.map attemptOf }
      if merge.migrates record attempt then { next with
        phase := if plan.transactionHashes.isEmpty then .prepared else .submitted
        submissionOutcome := some .rejectedBeforeBroadcast }
      else if merge.resolves record attempt && source.submissionId == attempt.submissionId then
        { next with phase := .submitted, submissionOutcome := some .submitted }
      else next

/-- Nothing of the record or its plan waits for a wallet any more. -/
def Merge.isQuiet (attempt : LateTransfers.LateAttempt) : Bool :=
  (merge.transfer.aggregates merge.reads (some record.late) || merge.resolves record attempt) &&
    ((merge.made record attempt).preparedWithdrawal.bind LateTransfers.Plan.submissionId).isNone &&
    (record.startSubmissionId.isNone || merge.resolves record attempt)

/-- `durableRecord`. -/
def Merge.durableRecord (attempt : LateTransfers.LateAttempt) : Record :=
  let made := merge.made record attempt
  let source := merge.source record
  { record with
    noteId := made.noteId
    hasPlan := source.isSome
    phase := TransferPhase.phase merge.transfer.phase
    chainStatus := merge.chainStatus
    isMutual := merge.isMutual
    hasBlocks := merge.hasBlocks
    preparedWithdrawal := (source.map (merge.plan record attempt)).getD record.preparedWithdrawal
    transactionHashes := made.transactionHashes
    transactionAttempts := merge.entries record attempt
    startRecoveryPending := made.startRecoveryPending
    startSubmissionId := made.startSubmissionId
    startOperationId := made.startOperationId
    startSubmissionFrom := made.startSubmissionFrom
    startSubmissionNonce := made.startSubmissionNonce.known
    startSubmissionOutcome := if merge.migrates record attempt then some .rejectedBeforeBroadcast
      else if merge.isQuiet record attempt then none else record.startSubmissionOutcome
    startReplacementTransactionHashes := if merge.isQuiet record attempt then []
      else record.startReplacementTransactionHashes
    startRetry := if merge.resolves record attempt then none else record.startRetry
    dismissedStartSubmissionClaims := if merge.migrates record attempt then
      lastEight (record.dismissedStartSubmissionClaims ++ (source.map fun plan =>
        ⟨plan.submissionId, plan.operationId, none, none⟩).toList)
      else record.dismissedStartSubmissionClaims }

/-- The attempt that is transferred. -/
def Merge.attempt? : Option LateTransfers.LateAttempt :=
  match LateTransfers.transferBrowserLateWithdrawalAttempt merge.transfer merge.reads
      (some record.late) with
  | .ok (some _) => merge.transfer.attempt? merge.reads
  | _ => none

/-- A transfer of an attempt that is over writes nothing. -/
def transferBrowserLateWithdrawalAttempt : Except String Record :=
  match LateTransfers.transferBrowserLateWithdrawalAttempt merge.transfer merge.reads
      (some record.late) with
  | .error message => .error message
  | .ok _ => .ok (((merge.attempt? record).map (merge.durableRecord record)).getD record)

end Transfers

end ZkApi.Browser.Background
