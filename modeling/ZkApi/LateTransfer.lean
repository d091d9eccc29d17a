import ZkApi.EscapeFinalization

/-!
# Transfer of a late withdrawal

A transaction that the wallet reported late can turn out to close or to hold a note.  Its
note then moves to a background record, with what the record, the selected plan and the
late attempts know of its transactions and of its wallet prompt.  The transfer is one
transaction on the runtime and the record.
-/

namespace ZkApi.Browser.LateTransfers

open Expiry Escape Indexer

section Types

/-- A nonce as it is saved: absent, `null` or a number. -/
inductive SavedNonce where
  | missing
  | null
  | number (value : Nat)
deriving DecidableEq

/-- The note of a deployment. -/
structure NoteIdentity where
  deploymentId : String
  chainId : Nat
  contractAddress : String
  noteId : Nat
deriving DecidableEq

/-- What is recorded of a transaction. -/
structure Entry where
  hash : String
  operationId : Option String
  submissionId : Option String
  sender : Option String
  nonce : SavedNonce
deriving DecidableEq

structure Plan where
  isMutual : Bool
  clearanceReserved : Bool
  withdrawalNullifier : Option String
  operationId : Option String
  submissionId : Option String
  submissionFrom : Option String
  submissionNonce : SavedNonce
  submissionNonceJournalRequired : Bool
  transactionHashes : List String
  transactionAttempts : List Entry
deriving DecidableEq

inductive LateStatus where
  | closed
  | detached
  | reverted
  | challenged
  | superseded
  | quarantined
  | unresolved (name : String)
deriving DecidableEq

structure LateAttempt where
  note : NoteIdentity
  operationId : Option String
  submissionId : Option String
  transactionHash : String
  sender : Option String
  nonce : SavedNonce
  status : LateStatus
  clearanceReserved : Bool
  withdrawalNullifier : Option String
deriving DecidableEq

/-- The runtime: the note of its state, and whether other operations are under way. -/
structure Runtime where
  noteId : Option Nat
  hasJournal : Bool
  hasLease : Bool
  hasPendingDeposit : Bool
  preparedWithdrawal : Option Plan
  lateWithdrawalAttempts : List LateAttempt
deriving DecidableEq

/-- The durable record of the note; `noteId` is that of its state. -/
structure Record where
  noteId : Option Nat
  preparedWithdrawal : Option Plan
  transactionHashes : List String
  transactionAttempts : List Entry
  startRecoveryPending : Bool
  startSubmissionId : Option String
  startOperationId : Option String
  startSubmissionFrom : Option String
  startSubmissionNonce : SavedNonce
  dismissedStartSubmissionClaims : List (Option String × Option String)
  clearanceReserved : Bool
  withdrawalNullifier : Option String
deriving DecidableEq

inductive TransferPhase where
  | pending
  | submittedUnconfirmed
  | challengedUnconfirmed
  | closedUnconfirmed
deriving DecidableEq

/-- What the caller asks for; another phase is refused before. -/
structure Transfer where
  note : NoteIdentity
  operationId : String
  transactionHash : String
  phase : TransferPhase
  clearanceReserved : Bool
  withdrawalNullifier : Option String
deriving DecidableEq

end Types

section Pieces

/-- `Number(nonce)`, or `null` when that is no safe integer; `Number(null)` is zero. -/
def SavedNonce.coerced : SavedNonce → SavedNonce
  | .missing => .null
  | .null => .number 0
  | .number value => .number value

/-- `first ?? second`. -/
def SavedNonce.orElse : SavedNonce → SavedNonce → SavedNonce
  | .number value, _ => .number value
  | _, second => second

/-- The value of a nonce that is known. -/
def SavedNonce.known : SavedNonce → Option Nat
  | .number value => some value
  | _ => none

/-- `LATE_WITHDRAWAL_TERMINAL_STATUSES`. -/
def LateStatus.isTerminal : LateStatus → Bool
  | .unresolved _ => false
  | _ => true

def NoteIdentity.same (note other : NoteIdentity) : Bool :=
  note.deploymentId == other.deploymentId && note.chainId == other.chainId &&
    lowerCase note.contractAddress == lowerCase other.contractAddress &&
    note.noteId == other.noteId

def Record.blank : Record where
  noteId := none
  preparedWithdrawal := none
  transactionHashes := []
  transactionAttempts := []
  startRecoveryPending := false
  startSubmissionId := none
  startOperationId := none
  startSubmissionFrom := none
  startSubmissionNonce := .missing
  dismissedStartSubmissionClaims := []
  clearanceReserved := false
  withdrawalNullifier := none

/-- A sender, if it is an address. -/
def validSender (sender : Option String) : Option String :=
  (sender.filter (hasDigits 40)).map lowerCase

/-- What a transfer records of a late attempt. -/
def LateAttempt.entry (attempt : LateAttempt) : Entry where
  hash := lowerCase attempt.transactionHash
  operationId := attempt.operationId
  submissionId := attempt.submissionId
  sender := validSender attempt.sender
  nonce := attempt.nonce.coerced

def Plan.withoutClaim (plan : Plan) : Plan :=
  { plan with
    submissionId := none
    submissionFrom := none
    submissionNonce := .missing
    submissionNonceJournalRequired := false }

/-- The plan after the hash of its own prompt. -/
def Plan.submitted (plan : Plan) (hash : String) (attempt : LateAttempt) : Plan :=
  { plan.withoutClaim with
    transactionHashes := ((plan.transactionHashes ++ [hash]).map lowerCase).eraseDups
    transactionAttempts := (plan.transactionAttempts.filter fun entry =>
      lowerCase entry.hash != hash) ++ [{ attempt.entry with hash := hash }] }

/-- Put an entry in its place by its hash, as a `Map` does. -/
def putEntry (kept : List Entry) (entry : Entry) : List Entry :=
  if kept.any fun old => old.hash == entry.hash then
    kept.map fun old => if old.hash == entry.hash then entry else old
  else kept ++ [entry]

/-- The entries with a valid hash, one for each hash, the last one. -/
def mergeEntries (entries : List Entry) : List Entry :=
  ((entries.filter fun entry => hasDigits 64 entry.hash).map fun entry =>
    { entry with hash := lowerCase entry.hash }).foldl putEntry []

end Pieces

section Transfers

variable (transfer : Transfer) (runtime : Runtime) (existing : Option Record)

def Transfer.isOf (attempt : LateAttempt) : Bool :=
  attempt.operationId == some transfer.operationId &&
    lowerCase attempt.transactionHash == lowerCase transfer.transactionHash &&
    attempt.note.same transfer.note

def Transfer.attempt? : Option LateAttempt :=
  runtime.lateWithdrawalAttempts.find? transfer.isOf

def Transfer.selectedOwns : Bool :=
  runtime.noteId == some transfer.note.noteId

def Transfer.backgroundOwns : Bool :=
  (existing.bind Record.noteId) == some transfer.note.noteId

/-- `aggregatesUnconfirmedStarts`. -/
def Transfer.aggregates : Bool :=
  transfer.phase == .submittedUnconfirmed || transfer.selectedOwns runtime ||
    existing.any Record.startRecoveryPending

def preparedSource : Option Plan :=
  (existing.bind Record.preparedWithdrawal).or runtime.preparedWithdrawal

/-- The late attempt has the hash of the live claim. -/
def resolvesStartClaim (attempt : LateAttempt) : Bool :=
  let old := existing.getD .blank
  old.startSubmissionId.isSome && old.startSubmissionId == attempt.submissionId &&
    (old.startOperationId.or
      ((preparedSource runtime existing).bind Plan.operationId)) == attempt.operationId

/-- The plan, with the hash of its prompt if the attempt has it. -/
def Transfer.submittedPlan (attempt : LateAttempt) : Option Plan :=
  (preparedSource runtime existing).map fun plan =>
    if resolvesStartClaim runtime existing attempt &&
        plan.submissionId == attempt.submissionId then
      plan.submitted (lowerCase transfer.transactionHash) attempt
    else plan

/-- A prompt that has no nonce yet can no longer be sent. -/
def Plan.isBeforeNonce (plan : Plan) : Bool :=
  plan.submissionId.isSome && plan.submissionNonceJournalRequired &&
    (!plan.submissionFrom.any (hasDigits 40) || plan.submissionNonce.coerced.known.isNone)

/-- `migratedPreNonceClaim`. -/
def Transfer.migrates (attempt : LateAttempt) : Bool :=
  transfer.aggregates runtime existing &&
    (transfer.submittedPlan runtime existing attempt).any Plan.isBeforeNonce

/-- The plan of the record. -/
def Transfer.plan (attempt : LateAttempt) : Option Plan :=
  (transfer.submittedPlan runtime existing attempt).map fun plan =>
    if transfer.migrates runtime existing attempt then plan.withoutClaim else plan

/-- The attempts of the note that are not over. -/
def Transfer.unresolved : List LateAttempt :=
  runtime.lateWithdrawalAttempts.filter fun attempt =>
    attempt.note.same transfer.note && !attempt.status.isTerminal

/-- `relatedLateAttempts`. -/
def Transfer.related (attempt : LateAttempt) : List LateAttempt :=
  if transfer.aggregates runtime existing then transfer.unresolved runtime else [attempt]

/-- What the record takes from its plan. -/
def Transfer.planned (attempt : LateAttempt) : Option Plan :=
  if transfer.aggregates runtime existing then transfer.plan runtime existing attempt else none

/-- The claim that the record takes from its plan or keeps. -/
def Transfer.claimed (attempt : LateAttempt) (record : Record) : Record :=
  let old := existing.getD .blank
  let plan := transfer.planned runtime existing attempt
  if resolvesStartClaim runtime existing attempt then
    { record with
      startSubmissionId := none
      startOperationId := none
      startSubmissionFrom := none
      startSubmissionNonce := .missing }
  else
    { record with
      startSubmissionId := (plan.bind Plan.submissionId).or old.startSubmissionId
      startOperationId := (plan.bind Plan.operationId).or old.startOperationId
      startSubmissionFrom := (plan.bind Plan.submissionFrom).or old.startSubmissionFrom
      startSubmissionNonce :=
        ((plan.map Plan.submissionNonce).getD .missing).orElse old.startSubmissionNonce }

/-- `durableRecord`. -/
def Transfer.durableRecord (attempt : LateAttempt) : Record :=
  let old := existing.getD .blank
  let plan := transfer.plan runtime existing attempt
  let planned := transfer.planned runtime existing attempt
  let related := transfer.related runtime existing attempt
  transfer.claimed runtime existing attempt { old with
    noteId := old.noteId.or runtime.noteId
    preparedWithdrawal := plan
    transactionHashes := ((old.transactionHashes ++
      (planned.map Plan.transactionHashes).getD [] ++ related.map LateAttempt.transactionHash ++
      [transfer.transactionHash]).map lowerCase).eraseDups
    transactionAttempts := mergeEntries (old.transactionAttempts ++
      (planned.map Plan.transactionAttempts).getD [] ++ related.map LateAttempt.entry)
    startRecoveryPending := transfer.aggregates runtime existing || old.startRecoveryPending
    dismissedStartSubmissionClaims := if transfer.migrates runtime existing attempt then
      lastEight (old.dismissedStartSubmissionClaims ++
        ((transfer.submittedPlan runtime existing attempt).map fun plan =>
          (plan.submissionId, plan.operationId)).toList)
      else old.dismissedStartSubmissionClaims
    clearanceReserved := old.clearanceReserved || plan.any (fun plan =>
      plan.clearanceReserved || plan.isMutual) || attempt.clearanceReserved ||
        transfer.clearanceReserved
    withdrawalNullifier := old.withdrawalNullifier.or ((plan.bind Plan.withdrawalNullifier).or
      (attempt.withdrawalNullifier.or transfer.withdrawalNullifier)) }

/-- A late attempt of the note is over; the one of the transfer says how. -/
def Transfer.resolveEntry (place : Nat) (entry : LateAttempt) : LateAttempt :=
  if some place = runtime.lateWithdrawalAttempts.findIdx? transfer.isOf then
    { entry with status := if transfer.phase = .closedUnconfirmed then .closed else .detached }
  else if entry.note.same transfer.note && !entry.status.isTerminal then
    { entry with
      status := if transfer.aggregates runtime existing then .detached else .superseded }
  else entry

def Transfer.resolved : List LateAttempt :=
  runtime.lateWithdrawalAttempts.mapIdx (transfer.resolveEntry runtime existing)

/-- The last attempts of a history. -/
def lastThirtyTwo (attempts : List LateAttempt) : List LateAttempt :=
  attempts.drop (attempts.length - 32)

def Transfer.nextRuntime : Runtime :=
  let attempts := transfer.resolved runtime existing
  let kept := lastThirtyTwo (attempts.filter fun entry => entry.status.isTerminal) ++
    attempts.filter fun entry => !entry.status.isTerminal
  if transfer.selectedOwns runtime then
    { runtime with
      noteId := none
      hasJournal := false
      hasLease := false
      preparedWithdrawal := none
      lateWithdrawalAttempts := kept }
  else { runtime with lateWithdrawalAttempts := kept }

/-- A transfer of an attempt that is over writes nothing. -/
def transferBrowserLateWithdrawalAttempt : Except String (Option (Runtime × Record)) :=
  if hasDigits 64 transfer.transactionHash = false then
    .error "The late withdrawal transfer is missing its durable identity."
  else match transfer.attempt? runtime with
    | none => .error "The late withdrawal changed before it could be transferred."
    | some attempt =>
        if attempt.status.isTerminal then .ok none
        else if transfer.selectedOwns runtime = false ∧ transfer.backgroundOwns existing = false then
          .error ("The private note recovery material is not available for this late " ++
            "withdrawal.")
        else if transfer.selectedOwns runtime ∧
            (runtime.hasJournal || runtime.hasLease || runtime.hasPendingDeposit) then
          .error ("An in-flight private-balance operation must finish before this withdrawal " ++
            "can move to the background.")
        else .ok (some (transfer.nextRuntime runtime existing,
          transfer.durableRecord runtime existing attempt))

end Transfers

end ZkApi.Browser.LateTransfers
