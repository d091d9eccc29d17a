import ZkApi.ClientTypes

/-!
# The store of the browser wallet

All tabs of one deployment share a store: the runtime of the selected note, the
records of withdrawals in the background and the archived notes.  Every change of
it is one transaction, which either throws and leaves the store as it is or takes
effect as a whole.
-/

namespace ZkApi.Browser

open Clientd

section Types

structure RequestJournal where
  nullifier : Felt252
  preparedRequest : ApiRequestV2
deriving DecidableEq

/-- What the store keeps of the lease that a tab owns. -/
structure LeaseRow where
  ownerId : String
  sessionId : String
  clientRequestId : String
  expiresAt : Nat
  settleAfter : Nat
  spendingLimit : Nat
deriving DecidableEq

structure PendingDeposit where
  nextNoteId : UInt32
  amount : Nat
  secret : Felt252
deriving DecidableEq

structure PreparedWithdrawal where
  mode : WithdrawalMode
  phase : String
  noteId : UInt32
  destination : Option String
  clearanceReserved : Bool
  submissionId : Option String
  transactionHashes : List String
deriving DecidableEq

/-- The server holds, or may hold, a clearance of the note. -/
def PreparedWithdrawal.isWithdrawalOnly (prepared : PreparedWithdrawal) : Bool :=
  prepared.clearanceReserved || prepared.mode == .mutual

structure LateWithdrawalAttempt where
  operationId : String
  transactionHash : String
  noteId : UInt32
  mode : WithdrawalMode
  destination : Option String
  clearanceReserved : Bool
  status : String
deriving DecidableEq

def lateWithdrawalTerminalStatuses : List String :=
  ["closed", "detached", "reverted", "challenged", "superseded", "quarantined"]

def LateWithdrawalAttempt.isTerminal (attempt : LateWithdrawalAttempt) : Bool :=
  lateWithdrawalTerminalStatuses.contains attempt.status

structure Runtime where
  state : Option NoteState
  journal : Option RequestJournal
  pendingDeposit : Option PendingDeposit
  preparedWithdrawal : Option PreparedWithdrawal
  lease : Option LeaseRow
  lateWithdrawalAttempts : List LateWithdrawalAttempt
deriving DecidableEq

/-- A withdrawal in the background; a sanitized one has no private state left. -/
structure WithdrawalRecord where
  noteId : UInt32
  mode : WithdrawalMode
  phase : String
  destination : Option String
  clearanceReserved : Bool
  state : Option NoteState
  preparedWithdrawal : Option PreparedWithdrawal
  startPending : Bool
  finalizePending : Bool
  closeBlockNumber : Nat
  revision : Nat
deriving DecidableEq

structure ArchivedNote where
  reason : String
  state : NoteState
  journal : Option RequestJournal
  lease : Option LeaseRow
deriving DecidableEq

structure Store where
  runtime : Runtime
  withdrawals : List WithdrawalRecord
  archives : List ArchivedNote
deriving DecidableEq

end Types

section Records

/-- The runtime without a selected note. -/
def Runtime.unselected (runtime : Runtime) : Runtime :=
  { runtime with
    state := none, journal := none, pendingDeposit := none, preparedWithdrawal := none,
    lease := none }

def unresolvedLateWithdrawalForNote (runtime : Runtime) (noteId : UInt32) : Bool :=
  runtime.lateWithdrawalAttempts.any fun attempt => attempt.noteId == noteId && !attempt.isTerminal

def Store.record? (store : Store) (noteId : UInt32) : Option WithdrawalRecord :=
  store.withdrawals.find? fun record => record.noteId == noteId

/-- Put a record in the place of the one with its id. -/
def putRecord (records : List WithdrawalRecord) (record : WithdrawalRecord) :
    List WithdrawalRecord :=
  record :: records.filter fun other => other.noteId != record.noteId

def deleteRecord (records : List WithdrawalRecord) (noteId : UInt32) : List WithdrawalRecord :=
  records.filter fun other => other.noteId != noteId

/-- No other operation on the selected note is unfinished. -/
def Runtime.isIdle (runtime : Runtime) : Bool :=
  runtime.journal.isNone && runtime.lease.isNone && runtime.pendingDeposit.isNone

/-- The new record of a note that leaves the selected slot. -/
def leavingRecord (runtime : Runtime) (state : NoteState) (mode : WithdrawalMode) (phase : String)
    (destination : Option String) (clearanceReserved : Bool) (closeBlockNumber : Nat) :
    WithdrawalRecord where
  noteId := state.noteId
  mode := mode
  phase := phase
  destination := destination
  clearanceReserved := clearanceReserved
  state := some state
  preparedWithdrawal := runtime.preparedWithdrawal
  startPending := false
  finalizePending := false
  closeBlockNumber := closeBlockNumber
  revision := 1

def Store.leave (store : Store) (record : WithdrawalRecord) : Store :=
  { store with
    runtime := store.runtime.unselected
    withdrawals := putRecord store.withdrawals record }

end Records

section Operations

variable (store : Store)

def archiveBrowserWallet (reason : String) (expectedNoteId : UInt32) (claimed : Bool) :
    Option Store :=
  match store.runtime.state with
  | none => none
  | some state =>
      if state.noteId ≠ expectedNoteId then none
      else if reason = "expiry-claimed" ∧ claimed = false then none
      else
        let kept := reason = "expiry-claimed"
        some { store with
          runtime := store.runtime.unselected
          archives := {
            reason := reason
            state := state
            journal := if kept then store.runtime.journal else none
            lease := if kept then store.runtime.lease else none } :: store.archives }

def detachBrowserEscapeWithdrawal (noteId : UInt32) (phase : String)
    (destination : Option String) : Option Store :=
  match store.runtime.state with
  | none => none
  | some state =>
      if state.noteId ≠ noteId ∨ store.runtime.isIdle = false then none
      else
        let reserved := store.runtime.preparedWithdrawal.any PreparedWithdrawal.clearanceReserved
        some (store.leave (leavingRecord store.runtime state .escape phase destination reserved 0))

def detachBrowserClosedWithdrawal (noteId : UInt32) (mode : WithdrawalMode)
    (destination : Option String) (closeBlockNumber : Nat) (clearanceReserved : Bool) :
    Option Store :=
  match store.runtime.state with
  | none => none
  | some state =>
      if state.noteId ≠ noteId ∨ closeBlockNumber = 0 ∨ store.runtime.isIdle = false then none
      else
        let reserved := store.runtime.preparedWithdrawal.any PreparedWithdrawal.isWithdrawalOnly ||
          clearanceReserved
        some (store.leave (leavingRecord store.runtime state mode "closed_unconfirmed" destination
          reserved closeBlockNumber))

/-- Set a withdrawal-only balance aside; the record takes the mode of its plan. -/
def parkBrowserWithdrawal : Option Store :=
  match store.runtime.state, store.runtime.preparedWithdrawal with
  | some state, some prepared =>
      if prepared.isWithdrawalOnly = false ∨ prepared.phase ∉ ["reserving", "prepared"] ∨
          prepared.submissionId.isSome ∨ prepared.transactionHashes ≠ [] ∨
          store.runtime.isIdle = false then none
      else some (store.leave (leavingRecord store.runtime state prepared.mode "parked"
        prepared.destination prepared.isWithdrawalOnly 0))
  | _, _ => none

/-- The plan that the restored note of a record is selected with. -/
def WithdrawalRecord.restoredPlan (record : WithdrawalRecord) : Option PreparedWithdrawal :=
  if record.mode = .mutual ∨ record.clearanceReserved = true then
    some {
      mode := (record.preparedWithdrawal.map PreparedWithdrawal.mode).getD record.mode
      phase := "prepared"
      noteId := record.noteId
      destination := record.destination
      clearanceReserved := true
      submissionId := none
      transactionHashes := [] }
  else none

def restoreBrowserWithdrawal (noteId : UInt32) (expectedRevision : Nat) : Option Store :=
  match store.record? noteId with
  | none => none
  | some record =>
      match record.state with
      | none => none
      | some state =>
          let withdrawalOnly := record.mode = .mutual ∨ record.clearanceReserved = true
          let runtime := store.runtime
          if record.revision ≠ expectedRevision ∨ state.noteId ≠ record.noteId ∨
              record.startPending = true ∨ record.finalizePending = true ∨
              unresolvedLateWithdrawalForNote runtime noteId = true ∨
              ¬ (record.phase = "restored" ∨ record.phase = "parked" ∧ withdrawalOnly) ∨
              runtime.isIdle = false ∨ runtime.state.isSome ∨
              runtime.preparedWithdrawal.isSome then none
          else some { store with
            runtime := { runtime with
              state := some state, preparedWithdrawal := record.restoredPlan }
            withdrawals := deleteRecord store.withdrawals noteId }

/-- Settle a late attempt of a note, and every other open one of that note. -/
def resolveAttempts (attempts : List LateWithdrawalAttempt) (attempt : LateWithdrawalAttempt)
    (status others : String) : List LateWithdrawalAttempt :=
  attempts.map fun entry =>
    if entry = attempt then { entry with status := status }
    else if entry.noteId == attempt.noteId && !entry.isTerminal then { entry with status := others }
    else entry

/-- Move a late broadcast to the record of its note.  A selected note leaves the
slot with it. -/
def transferBrowserLateWithdrawalAttempt (attempt : LateWithdrawalAttempt) (phase : String)
    (mode : WithdrawalMode) (clearanceReserved : Bool) : Option Store :=
  if attempt ∉ store.runtime.lateWithdrawalAttempts then none
  else if attempt.isTerminal then some store
  else
    let existing := store.record? attempt.noteId
    let selectedOwns := store.runtime.state.any fun state => state.noteId == attempt.noteId
    let backgroundOwns := (existing.bind WithdrawalRecord.state).any fun state =>
      state.noteId == attempt.noteId
    if selectedOwns = false ∧ backgroundOwns = false then none
    else if selectedOwns = true ∧ store.runtime.isIdle = false then none
    else
      let plan := (existing.bind WithdrawalRecord.preparedWithdrawal).or
        store.runtime.preparedWithdrawal
      let reserved := existing.any WithdrawalRecord.clearanceReserved ||
        plan.any PreparedWithdrawal.isWithdrawalOnly || attempt.clearanceReserved ||
        clearanceReserved
      let aggregates := selectedOwns || phase == "submitted_unconfirmed" ||
        existing.any WithdrawalRecord.startPending
      let record : WithdrawalRecord := {
        noteId := attempt.noteId
        mode := mode
        phase := phase
        destination := attempt.destination
        clearanceReserved := reserved
        state := (existing.bind WithdrawalRecord.state).or store.runtime.state
        preparedWithdrawal := plan
        startPending := aggregates
        finalizePending := existing.any WithdrawalRecord.finalizePending
        closeBlockNumber := (existing.map WithdrawalRecord.closeBlockNumber).getD 0
        revision := (existing.map WithdrawalRecord.revision).getD 0 + 1 }
      let runtime := { store.runtime with
        lateWithdrawalAttempts := resolveAttempts store.runtime.lateWithdrawalAttempts attempt
          (if phase = "closed_unconfirmed" then "closed" else "detached")
          (if aggregates then "detached" else "superseded") }
      some { store with
        runtime := if selectedOwns then
          { runtime with state := none, journal := none, preparedWithdrawal := none, lease := none }
          else runtime
        withdrawals := putRecord store.withdrawals record }

/-- What an update writes into a record. -/
structure RecordChanges where
  mode : Option WithdrawalMode
  phase : Option String
  destination : Option String
  closeBlockNumber : Option Nat
deriving DecidableEq

def updateBrowserWithdrawal (noteId : UInt32) (changes : RecordChanges) (sanitize : Bool)
    (expectedRevision : Option Nat) : Option Store :=
  match store.record? noteId with
  | none => none
  | some record =>
      if expectedRevision.any (· != record.revision) then none
      else if record.phase = "closed" ∧ (changes.phase.any (· != "closed")) = true then none
      else some { store with
        withdrawals := putRecord store.withdrawals { record with
          mode := changes.mode.getD record.mode
          phase := changes.phase.getD record.phase
          destination := changes.destination.or record.destination
          closeBlockNumber := changes.closeBlockNumber.getD record.closeBlockNumber
          revision := record.revision + 1
          state := if sanitize then none else record.state
          preparedWithdrawal := if sanitize then none else record.preparedWithdrawal
          finalizePending := if sanitize then false else record.finalizePending } }

/-- `CLOSE_FINALITY_FALLBACK_BLOCKS`. -/
def closeFinalityFallbackBlocks : Nat := 64

/-- What the RPC answers about the end of the chain, and the status that it reports
of a note at the block that is asked for. -/
structure FinalityReads where
  finalizedBlock : Option Nat
  latestBlock : Option Nat
  statusAt : Nat → Option String

structure Finality where
  finalized : Bool
  checkedBlock : Nat
deriving DecidableEq

/-- The latest block that is known of. -/
def FinalityReads.head (reads : FinalityReads) (observedBlock : Nat) : Nat :=
  max observedBlock (reads.latestBlock.getD 0)

/-- The block that a finality check reads the note at. -/
def FinalityReads.checkpoint (reads : FinalityReads) (observedBlock : Nat) : Nat :=
  match reads.finalizedBlock with
  | some block => block
  | none => reads.head observedBlock - closeFinalityFallbackBlocks

def browserWithdrawalStateFinality (reads : FinalityReads) (expectedStatus : String)
    (transitionBlockNumber observedBlock : Nat) : Finality :=
  if transitionBlockNumber = 0 then ⟨false, 0⟩
  else
    let checkedBlock := reads.checkpoint observedBlock
    if checkedBlock < transitionBlockNumber then ⟨false, checkedBlock⟩
    else ⟨reads.statusAt checkedBlock == some expectedStatus, checkedBlock⟩

/-- The block at which a synchronisation takes the note of a record to be closed. -/
def WithdrawalRecord.closedAt (record : WithdrawalRecord) (receiptBlocks : List Nat)
    (observedBlock : Nat) : Nat :=
  max record.closeBlockNumber (max (receiptBlocks.foldr max 0)
    (if record.phase = "closed_unconfirmed" then 0 else observedBlock))

def closingChanges (phase : String) (closeBlockNumber : Nat) : RecordChanges :=
  ⟨none, some phase, none, some closeBlockNumber⟩

/-- The wallet operations on a record of the background: claims, their metadata,
hashes, releases and retries.  They keep its note, its state and its clearance, and
the mode and the clearance of its plan. -/
def mutateBackgroundWithdrawal (noteId : UInt32) (phase : String)
    (startPending finalizePending : Bool) (planPhase : String) (submissionId : Option String)
    (transactionHashes : List String) : Option Store :=
  (store.record? noteId).map fun record => { store with
    withdrawals := putRecord store.withdrawals { record with
      phase := phase
      startPending := startPending
      finalizePending := finalizePending
      preparedWithdrawal := record.preparedWithdrawal.map fun plan => { plan with
        phase := planPhase, submissionId := submissionId, transactionHashes := transactionHashes }
      revision := record.revision + 1 } }

/-- A record whose withdrawal has not been submitted. -/
def WithdrawalRecord.isAvailable (record : WithdrawalRecord) : Bool :=
  record.mode == .mutual && record.clearanceReserved && record.state.isSome &&
    (record.phase == "parked" || record.phase == "restored") && !record.startPending

/-- Give a record a fresh mutual plan: one that was proved for it, or the empty one
that a resolved start leaves. -/
def saveBrowserBackgroundWithdrawalPlan (noteId : UInt32) (destination : Option String) :
    Option Store :=
  match store.record? noteId with
  | none => none
  | some record =>
      if record.isAvailable = false ∨ unresolvedLateWithdrawalForNote store.runtime noteId = true then
        none
      else some { store with
        withdrawals := putRecord store.withdrawals { record with
          phase := "parked"
          preparedWithdrawal := some {
            mode := .mutual
            phase := "prepared"
            noteId := noteId
            destination := destination
            clearanceReserved := true
            submissionId := none
            transactionHashes := [] }
          revision := record.revision + 1 } }

/-- The wallet operations on the selected plan: claims, their metadata, hashes,
missing receipts, ambiguities, releases and retries.  They keep its mode, note,
destination and clearance. -/
def rewritePreparedWithdrawal (phase : String) (submissionId : Option String)
    (transactionHashes : List String) : Option Store :=
  store.runtime.preparedWithdrawal.map fun prepared => { store with
    runtime := { store.runtime with
      preparedWithdrawal := some { prepared with
        phase := phase, submissionId := submissionId, transactionHashes := transactionHashes } } }

/-- The same hashes in any order, and in capital or small letters. -/
def sameHashes (hashes expected : List String) : Bool :=
  (hashes.map String.toLower).isPerm (expected.map String.toLower)

/-- Drop the plan.  With `force` even one that is reserved or submitted is dropped, but never one
whose prompt is open. -/
def clearPreparedWithdrawal (force : Bool) (expectedNoteId : Option UInt32)
    (expectedTransactionHashes : Option (List String)) : Option Store :=
  match store.runtime.preparedWithdrawal with
  | none => some store
  | some prepared =>
      if expectedNoteId.any (· != prepared.noteId) then none
      else if expectedTransactionHashes.any (!sameHashes prepared.transactionHashes ·) then none
      else if force = false ∧ prepared.isWithdrawalOnly = true then none
      else if prepared.submissionId.isSome then none
      else if force = false ∧ prepared.transactionHashes ≠ [] then none
      else some { store with runtime := { store.runtime with preparedWithdrawal := none } }

/-- The plan that keeps a challenged note withdrawal-only. -/
def challengedPlan (mode : WithdrawalMode) (noteId : UInt32) (destination : Option String) :
    PreparedWithdrawal where
  mode := mode
  phase := "prepared"
  noteId := noteId
  destination := destination
  clearanceReserved := true
  submissionId := none
  transactionHashes := []

def resolveLateChallengedWithdrawalAttempt (attempt : LateWithdrawalAttempt) : Option Store :=
  if attempt ∉ store.runtime.lateWithdrawalAttempts then none
  else if attempt.isTerminal then some store
  else
    let selectedOwns := store.runtime.state.any fun state => state.noteId == attempt.noteId
    let backgroundOwns := store.withdrawals.any fun record =>
      record.noteId == attempt.noteId && record.state.isSome
    if selectedOwns = false ∧ backgroundOwns = false then none
    else
      let reserved := attempt.clearanceReserved || attempt.mode == .mutual
      some { store with
        runtime := { store.runtime with
          preparedWithdrawal := if selectedOwns && reserved then
            store.runtime.preparedWithdrawal.or
              (some (challengedPlan attempt.mode attempt.noteId attempt.destination))
            else store.runtime.preparedWithdrawal
          lateWithdrawalAttempts := resolveAttempts store.runtime.lateWithdrawalAttempts attempt
            "challenged" "superseded" } }

def resolveChallengedPreparedEscape (noteId : UInt32) : Option Store :=
  match store.runtime.preparedWithdrawal with
  | none => none
  | some prepared =>
      if prepared.mode ≠ .escape ∨ prepared.clearanceReserved = false ∨ prepared.noteId ≠ noteId ∨
          prepared.submissionId.isSome then none
      else some { store with
        runtime := { store.runtime with
          preparedWithdrawal := some (challengedPlan .escape noteId prepared.destination) } }

/-- Remember a late broadcast, or what became of one. -/
def rememberLateWithdrawals (attempts : List LateWithdrawalAttempt) : Store :=
  { store with runtime := { store.runtime with lateWithdrawalAttempts := attempts } }

/-- Prepare, refresh or resolve the deposit of an unfunded wallet. -/
def planDeposit (pending : Option PendingDeposit) : Option Store :=
  if store.runtime.state.isSome then none
  else some { store with runtime := { store.runtime with pendingDeposit := pending } }

def confirmDeposit (state : NoteState) : Option Store :=
  match store.runtime.pendingDeposit with
  | none => none
  | some pending =>
      if store.runtime.state.isSome ∨ pending.secret ≠ state.secret ∨
          pending.nextNoteId ≠ state.noteId ∨ pending.amount ≠ state.currentBalance then none
      else some { store with
        runtime := { store.runtime with
          state := some state, journal := none, pendingDeposit := none,
          preparedWithdrawal := none } }

end Operations

end ZkApi.Browser
