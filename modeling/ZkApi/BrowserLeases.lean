import ZkApi.BrowserStore

/-!
# Leases of the browser wallet

The tabs of a wallet issue, use, retire and recover leases.  What changes the
store happens under one lock that all tabs share; a tab that has it waits for one
answer at a time.  Outside of the lock a tab starts, joins and ends calls.  A tab
may be closed at any time, and every answer may be an error.
-/

namespace ZkApi.Browser

open Clientd

section Types

structure BrowserError where
  message : String
  status : Option Nat
  code : Option String
  retriable : Bool
  retryAfter : Option Nat
deriving DecidableEq

def BrowserError.plain (message : String) : BrowserError :=
  ⟨message, none, none, false, none⟩

def BrowserError.conflict (message code : String) : BrowserError :=
  ⟨message, some 409, some code, false, none⟩

structure IssuedLease where
  clientRequestId : String
  status : String
  apiKey : String
  expiresAt : Nat
  settleAfter : Nat
  spendingLimit : Nat
deriving DecidableEq

/-- A lease that a tab holds the key of. -/
structure ActiveLease where
  serial : Nat
  clientRequestId : String
  sessionId : String
  apiKey : String
  expiresAt : Nat
  settleAfter : Nat
  spendingLimit : Nat
  inFlight : Nat
  retiring : Bool
  retired : Bool
deriving DecidableEq

/-- The promise of a lease that the callers of a tab share. -/
structure LeaseJob where
  sessionId : String
  budget : Nat
  retires : Bool
deriving DecidableEq

/-- A call of a tab that waits outside of the lock. -/
inductive Pending where
  | ensureReloads (sessionId : String) (budget now : Nat)
  | ensureWaits (sessionId : String)
  | ensureReturns (serial : Nat) (sessionId : String) (chosenAt : Option Nat)
  | settleAwaits
  | settleRetires
  | settleRecovers
  | settleEnds
  | clears (state : NoteState)
  | checksClose (record : WithdrawalRecord)
  | sessionRetires (sessionId : String)
  | sessionRecovers (sessionId : String)
deriving DecidableEq

structure Tab where
  alive : Bool
  initialized : Bool
  ownerId : String
  runtime : Runtime
  leases : List ActiveLease
  activeLease : Option Nat
  retirement : Option Nat
  job : Option LeaseJob
  legacyMigrationInProgress : Bool
  pending : List Pending
deriving DecidableEq

/-- What a call wants the lock for. -/
inductive Purpose where
  | startUp
  | issuesLease (sessionId : String) (budget : Nat)
  | retiresLease (serial : Nat)
  | settles
  | settlesSession (sessionId : String)
  | withdraws (mode : WithdrawalMode) (destination : String)
deriving DecidableEq

/-- Who retires a lease: the recovery of a lost key, the migration of an old budget or
the tab that holds the key. -/
inductive Retirer where
  | recovery
  | migration (sessionId : String) (budget : Nat)
  | holder (serial : Nat)
deriving DecidableEq

inductive Sending where
  | lease (legacy : Bool)
  | retirement (retirer : Retirer)
deriving DecidableEq

/-- The answer that the holder of the lock waits for. -/
inductive Stage where
  | asksStatus (request : ApiRequestV2)
  | asksNullifier (request : ApiRequestV2) (error : BrowserError)
  | asksResponse (retirer : Retirer) (request : ApiRequestV2)
  | completes (retirer : Retirer) (request : ApiRequestV2)
  | asksPath (migrated : Bool)
  | proves (migrated : Bool)
  | sends (sending : Sending) (request : ApiRequestV2) (attempt deadline : Nat)
  | rests (sending : Sending) (request : ApiRequestV2) (attempt deadline wakesAt : Nat)
  | verifies (legacy : Bool) (request : ApiRequestV2) (lease : IssuedLease)
  | asksWithdrawalPath
  | asksClearance
  | provesWithdrawal
deriving DecidableEq

structure Critical where
  tab : Nat
  purpose : Purpose
  stage : Stage
deriving DecidableEq

inductive Reply where
  | throws (error : BrowserError)
  | status (status : String)
  | nullifier (status : String) (answered : Bool)
  | response (found : Bool)
  | completed (state : NoteState)
  | path (unchanged : Bool)
  | prepared (journal : RequestJournal)
  | lease (lease : IssuedLease)
  | plain
deriving DecidableEq

/-- What an observer of the tabs and their network writes down, newest first. -/
inductive Entry where
  | proved (state : NoteState) (journal : RequestJournal)
  | issuePosted (body : ApiRequestV2) (state : Option NoteState)
      (stored : Option RequestJournal)
  | retirementPosted (body : ApiRequestV2) (state : Option NoteState)
      (stored : Option RequestJournal) (checkedOut : Bool)
  | granted (body : ApiRequestV2) (lease : IssuedLease)
  | staleRoot (body : ApiRequestV2)
  | sawFinalized (tab : Nat) (clientRequestId : String)
  | clearancePosted (state : NoteState)
  | confirmed (state : NoteState)
  | installed (state : NoteState)
  | vaultRead (noteId : UInt32) (block : Nat) (status : String) (finalizedBlock : Option Nat)
      (head : Nat)
  | sanitized (record : WithdrawalRecord) (closeBlockNumber : Nat)
  | checkedOut (tab : Nat) (lease : ActiveLease) (sessionId : String) (chosenAt : Option Nat)
  | threw (error : BrowserError)
deriving DecidableEq

structure World where
  store : Store
  tabs : Nat → Tab
  opened : Nat
  critical : Option Critical
  clock : Nat
  serials : Nat
  log : List Entry

structure LeaseConfig where
  requestChargeCap : Nat

end Types

section Tabs

/-- `MIN_REQUEST_LEASE_REMAINING_SECONDS`. -/
def minRequestLeaseRemainingSeconds : Nat := 90

def Tab.lease? (tab : Tab) (serial : Nat) : Option ActiveLease :=
  tab.leases.find? fun lease => lease.serial == serial

def Tab.current (tab : Tab) : Option ActiveLease :=
  tab.activeLease.bind tab.lease?

def Tab.modify (tab : Tab) (serial : Nat) (change : ActiveLease → ActiveLease) : Tab :=
  { tab with
    leases := tab.leases.map fun lease => if lease.serial = serial then change lease else lease }

def Pending.isEnsureWaits : Pending → Bool
  | .ensureWaits _ => true
  | _ => false

/-- The calls that wait for the lease of the job end with it. -/
def Tab.rejectJob (tab : Tab) : Tab :=
  { tab with job := none, pending := tab.pending.filter fun call => !call.isEnsureWaits }

/-- A retirement has failed: whoever waits for it fails with it. -/
def Tab.rejectRetirement (tab : Tab) (serial : Nat) : Tab :=
  let tab := if tab.job.any LeaseJob.retires then tab.rejectJob else tab
  let tab := { tab with
    retirement := none
    pending := tab.pending.filter fun call =>
      match call with
      | .settleRetires | .sessionRetires _ => false
      | _ => true }
  if tab.activeLease = some serial then
    tab.modify serial fun lease => { lease with retiring := false }
  else tab

/-- A retirement has ended, and the tab forgets whatever lease is active. -/
def Tab.endRetirement (tab : Tab) : Tab :=
  { tab with
    activeLease := none
    retirement := none
    job := tab.job.map fun job => { job with retires := false } }

def World.setTab (world : World) (id : Nat) (tab : Tab) : World :=
  { world with tabs := Function.update world.tabs id tab }

@[simp]
theorem World.setTab_self (world : World) (id : Nat) (tab : Tab) :
    (world.setTab id tab).tabs id = tab :=
  Function.update_self _ _ _

theorem World.setTab_other (world : World) {id other : Nat} (tab : Tab) (apart : other ≠ id) :
    (world.setTab id tab).tabs other = world.tabs other :=
  Function.update_of_ne apart _ _

def World.note (world : World) (entry : Entry) : World :=
  { world with log := entry :: world.log }

/-- Some tab holds the key of this request, checked out, before it may be settled. -/
def World.isCheckedOut (world : World) (clientRequestId : String) : Bool :=
  (List.range world.opened).any fun id =>
    (world.tabs id).alive && (world.tabs id).leases.any fun lease =>
      lease.clientRequestId == clientRequestId && 0 < lease.inFlight &&
        world.clock < lease.settleAfter

/-- Read the runtime of the store. -/
def World.reload (world : World) (id : Nat) : World :=
  world.setTab id { world.tabs id with runtime := world.store.runtime }

/-- Write what a tab has made of the runtime that it read. -/
def World.commit (world : World) (id : Nat) (next : Runtime) : World :=
  { world with
    store := { world.store with runtime := next }
    tabs := Function.update world.tabs id { world.tabs id with runtime := next } }

end Tabs

section Locked

def World.wait (world : World) (id : Nat) (purpose : Purpose) (stage : Stage) : World :=
  { world with critical := some ⟨id, purpose, stage⟩ }

/-- Leave the lock with an error, and fail the calls that wait for this one. -/
def World.throw (world : World) (id : Nat) (purpose : Purpose) (error : BrowserError) : World :=
  let tab := world.tabs id
  let tab := match purpose with
    | .issuesLease _ _ => { tab.rejectJob with legacyMigrationInProgress := false }
    | .retiresLease serial => tab.rejectRetirement serial
    | _ => tab
  { (world.setTab id tab).note (.threw error) with critical := none }

/-- Leave the lock; the calls that wait for this one go on. -/
def World.leave (world : World) (id : Nat) (purpose : Purpose) : World :=
  let tab := world.tabs id
  let tab := match purpose with
    | .startUp => { tab with initialized := true }
    | .retiresLease _ => tab.endRetirement
    | .settles => { tab with pending := .settleEnds :: tab.pending }
    | _ => tab
  { world.setTab id tab with critical := none }

/-- Send a request and wait for its answer. -/
def World.send (world : World) (id : Nat) (purpose : Purpose) (sending : Sending)
    (request : ApiRequestV2) (attempt deadline : Nat) : World :=
  let runtime := world.store.runtime
  let entry := match sending with
    | .lease _ => .issuePosted request runtime.state runtime.journal
    | .retirement _ =>
        .retirementPosted request runtime.state runtime.journal
          (world.isCheckedOut request.clientRequestId)
  (world.note entry).wait id purpose (.sends sending request attempt deadline)

/-- `LEASE_ISSUE_MAX_WAIT_MS`, in seconds. -/
def leaseIssueMaxWait : Nat := 75

/-- `MAX_RECOVERY_WAIT_MS`, in seconds. -/
def maxRecoveryWait : Nat := 45

/-- `LEASE_ISSUE_MAX_ATTEMPTS`. -/
def leaseIssueMaxAttempts : Nat := 5

def isExplicitlyRetriableLeaseError (error : BrowserError) : Bool :=
  error.retriable && error.code ∉
    [some "stale_root", some "lease_pending", some "lease_settlement_pending"]

def isExplicitlyRetriableLeaseRetirementError (error : BrowserError) : Bool :=
  isExplicitlyRetriableLeaseError error || error.retriable &&
    error.code ∈ [some "lease_pending", some "lease_settlement_pending"]

/-- How long to wait before the next attempt, if there is one. -/
def retryDelay (sending : Sending) (error : BrowserError) (attempt : Nat) : Option Nat :=
  let advertised := error.retryAfter.getD 0
  match sending with
  | .lease _ =>
      if isExplicitlyRetriableLeaseError error && attempt < leaseIssueMaxAttempts then
        some (max (min (5 * 2 ^ (attempt - 1)) 30) advertised)
      else none
  | .retirement _ =>
      if isExplicitlyRetriableLeaseRetirementError error then
        some (max (min (2 ^ (attempt - 1)) 10) advertised)
      else none

/-- The first attempt is made at once. -/
def World.requestLeaseWithRetry (world : World) (id : Nat) (purpose : Purpose) (legacy : Bool)
    (request : ApiRequestV2) : World :=
  world.wait id purpose
    (.rests (.lease legacy) request 0 (world.clock + leaseIssueMaxWait) world.clock)

def World.retireRequest (world : World) (id : Nat) (purpose : Purpose) (retirer : Retirer)
    (request : ApiRequestV2) : World :=
  world.wait id purpose
    (.rests (.retirement retirer) request 0 (world.clock + maxRecoveryWait) world.clock)

/-- Start the request of a lease with the journal of the wallet, or prove a new one. -/
def World.prepareLeaseRequest (world : World) (id : Nat) (sessionId : String) (budget : Nat)
    (migrated : Bool) : World :=
  let purpose := Purpose.issuesLease sessionId budget
  let runtime := (world.tabs id).runtime
  match runtime.state with
  | none => world.throw id purpose (.plain "Fund a private balance before starting a chat.")
  | some state =>
      if unresolvedLateWithdrawalForNote runtime state.noteId then
        world.throw id purpose (.conflict ("A withdrawal from another tab may already be " ++
          "on-chain. Check its status before using this balance.") "late_withdrawal_pending")
      else match runtime.journal with
        | some journal =>
            let request := journal.preparedRequest
            if request.publicInputs.solvencyBound ≠ budget ∧ migrated = false then
              (world.setTab id { world.tabs id with legacyMigrationInProgress := true
                }).requestLeaseWithRetry id purpose true request
            else world.requestLeaseWithRetry id purpose false request
        | none =>
            if runtime.preparedWithdrawal.isSome then
              world.throw id purpose
                (.plain "Finish the prepared withdrawal before sending another message.")
            else world.wait id purpose (.asksPath migrated)

def validateExisting (prepared : Option PreparedWithdrawal) (noteId : UInt32)
    (mode : WithdrawalMode) (destination : String) : Option BrowserError :=
  match prepared with
  | none => none
  | some prepared =>
      let submitted := prepared.submissionId.isSome || prepared.transactionHashes ≠ []
      let safeModeSwitch := !submitted && (prepared.mode == .mutual && mode == .escape ||
        prepared.mode == .escape && mode == .mutual && prepared.clearanceReserved)
      if prepared.noteId ≠ noteId then
        some (.plain "The prepared withdrawal belongs to a different private balance.")
      else match prepared.destination with
        | none => none
        | some existing =>
            if (prepared.mode ≠ mode ∨ existing ≠ destination) ∧
                ¬ (safeModeSwitch = true ∧ existing = destination) then
              some (.plain "A different withdrawal is already prepared in this browser.")
            else none

/-- Go on with a withdrawal once the wallet has no unfinished request. -/
def World.withdrawRecovered (world : World) (id : Nat) (mode : WithdrawalMode)
    (destination : String) : World :=
  let purpose := Purpose.withdraws mode destination
  let runtime := world.store.runtime
  let world := world.reload id
  match runtime.state with
  | none => world.throw id purpose (.plain "There is no active private note to withdraw.")
  | some state =>
      match validateExisting runtime.preparedWithdrawal state.noteId mode destination with
      | some error => world.throw id purpose error
      | none =>
          if runtime.journal.isSome ∨ runtime.lease.isSome then
            world.throw id purpose (.conflict ("A private chat started in another tab while " ++
              "withdrawal was opening. Finish that chat and try again.") "lease_pending")
          else match runtime.preparedWithdrawal with
            | none => world.wait id purpose .asksWithdrawalPath
            | some existing =>
                if existing.transactionHashes ≠ [] then world.leave id purpose
                else if existing.submissionId.isSome then
                  if existing.phase = "ambiguous" then
                    world.throw id purpose (.conflict ("MetaMask did not return a transaction " ++
                      "ID. Check the chain, then explicitly retry if this balance is still " ++
                      "active.") "withdrawal_submission_ambiguous")
                  else
                    world.throw id purpose (.conflict ("This withdrawal is awaiting MetaMask in " ++
                      "this or another tab.") "withdrawal_wallet_pending")
                else world.wait id purpose .asksWithdrawalPath

/-- Go on after the recovery of an unfinished request. -/
def World.recovered (world : World) (id : Nat) (purpose : Purpose) : World :=
  match purpose with
  | .issuesLease sessionId budget => world.prepareLeaseRequest id sessionId budget false
  | .settlesSession sessionId =>
      let runtime := (world.tabs id).runtime
      if runtime.journal.isSome ∧ runtime.lease.any (·.sessionId == sessionId) then
        world.throw id purpose (.conflict ("This chat’s private key is still being finalized. " ++
          "Try again shortly.") "lease_pending")
      else world.leave id purpose
  | .withdraws mode destination => world.withdrawRecovered id mode destination
  | .startUp | .retiresLease _ | .settles => world.leave id purpose

/-- Only the recovery at start-up is quiet about its errors. -/
def World.recoveryThrew (world : World) (id : Nat) (purpose : Purpose) (error : BrowserError) :
    World :=
  match purpose with
  | .startUp => world.recovered id purpose
  | _ => world.throw id purpose error

def World.recoverPendingLocked (world : World) (id : Nat) (purpose : Purpose) : World :=
  match (world.tabs id).runtime.journal, (world.tabs id).activeLease with
  | some journal, none => world.wait id purpose (.asksStatus journal.preparedRequest)
  | _, _ => world.recovered id purpose

/-- What a thrown status or retirement leads the recovery to. -/
def World.recoveryFailed (world : World) (id : Nat) (purpose : Purpose) (request : ApiRequestV2)
    (error : BrowserError) : World :=
  if error.status = some 404 then world.wait id purpose (.asksNullifier request error)
  else world.recoveryThrew id purpose error

/-- Another tab owns the lease of this row until its deadline. -/
def LeaseRow.isForeign (row : LeaseRow) (ownerId : String) (now : Nat) : Bool :=
  now < (if row.settleAfter = 0 then row.expiresAt else row.settleAfter) && row.ownerId != ownerId

/-- The plan that marks a note whose clearance the server has reserved. -/
def reservedPlan (noteId : UInt32) : PreparedWithdrawal where
  mode := .mutual
  phase := "reserving"
  noteId := noteId
  destination := none
  clearanceReserved := true
  submissionId := none
  transactionHashes := []

/-- Drop the journal of a request whose nullifier a clearance has taken. -/
def Runtime.dropForClearance (runtime : Runtime) : Runtime :=
  { runtime with
    journal := none
    lease := none
    preparedWithdrawal := runtime.preparedWithdrawal.or
      (some (reservedPlan ((runtime.state.map NoteState.noteId).getD 0))) }

/-- The plan of a withdrawal; it stays withdrawal-only. -/
def nextPlan (existing : Option PreparedWithdrawal) (mode : WithdrawalMode) (phase : String)
    (noteId : UInt32) (destination : String) : PreparedWithdrawal where
  mode := mode
  phase := phase
  noteId := noteId
  destination := some destination
  clearanceReserved := mode == .mutual || existing.any PreparedWithdrawal.isWithdrawalOnly
  submissionId := none
  transactionHashes := []

def leaseRow (ownerId sessionId : String) (lease : IssuedLease) : LeaseRow :=
  ⟨ownerId, sessionId, lease.clientRequestId, lease.expiresAt, lease.settleAfter,
    lease.spendingLimit⟩

/-- The checks of an issued lease that need no other service. -/
def verifyLease (request : ApiRequestV2) (lease : IssuedLease) (now : Nat) : Option BrowserError :=
  if lease.status ≠ "active" ∨ lease.clientRequestId ≠ request.clientRequestId ∨
      lease.apiKey = "" ∨ lease.expiresAt ≤ now then
    some (.plain "The zkAPI server returned an unusable OpenRouter lease.")
  else if lease.spendingLimit ≠ request.publicInputs.solvencyBound then
    some (.plain "The zkAPI server returned a child key with the wrong spending cap.")
  else none

/-- A call that waits for a lease goes on with it, for the session that it was made for. -/
def Pending.handed (serial : Nat) : Pending → Pending
  | .ensureWaits sessionId => .ensureReturns serial sessionId none
  | call => call

/-- Install an issued lease in its tab and hand it to the calls that wait for it. -/
def World.activate (world : World) (id : Nat) (sessionId : String) (lease : IssuedLease) : World :=
  let tab := world.tabs id
  let active : ActiveLease := {
    serial := world.serials
    clientRequestId := lease.clientRequestId
    sessionId := sessionId
    apiKey := lease.apiKey
    expiresAt := lease.expiresAt
    settleAfter := lease.settleAfter
    spendingLimit := lease.spendingLimit
    inFlight := 0
    retiring := false
    retired := false }
  { world.setTab id { tab with
      leases := active :: tab.leases
      activeLease := some world.serials
      job := none
      pending := tab.pending.map (Pending.handed world.serials) } with
    serials := world.serials + 1
    critical := none }

/-- The server has found the root of an issue request stale. -/
def World.noteStale (world : World) (sending : Sending) (request : ApiRequestV2)
    (error : BrowserError) : World :=
  match sending with
  | .lease _ => if error.code = some "stale_root" then world.note (.staleRoot request) else world
  | .retirement _ => world

variable (config : LeaseConfig)

/-- The holder of the lock goes on with an answer. -/
def World.answer (world : World) (id : Nat) (purpose : Purpose) (stage : Stage) (reply : Reply) :
    Option World :=
  let tab := world.tabs id
  match stage, reply with
  | .asksStatus request, .status status =>
      if status = "active" then
        if tab.runtime.lease.any (·.isForeign tab.ownerId world.clock) then
          some (world.recovered id purpose)
        else some (world.retireRequest id purpose .recovery request)
      else if status = "finalized" then
        some ((world.note (.sawFinalized id request.clientRequestId)).wait id purpose
          (.asksResponse .recovery request))
      else some (world.recovered id purpose)
  | .asksStatus request, .throws error => some (world.recoveryFailed id purpose request error)
  | .asksNullifier request error, .nullifier status answered =>
      if answered then some (world.wait id purpose (.asksResponse .recovery request))
      else if status = "clearance_reserved" then
        some ((world.commit id tab.runtime.dropForClearance).recovered id purpose)
      else some (world.recoveryThrew id purpose error)
  | .asksNullifier _ _, .throws error => some (world.throw id purpose error)
  | .sends sending request attempt deadline, .throws error =>
      let world := world.noteStale sending request error
      match (retryDelay sending error attempt).filter (world.clock + · ≤ deadline) with
      | some delay =>
          some (world.wait id purpose
            (.rests sending request attempt deadline (world.clock + delay)))
      | none =>
          match sending with
          | .retirement .recovery => some (world.recoveryFailed id purpose request error)
          | .lease false =>
              if error.code = some "stale_root" then
                some ((world.commit id { tab.runtime with journal := none }).throw id purpose error)
              else some (world.throw id purpose error)
          | _ => some (world.throw id purpose error)
  | .rests sending request attempt deadline wakesAt, .plain =>
      if wakesAt ≤ world.clock then
        some (world.send id purpose sending request (attempt + 1) deadline)
      else none
  | .rests _ _ _ _ _, .throws error => some (world.throw id purpose error)
  | .sends (.retirement retirer) request _ _, .status status =>
      if status = "finalized" then
        let world := world.note (.sawFinalized id request.clientRequestId)
        match retirer with
        | .holder serial =>
            let tab := tab.modify serial fun lease => { lease with retired := true }
            let tab := if tab.activeLease = some serial then { tab with activeLease := none }
              else tab
            some ((world.setTab id tab).wait id purpose (.asksResponse retirer request))
        | _ => some (world.wait id purpose (.asksResponse retirer request))
      else match retirer with
        | .recovery => some (world.recovered id purpose)
        | _ => some (world.throw id purpose (.plain s!"Lease is still {status}."))
  | .sends (.lease legacy) request _ _, .lease lease =>
      let world := world.note (.granted request lease)
      match verifyLease request lease world.clock with
      | some error => some (world.throw id purpose error)
      | none => some (world.wait id purpose (.verifies legacy request lease))
  | .verifies legacy request lease, .plain =>
      match purpose with
      | .issuesLease sessionId budget =>
          let row := leaseRow tab.ownerId sessionId lease
          let world := world.commit id { tab.runtime with lease := some row }
          if legacy then
            some (world.retireRequest id purpose (.migration sessionId budget) request)
          else some (world.activate id sessionId lease)
      | _ => none
  | .verifies _ _ _, .throws error => some (world.throw id purpose error)
  | .asksResponse retirer request, .response found =>
      if found then some (world.wait id purpose (.completes retirer request))
      else match retirer with
        | .recovery => some (world.recovered id purpose)
        | .migration _ _ =>
            some (world.throw id purpose
              (.plain "The legacy private-key receipt is not ready yet."))
        | .holder _ => some (world.leave id purpose)
  | .asksResponse _ _, .throws error => some (world.throw id purpose error)
  | .completes retirer _, .completed state =>
      let world := (world.note (.installed state)).commit id
        { tab.runtime with state := some state, journal := none, lease := none }
      match retirer with
      | .recovery => some (world.recovered id purpose)
      | .migration sessionId budget =>
          let world := (world.setTab id { world.tabs id with legacyMigrationInProgress := false
            }).reload id
          some (world.prepareLeaseRequest id sessionId budget true)
      | .holder _ => some (world.leave id purpose)
  | .completes _ _, .throws error => some (world.throw id purpose error)
  | .asksPath migrated, .path _ =>
      match purpose with
      | .issuesLease _ budget =>
          if budget < config.requestChargeCap then
            some (world.throw id purpose (.plain ("This model budget is below the deployment’s " ++
              "minimum private-chat budget.")))
          else if tab.runtime.state.any (·.currentBalance < budget) then
            some (world.throw id purpose { BrowserError.plain
              "This model requires a larger private balance for a new key." with
              code := some "insufficient_chat_balance" })
          else some (world.wait id purpose (.proves migrated))
      | _ => none
  | .asksPath _, .throws error => some (world.throw id purpose error)
  | .proves _, .prepared journal =>
      match tab.runtime.state with
      | none => none
      | some state =>
          let world := (world.note (.proved state journal)).commit id
            { tab.runtime with journal := some journal }
          some (world.requestLeaseWithRetry id purpose false journal.preparedRequest)
  | .proves _, .throws error => some (world.throw id purpose error)
  | .asksWithdrawalPath, .path unchanged =>
      match purpose, tab.runtime.state with
      | .withdraws mode destination, some state =>
          let existing := tab.runtime.preparedWithdrawal
          if unchanged = true ∧ existing.any fun plan =>
              plan.mode == mode && plan.destination == some destination then
            some (world.leave id purpose)
          else match mode with
            | .mutual =>
                let plan := nextPlan existing mode "reserving" state.noteId destination
                let world := world.commit id { tab.runtime with preparedWithdrawal := some plan }
                some ((world.note (.clearancePosted state)).wait id purpose .asksClearance)
            | .escape => some (world.wait id purpose .provesWithdrawal)
      | _, _ => none
  | .asksWithdrawalPath, .throws error => some (world.throw id purpose error)
  | .asksClearance, .plain => some (world.wait id purpose .provesWithdrawal)
  | .asksClearance, .throws error => some (world.throw id purpose error)
  | .provesWithdrawal, .plain =>
      match purpose, tab.runtime.state with
      | .withdraws mode destination, some state =>
          let plan := nextPlan tab.runtime.preparedWithdrawal mode "prepared" state.noteId destination
          some ((world.commit id { tab.runtime with preparedWithdrawal := some plan }).leave id purpose)
      | _, _ => none
  | .provesWithdrawal, .throws error => some (world.throw id purpose error)
  | _, _ => none

/-- Take the lock and start what the caller wants it for. -/
def World.enter (world : World) (id : Nat) (purpose : Purpose) : Option World :=
  let tab := world.tabs id
  if tab.alive = false ∨ world.critical.isSome then none
  else
    let world := world.reload id
    let runtime := world.store.runtime
    match purpose with
    | .startUp => if tab.initialized then none else some (world.recoverPendingLocked id purpose)
    | .issuesLease sessionId budget =>
        if tab.job = some ⟨sessionId, budget, false⟩ then
          some (world.recoverPendingLocked id purpose)
        else none
    | .retiresLease serial =>
        if tab.retirement = some serial then
          match runtime.journal, tab.lease? serial with
          | some journal, some lease =>
              if journal.preparedRequest.clientRequestId = lease.clientRequestId then
                some (world.retireRequest id purpose (.holder serial) journal.preparedRequest)
              else some (world.leave id purpose)
          | _, _ => some (world.leave id purpose)
        else none
    | .settles =>
        if .settleRecovers ∈ tab.pending then
          let tab := { world.tabs id with pending := tab.pending.erase .settleRecovers }
          some ((world.setTab id tab).recoverPendingLocked id purpose)
        else none
    | .settlesSession sessionId =>
        if .sessionRecovers sessionId ∈ tab.pending then
          let tab := { world.tabs id with pending := tab.pending.erase (.sessionRecovers sessionId) }
          let world := world.setTab id tab
          if runtime.lease.any (·.sessionId == sessionId) then
            some (world.recoverPendingLocked id purpose)
          else some (world.leave id purpose)
        else none
    | .withdraws mode destination =>
        match runtime.state with
        | none =>
            some (world.throw id purpose (.plain "There is no active private note to withdraw."))
        | some state =>
            if unresolvedLateWithdrawalForNote runtime state.noteId then
              some (world.throw id purpose (.conflict ("A withdrawal from another tab may " ++
                "already be on-chain. Check its status before starting another withdrawal.")
                "late_withdrawal_pending"))
            else match validateExisting runtime.preparedWithdrawal state.noteId mode destination with
              | some error => some (world.throw id purpose error)
              | none => some (world.recoverPendingLocked id purpose)

end Locked

section Calls

/-- Start or join the retirement of the active lease, if there is something to retire.
It throws while the lease is checked out. -/
def Tab.retireActiveLease (tab : Tab) : Option Tab :=
  match tab.retirement, tab.current, tab.runtime.journal with
  | none, some lease, some _ =>
      if 0 < lease.inFlight then none
      else some { tab.modify lease.serial fun lease => { lease with retiring := true } with
        retirement := some lease.serial }
  | _, _, _ => some tab

/-- The lease may be used for a new request of this budget. -/
def ActiveLease.isUsable (lease : ActiveLease) (budget now : Nat) : Bool :=
  now + minRequestLeaseRemainingSeconds < lease.expiresAt && lease.spendingLimit == budget &&
    !lease.retiring && !lease.retired

/-- Wait for the lease that the tab is already creating. -/
def Tab.waitForLeasePromise (tab : Tab) (job : LeaseJob) (sessionId : String) (budget : Nat) :
    Except BrowserError Tab :=
  if job.sessionId ≠ sessionId then
    .error (.conflict s!"Chat {job.sessionId} is creating the current private key."
      "lease_session_conflict")
  else if job.budget ≠ budget then
    .error (.conflict ("A different model budget is being prepared. Retry when the current " ++
      "request finishes.") "lease_budget_conflict")
  else .ok { tab with pending := .ensureWaits sessionId :: tab.pending }

def Tab.ensureLease (tab : Tab) (sessionId : String) (budget now : Nat) :
    Except BrowserError Tab :=
  match tab.job with
  | some job => tab.waitForLeasePromise job sessionId budget
  | none =>
      match tab.current with
      | none => .ok { tab with pending := .ensureReloads sessionId budget now :: tab.pending }
      | some lease =>
          if lease.isUsable budget now then
            if lease.sessionId ≠ sessionId then
              .error (.conflict
                s!"Chat {lease.sessionId} owns the current private key until it settles."
                "lease_session_conflict")
            else .ok { tab with
              pending := .ensureReturns lease.serial sessionId (some now) :: tab.pending }
          else if 0 < lease.inFlight then
            .error (.conflict ("Wait for the current requests to finish before renewing or " ++
              "changing the private key budget.") "lease_requests_in_flight")
          else .ok { tab with pending := .ensureReloads sessionId budget now :: tab.pending }

/-- Go on with a call for a lease after the reload. -/
def Tab.ensureReloaded (tab : Tab) (sessionId : String) (budget now : Nat) :
    Except BrowserError Tab :=
  if tab.runtime.lease.any (·.isForeign tab.ownerId now) then
    .error (.conflict "Another OA Chat tab owns the current private key." "lease_tab_conflict")
  else match tab.job with
    | some job => tab.waitForLeasePromise job sessionId budget
    | none =>
        let started := { tab with
          job := some ⟨sessionId, budget, false⟩
          pending := .ensureWaits sessionId :: tab.pending }
        match tab.activeLease, started.retireActiveLease with
        | some _, none =>
            .error (.conflict ("Wait for the active model requests to finish before settling the " ++
              "private key.") "lease_requests_in_flight")
        | some _, some tab =>
            .ok { tab with job := some ⟨sessionId, budget, tab.retirement.isSome⟩ }
        | none, _ => .ok started

/-- Hand out the key of a lease that the call was given, unless it is closing. -/
def World.acquireEphemeralKey (world : World) (id serial : Nat) (sessionId : String)
    (chosenAt : Option Nat) : Option World :=
  let tab := world.tabs id
  match tab.lease? serial with
  | none => none
  | some lease =>
      if tab.activeLease ≠ some serial ∨ lease.retiring = true ∨ lease.retired = true then
        some (world.note (.threw (.conflict ("The previous private key is closing. Retry when " ++
          "its balance update finishes.") "lease_pending")))
      else
        let tab := tab.modify serial fun lease => { lease with inFlight := lease.inFlight + 1 }
        some ((world.setTab id tab).note (.checkedOut id lease sessionId chosenAt))

/-- Go on with a settlement, or throw. -/
def Tab.settleAwaited (tab : Tab) : Except BrowserError Tab :=
  if tab.legacyMigrationInProgress then
    .error (.conflict ("An unfinished private key is already being updated. Try settling again " ++
      "in a moment.") "lease_pending")
  else match tab.activeLease, tab.retireActiveLease with
    | none, _ => .ok { tab with pending := .settleRecovers :: tab.pending }
    | some _, none =>
        .error (.conflict ("Wait for the active model requests to finish before settling the " ++
          "private key.") "lease_requests_in_flight")
    | some _, some tab => .ok { tab with pending := .settleRetires :: tab.pending }

/-- A settlement is over once the wallet has no journal; then the tab forgets its
lease. -/
def Tab.settleEnded (tab : Tab) : Except BrowserError Tab :=
  if tab.runtime.journal.isSome then
    .error (.conflict ("The private key usage receipt is still being finalized. Try settling " ++
      "again shortly.") "lease_pending")
  else .ok { tab with activeLease := none }

def Tab.settleSessionLease (tab : Tab) (sessionId : String) : Except BrowserError Tab :=
  if tab.current.any (·.sessionId == sessionId) then
    match tab.retireActiveLease with
    | none =>
        .error (.conflict ("Wait for the active model requests to finish before settling the " ++
          "private key.") "lease_requests_in_flight")
    | some tab => .ok { tab with pending := .sessionRetires sessionId :: tab.pending }
  else .ok { tab with pending := .sessionRecovers sessionId :: tab.pending }

/-- What a call has made of its tab. -/
def World.returned (world : World) (id : Nat) : Except BrowserError Tab → World
  | .ok tab => world.setTab id tab
  | .error error => world.note (.threw error)

/-- A call of a tab goes on outside of the lock. -/
def World.resume (world : World) (id : Nat) (call : Pending) : Option World :=
  let tab := { world.tabs id with pending := (world.tabs id).pending.erase call }
  let reloaded := { tab with runtime := world.store.runtime }
  match call with
  | .ensureReloads sessionId budget now =>
      some ((world.setTab id reloaded).returned id (reloaded.ensureReloaded sessionId budget now))
  | .ensureReturns serial sessionId chosenAt =>
      (world.setTab id tab).acquireEphemeralKey id serial sessionId chosenAt
  | .settleAwaits =>
      if tab.retirement.isSome then none
      else some ((world.setTab id tab).returned id tab.settleAwaited)
  | .settleRetires =>
      if tab.retirement.isSome then none
      else some (world.setTab id { tab with pending := .settleEnds :: tab.pending })
  | .settleEnds => some ((world.setTab id reloaded).returned id reloaded.settleEnded)
  | .sessionRetires sessionId =>
      if tab.retirement.isSome then none
      else some (world.setTab id
        { tab with pending := .sessionRecovers sessionId :: tab.pending })
  | .clears state => some ((world.setTab id tab).note (.clearancePosted state))
  | .ensureWaits _ | .settleRecovers | .sessionRecovers _ | .checksClose _ => none

/-- The close branch of `syncEscapeWithdrawals`: the vault has reported the note of a
record closed. -/
def World.syncClosed (world : World) (record : WithdrawalRecord) (receiptBlocks : List Nat)
    (observedBlock : Nat) (reads : FinalityReads) : Option World :=
  let closeBlockNumber := record.closedAt receiptBlocks observedBlock
  let finality := browserWithdrawalStateFinality reads "closed" closeBlockNumber observedBlock
  if finality.finalized then
    let world := world.note (.vaultRead record.noteId finality.checkedBlock "closed"
      reads.finalizedBlock (reads.head observedBlock))
    match updateBrowserWithdrawal world.store record.noteId
        (closingChanges "closed" closeBlockNumber) true (some record.revision) with
    | none => some world
    | some store =>
        some ({ world with store := store }.note (.sanitized record closeBlockNumber))
  else
    match updateBrowserWithdrawal world.store record.noteId
        (closingChanges "closed_unconfirmed" closeBlockNumber) false (some record.revision) with
    | none => some world
    | some store => some { world with store := store }

/-- The changes of the store that a tab makes under the lock, each in one transaction. -/
inductive StoreChange where
  | archives (reason : String) (noteId : UInt32) (claimed : Bool)
  | detaches (noteId : UInt32) (phase : String) (destination : Option String)
  | detachesClosed (noteId : UInt32) (mode : WithdrawalMode) (destination : Option String)
      (closeBlockNumber : Nat) (clearanceReserved : Bool)
  | parks
  | restores (noteId : UInt32) (expectedRevision : Nat)
  | transfers (attempt : LateWithdrawalAttempt) (phase : String) (mode : WithdrawalMode)
      (clearanceReserved : Bool)
  | clears (force : Bool) (expectedNoteId : Option UInt32)
      (expectedTransactionHashes : Option (List String))
  | challenges (attempt : LateWithdrawalAttempt)
  | challengesPrepared (noteId : UInt32)
  | remembers (attempts : List LateWithdrawalAttempt)
  | deposits (pending : Option PendingDeposit)
  | confirms (state : NoteState)
deriving DecidableEq

/-- The changes of plans and records that need no lock. -/
inductive RecordChange where
  | rewrites (phase : String) (submissionId : Option String) (transactionHashes : List String)
  | updates (noteId : UInt32) (changes : RecordChanges) (expectedRevision : Option Nat)
  | mutates (noteId : UInt32) (phase : String) (startPending finalizePending : Bool)
      (planPhase : String) (submissionId : Option String) (transactionHashes : List String)
  | plans (noteId : UInt32) (destination : Option String)
deriving DecidableEq

def StoreChange.apply (store : Store) : StoreChange → Option Store
  | .archives reason noteId claimed => archiveBrowserWallet store reason noteId claimed
  | .detaches noteId phase destination =>
      detachBrowserEscapeWithdrawal store noteId phase destination
  | .detachesClosed noteId mode destination closeBlockNumber clearanceReserved =>
      detachBrowserClosedWithdrawal store noteId mode destination closeBlockNumber clearanceReserved
  | .parks => parkBrowserWithdrawal store
  | .restores noteId expectedRevision => restoreBrowserWithdrawal store noteId expectedRevision
  | .transfers attempt phase mode clearanceReserved =>
      transferBrowserLateWithdrawalAttempt store attempt phase mode clearanceReserved
  | .clears force expectedNoteId expectedTransactionHashes =>
      clearPreparedWithdrawal store force expectedNoteId expectedTransactionHashes
  | .challenges attempt => resolveLateChallengedWithdrawalAttempt store attempt
  | .challengesPrepared noteId => resolveChallengedPreparedEscape store noteId
  | .remembers attempts => some (rememberLateWithdrawals store attempts)
  | .deposits pending => planDeposit store pending
  | .confirms state => confirmDeposit store state

def RecordChange.apply (store : Store) : RecordChange → Option Store
  | .rewrites phase submissionId transactionHashes =>
      rewritePreparedWithdrawal store phase submissionId transactionHashes
  | .updates noteId changes expectedRevision =>
      updateBrowserWithdrawal store noteId changes false expectedRevision
  | .mutates noteId phase startPending finalizePending planPhase submissionId transactionHashes =>
      mutateBackgroundWithdrawal store noteId phase startPending finalizePending planPhase
        submissionId transactionHashes
  | .plans noteId destination => saveBrowserBackgroundWithdrawalPlan store noteId destination

/-- The selected note goes, and with it the lease that a tab has in memory. -/
def StoreChange.forgetsLease (store : Store) : StoreChange → Bool
  | .archives _ _ _ | .detaches _ _ _ | .detachesClosed _ _ _ _ _ | .parks => true
  | .transfers attempt _ _ _ => store.runtime.state.any fun state => state.noteId == attempt.noteId
  | .restores _ _ | .clears _ _ _ | .challenges _ | .challengesPrepared _ | .remembers _
  | .deposits _ | .confirms _ => false

/-- A balance whose refund is claimed is not archived while its key is in use. -/
def StoreChange.waitsForLease (tab : Tab) : StoreChange → Bool
  | .archives reason _ _ =>
      reason == "expiry-claimed" && tab.current.any fun lease => 0 < lease.inFlight
  | _ => false

inductive Action where
  | opens (ownerId : String)
  | closes (tab : Nat)
  | ticks (seconds : Nat)
  | reloads (tab : Nat)
  | ensures (tab : Nat) (sessionId : String) (budget : Nat)
  | settles (tab : Nat)
  | settlesSession (tab : Nat) (sessionId : String)
  | retires (tab : Nat)
  | releases (tab serial : Nat)
  | withdrawsRecord (tab : Nat) (noteId : UInt32)
  | resumes (tab : Nat) (call : Pending)
  | cancels (tab : Nat) (call : Pending)
  | enters (tab : Nat) (purpose : Purpose)
  | replies (reply : Reply)
  | changes (tab : Nat) (change : StoreChange) (aborts statusThrows : Bool)
  | rewrites (change : RecordChange) (aborts : Bool)
  | syncs (tab : Nat) (noteId : UInt32)
  | observesClosed (tab : Nat) (record : WithdrawalRecord) (receiptBlocks : List Nat)
      (observedBlock : Nat) (reads : FinalityReads)

/-- A new tab reads the store before anything else. -/
def Tab.opened (ownerId : String) (runtime : Runtime) : Tab where
  alive := true
  initialized := false
  ownerId := ownerId
  runtime := runtime
  leases := []
  activeLease := none
  retirement := none
  job := none
  legacyMigrationInProgress := false
  pending := []

def Tab.closed : Tab :=
  { Tab.opened "" ⟨none, none, none, none, none, []⟩ with alive := false }

def transactionError : BrowserError :=
  .plain "The wallet transaction was aborted."

/-- What is written down about a change that has been committed.  `confirmDeposit` asks
the worker for the status of the wallet after its commit, and throws if that fails. -/
def World.noteChange (world : World) (change : StoreChange) (statusThrows : Bool) : World :=
  match change with
  | .confirms state =>
      let world := world.note (.confirmed state)
      if statusThrows then world.note (.threw (.plain "The wallet worker failed.")) else world
  | _ => world

/-- Read the runtime of the store, and keep the lease in memory or not. -/
def World.keepLease (world : World) (id : Nat) (keeps : Bool) : World :=
  let tab := world.tabs id
  world.setTab id { tab with
    runtime := world.store.runtime
    activeLease := if keeps then tab.activeLease else none }

/-- A call that only a tab with a wallet can make. -/
def World.call (world : World) (id : Nat) (made : World) : Option World :=
  if (world.tabs id).alive && (world.tabs id).initialized then some made else none

variable (config : LeaseConfig)

def World.step (world : World) : Action → Option World
  | .opens ownerId => some { world.setTab world.opened (.opened ownerId world.store.runtime) with
      opened := world.opened + 1 }
  | .closes id => some { world.setTab id .closed with
      critical := world.critical.filter (·.tab != id) }
  | .ticks seconds => some { world with clock := world.clock + seconds }
  | .reloads id => world.call id (world.reload id)
  | .ensures id sessionId budget =>
      world.call id (world.returned id ((world.tabs id).ensureLease sessionId budget world.clock))
  | .settles id =>
      let tab := world.tabs id
      world.call id (world.setTab id { tab with pending := .settleAwaits :: tab.pending })
  | .settlesSession id sessionId =>
      world.call id (world.returned id ((world.tabs id).settleSessionLease sessionId))
  | .retires id =>
      world.call id (world.setTab id ((world.tabs id).retireActiveLease.getD (world.tabs id)))
  | .releases id serial =>
      world.call id (world.setTab id ((world.tabs id).modify serial fun lease =>
        { lease with inFlight := lease.inFlight - 1 }))
  | .withdrawsRecord id noteId =>
      match (world.store.record? noteId).filter WithdrawalRecord.isAvailable with
      | none => none
      | some record =>
          let tab := world.tabs id
          record.state.bind fun state =>
            world.call id (world.setTab id { tab with pending := .clears state :: tab.pending })
  | .resumes id call =>
      if call ∈ (world.tabs id).pending then world.resume id call else none
  | .cancels id call =>
      let tab := world.tabs id
      world.call id (world.setTab id { tab with pending := tab.pending.erase call })
  | .enters id purpose => world.enter id purpose
  | .replies reply =>
      world.critical.bind fun critical =>
        world.answer config critical.tab critical.purpose critical.stage reply
  | .changes id change aborts statusThrows =>
      if world.critical.isSome then none
      else if change.waitsForLease (world.tabs id) then
        world.call id ((world.reload id).note (.threw (.plain
          "Finish the current response before starting a new private balance.")))
      else match (change.apply world.store).filter fun _ => !aborts with
        | none => world.call id ((world.reload id).note (.threw transactionError))
        | some store =>
            let changed := { world.noteChange change statusThrows with store := store }
            world.call id (changed.keepLease id (!change.forgetsLease world.store))
  | .rewrites change aborts =>
      match (change.apply world.store).filter fun _ => !aborts with
      | none => some (world.note (.threw transactionError))
      | some store => some { world with store := store }
  | .syncs id noteId =>
      let tab := world.tabs id
      (world.store.record? noteId).bind fun record =>
        world.call id (world.setTab id { tab with pending := .checksClose record :: tab.pending })
  | .observesClosed id record receiptBlocks observedBlock reads =>
      let tab := world.tabs id
      if .checksClose record ∈ tab.pending then
        (world.setTab id { tab with pending := tab.pending.erase (.checksClose record)
          }).syncClosed record receiptBlocks observedBlock reads
      else none

end Calls

section Runs

/-- No tab is open and no note is known. -/
def World.started (clock : Nat) : World where
  store := ⟨⟨none, none, none, none, none, []⟩, [], []⟩
  tabs := fun _ => .closed
  opened := 0
  critical := none
  clock := clock
  serials := 0
  log := []

inductive World.Reaches (config : LeaseConfig) (allowed : World → Action → Prop)
    (start : World) : World → Prop where
  | refl : World.Reaches config allowed start start
  | step {world next : World} (action : Action)
      (reached : World.Reaches config allowed start world) (legal : allowed world action)
      (taken : world.step config action = some next) : World.Reaches config allowed start next

/-- Take these actions one after the other, if each is legal. -/
def World.follow (config : LeaseConfig) (legal : World → Action → Bool) (world : World) :
    List Action → Option World
  | [] => some world
  | action :: rest =>
      if legal world action then
        (world.step config action).bind fun next => next.follow config legal rest
      else none

theorem World.Reaches.follow {config : LeaseConfig} {legal : World → Action → Bool}
    {start world next : World} {actions : List Action}
    (reached : World.Reaches config (fun world action => legal world action = true) start world)
    (followed : world.follow config legal actions = some next) :
    World.Reaches config (fun world action => legal world action = true) start next := by
  induction actions generalizing world with
  | nil => exact Option.some.inj followed ▸ reached
  | cons action rest ih =>
    rw [World.follow] at followed
    split at followed
    case isTrue fine =>
      obtain ⟨middle, taken, after⟩ := Option.bind_eq_some_iff.mp followed
      exact ih (reached.step action fine taken) after
    · cases followed

/-- A world with a property that these actions lead to. -/
theorem World.exists_reached (config : LeaseConfig) (legal : World → Action → Bool)
    (start : World) (actions : List Action) (P : World → Bool)
    (ran : (start.follow config legal actions).any P = true) :
    ∃ world, World.Reaches config (fun world action => legal world action = true) start world ∧
      P world = true := by
  cases followed : start.follow config legal actions with
  | none =>
    rw [followed] at ran
    cases ran
  | some world =>
    rw [followed] at ran
    exact ⟨world, World.Reaches.refl.follow followed, ran⟩

end Runs

end ZkApi.Browser
