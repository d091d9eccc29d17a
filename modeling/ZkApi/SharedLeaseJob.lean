import ZkApi.BrowserLeases

/-!
# The shared lease job of a tab

The calls of a tab for a lease share the job that issues it.  Each call may have a
signal that ends it at any moment; the last call to be ended ends the job as well.
The job goes on from one answer to the next, and calls start, join and leave it in
between.
-/

namespace ZkApi.Browser.Shared

open Clientd

section Types

/-- What a promise settles with; `aborted` is the `AbortError` of a signal. -/
inductive Outcome where
  | lease (lease : ActiveLease)
  | aborted
  | thrown (error : BrowserError)
deriving DecidableEq

/-- What the job waits for, or how it has ended.  `returned` is before and `cleared`
after the `finally` of the job, and a `settled` promise has told whoever waits for it. -/
inductive JobStage where
  | retires
  | locks
  | reloads
  | recovers
  | syncs (migrated : Bool)
  | proves (migrated : Bool)
  | sends (legacy : Bool) (request : ApiRequestV2) (attempt deadline : Nat)
  | rests (legacy : Bool) (request : ApiRequestV2) (attempt deadline : Nat)
  | verifies (legacy : Bool) (request : ApiRequestV2) (lease : IssuedLease)
  | migrates
  | commits (lease : IssuedLease)
  | returned (outcome : Outcome)
  | cleared (outcome : Outcome)
  | settled (outcome : Outcome)
deriving DecidableEq

/-- A job with the signal of its own controller. -/
structure Job where
  sessionId : String
  budget : Nat
  aborted : Bool
  stage : JobStage
deriving DecidableEq

/-- Where a call of `ensureLease` is; a call that waits for a job may have been decided
before it goes on. -/
inductive CallStage where
  | initializes
  | reloads (now : Nat)
  | waits (job : Nat) (decided : Option Outcome)
  | ended (outcome : Outcome)
deriving DecidableEq

structure Caller where
  sessionId : String
  budget : Nat
  hasSignal : Bool
  aborted : Bool
  joined : Option Nat
  stage : CallStage
deriving DecidableEq

/-- `leasePromise` is the place of the current job in `jobs`. -/
structure World where
  ownerId : String
  runtime : Runtime
  activeLease : Option ActiveLease
  leasePromise : Option Nat
  leaseWaiterCount : Nat
  jobs : List Job
  callers : List Caller
  clock : Nat
deriving DecidableEq

inductive Reply where
  | done
  | runtime (runtime : Runtime)
  | prepared (journal : RequestJournal)
  | lease (lease : IssuedLease)
  | throws (error : BrowserError)
  | aborts
deriving DecidableEq

end Types

section Jobs

def World.setJob (world : World) (id : Nat) (job : Job) : World :=
  { world with jobs := world.jobs.set id job }

/-- `throwIfAborted(controller.signal)`, then go on to `stage`. -/
def Job.goOn (job : Job) (stage : JobStage) : Job :=
  { job with stage := if job.aborted then .returned .aborted else stage }

def Job.throw (job : Job) (error : BrowserError) : Job :=
  { job with stage := .returned (.thrown error) }

/-- The stages that pass the signal on to what they wait for. -/
def JobStage.hasSignal : JobStage → Bool
  | .recovers | .sends .. | .rests .. | .verifies .. | .migrates => true
  | _ => false

/-- Start with the journal of the wallet, or prove a new request. -/
def Job.prepareLeaseRequest (job : Job) (runtime : Runtime) (migrated : Bool) (clock : Nat) :
    Job :=
  match runtime.state with
  | none => job.throw (.plain "Fund a private balance before starting a chat.")
  | some state =>
      if unresolvedLateWithdrawalForNote runtime state.noteId then
        job.throw (.conflict ("A withdrawal from another tab may already be on-chain. Check " ++
          "its status before using this balance.") "late_withdrawal_pending")
      else match runtime.journal with
        | some journal =>
            let request := journal.preparedRequest
            let legacy := request.publicInputs.solvencyBound != job.budget && !migrated
            { job with stage := .sends legacy request 1 (clock + leaseIssueMaxWait) }
        | none =>
            if runtime.preparedWithdrawal.isSome then
              job.throw (.plain "Finish the prepared withdrawal before sending another message.")
            else { job with stage := .syncs migrated }

def Job.prepareUnlessAborted (job : Job) (runtime : Runtime) (migrated : Bool) (clock : Nat) :
    Job :=
  if job.aborted then { job with stage := .returned .aborted }
  else job.prepareLeaseRequest runtime migrated clock

/-- A request for the lease has failed: wait for another attempt, or end. -/
def Job.requestFailed (job : Job) (legacy : Bool) (request : ApiRequestV2)
    (attempt deadline clock : Nat) (error : BrowserError) : Job :=
  if job.aborted then { job with stage := .returned .aborted }
  else match retryDelay (.lease legacy) error attempt with
    | none => job.throw error
    | some delay =>
        if deadline < clock + delay then job.throw error
        else { job with stage := .rests legacy request attempt deadline }

def openLease (serial : Nat) (sessionId : String) (lease : IssuedLease) : ActiveLease where
  serial := serial
  clientRequestId := lease.clientRequestId
  sessionId := sessionId
  apiKey := lease.apiKey
  expiresAt := lease.expiresAt
  settleAfter := lease.settleAfter
  spendingLimit := lease.spendingLimit
  inFlight := 0
  retiring := false
  retired := false

/-- `issueLease` after an answer; `none` where no such answer can come. -/
def World.answer (world : World) (id : Nat) (job : Job) (reply : Reply) : Option World :=
  match job.stage, reply with
  | .commits lease, .done =>
      let active := openLease id job.sessionId lease
      some { world.setJob id { job with stage := .returned (.lease active) } with
        activeLease := some active
        runtime := { world.runtime with
          lease := some (leaseRow world.ownerId job.sessionId lease) } }
  | .returned _, _ | .cleared _, _ | .settled _, _ => none
  | stage, .aborts =>
      if job.aborted && stage.hasSignal then
        some (world.setJob id { job with stage := .returned .aborted })
      else none
  | .sends legacy request attempt deadline, .throws error =>
      let runtime := if error.code = some "stale_root" ∧ legacy = false ∧ job.aborted = false
        then { world.runtime with journal := none } else world.runtime
      some ({ world with runtime := runtime }.setJob id
        (job.requestFailed legacy request attempt deadline world.clock error))
  | _, .throws error => some (world.setJob id (job.throw error))
  | .retires, .done => some (world.setJob id { job with stage := .locks })
  | .locks, .done => some (world.setJob id (job.goOn .reloads))
  | .reloads, .runtime runtime =>
      some ({ world with runtime := runtime }.setJob id (job.goOn .recovers))
  | .recovers, .runtime runtime =>
      some ({ world with runtime := runtime }.setJob id
        (job.prepareUnlessAborted runtime false world.clock))
  | .syncs migrated, .done => some (world.setJob id (job.goOn (.proves migrated)))
  | .proves _, .prepared journal =>
      let request := journal.preparedRequest
      -- the worker proves the bound that it was asked for
      if request.publicInputs.solvencyBound ≠ job.budget then none
      else
        let runtime := if job.aborted then world.runtime
          else { world.runtime with journal := some journal }
        some ({ world with runtime := runtime }.setJob id
          (job.goOn (.sends false request 1 (world.clock + leaseIssueMaxWait))))
  | .sends legacy request _ _, .lease lease =>
      if job.aborted then some (world.setJob id { job with stage := .returned .aborted })
      else match verifyLease request lease world.clock with
        | some error => some (world.setJob id (job.throw error))
        | none => some (world.setJob id { job with stage := .verifies legacy request lease })
  | .rests legacy request attempt deadline, .done =>
      some (world.setJob id (job.goOn (.sends legacy request (attempt + 1) deadline)))
  | .verifies legacy _ lease, .done =>
      if legacy then some (world.setJob id { job with stage := .migrates })
      else some (world.setJob id (job.goOn (.commits lease)))
  | .migrates, .runtime runtime =>
      -- the installed receipt has taken the journal of the legacy request
      if runtime.journal.isSome then none
      else some ({ world with runtime := runtime }.setJob id
        (job.prepareUnlessAborted runtime true world.clock))
  | _, _ => none

end Jobs

section Calls

def World.setCaller (world : World) (id : Nat) (caller : Caller) : World :=
  { world with callers := world.callers.set id caller }

def World.endCall (world : World) (id : Nat) (caller : Caller) (outcome : Outcome) : World :=
  world.setCaller id { caller with stage := .ended outcome }

def World.waitForLeasePromise (world : World) (id : Nat) (caller : Caller) (place : Nat)
    (job : Job) : World :=
  if job.sessionId ≠ caller.sessionId then
    world.endCall id caller (.thrown (.conflict
      s!"Chat {job.sessionId} is creating the current private key." "lease_session_conflict"))
  else if job.budget ≠ caller.budget then
    world.endCall id caller (.thrown (.conflict ("A different model budget is being prepared. " ++
      "Retry when the current request finishes.") "lease_budget_conflict"))
  else if caller.aborted then world.endCall id caller .aborted
  else { world.setCaller id { caller with joined := some place, stage := .waits place none } with
    leaseWaiterCount := world.leaseWaiterCount + 1 }

/-- The current job, if there is one. -/
def World.current (world : World) : Option (Nat × Job) :=
  world.leasePromise.bind fun place => (world.jobs[place]?).map fun job => (place, job)

def World.ensureLease (world : World) (id : Nat) (caller : Caller) : World :=
  if caller.aborted then world.endCall id caller .aborted
  else match world.current with
    | some (place, job) => world.waitForLeasePromise id caller place job
    | none =>
        let reloads := world.setCaller id { caller with stage := .reloads world.clock }
        match world.activeLease with
        | none => reloads
        | some lease =>
            if lease.isUsable caller.budget world.clock then
              if lease.sessionId ≠ caller.sessionId then
                world.endCall id caller (.thrown (.conflict
                  s!"Chat {lease.sessionId} owns the current private key until it settles."
                  "lease_session_conflict"))
              else world.endCall id caller (.lease lease)
            else if 0 < lease.inFlight then
              world.endCall id caller (.thrown (.conflict ("Wait for the current requests to " ++
                "finish before renewing or changing the private key budget.")
                "lease_requests_in_flight"))
            else reloads

/-- Create the job; it runs up to the first answer that it waits for. -/
def World.createJob (world : World) (caller : Caller) : World :=
  { world with
    leasePromise := some world.jobs.length
    jobs := world.jobs ++ [⟨caller.sessionId, caller.budget, false,
      if world.activeLease.isSome then .retires else .locks⟩] }

/-- Go on with a call after the reload. -/
def World.ensureReloaded (world : World) (id : Nat) (caller : Caller) (now : Nat) : World :=
  if world.runtime.lease.any (·.isForeign world.ownerId now) then
    world.endCall id caller
      (.thrown (.conflict "Another OA Chat tab owns the current private key." "lease_tab_conflict"))
  else match world.current with
    | some (place, job) => world.waitForLeasePromise id caller place job
    | none =>
        (world.createJob caller).waitForLeasePromise id caller world.jobs.length
          ⟨caller.sessionId, caller.budget, false,
            if world.activeLease.isSome then .retires else .locks⟩

/-- The `finally` of a call that has waited for a job. -/
def World.resumeCall (world : World) (id : Nat) (caller : Caller) (place : Nat)
    (outcome : Outcome) : World :=
  let count := world.leaseWaiterCount - 1
  let left := { world.endCall id caller outcome with leaseWaiterCount := count }
  if caller.aborted = true ∧ world.leasePromise = some place ∧ count = 0 then
    { left with jobs := left.jobs.modify place fun job => { job with aborted := true } }
  else left

/-- The signal of a call; its handler is there as long as the call waits. -/
def Caller.abort (caller : Caller) : Caller :=
  { caller with
    aborted := true
    stage := match caller.stage with
      | .waits place none => .waits place (some .aborted)
      | stage => stage }

/-- A promise that settles decides the calls that still wait for it. -/
def Caller.decide (place : Nat) (outcome : Outcome) (caller : Caller) : Caller :=
  if caller.stage = .waits place none then { caller with stage := .waits place (some outcome) }
  else caller

inductive Action where
  | calls (sessionId : String) (budget : Nat) (hasSignal aborted : Bool)
  | aborts (caller : Nat)
  | initialized (caller : Nat) (error : Option BrowserError)
  | reloaded (caller : Nat) (runtime : Except BrowserError Runtime)
  | resumes (caller : Nat)
  | answers (job : Nat) (reply : Reply)
  | clears (job : Nat)
  | settles (job : Nat)
  | marks (retiring retired : Bool) (inFlight : Nat)
  | drops
  | changes (runtime : Runtime)
  | ticks (seconds : Nat)

/-- What can happen in the tab; the last four are what its other calls do. -/
def World.step (world : World) : Action → Option World
  | .calls sessionId budget hasSignal aborted =>
      let aborted := hasSignal && aborted
      some { world with callers := world.callers ++ [⟨sessionId, budget, hasSignal, aborted, none,
        if aborted then .ended .aborted else .initializes⟩] }
  | .aborts id => (world.callers[id]?).bind fun caller =>
      if caller.hasSignal then some (world.setCaller id caller.abort) else none
  | .initialized id error => (world.callers[id]?).bind fun caller =>
      match caller.stage, error with
      | .initializes, some error => some (world.endCall id caller (.thrown error))
      | .initializes, none => some (world.ensureLease id caller)
      | _, _ => none
  | .reloaded id reply => (world.callers[id]?).bind fun caller =>
      match caller.stage, reply with
      | .reloads _, .error error => some (world.endCall id caller (.thrown error))
      | .reloads now, .ok runtime =>
          some ({ world with runtime := runtime }.ensureReloaded id caller now)
      | _, _ => none
  | .resumes id => (world.callers[id]?).bind fun caller =>
      match caller.stage with
      | .waits place (some outcome) => some (world.resumeCall id caller place outcome)
      | _ => none
  | .answers id reply => (world.jobs[id]?).bind fun job => world.answer id job reply
  | .clears id => (world.jobs[id]?).bind fun job =>
      match job.stage with
      | .returned outcome => some { world.setJob id { job with stage := .cleared outcome } with
          leasePromise := if world.leasePromise = some id then none else world.leasePromise }
      | _ => none
  | .settles id => (world.jobs[id]?).bind fun job =>
      match job.stage with
      | .cleared outcome => some { world.setJob id { job with stage := .settled outcome } with
          callers := world.callers.map (Caller.decide id outcome) }
      | _ => none
  | .marks retiring retired inFlight => some { world with
      activeLease := world.activeLease.map fun lease => { lease with
        retiring := retiring, retired := retired, inFlight := inFlight } }
  | .drops => some { world with activeLease := none }
  | .changes runtime => some { world with runtime := runtime }
  | .ticks seconds => some { world with clock := world.clock + seconds }

end Calls

end ZkApi.Browser.Shared
