import ZkApi.SharedLeaseJob
import ZkApi.StepRuns

/-!
# The calls that share a lease job

The job is aborted only after every call that joined it has ended.  A call gets the
lease of its own session and budget, and an `AbortError` only for its own signal, unless
it joins a job that its earlier calls have abandoned.
-/

namespace ZkApi.Browser.Shared

open Clientd

section Outcomes

/-- An outcome for a call with this session and budget. -/
def Outcome.Fits (sessionId : String) (budget : Nat) : Outcome → Prop
  | .lease issued => issued.sessionId = sessionId ∧ issued.spendingLimit = budget
  | .aborted | .thrown _ => True

def JobStage.Fits (sessionId : String) (budget : Nat) : JobStage → Prop
  | .sends legacy request _ _ | .rests legacy request _ _ =>
      legacy = false → request.publicInputs.solvencyBound = budget
  | .verifies legacy request lease => lease.spendingLimit = request.publicInputs.solvencyBound ∧
      (legacy = false → request.publicInputs.solvencyBound = budget)
  | .commits lease => lease.spendingLimit = budget
  | .returned outcome | .cleared outcome | .settled outcome => outcome.Fits sessionId budget
  | _ => True

def Job.Fits (job : Job) : Prop :=
  job.stage.Fits job.sessionId job.budget

/-- The job was aborted before its last look at its signal. -/
def Job.doomed (job : Job) : Bool :=
  match job.stage with
  | .returned outcome | .cleared outcome | .settled outcome => outcome == .aborted
  | .commits _ => false
  | _ => job.aborted

def Caller.isWaiting (caller : Caller) : Bool :=
  match caller.stage with
  | .waits .. => true
  | _ => false

/-- What the call gets, once that is decided. -/
def Caller.outcome? (caller : Caller) : Option Outcome :=
  match caller.stage with
  | .waits _ decided => decided
  | .ended outcome => some outcome
  | _ => none

def Caller.isEnded (caller : Caller) : Bool :=
  match caller.stage with
  | .ended _ => true
  | _ => false

end Outcomes

section Jobs

variable {world next : World} {id : Nat} {job after : Job}

/-- What one answer does to the job. -/
structure Job.Follows (job after : Job) : Prop where
  sessionId : after.sessionId = job.sessionId
  budget : after.budget = job.budget
  aborted : after.aborted = job.aborted
  fits : job.Fits → after.Fits
  doomed : after.doomed = true → job.doomed = true

theorem Job.goOn_follows (stage : JobStage) (live : job.aborted = true → job.doomed = true)
    (fits : job.Fits → stage.Fits job.sessionId job.budget)
    (doomed : job.aborted = false → ({ job with stage := stage } : Job).doomed = false) :
    job.Follows (job.goOn stage) := by
  cases stopped : job.aborted with
  | true =>
    have ends : job.goOn stage = { job with stage := .returned .aborted } := by
      simp only [Job.goOn, stopped, if_true]
    rw [ends]
    exact ⟨rfl, rfl, rfl, fun _ => trivial, fun _ => live stopped⟩
  | false =>
    have goes : job.goOn stage = { job with stage := stage } := by
      simp only [Job.goOn, stopped, Bool.false_eq_true, if_false]
    rw [goes]
    refine ⟨rfl, rfl, rfl, fits, fun dead => ?_⟩
    rw [doomed stopped] at dead
    cases dead

theorem Job.throw_follows (error : BrowserError) : job.Follows (job.throw error) where
  sessionId := rfl
  budget := rfl
  aborted := rfl
  fits _ := trivial
  doomed dead := by simp [Job.throw, Job.doomed] at dead

theorem Job.abort_follows (dead : job.doomed = true) :
    job.Follows { job with stage := .returned .aborted } :=
  ⟨rfl, rfl, rfl, fun _ => trivial, fun _ => dead⟩

theorem Job.prepare_follows (runtime : Runtime) (migrated : Bool) (clock : Nat)
    (live : job.doomed = job.aborted) (fresh : migrated = true → runtime.journal = none) :
    job.Follows (job.prepareUnlessAborted runtime migrated clock) := by
  rw [Job.prepareUnlessAborted]
  split
  case isTrue stopped => exact Job.abort_follows (live.trans stopped)
  case isFalse runs =>
    rw [Job.prepareLeaseRequest]
    split
    · exact Job.throw_follows _
    · split
      · exact Job.throw_follows _
      · split
        case h_1 journal stored =>
          refine ⟨rfl, rfl, rfl, fun _ current => ?_, fun dead => absurd dead runs⟩
          cases migrated with
          | true => rw [fresh rfl] at stored; cases stored
          | false => simpa using current
        case h_2 =>
          split
          · exact Job.throw_follows _
          · exact ⟨rfl, rfl, rfl, fun _ => trivial, fun dead => absurd dead runs⟩

theorem Job.requestFailed_follows {legacy : Bool} {request : ApiRequestV2}
    {attempt deadline : Nat} (clock : Nat) (error : BrowserError)
    (sending : job.stage = .sends legacy request attempt deadline) :
    job.Follows (job.requestFailed legacy request attempt deadline clock error) := by
  have live : job.doomed = job.aborted := by rw [Job.doomed, sending]
  rw [Job.requestFailed]
  split
  case isTrue stopped => exact Job.abort_follows (live.trans stopped)
  case isFalse runs =>
    split
    · exact Job.throw_follows _
    · split
      · exact Job.throw_follows _
      · refine ⟨rfl, rfl, rfl, fun fits => ?_, fun dead => absurd dead runs⟩
        rw [Job.Fits, sending] at fits
        exact fits

/-- One answer changes this job and nothing that the calls look at, apart from the lease. -/
structure World.Moves (world next : World) (id : Nat) (job after : Job) : Prop where
  follows : job.Follows after
  jobs : next.jobs = world.jobs.set id after
  callers : next.callers = world.callers
  leaseWaiterCount : next.leaseWaiterCount = world.leaseWaiterCount

theorem World.moves_setJob (runtime : Runtime) (follows : job.Follows after) :
    world.Moves ({ world with runtime := runtime }.setJob id after) id job after :=
  ⟨follows, rfl, rfl, rfl⟩

/-- The stages before the last look at the signal. -/
def JobStage.checksAgain : JobStage → Bool
  | .commits _ | .returned _ | .cleared _ | .settled _ => false
  | _ => true

theorem Job.doomed_of_checksAgain (checks : job.stage.checksAgain = true) :
    job.doomed = job.aborted := by
  cases at' : job.stage with
  | commits _ | returned _ | cleared _ | settled _ =>
    rw [at'] at checks
    cases checks
  | _ => simp only [Job.doomed, at']

theorem Job.goOn_checked (stage : JobStage) (checks : job.stage.checksAgain = true)
    (fits : job.Fits → stage.Fits job.sessionId job.budget)
    (doomed : job.aborted = false → ({ job with stage := stage } : Job).doomed = false) :
    job.Follows (job.goOn stage) :=
  Job.goOn_follows stage (Job.doomed_of_checksAgain checks).trans fits doomed

theorem World.answer_aborts (answered : world.answer id job .aborts = some next) :
    job.doomed = true ∧ next = world.setJob id { job with stage := .returned .aborted } := by
  unfold World.answer at answered
  cases at' : job.stage <;> simp [at', JobStage.hasSignal] at answered
  all_goals
    have checks : job.stage.checksAgain = true := by rw [at']; rfl
    exact ⟨(Job.doomed_of_checksAgain checks).trans answered.1, answered.2.symm⟩

theorem World.answer_throws {error : BrowserError}
    (answered : world.answer id job (.throws error) = some next) :
    ∃ after, world.Moves next id job after := by
  unfold World.answer at answered
  cases at' : job.stage with
  | sends legacy request attempt deadline =>
    simp only [at', Option.some.injEq] at answered
    subst answered
    exact ⟨_, World.moves_setJob _ (Job.requestFailed_follows _ error at')⟩
  | returned outcome | cleared outcome | settled outcome =>
    simp [at'] at answered
  | _ =>
    simp only [at', Option.some.injEq] at answered
    subst answered
    exact ⟨_, World.moves_setJob _ (Job.throw_follows error)⟩

/-- The answer of a promise that has nothing to say. -/
theorem World.answer_done (answered : world.answer id job .done = some next) :
    ∃ after, world.Moves next id job after := by
  unfold World.answer at answered
  cases at' : job.stage with
  | commits issued =>
    simp only [at', Option.some.injEq] at answered
    subst answered
    refine ⟨{ job with stage := .returned (.lease (openLease id job.sessionId issued)) },
      ⟨rfl, rfl, rfl, fun fits => ?_, fun dead => ?_⟩, rfl, rfl, rfl⟩
    · rw [Job.Fits, at'] at fits
      exact ⟨rfl, fits⟩
    · simp [Job.doomed] at dead
  | retires =>
    simp only [at', Option.some.injEq] at answered
    subst answered
    refine ⟨{ job with stage := .locks }, World.moves_setJob _
      ⟨rfl, rfl, rfl, fun _ => trivial, fun dead => ?_⟩⟩
    rwa [Job.doomed, at']
  | locks | syncs migrated =>
    simp only [at', Option.some.injEq] at answered
    subst answered
    have checks : job.stage.checksAgain = true := by rw [at']; rfl
    exact ⟨_, World.moves_setJob _ (Job.goOn_checked _ checks (fun _ => trivial) fun live => live)⟩
  | rests legacy request attempt deadline =>
    simp only [at', Option.some.injEq] at answered
    subst answered
    have checks : job.stage.checksAgain = true := by rw [at']; rfl
    refine ⟨_, World.moves_setJob _ (Job.goOn_checked _ checks (fun fits => ?_) fun live => live)⟩
    rw [Job.Fits, at'] at fits
    exact fits
  | verifies legacy request issued =>
    have checks : job.stage.checksAgain = true := by rw [at']; rfl
    simp only [at'] at answered
    split at answered
    case isTrue old =>
      obtain rfl := Option.some.inj answered
      refine ⟨{ job with stage := .migrates }, World.moves_setJob _
        ⟨rfl, rfl, rfl, fun _ => trivial, fun dead => ?_⟩⟩
      rwa [Job.doomed, at']
    case isFalse current =>
      obtain rfl := Option.some.inj answered
      refine ⟨_, World.moves_setJob _ (Job.goOn_checked _ checks (fun fits => ?_) fun _ => rfl)⟩
      rw [Job.Fits, at'] at fits
      exact fits.1.trans (fits.2 (Bool.eq_false_of_not_eq_true current))
  | _ => simp [at'] at answered

theorem World.answer_runtime {runtime : Runtime}
    (answered : world.answer id job (.runtime runtime) = some next) :
    ∃ after, world.Moves next id job after := by
  unfold World.answer at answered
  cases at' : job.stage with
  | reloads =>
    simp only [at', Option.some.injEq] at answered
    subst answered
    have checks : job.stage.checksAgain = true := by rw [at']; rfl
    exact ⟨_, World.moves_setJob _ (Job.goOn_checked _ checks (fun _ => trivial) fun live => live)⟩
  | recovers =>
    simp only [at', Option.some.injEq] at answered
    subst answered
    have checks : job.stage.checksAgain = true := by rw [at']; rfl
    have follows := Job.prepare_follows runtime false world.clock
      (Job.doomed_of_checksAgain checks) Bool.noConfusion
    exact ⟨_, World.moves_setJob _ follows⟩
  | migrates =>
    have checks : job.stage.checksAgain = true := by rw [at']; rfl
    simp only [at'] at answered
    split at answered
    · cases answered
    case isFalse taken =>
      obtain rfl := Option.some.inj answered
      have follows := Job.prepare_follows runtime true world.clock
        (Job.doomed_of_checksAgain checks) fun _ => Option.not_isSome_iff_eq_none.mp taken
      exact ⟨_, World.moves_setJob _ follows⟩
  | _ => simp [at'] at answered

theorem World.answer_prepared {journal : RequestJournal}
    (answered : world.answer id job (.prepared journal) = some next) :
    ∃ after, world.Moves next id job after := by
  unfold World.answer at answered
  cases at' : job.stage with
  | proves migrated =>
    have checks : job.stage.checksAgain = true := by rw [at']; rfl
    simp only [at'] at answered
    split at answered
    · cases answered
    case isFalse bound =>
      obtain rfl := Option.some.inj answered
      have fits := Job.goOn_checked (.sends false journal.preparedRequest 1
        (world.clock + leaseIssueMaxWait)) checks (fun _ _ => not_not.mp bound) fun live => live
      exact ⟨_, World.moves_setJob _ fits⟩
  | _ => simp [at'] at answered

theorem verifyLease_bound {request : ApiRequestV2} {issued : IssuedLease} {now : Nat}
    (verified : verifyLease request issued now = none) :
    issued.spendingLimit = request.publicInputs.solvencyBound := by
  rw [verifyLease] at verified
  split at verified
  · cases verified
  · split at verified
    · cases verified
    case isFalse same => exact not_not.mp same

theorem World.answer_lease {issued : IssuedLease}
    (answered : world.answer id job (.lease issued) = some next) :
    ∃ after, world.Moves next id job after := by
  unfold World.answer at answered
  cases at' : job.stage with
  | sends legacy request attempt deadline =>
    have checks : job.stage.checksAgain = true := by rw [at']; rfl
    have live := Job.doomed_of_checksAgain checks
    simp only [at'] at answered
    split at answered
    case isTrue stopped =>
      obtain rfl := Option.some.inj answered
      exact ⟨_, World.moves_setJob _ (Job.abort_follows (live.trans stopped))⟩
    case isFalse runs =>
      split at answered
      case h_1 error refused =>
        obtain rfl := Option.some.inj answered
        exact ⟨_, World.moves_setJob _ (Job.throw_follows error)⟩
      case h_2 verified =>
        obtain rfl := Option.some.inj answered
        refine ⟨{ job with stage := .verifies legacy request issued }, World.moves_setJob _
          ⟨rfl, rfl, rfl, fun fits => ?_, fun dead => absurd dead runs⟩⟩
        rw [Job.Fits, at'] at fits
        exact ⟨verifyLease_bound verified, fits⟩
  | _ => simp [at'] at answered

theorem World.answer_moves {reply : Reply} (answered : world.answer id job reply = some next) :
    ∃ after, world.Moves next id job after := by
  cases reply with
  | done => exact World.answer_done answered
  | runtime runtime => exact World.answer_runtime answered
  | prepared journal => exact World.answer_prepared answered
  | lease issued => exact World.answer_lease answered
  | throws error => exact World.answer_throws answered
  | aborts =>
    obtain ⟨dead, rfl⟩ := World.answer_aborts answered
    exact ⟨_, World.moves_setJob _ (Job.abort_follows dead)⟩

end Jobs

section Callers

variable {jobs later : List Job} {caller : Caller} {outcome : Outcome}

structure Caller.Valid (jobs : List Job) (caller : Caller) : Prop where
  waits : ∀ place decided, caller.stage = .waits place decided →
    ∃ job, jobs[place]? = some job ∧ job.sessionId = caller.sessionId ∧
      job.budget = caller.budget
  gets : ∀ outcome, caller.outcome? = some outcome →
    outcome.Fits caller.sessionId caller.budget
  joined : ∀ place, caller.joined = some place →
    caller.isWaiting = true ∨ caller.isEnded = true

/-- Only its own signal ends the call with an `AbortError`. -/
structure Caller.Spared (jobs : List Job) (caller : Caller) : Prop where
  gets : caller.outcome? = some .aborted → caller.aborted = true
  waits : caller.aborted = false → ∀ place, caller.stage = .waits place none →
    ∀ job, jobs[place]? = some job → job.doomed = false

/-- The jobs keep what they are for. -/
def Keeps (jobs later : List Job) : Prop :=
  ∀ (place : Nat) (job : Job), jobs[place]? = some job → ∃ after : Job,
    later[place]? = some after ∧ after.sessionId = job.sessionId ∧ after.budget = job.budget

theorem Caller.Valid.keeps (valid : caller.Valid jobs) (keeps : Keeps jobs later) :
    caller.Valid later where
  waits place decided waiting := by
    obtain ⟨job, stored, session, budget⟩ := valid.waits place decided waiting
    obtain ⟨after, kept, sameSession, sameBudget⟩ := keeps place job stored
    exact ⟨after, kept, sameSession.trans session, sameBudget.trans budget⟩
  gets := valid.gets
  joined := valid.joined

theorem Caller.valid_ended (fits : outcome.Fits caller.sessionId caller.budget) :
    ({ caller with stage := .ended outcome } : Caller).Valid jobs where
  waits _ _ waiting := by cases waiting
  gets other got := by
    obtain rfl := Option.some.inj got
    exact fits
  joined _ _ := .inr rfl

theorem Caller.spared_ended (own : outcome = .aborted → caller.aborted = true) :
    ({ caller with stage := .ended outcome } : Caller).Spared jobs where
  gets got := own (Option.some.inj got)
  waits _ _ waiting := by cases waiting

theorem Caller.Valid.abort (valid : caller.Valid jobs) : caller.abort.Valid jobs := by
  cases at' : caller.stage with
  | waits place decided =>
    obtain ⟨job, stored, session, budget⟩ := valid.waits place decided at'
    refine ⟨fun other _ waiting => ?_, fun outcome got => ?_, fun _ _ => .inl ?_⟩
    · cases decided <;>
        (simp only [Caller.abort, at', CallStage.waits.injEq] at waiting
         obtain ⟨rfl, -⟩ := waiting
         exact ⟨job, stored, session, budget⟩)
    · cases decided with
      | none =>
        simp only [Caller.outcome?, Caller.abort, at', Option.some.injEq] at got
        subst got
        trivial
      | some known =>
        simp only [Caller.outcome?, Caller.abort, at', Option.some.injEq] at got
        subst got
        exact valid.gets known (by rw [Caller.outcome?, at'])
    · cases decided <;> simp only [Caller.isWaiting, Caller.abort, at']
  | initializes | reloads _ | ended _ =>
    have same : caller.abort.stage = caller.stage := by simp only [Caller.abort, at']
    refine ⟨fun place decided waiting => ?_, fun outcome got => ?_, fun place joined => ?_⟩
    · exact valid.waits place decided (same ▸ waiting)
    · rw [Caller.outcome?, same] at got
      exact valid.gets outcome got
    · have before := valid.joined place joined
      rwa [Caller.isWaiting, Caller.isEnded, same]

theorem Caller.spared_abort : caller.abort.Spared jobs where
  gets _ := rfl
  waits live := by cases live

theorem Caller.isWaiting_abort : caller.abort.isWaiting = caller.isWaiting := by
  cases at' : caller.stage with
  | waits place decided => cases decided <;> simp only [Caller.isWaiting, Caller.abort, at']
  | _ => simp only [Caller.isWaiting, Caller.abort, at']

end Callers

section Worlds

structure World.Valid (world : World) : Prop where
  jobs : ∀ job ∈ world.jobs, job.Fits
  callers : ∀ caller ∈ world.callers, caller.Valid world.jobs
  counts : world.leaseWaiterCount = world.callers.countP Caller.isWaiting

def World.Spared (world : World) : Prop :=
  ∀ caller ∈ world.callers, caller.Spared world.jobs

/-- The current job is one that the call would join, and it is doomed. -/
def World.joinsDoomed (world : World) (caller : Caller) : Bool :=
  world.current.any fun current => current.2.doomed && !caller.aborted &&
    current.2.sessionId == caller.sessionId && current.2.budget == caller.budget

/-- A call that goes on joins no doomed job. -/
def World.spares (world : World) : Action → Bool
  | .initialized id none => (world.callers[id]?).all fun caller => !world.joinsDoomed caller
  | .reloaded id (.ok runtime) => (world.callers[id]?).all fun caller =>
      match caller.stage with
      | .reloads now => runtime.lease.any (·.isForeign world.ownerId now) ||
          !world.joinsDoomed caller
      | _ => true
  | _ => true

variable {world next : World} {id place : Nat} {caller after : Caller} {job : Job}

/-- A call goes on and changes nothing else that the other calls look at. -/
structure World.Goes (world next : World) (id : Nat) (caller after : Caller) (live : Prop) :
    Prop where
  callers : next.callers = world.callers.set id after
  jobs : next.jobs = world.jobs
  counts : next.leaseWaiterCount + (if caller.isWaiting then 1 else 0) =
    world.leaseWaiterCount + (if after.isWaiting then 1 else 0)
  valid : after.Valid world.jobs
  spared : live → after.Spared world.jobs

theorem List.countP_set_add {α : Type*} (p : α → Bool) {items : List α} {id : Nat} {item : α}
    (stored : items[id]? = some item) (new : α) :
    (items.set id new).countP p + (if p item then 1 else 0) =
      items.countP p + (if p new then 1 else 0) := by
  obtain ⟨inside, rfl⟩ := List.getElem?_eq_some_iff.mp stored
  rw [List.countP_set inside]
  have counted : (if p items[id] then 1 else 0) ≤ items.countP p := by
    split
    case isTrue holds => exact List.countP_pos_iff.mpr ⟨_, List.getElem_mem inside, holds⟩
    · exact Nat.zero_le _
  omega

theorem World.Valid.goes {live : Prop} (valid : world.Valid)
    (stored : world.callers[id]? = some caller)
    (goes : world.Goes next id caller after live) : next.Valid where
  jobs job member := valid.jobs job (goes.jobs ▸ member)
  callers other member := by
    rw [goes.callers] at member
    rw [goes.jobs]
    rcases List.mem_or_eq_of_mem_set member with old | rfl
    · exact valid.callers other old
    · exact goes.valid
  counts := by
    have counted := List.countP_set_add Caller.isWaiting stored after
    have before := valid.counts
    have now := goes.counts
    rw [goes.callers]
    omega

theorem World.Spared.goes {live : Prop} (spared : world.Spared)
    (goes : world.Goes next id caller after live) (holds : live) : next.Spared := by
  intro other member
  rw [goes.callers] at member
  rw [goes.jobs]
  rcases List.mem_or_eq_of_mem_set member with old | rfl
  · exact spared other old
  · exact goes.spared holds

theorem World.endCall_goes (idle : caller.isWaiting = false) {outcome : Outcome}
    (fits : outcome.Fits caller.sessionId caller.budget)
    (own : outcome = .aborted → caller.aborted = true) (live : Prop) :
    world.Goes (world.endCall id caller outcome) id caller
      { caller with stage := .ended outcome } live where
  callers := rfl
  jobs := rfl
  counts := by rw [idle]; rfl
  valid := Caller.valid_ended fits
  spared _ := Caller.spared_ended own

theorem World.throw_goes (idle : caller.isWaiting = false) (error : BrowserError) (live : Prop) :
    world.Goes (world.endCall id caller (.thrown error)) id caller
      { caller with stage := .ended (.thrown error) } live := by
  apply World.endCall_goes idle
  · trivial
  · intro own
    cases own

theorem World.abort_goes (idle : caller.isWaiting = false) (own : caller.aborted = true)
    (live : Prop) : world.Goes (world.endCall id caller .aborted) id caller
      { caller with stage := .ended .aborted } live := by
  apply World.endCall_goes idle
  · trivial
  · exact fun _ => own

theorem World.waitForLeasePromise_goes (id : Nat) (idle : caller.isWaiting = false)
    (stored : world.jobs[place]? = some job) :
    ∃ after, world.Goes (world.waitForLeasePromise id caller place job) id caller after
      (caller.aborted = false → job.sessionId = caller.sessionId → job.budget = caller.budget →
        job.doomed = false) := by
  rw [World.waitForLeasePromise]
  split
  · exact ⟨_, World.throw_goes idle _ _⟩
  case isFalse session =>
    split
    · exact ⟨_, World.throw_goes idle _ _⟩
    case isFalse budget =>
      split
      case isTrue own => exact ⟨_, World.abort_goes idle own _⟩
      case isFalse alive =>
        rw [not_not] at session budget
        refine ⟨{ caller with joined := some place, stage := .waits place none }, rfl, rfl, ?_,
          ⟨?_, ?_, ?_⟩, fun live => ⟨?_, ?_⟩⟩
        · rw [idle]
          rfl
        · rintro other decided ⟨⟩
          exact ⟨job, stored, session, budget⟩
        · rintro outcome ⟨⟩
        · exact fun _ _ => .inl rfl
        · rintro ⟨⟩
        · rintro fresh other ⟨⟩ same found
          rw [stored, Option.some.injEq] at found
          subst found
          exact live fresh session budget

theorem World.createJob_valid (valid : world.Valid) (caller : Caller) :
    (world.createJob caller).Valid where
  jobs job member := by
    rcases List.mem_append.mp member with old | new
    · exact valid.jobs job old
    · rw [List.mem_singleton] at new
      subst new
      rw [Job.Fits]
      split <;> trivial
  callers other member :=
    (valid.callers other member).keeps fun place job stored =>
      ⟨job, List.getElem?_append_left (List.getElem?_eq_some_iff.mp stored).1 ▸ stored, rfl, rfl⟩
  counts := valid.counts

theorem World.createJob_spared (valid : world.Valid) (spared : world.Spared) (caller : Caller) :
    (world.createJob caller).Spared := by
  intro other member
  refine ⟨(spared other member).gets, fun live place waiting job found => ?_⟩
  obtain ⟨old, stored, -⟩ := (valid.callers other member).waits place none waiting
  have inside := (List.getElem?_eq_some_iff.mp stored).1
  rw [World.createJob, List.getElem?_append_left inside] at found
  exact (spared other member).waits live place waiting job found

theorem World.jobs_of_current (current : world.current = some (place, job)) :
    world.jobs[place]? = some job := by
  obtain ⟨shared, -, found⟩ := Option.bind_eq_some_iff.mp current
  obtain ⟨other, stored, same⟩ := Option.map_eq_some_iff.mp found
  obtain ⟨rfl, rfl⟩ := Prod.mk.inj same
  exact stored

theorem World.live_of_joinsDoomed (current : world.current = some (place, job))
    (clear : world.joinsDoomed caller = false) (alive : caller.aborted = false)
    (session : job.sessionId = caller.sessionId) (budget : job.budget = caller.budget) :
    job.doomed = false := by
  simpa [World.joinsDoomed, current, alive, session, budget] using clear

theorem ActiveLease.isUsable_budget {lease : ActiveLease} {budget now : Nat}
    (usable : lease.isUsable budget now = true) : lease.spendingLimit = budget := by
  simp only [ActiveLease.isUsable, Bool.and_eq_true, beq_iff_eq] at usable
  exact usable.1.1.2

theorem World.ensureLease_goes (starting : caller.stage = .initializes)
    (fresh : caller.joined = none) :
    ∃ after, world.Goes (world.ensureLease id caller) id caller after
      (world.joinsDoomed caller = false) := by
  have idle : caller.isWaiting = false := by rw [Caller.isWaiting, starting]
  have reloads : world.Goes (world.setCaller id { caller with stage := .reloads world.clock }) id
      caller { caller with stage := .reloads world.clock } (world.joinsDoomed caller = false) := by
    refine ⟨rfl, rfl, by rw [idle]; rfl, ⟨?_, ?_, ?_⟩, fun _ => ⟨?_, ?_⟩⟩
    · rintro place decided ⟨⟩
    · rintro outcome ⟨⟩
    · intro place joined
      rw [fresh] at joined
      cases joined
    · rintro ⟨⟩
    · rintro - place ⟨⟩
  rw [World.ensureLease]
  split
  case isTrue own => exact ⟨_, World.abort_goes idle own _⟩
  case isFalse alive =>
    split
    case h_1 _ job current =>
      obtain ⟨after, goes⟩ :=
        World.waitForLeasePromise_goes id idle (World.jobs_of_current current)
      exact ⟨after, { goes with
        spared := fun clear => goes.spared (World.live_of_joinsDoomed current clear) }⟩
    case h_2 =>
      split
      · exact ⟨_, reloads⟩
      case h_2 lease open' =>
        split
        case isTrue usable =>
          split
          · exact ⟨_, World.throw_goes idle _ _⟩
          case isFalse session =>
            have fits : (Outcome.lease lease).Fits caller.sessionId caller.budget :=
              ⟨not_not.mp session, ActiveLease.isUsable_budget usable⟩
            exact ⟨_, World.endCall_goes idle fits (fun own => by cases own) _⟩
        case isFalse =>
          split
          · exact ⟨_, World.throw_goes idle _ _⟩
          · exact ⟨_, reloads⟩

end Worlds

section Steps

variable {world next middle : World} {id place : Nat} {caller after : Caller} {job : Job}
  {live clear : Prop}

/-- A step that keeps the signal of every job. -/
structure World.Quiet (world next : World) (clear : Prop) : Prop where
  valid : next.Valid
  spared : world.Spared → clear → next.Spared
  signals : ∀ (place : Nat) (job : Job), world.jobs[place]? = some job →
    ∃ after : Job, next.jobs[place]? = some after ∧ after.aborted = job.aborted

theorem World.Quiet.trans (first : world.Quiet middle clear) (second : middle.Quiet next clear) :
    world.Quiet next clear where
  valid := second.valid
  spared spared holds := second.spared (first.spared spared holds) holds
  signals place job stored := by
    obtain ⟨between, found, kept⟩ := first.signals place job stored
    obtain ⟨after, later, same⟩ := second.signals place between found
    exact ⟨after, later, same.trans kept⟩

theorem World.Valid.quiet_goes (valid : world.Valid) (stored : world.callers[id]? = some caller)
    (goes : world.Goes next id caller after live) (holds : clear → live) :
    world.Quiet next clear where
  valid := valid.goes stored goes
  spared spared steady := spared.goes goes (holds steady)
  signals place job found := ⟨job, by rwa [goes.jobs], rfl⟩

theorem World.Valid.createJob_quiet (valid : world.Valid) (caller : Caller) (clear : Prop) :
    world.Quiet (world.createJob caller) clear where
  valid := World.createJob_valid valid caller
  spared spared _ := World.createJob_spared valid spared caller
  signals _ job stored :=
    ⟨job, List.getElem?_append_left (List.getElem?_eq_some_iff.mp stored).1 ▸ stored, rfl⟩

theorem Caller.Valid.fresh {jobs : List Job} (valid : caller.Valid jobs)
    (idle : caller.isWaiting = false) (open' : caller.isEnded = false) : caller.joined = none := by
  cases joined : caller.joined with
  | none => rfl
  | some place =>
    rcases valid.joined place joined with waits | ended
    · rw [idle] at waits
      cases waits
    · rw [open'] at ended
      cases ended

theorem World.Valid.calls_quiet (valid : world.Valid) (sessionId : String) (budget : Nat)
    (hasSignal aborted : Bool) :
    world.Quiet { world with callers := world.callers ++ [⟨sessionId, budget, hasSignal, aborted,
      none, if aborted then .ended .aborted else .initializes⟩] } clear := by
  refine ⟨⟨valid.jobs, fun other member => ?_, ?_⟩, fun spared _ other member => ?_,
    fun _ job stored => ⟨job, stored, rfl⟩⟩
  · rcases List.mem_append.mp member with old | new
    · exact valid.callers other old
    · rw [List.mem_singleton] at new
      subst new
      refine ⟨fun place decided waiting => ?_, fun outcome got => ?_, fun place joined => ?_⟩
      · cases aborted <;> cases waiting
      · cases aborted <;> cases got
        trivial
      · cases joined
  · rw [List.countP_append, ← valid.counts]
    cases aborted <;> rfl
  · rcases List.mem_append.mp member with old | new
    · exact spared other old
    · rw [List.mem_singleton] at new
      subst new
      refine ⟨fun got => ?_, fun _ place waiting => ?_⟩
      · cases aborted with
        | true => rfl
        | false => cases got
      · cases aborted <;> cases waiting

/-- What changes neither the jobs nor the calls. -/
theorem World.Valid.quiet_same (valid : world.Valid) (jobs : next.jobs = world.jobs)
    (callers : next.callers = world.callers)
    (counts : next.leaseWaiterCount = world.leaseWaiterCount) (clear : Prop) :
    world.Quiet next clear where
  valid := ⟨jobs ▸ valid.jobs, by rw [jobs, callers]; exact valid.callers,
    by rw [counts, callers]; exact valid.counts⟩
  spared spared _ := by
    rw [World.Spared, jobs, callers]
    exact spared
  signals place job stored := ⟨job, jobs ▸ stored, rfl⟩

/-- The job that answers is the only one that changes. -/
theorem World.Valid.moves_quiet (valid : world.Valid) {after : Job}
    (stored : world.jobs[id]? = some job) (moves : world.Moves next id job after)
    (clear : Prop) : world.Quiet next clear := by
  have inside := (List.getElem?_eq_some_iff.mp stored).1
  have place_cases (place : Nat) (other : Job) (found : world.jobs[place]? = some other) :
      (next.jobs[place]? = some other) ∨
        (place = id ∧ other = job ∧ next.jobs[place]? = some after) := by
    rw [moves.jobs]
    by_cases same : id = place
    · subst same
      rw [stored, Option.some.injEq] at found
      exact .inr ⟨rfl, found.symm, List.getElem?_set_self inside⟩
    · exact .inl (by rwa [List.getElem?_set_ne same])
  refine ⟨⟨fun other member => ?_, fun other member => ?_, ?_⟩, fun spared _ other member => ?_,
    fun place other found => ?_⟩
  · rw [moves.jobs] at member
    rcases List.mem_or_eq_of_mem_set member with old | rfl
    · exact valid.jobs other old
    · exact moves.follows.fits (valid.jobs job (List.mem_of_getElem? stored))
  · rw [moves.callers] at member
    refine (valid.callers other member).keeps fun place old found => ?_
    rcases place_cases place old found with kept | ⟨rfl, rfl, changed⟩
    · exact ⟨old, kept, rfl, rfl⟩
    · exact ⟨after, changed, moves.follows.sessionId, moves.follows.budget⟩
  · rw [moves.leaseWaiterCount, moves.callers]
    exact valid.counts
  · rw [moves.callers] at member
    refine ⟨(spared other member).gets, fun alive place waiting last found => ?_⟩
    obtain ⟨old, before, -⟩ := (valid.callers other member).waits place none waiting
    have fine := (spared other member).waits alive place waiting old before
    rcases place_cases place old before with kept | ⟨rfl, rfl, changed⟩
    · rw [kept, Option.some.injEq] at found
      exact found ▸ fine
    · rw [changed, Option.some.injEq] at found
      subst found
      by_contra dead
      rw [moves.follows.doomed (Bool.eq_true_of_not_eq_false dead)] at fine
      cases fine
  · rcases place_cases place other found with kept | ⟨rfl, rfl, changed⟩
    · exact ⟨other, kept, rfl⟩
    · exact ⟨after, changed, moves.follows.aborted⟩

theorem Job.doomed_new {sessionId : String} {budget : Nat} (renews : Bool) :
    (⟨sessionId, budget, false, if renews then .retires else .locks⟩ : Job).doomed = false := by
  cases renews <;> rfl

theorem World.Valid.ensureReloaded_quiet (valid : world.Valid)
    (stored : world.callers[id]? = some caller) {now : Nat} (at' : caller.stage = .reloads now)
    (holds : clear → (world.runtime.lease.any (·.isForeign world.ownerId now) = true ∨
      world.joinsDoomed caller = false)) :
    world.Quiet (world.ensureReloaded id caller now) clear := by
  have idle : caller.isWaiting = false := by rw [Caller.isWaiting, at']
  rw [World.ensureReloaded]
  split
  · exact valid.quiet_goes stored (World.throw_goes idle _ True) fun _ => trivial
  case isFalse mine =>
    split
    case h_1 _ job current =>
      obtain ⟨after, goes⟩ :=
        World.waitForLeasePromise_goes id idle (World.jobs_of_current current)
      refine valid.quiet_goes stored goes fun steady => ?_
      rcases holds steady with other | clear
      · exact absurd other mine
      · exact World.live_of_joinsDoomed current clear
    case h_2 =>
      have created := valid.createJob_quiet caller clear
      have placed : (world.createJob caller).jobs[world.jobs.length]? =
          some ⟨caller.sessionId, caller.budget, false,
            if world.activeLease.isSome then .retires else .locks⟩ :=
        List.getElem?_concat_length
      obtain ⟨after, goes⟩ := World.waitForLeasePromise_goes id idle placed
      exact created.trans (created.valid.quiet_goes stored goes fun _ _ _ _ =>
        Job.doomed_new world.activeLease.isSome)

theorem Caller.isWaiting_decide (outcome : Outcome) :
    (caller.decide place outcome).isWaiting = caller.isWaiting := by
  rw [Caller.decide]
  split
  case isTrue waiting => rw [Caller.isWaiting, Caller.isWaiting, waiting]
  · rfl

theorem Caller.Valid.decide {jobs : List Job} {outcome : Outcome} (valid : caller.Valid jobs)
    (stored : jobs[place]? = some job) (fits : outcome.Fits job.sessionId job.budget) :
    (caller.decide place outcome).Valid jobs := by
  rw [Caller.decide]
  split
  case isTrue waiting =>
    obtain ⟨old, found, session, budget⟩ := valid.waits place none waiting
    rw [stored, Option.some.injEq] at found
    subst found
    refine ⟨?_, ?_, fun _ _ => .inl rfl⟩
    · rintro other decided ⟨⟩
      exact ⟨job, stored, session, budget⟩
    · rintro got ⟨⟩
      rwa [← session, ← budget]
  case isFalse => exact valid

theorem Caller.Spared.decide {jobs : List Job} {outcome : Outcome} (spared : caller.Spared jobs)
    (stored : jobs[place]? = some job) (fair : job.doomed = false → outcome ≠ .aborted) :
    (caller.decide place outcome).Spared jobs := by
  rw [Caller.decide]
  split
  case isTrue waiting =>
    refine ⟨fun got => ?_, fun _ other still => by cases still⟩
    by_contra alive
    have fine := spared.waits (Bool.eq_false_of_not_eq_true alive) place waiting job stored
    exact fair fine (Option.some.inj got)
  case isFalse => exact spared

theorem World.Valid.settles_quiet (valid : world.Valid) (stored : world.jobs[id]? = some job)
    {outcome : Outcome} (at' : job.stage = .cleared outcome) :
    world.Quiet { world.setJob id { job with stage := .settled outcome } with
      callers := world.callers.map (Caller.decide id outcome) } clear := by
  have inside := (List.getElem?_eq_some_iff.mp stored).1
  have fits := valid.jobs job (List.mem_of_getElem? stored)
  rw [Job.Fits, at'] at fits
  have follows : job.Follows { job with stage := .settled outcome } :=
    ⟨rfl, rfl, rfl, fun _ => fits, fun dead => by rwa [Job.doomed, at']⟩
  have moved := valid.moves_quiet stored (World.moves_setJob world.runtime follows) clear
  have settled : (world.jobs.set id { job with stage := .settled outcome })[id]? =
      some { job with stage := .settled outcome } := List.getElem?_set_self inside
  refine ⟨⟨moved.valid.jobs, fun other member => ?_, ?_⟩, fun spared steady other member => ?_,
    moved.signals⟩
  · obtain ⟨before, old, rfl⟩ := List.mem_map.mp member
    exact (moved.valid.callers before old).decide settled fits
  · have same : Caller.isWaiting ∘ Caller.decide id outcome = Caller.isWaiting :=
      funext fun caller => Caller.isWaiting_decide outcome
    rw [List.countP_map, same]
    exact valid.counts
  · obtain ⟨before, old, rfl⟩ := List.mem_map.mp member
    refine (moved.spared spared steady before old).decide settled fun fine own => ?_
    rw [Job.doomed, own] at fine
    cases fine

theorem World.Valid.ends_goes (valid : world.Valid) (stored : world.callers[id]? = some caller)
    {outcome : Outcome} (at' : caller.stage = .waits place (some outcome)) :
    world.Goes { world.endCall id caller outcome with
      leaseWaiterCount := world.leaseWaiterCount - 1 } id caller
      { caller with stage := .ended outcome } (world.Spared) := by
  have member := List.mem_of_getElem? stored
  have waiting : caller.isWaiting = true := by rw [Caller.isWaiting, at']
  have got : caller.outcome? = some outcome := by rw [Caller.outcome?, at']
  have positive : 0 < world.leaseWaiterCount := by
    rw [valid.counts]
    exact List.countP_pos_iff.mpr ⟨caller, member, waiting⟩
  refine ⟨rfl, rfl, ?_, Caller.valid_ended ((valid.callers caller member).gets outcome got),
    fun spared => Caller.spared_ended fun own => (spared caller member).gets (own ▸ got)⟩
  rw [waiting]
  show world.leaseWaiterCount - 1 + 1 = world.leaseWaiterCount + 0
  omega

theorem getElem?_abortJob {jobs : List Job} {at' : Nat} {after : Job}
    (found : (jobs.modify place fun job => { job with aborted := true })[at']? = some after) :
    ∃ (old : Job) (aborted : Bool), jobs[at']? = some old ∧
      after = { old with aborted := aborted } := by
  rw [List.getElem?_modify] at found
  obtain ⟨old, stored, rfl⟩ := Option.map_eq_some_iff.mp found
  by_cases same : place = at'
  · exact ⟨old, true, stored, if_pos same⟩
  · exact ⟨old, old.aborted, stored, if_neg same⟩

theorem keeps_abortJob {jobs : List Job} :
    Keeps jobs (jobs.modify place fun job => { job with aborted := true }) := by
  intro other job stored
  rw [List.getElem?_modify, stored]
  by_cases same : place = other
  · exact ⟨_, congrArg some (if_pos same), rfl, rfl⟩
  · exact ⟨_, congrArg some (if_neg same), rfl, rfl⟩

/-- A call that leaves aborts the job only when no call waits any more. -/
theorem World.Valid.resumeCall (valid : world.Valid) (stored : world.callers[id]? = some caller)
    {outcome : Outcome} (at' : caller.stage = .waits place (some outcome)) :
    world.Quiet (world.resumeCall id caller place outcome) world.Spared ∨
    ((world.resumeCall id caller place outcome).Valid ∧
      (world.Spared → (world.resumeCall id caller place outcome).Spared) ∧
      ∀ other ∈ (world.resumeCall id caller place outcome).callers, other.isWaiting = false) := by
  have goes := valid.ends_goes stored at'
  have left := valid.quiet_goes stored goes fun spared => spared
  rw [World.resumeCall]
  split
  case isFalse => exact .inl left
  case isTrue last =>
    obtain ⟨-, -, none⟩ := last
    have idle : ∀ other ∈ (world.endCall id caller outcome).callers, other.isWaiting = false := by
      have counted := left.valid.counts
      intro other member
      by_contra waiting
      have positive := List.countP_pos_iff.mpr
        ⟨other, member, Bool.eq_true_of_not_eq_false waiting⟩
      rw [← counted] at positive
      exact absurd positive (by simp only [none, Nat.lt_irrefl, not_false_eq_true])
    refine .inr ⟨⟨fun job member => ?_, fun other member => ?_, left.valid.counts⟩,
      fun spared other member => ?_, idle⟩
    · obtain ⟨at', found⟩ := List.getElem?_of_mem member
      obtain ⟨old, aborted, stored, rfl⟩ := getElem?_abortJob found
      exact (valid.jobs old (List.mem_of_getElem? stored))
    · exact (left.valid.callers other member).keeps keeps_abortJob
    · have before := left.spared spared spared other member
      refine ⟨before.gets, fun _ place waiting => ?_⟩
      have quiet := idle other member
      rw [Caller.isWaiting, waiting] at quiet
      cases quiet

end Steps

section Runs

variable {world next : World}

/-- What the calls of a tab can rely on. -/
structure World.Safe (world : World) : Prop where
  leaves : ∀ (action : Action) (next : World) (place : Nat) (job after : Job),
    world.step action = some next → world.jobs[place]? = some job →
    next.jobs[place]? = some after → job.aborted = false → after.aborted = true →
    ∀ caller ∈ next.callers, caller.joined = some place → caller.isEnded = true
  fits : ∀ caller ∈ world.callers, ∀ lease, caller.stage = .ended (.lease lease) →
    lease.sessionId = caller.sessionId ∧ lease.spendingLimit = caller.budget
  spared : ∀ caller ∈ world.callers, caller.stage = .ended .aborted → caller.aborted = true

/-- A step keeps the signal of every job, or no call waits after it. -/
theorem World.Valid.step (valid : world.Valid) {action : Action}
    (taken : world.step action = some next) :
    world.Quiet next (world.Spared ∧ world.spares action = true) ∨
    (next.Valid ∧ (world.Spared → next.Spared) ∧
      ∀ other ∈ next.callers, other.isWaiting = false) := by
  cases action with
  | resumes id =>
    obtain ⟨caller, stored, goes⟩ := Option.bind_eq_some_iff.mp taken
    cases at' : caller.stage with
    | waits place decided =>
      cases decided with
      | none => simp [at'] at goes
      | some outcome =>
        simp only [at', Option.some.injEq] at goes
        subst goes
        rcases valid.resumeCall stored at' with quiet | last
        · exact .inl { quiet with spared := fun spared steady => quiet.spared spared steady.1 }
        · exact .inr last
    | _ => simp [at'] at goes
  | calls sessionId budget hasSignal aborted =>
    obtain rfl := Option.some.inj taken
    exact .inl (valid.calls_quiet sessionId budget hasSignal (hasSignal && aborted))
  | aborts id =>
    obtain ⟨caller, stored, goes⟩ := Option.bind_eq_some_iff.mp taken
    split at goes
    · obtain rfl := Option.some.inj goes
      have member := List.mem_of_getElem? stored
      have goes : world.Goes (world.setCaller id caller.abort) id caller caller.abort True :=
        ⟨rfl, rfl, by rw [Caller.isWaiting_abort]; rfl, (valid.callers caller member).abort,
          fun _ => Caller.spared_abort⟩
      exact .inl (valid.quiet_goes stored goes fun _ => trivial)
    · cases goes
  | initialized id error =>
    obtain ⟨caller, stored, goes⟩ := Option.bind_eq_some_iff.mp taken
    cases at' : caller.stage with
    | initializes =>
      have idle : caller.isWaiting = false := by rw [Caller.isWaiting, at']
      cases error with
      | some error =>
        simp only [at', Option.some.injEq] at goes
        subst goes
        exact .inl (valid.quiet_goes stored (World.throw_goes idle error True) fun _ => trivial)
      | none =>
        simp only [at', Option.some.injEq] at goes
        subst goes
        have fresh := (valid.callers caller (List.mem_of_getElem? stored)).fresh idle
          (by rw [Caller.isEnded, at'])
        obtain ⟨after, goes⟩ : ∃ after, world.Goes (world.ensureLease id caller) id caller after
            (world.joinsDoomed caller = false) := World.ensureLease_goes at' fresh
        refine .inl (valid.quiet_goes stored goes fun steady => ?_)
        simpa [World.spares, stored] using steady.2
    | _ => cases error <;> simp [at'] at goes
  | reloaded id reply =>
    obtain ⟨caller, stored, goes⟩ := Option.bind_eq_some_iff.mp taken
    cases at' : caller.stage with
    | reloads now =>
      have idle : caller.isWaiting = false := by rw [Caller.isWaiting, at']
      cases reply with
      | error error =>
        simp only [at', Option.some.injEq] at goes
        subst goes
        exact .inl (valid.quiet_goes stored (World.throw_goes idle error True) fun _ => trivial)
      | ok runtime =>
        simp only [at', Option.some.injEq] at goes
        subst goes
        have read : world.Quiet { world with runtime := runtime }
            (world.Spared ∧ world.spares (.reloaded id (.ok runtime)) = true) := by
          apply World.Valid.quiet_same valid <;> rfl
        refine .inl (read.trans (read.valid.ensureReloaded_quiet stored at' fun steady => ?_))
        have same : ({ world with runtime := runtime } : World).joinsDoomed caller =
          world.joinsDoomed caller := rfl
        rw [same]
        simpa [World.spares, stored, at'] using steady.2
    | _ => cases reply <;> simp [at'] at goes
  | answers id reply =>
    obtain ⟨job, stored, answered⟩ := Option.bind_eq_some_iff.mp taken
    obtain ⟨after, moves⟩ := World.answer_moves answered
    exact .inl (valid.moves_quiet stored moves _)
  | clears id =>
    obtain ⟨job, stored, goes⟩ := Option.bind_eq_some_iff.mp taken
    cases at' : job.stage with
    | returned outcome =>
      simp only [at', Option.some.injEq] at goes
      subst goes
      have follows : job.Follows { job with stage := .cleared outcome } :=
        ⟨rfl, rfl, rfl, fun fits => by rw [Job.Fits, at'] at fits; exact fits,
          fun dead => by rwa [Job.doomed, at']⟩
      have moves : world.Moves { world.setJob id { job with stage := .cleared outcome } with
          leasePromise := if world.leasePromise = some id then none else world.leasePromise } id job
          { job with stage := .cleared outcome } := ⟨follows, rfl, rfl, rfl⟩
      exact .inl (valid.moves_quiet stored moves _)
    | _ => simp [at'] at goes
  | settles id =>
    obtain ⟨job, stored, goes⟩ := Option.bind_eq_some_iff.mp taken
    cases at' : job.stage with
    | cleared outcome =>
      simp only [at', Option.some.injEq] at goes
      subst goes
      exact .inl (valid.settles_quiet stored at')
    | _ => simp [at'] at goes
  | marks retiring retired inFlight =>
    obtain rfl := Option.some.inj taken
    left
    apply World.Valid.quiet_same valid <;> rfl
  | drops =>
    obtain rfl := Option.some.inj taken
    left
    apply World.Valid.quiet_same valid <;> rfl
  | changes runtime =>
    obtain rfl := Option.some.inj taken
    left
    apply World.Valid.quiet_same valid <;> rfl
  | ticks seconds =>
    obtain rfl := Option.some.inj taken
    left
    apply World.Valid.quiet_same valid <;> rfl

/-- A tab that holds no lease and has no call. -/
def World.started (ownerId : String) (runtime : Runtime) : World where
  ownerId := ownerId
  runtime := runtime
  activeLease := none
  leasePromise := none
  leaseWaiterCount := 0
  jobs := []
  callers := []
  clock := 0

def World.Reaches (ownerId : String) (runtime : Runtime) : World → Prop :=
  StepRun World.step (fun world action => world.spares action = true)
    (.started ownerId runtime)

theorem World.Reaches.kept {ownerId : String} {runtime : Runtime}
    (run : World.Reaches ownerId runtime world) : world.Valid ∧ world.Spared := by
  apply StepRun.invariant run (fun world => world.Valid ∧ world.Spared)
  · refine ⟨⟨?_, ?_, rfl⟩, ?_⟩ <;>
      exact fun _ member => absurd member List.not_mem_nil
  · rintro world action next ⟨valid, spared⟩ legal taken
    rcases valid.step taken with quiet | ⟨later, kept, -⟩
    · exact ⟨quiet.valid, quiet.spared spared ⟨spared, legal⟩⟩
    · exact ⟨later, kept spared⟩

/-- No call that goes on joins a job that was aborted before its last look at its signal:
then the calls of the tab are safe. -/
theorem World.shared_job_safe {ownerId : String} {runtime : Runtime}
    (run : World.Reaches ownerId runtime world) : world.Safe where
  leaves action next place job after taken stored later running stopped caller member joined := by
    rcases run.kept.1.step taken with quiet | ⟨valid, -, idle⟩
    · obtain ⟨same, found, kept⟩ := quiet.signals place job stored
      rw [later, Option.some.injEq] at found
      rw [← found, stopped, running] at kept
      cases kept
    · rcases (valid.callers caller member).joined place joined with waits | ended
      · rw [idle caller member] at waits
        cases waits
      · exact ended
  fits caller member lease ended :=
    (run.kept.1.callers caller member).gets (.lease lease) (by rw [Caller.outcome?, ended])
  spared caller member ended :=
    (run.kept.2 caller member).gets (by rw [Caller.outcome?, ended])

/-- Two calls share the job; the first one is aborted, and the job goes on. -/
theorem World.shared_job_safe_sample : ∃ world : World,
    (world.callers.map Caller.stage = [.ended .aborted, .waits 0 none] ∧
      world.jobs.map Job.aborted = [false]) ∧ world.Safe := by
  obtain ⟨world, run, shared⟩ := exists_stepRun World.step World.spares
    (.started "tab" ⟨none, none, none, none, none, []⟩)
    [.calls "chat" 1000000 true false, .initialized 0 none,
      .reloaded 0 (.ok ⟨none, none, none, none, none, []⟩), .calls "chat" 1000000 true false,
      .initialized 1 none, .aborts 0, .resumes 0, .answers 0 .done]
    (fun world => decide (world.callers.map Caller.stage = [.ended .aborted, .waits 0 none] ∧
      world.jobs.map Job.aborted = [false])) (by decide)
  exact ⟨world, of_decide_eq_true shared, World.shared_job_safe run⟩

/-- The only call of a job leaves it, and the next one joins the job while it winds down:
its own signal is never aborted, and it gets an `AbortError`. -/
theorem World.abandoned_job_rejects : ∃ world : World,
    StepRun World.step (fun _ _ => true = true)
      (.started "tab" ⟨none, none, none, none, none, []⟩) world ∧
    world.callers.map (fun caller => (caller.sessionId, caller.budget, caller.aborted,
      caller.stage)) =
      [("chat", 1000000, true, .ended .aborted), ("chat", 1000000, false, .ended .aborted)] ∧
    ¬ world.Safe := by
  obtain ⟨world, run, rejected⟩ := exists_stepRun World.step (fun _ _ => true)
    (.started "tab" ⟨none, none, none, none, none, []⟩)
    [.calls "chat" 1000000 true false, .initialized 0 none,
      .reloaded 0 (.ok ⟨none, none, none, none, none, []⟩), .answers 0 .done, .aborts 0,
      .resumes 0, .calls "chat" 1000000 false false, .initialized 1 none,
      .answers 0 (.runtime ⟨none, none, none, none, none, []⟩), .clears 0, .settles 0, .resumes 1]
    (fun world => decide (world.callers.map (fun caller => (caller.sessionId, caller.budget,
      caller.aborted, caller.stage)) =
      [("chat", 1000000, true, .ended .aborted), ("chat", 1000000, false, .ended .aborted)]))
    (by decide)
  have stages := of_decide_eq_true rejected
  refine ⟨world, run, stages, fun safe => ?_⟩
  have member : ("chat", 1000000, false, CallStage.ended .aborted) ∈ world.callers.map
      fun caller => (caller.sessionId, caller.budget, caller.aborted, caller.stage) := by
    rw [stages]
    simp only [List.mem_cons, List.mem_nil_iff, or_false, or_true]
  obtain ⟨caller, called, same⟩ := List.mem_map.mp member
  simp only [Prod.mk.injEq] at same
  have own := safe.spared caller called same.2.2.2
  rw [same.2.2.1] at own
  cases own

end Runs

end ZkApi.Browser.Shared
