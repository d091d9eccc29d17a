import ZkApi.BrowserLeases

/-!
# The callers that wait for a lease

The calls of a tab that wait for a lease are those of the session that it is issued for: a call
of another session is refused while the tab creates a lease.
-/

namespace ZkApi.Browser

section Tabs

variable {tab changed : Tab}

/-- Every call that waits for a lease has the session of the job. -/
def Tab.Joined (tab : Tab) : Prop :=
  ∀ sessionId, .ensureWaits sessionId ∈ tab.pending →
    tab.job.map LeaseJob.sessionId = some sessionId

/-- What a tab may do outside of the lock: a job that has the lock stays. -/
structure Tab.Keeps (tab next : Tab) : Prop where
  joined : next.Joined
  job : ∀ job, tab.job = some job → job.retires = false → next.job = some job

theorem Tab.Joined.of_sub (joined : tab.Joined) (job : changed.job = tab.job)
    (pending : ∀ sessionId, .ensureWaits sessionId ∈ changed.pending →
      .ensureWaits sessionId ∈ tab.pending) : changed.Joined := by
  intro sessionId member
  rw [job]
  exact joined sessionId (pending sessionId member)

theorem Tab.Joined.keeps (joined : tab.Joined) (job : changed.job = tab.job)
    (pending : ∀ sessionId, .ensureWaits sessionId ∈ changed.pending →
      .ensureWaits sessionId ∈ tab.pending) : tab.Keeps changed :=
  ⟨joined.of_sub job pending, fun _ same _ => job.trans same⟩

/-- A new call that does not wait for a lease. -/
theorem Tab.Joined.waits (joined : tab.Joined) {call : Pending}
    (other : call.isEnsureWaits = false) :
    tab.Keeps { tab with pending := call :: tab.pending } := by
  refine joined.keeps rfl fun sessionId member => ?_
  rcases List.mem_cons.mp member with same | earlier
  · rw [← same] at other
    cases other
  · exact earlier

theorem Tab.Joined.erase (joined : tab.Joined) (call : Pending) :
    tab.Keeps { tab with pending := tab.pending.erase call } :=
  joined.keeps rfl fun _ member => List.mem_of_mem_erase member

theorem Tab.Joined.rejectJob (tab : Tab) : tab.rejectJob.Joined := by
  intro sessionId member
  have kept := (List.mem_filter.mp member).2
  cases kept

theorem Tab.Joined.rejectRetirement (joined : tab.Joined) (serial : Nat) :
    (tab.rejectRetirement serial).Joined := by
  have rejected : (if tab.job.any LeaseJob.retires then tab.rejectJob else tab).Joined := by
    split
    · exact Tab.Joined.rejectJob tab
    · exact joined
  unfold Tab.rejectRetirement
  generalize (if tab.job.any LeaseJob.retires then tab.rejectJob else tab) = middle at rejected ⊢
  dsimp only
  split <;> exact rejected.of_sub rfl fun _ member => List.mem_of_mem_filter member

theorem Tab.Joined.endRetirement (joined : tab.Joined) : tab.endRetirement.Joined := by
  intro sessionId member
  rw [← joined sessionId member, Tab.endRetirement, Option.map_map]
  rfl

theorem Tab.retireActiveLease_waits (retired : tab.retireActiveLease = some changed) :
    changed.job = tab.job ∧ changed.pending = tab.pending := by
  rw [Tab.retireActiveLease] at retired
  split at retired
  · split at retired
    · cases retired
    · cases retired
      exact ⟨rfl, rfl⟩
  · cases retired
    exact ⟨rfl, rfl⟩

theorem Tab.Joined.waitForLeasePromise (joined : tab.Joined) {job : LeaseJob} {sessionId : String}
    {budget : Nat} (creating : tab.job = some job)
    (waited : tab.waitForLeasePromise job sessionId budget = .ok changed) : tab.Keeps changed := by
  rw [Tab.waitForLeasePromise] at waited
  split at waited
  · cases waited
  case isFalse same =>
    split at waited
    · cases waited
    · cases waited
      refine ⟨fun other member => ?_, fun _ same _ => same⟩
      rcases List.mem_cons.mp member with now | earlier
      · cases now
        show tab.job.map LeaseJob.sessionId = some sessionId
        rw [creating, ← not_not.mp same]
        rfl
      · exact joined other earlier

theorem Tab.Joined.ensureLease (joined : tab.Joined) {sessionId : String} {budget now : Nat}
    (ensured : tab.ensureLease sessionId budget now = .ok changed) : tab.Keeps changed := by
  rw [Tab.ensureLease] at ensured
  split at ensured
  case h_1 job creating => exact joined.waitForLeasePromise creating ensured
  split at ensured
  · cases ensured
    exact joined.waits rfl
  split at ensured
  · split at ensured
    · cases ensured
    · cases ensured
      exact joined.waits rfl
  · split at ensured
    · cases ensured
    · cases ensured
      exact joined.waits rfl

/-- A tab without a job starts one for the session of the call. -/
theorem Tab.Joined.ensureReloaded (joined : tab.Joined) {sessionId : String} {budget now : Nat}
    (ensured : tab.ensureReloaded sessionId budget now = .ok changed) : tab.Keeps changed := by
  rw [Tab.ensureReloaded] at ensured
  split at ensured
  · cases ensured
  split at ensured
  case h_1 job creating => exact joined.waitForLeasePromise creating ensured
  case h_2 idle =>
    have started {next : Tab} {retires : Bool}
        (job : next.job = some ⟨sessionId, budget, retires⟩)
        (pending : next.pending = .ensureWaits sessionId :: tab.pending) : tab.Keeps next := by
      refine ⟨fun other member => ?_, fun job same => ?_⟩
      · rw [pending] at member
        rcases List.mem_cons.mp member with now | earlier
        · cases now
          rw [job]
          rfl
        · have waits := joined other earlier
          rw [idle] at waits
          cases waits
      · rw [idle] at same
        cases same
    dsimp only at ensured
    split at ensured
    · cases ensured
    case h_2 retired =>
      rw [← Except.ok.inj ensured]
      exact started rfl (Tab.retireActiveLease_waits retired).2
    · cases ensured
      exact started rfl rfl

theorem Tab.Joined.settleAwaited (joined : tab.Joined)
    (settled : tab.settleAwaited = .ok changed) : tab.Keeps changed := by
  rw [Tab.settleAwaited] at settled
  split at settled
  · cases settled
  split at settled
  · cases settled
    exact joined.waits rfl
  · cases settled
  case h_3 retired =>
    cases settled
    obtain ⟨job, pending⟩ := Tab.retireActiveLease_waits retired
    refine joined.keeps job fun sessionId member => ?_
    rw [← pending]
    exact (List.mem_cons.mp member).resolve_left nofun

theorem Tab.Joined.settleSessionLease (joined : tab.Joined) {sessionId : String}
    (settled : tab.settleSessionLease sessionId = .ok changed) : tab.Keeps changed := by
  rw [Tab.settleSessionLease] at settled
  split at settled
  · split at settled
    · cases settled
    case h_2 retired =>
      cases settled
      obtain ⟨job, pending⟩ := Tab.retireActiveLease_waits retired
      refine joined.keeps job fun sessionId member => ?_
      rw [← pending]
      exact (List.mem_cons.mp member).resolve_left nofun
  · cases settled
    exact joined.waits rfl

theorem Tab.Joined.settleEnded (joined : tab.Joined) (settled : tab.settleEnded = .ok changed) :
    tab.Keeps changed := by
  rw [Tab.settleEnded] at settled
  split at settled
  · cases settled
  · cases settled
    exact joined.keeps rfl fun _ member => member

end Tabs

section Locked

/-- Whom the holder of the lock acts for. -/
def Stage.retirer? : Stage → Option Retirer
  | .asksStatus _ | .asksNullifier _ _ => some .recovery
  | .asksResponse retirer _ | .completes retirer _ => some retirer
  | .sends (.retirement retirer) _ _ _ | .rests (.retirement retirer) _ _ _ _ => some retirer
  | _ => none

/-- A budget is migrated for the lease that the lock was taken for. -/
def Stage.Migrates (stage : Stage) (purpose : Purpose) : Prop :=
  ∀ sessionId budget, stage.retirer? = some (.migration sessionId budget) →
    purpose = .issuesLease sessionId budget

/-- The job of the tab that issues a lease is the one that it has taken the lock for. -/
structure World.Joined (world : World) : Prop where
  tabs : ∀ id, (world.tabs id).Joined
  issues : ∀ id sessionId budget stage,
    world.critical = some ⟨id, .issuesLease sessionId budget, stage⟩ →
      (world.tabs id).job = some ⟨sessionId, budget, false⟩
  migrates : ∀ critical, world.critical = some critical →
    critical.stage.Migrates critical.purpose

/-- What the holder of the lock goes on from. -/
structure World.Issues (world : World) (id : Nat) (purpose : Purpose) : Prop where
  tabs : ∀ other, (world.tabs other).Joined
  issues : ∀ sessionId budget, purpose = .issuesLease sessionId budget →
    (world.tabs id).job = some ⟨sessionId, budget, false⟩

variable {world next : World} {id : Nat} {purpose : Purpose} {stage : Stage} {reply : Reply}
  {config : LeaseConfig}

theorem tabs_joined_setTab (tabs : ∀ other, (world.tabs other).Joined) {tab : Tab}
    (joined : tab.Joined) (other : Nat) : ((world.setTab id tab).tabs other).Joined := by
  by_cases here : other = id
  · rw [here, World.setTab_self]
    exact joined
  · rw [World.setTab_other world tab here]
    exact tabs other

theorem World.Issues.setTab (issues : world.Issues id purpose) {tab : Tab}
    (job : tab.job = (world.tabs id).job)
    (pending : ∀ sessionId, .ensureWaits sessionId ∈ tab.pending →
      .ensureWaits sessionId ∈ (world.tabs id).pending) :
    (world.setTab id tab).Issues id purpose where
  tabs := tabs_joined_setTab issues.tabs ((issues.tabs id).of_sub job pending)
  issues sessionId budget same := by
    rw [World.setTab_self, job]
    exact issues.issues sessionId budget same

theorem World.Issues.reload (issues : world.Issues id purpose) :
    (world.reload id).Issues id purpose :=
  issues.setTab rfl fun _ member => member

theorem World.Issues.commit (issues : world.Issues id purpose) (runtime : Runtime) :
    (world.commit id runtime).Issues id purpose :=
  have moved : (world.setTab id { world.tabs id with runtime := runtime }).Issues id purpose :=
    issues.setTab rfl fun _ member => member
  ⟨moved.tabs, moved.issues⟩

theorem World.Issues.note (issues : world.Issues id purpose) (entry : Entry) :
    (world.note entry).Issues id purpose :=
  ⟨issues.tabs, issues.issues⟩

theorem World.Issues.wait (issues : world.Issues id purpose) (migrates : stage.Migrates purpose) :
    (world.wait id purpose stage).Joined where
  tabs := issues.tabs
  issues other sessionId budget stage same := by
    cases same
    exact issues.issues sessionId budget rfl
  migrates critical same := by
    cases same
    exact migrates

theorem World.Issues.throw (issues : world.Issues id purpose) (error : BrowserError) :
    (world.throw id purpose error).Joined where
  tabs := by
    apply tabs_joined_setTab issues.tabs
    cases purpose with
    | issuesLease => exact Tab.Joined.rejectJob _
    | retiresLease serial => exact (issues.tabs id).rejectRetirement serial
    | _ => exact issues.tabs id
  issues _ _ _ _ same := by cases same
  migrates _ same := by cases same

theorem World.Issues.leave (issues : world.Issues id purpose) : (world.leave id purpose).Joined where
  tabs := by
    apply tabs_joined_setTab issues.tabs
    cases purpose with
    | retiresLease => exact (issues.tabs id).endRetirement
    | settles => exact ((issues.tabs id).waits rfl).joined
    | _ => exact issues.tabs id
  issues _ _ _ _ same := by cases same
  migrates _ same := by cases same

theorem World.Issues.prepares {sessionId : String} {budget : Nat}
    (issues : world.Issues id (.issuesLease sessionId budget)) (migrated : Bool) :
    (world.prepareLeaseRequest id sessionId budget migrated).Joined := by
  rw [World.prepareLeaseRequest]
  split
  · exact issues.throw _
  split
  · exact issues.throw _
  split
  · dsimp only
    split
    · have migrates : (world.setTab id { world.tabs id with
          legacyMigrationInProgress := true }).Issues id (.issuesLease sessionId budget) :=
        issues.setTab rfl fun _ member => member
      exact migrates.wait nofun
    · exact issues.wait nofun
  · split
    · exact issues.throw _
    · exact issues.wait nofun

theorem World.Issues.withdraws {mode : Clientd.WithdrawalMode} {destination : String}
    (issues : world.Issues id (.withdraws mode destination)) :
    (world.withdrawRecovered id mode destination).Joined := by
  rw [World.withdrawRecovered]
  split
  · exact issues.reload.throw _
  split
  · exact issues.reload.throw _
  split
  · exact issues.reload.throw _
  split
  · exact issues.reload.wait nofun
  split
  · exact issues.reload.leave
  split
  · split <;> exact issues.reload.throw _
  · exact issues.reload.wait nofun

theorem World.Issues.recovers (issues : world.Issues id purpose) :
    (world.recovered id purpose).Joined := by
  cases purpose with
  | issuesLease => exact issues.prepares false
  | settlesSession sessionId =>
      rw [World.recovered]
      split
      · exact issues.throw _
      · exact issues.leave
  | withdraws => exact issues.withdraws
  | startUp | retiresLease | settles => exact issues.leave

theorem World.Issues.recoveryThrows (issues : world.Issues id purpose) (error : BrowserError) :
    (world.recoveryThrew id purpose error).Joined := by
  cases purpose with
  | startUp => exact issues.recovers
  | _ => exact issues.throw error

theorem World.Issues.recoveryFails (issues : world.Issues id purpose) (request : ApiRequestV2)
    (error : BrowserError) : (world.recoveryFailed id purpose request error).Joined := by
  rw [World.recoveryFailed]
  split
  · exact issues.wait nofun
  · exact issues.recoveryThrows error

theorem World.Issues.recoversPending (issues : world.Issues id purpose) :
    (world.recoverPendingLocked id purpose).Joined := by
  rw [World.recoverPendingLocked]
  split
  · exact issues.wait nofun
  · exact issues.recovers

/-- The calls that wait for a lease are given it for their own session. -/
theorem World.Issues.callers {sessionId : String} {budget : Nat}
    (issues : world.Issues id (.issuesLease sessionId budget)) (caller : String)
    (member : .ensureWaits caller ∈ (world.tabs id).pending) : caller = sessionId := by
  have waits := issues.tabs id caller member
  rw [issues.issues sessionId budget rfl] at waits
  exact (Option.some.inj waits).symm

theorem World.Issues.activates (issues : world.Issues id purpose) (sessionId : String)
    (lease : IssuedLease) : (world.activate id sessionId lease).Joined where
  tabs := by
    apply tabs_joined_setTab issues.tabs
    intro caller member
    obtain ⟨call, -, made⟩ := List.mem_map.mp member
    cases call <;> cases made
  issues _ _ _ _ same := by cases same
  migrates _ same := by cases same

theorem World.Issues.fails (issues : world.Issues id purpose) (sending : Sending)
    (request : ApiRequestV2) (attempt deadline : Nat) (error : BrowserError)
    (migrates : (Stage.sends sending request attempt deadline).Migrates purpose)
    (answered : world.answer config id purpose (.sends sending request attempt deadline)
      (.throws error) = some next) : next.Joined := by
  have noted : (world.noteStale sending request error).Issues id purpose := by
    unfold World.noteStale
    split
    · split
      · exact issues.note _
      · exact issues
    · exact issues
  unfold World.answer at answered
  dsimp only at answered
  split at answered
  · exact Option.some.inj answered ▸ noted.wait (by cases sending <;> exact migrates)
  split at answered
  · exact Option.some.inj answered ▸ noted.recoveryFails request error
  · split at answered
    · exact Option.some.inj answered ▸ (noted.commit _).throw error
    · exact Option.some.inj answered ▸ noted.throw error
  · exact Option.some.inj answered ▸ noted.throw error

theorem World.Joined.goes (joined : world.Joined)
    (held : world.critical = some ⟨id, purpose, stage⟩) : world.Issues id purpose :=
  ⟨joined.tabs, fun sessionId budget same => joined.issues id sessionId budget stage (same ▸ held)⟩

/-- The holder of the lock goes on, leaves it or hands out the lease. -/
theorem World.Joined.answers (joined : world.Joined)
    (held : world.critical = some ⟨id, purpose, stage⟩)
    (answered : world.answer config id purpose stage reply = some next) : next.Joined := by
  have issues := joined.goes held
  have migrates := joined.migrates _ held
  have whole := answered
  unfold World.answer at answered
  split at answered <;> dsimp only at answered
  case h_1 request status =>
    split at answered
    · split at answered
      · exact Option.some.inj answered ▸ issues.recovers
      · exact Option.some.inj answered ▸ issues.wait nofun
    split at answered
    · exact Option.some.inj answered ▸ (issues.note _).wait nofun
    · exact Option.some.inj answered ▸ issues.recovers
  case h_2 request error => exact Option.some.inj answered ▸ issues.recoveryFails request error
  case h_3 request error status found =>
    split at answered
    · exact Option.some.inj answered ▸ issues.wait nofun
    split at answered
    · exact Option.some.inj answered ▸ (issues.commit _).recovers
    · exact Option.some.inj answered ▸ issues.recoveryThrows error
  case h_5 sending request attempt deadline error =>
    exact issues.fails sending request attempt deadline error migrates whole
  case h_6 sending request attempt deadline wakesAt =>
    split at answered
    · exact Option.some.inj answered ▸ (issues.note _).wait (by cases sending <;> exact migrates)
    · cases answered
  case h_8 retirer request attempt deadline status =>
    split at answered
    · split at answered
      · rw [← Option.some.inj answered]
        refine World.Issues.wait ((issues.note _).setTab ?_ ?_) nofun
        · split <;> rfl
        · split <;> exact fun _ member => member
      · exact Option.some.inj answered ▸ (issues.note _).wait migrates
    · split at answered
      · exact Option.some.inj answered ▸ issues.recovers
      · exact Option.some.inj answered ▸ issues.throw _
  case h_9 legacy request attempt deadline lease =>
    split at answered
    · exact Option.some.inj answered ▸ (issues.note _).throw _
    · exact Option.some.inj answered ▸ (issues.note _).wait nofun
  case h_10 legacy request lease =>
    split at answered
    · split at answered
      · rw [← Option.some.inj answered]
        refine (issues.commit _).wait fun sessionId budget same => ?_
        cases same
        rfl
      · exact Option.some.inj answered ▸ (issues.commit _).activates _ lease
    · cases answered
  case h_12 retirer request found =>
    split at answered
    · exact Option.some.inj answered ▸ issues.wait migrates
    split at answered
    · exact Option.some.inj answered ▸ issues.recovers
    · exact Option.some.inj answered ▸ issues.throw _
    · exact Option.some.inj answered ▸ issues.leave
  case h_14 retirer request state =>
    have installed := (issues.note (.installed state)).commit
      { (world.tabs id).runtime with state := some state, journal := none, lease := none }
    split at answered
    · exact Option.some.inj answered ▸ installed.recovers
    case h_2 sessionId budget =>
      rw [← Option.some.inj answered]
      obtain rfl := migrates sessionId budget rfl
      apply World.Issues.prepares
      apply World.Issues.reload
      exact installed.setTab rfl fun _ member => member
    · exact Option.some.inj answered ▸ installed.leave
  case h_16 migrated unchanged =>
    split at answered
    · split at answered
      · exact Option.some.inj answered ▸ issues.throw _
      split at answered
      · exact Option.some.inj answered ▸ issues.throw _
      · exact Option.some.inj answered ▸ issues.wait nofun
    · cases answered
  case h_18 migrated journal =>
    split at answered
    · cases answered
    · exact Option.some.inj answered ▸ ((issues.note _).commit _).wait nofun
  case h_20 unchanged =>
    split at answered
    · split at answered
      · exact Option.some.inj answered ▸ issues.leave
      split at answered
      · exact Option.some.inj answered ▸ ((issues.commit _).note _).wait nofun
      · exact Option.some.inj answered ▸ issues.wait nofun
    · cases answered
  case h_22 => exact Option.some.inj answered ▸ issues.wait nofun
  case h_24 =>
    split at answered
    · exact Option.some.inj answered ▸ (issues.commit _).leave
    · cases answered
  case h_26 => cases answered
  all_goals exact Option.some.inj answered ▸ issues.throw _

/-- The lock is taken for a lease only with the job of that lease. -/
theorem World.Joined.enters (joined : world.Joined) (entered : world.enter id purpose = some next) :
    next.Joined := by
  have reloaded : ∀ other, ((world.reload id).tabs other).Joined :=
    tabs_joined_setTab joined.tabs (joined.tabs id)
  -- Only the issuance of a lease says something about the job.
  have issues {purpose : Purpose} (other : ∀ sessionId budget,
      purpose ≠ .issuesLease sessionId budget) : (world.reload id).Issues id purpose :=
    ⟨reloaded, fun sessionId budget same => absurd same (other sessionId budget)⟩
  have erased (purpose : Purpose) (other : ∀ sessionId budget,
      purpose ≠ .issuesLease sessionId budget) (call : Pending) :
      ((world.reload id).setTab id { (world.reload id).tabs id with
        pending := (world.tabs id).pending.erase call }).Issues id purpose := by
    refine (issues other).setTab rfl fun sessionId member => ?_
    rw [World.reload, World.setTab_self]
    exact List.mem_of_mem_erase member
  unfold World.enter at entered
  dsimp only at entered
  cases purpose with
  | startUp =>
      split at entered
      · cases entered
      dsimp only at entered
      split at entered
      · cases entered
      · exact Option.some.inj entered ▸ (issues fun _ _ same => by cases same).recoversPending
  | issuesLease sessionId budget =>
      split at entered
      · cases entered
      dsimp only at entered
      split at entered
      case isTrue creating =>
        rw [← Option.some.inj entered]
        refine World.Issues.recoversPending ⟨reloaded, fun _ _ same => ?_⟩
        cases same
        rw [World.reload, World.setTab_self]
        exact creating
      · cases entered
  | retiresLease serial =>
      split at entered
      · cases entered
      dsimp only at entered
      split at entered
      · split at entered
        · split at entered
          · exact Option.some.inj entered ▸ (issues fun _ _ same => by cases same).wait nofun
          · exact Option.some.inj entered ▸ (issues fun _ _ same => by cases same).leave
        · exact Option.some.inj entered ▸ (issues fun _ _ same => by cases same).leave
      · cases entered
  | settles =>
      split at entered
      · cases entered
      dsimp only at entered
      split at entered
      · rw [← Option.some.inj entered]
        apply World.Issues.recoversPending
        exact erased .settles (fun _ _ same => by cases same) .settleRecovers
      · cases entered
  | settlesSession sessionId =>
      split at entered
      · cases entered
      dsimp only at entered
      split at entered
      · have erased := erased (.settlesSession sessionId) (fun _ _ same => by cases same)
          (.sessionRecovers sessionId)
        split at entered
        · exact Option.some.inj entered ▸ erased.recoversPending
        · exact Option.some.inj entered ▸ erased.leave
      · cases entered
  | withdraws mode destination =>
      split at entered
      · cases entered
      dsimp only at entered
      split at entered
      · exact Option.some.inj entered ▸ (issues fun _ _ same => by cases same).throw _
      split at entered
      · exact Option.some.inj entered ▸ (issues fun _ _ same => by cases same).throw _
      split at entered
      · exact Option.some.inj entered ▸ (issues fun _ _ same => by cases same).throw _
      · exact Option.some.inj entered ▸ (issues fun _ _ same => by cases same).recoversPending

end Locked

section Steps

variable {world next : World} {id : Nat} {config : LeaseConfig}

/-- Another store, clock or log, and the lock as it was. -/
theorem World.Joined.of_eq (joined : world.Joined) (tabs : next.tabs = world.tabs)
    (critical : next.critical = world.critical) : next.Joined where
  tabs := tabs ▸ joined.tabs
  issues := by
    rw [tabs, critical]
    exact joined.issues
  migrates := critical ▸ joined.migrates

theorem World.Joined.setTab (joined : world.Joined) {tab : Tab}
    (keeps : (world.tabs id).Keeps tab) : (world.setTab id tab).Joined where
  tabs := tabs_joined_setTab joined.tabs keeps.joined
  issues other sessionId budget stage held := by
    have job := joined.issues other sessionId budget stage held
    by_cases here : other = id
    · subst here
      rw [World.setTab_self]
      exact keeps.job _ job rfl
    · rw [World.setTab_other world tab here]
      exact job
  migrates := joined.migrates

theorem World.Joined.reload (joined : world.Joined) (id : Nat) : (world.reload id).Joined :=
  joined.setTab ((joined.tabs id).keeps rfl fun _ member => member)

theorem joined_call {made : World} (good : made.Joined)
    (called : world.call id made = some next) : next.Joined := by
  rw [World.call] at called
  split at called
  · exact Option.some.inj called ▸ good
  · cases called

theorem World.Joined.returns (joined : world.Joined) {result : Except BrowserError Tab}
    (keeps : ∀ tab, result = .ok tab → (world.tabs id).Keeps tab) :
    (world.returned id result).Joined := by
  cases result with
  | ok tab => exact joined.setTab (keeps tab rfl)
  | error error => exact joined.of_eq rfl rfl

/-- A call goes on with a tab that waits for one call less. -/
theorem World.Joined.resumes (joined : world.Joined) {call : Pending}
    (resumed : world.resume id call = some next) : next.Joined := by
  have erased := (joined.tabs id).erase call
  have moved := joined.setTab erased
  have kept : (world.tabs id).Keeps { world.tabs id with
      pending := (world.tabs id).pending.erase call, runtime := world.store.runtime } :=
    (joined.tabs id).keeps rfl fun _ member => List.mem_of_mem_erase member
  have reloaded := joined.setTab kept
  have here (tab : Tab) : ((world.setTab id tab).tabs id) = tab := World.setTab_self world id tab
  unfold World.resume at resumed
  dsimp only at resumed
  split at resumed
  · rw [← Option.some.inj resumed]
    apply reloaded.returns
    rw [here]
    exact fun tab ensured => kept.joined.ensureReloaded ensured
  · unfold World.acquireEphemeralKey at resumed
    dsimp only at resumed
    split at resumed
    · cases resumed
    split at resumed
    · exact Option.some.inj resumed ▸ moved.of_eq rfl rfl
    · rw [← Option.some.inj resumed]
      refine World.Joined.of_eq (moved.setTab
        (?_ : ((world.setTab id _).tabs id).Keeps _)) rfl rfl
      rw [here]
      exact erased.joined.keeps rfl fun _ member => member
  · split at resumed
    · cases resumed
    · rw [← Option.some.inj resumed]
      apply moved.returns
      rw [here]
      exact fun tab settled => erased.joined.settleAwaited settled
  · split at resumed
    · cases resumed
    · rw [← Option.some.inj resumed]
      exact joined.setTab ((joined.tabs id).keeps rfl fun _ member =>
        List.mem_of_mem_erase ((List.mem_cons.mp member).resolve_left nofun))
  · rw [← Option.some.inj resumed]
    apply reloaded.returns
    rw [here]
    exact fun tab settled => kept.joined.settleEnded settled
  · split at resumed
    · cases resumed
    · rw [← Option.some.inj resumed]
      exact joined.setTab ((joined.tabs id).keeps rfl fun _ member =>
        List.mem_of_mem_erase ((List.mem_cons.mp member).resolve_left nofun))
  · rw [← Option.some.inj resumed]
    exact moved.of_eq rfl rfl
  all_goals cases resumed

theorem World.syncClosed_tabs {record : WithdrawalRecord} {receiptBlocks : List Nat}
    {observedBlock : Nat} {reads : FinalityReads}
    (synced : world.syncClosed record receiptBlocks observedBlock reads = some next) :
    next.tabs = world.tabs ∧ next.critical = world.critical := by
  unfold World.syncClosed at synced
  dsimp only at synced
  split at synced <;> split at synced <;> exact Option.some.inj synced ▸ ⟨rfl, rfl⟩

/-- A tab opens or closes that does not have the lock. -/
theorem World.Joined.replaces (joined : world.Joined) (id : Nat) (tab : Tab)
    (idle : tab.pending = [])
    (tabs : ∀ other, next.tabs other = (world.setTab id tab).tabs other)
    (held : ∀ critical, next.critical = some critical →
      world.critical = some critical ∧ critical.tab ≠ id) : next.Joined where
  tabs other := by
    rw [tabs]
    apply tabs_joined_setTab joined.tabs
    intro sessionId member
    rw [idle] at member
    cases member
  issues other sessionId budget stage same := by
    obtain ⟨before, apart⟩ := held _ same
    rw [tabs, World.setTab_other world tab apart]
    exact joined.issues other sessionId budget stage before
  migrates critical same := joined.migrates critical (held critical same).1

/-- Every step keeps the callers with their job. -/
theorem World.Joined.step (joined : world.Joined)
    (opened : ∀ critical, world.critical = some critical → critical.tab < world.opened)
    {action : Action} (taken : world.step config action = some next) : next.Joined := by
  cases action with
  | opens ownerId =>
      rw [← Option.some.inj taken]
      refine joined.replaces world.opened (.opened ownerId world.store.runtime) rfl
        (fun _ => rfl) fun critical held => ⟨held, ?_⟩
      exact Nat.ne_of_lt (opened critical held)
  | closes id =>
      rw [← Option.some.inj taken]
      refine joined.replaces id .closed rfl (fun _ => rfl) fun critical held => ?_
      obtain ⟨before, apart⟩ := Option.filter_eq_some_iff.mp held
      exact ⟨before, bne_iff_ne.mp apart⟩
  | ticks seconds => exact Option.some.inj taken ▸ joined.of_eq rfl rfl
  | reloads id => exact joined_call (joined.reload id) taken
  | ensures id sessionId budget =>
      exact joined_call (joined.returns fun tab ensured =>
        (joined.tabs id).ensureLease ensured) taken
  | settles id => exact joined_call (joined.setTab ((joined.tabs id).waits rfl)) taken
  | settlesSession id sessionId =>
      exact joined_call (joined.returns fun tab settled =>
        (joined.tabs id).settleSessionLease settled) taken
  | retires id =>
      refine joined_call (joined.setTab ?_) taken
      cases retired : (world.tabs id).retireActiveLease with
      | none => exact (joined.tabs id).keeps rfl fun _ member => member
      | some tab =>
          obtain ⟨job, pending⟩ := Tab.retireActiveLease_waits retired
          exact (joined.tabs id).keeps job fun _ member => pending ▸ member
  | releases id serial =>
      have keeps : (world.tabs id).Keeps ((world.tabs id).modify serial fun lease =>
          { lease with inFlight := lease.inFlight - 1 }) :=
        (joined.tabs id).keeps rfl fun _ member => member
      exact joined_call (joined.setTab keeps) taken
  | withdrawsRecord id noteId =>
      simp only [World.step] at taken
      split at taken
      · cases taken
      · obtain ⟨state, -, called⟩ := Option.bind_eq_some_iff.mp taken
        exact joined_call (joined.setTab ((joined.tabs id).waits rfl)) called
  | resumes id call =>
      simp only [World.step] at taken
      split at taken
      · exact joined.resumes taken
      · cases taken
  | cancels id call => exact joined_call (joined.setTab ((joined.tabs id).erase call)) taken
  | enters id purpose => exact joined.enters taken
  | replies reply =>
      obtain ⟨⟨id, purpose, stage⟩, held, answered⟩ := Option.bind_eq_some_iff.mp taken
      exact joined.answers held answered
  | changes id change aborts statusThrows =>
      simp only [World.step] at taken
      split at taken
      · cases taken
      split at taken
      · have noted : ((world.reload id).note (.threw (.plain
            "Finish the current response before starting a new private balance."))).Joined :=
          (joined.reload id).of_eq rfl rfl
        exact joined_call noted taken
      split at taken
      · have noted : ((world.reload id).note (.threw transactionError)).Joined :=
          (joined.reload id).of_eq rfl rfl
        exact joined_call noted taken
      case h_2 store changed =>
        have noted : ({ world.noteChange change statusThrows with store := store } : World).Joined := by
          apply joined.of_eq <;> (cases change <;> first | rfl | (cases statusThrows <;> rfl))
        have kept : (({ world.noteChange change statusThrows with store := store } : World).keepLease
            id (!change.forgetsLease world.store)).Joined :=
          noted.setTab ((noted.tabs id).keeps rfl fun _ member => member)
        exact joined_call kept taken
  | rewrites change aborts =>
      simp only [World.step] at taken
      split at taken <;> exact Option.some.inj taken ▸ joined.of_eq rfl rfl
  | syncs id noteId =>
      obtain ⟨record, -, called⟩ := Option.bind_eq_some_iff.mp taken
      exact joined_call (joined.setTab ((joined.tabs id).waits rfl)) called
  | observesClosed id record receiptBlocks observedBlock reads =>
      simp only [World.step] at taken
      split at taken
      · obtain ⟨tabs, critical⟩ := World.syncClosed_tabs taken
        exact (joined.setTab ((joined.tabs id).erase _)).of_eq tabs critical
      · cases taken

theorem World.started_joined (clock : Nat) : (World.started clock).Joined where
  tabs _ _ member := by cases member
  issues _ _ _ _ held := by cases held
  migrates _ held := by cases held

end Steps

end ZkApi.Browser
