import ZkApi.WalletRuns

/-!
# Steps of the browser wallet

Whoever has the lock remembers the note, the request and the plan of the store, so
what it commits agrees with the log.
-/

namespace ZkApi.Browser

open Clientd

section Holder

variable {world : World} {id : Nat} {purpose : Purpose}

theorem Stage.Fits.ofRequest {stage : Stage} {request : ApiRequestV2} {runtime : Runtime}
    (named : stage.request? = some request)
    (journal : runtime.journal.map RequestJournal.preparedRequest = some request) :
    stage.Fits runtime where
  request other same := by
    rw [named] at same
    exact journal.trans same
  idle none := by
    rw [named] at none
    cases none
  unplanned free := by
    cases stage <;> simp_all [Stage.request?, Stage.isUnplanned]

theorem Stage.Fits.ofIdle {stage : Stage} {runtime : Runtime} (named : stage.request? = none)
    (journal : runtime.journal = none) (state : runtime.state.isSome)
    (plan : runtime.preparedWithdrawal = none ∨ stage.isUnplanned = false) :
    stage.Fits runtime where
  request other same := by
    rw [named] at same
    cases same
  idle _ := ⟨journal, state⟩
  unplanned free := plan.resolve_right (by simp [free])

theorem World.Valid.free (sound : world.Sound) (free : world.critical = none) : world.Valid where
  sound := sound
  ready critical held := by
    rw [free] at held
    cases held
  stage critical held := by
    rw [free] at held
    cases held

theorem World.Sound.waits (sound : world.Sound) (ready : world.Ready id) {stage : Stage}
    (fits : stage.Fits world.store.runtime) : (world.wait id purpose stage).Valid where
  sound := sound.wait id purpose stage
  ready critical held := by
    rw [← Option.some.inj held]
    exact ⟨ready.state, ready.journal, ready.plan⟩
  stage critical held := by
    rw [← Option.some.inj held]
    exact fits

theorem Tab.rejectJob_pending {tab : Tab} {call : Pending} (member : call ∈ tab.rejectJob.pending) :
    call ∈ tab.pending :=
  (List.mem_filter.mp member).1

theorem Tab.rejectRetirement_pending {tab : Tab} {serial : Nat} {call : Pending}
    (member : call ∈ (tab.rejectRetirement serial).pending) : call ∈ tab.pending := by
  simp only [Tab.rejectRetirement] at member
  split at member <;> split at member
  · exact Tab.rejectJob_pending (List.mem_filter.mp member).1
  · exact Tab.rejectJob_pending (List.mem_filter.mp member).1
  · exact (List.mem_filter.mp member).1
  · exact (List.mem_filter.mp member).1

theorem World.Sound.throws (sound : world.Sound) (error : BrowserError) :
    (world.throw id purpose error).Valid := by
  apply World.Valid.free _ rfl
  have moved : ∀ tab : Tab, (∀ call, call ∈ tab.pending → call ∈ (world.tabs id).pending) →
      World.Sound { (world.setTab id tab).note (.threw error) with critical := none } :=
    fun tab kept => ((sound.setTab id fun state => kept (.clears state)).note rfl).congr _ rfl rfl fun id _ pending => ⟨id, pending⟩
  cases purpose with
  | issuesLease sessionId budget => exact moved _ fun call => Tab.rejectJob_pending
  | retiresLease serial => exact moved _ fun call => Tab.rejectRetirement_pending
  | startUp | settles | settlesSession sessionId | withdraws mode destination =>
    exact moved _ fun call member => member

theorem World.Sound.leaves (sound : world.Sound) : (world.leave id purpose).Valid := by
  apply World.Valid.free _ rfl
  have moved : ∀ tab : Tab, (∀ state, .clears state ∈ tab.pending →
      .clears state ∈ (world.tabs id).pending) →
      World.Sound { world.setTab id tab with critical := none } := fun tab kept =>
    (sound.setTab id kept).congr _ rfl rfl fun id _ pending => ⟨id, pending⟩
  cases purpose with
  | settles =>
    apply moved
    intro state member
    exact (List.mem_cons.mp member).resolve_left (by simp)
  | startUp | retiresLease serial | settlesSession sessionId | issuesLease sessionId budget
  | withdraws mode destination => exact moved _ fun state member => member

theorem World.Ready.ofTab {next : World} (ready : world.Ready id)
    (store : next.store = world.store) (runtime : (next.tabs id).runtime =
      (world.tabs id).runtime) : next.Ready id where
  state := by rw [store, runtime]; exact ready.state
  journal := by rw [store, runtime]; exact ready.journal
  plan := by rw [store, runtime]; exact ready.plan

theorem World.reload_ready : (world.reload id).Ready id := by
  constructor <;> rw [World.reload, World.setTab_self] <;> rfl

theorem World.commit_ready (world : World) (id : Nat) (next : Runtime) : (world.commit id next).Ready id := by
  constructor <;> simp only [World.commit, Function.update_self]

theorem World.commit_sound {next : Runtime}
    (sound : World.Sound { world with store := { world.store with runtime := next } }) :
    (world.commit id next).Sound := by
  apply sound.congr (world.commit id next) rfl rfl
  intro other state pending
  by_cases same : other = id
  · subst same
    simp only [World.commit, Function.update_self] at pending
    exact ⟨other, pending⟩
  · simp only [World.commit, Function.update_of_ne same] at pending
    exact ⟨other, pending⟩

theorem World.Ready.planned (ready : world.Ready id) :
    (world.tabs id).runtime.preparedWithdrawal.any PreparedWithdrawal.clearanceReserved =
      world.store.runtime.preparedWithdrawal.any PreparedWithdrawal.clearanceReserved := by
  have same := congrArg (Option.any PreparedWithdrawal.clearanceReserved) ready.plan
  rw [Option.any_map, Option.any_map] at same
  exact same

theorem World.Ready.unplanned (ready : world.Ready id)
    (plan : (world.tabs id).runtime.preparedWithdrawal = none) :
    world.store.runtime.preparedWithdrawal = none := by
  have same := ready.plan
  rw [plan, Option.map_none] at same
  exact Option.map_eq_none_iff.mp same.symm

theorem World.Ready.unplanned_tab (ready : world.Ready id)
    (plan : world.store.runtime.preparedWithdrawal = none) :
    (world.tabs id).runtime.preparedWithdrawal = none := by
  have same := ready.plan
  rw [plan, Option.map_none] at same
  exact Option.map_eq_none_iff.mp same

theorem World.Sound.requests (sound : world.Sound) (ready : world.Ready id) (legacy : Bool)
    {request : ApiRequestV2}
    (journal : world.store.runtime.journal.map RequestJournal.preparedRequest = some request) :
    (world.requestLeaseWithRetry id purpose legacy request).Valid :=
  sound.waits ready (.ofRequest rfl journal)

theorem World.Sound.retires (sound : world.Sound) (ready : world.Ready id) (retirer : Retirer)
    {request : ApiRequestV2}
    (journal : world.store.runtime.journal.map RequestJournal.preparedRequest = some request) :
    (world.retireRequest id purpose retirer request).Valid :=
  sound.waits ready (.ofRequest rfl journal)

theorem World.Sound.prepares (sound : world.Sound) (ready : world.Ready id) (sessionId : String)
    (budget : Nat) (migrated : Bool) :
    (world.prepareLeaseRequest id sessionId budget migrated).Valid := by
  simp only [World.prepareLeaseRequest]
  cases selected : (world.tabs id).runtime.state with
  | none => exact sound.throws _
  | some state =>
    simp only
    split
    · exact sound.throws _
    cases stored : (world.tabs id).runtime.journal with
    | some journal =>
      have request : world.store.runtime.journal.map RequestJournal.preparedRequest =
          some journal.preparedRequest := by rw [← ready.journal, stored]; rfl
      simp only
      split
      · have flagged : (world.setTab id { world.tabs id with
            legacyMigrationInProgress := true }).Sound := sound.setTab id fun _ pending => pending
        exact flagged.requests (ready.ofTab rfl (by rw [World.setTab_self])) true request
      · exact sound.requests ready false request
    | none =>
      simp only
      split
      · exact sound.throws _
      case isFalse unplanned =>
        have plan := ready.unplanned (Option.not_isSome_iff_eq_none.mp unplanned)
        apply sound.waits ready
        apply Stage.Fits.ofIdle rfl (ready.journal.symm.trans stored) _ (.inl plan)
        rw [← ready.state, selected]
        rfl

theorem World.Sound.withdraws (sound : world.Sound) (mode : WithdrawalMode)
    (destination : String) : (world.withdrawRecovered id mode destination).Valid := by
  have reloaded := sound.reload id
  simp only [World.withdrawRecovered]
  cases selected : world.store.runtime.state with
  | none => exact reloaded.throws _
  | some state =>
    have waits : world.store.runtime.journal = none →
        ((world.reload id).wait id (.withdraws mode destination) .asksWithdrawalPath).Valid := by
      intro idle
      apply reloaded.waits World.reload_ready
      apply Stage.Fits.ofIdle rfl idle _ (.inr rfl)
      exact Option.isSome_iff_exists.mpr ⟨state, selected⟩
    simp only
    split
    · exact reloaded.throws _
    split
    · exact reloaded.throws _
    case isFalse free =>
      have idle : world.store.runtime.journal = none := by simp_all
      split
      · exact waits idle
      split
      · exact reloaded.leaves
      split
      · split <;> exact reloaded.throws _
      · exact waits idle

theorem World.Sound.recovers (sound : world.Sound) (ready : world.Ready id) :
    (world.recovered id purpose).Valid := by
  cases purpose with
  | issuesLease sessionId budget => exact sound.prepares ready sessionId budget false
  | settlesSession sessionId =>
    simp only [World.recovered]
    split
    · exact sound.throws _
    · exact sound.leaves
  | withdraws mode destination => exact sound.withdraws mode destination
  | startUp | retiresLease serial | settles =>
    rw [World.recovered]
    exact sound.leaves

theorem World.Sound.recoveryThrows (sound : world.Sound) (ready : world.Ready id)
    (error : BrowserError) : (world.recoveryThrew id purpose error).Valid := by
  cases purpose with
  | startUp =>
    rw [World.recoveryThrew]
    exact sound.recovers ready
  | issuesLease sessionId budget | settlesSession sessionId | withdraws mode destination
  | retiresLease serial | settles =>
    rw [World.recoveryThrew]
    · exact sound.throws error
    · simp

theorem World.Sound.recoveryFails (sound : world.Sound) (ready : world.Ready id)
    {request : ApiRequestV2} (error : BrowserError)
    (journal : world.store.runtime.journal.map RequestJournal.preparedRequest = some request) :
    (world.recoveryFailed id purpose request error).Valid := by
  rw [World.recoveryFailed]
  split
  · exact sound.waits ready (.ofRequest rfl journal)
  · exact sound.recoveryThrows ready error

theorem World.Sound.recoversPending (sound : world.Sound) (ready : world.Ready id) :
    (world.recoverPendingLocked id purpose).Valid := by
  rw [World.recoverPendingLocked]
  split
  case h_1 journal stored _ =>
    apply sound.waits ready
    apply Stage.Fits.ofRequest rfl
    rw [← ready.journal, stored]
    rfl
  · exact sound.recovers ready

/-- The holder of the lock commits a runtime with the same note and request. -/
theorem World.Sound.commits (sound : world.Sound) (ready : world.Ready id) {runtime : Runtime}
    (state : runtime.state = (world.tabs id).runtime.state)
    (journal : runtime.journal = (world.tabs id).runtime.journal)
    (plan : runtime.journal.isSome →
      runtime.preparedWithdrawal = (world.tabs id).runtime.preparedWithdrawal)
    (reserved : (world.tabs id).runtime.preparedWithdrawal.any
      PreparedWithdrawal.clearanceReserved = true →
        runtime.preparedWithdrawal.any PreparedWithdrawal.clearanceReserved = true) :
    (world.commit id runtime).Sound := by
  apply World.commit_sound
  apply sound.keeps
  apply Store.Keeps.ofRuntime sound.tidy (state.trans ready.state) (journal.trans ready.journal)
  · intro stored plan' planned
    have asked : world.store.runtime.journal.isSome := by
      rw [← ready.journal, ← journal]
      exact stored
    rw [plan stored] at planned
    have same := ready.plan
    rw [planned, Option.map_some] at same
    obtain ⟨old, held, core⟩ := Option.map_eq_some_iff.mp same.symm
    exact (congrArg PreparedWithdrawal.clearanceReserved core).symm.trans
      (sound.tidy.plan asked old held)
  · intro marked
    rw [← ready.planned] at marked
    exact reserved marked

theorem World.Sound.sends (sound : world.Sound) (ready : world.Ready id) (sending : Sending)
    {request : ApiRequestV2} {attempt deadline : Nat}
    (journal : world.store.runtime.journal.map RequestJournal.preparedRequest = some request) :
    (world.send id purpose sending request attempt deadline).Valid := by
  cases sending with
  | lease legacy =>
    have posted := sound.post journal (.inl rfl)
    exact posted.waits (ready.ofTab rfl rfl) (.ofRequest rfl journal)
  | retirement retirer =>
    have posted := sound.post journal (.inr ⟨world.isCheckedOut request.clientRequestId, rfl⟩)
    exact posted.waits (ready.ofTab rfl rfl) (.ofRequest rfl journal)

theorem World.Sound.activates (sound : world.Sound) (sessionId : String) (lease : IssuedLease) :
    (world.activate id sessionId lease).Valid := by
  apply World.Valid.free _ rfl
  have moved : ∀ tab : Tab, (∀ state, .clears state ∈ tab.pending →
      .clears state ∈ (world.tabs id).pending) →
      World.Sound { world.setTab id tab with serials := world.serials + 1, critical := none } :=
    fun tab kept => (sound.setTab id kept).congr _ rfl rfl fun id _ pending => ⟨id, pending⟩
  apply moved
  intro state member
  obtain ⟨call, inside, same⟩ := List.mem_map.mp member
  rw [Pending.handed.eq_def] at same
  split at same
  · cases same
  · exact same ▸ inside

/-- The lease of the issued key is written into the store. -/
theorem World.Sound.verified (sound : world.Sound) (ready : world.Ready id)
    {request : ApiRequestV2} (row : LeaseRow)
    (journal : world.store.runtime.journal.map RequestJournal.preparedRequest = some request) :
    (world.commit id { (world.tabs id).runtime with lease := some row }).Sound ∧
      (world.commit id { (world.tabs id).runtime with lease := some row }
        ).store.runtime.journal.map RequestJournal.preparedRequest = some request := by
  constructor
  · exact sound.commits ready rfl rfl (fun _ => rfl) fun marked => marked
  · exact (congrArg (Option.map RequestJournal.preparedRequest) ready.journal).trans journal

/-- The response of a finalized request is installed. -/
theorem World.Sound.installs (sound : world.Sound) (id : Nat) {state : NoteState}
    (successor : world.store.runtime.state.map NoteState.noteId = some state.noteId)
    (fresh : ¬ Known world.log state) :
    ((world.note (.installed state)).commit id { (world.tabs id).runtime with
      state := some state, journal := none, lease := none }).Sound := by
  obtain ⟨old, selected, same⟩ := Option.map_eq_some_iff.mp successor
  apply World.commit_sound
  exact sound.install selected same.symm fresh rfl rfl

/-- A call that has been waiting goes on with the runtime of the store. -/
theorem World.Sound.erases (sound : world.Sound) (id : Nat) (call : Pending) :
    ((world.reload id).setTab id { (world.reload id).tabs id with
      pending := (world.tabs id).pending.erase call }).Sound ∧
    ((world.reload id).setTab id { (world.reload id).tabs id with
      pending := (world.tabs id).pending.erase call }).Ready id := by
  constructor
  · apply (sound.reload id).setTab
    intro state member
    rw [World.reload, World.setTab_self]
    exact List.mem_of_mem_erase member
  · have ready : (world.reload id).Ready id := World.reload_ready
    apply ready.ofTab
    · rfl
    · rw [World.setTab_self]

/-- The journal gives way to a reserved plan. -/
theorem World.Sound.dropsForClearance (sound : world.Sound) (ready : world.Ready id)
    {request : ApiRequestV2}
    (journal : world.store.runtime.journal.map RequestJournal.preparedRequest = some request) :
    (world.commit id (world.tabs id).runtime.dropForClearance).Sound := by
  have reserved : (world.tabs id).runtime.dropForClearance.preparedWithdrawal.any
      PreparedWithdrawal.clearanceReserved = true := by
    cases planned : (world.tabs id).runtime.preparedWithdrawal with
    | none => simp [Runtime.dropForClearance, planned, reservedPlan]
    | some plan =>
      have kept : world.store.runtime.preparedWithdrawal.any
          PreparedWithdrawal.clearanceReserved = true := by
        cases stored : world.store.runtime.preparedWithdrawal with
        | none =>
          rw [ready.unplanned_tab stored] at planned
          cases planned
        | some other =>
          obtain ⟨_, held, _⟩ := Option.map_eq_some_iff.mp journal
          exact sound.tidy.plan (held ▸ rfl) other stored
      rw [← ready.planned, planned] at kept
      simpa [Runtime.dropForClearance, planned] using kept
  apply World.commit_sound
  exact sound.drop ready.state rfl (fun _ => reserved) (.inr reserved)

theorem World.Sound.notesStale (sound : world.Sound) (sending : Sending) (request : ApiRequestV2)
    (error : BrowserError) : (world.noteStale sending request error).Sound := by
  cases sending with
  | lease legacy =>
    simp only [World.noteStale]
    split
    · exact sound.note rfl
    · exact sound
  | retirement retirer => exact sound

theorem World.noteStale_store (world : World) (sending : Sending) (request : ApiRequestV2)
    (error : BrowserError) : (world.noteStale sending request error).store = world.store := by
  cases sending with
  | lease legacy =>
    simp only [World.noteStale]
    split <;> rfl
  | retirement retirer => rfl

theorem World.noteStale_tabs (world : World) (sending : Sending) (request : ApiRequestV2)
    (error : BrowserError) : (world.noteStale sending request error).tabs = world.tabs := by
  cases sending with
  | lease legacy =>
    simp only [World.noteStale]
    split <;> rfl
  | retirement retirer => rfl

/-- A failed attempt is followed by another one, or the call goes on without it. -/
theorem World.Sound.fails (sound : world.Sound) (ready : world.Ready id) (sending : Sending)
    {request : ApiRequestV2} (attempt deadline : Nat) (error : BrowserError)
    (journal : world.store.runtime.journal.map RequestJournal.preparedRequest = some request)
    {next : World} {config : LeaseConfig}
    (answered : world.answer config id purpose (.sends sending request attempt deadline)
      (.throws error) = some next) : next.Valid := by
  have noted := sound.notesStale sending request error
  have store := world.noteStale_store sending request error
  have tabs := world.noteStale_tabs sending request error
  have noticed : (world.noteStale sending request error).Ready id := ready.ofTab store (tabs ▸ rfl)
  have asked : (world.noteStale sending request error).store.runtime.journal.map
      RequestJournal.preparedRequest = some request := store ▸ journal
  unfold World.answer at answered
  dsimp only at answered
  split at answered
  · exact Option.some.inj answered ▸ noted.waits noticed (.ofRequest rfl asked)
  split at answered
  · exact Option.some.inj answered ▸ noted.recoveryFails noticed error asked
  · split at answered
    case isTrue stale =>
      rw [← Option.some.inj answered]
      apply World.Sound.throws
      apply World.commit_sound
      apply noted.drop
      · rw [store]
        exact ready.state
      · rfl
      · intro marked
        rw [← noticed.planned, tabs] at marked
        exact marked
      · left
        intro body same
        rw [asked] at same
        rw [← Option.some.inj same, World.noteStale, if_pos stale]
        exact List.mem_cons_self
    · exact Option.some.inj answered ▸ noted.throws error
  · exact Option.some.inj answered ▸ noted.throws error

/-- The plan of a withdrawal is committed, and the lock may be left with it. -/
theorem World.Sound.plans (sound : world.Sound) (ready : world.Ready id)
    (idle : world.store.runtime.journal = none) (mode : WithdrawalMode) (phase destination : String)
    (noteId : UInt32) :
    (world.commit id { (world.tabs id).runtime with
      preparedWithdrawal := some (nextPlan (world.tabs id).runtime.preparedWithdrawal mode phase
        noteId destination) }).Sound := by
  apply sound.commits ready
  · rfl
  · rfl
  · intro stored
    have none := ready.journal.trans idle
    simp only at stored
    rw [none] at stored
    cases stored
  · intro marked
    simp [nextPlan, any_isWithdrawalOnly marked]

end Holder

section Answers

variable {config : LeaseConfig} {world next : World} {id : Nat} {purpose : Purpose}
  {stage : Stage} {reply : Reply}

theorem World.Valid.answers (valid : world.Valid)
    (held : world.critical = some ⟨id, purpose, stage⟩) (fresh : world.Fresh (.replies reply))
    (answered : world.answer config id purpose stage reply = some next) : next.Valid := by
  have sound := valid.sound
  have ready := valid.ready _ held
  have fits := valid.stage _ held
  simp only at ready fits
  have whole := answered
  unfold World.answer at answered
  split at answered <;> dsimp only at answered
  case h_1 request status =>
    have journal := fits.request request rfl
    split at answered
    · split at answered
      · exact Option.some.inj answered ▸ sound.recovers ready
      · exact Option.some.inj answered ▸ sound.retires ready .recovery journal
    split at answered
    · rw [← Option.some.inj answered]
      have noted : (world.note (.sawFinalized id request.clientRequestId)).Sound := sound.note rfl
      exact noted.waits (ready.ofTab rfl rfl) (.ofRequest rfl journal)
    · exact Option.some.inj answered ▸ sound.recovers ready
  case h_2 request error =>
    exact Option.some.inj answered ▸ sound.recoveryFails ready error (fits.request request rfl)
  case h_3 request error status found =>
    have journal := fits.request request rfl
    split at answered
    · exact Option.some.inj answered ▸ sound.waits ready (.ofRequest rfl journal)
    split at answered
    · rw [← Option.some.inj answered]
      exact (sound.dropsForClearance ready journal).recovers (World.commit_ready _ _ _)
    · exact Option.some.inj answered ▸ sound.recoveryThrows ready error
  case h_4 request first error => exact Option.some.inj answered ▸ sound.throws error
  case h_5 sending request attempt deadline error =>
    exact sound.fails ready sending attempt deadline error (fits.request request rfl) whole
  case h_6 sending request attempt deadline wakesAt =>
    split at answered
    · exact Option.some.inj answered ▸ sound.sends ready sending (fits.request request rfl)
    · cases answered
  case h_7 sending request attempt deadline wakesAt error =>
    exact Option.some.inj answered ▸ sound.throws error
  case h_8 retirer request attempt deadline status =>
    have journal := fits.request request rfl
    have noted : (world.note (.sawFinalized id request.clientRequestId)).Sound := sound.note rfl
    split at answered
    · split at answered
      case h_1 serial =>
        rw [← Option.some.inj answered]
        apply World.Sound.waits
        · apply noted.setTab
          intro state member
          split at member <;> exact member
        · apply ready.ofTab
          · rfl
          · rw [World.setTab_self]
            split <;> rfl
        · exact .ofRequest rfl journal
      · exact Option.some.inj answered ▸ noted.waits (ready.ofTab rfl rfl) (.ofRequest rfl journal)
    · split at answered
      · exact Option.some.inj answered ▸ sound.recovers ready
      · exact Option.some.inj answered ▸ sound.throws _
  case h_9 legacy request attempt deadline lease =>
    have journal := fits.request request rfl
    have granted : (world.note (.granted request lease)).Sound := sound.note rfl
    split at answered
    · exact Option.some.inj answered ▸ granted.throws _
    · rw [← Option.some.inj answered]
      exact granted.waits (ready.ofTab rfl rfl) (.ofRequest rfl journal)
  case h_10 legacy request lease =>
    have journal := fits.request request rfl
    split at answered
    case h_1 sessionId budget =>
      obtain ⟨written, kept⟩ := sound.verified ready (leaseRow (world.tabs id).ownerId
        sessionId lease) journal
      split at answered
      · exact Option.some.inj answered ▸ written.retires (World.commit_ready _ _ _) _ kept
      · exact Option.some.inj answered ▸ written.activates sessionId lease
    · cases answered
  case h_11 legacy request lease error => exact Option.some.inj answered ▸ sound.throws error
  case h_12 retirer request found =>
    split at answered
    · exact Option.some.inj answered ▸ sound.waits ready (.ofRequest rfl (fits.request request rfl))
    split at answered
    · exact Option.some.inj answered ▸ sound.recovers ready
    · exact Option.some.inj answered ▸ sound.throws _
    · exact Option.some.inj answered ▸ sound.leaves
  case h_13 retirer request error => exact Option.some.inj answered ▸ sound.throws error
  case h_14 retirer request state =>
    have installed := sound.installs id fresh.completed.1 fresh.completed.2
    split at answered
    · exact Option.some.inj answered ▸ installed.recovers (World.commit_ready _ _ _)
    case h_2 sessionId budget =>
      rw [← Option.some.inj answered]
      apply World.Sound.prepares _ World.reload_ready
      apply World.Sound.reload
      exact installed.setTab id fun _ pending => pending
    · exact Option.some.inj answered ▸ installed.leaves
  case h_15 retirer request error => exact Option.some.inj answered ▸ sound.throws error
  case h_16 migrated unchanged =>
    have idle := fits.idle rfl
    have unplanned := fits.unplanned rfl
    split at answered
    · split at answered
      · exact Option.some.inj answered ▸ sound.throws _
      split at answered
      · exact Option.some.inj answered ▸ sound.throws _
      · rw [← Option.some.inj answered]
        exact sound.waits ready (.ofIdle rfl idle.1 idle.2 (.inl unplanned))
    · cases answered
  case h_17 migrated error => exact Option.some.inj answered ▸ sound.throws error
  case h_18 migrated journal =>
    have idle := fits.idle rfl
    have unplanned := fits.unplanned rfl
    split at answered
    · cases answered
    case h_2 state selected =>
      rw [← Option.some.inj answered]
      apply World.Sound.requests _ (World.commit_ready _ _ _) false rfl
      apply World.commit_sound
      exact sound.prove (ready.state.symm.trans selected) idle.1 unplanned ready.state rfl
        (ready.unplanned_tab unplanned)
  case h_19 migrated error => exact Option.some.inj answered ▸ sound.throws error
  case h_20 unchanged =>
    have idle := fits.idle rfl
    split at answered
    case h_1 mode destination state selected =>
      split at answered
      · exact Option.some.inj answered ▸ sound.leaves
      split at answered
      · rw [← Option.some.inj answered]
        have planned := sound.plans ready idle.1 .mutual "reserving" destination state.noteId
        have stored := ready.state.symm.trans selected
        have committed := world.commit_ready id
          { (world.tabs id).runtime with preparedWithdrawal := some (nextPlan
            (world.tabs id).runtime.preparedWithdrawal .mutual "reserving" state.noteId
            destination) }
        have cleared := planned.clear (sound.selected stored).1
          ⟨fun _ => ⟨ready.journal.trans idle.1, rfl⟩, fun record member same =>
            absurd same (sound.withdrawn_selected stored member)⟩
        exact cleared.waits (committed.ofTab rfl rfl)
          (.ofIdle rfl (ready.journal.trans idle.1) (ready.state ▸ idle.2) (.inr rfl))
      · exact Option.some.inj answered ▸ sound.waits ready (.ofIdle rfl idle.1 idle.2 (.inr rfl))
    · cases answered
  case h_21 error => exact Option.some.inj answered ▸ sound.throws error
  case h_22 =>
    have idle := fits.idle rfl
    exact Option.some.inj answered ▸ sound.waits ready (.ofIdle rfl idle.1 idle.2 (.inr rfl))
  case h_23 error => exact Option.some.inj answered ▸ sound.throws error
  case h_24 =>
    have idle := fits.idle rfl
    split at answered
    case h_1 mode destination state selected =>
      exact Option.some.inj answered ▸ (sound.plans ready idle.1 mode "prepared" destination
        state.noteId).leaves
    · cases answered
  case h_25 error => exact Option.some.inj answered ▸ sound.throws error
  · cases answered

theorem World.Valid.enters (valid : world.Valid)
    (entered : world.enter id purpose = some next) : next.Valid := by
  have sound := valid.sound.reload id
  have ready : (world.reload id).Ready id := World.reload_ready
  unfold World.enter at entered
  dsimp only at entered
  split at entered
  · cases entered
  cases purpose with
  | startUp =>
    dsimp only at entered
    split at entered
    · cases entered
    · exact Option.some.inj entered ▸ sound.recoversPending ready
  | issuesLease sessionId budget =>
    dsimp only at entered
    split at entered
    · exact Option.some.inj entered ▸ sound.recoversPending ready
    · cases entered
  | retiresLease serial =>
    dsimp only at entered
    split at entered
    · split at entered
      case h_1 journal lease stored _ =>
        split at entered
        · rw [← Option.some.inj entered]
          exact sound.retires ready _ (congrArg (Option.map RequestJournal.preparedRequest) stored)
        · exact Option.some.inj entered ▸ sound.leaves
      · exact Option.some.inj entered ▸ sound.leaves
    · cases entered
  | settles =>
    dsimp only at entered
    split at entered
    · obtain ⟨moved, still⟩ := valid.sound.erases id .settleRecovers
      exact Option.some.inj entered ▸ moved.recoversPending still
    · cases entered
  | settlesSession sessionId =>
    dsimp only at entered
    split at entered
    · obtain ⟨moved, still⟩ := valid.sound.erases id (.sessionRecovers sessionId)
      split at entered
      · exact Option.some.inj entered ▸ moved.recoversPending still
      · exact Option.some.inj entered ▸ moved.leaves
    · cases entered
  | withdraws mode destination =>
    dsimp only at entered
    split at entered
    · exact Option.some.inj entered ▸ sound.throws _
    split at entered
    · exact Option.some.inj entered ▸ sound.throws _
    split at entered
    · exact Option.some.inj entered ▸ sound.throws _
    · exact Option.some.inj entered ▸ sound.recoversPending ready

/-- What a tab does outside of the lock. -/
structure World.Outside (world next : World) : Prop where
  store : next.store = world.store
  log : next.log = world.log ∨ ∃ entry, entry.isNeutral = true ∧ next.log = entry :: world.log
  critical : ∀ critical, next.critical = some critical → world.critical = some critical
  runtime : ∀ id, (next.tabs id).runtime = (world.tabs id).runtime ∨
    (next.tabs id).runtime = world.store.runtime ∨ next.critical.all (·.tab != id) = true
  clears : ∀ id state, .clears state ∈ (next.tabs id).pending →
    ∃ old, .clears state ∈ (world.tabs old).pending

theorem World.Valid.outside (valid : world.Valid) (outside : world.Outside next) : next.Valid where
  sound := by
    have base : ∀ tabs : Nat → Tab, (∀ id state, .clears state ∈ (tabs id).pending →
        ∃ old, .clears state ∈ (world.tabs old).pending) →
        World.Sound { world with tabs := tabs } := fun tabs kept =>
      valid.sound.congr _ rfl rfl kept
    rcases outside.log with same | ⟨entry, neutral, more⟩
    · exact (base next.tabs outside.clears).congr next outside.store same
        fun id _ pending => ⟨id, pending⟩
    · exact ((base next.tabs outside.clears).note neutral).congr next outside.store more
        fun id _ pending => ⟨id, pending⟩
  ready critical held := by
    have ready := valid.ready critical (outside.critical critical held)
    rcases outside.runtime critical.tab with same | reloaded | gone
    · exact ready.ofTab outside.store same
    · constructor <;> rw [reloaded, outside.store]
    · simp [held] at gone
  stage critical held := by
    rw [outside.store]
    exact valid.stage critical (outside.critical critical held)

end Answers

section Calls

/-- A call that leaves the runtime of its tab alone and asks for no clearance. -/
structure Tab.Calm (tab next : Tab) : Prop where
  runtime : next.runtime = tab.runtime
  clears : ∀ state, .clears state ∈ next.pending → .clears state ∈ tab.pending

variable {tab next : Tab}

theorem Tab.Calm.refl (tab : Tab) : tab.Calm tab :=
  ⟨rfl, fun _ member => member⟩

theorem Tab.Calm.trans {middle : Tab} (first : tab.Calm middle) (second : middle.Calm next) :
    tab.Calm next :=
  ⟨second.runtime.trans first.runtime, fun state member =>
    first.clears state (second.clears state member)⟩

theorem Tab.Calm.waits (tab : Tab) {call : Pending} (calm : ∀ state, call ≠ .clears state) :
    tab.Calm { tab with pending := call :: tab.pending } :=
  ⟨rfl, fun state member => (List.mem_cons.mp member).resolve_left (calm state).symm⟩

theorem Tab.retireActiveLease_calm (retired : tab.retireActiveLease = some next) :
    tab.Calm next := by
  rw [Tab.retireActiveLease] at retired
  split at retired
  · split at retired
    · cases retired
    · exact Option.some.inj retired ▸ ⟨rfl, fun _ member => member⟩
  · exact Option.some.inj retired ▸ .refl tab

theorem Tab.waitForLeasePromise_calm {job : LeaseJob} {sessionId : String} {budget : Nat}
    (waited : tab.waitForLeasePromise job sessionId budget = .ok next) : tab.Calm next := by
  rw [Tab.waitForLeasePromise] at waited
  split at waited
  · cases waited
  split at waited
  · cases waited
  · exact Except.ok.inj waited ▸ .waits tab (by simp)

theorem Tab.ensureLease_calm {sessionId : String} {budget now : Nat}
    (ensured : tab.ensureLease sessionId budget now = .ok next) : tab.Calm next := by
  rw [Tab.ensureLease] at ensured
  split at ensured
  · exact Tab.waitForLeasePromise_calm ensured
  split at ensured
  · exact Except.ok.inj ensured ▸ .waits tab (by simp)
  split at ensured
  · split at ensured
    · cases ensured
    · exact Except.ok.inj ensured ▸ .waits tab (by simp)
  split at ensured
  · cases ensured
  · exact Except.ok.inj ensured ▸ .waits tab (by simp)

theorem Tab.ensureReloaded_calm {sessionId : String} {budget now : Nat}
    (ensured : tab.ensureReloaded sessionId budget now = .ok next) : tab.Calm next := by
  rw [Tab.ensureReloaded] at ensured
  split at ensured
  · cases ensured
  split at ensured
  · exact Tab.waitForLeasePromise_calm ensured
  · dsimp only at ensured
    have started : tab.Calm { tab with
        job := some ⟨sessionId, budget, false⟩, pending := .ensureWaits sessionId :: tab.pending } :=
      ⟨rfl, fun state member => (List.mem_cons.mp member).resolve_left (by simp)⟩
    split at ensured
    · cases ensured
    case h_2 retiring retired =>
      have calm := started.trans (Tab.retireActiveLease_calm retired)
      exact Except.ok.inj ensured ▸ ⟨calm.runtime, calm.clears⟩
    · exact Except.ok.inj ensured ▸ started

theorem Tab.settleAwaited_calm (settled : tab.settleAwaited = .ok next) : tab.Calm next := by
  rw [Tab.settleAwaited] at settled
  split at settled
  · cases settled
  split at settled
  · exact Except.ok.inj settled ▸ .waits tab (by simp)
  · cases settled
  case h_3 retiring _ retired =>
    have calm := Tab.retireActiveLease_calm retired
    exact Except.ok.inj settled ▸ calm.trans (.waits retiring (by simp))

theorem Tab.settleEnded_calm (settled : tab.settleEnded = .ok next) : tab.Calm next := by
  rw [Tab.settleEnded] at settled
  split at settled
  · cases settled
  · exact Except.ok.inj settled ▸ ⟨rfl, fun _ member => member⟩

theorem Tab.settleSessionLease_calm {sessionId : String}
    (settled : tab.settleSessionLease sessionId = .ok next) : tab.Calm next := by
  rw [Tab.settleSessionLease] at settled
  split at settled
  · split at settled
    · cases settled
    case h_2 retiring retired =>
      have calm := Tab.retireActiveLease_calm retired
      exact Except.ok.inj settled ▸ calm.trans (.waits retiring (by simp))
  · exact Except.ok.inj settled ▸ .waits tab (by simp)

end Calls

section Steps

variable {config : LeaseConfig} {world next : World} {id : Nat}

theorem World.Valid.setTab (valid : world.Valid) (id : Nat) (tab : Tab)
    (runtime : tab.runtime = (world.tabs id).runtime ∨ tab.runtime = world.store.runtime)
    (clears : ∀ state, .clears state ∈ tab.pending → .clears state ∈ (world.tabs id).pending) :
    (world.setTab id tab).Valid := by
  apply valid.outside
  constructor
  · rfl
  · exact .inl rfl
  · exact fun _ held => held
  · intro other
    by_cases same : other = id
    · subst same
      rw [World.setTab_self]
      exact runtime.imp_right .inl
    · rw [World.setTab_other _ _ same]
      exact .inl rfl
  · intro other state member
    by_cases same : other = id
    · subst same
      rw [World.setTab_self] at member
      exact ⟨other, clears state member⟩
    · rw [World.setTab_other _ _ same] at member
      exact ⟨other, member⟩

theorem World.Valid.note (valid : world.Valid) {entry : Entry} (neutral : entry.isNeutral = true) :
    (world.note entry).Valid :=
  valid.outside ⟨rfl, .inr ⟨entry, neutral, rfl⟩, fun _ held => held, fun _ => .inl rfl,
    fun id _ member => ⟨id, member⟩⟩

theorem World.Valid.calm (valid : world.Valid) {tab : Tab} (calm : (world.tabs id).Calm tab) :
    (world.setTab id tab).Valid :=
  valid.setTab id _ (.inl calm.runtime) calm.clears

theorem World.Valid.returns (valid : world.Valid) {result : Except BrowserError Tab}
    (calm : ∀ tab, result = .ok tab → (world.tabs id).Calm tab) :
    (world.returned id result).Valid := by
  cases result with
  | ok tab => exact valid.calm (calm tab rfl)
  | error error => exact valid.note rfl

theorem World.Valid.acquires (valid : world.Valid) {serial : Nat} {sessionId : String}
    {chosenAt : Option Nat}
    (acquired : world.acquireEphemeralKey id serial sessionId chosenAt = some next) :
    next.Valid := by
  rw [World.acquireEphemeralKey] at acquired
  dsimp only at acquired
  split at acquired
  · cases acquired
  split at acquired
  · exact Option.some.inj acquired ▸ valid.note rfl
  · rw [← Option.some.inj acquired]
    apply World.Valid.note _ rfl
    exact valid.calm ⟨rfl, fun _ member => member⟩

/-- A record that is available for a background withdrawal is marked. -/
theorem World.Sound.available (sound : world.Sound) {record : WithdrawalRecord}
    {state : NoteState} (member : record ∈ world.store.withdrawals)
    (held : record.state = some state) (available : record.isAvailable = true) :
    world.store.Withdrawn state := by
  have reserved : record.clearanceReserved = true := by
    simp only [WithdrawalRecord.isAvailable, Bool.and_eq_true] at available
    exact available.1.1.1.2
  constructor
  · intro selected
    exact absurd held (sound.withdrawn_selected selected member)
  · intro other inside same
    have id : other.noteId = record.noteId := by
      rw [← sound.tidy.own other inside state same, sound.tidy.own record member state held]
    rw [List.inj_on_of_nodup_map sound.tidy.ids inside member id]
    exact reserved

/-- The clearance of an available record is going to be asked for. -/
theorem World.Valid.asks (valid : world.Valid) {record : WithdrawalRecord} {state : NoteState}
    (member : record ∈ world.store.withdrawals) (held : record.state = some state)
    (available : record.isAvailable = true) :
    (world.setTab id { world.tabs id with
      pending := .clears state :: (world.tabs id).pending }).Valid := by
  have sound := valid.sound
  have same := valid.setTab id (world.tabs id) (.inl rfl) fun _ member => member
  constructor
  · constructor
    · exact sound.tidy
    · exact sound.places
    · exact sound.emptied
    · exact sound.proved
    · exact sound.cleared
    · intro other cleared pending
      by_cases here : other = id
      · subst here
        rw [World.setTab_self] at pending
        cases List.mem_cons.mp pending with
        | inl now =>
          rw [Pending.clears.injEq] at now
          subst now
          exact ⟨sound.recorded member held, sound.available member held available⟩
        | inr before => exact sound.clears other cleared before
      · rw [World.setTab_other _ _ here] at pending
        exact sound.clears other cleared pending
    · exact sound.posted
    · exact sound.order
  · intro critical holds
    apply World.Ready.ofTab (same.ready critical holds)
    · rfl
    by_cases here : critical.tab = id
    · rw [here, World.setTab_self, World.setTab_self]
    · rw [World.setTab_other _ _ here, World.setTab_other _ _ here]
  · exact valid.stage

theorem World.Valid.reload (valid : world.Valid) (id : Nat) : (world.reload id).Valid :=
  valid.setTab id _ (.inr rfl) fun _ member => member

theorem World.Valid.resumes (valid : world.Valid) {call : Pending}
    (member : call ∈ (world.tabs id).pending) (resumed : world.resume id call = some next) :
    next.Valid := by
  have erased : ∀ state, .clears state ∈ (world.tabs id).pending.erase call →
      .clears state ∈ (world.tabs id).pending := fun _ inside => List.mem_of_mem_erase inside
  have calm : (world.setTab id { world.tabs id with
      pending := (world.tabs id).pending.erase call }).Valid := valid.setTab id _ (.inl rfl) erased
  have reloaded : (world.setTab id { world.tabs id with
      pending := (world.tabs id).pending.erase call, runtime := world.store.runtime }).Valid :=
    valid.setTab id _ (.inr rfl) erased
  cases call with
  | ensureReloads sessionId budget now =>
    rw [World.resume] at resumed
    rw [← Option.some.inj resumed]
    apply World.Valid.returns reloaded
    intro tab ensured
    rw [World.setTab_self]
    exact Tab.ensureReloaded_calm ensured
  | ensureReturns serial sessionId chosenAt => exact calm.acquires resumed
  | settleAwaits =>
    rw [World.resume] at resumed
    split at resumed
    · cases resumed
    · rw [← Option.some.inj resumed]
      apply World.Valid.returns calm
      intro tab settled
      rw [World.setTab_self]
      exact Tab.settleAwaited_calm settled
  | settleRetires =>
    rw [World.resume] at resumed
    split at resumed
    · cases resumed
    · rw [← Option.some.inj resumed]
      apply World.Valid.setTab valid
      · exact .inl rfl
      intro state inside
      exact erased state ((List.mem_cons.mp inside).resolve_left (by simp))
  | settleEnds =>
    rw [World.resume] at resumed
    rw [← Option.some.inj resumed]
    apply World.Valid.returns reloaded
    intro tab settled
    rw [World.setTab_self]
    exact Tab.settleEnded_calm settled
  | sessionRetires sessionId =>
    rw [World.resume] at resumed
    split at resumed
    · cases resumed
    · rw [← Option.some.inj resumed]
      apply World.Valid.setTab valid
      · exact .inl rfl
      intro state inside
      exact erased state ((List.mem_cons.mp inside).resolve_left (by simp))
  | clears state =>
    rw [World.resume] at resumed
    rw [← Option.some.inj resumed]
    obtain ⟨known, withdrawn⟩ := valid.sound.clears id state member
    exact ⟨calm.sound.clear known withdrawn, fun critical held =>
      (calm.ready critical held).ofTab rfl rfl, calm.stage⟩
  | ensureWaits sessionId | settleRecovers | sessionRecovers sessionId | checksClose record =>
    cases resumed

/-- Every change but a confirmation keeps the places of all notes, if it is not forced. -/
theorem StoreChange.apply_keeps {store changed : Store} (tidy : store.Tidy)
    (single : store.Single) {change : StoreChange}
    (unforced : ∀ force noteId hashes, change = .clears force noteId hashes → ¬ (force = true ∧
      store.runtime.preparedWithdrawal.any PreparedWithdrawal.isWithdrawalOnly = true))
    (applied : change.apply store = some changed) :
    store.Keeps changed ∨ ∃ state, change = .confirms state := by
  cases change with
  | archives reason noteId claimed => exact .inl (archiveBrowserWallet_keeps tidy single applied)
  | detaches noteId phase destination =>
    exact .inl (detachBrowserEscapeWithdrawal_keeps tidy single applied)
  | detachesClosed noteId mode destination closeBlockNumber reserved =>
    exact .inl (detachBrowserClosedWithdrawal_keeps tidy single applied)
  | parks => exact .inl (parkBrowserWithdrawal_keeps tidy single applied)
  | restores noteId revision => exact .inl (restoreBrowserWithdrawal_keeps tidy applied)
  | transfers attempt phase mode reserved =>
    exact .inl (transferBrowserLateWithdrawalAttempt_keeps tidy single applied)
  | clears force noteId hashes =>
    exact .inl (clearPreparedWithdrawal_keeps tidy (unforced force noteId hashes rfl) applied)
  | challenges attempt =>
    exact .inl (resolveLateChallengedWithdrawalAttempt_keeps tidy applied)
  | challengesPrepared noteId =>
    exact .inl (resolveChallengedPreparedEscape_keeps tidy applied)
  | remembers attempts =>
    exact .inl (Option.some.inj applied ▸ rememberLateWithdrawals_keeps tidy attempts)
  | deposits pending => exact .inl (planDeposit_keeps tidy applied)
  | confirms state => exact .inr ⟨state, rfl⟩

theorem World.Valid.changes (valid : world.Valid) (free : world.critical = none)
    {store : Store} {change : StoreChange} {aborts statusThrows : Bool}
    (orderly : world.Orderly (.changes id change aborts statusThrows))
    (applied : change.apply world.store = some store) :
    World.Valid { world.noteChange change statusThrows with store := store } := by
  have confirmed : ∀ state, confirmDeposit world.store state = some store →
      (∀ entry ∈ world.log, entry.noteId? ≠ some state.noteId) →
      World.Valid { world.noteChange (.confirms state) statusThrows with store := store } := by
    intro state taken unseen
    have sound : World.Valid { world.note (.confirmed state) with store := store } :=
      .free (valid.sound.confirm taken unseen) free
    cases statusThrows with
    | false => exact sound
    | true => exact sound.note rfl
  have unforced : ∀ force noteId hashes, change = .clears force noteId hashes → ¬ (force = true ∧
      world.store.runtime.preparedWithdrawal.any PreparedWithdrawal.isWithdrawalOnly = true) := by
    rintro force noteId hashes rfl ⟨forced, only⟩
    have free := (Bool.and_eq_true_iff.mp orderly).2
    simp [World.isForced, forced, only] at free
  rcases StoreChange.apply_keeps valid.sound.tidy valid.sound.single unforced applied with
    keeps | ⟨state, rfl⟩
  · cases change with
    | confirms state => exact confirmed state applied orderly.fresh.confirms
    | archives reason noteId claimed | detaches noteId phase destination
    | detachesClosed noteId mode destination closeBlockNumber reserved | parks
    | restores noteId revision | transfers attempt phase mode reserved | clears
    | challenges attempt | challengesPrepared noteId | remembers attempts | deposits pending =>
      exact .free (valid.sound.keeps keeps) free
  · exact confirmed state applied orderly.fresh.confirms

/-- A change that needs no lock leaves the note, its request and the core of its plan. -/
theorem World.Valid.rewrites (valid : world.Valid) {store : Store}
    (keeps : world.store.Keeps store) (state : store.runtime.state = world.store.runtime.state)
    (journal : store.runtime.journal = world.store.runtime.journal)
    (plan : store.runtime.preparedWithdrawal.map PreparedWithdrawal.core =
      world.store.runtime.preparedWithdrawal.map PreparedWithdrawal.core) :
    World.Valid { world with store := store } where
  sound := valid.sound.keeps keeps
  ready critical held := by
    have ready := valid.ready critical held
    exact ⟨ready.state.trans state.symm, ready.journal.trans journal.symm,
      ready.plan.trans plan.symm⟩
  stage critical held := by
    have fits := valid.stage critical held
    constructor
    · rw [journal]
      exact fits.request
    · rw [journal, state]
      exact fits.idle
    · intro free
      have none := fits.unplanned free
      rw [none, Option.map_none] at plan
      exact Option.map_eq_none_iff.mp plan

theorem updateBrowserWithdrawal_runtime {store changed : Store} {noteId : UInt32}
    {changes : RecordChanges} {sanitize : Bool} {revision : Option Nat}
    (taken : updateBrowserWithdrawal store noteId changes sanitize revision = some changed) :
    changed.runtime = store.runtime := by
  rw [updateBrowserWithdrawal] at taken
  split at taken
  · cases taken
  split at taken
  · cases taken
  split at taken
  · cases taken
  · exact Option.some.inj taken ▸ rfl

theorem World.Valid.applies (valid : world.Valid) {store : Store} {change : RecordChange}
    (applied : change.apply world.store = some store) :
    World.Valid { world with store := store } := by
  have tidy := valid.sound.tidy
  cases change with
  | rewrites phase submissionId hashes =>
    have keeps := rewritePreparedWithdrawal_keeps tidy applied
    obtain ⟨plan, planned, same⟩ := Option.map_eq_some_iff.mp applied
    subst same
    apply valid.rewrites keeps rfl rfl
    rw [planned]
    rfl
  | updates noteId changes revision =>
    have keeps := updateBrowserWithdrawal_keeps tidy applied
    have runtime := updateBrowserWithdrawal_runtime applied
    exact valid.rewrites keeps (runtime ▸ rfl) (runtime ▸ rfl) (runtime ▸ rfl)
  | mutates noteId phase startPending finalizePending planPhase submissionId hashes =>
    have keeps := mutateBackgroundWithdrawal_keeps tidy applied
    obtain ⟨record, found, same⟩ := Option.map_eq_some_iff.mp applied
    subst same
    exact valid.rewrites keeps rfl rfl rfl
  | plans noteId destination =>
    have keeps := saveBrowserBackgroundWithdrawalPlan_keeps tidy applied
    have runtime : store.runtime = world.store.runtime := by
      rw [RecordChange.apply, saveBrowserBackgroundWithdrawalPlan] at applied
      split at applied
      · cases applied
      split at applied
      · cases applied
      · exact Option.some.inj applied ▸ rfl
    exact valid.rewrites keeps (runtime ▸ rfl) (runtime ▸ rfl) (runtime ▸ rfl)

theorem WithdrawalRecord.le_closedAt (record : WithdrawalRecord) (receiptBlocks : List Nat)
    (observedBlock : Nat) : record.closeBlockNumber ≤ record.closedAt receiptBlocks observedBlock :=
  Nat.le_max_left _ _

theorem FinalityReads.checkpoint_final (reads : FinalityReads) (observedBlock : Nat) :
    reads.finalizedBlock = some (reads.checkpoint observedBlock) ∨ reads.finalizedBlock = none ∧
      reads.checkpoint observedBlock = reads.head observedBlock - closeFinalityFallbackBlocks := by
  rw [FinalityReads.checkpoint]
  cases final : reads.finalizedBlock with
  | some block => exact .inl rfl
  | none => exact .inr ⟨rfl, rfl⟩

/-- A final close was read at a block that is not below the one of the close. -/
theorem finalized_checked {reads : FinalityReads} {status : String}
    {transitionBlockNumber observedBlock : Nat}
    (final : (browserWithdrawalStateFinality reads status transitionBlockNumber
      observedBlock).finalized = true) :
    transitionBlockNumber ≤ (browserWithdrawalStateFinality reads status transitionBlockNumber
      observedBlock).checkedBlock ∧
    reads.checkpoint observedBlock = (browserWithdrawalStateFinality reads status
      transitionBlockNumber observedBlock).checkedBlock := by
  rw [browserWithdrawalStateFinality] at final ⊢
  split at final
  · cases final
  case isFalse positive =>
    rw [if_neg positive]
    dsimp only at final ⊢
    split at final
    · cases final
    case isFalse below =>
      rw [if_neg below]
      exact ⟨Nat.le_of_not_lt below, rfl⟩

theorem World.Valid.syncs (valid : world.Valid) {record : WithdrawalRecord}
    {receiptBlocks : List Nat} {observedBlock : Nat} {reads : FinalityReads}
    (synced : world.syncClosed record receiptBlocks observedBlock reads = some next) :
    next.Valid := by
  rw [World.syncClosed] at synced
  dsimp only at synced
  split at synced
  case isTrue final =>
    obtain ⟨checked, checkpoint⟩ := finalized_checked final
    have noted : (world.note (.vaultRead record.noteId (browserWithdrawalStateFinality reads
        "closed" (record.closedAt receiptBlocks observedBlock) observedBlock).checkedBlock
        "closed" reads.finalizedBlock (reads.head observedBlock))).Valid := valid.note rfl
    split at synced
    · exact Option.some.inj synced ▸ noted
    case h_2 store updated =>
      rw [← Option.some.inj synced]
      have runtime := updateBrowserWithdrawal_runtime updated
      have sound := noted.sound.sanitize updated (record.le_closedAt receiptBlocks observedBlock)
        checked ⟨_, _, List.mem_cons_self, checkpoint ▸ reads.checkpoint_final observedBlock⟩
      constructor
      · exact sound
      · intro critical held
        have ready := noted.ready critical held
        constructor <;> simp only [World.note, runtime]
        · exact ready.state
        · exact ready.journal
        · exact ready.plan
      · intro critical held
        simp only [World.note, runtime]
        exact noted.stage critical held
  · split at synced
    · exact Option.some.inj synced ▸ valid
    case h_2 store updated =>
      have runtime := updateBrowserWithdrawal_runtime updated
      exact Option.some.inj synced ▸ valid.rewrites
        (updateBrowserWithdrawal_keeps valid.sound.tidy updated) (runtime ▸ rfl) (runtime ▸ rfl)
        (runtime ▸ rfl)

theorem World.call_eq {made : World} (called : world.call id made = some next) : next = made := by
  rw [World.call] at called
  split at called
  · exact (Option.some.inj called).symm
  · cases called

theorem World.Valid.step (valid : world.Valid) {action : Action} (orderly : world.Orderly action)
    (taken : world.step config action = some next) : next.Valid := by
  cases action with
  | opens ownerId =>
    have opened := valid.setTab world.opened (.opened ownerId world.store.runtime)
      (.inr rfl) (by simp [Tab.opened])
    rw [← Option.some.inj taken]
    exact opened.outside ⟨rfl, .inl rfl, fun _ held => held, fun _ => .inl rfl,
      fun id _ member => ⟨id, member⟩⟩
  | closes id =>
    rw [← Option.some.inj taken]
    apply valid.outside
    constructor
    · rfl
    · exact .inl rfl
    · intro critical held
      exact (Option.filter_eq_some_iff.mp held).1
    · intro other
      by_cases same : other = id
      · subst same
        right; right
        cases holder : world.critical with
        | none => simp
        | some critical => by_cases own : critical.tab = other <;> simp [own, Option.filter]
      · exact .inl (congrArg Tab.runtime (World.setTab_other world .closed same))
    · intro other state member
      by_cases same : other = id
      · subst same
        have closed : (world.setTab other .closed).tabs other = .closed := World.setTab_self ..
        exact absurd (closed ▸ member) List.not_mem_nil
      · exact ⟨other, World.setTab_other world .closed same ▸ member⟩
  | ticks seconds =>
    rw [← Option.some.inj taken]
    exact valid.outside ⟨rfl, .inl rfl, fun _ held => held, fun _ => .inl rfl,
      fun id _ member => ⟨id, member⟩⟩
  | reloads id => exact World.call_eq taken ▸ valid.reload id
  | ensures id sessionId budget =>
    rw [World.call_eq taken]
    exact valid.returns fun tab => Tab.ensureLease_calm
  | settles id =>
    rw [World.call_eq taken]
    exact valid.calm (.waits _ (by simp))
  | settlesSession id sessionId =>
    rw [World.call_eq taken]
    exact valid.returns fun tab => Tab.settleSessionLease_calm
  | retires id =>
    rw [World.call_eq taken]
    apply valid.calm
    cases retired : (world.tabs id).retireActiveLease with
    | none => exact .refl _
    | some tab => exact Tab.retireActiveLease_calm retired
  | releases id serial =>
    rw [World.call_eq taken]
    exact valid.calm ⟨rfl, fun _ member => member⟩
  | withdrawsRecord id noteId =>
    rw [World.step] at taken
    split at taken
    · cases taken
    case h_2 record found =>
      obtain ⟨state, held, called⟩ := Option.bind_eq_some_iff.mp taken
      obtain ⟨stored, available⟩ := Option.filter_eq_some_iff.mp found
      rw [World.call_eq called]
      exact valid.asks (record?_some stored).1 held available
  | resumes id call =>
    rw [World.step] at taken
    split at taken
    case isTrue member => exact valid.resumes member taken
    · cases taken
  | cancels id call =>
    rw [World.call_eq taken]
    exact valid.calm ⟨rfl, fun _ member => List.mem_of_mem_erase member⟩
  | enters id purpose => exact valid.enters taken
  | replies reply =>
    obtain ⟨critical, held, answered⟩ := Option.bind_eq_some_iff.mp taken
    exact valid.answers held orderly.fresh answered
  | changes id change aborts statusThrows =>
    rw [World.step] at taken
    split at taken
    · cases taken
    case isFalse free =>
      split at taken
      · exact World.call_eq taken ▸ (valid.reload id).note rfl
      split at taken
      · exact World.call_eq taken ▸ (valid.reload id).note rfl
      case h_2 store applied =>
        rw [World.call_eq taken]
        exact (valid.changes (Option.not_isSome_iff_eq_none.mp free) orderly
          (Option.filter_eq_some_iff.mp applied).1).setTab id _ (.inr rfl) fun _ member => member
  | rewrites change aborts =>
    rw [World.step] at taken
    split at taken
    · exact Option.some.inj taken ▸ valid.note rfl
    case h_2 store applied =>
      exact Option.some.inj taken ▸ valid.applies (Option.filter_eq_some_iff.mp applied).1
  | syncs id noteId =>
    obtain ⟨record, _, called⟩ := Option.bind_eq_some_iff.mp taken
    rw [World.call_eq called]
    exact valid.calm (.waits _ (by simp))
  | observesClosed id record receiptBlocks observedBlock reads =>
    rw [World.step] at taken
    split at taken
    · have moved := valid.setTab id ({ world.tabs id with
        pending := (world.tabs id).pending.erase (.checksClose record) }) (.inl rfl)
        fun _ member => List.mem_of_mem_erase member
      exact moved.syncs taken
    · cases taken

theorem World.started_valid (clock : Nat) : (World.started clock).Valid := by
  apply World.Valid.free _ rfl
  constructor
  · constructor
    · exact List.nodup_nil
    · exact fun _ member => absurd member List.not_mem_nil
    · exact fun _ member => absurd member List.not_mem_nil
    · intro journal
      cases journal
  · intro noteId
    rfl
  · exact fun _ member => absurd member List.not_mem_nil
  · intro journal stored
    cases stored
  · exact fun _ member => absurd member List.not_mem_nil
  · exact fun _ _ member => absurd member List.not_mem_nil
  · intro body state posted
    obtain ⟨entry, inside, _⟩ := posted
    cases inside
  · intro entry earlier suffix
    exact absurd (List.suffix_nil.mp suffix) (List.cons_ne_nil entry earlier)

/-- The invariant of every run. -/
theorem World.Reaches.valid {clock : Nat}
    (reaches : World.Reaches config World.Orderly (.started clock) world) : world.Valid := by
  induction reaches with
  | refl => exact World.started_valid clock
  | step action _ legal taken valid => exact valid.step legal taken

end Steps

end ZkApi.Browser
