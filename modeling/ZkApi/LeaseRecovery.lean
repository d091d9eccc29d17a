import ZkApi.BrowserReference
import ZkApi.LeaseHandlers
import ZkApi.ReferenceProtocol
import ZkApi.WalletSteps

/-!
# Recovery of an interrupted lease request

A call for a lease first finishes the request that the wallet has stored.  It asks the
server what has become of it, and sends it again, installs its response or drops it.
-/

namespace ZkApi.Browser

open Clientd

section Calls

/-- What a call for a lease meets: the tables of the server, how it answers what is sent
to it, and what the worker makes of a response. -/
structure Services where
  store : ZkApi.Store
  retirement : Except BrowserError Unit
  issue : Except BrowserError IssuedLease
  completed : NoteState

/-- A call for a lease while the wallet has an unfinished request. -/
structure LeaseCall where
  protocol : Protocol
  config : LeaseConfig
  services : Services
  tab : Nat
  sessionId : String
  budget : Nat
  journal : RequestJournal

/-- The error of a request that is answered with no body. -/
def leaseNotFound : BrowserError :=
  { BrowserError.plain "HTTP 404" with status := some 404 }

namespace LeaseCall

variable (call : LeaseCall)

def purpose : Purpose :=
  .issuesLease call.sessionId call.budget

/-- `openrouter_lease_status`. -/
def lease? : Option OpenRouterLeaseStatusResponse :=
  (call.services.store.lookupOpenRouterLease call.protocol
    call.journal.preparedRequest.clientRequestId).map leaseStatusOf

/-- `recover_by_nullifier`. -/
def recovery : RecoveryResponseV2 :=
  ((call.services.store.lookupByNullifier call.protocol call.journal.nullifier).map
    recoveryFromRecord).getD notFoundRecovery

/-- `recover_by_client_id`. -/
def recoveryById : RecoveryResponseV2 :=
  ((call.services.store.lookupByClientId call.protocol
    call.journal.preparedRequest.clientRequestId).map recoveryFromRecord).getD notFoundRecovery

/-- The response is there when the call asks for it: it was before, or an active lease has
been retired. -/
def hasResponse : Bool :=
  call.recoveryById.requestResponse.isSome || call.lease?.any (·.status == "active")

/-- The server finds the root of the request stale. -/
def isStale : Bool :=
  match call.services.issue with
  | .ok _ => false
  | .error error => error.code == some "stale_root"

/-- What the services answer at a stage of the call. -/
def reply : Stage → Reply
  | .asksStatus _ =>
      match call.lease? with
      | some response => .status response.status
      | none => .throws leaseNotFound
  | .asksNullifier _ _ =>
      .nullifier call.recovery.nullifierStatus call.recovery.requestResponse.isSome
  | .asksResponse _ _ => .response call.hasResponse
  | .completes _ _ => .completed call.services.completed
  | .sends (.retirement _) _ _ _ =>
      match call.services.retirement with
      | .ok () => .status "finalized"
      | .error error => .throws error
  | .sends (.lease _) _ _ _ =>
      match call.services.issue with
      | .ok lease => .lease lease
      | .error error => .throws error
  | _ => .plain

/-- When a stage goes on. -/
def wakesAt : Stage → Nat
  | .rests _ _ _ _ wakesAt => wakesAt
  | _ => 0

/-- The call goes on with this many answers. -/
def proceed : Nat → World → World
  | 0, world => world
  | fuel + 1, world =>
      match world.critical with
      | none => world
      | some critical =>
          let world := { world with clock := max world.clock (wakesAt critical.stage) }
          match world.answer call.config critical.tab critical.purpose critical.stage
              (call.reply critical.stage) with
          | none => world
          | some next => proceed fuel next

/-- Since this log the request was sent to a server that does not find its root stale, or
it has left the wallet. -/
def HasResumed (log : List Entry) (world : World) : Prop :=
  world.store.runtime.journal ≠ some call.journal ∨
    call.isStale = false ∧ ∃ news state stored, world.log = news ++ log ∧
      .issuePosted call.journal.preparedRequest state stored ∈ news

def Resumes (log : List Entry) (world : World) : Prop :=
  ∃ fuel, call.HasResumed log (call.proceed fuel world)

/-- Nothing keeps the wallet from sending the request again, and it drops the request if
its root is stale. -/
def Resends (runtime : Runtime) : Prop :=
  (∀ state, runtime.state = some state →
    unresolvedLateWithdrawalForNote runtime state.noteId = false) ∧
  (call.isStale = true → call.journal.preparedRequest.publicInputs.solvencyBound = call.budget)

/-- The server has a response for the nullifier of the request, or has cleared it. -/
def NullifierKnown (runtime : Runtime) : Prop :=
  if call.recovery.requestResponse.isSome then call.hasResponse = true ∨ call.Resends runtime
  else call.recovery.nullifierStatus = "clearance_reserved"

/-- What the server knows of the request lets the call go on. -/
def Known (runtime : Runtime) : Prop :=
  match call.lease? with
  | none => call.NullifierKnown runtime
  | some response =>
      if response.status = "active" then
        match call.services.retirement with
        | .ok () => True
        | .error error => error.status = some 404 ∧ call.NullifierKnown runtime
      else if response.status = "finalized" then
        call.hasResponse = true ∨ call.Resends runtime
      else call.Resends runtime

/-- A tab that has another lease active does not ask the server. -/
def Continues (world : World) : Prop :=
  if (world.tabs call.tab).activeLease.isSome then call.Resends world.store.runtime
  else call.Known world.store.runtime

end LeaseCall

end Calls

section Answers

variable {call : LeaseCall} {log : List Entry} {world next : World} {stage : Stage}
  {runtime : Runtime} {state : NoteState}

def Entry.isIssue : Entry → Bool
  | .issuePosted _ _ _ => true
  | _ => false

/-- The tab of the call has read the runtime, and no issue request was sent since. -/
structure LeaseCall.Reads (call : LeaseCall) (log : List Entry) (runtime : Runtime)
    (world : World) : Prop where
  store : world.store.runtime = runtime
  tab : (world.tabs call.tab).runtime = runtime
  journal : runtime.journal = some call.journal
  state : ∃ state, runtime.state = some state
  news : ∃ news, world.log = news ++ log ∧ ∀ entry ∈ news, entry.isIssue = false

theorem LeaseCall.Reads.pending (reads : call.Reads log runtime world) :
    ¬ call.HasResumed log world := by
  intro resumed
  rcases resumed with gone | ⟨_, sent, state, stored, same, member⟩
  · exact gone (reads.store ▸ reads.journal)
  · obtain ⟨news, quiet, unsent⟩ := reads.news
    have equal : sent = news := List.append_cancel_right (same.symm.trans quiet)
    have silent := unsent _ (equal ▸ member)
    cases silent

theorem LeaseCall.Reads.later (reads : call.Reads log runtime world) (clock : Nat) :
    call.Reads log runtime { world with clock := clock } :=
  ⟨reads.store, reads.tab, reads.journal, reads.state, reads.news⟩

theorem LeaseCall.Reads.note (reads : call.Reads log runtime world) {entry : Entry}
    (unsent : entry.isIssue = false) : call.Reads log runtime (world.note entry) where
  store := reads.store
  tab := reads.tab
  journal := reads.journal
  state := reads.state
  news := by
    obtain ⟨news, same, quiet⟩ := reads.news
    refine ⟨entry :: news, congrArg (entry :: ·) same, ?_⟩
    intro other member
    rcases List.mem_cons.mp member with here | before
    · exact here ▸ unsent
    · exact quiet other before

/-- The call goes on with its next answer. -/
theorem LeaseCall.step (pending : ¬ call.HasResumed log world)
    (answered : World.answer call.config
      (World.wait { world with clock := max world.clock (LeaseCall.wakesAt stage) } call.tab
        call.purpose stage) call.tab call.purpose stage (call.reply stage) = some next) :
    call.Resumes log (world.wait call.tab call.purpose stage) ↔ call.Resumes log next := by
  have proceeds : ∀ fuel, call.proceed (fuel + 1) (world.wait call.tab call.purpose stage) =
      call.proceed fuel next := by
    intro fuel
    rw [LeaseCall.proceed]
    simp only [World.wait] at answered ⊢
    rw [answered]
  constructor
  · rintro ⟨fuel, resumed⟩
    cases fuel with
    | zero => exact absurd resumed pending
    | succ fuel => exact ⟨fuel, proceeds fuel ▸ resumed⟩
  · rintro ⟨fuel, resumed⟩
    exact ⟨fuel + 1, (proceeds fuel).symm ▸ resumed⟩

theorem LeaseCall.resumes_ended (ended : world.critical = none) :
    call.Resumes log world ↔ call.HasResumed log world := by
  have same : ∀ fuel, call.proceed fuel world = world := by
    intro fuel
    cases fuel with
    | zero => rfl
    | succ fuel => rw [LeaseCall.proceed, ended]
  constructor
  · rintro ⟨fuel, resumed⟩
    exact same fuel ▸ resumed
  · intro resumed
    exact ⟨0, resumed⟩

theorem LeaseCall.Reads.throws (reads : call.Reads log runtime world) (purpose : Purpose)
    (error : BrowserError) : ¬ call.Resumes log (world.throw call.tab purpose error) := by
  have after : call.Reads log runtime (world.note (.threw error)) := reads.note rfl
  rw [LeaseCall.resumes_ended rfl]
  exact after.pending

theorem LeaseCall.issue_stale (stale : call.isStale = true) :
    ∃ error, call.services.issue = .error error ∧ error.code = some "stale_root" := by
  rw [LeaseCall.isStale] at stale
  cases issue : call.services.issue with
  | ok lease =>
    rw [issue] at stale
    cases stale
  | error error =>
    rw [issue] at stale
    exact ⟨error, rfl, beq_iff_eq.mp stale⟩

/-- A stale request is dropped, unless it was proved for an older budget. -/
theorem LeaseCall.stale_dropped (stale : call.isStale = true)
    (stored : world.store.runtime.journal = some call.journal) (legacy : Bool) (deadline : Nat) :
    call.Resumes log (world.wait call.tab call.purpose
      (.sends (.lease legacy) call.journal.preparedRequest 1 deadline)) ↔ legacy = false := by
  obtain ⟨error, failed, code⟩ := LeaseCall.issue_stale stale
  have unsent : ∀ after : World, call.HasResumed log after ↔
      after.store.runtime.journal ≠ some call.journal := by
    intro after
    rw [LeaseCall.HasResumed, stale]
    simp
  have pending : ¬ call.HasResumed log world := by
    rw [unsent, not_not]
    exact stored
  have delay : retryDelay (.lease legacy) error 1 = none := by
    simp [retryDelay, isExplicitlyRetriableLeaseError, code]
  have reply : call.reply (.sends (.lease legacy) call.journal.preparedRequest 1 deadline) =
      .throws error := by
    rw [LeaseCall.reply, failed]
  let noted : World := (World.wait { world with clock := max world.clock 0 } call.tab call.purpose
    (.sends (.lease legacy) call.journal.preparedRequest 1 deadline)).noteStale (.lease legacy)
      call.journal.preparedRequest error
  cases legacy with
  | true =>
    have answered : World.answer call.config (World.wait { world with clock := max world.clock 0 }
        call.tab call.purpose (.sends (.lease true) call.journal.preparedRequest 1 deadline))
        call.tab call.purpose (.sends (.lease true) call.journal.preparedRequest 1 deadline)
        (.throws error) = some (noted.throw call.tab call.purpose error) := by
      unfold World.answer
      dsimp only
      rw [delay]
      rfl
    rw [LeaseCall.step pending (reply ▸ answered), LeaseCall.resumes_ended rfl, unsent]
    have still : (noted.throw call.tab call.purpose error).store.runtime.journal =
        some call.journal := by
      simp [noted, World.throw, World.noteStale, code, World.note, World.setTab, World.wait, stored]
    simp [still]
  | false =>
    have answered : World.answer call.config (World.wait { world with clock := max world.clock 0 }
        call.tab call.purpose (.sends (.lease false) call.journal.preparedRequest 1 deadline))
        call.tab call.purpose (.sends (.lease false) call.journal.preparedRequest 1 deadline)
        (.throws error) = some ((noted.commit call.tab
          { (world.tabs call.tab).runtime with journal := none }).throw call.tab call.purpose
            error) := by
      unfold World.answer
      dsimp only
      rw [delay]
      simp [code, noted, World.wait]
    rw [LeaseCall.step pending (reply ▸ answered), LeaseCall.resumes_ended rfl, unsent]
    simp [World.throw, World.commit, World.note, World.setTab]

/-- The request is sent; a stale one is dropped, unless it was proved for an older
budget. -/
theorem LeaseCall.Reads.posts (reads : call.Reads log runtime world) (legacy : Bool)
    (deadline wakesAt : Nat) :
    call.Resumes log (world.wait call.tab call.purpose
      (.rests (.lease legacy) call.journal.preparedRequest 0 deadline wakesAt)) ↔
      (call.isStale = true → legacy = false) := by
  have sent : World.answer call.config (World.wait { world with clock := max world.clock wakesAt }
      call.tab call.purpose
        (.rests (.lease legacy) call.journal.preparedRequest 0 deadline wakesAt))
      call.tab call.purpose (.rests (.lease legacy) call.journal.preparedRequest 0 deadline wakesAt)
      .plain = some ((World.wait { world with clock := max world.clock wakesAt }
      call.tab call.purpose
        (.rests (.lease legacy) call.journal.preparedRequest 0 deadline wakesAt)).send call.tab
        call.purpose (.lease legacy) call.journal.preparedRequest 1 deadline) := by
    unfold World.answer
    exact if_pos (Nat.le_max_right world.clock wakesAt)
  rw [LeaseCall.step reads.pending sent]
  by_cases stale : call.isStale = true
  · rw [World.send, LeaseCall.stale_dropped stale]
    · simp [stale]
    · exact reads.store ▸ reads.journal
  · rw [Bool.not_eq_true] at stale
    obtain ⟨news, same, _⟩ := reads.news
    rw [stale]
    simp only [Bool.false_eq_true, false_implies, iff_true]
    refine ⟨0, .inr ⟨stale, _ :: news, _, _, congrArg (_ :: ·) same, List.mem_cons_self⟩⟩

theorem LeaseCall.Reads.setTab (reads : call.Reads log runtime world) (tab : Tab)
    (same : tab.runtime = runtime) : call.Reads log runtime (world.setTab call.tab tab) where
  store := reads.store
  tab := by rw [World.setTab_self, same]
  journal := reads.journal
  state := reads.state
  news := reads.news

theorem LeaseCall.Reads.prepares (reads : call.Reads log runtime world) :
    call.Resumes log (world.prepareLeaseRequest call.tab call.sessionId call.budget false) ↔
      call.Resends runtime := by
  obtain ⟨state, selected⟩ := reads.state
  simp only [World.prepareLeaseRequest, reads.tab, selected, reads.journal]
  by_cases late : unresolvedLateWithdrawalForNote runtime state.noteId = true
  · rw [if_pos late]
    have stuck : ¬ call.Resends runtime := by
      intro resends
      have resolved := resends.1 state selected
      rw [late] at resolved
      cases resolved
    simp only [stuck, iff_false]
    exact reads.throws _ _
  · rw [if_neg late]
    rw [Bool.not_eq_true] at late
    have resolved : ∀ other, runtime.state = some other →
        unresolvedLateWithdrawalForNote runtime other.noteId = false := by
      intro other same
      rw [selected, Option.some.injEq] at same
      exact same ▸ late
    by_cases bound : call.journal.preparedRequest.publicInputs.solvencyBound = call.budget
    · rw [if_neg (fun apart => apart.1 bound)]
      have sends := reads.posts false (world.clock + leaseIssueMaxWait) world.clock
      refine sends.trans ?_
      simp [LeaseCall.Resends, bound]
      exact resolved
    · rw [if_pos ⟨bound, trivial⟩]
      have moved := reads.setTab { world.tabs call.tab with
        runtime := runtime, legacyMigrationInProgress := true } rfl
      have sends := moved.posts true (world.clock + leaseIssueMaxWait) world.clock
      refine sends.trans ?_
      simp only [LeaseCall.Resends, bound, Bool.true_eq_false, imp_false]
      exact ⟨fun fresh => ⟨resolved, fresh⟩, fun resends => resends.2⟩

theorem prepareLeaseRequest_store (world : World) (id : Nat) (sessionId : String) (budget : Nat)
    (migrated : Bool) :
    (world.prepareLeaseRequest id sessionId budget migrated).store = world.store := by
  simp only [World.prepareLeaseRequest]
  split
  · rfl
  split
  · rfl
  split
  · split <;> rfl
  · split <;> rfl

/-- The response is installed, or the request is sent again. -/
theorem LeaseCall.Reads.responds (reads : call.Reads log runtime world) :
    call.Resumes log (world.wait call.tab call.purpose
      (.asksResponse .recovery call.journal.preparedRequest)) ↔
      call.hasResponse = true ∨ call.Resends runtime := by
  have later := reads.later (max world.clock 0)
  cases found : call.hasResponse with
  | true =>
    have answered : World.answer call.config (World.wait { world with clock := max world.clock 0 }
        call.tab call.purpose (.asksResponse .recovery call.journal.preparedRequest)) call.tab
        call.purpose (.asksResponse .recovery call.journal.preparedRequest)
        (call.reply (.asksResponse .recovery call.journal.preparedRequest)) =
        some (World.wait { world with clock := max world.clock 0 } call.tab call.purpose
          (.completes .recovery call.journal.preparedRequest)) := by
      rw [LeaseCall.reply, found]
      rfl
    rw [LeaseCall.step reads.pending answered]
    simp only [true_or, iff_true]
    refine ⟨1, .inl ?_⟩
    have gone : (call.proceed 1 (World.wait { world with clock := max world.clock 0 } call.tab
        call.purpose (.completes .recovery call.journal.preparedRequest))).store.runtime.journal =
        none := by
      simp only [LeaseCall.proceed, World.wait, World.answer, LeaseCall.reply, World.recovered,
        LeaseCall.purpose, prepareLeaseRequest_store]
      rfl
    rw [gone]
    simp
  | false =>
    have answered : World.answer call.config (World.wait { world with clock := max world.clock 0 }
        call.tab call.purpose (.asksResponse .recovery call.journal.preparedRequest)) call.tab
        call.purpose (.asksResponse .recovery call.journal.preparedRequest)
        (call.reply (.asksResponse .recovery call.journal.preparedRequest)) =
        some (World.prepareLeaseRequest (World.wait { world with clock := max world.clock 0 }
          call.tab call.purpose (.asksResponse .recovery call.journal.preparedRequest)) call.tab
          call.sessionId call.budget false) := by
      rw [LeaseCall.reply, found]
      rfl
    rw [LeaseCall.step reads.pending answered]
    have waiting : call.Reads log runtime (World.wait { world with clock := max world.clock 0 }
        call.tab call.purpose (.asksResponse .recovery call.journal.preparedRequest)) :=
      ⟨later.store, later.tab, later.journal, later.state, later.news⟩
    rw [waiting.prepares]
    simp

theorem LeaseCall.Reads.wait (reads : call.Reads log runtime world) (id : Nat)
    (purpose : Purpose) (stage : Stage) : call.Reads log runtime (world.wait id purpose stage) :=
  ⟨reads.store, reads.tab, reads.journal, reads.state, reads.news⟩

/-- What the server knows of the nullifier decides a call whose lease it does not know. -/
theorem LeaseCall.Reads.asksNullifier (reads : call.Reads log runtime world)
    (error : BrowserError) :
    call.Resumes log (world.wait call.tab call.purpose
      (.asksNullifier call.journal.preparedRequest error)) ↔ call.NullifierKnown runtime := by
  have waiting := (reads.later (max world.clock 0)).wait call.tab call.purpose
    (.asksNullifier call.journal.preparedRequest error)
  rw [LeaseCall.NullifierKnown]
  by_cases answers : call.recovery.requestResponse.isSome = true
  · have answered : World.answer call.config (World.wait { world with clock := max world.clock 0 }
        call.tab call.purpose (.asksNullifier call.journal.preparedRequest error)) call.tab
        call.purpose (.asksNullifier call.journal.preparedRequest error)
        (call.reply (.asksNullifier call.journal.preparedRequest error)) =
        some (World.wait { world with clock := max world.clock 0 } call.tab call.purpose
          (.asksResponse .recovery call.journal.preparedRequest)) := by
      rw [LeaseCall.reply, answers]
      rfl
    rw [LeaseCall.step reads.pending answered, if_pos answers]
    exact (reads.later (max world.clock 0)).responds
  · rw [if_neg answers]
    rw [Bool.not_eq_true] at answers
    by_cases cleared : call.recovery.nullifierStatus = "clearance_reserved"
    · have answered : World.answer call.config
          (World.wait { world with clock := max world.clock 0 } call.tab call.purpose
            (.asksNullifier call.journal.preparedRequest error)) call.tab
          call.purpose (.asksNullifier call.journal.preparedRequest error)
          (call.reply (.asksNullifier call.journal.preparedRequest error)) =
          some (((World.wait { world with clock := max world.clock 0 } call.tab call.purpose
            (.asksNullifier call.journal.preparedRequest error)).commit call.tab
              (world.tabs call.tab).runtime.dropForClearance).prepareLeaseRequest call.tab
              call.sessionId call.budget false) := by
        rw [LeaseCall.reply, answers]
        exact if_pos cleared
      rw [LeaseCall.step reads.pending answered]
      simp only [cleared, iff_true]
      refine ⟨0, .inl ?_⟩
      rw [LeaseCall.proceed, prepareLeaseRequest_store]
      simp [World.commit, Runtime.dropForClearance]
    · have answered : World.answer call.config
          (World.wait { world with clock := max world.clock 0 } call.tab call.purpose
            (.asksNullifier call.journal.preparedRequest error)) call.tab
          call.purpose (.asksNullifier call.journal.preparedRequest error)
          (call.reply (.asksNullifier call.journal.preparedRequest error)) =
          some ((World.wait { world with clock := max world.clock 0 } call.tab call.purpose
            (.asksNullifier call.journal.preparedRequest error)).throw call.tab call.purpose
              error) := by
        rw [LeaseCall.reply, answers]
        exact if_neg cleared
      rw [LeaseCall.step reads.pending answered]
      simp only [cleared, iff_false]
      exact waiting.throws call.purpose error

theorem retryDelay_positive {retirer : Retirer} {error : BrowserError} {attempt delay : Nat}
    (retries : retryDelay (.retirement retirer) error attempt = some delay) : 0 < delay := by
  rw [retryDelay] at retries
  split at retries
  · have positive : 0 < 2 ^ (attempt - 1) := Nat.two_pow_pos _
    rw [Option.some.injEq] at retries
    omega
  · cases retries

/-- A retirement of the recovery ends when it is answered, or when its time is over. -/
theorem LeaseCall.Reads.retires (reads : call.Reads log runtime world) (attempt deadline : Nat) :
    call.Resumes log (world.wait call.tab call.purpose
      (.sends (.retirement .recovery) call.journal.preparedRequest attempt deadline)) ↔
      match call.services.retirement with
      | .ok () => call.hasResponse = true ∨ call.Resends runtime
      | .error error => error.status = some 404 ∧ call.NullifierKnown runtime := by
  induction remaining : deadline - world.clock using Nat.strong_induction_on
    generalizing world attempt with
  | _ remaining ih =>
    subst remaining
    let stage := Stage.sends (.retirement .recovery) call.journal.preparedRequest attempt deadline
    let asked := World.wait { world with clock := max world.clock 0 } call.tab call.purpose stage
    have waiting : call.Reads log runtime asked :=
      (reads.later (max world.clock 0)).wait call.tab call.purpose stage
    cases retired : call.services.retirement with
    | ok finished =>
      have answered : World.answer call.config asked call.tab call.purpose stage
          (call.reply stage) = some (World.wait (asked.note (.sawFinalized call.tab
            call.journal.preparedRequest.clientRequestId)) call.tab call.purpose
            (.asksResponse .recovery call.journal.preparedRequest)) := by
        simp only [stage, LeaseCall.reply, retired]
        rfl
      rw [LeaseCall.step reads.pending answered]
      exact (waiting.note rfl).responds
    | error error =>
      have reply : call.reply stage = .throws error := by
        simp only [stage, LeaseCall.reply, retired]
      cases retries : (retryDelay (.retirement .recovery) error attempt).filter
          (asked.clock + · ≤ deadline) with
      | none =>
        have answered : World.answer call.config asked call.tab call.purpose stage
            (.throws error) = some (asked.recoveryFailed call.tab call.purpose
              call.journal.preparedRequest error) := by
          unfold World.answer
          dsimp only [stage, World.noteStale]
          rw [retries]
        rw [LeaseCall.step reads.pending (reply ▸ answered), World.recoveryFailed]
        by_cases lost : error.status = some 404
        · rw [if_pos lost, waiting.asksNullifier error]
          simp only [lost, true_and]
        · rw [if_neg lost]
          simp only [lost, false_and, iff_false]
          exact waiting.throws call.purpose error
      | some delay =>
        obtain ⟨delays, early⟩ := Option.filter_eq_some_iff.mp retries
        have positive := retryDelay_positive delays
        have answered : World.answer call.config asked call.tab call.purpose stage
            (.throws error) = some (asked.wait call.tab call.purpose
              (.rests (.retirement .recovery) call.journal.preparedRequest attempt deadline
                (asked.clock + delay))) := by
          unfold World.answer
          dsimp only [stage, World.noteStale]
          rw [retries]
        rw [LeaseCall.step reads.pending (reply ▸ answered)]
        let rested := World.wait { asked with clock := max asked.clock (asked.clock + delay) }
          call.tab call.purpose (.rests (.retirement .recovery) call.journal.preparedRequest attempt
            deadline (asked.clock + delay))
        have woken : World.answer call.config rested call.tab call.purpose
            (.rests (.retirement .recovery) call.journal.preparedRequest attempt deadline
              (asked.clock + delay)) .plain = some (rested.send call.tab call.purpose
                (.retirement .recovery) call.journal.preparedRequest (attempt + 1) deadline) := by
          unfold World.answer
          exact if_pos (Nat.le_max_right asked.clock (asked.clock + delay))
        rw [LeaseCall.step waiting.pending woken]
        have resting : call.Reads log runtime rested := (waiting.later _).wait _ _ _
        have sooner : deadline - rested.clock < deadline - world.clock := by
          simp only [decide_eq_true_eq] at early
          simp only [rested, asked, World.wait] at early ⊢
          omega
        have posted : call.Reads log runtime (rested.note (.retirementPosted
            call.journal.preparedRequest rested.store.runtime.state rested.store.runtime.journal
            (rested.isCheckedOut call.journal.preparedRequest.clientRequestId))) :=
          resting.note rfl
        have again := ih _ sooner posted (attempt + 1) rfl
        rw [retired] at again
        exact again

/-- What the server knows of the lease decides a call that asks for it. -/
theorem LeaseCall.Reads.asksStatus (reads : call.Reads log runtime world)
    (own : runtime.lease.all fun row => !row.isForeign (world.tabs call.tab).ownerId world.clock) :
    call.Resumes log (world.wait call.tab call.purpose
      (.asksStatus call.journal.preparedRequest)) ↔ call.Known runtime := by
  let stage := Stage.asksStatus call.journal.preparedRequest
  let asked := World.wait { world with clock := max world.clock 0 } call.tab call.purpose stage
  have waiting : call.Reads log runtime asked :=
    (reads.later (max world.clock 0)).wait call.tab call.purpose stage
  rw [LeaseCall.Known]
  cases known : call.lease? with
  | none =>
    have answered : World.answer call.config asked call.tab call.purpose stage
        (call.reply stage) = some (asked.wait call.tab call.purpose
          (.asksNullifier call.journal.preparedRequest leaseNotFound)) := by
      simp only [stage, LeaseCall.reply, known]
      rfl
    rw [LeaseCall.step reads.pending answered]
    exact waiting.asksNullifier leaseNotFound
  | some response =>
    have reply : call.reply stage = .status response.status := by
      simp only [stage, LeaseCall.reply, known]
    by_cases active : response.status = "active"
    · have mine : (asked.tabs call.tab).runtime.lease.any
          (·.isForeign (asked.tabs call.tab).ownerId asked.clock) = false := by
        rw [waiting.tab]
        cases row : runtime.lease with
        | none => rfl
        | some row' =>
          rw [row] at own
          simpa [asked, World.wait] using own
      have answered : World.answer call.config asked call.tab call.purpose stage
          (.status response.status) = some (asked.retireRequest call.tab call.purpose .recovery
            call.journal.preparedRequest) := by
        unfold World.answer
        dsimp only [stage]
        rw [if_pos active, mine]
        rfl
      rw [LeaseCall.step reads.pending (reply ▸ answered), World.retireRequest]
      dsimp only
      rw [if_pos active]
      let rested := World.wait { asked with clock := max asked.clock asked.clock }
          call.tab call.purpose (.rests (.retirement .recovery) call.journal.preparedRequest 0
            (asked.clock + maxRecoveryWait) asked.clock)
      have woken : World.answer call.config rested call.tab call.purpose
          (.rests (.retirement .recovery) call.journal.preparedRequest 0
            (asked.clock + maxRecoveryWait) asked.clock) .plain = some (rested.send call.tab
              call.purpose (.retirement .recovery) call.journal.preparedRequest 1
              (asked.clock + maxRecoveryWait)) := by
        unfold World.answer
        exact if_pos (Nat.le_max_right asked.clock asked.clock)
      have posted : call.Reads log runtime (rested.note (.retirementPosted
          call.journal.preparedRequest rested.store.runtime.state rested.store.runtime.journal
          (rested.isCheckedOut call.journal.preparedRequest.clientRequestId))) :=
        ((waiting.later _).wait _ _ _).note rfl
      rw [LeaseCall.step waiting.pending woken]
      have retires := posted.retires 1 (asked.clock + maxRecoveryWait)
      refine retires.trans ?_
      have found : call.hasResponse = true := by
        simp [LeaseCall.hasResponse, known, active]
      cases call.services.retirement with
      | ok finished => simp [found]
      | error error => exact Iff.rfl
    · dsimp only
      rw [if_neg active]
      by_cases final : response.status = "finalized"
      · have answered : World.answer call.config asked call.tab call.purpose stage
            (.status response.status) = some (World.wait (asked.note (.sawFinalized call.tab
              call.journal.preparedRequest.clientRequestId)) call.tab call.purpose
              (.asksResponse .recovery call.journal.preparedRequest)) := by
          unfold World.answer
          dsimp only [stage]
          rw [if_neg active, if_pos final]
        rw [LeaseCall.step reads.pending (reply ▸ answered), if_pos final]
        exact (waiting.note rfl).responds
      · have answered : World.answer call.config asked call.tab call.purpose stage
            (.status response.status) = some (asked.prepareLeaseRequest call.tab call.sessionId
              call.budget false) := by
          unfold World.answer
          dsimp only [stage]
          rw [if_neg active, if_neg final]
          rfl
        rw [LeaseCall.step reads.pending (reply ▸ answered), if_neg final]
        exact waiting.prepares

end Answers

section Runs

variable {call : LeaseCall} {world next : World}

theorem LeaseCall.resumes_iff (valid : world.Valid)
    (stored : world.store.runtime.journal = some call.journal)
    (own : world.store.runtime.lease.all fun row =>
      !row.isForeign (world.tabs call.tab).ownerId world.clock)
    (entered : world.enter call.tab call.purpose = some next) :
    call.Resumes world.log next ↔ call.Continues world := by
  obtain ⟨state, selected, _⟩ := valid.sound.proved call.journal stored
  have reads : call.Reads world.log world.store.runtime (world.reload call.tab) := by
    constructor
    · rfl
    · rw [World.reload, World.setTab_self]
    · exact stored
    · exact ⟨state, selected⟩
    · exact ⟨[], rfl, fun _ member => absurd member List.not_mem_nil⟩
  have starts : next = (world.reload call.tab).recoverPendingLocked call.tab call.purpose := by
    unfold World.enter at entered
    dsimp only [LeaseCall.purpose] at entered
    split at entered
    · cases entered
    split at entered
    · exact (Option.some.inj entered).symm
    · cases entered
  have tab : (world.reload call.tab).tabs call.tab = { world.tabs call.tab with
      runtime := world.store.runtime } := World.setTab_self ..
  rw [starts, World.recoverPendingLocked, LeaseCall.Continues]
  simp only [tab, stored]
  cases active : (world.tabs call.tab).activeLease with
  | some serial => exact reads.prepares
  | none =>
    apply reads.asksStatus
    rw [tab]
    exact own

namespace Reference

/-- The call of the second tab after the first one was closed before it sent its
request. -/
noncomputable def recoveryCall (store : ZkApi.Store) : LeaseCall where
  protocol := ZkApi.Reference.protocol
  config := leaseConfig
  services := ⟨store, .ok (), .ok (lease "r" 100), Clientd.Reference.nextNote⟩
  tab := 1
  sessionId := "s"
  budget := 5
  journal := journal "r"

/-- A tab is closed between the commit of its request and its first post. -/
def interrupted : List Action :=
  funds ++ asks 0 0 ++ [.enters 0 (.issuesLease "s" 5), .replies (.path true),
    .replies (.prepared (journal "r")), .closes 0, .opens "b", .enters 1 .startUp,
    .replies (.throws leaseNotFound), .replies (.nullifier "unknown" false)] ++ asks 1 0

/-- The second tab can make its call, and nothing was sent. -/
def isInterrupted (world : World) : Bool :=
  world.store.runtime.journal == some (journal "r") && (world.tabs 1).activeLease.isNone &&
    world.store.runtime.lease.isNone && (world.enter 1 (.issuesLease "s" 5)).isSome &&
    (world.log.all fun entry => entry.posts.isNone) &&
    (List.range world.opened).all fun id => (world.tabs id).leases.isEmpty

theorem recoveryCall_starts : ∃ world next,
    World.Reaches leaseConfig World.Orderly (.started 0) world ∧
    world.store.runtime.journal = some (journal "r") ∧ (world.tabs 1).activeLease = none ∧
    world.store.runtime.lease = none ∧ world.enter 1 (.issuesLease "s" 5) = some next ∧
    (∀ entry ∈ world.log, entry.posts = none) ∧
    ∀ id < world.opened, (world.tabs id).leases = [] := by
  obtain ⟨world, reaches, ready⟩ := World.exists_reached leaseConfig World.isOrderly (.started 0)
    interrupted isInterrupted (by decide)
  simp only [isInterrupted, Bool.and_eq_true, beq_iff_eq, Option.isNone_iff_eq_none,
    List.all_eq_true, List.mem_range, List.isEmpty_iff] at ready
  obtain ⟨⟨⟨⟨⟨stored, lost⟩, unowned⟩, entered⟩, silent⟩, free⟩ := ready
  obtain ⟨next, enters⟩ := Option.isSome_iff_exists.mp entered
  exact ⟨world, next, reaches, stored, lost, unowned, enters, silent, free⟩

end Reference

/-- One call for a lease resumes an interrupted request exactly when the server knows of
it, and nothing keeps the wallet from sending it again where it has to. -/
theorem interrupted_request_resumed_iff {clock : Nat}
    (reaches : World.Reaches call.config World.Orderly (.started clock) world)
    (stored : world.store.runtime.journal = some call.journal)
    (own : world.store.runtime.lease.all fun row =>
      !row.isForeign (world.tabs call.tab).ownerId world.clock)
    (entered : world.enter call.tab call.purpose = some next) :
    call.Resumes world.log next ↔ call.Continues world :=
  LeaseCall.resumes_iff reaches.valid stored own entered

open ZkApi.Browser.Reference in
/-- A clearance has taken the nullifier of the interrupted request, and the call drops it. -/
theorem interrupted_request_resumed_iff_cleared : ∃ (call : LeaseCall) (world next : World),
    world.store.runtime.journal = some call.journal ∧
    world.enter call.tab call.purpose = some next ∧ call.Resumes world.log next := by
  obtain ⟨world, next, reaches, stored, lost, unowned, entered, _⟩ := recoveryCall_starts
  let call := recoveryCall
    (ZkApi.Store.empty.reserveClearance ZkApi.Reference.protocol 0 ⟨100⟩).2
  have own : world.store.runtime.lease.all fun row =>
      !row.isForeign (world.tabs call.tab).ownerId world.clock := by
    rw [unowned]
    rfl
  have unissued : call.lease? = none := by
    rw [LeaseCall.lease?, ZkApi.Store.lookupOpenRouterLease]
    simp only [call, recoveryCall, ZkApi.Store.reserveClearance_leases]
    rfl
  have cleared : call.recovery = ⟨"ok", "clearance_reserved", none⟩ := by
    have rows : call.services.store.nullifiers.rows =
        [ZkApi.Store.clearanceRow ZkApi.Reference.protocol 0 ⟨100⟩] := rfl
    rw [LeaseCall.recovery, ZkApi.Store.lookupByNullifier, ConstrainedTable.Table.first, rows]
    rfl
  have continues : call.Continues world := by
    have none : (world.tabs call.tab).activeLease = none := lost
    simp [LeaseCall.Continues, none, LeaseCall.Known, unissued, LeaseCall.NullifierKnown, cleared]
  exact ⟨call, world, next, stored, entered,
    (interrupted_request_resumed_iff reaches stored own entered).mpr continues⟩

open ZkApi.Browser.Reference in
/-- The request was never sent: the server knows neither its lease nor its nullifier, and
the call throws that its lease is not found before it sends the request. -/
theorem unsent_request_blocks : ¬ ∀ (call : LeaseCall) (world next : World),
    World.Reaches call.config World.Orderly (.started 0) world →
    world.store.runtime.journal = some call.journal →
    (∀ id < world.opened, (world.tabs id).leases = []) → world.store.runtime.lease = none →
    (∀ entry ∈ world.log, entry.posts = none) → call.services.store = ZkApi.Store.empty →
    world.enter call.tab call.purpose = some next → call.Resumes world.log next := by
  intro every
  obtain ⟨world, next, reaches, stored, lost, unowned, entered, silent, free⟩ :=
    recoveryCall_starts
  let call := recoveryCall ZkApi.Store.empty
  have resumed := every call world next reaches stored free unowned silent rfl entered
  have unissued : call.lease? = none := rfl
  have unseen : call.recovery = ⟨"not_found", "unknown", none⟩ := rfl
  have unknown : ¬ call.Continues world := by
    have none : (world.tabs call.tab).activeLease = none := lost
    simp [LeaseCall.Continues, none, LeaseCall.Known, unissued, LeaseCall.NullifierKnown, unseen]
  have own : world.store.runtime.lease.all fun row =>
      !row.isForeign (world.tabs call.tab).ownerId world.clock := by
    rw [unowned]
    rfl
  exact unknown ((LeaseCall.resumes_iff reaches.valid stored own entered).mp resumed)

end Runs

end ZkApi.Browser
