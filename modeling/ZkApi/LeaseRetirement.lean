import ZkApi.DaemonEffects
import ZkApi.ReferenceWallet
import ZkApi.SoloRuns

/-!
# Retirement of a settled lease

A retirement begins by asking for the pending proof of the lease, which proves a
new request if none is pending.  For a lease that has been retired already it
thus fails, and unless no request can be proved it leaves the wallet with a new
pending request.
-/

namespace ZkApi.Clientd

open Interleaving

variable {W : WalletFunctions} {task : Nat} {world after : World}

section Settled

/-- The pending request of the wallet is that of the lease. -/
def World.LeasePending (world : World) (clientRequestId : String) : Prop :=
  ∃ journal ∈ world.files.pendingJournal, ∃ request ∈ journal.preparedRequest,
    request.clientRequestId = clientRequestId

instance (world : World) (clientRequestId : String) :
    Decidable (world.LeasePending clientRequestId) :=
  inferInstanceAs (Decidable (∃ journal ∈ world.files.pendingJournal,
    ∃ request ∈ journal.preparedRequest, request.clientRequestId = clientRequestId))

/-- The wallet has proved the request of the lease and no longer has it pending. -/
structure World.LeaseSettled (world : World) (clientRequestId : String) : Prop where
  proved : clientRequestId ∈ world.usedIds
  settled : ¬ world.LeasePending clientRequestId

/-- A retirement finds no request to prove, or cannot prove it. -/
def World.ProvesNothing (world : World) (answer : Answer) : Prop :=
  world.files.pendingJournal.isSome = true ∨ world.files.noteState = none ∨
    ∃ error, answer = .fails error

variable {answer : Answer} {response : Except AuthError ApiRequestV2}

/-- The request that a settled lease is retired with is that of another lease. -/
theorem prepareLease_other {clientRequestId : String} (settled : world.LeaseSettled clientRequestId)
    (prepared : world.prepareLease W answer = some (response, after)) :
    ∀ request, response = .ok request → request.clientRequestId ≠ clientRequestId := by
  rintro request rfl same
  unfold World.prepareLease at prepared
  split at prepared
  · cases prepared
  · rename_i journal pending
    have isResponse := congrArg Prod.fst (Option.some.inj prepared)
    unfold pendingLease at isResponse
    split at isResponse
    · cases isResponse
    · rename_i found isRequest
      split at isResponse
      · cases isResponse
        exact settled.settled ⟨journal, pending, _, isRequest, same⟩
      · cases isResponse
  · cases prepared
  · obtain ⟨⟨_, _, unused⟩, equal⟩ := Option.ite_none_right_eq_some.mp prepared
    cases Option.some.inj equal
    rw [same] at unused
    exact unused settled.proved
  · cases prepared

/-- Preparing a request leaves the files alone just if nothing is proved. -/
theorem prepareLease_files_iff
    (prepared : world.prepareLease W answer = some (response, after)) :
    after.files = world.files ↔ world.ProvesNothing answer := by
  unfold World.prepareLease at prepared
  split at prepared
  · cases prepared
    exact ⟨fun _ => Or.inr (Or.inr ⟨_, rfl⟩), fun _ => rfl⟩
  · rename_i journal _ _ pending
    cases prepared
    exact ⟨fun _ => Or.inl (by rw [pending]; rfl), fun _ => rfl⟩
  · rename_i free none
    cases prepared
    exact ⟨fun _ => Or.inr (Or.inl none), fun _ => rfl⟩
  · rename_i free present
    obtain ⟨_, equal⟩ := Option.ite_none_right_eq_some.mp prepared
    cases Option.some.inj equal
    constructor
    · intro same
      have journal := congrArg StateDir.pendingJournal same
      rw [free] at journal
      cases journal
    · rintro (pending | none | ⟨_, fails⟩)
      · rw [free] at pending
        cases pending
      · rw [present] at none
        cases none
      · cases fails
  · cases prepared

end Settled

section Retirement

variable {answers : Interleaving.Answers (daemon W)} {clientRequestId : String}

/-- A retirement of a settled lease performs one step and fails. -/
theorem retirement_alone {result : Except AuthError Unit}
    (settled : world.LeaseSettled clientRequestId)
    (retired : (retireDirectOpenrouterLease clientRequestId).alone (M := daemon W) answers task
      world = some (result, after)) :
    (∃ error, result = .error error) ∧ ∃ response,
      world.prepareLease W (answers .prepareLease) = some (response, after) := by
  obtain ⟨⟨response, middle⟩, prepared, rest⟩ := Option.bind_eq_some_iff.mp retired
  have prepared : world.prepareLease W (answers .prepareLease) = some (response, middle) :=
    prepared
  have other := prepareLease_other settled prepared
  cases response with
  | error error =>
      cases rest
      exact ⟨⟨_, rfl⟩, _, prepared⟩
  | ok request =>
      have fails : (if request.clientRequestId ≠ clientRequestId then
          (.fail (.leasePending "pending proof does not match the rejected OpenRouter lease") :
            Handler Unit) else _).alone (M := daemon W) answers task middle =
          some (result, after) := rest
      rw [if_pos (other request rfl)] at fails
      cases fails
      exact ⟨⟨_, rfl⟩, _, prepared⟩

/-- What a retirement does after its request: for a settled lease it fails. -/
theorem retirement_fails (clientRequestId : String) :
    ∃ resume, retireDirectOpenrouterLease clientRequestId = .perform .prepareLease resume ∧
      ∀ {world after : World} {answer : Answer} {response : Except AuthError ApiRequestV2},
        world.LeaseSettled clientRequestId →
          world.prepareLease W answer = some (response, after) →
            ∃ error, resume response = .fail error := by
  refine ⟨_, rfl, ?_⟩
  intro world after answer response settled prepared
  have other := prepareLease_other settled prepared
  cases response with
  | error error => exact ⟨error, rfl⟩
  | ok request => exact ⟨_, if_pos (other request rfl)⟩

/-- In a run, a task that begins to retire a settled lease returns with an error when its
request is prepared, whatever it would go on with. -/
theorem retirement_returns {state next : State (daemon W)} {id : Nat} {call : (daemon W).Call}
    {rest : Unit → Handler ((daemon W).Result call)} {answer : Answer}
    (settled : World.LeaseSettled state.world clientRequestId)
    (waits : state.tasks.find? (fun task => task.id = id) =
      some ⟨id, call, (retireDirectOpenrouterLease clientRequestId).bind rest⟩)
    (stepped : state.step (.advance id answer) = some next) :
    ∃ error, .returned id call (.error error) ∈ next.trace := by
  obtain ⟨resume, begins, fails⟩ := retirement_fails (W := W) clientRequestId
  rw [begins] at waits
  simp only [State.step, waits, Program.bind] at stepped
  split at stepped
  · cases stepped
  · rename_i response world executed
    obtain ⟨error, failed⟩ := fails settled executed
    rw [failed] at stepped
    cases Option.some.inj stepped
    exact ⟨error, List.mem_cons_self⟩

/-- A step on a lock settles or opens no lease. -/
theorem World.LeaseSettled.locked {op : Op} {response : Resp op} {answer : Answer}
    (settled : world.LeaseSettled clientRequestId) (locked : op.isLocked = true)
    (executed : execute W task op answer world = some (response, after)) :
    after.LeaseSettled clientRequestId := by
  rw [executeLocked_shape (execute_of_isLocked locked executed)]
  exact ⟨settled.proved, settled.settled⟩

/-- A request that was rejected on the key of a settled lease fails. -/
theorem rejected_alone {lease : ActiveOpenRouterLease} {error : AuthError}
    {again : Option (Handler Opened)} {result : Except AuthError Opened}
    (settled : world.LeaseSettled lease.clientRequestId)
    (replaced : (replaceRejected W lease error again).alone (M := daemon W) answers task world =
      some (result, after)) : ∃ error, result = .error error := by
  unfold replaceRejected at replaced
  obtain ⟨_, released, releases, replaced⟩ := Program.alone_call_bind replaced
  obtain ⟨_, written, writes, replaced⟩ := Program.alone_call_bind replaced
  obtain ⟨_, dropped, drops, replaced⟩ := Program.alone_call_bind replaced
  have releases : execute W task .releaseRequest _ world = some ((), released) := releases
  have writes : execute W task .writeRequest _ released = some ((), written) := writes
  have drops : execute W task (.dropSlot lease.clientRequestId) _ written = some ((), dropped) :=
    drops
  have settled : dropped.LeaseSettled lease.clientRequestId :=
    ((settled.locked rfl releases).locked rfl writes).locked rfl drops
  extract_lets rejected at replaced
  clear_value rejected
  split at replaced
  · rcases Program.alone_bind_cases replaced with ⟨cause, _, failed⟩ | ⟨_, reached, retired, _⟩
    · exact ⟨cause, failed⟩
    · obtain ⟨⟨_, failed⟩, _⟩ := retirement_alone settled retired
      cases failed
  · rcases Program.alone_bind_cases replaced with ⟨cause, _, failed⟩ | ⟨_, reached, _, fails⟩
    · exact ⟨cause, failed⟩
    · cases fails
      exact ⟨_, rfl⟩

/-- A settled lease is retired again without effect on the files just if nothing can
be proved, and never with success; a request that was rejected on its key fails, and so does
every task of a run that retires it. -/
theorem settled_lease_retirement (settled : world.LeaseSettled clientRequestId) :
    (∀ result after,
      (retireDirectOpenrouterLease clientRequestId).alone (M := daemon W) answers task world =
        some (result, after) →
      (after.files = world.files ↔ world.ProvesNothing (answers .prepareLease)) ∧
        ∃ error, result = .error error) ∧
    (∀ lease cause again result after, lease.clientRequestId = clientRequestId →
      (replaceRejected W lease cause again).alone (M := daemon W) answers task world =
        some (result, after) → ∃ error, result = .error error) ∧
    ∀ (state next : State (daemon W)) (id : Nat) (call : (daemon W).Call)
      (rest : Unit → Handler ((daemon W).Result call)) (answer : Answer), state.world = world →
      state.tasks.find? (fun task => task.id = id) =
        some ⟨id, call, (retireDirectOpenrouterLease clientRequestId).bind rest⟩ →
      state.step (.advance id answer) = some next →
        ∃ error, .returned id call (.error error) ∈ next.trace := by
  refine ⟨?_, ?_, ?_⟩
  · intro result after retired
    obtain ⟨failed, response, prepared⟩ := retirement_alone settled retired
    exact ⟨prepareLease_files_iff prepared, failed⟩
  · rintro lease cause again result after rfl replaced
    exact rejected_alone settled replaced
  · rintro state next id call rest answer rfl waits stepped
    exact retirement_returns settled waits stepped

/-- Two requests of one session are rejected on the key of one lease, and the first
of them retires it. -/
def rejectedTwice : List (Action (daemon Reference.wallet)) :=
  .start (.executeRequest Reference.request (some "s")) ::
    Reference.advances 0 (Reference.opening ++
      Reference.issuing (Reference.leaseRequest "r1" ⟨100⟩) (Reference.issued "r1" "k1" 100) ++
      Reference.rejecting "k1") ++
    .start (.executeRequest Reference.request (some "s")) ::
    Reference.advances 1 (Reference.opening ++ .plain :: Reference.rejecting "k1") ++
    Reference.advances 0 [.plain] ++ Reference.advances 1 [.plain] ++
    Reference.advances 0 [.plain, .plain, .plain,
      .responds (.retireLease "r1" (Reference.leaseRequest "r1" ⟨100⟩))
        (.success (Reference.finalized "r1")),
      .recovers Reference.nextNote, .plain] ++
    Reference.advances 1 [.plain, .plain]

/-- The request that the wallet proves when the lease is retired once more. -/
def provesAnother : Interleaving.Answers (daemon Reference.wallet)
  | .prepareLease => .prepares (Reference.leaseRequest "r2" ⟨101⟩)
  | _ => .plain

theorem settled_lease_retirement_again :
    ∃ state, (State.initial (daemon Reference.wallet)
        (Reference.started .directOpenrouter)).Reaches state ∧
      state.world.LeaseSettled "r1" ∧ ∃ result after,
        (retireDirectOpenrouterLease "r1").alone (M := daemon Reference.wallet) provesAnother 1
          state.world = some (result, after) ∧
        (after.files = state.world.files ↔
          state.world.ProvesNothing (provesAnother .prepareLease)) ∧
        ∃ error, result = .error error := by
  have reached : ∃ state, (State.initial (daemon Reference.wallet)
      (Reference.started .directOpenrouter)).Reaches state ∧
        "r1" ∈ state.world.usedIds ∧ ¬ state.world.LeasePending "r1" ∧
        ((retireDirectOpenrouterLease "r1").alone (M := daemon Reference.wallet) provesAnother 1
          state.world).isSome = true :=
    State.reaches_of_decide rejectedTwice (by decide)
  obtain ⟨state, run, proved, settled, ends⟩ := reached
  obtain ⟨⟨result, after⟩, retired⟩ := Option.isSome_iff_exists.mp ends
  exact ⟨state, run, ⟨proved, settled⟩, result, after, retired,
    (settled_lease_retirement ⟨proved, settled⟩).1 result after retired⟩

/-- The second one of the requests leaves another request pending, and fails. -/
theorem second_rejection_fails :
    ∃ state after, (State.initial (daemon Reference.wallet)
        (Reference.started .directOpenrouter)).Reaches state ∧
      state.step (.advance 1 (.prepares (Reference.leaseRequest "r2" ⟨101⟩))) = some after ∧
      (∀ task ∈ [0, 1], .started task (.executeRequest Reference.request (some "s")) ∈ state.trace ∧
        .performed task (.postPrompt "https://o/chat/completions" "k1" "hello")
          (.failure 401 none "") ∈ state.trace) ∧
      state.world.LeaseSettled "r1" ∧ after.world.files ≠ state.world.files ∧
      ∃ error, .returned 1 (.executeRequest Reference.request (some "s")) (.error error) ∈
        after.trace := by
  have reached : ∃ state, (State.initial (daemon Reference.wallet)
      (Reference.started .directOpenrouter)).Reaches state ∧
        ∃ after ∈ state.step (.advance 1 (.prepares (Reference.leaseRequest "r2" ⟨101⟩))),
          (∀ task ∈ [0, 1],
            .started task (.executeRequest Reference.request (some "s")) ∈ state.trace ∧
            .performed task (.postPrompt "https://o/chat/completions" "k1" "hello")
              (.failure 401 none "") ∈ state.trace) ∧
          "r1" ∈ state.world.usedIds ∧ ¬ state.world.LeasePending "r1" ∧
          after.world.files ≠ state.world.files ∧
          .returned 1 (.executeRequest Reference.request (some "s")) (.error (.leasePending
            "pending proof does not match the rejected OpenRouter lease")) ∈ after.trace :=
    State.reaches_of_decide rejectedTwice (by decide)
  obtain ⟨state, run, after, stepped, rejected, proved, settled, changed, failed⟩ := reached
  exact ⟨state, after, run, stepped, rejected, ⟨proved, settled⟩, changed, _, failed⟩

end Retirement

end ZkApi.Clientd
