import ZkApi.GuardDiscipline
import ZkApi.ReferenceWallet
import ZkApi.RunningTasks
import ZkApi.TraceEvidence

/-!
# Requests while a withdrawal proof is outstanding

The guard reads the plan and lets go of it before the request is sent, one
route has no guard, a settlement sends requests of its own, and the plan is
stored only after the proof exists.  Where none of these overlaps with an
outstanding proof, nothing is sent for its wallet state.
-/

namespace ZkApi.Clientd

open Interleaving

variable {W : WalletFunctions}

section Events

/-- The proof that an event produces. -/
def planOf : Event (daemon W) → Option WithdrawalPlan
  | .performed _ (.withdraw _ _) ⟨_, .ok plan⟩ => some plan
  | _ => none

def clearsPlan : Event (daemon W) → Bool
  | .performed _ (.setPrepared none) _ => true
  | .performed _ .clearPrepared _ => true
  | _ => false

/-- The nullifiers that an event sends to the server with a request or with the
authorization of a lease. -/
def sends : Event (daemon W) → List Felt252
  | .performed _ (.requestFlow _) reply => reply.sent
  | .performed _ (.postLease request) _ => [request.nullifier]
  | .performed _ (.retireLease _ request) _ => [request.nullifier]
  | _ => []

/-- The nullifiers of the proofs that were produced and not cleared since. -/
def outstanding : List (Event (daemon W)) → List Felt252
  | [] => []
  | event :: trace =>
      if clearsPlan event then []
      else (planOf event).toList.map (fun plan => plan.publicInputs.withdrawalNullifier) ++
        outstanding trace

/-- The file of the plan holds one, given whether it did initially. -/
def planFiled (initially : Bool) : List (Event (daemon W)) → Bool
  | [] => initially
  | .performed _ (.persistPrepared _) (.ok _) :: _ => true
  | .performed _ .removePrepared (.ok _) :: _ => false
  | .performed _ .resetFiles reply :: _ => reply.after.preparedWithdrawal.isSome
  | _ :: trace => planFiled initially trace

end Events

section Conditions

/-- No running task is past the guard, or settles what is pending. -/
abbrev NoneEngaged (trace : List (Event (daemon W))) : Prop :=
  ForRunning (M := daemon W) (fun _ call history => ¬ Engaged call history) trace

abbrev NoneSettling (trace : List (Event (daemon W))) : Prop :=
  ForRunning (M := daemon W) (fun _ call history => ¬ Settling call history) trace

/-- When a proof is produced, no request that has passed the guard still runs.
While it is outstanding, no settlement finds anything and no request is
submitted past the guard.  The caller of the withdrawal stays until the plan is
stored, and the daemon restarts only with a plan in its file. -/
def StepGuarded (initially : Bool) (event : Event (daemon W)) (trace : List (Event (daemon W))) :
    Prop :=
  match event with
  | .started _ call => call.submits = true → outstanding trace = []
  | .performed _ _ _ =>
      (planOf event ≠ none → NoneEngaged trace) ∧
        (outstanding trace ≠ [] → NoneSettling (event :: trace))
  | .aborted task => produced (historyOf task trace) = none
  | .restarted _ => outstanding trace ≠ [] → planFiled initially trace = true
  | _ => True

/-- No withdrawal of the run overlaps with a request. -/
abbrev Guarded (initially : Bool) : List (Event (daemon W)) → Prop :=
  Throughout (StepGuarded initially)

instance (initially : Bool) (event : Event (daemon W)) (trace : List (Event (daemon W))) :
    Decidable (StepGuarded initially event trace) :=
  match event with
  | .started _ call => inferInstanceAs (Decidable (call.submits = true → outstanding trace = []))
  | .performed task op response => inferInstanceAs (Decidable
      ((planOf (W := W) (.performed task op response) ≠ none → NoneEngaged trace) ∧
        (outstanding trace ≠ [] → NoneSettling (.performed task op response :: trace))))
  | .aborted task => inferInstanceAs
      (Decidable (produced (historyOf (M := daemon W) task trace) = none))
  | .restarted _ => inferInstanceAs
      (Decidable (outstanding trace ≠ [] → planFiled initially trace = true))
  | .returned _ _ _ => isTrue trivial
  | .moved _ => isTrue trivial

end Conditions

section Locks

/-- A running task that holds the lock of the plan owns it, and one that has just
received a plan holds it. -/
def PlanLocked (world : World) (trace : List (Event (daemon W))) : Prop :=
  ForRunning (M := daemon W) (fun task _ history =>
    (holdsPrepared history = true → world.preparedOwner = some task) ∧
      (produced history ≠ none → holdsPrepared history = true)) trace

theorem preparedOwner_of_other {task other : Nat} {op : Op} {answer : Answer}
    {world after : World} {response : Resp op}
    (executed : execute W task op answer world = some (response, after)) (different : task ≠ other)
    (owned : world.preparedOwner = some other) : after.preparedOwner = some other := by
  by_cases locks : op = .lockPrepared
  · subst locks
    have free := (Option.ite_none_right_eq_some.mp (execute_of_isLocked rfl executed)).1
    rw [owned] at free
    cases free
  · by_cases unlocks : op = .unlockPrepared
    · subst unlocks
      have mine := (Option.ite_none_right_eq_some.mp (execute_of_isLocked rfl executed)).1
      rw [owned] at mine
      cases mine
      exact (different rfl).elim
    · rw [execute_preparedOwner executed locks unlocks, owned]

theorem release_preparedOwner {task other : Nat} {world : World} (different : task ≠ other)
    (owned : world.preparedOwner = some other) :
    (release task world).preparedOwner = some other := by
  simp [release, owned, different.symm]

theorem planLocked_preserved (W : WalletFunctions) :
    (guardDiscipline W).Inductive PlanLocked where
  started task call fresh _ held := held.started fresh ⟨nofun, fun new => (new rfl).elim⟩
  performed := by
    intro world trace task call op answer response after running started allowed executed _ held
    have executed : execute W task op answer world = some (response, after) := executed
    refine ForRunning.performed held ?_ ?_
    · intro other running started mine
      constructor
      · intro holds
        by_cases locks : op = .lockPrepared
        · subst locks
          obtain ⟨_, same⟩ := Option.ite_none_right_eq_some.mp (execute_of_isLocked rfl executed)
          cases Option.some.inj same
          rfl
        · by_cases unlocks : op = .unlockPrepared
          · subst unlocks
            cases holds
          · rw [holdsPrepared_cons locks unlocks] at holds
            rw [execute_preparedOwner executed locks unlocks, mine.1 holds]
      · intro new
        by_cases withdraws : ∃ mode destination, op = .withdraw mode destination
        · obtain ⟨mode, destination, rfl⟩ := withdraws
          exact allowed.2.1
        · exact (new (produced_cons fun mode destination same =>
            withdraws ⟨mode, destination, same⟩)).elim
    · intro other call history different mine
      exact ⟨fun holds => preparedOwner_of_other executed different (mine.1 holds), mine.2⟩
  returned _ _ _ _ _ held := held.returned fun _ _ _ different mine =>
    ⟨fun holds => release_preparedOwner different (mine.1 holds), mine.2⟩
  aborted _ _ held := held.aborted fun _ _ _ different mine =>
    ⟨fun holds => release_preparedOwner different (mine.1 holds), mine.2⟩
  moved := by
    intro world trace change after moved _ held
    have same : after.preparedOwner = world.preparedOwner := by
      rcases move_shape moved with ⟨_, rfl⟩ | ⟨_, _, _, rfl⟩ <;> rfl
    unfold PlanLocked
    rw [same]
    exact ForRunning.moved held
  restarted _ _ _ := .restarted

end Locks

section Files

/-- What is known of the file of the plan is what it holds. -/
def FiledAsKnown (initially : Bool) (world : World) (trace : List (Event (daemon W))) : Prop :=
  planFiled initially trace = world.files.preparedWithdrawal.isSome

theorem planFiled_performed {initially : Bool} {task : Nat} {op : Op} {response : Resp op}
    {trace : List (Event (daemon W))} (other : op.writesPlan = false) :
    planFiled initially (.performed task op response :: trace) = planFiled initially trace := by
  cases op <;> first
    | rfl
    | cases other

theorem filedAsKnown_preserved (W : WalletFunctions) (initially : Bool) :
    (guardDiscipline W).Inductive (FiledAsKnown initially) where
  started _ _ _ _ held := held
  performed := by
    intro world trace task call op answer response after running started allowed executed _ held
    have executed : execute W task op answer world = some (response, after) := executed
    by_cases writes : op.writesPlan = true
    · cases op with
      | persistPrepared plan =>
          rcases fallible_cases executed with same | ⟨⟨error, rfl⟩, rfl⟩
          · cases same
            rfl
          · exact held
      | removePrepared =>
          rcases fallible_cases executed with same | ⟨⟨error, rfl⟩, rfl⟩
          · cases same
            rfl
          · exact held
      | resetFiles =>
          cases answer <;> cases executed <;> rfl
      | _ => cases writes
    · have other : op.writesPlan = false := by simpa using writes
      unfold FiledAsKnown
      rw [planFiled_performed other, execute_planFile executed other]
      exact held
  returned _ _ _ _ _ held := held
  aborted _ _ held := held
  moved := by
    intro world trace change after moved _ held
    rcases move_shape moved with ⟨_, rfl⟩ | ⟨_, _, _, rfl⟩ <;> exact held
  restarted := by
    intro world trace change after restarted _ held
    cases Option.some.inj restarted
    exact held

end Files

section Steps

variable {task : Nat} {call : Call} {op : Op} {response : Resp op} {answer : Answer}
  {world after : World} {history : History Resp} {trace : List (Event (daemon W))}

theorem planOf_performed (task : Nat) (history : History Resp) (response : Resp op) :
    planOf (W := W) (.performed task op response) = produced (⟨op, response⟩ :: history) := by
  cases op with
  | withdraw mode destination =>
      obtain ⟨reserved, result⟩ := response
      cases result <;> rfl
  | _ => rfl

theorem outstanding_other {event : Event (daemon W)} (kept : clearsPlan event = false)
    (unproduced : planOf event = none) : outstanding (event :: trace) = outstanding trace := by
  simp [outstanding, kept, unproduced]

theorem outstanding_cleared {event : Event (daemon W)} (clears : clearsPlan event = true) :
    outstanding (event :: trace) = [] := by
  simp [outstanding, clears]

/-- A task gets past the guard by finding no plan, and begins to settle by
finding something to settle. -/
theorem engaged_cons (engaged : Engaged call (⟨op, response⟩ :: history)) :
    Engaged call history ∨ (⟨.readPrepared, none⟩ : (op : Op) × Resp op) = ⟨op, response⟩ ∨
      Settling call (⟨op, response⟩ :: history) ∧ isUnsettled ⟨op, response⟩ = true := by
  rcases engaged with (submits | ⟨guarded, passed⟩) | settling
  · exact Or.inl (Or.inl (Or.inl submits))
  · rcases saw_cons.mp passed with same | earlier
    · exact Or.inr (Or.inl same)
    · exact Or.inl (Or.inl (Or.inr ⟨guarded, earlier⟩))
  · obtain ⟨settles, unlocked, entry, member, unsettled⟩ := settling
    rcases List.mem_cons.mp member with same | earlier
    · rw [same] at unsettled
      exact Or.inr (Or.inr ⟨⟨settles, unlocked, _, List.mem_cons_self, unsettled⟩, unsettled⟩)
    · have before : ∀ entry ∈ history, entry.1 ≠ .lockPrepared :=
        fun entry member => unlocked entry (List.mem_cons_of_mem _ member)
      exact Or.inl (Or.inr ⟨settles, before, entry, earlier, unsettled⟩)

theorem engaged_of_sends (allowed : GuardAllowed call history op)
    (sending : sends (W := W) (.performed task op response) ≠ []) : Engaged call history := by
  cases op with
  | requestFlow request => exact Or.inl allowed.2
  | postLease request => exact Or.inl allowed.2
  | retireLease clientRequestId request => exact allowed.2
  | _ => exact (sending rfl).elim

theorem prepared_kept (executed : execute W task op answer world = some (response, after))
    (kept : clearsPlan (W := W) (.performed task op response) = false)
    (prepared : world.prepared ≠ none) : after.prepared ≠ none := by
  by_cases sets : ∃ plan, op = .setPrepared plan
  · obtain ⟨plan, rfl⟩ := sets
    obtain ⟨_, same⟩ := Option.ite_none_right_eq_some.mp (execute_of_isLocked rfl executed)
    cases Option.some.inj same
    cases plan with
    | none => cases kept
    | some plan => exact Option.some_ne_none plan
  · have clears : op ≠ .clearPrepared := by
      rintro rfl
      cases kept
    rw [execute_prepared executed (fun plan same => sets ⟨plan, same⟩) clears]
    exact prepared

end Steps

section Invariant

/-- The plan is in memory, or the task that has received it still runs. -/
def PlanHeld (world : World) (trace : List (Event (daemon W))) : Prop :=
  world.prepared ≠ none ∨ ∃ task call, Running task trace ∧ .started task call ∈ trace ∧
    produced (historyOf task trace) ≠ none

/-- Nothing was sent for a proof while it was outstanding. -/
def Silent (trace : List (Event (daemon W))) : Prop :=
  ∀ event earlier, event :: earlier <:+ trace →
    ∀ nullifier ∈ outstanding earlier, nullifier ∉ sends event

structure Shielded (world : World) (trace : List (Event (daemon W))) : Prop where
  held : outstanding trace ≠ [] → PlanHeld world trace
  alone : outstanding trace ≠ [] → NoneEngaged trace
  silent : Silent trace

variable {world after : World} {trace : List (Event (daemon W))} {task : Nat}

theorem Silent.cons {event : Event (daemon W)} (silent : Silent trace)
    (quiet : ∀ nullifier ∈ outstanding trace, nullifier ∉ sends event) :
    Silent (event :: trace) := by
  intro other earlier suffix
  rcases List.suffix_cons_iff.mp suffix with same | suffix
  · cases same
    exact quiet
  · exact silent other earlier suffix

theorem Silent.cons_of_nil {event : Event (daemon W)} (silent : Silent trace)
    (sendsNothing : sends event = []) : Silent (event :: trace) := by
  apply silent.cons
  intro nullifier _
  rw [sendsNothing]
  exact List.not_mem_nil

/-- Who finds no plan in memory has not been overtaken by a withdrawal. -/
theorem PlanHeld.not_read (held : PlanHeld world trace) (locked : PlanLocked world trace)
    {answer : Answer}
    (executed : execute W task .readPrepared answer world = some (none, after)) : False := by
  obtain ⟨free, same⟩ := Option.ite_none_right_eq_some.mp (execute_of_isLocked rfl executed)
  rcases held with prepared | ⟨producer, call, running, started, new⟩
  · exact prepared (Prod.mk.inj (Option.some.inj same)).1
  · have mine := locked producer call running started
    have owned := mine.1 (mine.2 new)
    rw [free] at owned
    cases owned

theorem PlanHeld.performed {call : Call} {op : Op} {response : Resp op} {answer : Answer}
    (held : PlanHeld world trace)
    (allowed : GuardAllowed call (historyOf (M := daemon W) task trace) op)
    (executed : execute W task op answer world = some (response, after))
    (kept : clearsPlan (W := W) (.performed task op response) = false) :
    PlanHeld after (.performed task op response :: trace) := by
  rcases held with prepared | ⟨producer, producerCall, running, started, new⟩
  · exact Or.inl (prepared_kept executed kept prepared)
  · by_cases same : task = producer
    · subst same
      obtain ⟨plan, received⟩ := Option.ne_none_iff_exists'.mp new
      have stores := allowed.1 plan received
      subst stores
      obtain ⟨_, stored⟩ := Option.ite_none_right_eq_some.mp (execute_of_isLocked rfl executed)
      cases Option.some.inj stored
      exact Or.inl (Option.some_ne_none plan)
    · refine Or.inr ⟨producer, producerCall, running, List.mem_cons_of_mem _ started, ?_⟩
      rw [historyOf, if_neg same]
      exact new

/-- The end of another task leaves the plan where it is. -/
theorem PlanHeld.ended (held : PlanHeld world trace)
    (unproduced : produced (historyOf (M := daemon W) task trace) = none) :
    world.prepared ≠ none ∨ ∃ other call, task ≠ other ∧ Running other trace ∧
      .started other call ∈ trace ∧ produced (historyOf other trace) ≠ none := by
  rcases held with prepared | ⟨producer, call, running, started, new⟩
  · exact Or.inl prepared
  · refine Or.inr ⟨producer, call, ?_, running, started, new⟩
    rintro rfl
    exact new unproduced

theorem noneEngaged_performed {op : Op} {response : Resp op} {answer : Answer}
    (alone : NoneEngaged trace) (held : outstanding trace ≠ [] → PlanHeld world trace)
    (locked : PlanLocked world trace)
    (executed : execute W task op answer world = some (response, after))
    (idle : outstanding trace ≠ [] → NoneSettling (.performed task op response :: trace))
    (relevant : outstanding trace ≠ [] ∨
      planOf (W := W) (.performed task op response) ≠ none) :
    NoneEngaged (.performed task op response :: trace) := by
  refine ForRunning.performed alone ?_ fun _ _ _ _ kept => kept
  intro mover running started idleBefore engaged
  have member := List.mem_cons_of_mem (.performed task op response) started
  rcases engaged_cons engaged with before | passed | ⟨settling, unsettled⟩
  · exact idleBefore before
  · cases passed
    rcases relevant with open_ | new
    · exact (held open_).not_read locked executed
    · exact new rfl
  · rcases relevant with open_ | new
    · have quiet := idle open_ task mover running member
      rw [historyOf, if_pos rfl] at quiet
      exact quiet settling
    · rw [planOf_performed task []] at new
      cases op <;> first
        | cases unsettled
        | exact new rfl

theorem outstanding_performed {op : Op} {response : Resp op}
    (open_ : outstanding (W := W) (.performed task op response :: trace) ≠ []) :
    clearsPlan (W := W) (.performed task op response) = false ∧
      (outstanding trace ≠ [] ∨ planOf (W := W) (.performed task op response) ≠ none) := by
  have kept : clearsPlan (W := W) (.performed task op response) = false := by
    by_contra clears
    exact open_ (outstanding_cleared (by simpa using clears))
  refine ⟨kept, ?_⟩
  by_cases unproduced : planOf (W := W) (.performed task op response) = none
  · rw [outstanding_other kept unproduced] at open_
    exact Or.inl open_
  · exact Or.inr unproduced

theorem shielded_preserved (W : WalletFunctions) (initially : Bool) :
    (guardDiscipline W).Preserved
      (fun world trace => PlanLocked world trace ∧ FiledAsKnown initially world trace)
      (fun world trace => Guarded initially trace → Shielded world trace) where
  started := by
    rintro world trace task call fresh _ inv ⟨guarded, unsubmitted⟩
    have shield := inv guarded
    refine ⟨?_, ?_, shield.silent.cons_of_nil rfl⟩
    · intro open_
      rcases shield.held open_ with prepared | ⟨producer, other, running, started, new⟩
      · exact Or.inl prepared
      · exact Or.inr ⟨producer, other, Or.inr running, List.mem_cons_of_mem _ started, new⟩
    · intro open_
      refine ForRunning.started fresh (shield.alone open_) ?_
      rintro ((submits | ⟨_, passed⟩) | ⟨_, _, entry, member, _⟩)
      · exact open_ (unsubmitted submits)
      · exact List.not_mem_nil passed
      · exact List.not_mem_nil member
  performed := by
    rintro world trace task call op answer response after running started allowed executed
      ⟨locked, _⟩ inv ⟨guarded, unopposed, idle⟩
    have executed : execute W task op answer world = some (response, after) := executed
    have shield := inv guarded
    refine ⟨?_, ?_, ?_⟩
    · intro open_
      obtain ⟨kept, relevant⟩ := outstanding_performed open_
      rcases relevant with before | new
      · exact (shield.held before).performed allowed executed kept
      · refine Or.inr ⟨task, call, running, List.mem_cons_of_mem _ started, ?_⟩
        rw [historyOf, if_pos rfl, ← planOf_performed (W := W) task]
        exact new
    · intro open_
      obtain ⟨_, relevant⟩ := outstanding_performed open_
      have alone : NoneEngaged trace := relevant.elim shield.alone unopposed
      exact noneEngaged_performed alone shield.held locked executed idle relevant
    · apply shield.silent.cons
      intro nullifier member sending
      have open_ : outstanding trace ≠ [] := List.ne_nil_of_mem member
      have engaged := engaged_of_sends allowed (List.ne_nil_of_mem sending)
      exact shield.alone open_ task call running started engaged
  returned := by
    rintro world trace task call result running started newest returns _ inv ⟨guarded, _⟩
    have shield := inv guarded
    refine ⟨?_, ?_, shield.silent.cons_of_nil rfl⟩
    · intro open_
      rcases (shield.held open_).ended returns with prepared | ⟨other, call, different, rest⟩
      · exact Or.inl prepared
      · exact Or.inr ⟨other, call, ⟨different, rest.1⟩, List.mem_cons_of_mem _ rest.2.1, rest.2.2⟩
    · intro open_
      exact ForRunning.returned (shield.alone open_) fun _ _ _ _ kept => kept
  aborted := by
    rintro world trace task running _ inv ⟨guarded, unproduced⟩
    have shield := inv guarded
    refine ⟨?_, ?_, shield.silent.cons_of_nil rfl⟩
    · intro open_
      rcases (shield.held open_).ended unproduced with prepared | ⟨other, call, different, rest⟩
      · exact Or.inl prepared
      · exact Or.inr ⟨other, call, ⟨different, rest.1⟩, List.mem_cons_of_mem _ rest.2.1, rest.2.2⟩
    · intro open_
      exact ForRunning.aborted (shield.alone open_) fun _ _ _ _ kept => kept
  moved := by
    rintro world trace change after moved _ inv ⟨guarded, _⟩
    have shield := inv guarded
    refine ⟨?_, ?_, shield.silent.cons_of_nil rfl⟩
    · intro open_
      rcases shield.held open_ with prepared | ⟨producer, other, running, started, new⟩
      · left
        rcases move_shape moved with ⟨_, rfl⟩ | ⟨_, _, _, rfl⟩ <;> exact prepared
      · exact Or.inr ⟨producer, other, running, List.mem_cons_of_mem _ started, new⟩
    · intro open_
      exact ForRunning.moved (shield.alone open_)
  restarted := by
    rintro world trace change after restarted ⟨_, filed⟩ inv ⟨guarded, stored⟩
    have shield := inv guarded
    refine ⟨?_, fun _ => .restarted, shield.silent.cons_of_nil rfl⟩
    intro open_
    have present : planFiled initially trace = true := stored open_
    rw [filed] at present
    cases Option.some.inj restarted
    exact Or.inl (Option.isSome_iff_ne_none.mp present)

end Invariant

section Runs

variable {config : AuthConfig} {files : StateDir} {now : UInt64} {vault : Vault}
  {last : State (daemon W)}

/-- In a guarded run nothing is sent for a withdrawal proof while it is
outstanding. -/
theorem nothing_sent_while_outstanding
    (run : (State.initial (daemon W) (World.started config files now vault)).Reaches last)
    (guarded : Guarded files.preparedWithdrawal.isSome last.trace) {event : Event (daemon W)}
    {earlier : List (Event (daemon W))} (suffix : event :: earlier <:+ last.trace)
    {nullifier : Felt252} (unfinished : nullifier ∈ outstanding earlier) :
    nullifier ∉ sends event := by
  have base := (planLocked_preserved W).both
    (filedAsKnown_preserved W files.preparedWithdrawal.isSome)
  have initially : (PlanLocked (World.started config files now vault)
      ([] : List (Event (daemon W))) ∧
      FiledAsKnown files.preparedWithdrawal.isSome (World.started config files now vault)
        ([] : List (Event (daemon W)))) ∧
      (Guarded files.preparedWithdrawal.isSome ([] : List (Event (daemon W))) →
        Shielded (World.started config files now vault) ([] : List (Event (daemon W)))) := by
    refine ⟨⟨.nil, rfl⟩, fun _ => ⟨fun open_ => (open_ rfl).elim, fun _ => .nil, ?_⟩⟩
    intro event earlier suffix
    cases List.suffix_nil.mp suffix
  have held := (base.and (shielded_preserved W _)).holds initially run
  exact (held.2 guarded).silent event earlier suffix nullifier unfinished

/-- A request, a withdrawal after it, and a request that the guard refuses. -/
def refusedRequest : List (Action (daemon Reference.wallet)) :=
  .start (.executeRequest Reference.request none) ::
    Reference.advances 0 [.plain, .responds .ensureSchemeAgreement (.ok ()),
      .flows none false (.refused .insufficientBalance)] ++
    Reference.withdrawal 1 .escape ++
    [.start (.executeRequest Reference.request none), .advance 2 .plain]

theorem nothing_sent_while_outstanding_refused :
    ∃ last, (State.initial (daemon Reference.wallet) (Reference.started .proxy)).Reaches last ∧
      ∃ event earlier, event :: earlier <:+ last.trace ∧
        (⟨100⟩ : Felt252) ∈ outstanding earlier ∧ (⟨100⟩ : Felt252) ∉ sends event := by
  have reached : ∃ last,
      (State.initial (daemon Reference.wallet) (Reference.started .proxy)).Reaches last ∧
        Guarded false last.trace ∧ last.trace ≠ [] ∧
        (⟨100⟩ : Felt252) ∈ outstanding last.trace.tail :=
    State.reaches_of_decide refusedRequest (by decide)
  obtain ⟨last, run, guarded, nonempty, unfinished⟩ := reached
  have suffix : last.trace.head nonempty :: last.trace.tail <:+ last.trace := by
    rw [List.cons_head_tail]
  exact ⟨last, run, _, _, suffix, unfinished,
    nothing_sent_while_outstanding run guarded suffix unfinished⟩

/-- A request has passed the guard when a withdrawal proof is produced, and is
sent afterwards. -/
def overtakenRequest : List (Action (daemon Reference.wallet)) :=
  .start (.executeRequest Reference.request none) ::
    Reference.advances 0 [.plain, .responds .ensureSchemeAgreement (.ok ())] ++
    Reference.withdrawal 1 .escape ++
    [.advance 0 (.flows none false (.answered Reference.nextNote Reference.response))]

theorem request_sent_while_outstanding :
    ∃ last, (State.initial (daemon Reference.wallet) (Reference.started .proxy)).Reaches last ∧
      ∃ event earlier, event :: earlier <:+ last.trace ∧
        (⟨100⟩ : Felt252) ∈ outstanding earlier ∧ (⟨100⟩ : Felt252) ∈ sends event := by
  have reached : ∃ last,
      (State.initial (daemon Reference.wallet) (Reference.started .proxy)).Reaches last ∧
        ∃ event ∈ last.trace.tail.head?, (⟨100⟩ : Felt252) ∈ outstanding last.trace.tail.tail ∧
          (⟨100⟩ : Felt252) ∈ sends event :=
    State.reaches_of_decide overtakenRequest (by decide)
  obtain ⟨last, run, event, isHead, unfinished, sent⟩ := reached
  refine ⟨last, run, event, last.trace.tail.tail, ?_, unfinished, sent⟩
  rw [List.cons_head?_tail isHead]
  exact List.tail_suffix _

end Runs

end ZkApi.Clientd
