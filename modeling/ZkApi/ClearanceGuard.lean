import ZkApi.RunStates
import ZkApi.WithdrawalGuard

/-!
# Requests after a reserved clearance

The daemon remembers a reserved clearance only as the plan that it has made of
it.  A fallback replaces that plan by one that a confirmation may drop, an
answer that is lost leaves no plan, and a daemon that stops before the plan is
in its file forgets it.  Where none of this happens, no request gets past the
guard as long as the note is there.
-/

namespace ZkApi.Clientd

open Interleaving Program

variable {W : WalletFunctions}

section Discipline

/-- The calls that neither bring a note nor reset the wallet on their own. -/
def Call.keepsNote : Call → Bool
  | .status | .recover | .executeRequest _ _ | .executeStreamingRequest _ _ | .requestSubmit _
  | .createWithdrawal _ _ | .confirmWithdrawal | .reconcileDirectOpenrouter => true
  | _ => false

/-- The task has cleared the plan of a closed note that it has not reset yet. -/
def closing (history : History Resp) : Bool :=
  (history.any fun entry => entry.1 = .clearPrepared) &&
    history.all fun entry => entry.1 ≠ .resetFiles

def ClosingAllowed (call : Call) (history : History Resp) (op : Op) : Prop :=
  call.keepsNote = true → (∀ request, op ≠ .confirmDeposit request) ∧
    (closing history = true → op = .clearSlot ∨ op = .resetFiles)

/-- The steps that neither bring a note nor clear a plan. -/
def Op.isSteady : Op → Bool
  | .confirmDeposit _ | .clearPrepared => false
  | _ => true

variable {call : Call} {history : History Resp} {α : Type}

abbrev ClosingFollows (call : Call) (program : Handler α) (history : History Resp) : Prop :=
  program.Follows (ClosingAllowed call) (fun reached _ => closing reached = false)
    (fun reached _ => closing reached = false) history

theorem closing_cons {op : Op} {response : Resp op} (other : op ≠ .clearPrepared)
    (calm : closing history = false) : closing (⟨op, response⟩ :: history) = false := by
  by_contra closes
  have closes : closing (⟨op, response⟩ :: history) = true := by simpa using closes
  simp only [closing, List.any_cons, List.all_cons, other, decide_false, Bool.false_or,
    Bool.and_eq_true] at closes
  simp only [closing, closes.1, closes.2.2, Bool.and_true] at calm
  cases calm

theorem closing_of_reset {response : ResetReply} (reset : Saw history .resetFiles response) :
    closing history = false := by
  by_contra closes
  have closes : closing history = true := by simpa using closes
  simp only [closing, Bool.and_eq_true, List.all_eq_true] at closes
  have other := closes.2 _ reset
  simp at other

theorem closing_steady {program : Handler α} (only : program.Only Op.isSteady)
    (calm : closing history = false) : ClosingFollows call program history := by
  apply only.follows (fun reached => closing reached = false) calm
  · intro reached op calm steady
    constructor
    · intro _
      constructor
      · rintro request rfl
        cases steady
      · intro closes
        rw [calm] at closes
        cases closes
    · intro response
      apply closing_cons _ calm
      rintro rfl
      cases steady
  · exact fun _ _ calm => calm
  · exact fun _ _ calm => calm

theorem isSteady_of_isServing (op : Op) (holds : op.isServing = true) : op.isSteady = true := by
  cases op <;> first | rfl | cases holds

theorem isSteady_of_isWithdrawing (op : Op) (holds : op.isWithdrawing = true) :
    op.isSteady = true := by
  cases op <;> first | rfl | cases holds

theorem isSteady_of_isReconciling (op : Op) (holds : op.isReconciling = true) :
    op.isSteady = true := by
  cases op <;> first | rfl | cases holds

theorem isSteady_of_isVaultRead (op : Op) (holds : op.isVaultRead = true) :
    op.isSteady = true := by
  cases op <;> first | rfl | cases holds

theorem closing_resetWallet : ClosingFollows call resetWallet history := by
  have allowed : ∀ {reached : History Resp} {op : Op},
      (∀ request, op ≠ .confirmDeposit request) → closing reached = false →
        ClosingAllowed call reached op := by
    intro reached op other calm _
    refine ⟨other, fun closes => ?_⟩
    rw [calm] at closes
    cases closes
  unfold resetWallet
  rw [ClosingFollows, follows_call_bind]
  refine ⟨fun _ => ⟨nofun, fun _ => Or.inr rfl⟩, fun reply => ?_⟩
  have reset : Saw (⟨.resetFiles, reply⟩ :: history) .resetFiles reply := by simp
  have calm := closing_of_reset reset
  rw [follows_bind, follows_lift]
  refine ⟨fun wallet _ => ?_, fun error _ => calm⟩
  rw [follows_call_bind]
  refine ⟨allowed nofun calm, fun dropped => ?_⟩
  have cleared := closing_of_reset
    (reset.mono (List.suffix_cons (⟨.clearPrepared, dropped⟩ : (op : Op) × Resp op) _))
  rw [follows_call_bind]
  exact ⟨allowed nofun cleared, fun _ => closing_cons nofun cleared⟩

theorem closing_confirmWithdrawal : ClosingFollows call confirmWithdrawal [] := by
  unfold confirmWithdrawal
  rw [ClosingFollows, follows_bind]
  apply (closing_steady (only_status rfl) rfl).weaken
  · intro reached wallet _ calm
    cases wallet.note with
    | none => exact calm
    | some note =>
        dsimp only
        rw [follows_bind]
        have reads := (only_onchainWithdrawalStatus note.noteId).mono isSteady_of_isVaultRead
        apply (closing_steady reads calm).weaken
        · intro reached found _ calm
          obtain ⟨chainStatus, challengeDeadline⟩ := found
          dsimp only
          split
          · rw [follows_call_bind]
            constructor
            · intro _
              refine ⟨nofun, fun closes => ?_⟩
              rw [calm] at closes
              cases closes
            · intro dropped
              rw [follows_call_bind]
              refine ⟨fun _ => ⟨nofun, fun _ => Or.inl rfl⟩, fun _ => ?_⟩
              rw [follows_bind]
              exact closing_resetWallet.weaken (fun _ _ _ calm => calm) fun _ _ _ calm => calm
          · split
            · rw [follows_bind]
              exact (closing_steady (only_dropEscapePlan.mono isSteady_of_isWithdrawing) calm).weaken (fun _ _ _ calm => calm)
                fun _ _ _ calm => calm
            · exact calm
        · exact fun _ _ _ calm => calm
  · exact fun _ _ _ calm => calm

theorem closing_handler (config : AuthConfig) (call : Call) :
    (handler W config call).Follows (ClosingAllowed call)
      (fun reached _ => call.keepsNote = true → closing reached = false)
      (fun reached _ => call.keepsNote = true → closing reached = false) [] := by
  have kept : ClosingFollows call (handler W config call) [] →
      (handler W config call).Follows (ClosingAllowed call)
        (fun reached _ => call.keepsNote = true → closing reached = false)
        (fun reached _ => call.keepsNote = true → closing reached = false) [] :=
    fun follows => follows.weaken (fun _ _ _ calm _ => calm) fun _ _ _ calm _ => calm
  have steady : (handler W config call).Only Op.isSteady →
      (handler W config call).Follows (ClosingAllowed call)
        (fun reached _ => call.keepsNote = true → closing reached = false)
        (fun reached _ => call.keepsNote = true → closing reached = false) [] :=
    fun only => kept (closing_steady only rfl)
  have outside : call.keepsNote = false →
      (handler W config call).Follows (ClosingAllowed call)
        (fun reached _ => call.keepsNote = true → closing reached = false)
        (fun reached _ => call.keepsNote = true → closing reached = false) [] := by
    intro other
    have never : call.keepsNote = true → False := by
      rw [other]
      nofun
    apply (only_true _).follows (fun _ => True) trivial
    · exact fun _ _ _ _ => ⟨fun keeps => (never keeps).elim, fun _ => trivial⟩
    · exact fun _ _ _ keeps => (never keeps).elim
    · exact fun _ _ _ keeps => (never keeps).elim
  cases call with
  | status => exact steady (only_status rfl)
  | recover => exact steady (only_recover rfl)
  | executeRequest request sessionId =>
      exact steady ((only_executeRequest W config _ _).mono isSteady_of_isServing)
  | executeStreamingRequest request sessionId =>
      exact steady ((only_executeStreamingRequest W config _ _).mono isSteady_of_isServing)
  | requestSubmit request =>
      exact steady ((only_requestSubmit _).mono isSteady_of_isServing)
  | createWithdrawal mode destination =>
      exact steady ((only_createWithdrawal config _ _).mono isSteady_of_isWithdrawing)
  | confirmWithdrawal => exact kept closing_confirmWithdrawal
  | reconcileDirectOpenrouter =>
      exact steady ((only_reconcile config).mono isSteady_of_isReconciling)
  | _ => exact outside rfl

/-- What the guard rests on, and how a confirmation closes a note. -/
def clearanceDiscipline (W : WalletFunctions) : Discipline (daemon W) :=
  (guardDiscipline W).conj <| (guardDiscipline W).restate
    (fun _ call history op => ClosingAllowed call history op)
    (fun _ call history _ => call.keepsNote = true → closing history = false)
    fun config call => closing_handler config call

end Discipline

section Events

/-- A clearance was reserved, and the note was not removed since. -/
def guarding : List (Event (daemon W)) → Bool
  | [] => false
  | .performed _ (.withdraw _ _) reply :: trace => reply.reserved.isSome || guarding trace
  | .performed _ .resetFiles reply :: trace => reply.after.noteState.isSome && guarding trace
  | _ :: trace => guarding trace

/-- A route goes on to execute a request. -/
def admits : Event (daemon W) → Bool
  | .performed _ .readPrepared none => true
  | .started _ call => call.submits
  | _ => false

abbrev NoneClosing (trace : List (Event (daemon W))) : Prop :=
  ForRunning (M := daemon W) (fun _ _ history => closing history = false) trace

/-- The answer of a clearance is not lost.  While a clearance is reserved, no
request is submitted past the guard, no escape plan is dropped, no request reads
the plan while a confirmation removes the note, and that removal succeeds.  Its
caller and that of the withdrawal stay, and the daemon restarts only with a plan
in its file. -/
def StepIrrevocable (initially : Bool) (event : Event (daemon W))
    (trace : List (Event (daemon W))) : Prop :=
  match event with
  | .started _ call => call.keepsNote = true ∧ (guarding trace = true → call.submits = false)
  | .performed _ (.withdraw _ _) reply => reply.reserved ≠ none → planOf event ≠ none
  | .performed _ (.setPrepared none) _ => guarding trace = false
  | .performed task .clearPrepared _ => guarding trace = true →
      ∀ entry ∈ historyOf (M := daemon W) task trace, entry.1 ≠ .resetFiles
  | .performed _ .resetFiles reply => guarding trace = true → reply.after.noteState = none
  | .performed _ .readPrepared _ => guarding trace = true → NoneClosing trace
  | .aborted task => guarding trace = true →
      produced (historyOf (M := daemon W) task trace) = none ∧
        closing (historyOf (M := daemon W) task trace) = false
  | .restarted _ => guarding trace = true → planFiled initially trace = true
  | _ => True

/-- No reserved clearance of the run is forgotten. -/
abbrev Irrevocable (initially : Bool) : List (Event (daemon W)) → Prop :=
  Throughout (StepIrrevocable initially)

instance (initially : Bool) (event : Event (daemon W)) (trace : List (Event (daemon W))) :
    Decidable (StepIrrevocable initially event trace) := by
  unfold StepIrrevocable
  split <;> infer_instance

end Events

section Steps

variable {task : Nat} {op : Op} {response : Resp op} {answer : Answer} {world after : World}
  {trace : List (Event (daemon W))} {initially : Bool}

/-- What a clearance leaves is the plan, or a confirmation that removes the note. -/
def ClearanceHeld (world : World) (trace : List (Event (daemon W))) : Prop :=
  PlanHeld world trace ∨ ∃ task call, Running task trace ∧ .started task call ∈ trace ∧
    closing (historyOf task trace) = true

theorem clears_cases (clears : clearsPlan (W := W) (.performed task op response) = true) :
    op = .setPrepared none ∨ op = .clearPrepared := by
  cases op with
  | setPrepared plan =>
      cases plan with
      | none => exact Or.inl rfl
      | some plan => cases clears
  | clearPrepared => exact Or.inr rfl
  | _ => cases clears

theorem closing_cleared {history : History Resp} {response : Option WithdrawalPlan}
    (unreset : ∀ entry ∈ history, entry.1 ≠ .resetFiles) :
    closing (⟨.clearPrepared, response⟩ :: history) = true := by
  have all : (history.all fun entry => entry.1 ≠ .resetFiles) = true := by
    rw [List.all_eq_true]
    intro entry member
    simpa using unreset entry member
  simp only [closing, List.any_cons, List.all_cons, all]
  rfl

/-- The step of a task that is closing a note, short of the reset. -/
theorem closing_goes_on {call : Call} {history : History Resp} (keeps : call.keepsNote = true)
    (allowed : ClosingAllowed call history op) (closes : closing history = true)
    (short : op ≠ .resetFiles) : closing (⟨op, response⟩ :: history) = true := by
  rcases (allowed keeps).2 closes with rfl | rfl
  · exact closes
  · exact (short rfl).elim

theorem ClearanceHeld.not_read (held : ClearanceHeld world trace)
    (locked : PlanLocked world trace) (none_ : NoneClosing trace)
    (executed : execute W task .readPrepared answer world = some (none, after)) : False := by
  rcases held with plan | ⟨closer, call, running, started, closes⟩
  · exact plan.not_read locked executed
  · have calm : closing (historyOf closer trace) = false := none_ closer call running started
    rw [closes] at calm
    cases calm

theorem ClearanceHeld.performed {call : Call} (held : ClearanceHeld world trace)
    (guards : guarding trace = true) (keeps : call.keepsNote = true)
    (running : Running task trace) (started : .started task call ∈ trace)
    (allowed : GuardAllowed call (historyOf (M := daemon W) task trace) op ∧
      ClosingAllowed call (historyOf (M := daemon W) task trace) op)
    (executed : execute W task op answer world = some (response, after))
    (short : op ≠ .resetFiles)
    (kept : StepIrrevocable initially (.performed task op response) trace) :
    ClearanceHeld after (.performed task op response :: trace) := by
  rcases held with plan | ⟨closer, closerCall, closerRunning, closerStarted, closes⟩
  · by_cases clears : clearsPlan (W := W) (.performed task op response) = true
    · rcases clears_cases clears with rfl | rfl
      · have open_ : guarding trace = false := kept
        rw [open_] at guards
        cases guards
      · refine Or.inr ⟨task, call, running, List.mem_cons_of_mem _ started, ?_⟩
        rw [historyOf, if_pos rfl]
        exact closing_cleared (kept guards)
    · exact Or.inl (plan.performed allowed.1 executed (by simpa using clears))
  · refine Or.inr ⟨closer, closerCall, closerRunning, List.mem_cons_of_mem _ closerStarted, ?_⟩
    by_cases same : task = closer
    · subst same
      rw [historyOf, if_pos rfl]
      exact closing_goes_on keeps allowed.2 closes short
    · rw [historyOf, if_neg same]
      exact closes

/-- The end of a task that neither holds a plan nor closes a note. -/
theorem ClearanceHeld.ended (held : ClearanceHeld world trace)
    (unproduced : produced (historyOf (M := daemon W) task trace) = none)
    (calm : closing (historyOf (M := daemon W) task trace) = false)
    {event : Event (daemon W)}
    (runs : ∀ other, task ≠ other → Running other trace → Running other (event :: trace))
    (histories : ∀ other, historyOf other (event :: trace) = historyOf other trace) :
    ClearanceHeld (release task world) (event :: trace) := by
  rcases held with plan | ⟨closer, call, running, started, closes⟩
  · rcases plan.ended unproduced with prepared | ⟨other, call, different, running, started, new⟩
    · exact Or.inl (Or.inl prepared)
    · refine Or.inl (Or.inr ⟨other, call, runs other different running,
        List.mem_cons_of_mem _ started, ?_⟩)
      rw [histories]
      exact new
  · have different : task ≠ closer := by
      rintro rfl
      rw [closes] at calm
      cases calm
    refine Or.inr ⟨closer, call, runs closer different running,
      List.mem_cons_of_mem _ started, ?_⟩
    rw [histories]
    exact closes

theorem ClearanceHeld.kept {event : Event (daemon W)} (held : ClearanceHeld world trace)
    (prepared : after.prepared = world.prepared)
    (runs : ∀ other, Running other trace → Running other (event :: trace))
    (histories : ∀ other, historyOf other (event :: trace) = historyOf other trace) :
    ClearanceHeld after (event :: trace) := by
  rcases held with (memory | ⟨producer, call, running, started, new⟩) |
    ⟨closer, call, running, started, closes⟩
  · rw [← prepared] at memory
    exact Or.inl (Or.inl memory)
  · refine Or.inl (Or.inr ⟨producer, call, runs _ running, List.mem_cons_of_mem _ started, ?_⟩)
    rw [histories]
    exact new
  · refine Or.inr ⟨closer, call, runs _ running, List.mem_cons_of_mem _ started, ?_⟩
    rw [histories]
    exact closes

/-- The nullifier of the note is one that a clearance was reserved for. -/
def World.Cleared (W : WalletFunctions) (world : World) : Prop :=
  ∃ nullifier ∈ world.cleared, world.nullifier W = some nullifier

theorem World.Cleared.of_eq (cleared : after.Cleared W)
    (note : after.files.noteState = world.files.noteState)
    (same : after.cleared = world.cleared) : world.Cleared W := by
  obtain ⟨nullifier, member, current⟩ := cleared
  unfold World.nullifier at current
  rw [note] at current
  rw [same] at member
  exact ⟨nullifier, member, current⟩

theorem World.Cleared.not_none (cleared : after.Cleared W) : after.files.noteState ≠ none := by
  obtain ⟨nullifier, _, current⟩ := cleared
  intro gone
  unfold World.nullifier at current
  rw [gone] at current
  cases current

/-- Only a withdrawal makes the current note one with a reserved clearance. -/
theorem cleared_performed (executed : execute W task op answer world = some (response, after))
    (undeposited : ∀ request, op ≠ .confirmDeposit request)
    (before : world.Cleared W → guarding trace = true) (cleared : after.Cleared W) :
    guarding (W := W) (.performed task op response :: trace) = true := by
  by_cases moves : op.movesNote = true
  · cases op with
    | retireLowBalanceNote =>
        have same := execute_cleared executed nofun
        rcases execute_retire executed with rfl | ⟨outcome, done⟩
        · exact before cleared
        · rw [Prod.mk.injEq] at done
          have present := cleared.not_none
          rcases retireNote_noteState world.config outcome world.files with kept | ⟨gone, _⟩
          · rw [← done.2] at kept
            exact before (cleared.of_eq kept same)
          · rw [done.2, gone] at present
            exact (present rfl).elim
    | confirmDeposit request => exact (undeposited request rfl).elim
    | resetFiles =>
        have same := execute_cleared executed nofun
        obtain ⟨_, left, files⟩ := execute_reset executed
        have kept : after.files.noteState = world.files.noteState := by
          rcases files with ⟨_, files⟩ | ⟨outcome, _, files⟩
          · rw [files]
          · rcases resetFiles_noteState outcome world.files with gone | kept
            · rw [← files] at gone
              exact (cleared.not_none gone).elim
            · rw [files, kept]
        have present : response.after.noteState.isSome = true := by
          rw [left]
          exact Option.isSome_iff_ne_none.mpr cleared.not_none
        exact Bool.and_eq_true_iff.mpr ⟨present, before (cleared.of_eq kept same)⟩
    | _ => cases moves
  · by_cases withdraws : ∃ mode destination, op = .withdraw mode destination
    · obtain ⟨mode, destination, rfl⟩ := withdraws
      obtain ⟨nullifier, member, current⟩ := cleared
      have shape := withdraw_shape executed
      subst shape
      rcases List.mem_append.mp member with new | old
      · have reserved : response.reserved.isSome = true := by
          rw [Option.mem_toList.mp new]
          rfl
        exact Bool.or_eq_true_iff.mpr (Or.inl reserved)
      · exact Bool.or_eq_true_iff.mpr (Or.inr (before ⟨nullifier, old, current⟩))
    · have same := execute_cleared executed fun mode destination equal =>
        withdraws ⟨mode, destination, equal⟩
      have guards : guarding trace = true := by
        rcases (execute_note executed (by simpa using moves)).1 with
          kept | ⟨note, succeeds, installs⟩
        · exact before (cleared.of_eq kept same)
        · obtain ⟨nullifier, member, current⟩ := cleared
          unfold World.nullifier at current
          rw [installs] at current
          cases current
          rw [same] at member
          exact (succeeds.2.2 member).elim
      cases op <;> first
        | exact guards
        | exact (withdraws ⟨_, _, rfl⟩).elim
        | exact (moves rfl).elim

end Steps

section Invariant

variable {initially : Bool} {trace : List (Event (daemon W))} {world : World}

structure Undone (world : World) (trace : List (Event (daemon W))) : Prop where
  held : guarding trace = true → ClearanceHeld world trace
  unadmitted : ∀ event earlier, event :: earlier <:+ trace → guarding earlier = true →
    admits event = false
  known : world.Cleared W → guarding trace = true

theorem keepsNote_of_irrevocable (kept : Irrevocable initially trace) {task : Nat} {call : Call}
    (started : .started task call ∈ trace) : call.keepsNote = true := by
  obtain ⟨_, _, step⟩ := kept.of_mem started
  exact step.1

theorem Undone.unadmitted_cons (undone : Undone world trace) {event : Event (daemon W)}
    (refused : guarding trace = true → admits event = false) :
    ∀ other earlier, other :: earlier <:+ event :: trace → guarding earlier = true →
      admits other = false := by
  intro other earlier suffix guards
  rcases List.suffix_cons_iff.mp suffix with same | suffix
  · cases same
    exact refused guards
  · exact undone.unadmitted other earlier suffix guards

theorem undone_preserved (W : WalletFunctions) (initially : Bool) :
    (clearanceDiscipline W).Preserved
      (fun world trace => PlanLocked world trace ∧ FiledAsKnown initially world trace)
      (fun world trace => Irrevocable initially trace → Undone (W := W) world trace) where
  started := by
    rintro world trace task call fresh _ inv ⟨kept, _, unsubmitted⟩
    have undone := inv kept
    refine ⟨?_, undone.unadmitted_cons unsubmitted, undone.known⟩
    intro guards
    exact (undone.held guards).kept rfl (fun _ running => Or.inr running) fun _ => rfl
  performed := by
    rintro world trace task call op answer response after running started allowed executed
      ⟨locked, _⟩ inv ⟨kept, step⟩
    have executed : execute W task op answer world = some (response, after) := executed
    have undone := inv kept
    have keeps := keepsNote_of_irrevocable kept started
    refine ⟨?_, undone.unadmitted_cons ?_, ?_⟩
    · intro guards
      by_cases produces : planOf (W := W) (.performed task op response) = none
      · have unreserved : guarding trace = true ∧ op ≠ .resetFiles := by
          cases op with
          | withdraw mode destination =>
              rcases Bool.or_eq_true_iff.mp guards with new | before
              · exact (step (Option.isSome_iff_ne_none.mp new) produces).elim
              · exact ⟨before, nofun⟩
          | resetFiles =>
              obtain ⟨present, before⟩ := Bool.and_eq_true_iff.mp guards
              rw [step before] at present
              cases present
          | _ => exact ⟨guards, nofun⟩
        exact (undone.held unreserved.1).performed unreserved.1 keeps running started allowed
          executed unreserved.2 step
      · refine Or.inl (Or.inr ⟨task, call, running, List.mem_cons_of_mem _ started, ?_⟩)
        rw [historyOf, if_pos rfl, ← planOf_performed (W := W) task]
        exact produces
    · intro guards
      cases op with
      | readPrepared =>
          cases response with
          | none => exact ((undone.held guards).not_read locked (step guards) executed).elim
          | some plan => rfl
      | _ => rfl
    · exact cleared_performed executed (allowed.2 keeps).1 undone.known
  returned := by
    rintro world trace task call result running started newest ⟨unproduced, calm⟩ _ inv ⟨kept, _⟩
    have undone := inv kept
    refine ⟨?_, undone.unadmitted_cons fun _ => rfl, undone.known⟩
    intro guards
    exact (undone.held guards).ended unproduced (calm (keepsNote_of_irrevocable kept started))
      (fun _ different running => ⟨different, running⟩) fun _ => rfl
  aborted := by
    rintro world trace task running _ inv ⟨kept, step⟩
    have undone := inv kept
    refine ⟨?_, undone.unadmitted_cons fun _ => rfl, undone.known⟩
    intro guards
    exact (undone.held guards).ended (step guards).1 (step guards).2
      (fun _ different running => ⟨different, running⟩) fun _ => rfl
  moved := by
    rintro world trace change after moved _ inv ⟨kept, _⟩
    have undone := inv kept
    refine ⟨?_, undone.unadmitted_cons fun _ => rfl, ?_⟩
    · intro guards
      have same : after.prepared = world.prepared := by
        rcases move_shape moved with ⟨_, rfl⟩ | ⟨_, _, _, rfl⟩ <;> rfl
      exact (undone.held guards).kept same (fun _ running => running) fun _ => rfl
    · rcases move_shape moved with ⟨_, rfl⟩ | ⟨_, _, _, rfl⟩ <;> exact undone.known
  restarted := by
    rintro world trace change after restarted ⟨_, filed⟩ inv ⟨kept, step⟩
    have undone := inv kept
    cases Option.some.inj restarted
    refine ⟨?_, undone.unadmitted_cons fun _ => rfl, undone.known⟩
    intro guards
    have present := step guards
    rw [filed] at present
    exact Or.inl (Or.inl (Option.isSome_iff_ne_none.mp present))

end Invariant

section Runs

variable {config : AuthConfig} {files : StateDir} {now : UInt64} {vault : Vault}
  {state after : State (daemon W)} {action : Action (daemon W)}

theorem undone_of_reaches
    (run : (State.initial (daemon W) (World.started config files now vault)).Reaches state) :
    Irrevocable files.preparedWithdrawal.isSome state.trace →
      Undone (W := W) state.world state.trace := by
  have base : (clearanceDiscipline W).Inductive fun world trace => PlanLocked world trace ∧
      FiledAsKnown files.preparedWithdrawal.isSome world trace :=
    ((planLocked_preserved W).both (filedAsKnown_preserved W _)).conj_left
  have nothing : Undone (W := W) (World.started config files now vault) [] := by
    refine ⟨nofun, ?_, ?_⟩
    · intro event earlier suffix
      cases List.suffix_nil.mp suffix
    · rintro ⟨nullifier, member, _⟩
      cases member
  have filed : FiledAsKnown files.preparedWithdrawal.isSome
      (World.started config files now vault) ([] : List (Event (daemon W))) := rfl
  exact ((base.and (undone_preserved W _)).holds ⟨⟨.nil, filed⟩, fun _ => nothing⟩ run).2

/-- In an irrevocable run no step admits a request for a state whose nullifier has
a reserved clearance. -/
theorem cleared_state_admits_nothing
    (run : (State.initial (daemon W) (World.started config files now vault)).Reaches state)
    (stepped : state.step action = some after)
    (kept : Irrevocable files.preparedWithdrawal.isSome after.trace)
    {nullifier : Felt252} (reserved : nullifier ∈ state.world.cleared)
    (current : state.world.nullifier W = some nullifier) {event : Event (daemon W)}
    {earlier : List (Event (daemon W))} (suffix : event :: earlier <:+ after.trace)
    (added : state.trace <:+ earlier) : admits event = false := by
  have before := undone_of_reaches run
  have reached : (clearanceDiscipline W).Valid state := Discipline.valid_of_reaches run
  rcases reached.added stepped suffix added with rfl | ⟨_, _, _, rfl⟩
  · have undone := undone_of_reaches (run.tail ⟨action, stepped⟩) kept
    have guards := (before (kept.of_suffix ((List.suffix_cons _ _).trans suffix))).known ⟨nullifier, reserved, current⟩
    exact undone.unadmitted event _ suffix guards
  · rfl

/-- A mutual close, and a request that reaches the guard. -/
def closedOut : List (Action (daemon Reference.wallet)) :=
  Reference.withdrawal 0 .mutual ++ [.start (.executeRequest Reference.request none)]

theorem cleared_state_admits_nothing_refused :
    ∃ state after action,
      (State.initial (daemon Reference.wallet) (Reference.started .proxy)).Reaches state ∧
      state.step action = some after ∧ (⟨100⟩ : Felt252) ∈ state.world.cleared ∧
      ∃ event earlier, event :: earlier <:+ after.trace ∧ state.trace <:+ earlier ∧
        admits event = false := by
  have reached : ∃ state,
      (State.initial (daemon Reference.wallet) (Reference.started .proxy)).Reaches state ∧
        ∃ after ∈ state.step (.advance 1 .plain), Irrevocable false after.trace ∧
          (⟨100⟩ : Felt252) ∈ state.world.cleared ∧
          state.world.nullifier Reference.wallet = some ⟨100⟩ ∧
          ∃ event ∈ after.trace.tail.head?, state.trace <:+ after.trace.tail.tail :=
    State.reaches_of_decide closedOut (by decide)
  obtain ⟨state, run, after, stepped, kept, reserved, current, event, isHead, added⟩ := reached
  have suffix : event :: after.trace.tail.tail <:+ after.trace := by
    rw [List.cons_head?_tail isHead]
    exact List.tail_suffix _
  exact ⟨state, after, _, run, stepped, reserved, event, _, suffix, added,
    cleared_state_admits_nothing run stepped kept reserved current suffix added⟩

/-- A mutual close that falls back to the escape path, and a confirmation that sees
the note still active. -/
def droppedFallback : List (Action (daemon Reference.wallet)) :=
  Reference.withdrawal 0 .mutual ++ Reference.withdrawal 1 .escape ++
    .start .confirmWithdrawal ::
    Reference.advances 2 [.plain, .plain, .plain, .plain, .plain, .plain] ++
    [.start (.executeRequest Reference.request none)]

theorem cleared_state_admitted :
    ∃ state after action,
      (State.initial (daemon Reference.wallet) (Reference.started .proxy)).Reaches state ∧
      state.step action = some after ∧
      (∀ start ∈ starts after.trace, start.2.keepsNote = true) ∧
      (⟨100⟩ : Felt252) ∈ state.world.cleared ∧
      state.world.nullifier Reference.wallet = some ⟨100⟩ ∧
      ∃ event, after.trace = event :: state.trace ∧ admits event = true := by
  have reached : ∃ state,
      (State.initial (daemon Reference.wallet) (Reference.started .proxy)).Reaches state ∧
        ∃ after ∈ state.step (.advance 3 .plain),
          (∀ start ∈ starts after.trace, start.2.keepsNote = true) ∧
          (⟨100⟩ : Felt252) ∈ state.world.cleared ∧
          state.world.nullifier Reference.wallet = some ⟨100⟩ ∧
          ∃ event ∈ after.trace.head?, after.trace.tail = state.trace ∧ admits event = true :=
    State.reaches_of_decide droppedFallback (by decide)
  obtain ⟨state, run, after, stepped, calls, reserved, current, event, isHead, same, admitted⟩ :=
    reached
  refine ⟨state, after, _, run, stepped, calls, reserved, current, event, ?_, admitted⟩
  rw [← same, List.cons_head?_tail isHead]

end Runs

end ZkApi.Clientd
