import ZkApi.RunStates
import ZkApi.TraceEvidence
import ZkApi.WithdrawalGuard

/-!
# Escape plans that are dropped

The vault shows a note as active before an escape is mined and after it was
challenged.  A confirmation that drops an escape plan for an active note is
right if the escape had been mined before the vault was read.
-/

namespace ZkApi.Clientd

open Interleaving

variable {W : WalletFunctions}

section Vault

/-- An escape that was mined was challenged, is pending, or is over. -/
def VaultNote.HasMined (note : VaultNote) (plan : WithdrawalPlan) : Prop :=
  plan ∈ note.challenged ∨ note.status = 2 ∧ note.escape = some plan ∨ note.status = 3

variable {note next : VaultNote} {plan : WithdrawalPlan} {change : VaultChange}

theorem VaultNote.after_cases (changed : note.after change = some next) :
    next.challenged = note.challenged ∧
        (note.status = 0 ∧ next.status = 1 ∨ note.status = 1 ∧ next.status = 3 ∨
          note.status = 2 ∧ next.status = 3 ∨
          note.status = 1 ∧ ∃ plan deadline, change = .escapeInitiated plan deadline ∧
            next.status = 2 ∧ next.escape = some plan) ∨
      ∃ plan, note.status = 2 ∧ note.escape = some plan ∧ next.status = 1 ∧
        next.challenged = plan :: note.challenged := by
  cases change with
  | deposited noteId =>
      obtain ⟨status, same⟩ := Option.ite_none_right_eq_some.mp changed
      cases Option.some.inj same
      exact Or.inl ⟨rfl, Or.inl ⟨status, rfl⟩⟩
  | mutualClose plan =>
      obtain ⟨⟨status, _⟩, same⟩ := Option.ite_none_right_eq_some.mp changed
      cases Option.some.inj same
      exact Or.inl ⟨rfl, Or.inr (Or.inl ⟨status, rfl⟩)⟩
  | escapeInitiated plan deadline =>
      obtain ⟨⟨status, _⟩, same⟩ := Option.ite_none_right_eq_some.mp changed
      cases Option.some.inj same
      exact Or.inl ⟨rfl, Or.inr (Or.inr (Or.inr ⟨status, plan, deadline, rfl, rfl, rfl⟩))⟩
  | escapeChallenged noteId =>
      simp only [VaultNote.after] at changed
      split at changed
      · rename_i plan found
        obtain ⟨status, same⟩ := Option.ite_none_right_eq_some.mp changed
        cases Option.some.inj same
        exact Or.inr ⟨plan, status, found, rfl, rfl⟩
      · cases changed
  | escapeFinalized noteId =>
      obtain ⟨status, same⟩ := Option.ite_none_right_eq_some.mp changed
      cases Option.some.inj same
      exact Or.inl ⟨rfl, Or.inr (Or.inr (Or.inl ⟨status, rfl⟩))⟩
  | expiredClaimed noteId =>
      obtain ⟨status, same⟩ := Option.ite_none_right_eq_some.mp changed
      cases Option.some.inj same
      exact Or.inl ⟨rfl, Or.inr (Or.inl ⟨status, rfl⟩)⟩

/-- A challenge is never forgotten. -/
theorem VaultNote.challenged_after (changed : note.after change = some next)
    (challenged : plan ∈ note.challenged) : plan ∈ next.challenged := by
  rcases VaultNote.after_cases changed with ⟨same, _⟩ | ⟨other, _, _, _, grown⟩
  · rw [same]
    exact challenged
  · rw [grown]
    exact List.mem_cons_of_mem _ challenged

/-- A closed note stays closed. -/
theorem VaultNote.closed_after (changed : note.after change = some next)
    (closed : note.status = 3) : next.status = 3 := by
  rcases VaultNote.after_cases changed with
    ⟨_, (⟨status, _⟩ | ⟨_, status⟩ | ⟨_, status⟩ | ⟨status, _⟩)⟩ | ⟨_, status, _⟩
  · rw [closed] at status
    cases status
  · exact status
  · exact status
  · rw [closed] at status
    cases status
  · rw [closed] at status
    cases status

theorem VaultNote.hasMined_after (changed : note.after change = some next)
    (mined : note.HasMined plan) : next.HasMined plan := by
  rcases mined with challenged | ⟨pending, escape⟩ | closed
  · exact Or.inl (challenged_after changed challenged)
  · rcases VaultNote.after_cases changed with
      ⟨_, (⟨status, _⟩ | ⟨status, _⟩ | ⟨_, status⟩ | ⟨status, _⟩)⟩ | ⟨other, _, found, _, grown⟩
    · rw [pending] at status
      cases status
    · rw [pending] at status
      cases status
    · exact Or.inr (Or.inr status)
    · rw [pending] at status
      cases status
    · cases escape.symm.trans found
      rw [HasMined, grown]
      exact Or.inl List.mem_cons_self
  · exact Or.inr (Or.inr (closed_after changed closed))

theorem VaultNote.hasMined_initiated {deadline : UInt64}
    (changed : note.after (.escapeInitiated plan deadline) = some next) : next.HasMined plan := by
  obtain ⟨_, same⟩ := Option.ite_none_right_eq_some.mp changed
  cases Option.some.inj same
  exact Or.inr (Or.inl ⟨rfl, rfl⟩)

/-- What every change of a note keeps lasts. -/
theorem lasting_vault (holds : VaultNote → Prop) (noteId : UInt32)
    (kept : ∀ note change next, VaultNote.after note change = some next → holds note →
      holds next) :
    Lasting (daemon W) fun world => holds (world.vault noteId) := by
  have changes : ∀ {vault after : Vault} {change : VaultChange},
      vault.after change = some after → holds (vault noteId) → holds (after noteId) := by
    intro vault after change changed held
    obtain ⟨next, moved, same⟩ := Option.map_eq_some_iff.mp changed
    subst same
    by_cases equal : noteId = change.noteId
    · subst equal
      rw [Function.update_self]
      exact kept _ _ _ moved held
    · rw [Function.update_of_ne equal]
      exact held
  refine ⟨?_, fun held => held, ?_, ?_⟩
  · intro task op answer world response after executed held
    rcases execute_vault executed with same | ⟨change, changed⟩
    · rw [same]
      exact held
    · exact changes changed held
  · intro change world after moved held
    rcases move_shape moved with ⟨_, rfl⟩ | ⟨_, vault, changed, rfl⟩
    · exact held
    · exact changes changed held
  · intro change world after restarted held
    cases Option.some.inj restarted
    exact held

end Vault

section Events

/-- The escape that an event brings onto the chain. -/
def mines : Event (daemon W) → Option WithdrawalPlan
  | .moved (.vault (.escapeInitiated plan _)) => some plan
  | .performed _ (.submitWithdrawal plan false) (.ok _) =>
      if plan.mode = .escape then some plan else none
  | _ => none

/-- The status that a task finds a note in. -/
def readsStatus : Event (daemon W) → Option (UInt32 × UInt64)
  | .performed _ (.vaultNotes noteId) (.ok status) => some (noteId, status)
  | .performed _ (.readNoteStatus noteId) (.ok status) => some (noteId, status)
  | .performed _ (.awaitNoteStatus noteId expected) (.ok _) => some (noteId, expected)
  | _ => none

def mined (trace : List (Event (daemon W))) : List WithdrawalPlan :=
  trace.filterMap mines

/-- What was mined before the task last read the note as active. -/
def minedBeforeRead (task : Nat) (noteId : UInt32) :
    List (Event (daemon W)) → List WithdrawalPlan
  | [] => []
  | .performed reader (.vaultNotes asked) (.ok status) :: trace =>
      if reader = task ∧ asked = noteId ∧ status = 1 then mined trace
      else minedBeforeRead task noteId trace
  | _ :: trace => minedBeforeRead task noteId trace

theorem exists_read_of_mem {task : Nat} {noteId : UInt32} {plan : WithdrawalPlan}
    {trace : List (Event (daemon W))} (member : plan ∈ minedBeforeRead task noteId trace) :
    ∃ event earlier, event :: earlier <:+ trace ∧ readsStatus event = some (noteId, 1) ∧
      plan ∈ mined earlier := by
  induction trace with
  | nil => exact (List.not_mem_nil member).elim
  | cons event trace ih =>
      have later : plan ∈ minedBeforeRead task noteId trace → ∃ reader earlier,
          reader :: earlier <:+ event :: trace ∧ readsStatus reader = some (noteId, 1) ∧
            plan ∈ mined earlier := by
        intro member
        obtain ⟨reader, earlier, suffix, rest⟩ := ih member
        exact ⟨reader, earlier, suffix.trans (List.suffix_cons _ _), rest⟩
      unfold minedBeforeRead at member
      split at member
      · cases ‹_ = []›
      · rename_i same
        cases same
        split at member
        · rename_i here
          obtain ⟨_, rfl, rfl⟩ := here
          exact ⟨_, _, List.suffix_refl _, rfl, member⟩
        · exact later member
      · rename_i same
        cases same
        exact later member

/-- The task that drops the plan which it has found. -/
def dropsFound : Event (daemon W) → Option Nat
  | .performed task (.setPrepared none) _ => some task
  | _ => none

/-- The plan that a task clears, whatever plan it is. -/
def clearsAny : Event (daemon W) → Option (Nat × WithdrawalPlan)
  | .performed task .clearPrepared (some plan) => some (task, plan)
  | _ => none

/-- A confirmation drops the plan that it has found only if that plan was mined
before it has read the vault, and a confirmation of a closed note clears only
the plan of that note. -/
def StepMined (event : Event (daemon W)) (trace : List (Event (daemon W))) : Prop :=
  (∀ task ∈ dropsFound event, ∀ plan ∈ planSeen (historyOf (M := daemon W) task trace),
    plan ∈ minedBeforeRead task plan.publicInputs.noteId trace) ∧
  ∀ cleared ∈ clearsAny event, .started cleared.1 .confirmWithdrawal ∈ trace →
    .performed cleared.1 (.vaultNotes cleared.2.publicInputs.noteId) (.ok 3) ∈ trace

instance (event : Event (daemon W)) (trace : List (Event (daemon W))) :
    Decidable (StepMined event trace) :=
  inferInstanceAs (Decidable (_ ∧ _))

end Events

section Invariant

variable {world after : World} {trace : List (Event (daemon W))} {task : Nat}

/-- The vault knows of all escapes that were mined, and what it has shown of a
note that is not pending still holds. -/
structure VaultKnown (world : World) (trace : List (Event (daemon W))) : Prop where
  mined : ∀ plan ∈ mined trace, (world.vault plan.publicInputs.noteId).HasMined plan
  active : ∀ event earlier noteId, event :: earlier <:+ trace →
    readsStatus event = some (noteId, 1) → ∀ plan ∈ Clientd.mined earlier,
      plan.publicInputs.noteId = noteId → plan ∈ (world.vault noteId).challenged
  closed : ∀ event ∈ trace, ∀ noteId, readsStatus event = some (noteId, 3) →
    (world.vault noteId).status = 3

/-- What an event mines and reads is all that has to be checked. -/
theorem VaultKnown.cons {event : Event (daemon W)} (known : VaultKnown world trace)
    (lasts : ∀ (holds : VaultNote → Prop) noteId, (∀ note change next,
      VaultNote.after note change = some next → holds note → holds next) →
        holds (world.vault noteId) → holds (after.vault noteId))
    (mining : ∀ plan ∈ mines event, (after.vault plan.publicInputs.noteId).HasMined plan)
    (reading : ∀ noteId status, readsStatus event = some (noteId, status) →
      (world.vault noteId).status = status) : VaultKnown after (event :: trace) := by
  refine ⟨?_, ?_, ?_⟩
  · intro plan member
    rw [Clientd.mined, List.filterMap_cons] at member
    cases new : mines event with
    | none =>
        rw [new] at member
        exact lasts (fun note => note.HasMined plan) _
          (fun _ _ _ changed => VaultNote.hasMined_after changed) (known.mined plan member)
    | some found =>
        rw [new] at member
        rcases List.mem_cons.mp member with rfl | member
        · exact mining plan new
        · exact lasts (fun note => note.HasMined plan) _
            (fun _ _ _ changed => VaultNote.hasMined_after changed) (known.mined plan member)
  · intro reader earlier noteId suffix isRead plan member same
    have lasting : plan ∈ (world.vault noteId).challenged →
        plan ∈ (after.vault noteId).challenged :=
      lasts (fun note => plan ∈ note.challenged) noteId
        (fun _ _ _ changed => VaultNote.challenged_after changed)
    apply lasting
    rcases List.suffix_cons_iff.mp suffix with equal | suffix
    · obtain ⟨rfl, rfl⟩ := List.cons.inj equal
      have status := reading noteId 1 isRead
      have seen := known.mined plan member
      rw [same] at seen
      rcases seen with challenged | ⟨pending, _⟩ | ended
      · exact challenged
      · rw [status] at pending
        cases pending
      · rw [status] at ended
        cases ended
    · exact known.active reader earlier noteId suffix isRead plan member same
  · intro reader member noteId isRead
    apply lasts (fun note => note.status = 3) noteId
      (fun _ _ _ changed => VaultNote.closed_after changed)
    rcases List.mem_cons.mp member with rfl | member
    · exact reading noteId 3 isRead
    · exact known.closed reader member noteId isRead

theorem readsStatus_performed {op : Op} {response : Resp op} {answer : Answer}
    (executed : execute W task op answer world = some (response, after)) {noteId : UInt32}
    {status : UInt64}
    (isRead : readsStatus (W := W) (.performed task op response) = some (noteId, status)) :
    (world.vault noteId).status = status := by
  cases op with
  | vaultNotes asked | readNoteStatus asked =>
      rcases fallible_cases executed with same | ⟨⟨error, rfl⟩, _⟩
      · cases same
        cases isRead
        rfl
      · cases isRead
  | awaitNoteStatus asked expected =>
      cases answer with
      | plain =>
          obtain ⟨reached, same⟩ := Option.ite_none_right_eq_some.mp executed
          cases Option.some.inj same
          cases isRead
          exact reached
      | fails error =>
          cases executed
          cases isRead
      | _ => cases executed
  | _ => cases isRead

theorem mines_performed {op : Op} {response : Resp op} {answer : Answer}
    (executed : execute W task op answer world = some (response, after)) {plan : WithdrawalPlan}
    (new : mines (W := W) (.performed task op response) = some plan) :
    (after.vault plan.publicInputs.noteId).HasMined plan := by
  cases op with
  | submitWithdrawal submitted dryRun =>
      cases dryRun with
      | true => cases new
      | false =>
          cases response with
          | error error => cases new
          | ok done =>
              obtain ⟨escapes, same⟩ := Option.ite_none_right_eq_some.mp new
              cases Option.some.inj same
              cases answer with
              | submits challengeDeadline =>
                  obtain ⟨vault, changed, same⟩ := Option.map_eq_some_iff.mp executed
                  cases same
                  rw [submission, escapes] at changed
                  obtain ⟨next, moved, same⟩ := Option.map_eq_some_iff.mp changed
                  cases same
                  have here := VaultNote.hasMined_initiated moved
                  simpa [VaultChange.noteId] using here
              | _ => cases executed
  | _ => cases new

theorem vaultKnown_preserved (D : Discipline (daemon W)) : D.Inductive VaultKnown where
  started := by
    intro world trace task call fresh _ known
    apply known.cons (fun _ _ _ held => held)
    · intro plan new
      cases new
    · intro noteId status isRead
      cases isRead
  performed := by
    intro world trace task call op answer response after running started allowed executed _ known
    have executed : execute W task op answer world = some (response, after) := executed
    apply known.cons
    · exact fun holds noteId kept held =>
        (lasting_vault (W := W) holds noteId kept).execute executed held
    · exact fun plan new => mines_performed executed new
    · exact fun noteId status isRead => readsStatus_performed executed isRead
  returned := by
    intro world trace task call result running started newest returns _ known
    apply known.cons
    · exact fun holds noteId kept held =>
        (lasting_vault (W := W) holds noteId kept).finish held
    · intro plan new
      cases new
    · intro noteId status isRead
      cases isRead
  aborted := by
    intro world trace task running _ known
    apply known.cons
    · exact fun holds noteId kept held =>
        (lasting_vault (W := W) holds noteId kept).finish held
    · intro plan new
      cases new
    · intro noteId status isRead
      cases isRead
  moved := by
    intro world trace change after moved _ known
    apply known.cons
    · exact fun holds noteId kept held =>
        (lasting_vault (W := W) holds noteId kept).environment moved held
    · intro plan new
      cases change with
      | tick now => cases new
      | vault change =>
          cases change with
          | escapeInitiated initiated challengeDeadline =>
              cases Option.some.inj new
              obtain ⟨vault, changed, same⟩ := Option.map_eq_some_iff.mp moved
              cases same
              obtain ⟨next, here, same⟩ := Option.map_eq_some_iff.mp changed
              cases same
              have mined := VaultNote.hasMined_initiated here
              simpa [VaultChange.noteId] using mined
          | _ => cases new
    · intro noteId status isRead
      cases isRead
  restarted := by
    intro world trace change after restarted _ known
    apply known.cons
    · exact fun holds noteId kept held =>
        (lasting_vault (W := W) holds noteId kept).restart restarted held
    · intro plan new
      cases new
    · intro noteId status isRead
      cases isRead

/-- A task that holds the plan knows what is in memory. -/
def PlanKnown (world : World) (trace : List (Event (daemon W))) : Prop :=
  ForRunning (M := daemon W) (fun _ _ history =>
    holdsPrepared history = true → planSeen history = world.prepared) trace

theorem planSeen_cons {op : Op} {response : Resp op} {history : History Resp}
    (locks : op ≠ .lockPrepared) (others : ∀ plan, op ≠ .setPrepared plan) :
    planSeen (⟨op, response⟩ :: history) = planSeen history := by
  cases op <;> first
    | rfl
    | exact absurd rfl locks
    | exact absurd rfl (others _)

/-- What is locked by another task, no task changes. -/
theorem prepared_of_other {other : Nat} {op : Op} {answer : Answer} {response : Resp op}
    (executed : execute W task op answer world = some (response, after)) (different : task ≠ other)
    (owned : world.preparedOwner = some other) : after.prepared = world.prepared := by
  by_cases sets : ∃ plan, op = .setPrepared plan
  · obtain ⟨plan, rfl⟩ := sets
    have mine := (Option.ite_none_right_eq_some.mp (execute_of_isLocked rfl executed)).1
    rw [owned] at mine
    cases mine
    exact (different rfl).elim
  · by_cases clears : op = .clearPrepared
    · subst clears
      have free := (Option.ite_none_right_eq_some.mp (execute_of_isLocked rfl executed)).1
      rw [owned] at free
      cases free
    · exact execute_prepared executed (fun plan same => sets ⟨plan, same⟩) clears

theorem planKnown_preserved (W : WalletFunctions) :
    (guardDiscipline W).Preserved PlanLocked PlanKnown where
  started task call fresh _ known := known.started fresh nofun
  performed := by
    intro world trace task call op answer response after running started allowed executed locked
      known
    have executed : execute W task op answer world = some (response, after) := executed
    intro mover moverCall moverRunning member holds
    have earlier := (List.mem_cons.mp member).resolve_left nofun
    have before := known mover moverCall moverRunning earlier
    have owned := (locked mover moverCall moverRunning earlier).1
    by_cases same : task = mover
    · subst same
      rw [historyOf, if_pos rfl] at holds ⊢
      by_cases locks : op = .lockPrepared
      · subst locks
        obtain ⟨_, same⟩ := Option.ite_none_right_eq_some.mp (execute_of_isLocked rfl executed)
        cases Option.some.inj same
        rfl
      · by_cases unlocks : op = .unlockPrepared
        · subst unlocks
          cases holds
        · rw [holdsPrepared_cons locks unlocks] at holds
          by_cases sets : ∃ plan, op = .setPrepared plan
          · obtain ⟨plan, rfl⟩ := sets
            obtain ⟨_, same⟩ :=
              Option.ite_none_right_eq_some.mp (execute_of_isLocked rfl executed)
            cases Option.some.inj same
            rfl
          · have clears : op ≠ .clearPrepared := by
              rintro rfl
              have free :=
                (Option.ite_none_right_eq_some.mp (execute_of_isLocked rfl executed)).1
              rw [owned holds] at free
              cases free
            have others : ∀ plan, op ≠ .setPrepared plan := fun plan same => sets ⟨plan, same⟩
            rw [planSeen_cons locks others, before holds,
              execute_prepared executed others clears]
    · rw [historyOf, if_neg same] at holds ⊢
      rw [before holds, prepared_of_other executed same (owned holds)]
  returned _ _ _ _ _ known := known.returned fun _ _ _ _ kept => kept
  aborted _ _ known := known.aborted fun _ _ _ _ kept => kept
  moved := by
    intro world trace change after moved _ known
    have same : after.prepared = world.prepared := by
      rcases move_shape moved with ⟨_, rfl⟩ | ⟨_, _, _, rfl⟩ <;> rfl
    unfold PlanKnown
    rw [same]
    exact ForRunning.moved known
  restarted _ _ _ := .restarted

end Invariant

section Runs

variable {config : AuthConfig} {files : StateDir} {now : UInt64} {vault : Vault}
  {state after : State (daemon W)} {action : Action (daemon W)}

/-- Every plan that the run drops was mined first. -/
abbrev MinedFirst : List (Event (daemon W)) → Prop :=
  Throughout StepMined

/-- An event drops escape plans rightly: a confirmation that goes on using the note
drops a plan that was challenged, and one that closes the note clears its plan
after the vault has closed it. -/
def RightlyDropped (world : World) (event : Event (daemon W)) (trace : List (Event (daemon W))) :
    Prop :=
  match event with
  | .performed _ (.setPrepared none) _ => ∃ plan, world.prepared = some plan ∧
      plan.mode = .escape ∧ plan ∈ (world.vault plan.publicInputs.noteId).challenged
  | .performed task .clearPrepared (some plan) => .started task .confirmWithdrawal ∈ trace →
      (world.vault plan.publicInputs.noteId).status = 3
  | _ => True

theorem vaultKnown_nil (world : World) : VaultKnown world ([] : List (Event (daemon W))) := by
  refine ⟨?_, ?_, ?_⟩
  · intro plan member
    exact (List.not_mem_nil member).elim
  · intro event earlier noteId suffix
    cases List.suffix_nil.mp suffix
  · intro event member
    exact (List.not_mem_nil member).elim

theorem dropped_plans_were_challenged
    (run : (State.initial (daemon W) (World.started config files now vault)).Reaches state)
    (stepped : state.step action = some after) (mined : MinedFirst after.trace)
    {event : Event (daemon W)} {earlier : List (Event (daemon W))}
    (suffix : event :: earlier <:+ after.trace) (added : state.trace <:+ earlier) :
    RightlyDropped state.world event earlier := by
  have base := (planLocked_preserved W).and (planKnown_preserved W)
  have known := ((base.both (vaultKnown_preserved _)).holds
    ⟨⟨.nil, .nil⟩, vaultKnown_nil _⟩ run)
  have valid : (guardDiscipline W).Valid state := Discipline.valid_of_reaches run
  have step := (mined.of_suffix suffix).2
  unfold RightlyDropped
  split
  · rename_i task _
    obtain ⟨rfl, running, call, answer, world, started, allowed, executed⟩ :=
      valid.performed_added stepped suffix added
    have seen := known.1.2 task call running started allowed.2.1
    obtain ⟨plan, found, escapes⟩ := Option.map_eq_some_iff.mp allowed.2.2
    obtain ⟨reader, before, here, isRead, first⟩ := exists_read_of_mem (step.1 task rfl plan found)
    exact ⟨plan, seen.symm.trans found, escapes,
      known.2.active reader before _ here isRead plan first rfl⟩
  · rename_i task plan
    intro confirms
    obtain ⟨rfl, running, call, answer, world, started, allowed, executed⟩ :=
      valid.performed_added stepped suffix added
    exact known.2.closed _ (step.2 (task, plan) rfl confirms) _ rfl
  · trivial

/-- An escape that was handed out, mined and challenged, and a confirmation that is
about to drop its plan. -/
def challengedEscape : List (Action (daemon Reference.wallet)) :=
  Reference.withdrawal 0 .escape ++
    [.move (.vault (.escapeInitiated (Reference.plan .escape) 20)),
      .move (.vault (.escapeChallenged 7)), .start .confirmWithdrawal] ++
    Reference.advances 1 [.plain, .plain, .plain]

theorem dropped_plans_were_challenged_afterChallenge :
    ∃ state after action event,
      (State.initial (daemon Reference.wallet) (Reference.started .proxy)).Reaches state ∧
      state.step action = some after ∧ after.trace = event :: state.trace ∧
      (∃ task, event = .performed task (.setPrepared none) ()) ∧
      RightlyDropped state.world event state.trace := by
  have reached : ∃ state,
      (State.initial (daemon Reference.wallet) (Reference.started .proxy)).Reaches state ∧
        ∃ after ∈ state.step (.advance 1 .plain), MinedFirst after.trace ∧
          after.trace = .performed 1 (.setPrepared none) () :: state.trace :=
    State.reaches_of_decide challengedEscape (by decide)
  obtain ⟨state, run, after, stepped, mined, added⟩ := reached
  have suffix : .performed 1 (.setPrepared none) () :: state.trace <:+ after.trace := by
    rw [added]
  exact ⟨state, after, _, _, run, stepped, added, ⟨1, rfl⟩,
    dropped_plans_were_challenged run stepped mined suffix (List.suffix_refl _)⟩

/-- An escape that was handed out only, and a confirmation that sees the note still
active. -/
def unminedEscape : List (Action (daemon Reference.wallet)) :=
  Reference.withdrawal 0 .escape ++ .start .confirmWithdrawal ::
    Reference.advances 1 [.plain, .plain, .plain]

theorem handed_out_plan_dropped :
    ∃ state after action event,
      (State.initial (daemon Reference.wallet) (Reference.started .proxy)).Reaches state ∧
      state.step action = some after ∧ after.trace = event :: state.trace ∧
      mined state.trace = [] ∧ ¬ RightlyDropped state.world event state.trace := by
  have reached : ∃ state,
      (State.initial (daemon Reference.wallet) (Reference.started .proxy)).Reaches state ∧
        ∃ after ∈ state.step (.advance 1 .plain),
          after.trace = .performed 1 (.setPrepared none) () :: state.trace ∧
          mined state.trace = [] ∧ (state.world.vault 7).challenged = [] ∧
          state.world.prepared = some (Reference.plan .escape) :=
    State.reaches_of_decide unminedEscape (by decide)
  obtain ⟨state, run, after, stepped, added, unmined, unchallenged, prepared⟩ := reached
  refine ⟨state, after, _, _, run, stepped, added, unmined, ?_⟩
  rintro ⟨plan, found, _, challenged⟩
  cases prepared.symm.trans found
  exact List.not_mem_nil (unchallenged ▸ challenged)

end Runs

end ZkApi.Clientd
