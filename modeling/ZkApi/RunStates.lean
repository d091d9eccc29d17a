import Mathlib.Data.List.Chain
import ZkApi.TaskDiscipline

/-!
# The states of a run

A run as the list of the states it passes through.  What holds at the end of a
run and not at its beginning came about in one step of it, and an operation
that became part of the trace was executed on the world before that step.
-/

namespace Interleaving

namespace State

variable {M : Machine}

/-- Every state of the list is one step after the state before it. -/
def IsRun (states : List (State M)) : Prop :=
  states.IsChain fun before after => ∃ action, before.step action = some after

/-- The states that a schedule leads through. -/
def states (state : State M) : List (Action M) → Option (List (State M))
  | [] => some [state]
  | action :: actions => do
      let next ← state.step action
      let rest ← next.states actions
      return state :: rest

theorem states_ne_nil {state : State M} {actions : List (Action M)} {all : List (State M)}
    (passes : state.states actions = some all) : ∃ rest, all = state :: rest := by
  cases actions with
  | nil =>
      cases passes
      exact ⟨[], rfl⟩
  | cons action actions =>
      obtain ⟨next, stepped, passes⟩ := Option.bind_eq_some_iff.mp passes
      obtain ⟨rest, _, same⟩ := Option.bind_eq_some_iff.mp passes
      cases same
      exact ⟨rest, rfl⟩

theorem isRun_states {state : State M} {actions : List (Action M)} {all : List (State M)}
    (passes : state.states actions = some all) : IsRun all := by
  induction actions generalizing state all with
  | nil =>
      cases passes
      exact List.IsChain.singleton _
  | cons action actions ih =>
      obtain ⟨next, stepped, passes⟩ := Option.bind_eq_some_iff.mp passes
      obtain ⟨rest, restPasses, same⟩ := Option.bind_eq_some_iff.mp passes
      cases same
      have chain := ih restPasses
      obtain ⟨later, rfl⟩ := states_ne_nil restPasses
      exact List.isChain_cons_cons.mpr ⟨⟨action, stepped⟩, chain⟩

theorem IsRun.concat {states : List (State M)} {before after : State M} {action : Action M}
    (run : IsRun states) (ends : states.getLast? = some before)
    (stepped : before.step action = some after) : IsRun (states ++ [after]) := by
  apply List.isChain_append.mpr
  refine ⟨run, List.IsChain.singleton _, ?_⟩
  intro last isLast first isFirst
  cases isLast.symm.trans ends
  cases isFirst
  exact ⟨action, stepped⟩

/-- A schedule that starts a task and ends with one step after `actions` passes
through states that have every decidable property. -/
theorem passes_of_decide {state : State M} (before : List (Action M)) (call : M.Call)
    (actions : List (Action M)) (action : Action M)
    (holds : State M → List (State M) → State M → State M → Prop)
    [∀ first states late last, Decidable (holds first states late last)]
    (decided : (do
      let first ← state.run before
      let opened ← first.step (.start call)
      let states ← opened.states actions
      let late ← states.getLast?
      let last ← late.step action
      some (decide (holds first states late last))) = some true) :
    ∃ first opened during late last, state.Reaches first ∧
      first.step (.start call) = some opened ∧ IsRun (opened :: during ++ [last]) ∧
      (opened :: during).getLast? = some late ∧ late.step action = some last ∧
      holds first (opened :: during) late last := by
  obtain ⟨first, runs, decided⟩ := Option.bind_eq_some_iff.mp decided
  obtain ⟨opened, starts, decided⟩ := Option.bind_eq_some_iff.mp decided
  obtain ⟨states, passes, decided⟩ := Option.bind_eq_some_iff.mp decided
  obtain ⟨late, ends, decided⟩ := Option.bind_eq_some_iff.mp decided
  obtain ⟨last, stepped, decided⟩ := Option.bind_eq_some_iff.mp decided
  obtain ⟨during, rfl⟩ := states_ne_nil passes
  exact ⟨first, opened, during, late, last, reaches_of_run runs, starts,
    (isRun_states passes).concat ends stepped, ends, stepped,
    of_decide_eq_true (Option.some.inj decided)⟩

/-- What begins to hold in a run begins to hold in one of its steps. -/
theorem IsRun.crossing (holds : State M → Prop) {first last : State M}
    {during : List (State M)} (run : IsRun (first :: during ++ [last]))
    (initially : ¬ holds first) (atEnd : holds last) :
    ∃ before ∈ first :: during, ∃ after ∈ first :: during ++ [last],
      (∃ action, before.step action = some after) ∧ ¬ holds before ∧ holds after := by
  induction during generalizing first with
  | nil =>
      have stepped := (List.isChain_cons_cons.mp run).1
      exact ⟨first, by simp, last, by simp, stepped, initially, atEnd⟩
  | cons next during ih =>
      obtain ⟨stepped, rest⟩ := List.isChain_cons_cons.mp run
      by_cases begins : holds next
      · exact ⟨first, by simp, next, by simp, stepped, initially, begins⟩
      · obtain ⟨before, inside, after, later, crossing⟩ := ih rest begins
        exact ⟨before, List.mem_cons_of_mem _ inside, after, List.mem_cons_of_mem _ later,
          crossing⟩

end State

namespace Discipline

variable {M : Machine} {D : Discipline M}

theorem inductive_true (D : Discipline M) : D.Inductive fun _ _ => True where
  started _ _ _ _ _ := trivial
  performed _ _ _ _ _ _ := trivial
  returned _ _ _ _ _ _ := trivial
  aborted _ _ _ := trivial
  moved _ _ _ := trivial
  restarted _ _ _ := trivial

theorem valid_of_reaches {world : M.World} {state : State M}
    (run : (State.initial M world).Reaches state) : D.Valid state :=
  (D.inductive_true.reaches (D.valid_initial world) trivial run).1

/-- Every state of a run from a valid state is valid. -/
theorem Valid.states {first : State M} {rest : List (State M)} (valid : D.Valid first)
    (run : State.IsRun (first :: rest)) : ∀ state ∈ first :: rest, D.Valid state := by
  induction rest generalizing first with
  | nil =>
      intro state member
      rw [List.mem_singleton.mp member]
      exact valid
  | cons next rest ih =>
      obtain ⟨stepped, run⟩ := List.isChain_cons_cons.mp run
      have reached : first.Reaches next := Relation.ReflTransGen.single stepped
      have nextValid := (D.inductive_true.reaches valid trivial reached).1
      intro state member
      rcases List.mem_cons.mp member with rfl | member
      · exact valid
      · exact ih nextValid run state member

/-- Every state of a run is reached from its first state. -/
theorem reaches_of_isRun {first : State M} {rest : List (State M)}
    (run : State.IsRun (first :: rest)) : ∀ state ∈ first :: rest, first.Reaches state := by
  induction rest generalizing first with
  | nil =>
      intro state member
      rw [List.mem_singleton.mp member]
      exact Relation.ReflTransGen.refl
  | cons next rest ih =>
      obtain ⟨stepped, run⟩ := List.isChain_cons_cons.mp run
      intro state member
      rcases List.mem_cons.mp member with rfl | member
      · exact Relation.ReflTransGen.refl
      · exact Relation.ReflTransGen.head stepped (ih run state member)

theorem added_newest {event other : Event M} {earlier trace : List (Event M)}
    (suffix : event :: earlier <:+ other :: trace) (added : trace <:+ earlier) :
    event = other ∧ earlier = trace := by
  rcases List.suffix_cons_iff.mp suffix with same | within
  · exact List.cons.inj same
  · have shorter := within.length_le
    have longer := added.length_le
    rw [List.length_cons] at shorter
    omega

/-- An event that a step adds is its first one, or the return of its task. -/
theorem Valid.added {state after : State M} {action : Action M} (valid : D.Valid state)
    (stepped : state.step action = some after) {event : Event M} {earlier : List (Event M)}
    (suffix : event :: earlier <:+ after.trace) (added : state.trace <:+ earlier) :
    earlier = state.trace ∨ ∃ task call result, event = .returned task call result := by
  have stepCase := valid.step_case stepped
  generalize after.trace = trace at suffix stepCase
  generalize after.world = world at stepCase
  cases stepCase with
  | answered _ =>
      rcases List.suffix_cons_iff.mp suffix with same | within
      · cases same
        exact Or.inr ⟨_, _, _, rfl⟩
      · exact Or.inl (added_newest within added).2
  | returned _ _ _ _ _ =>
      rcases List.suffix_cons_iff.mp suffix with same | within
      · cases same
        exact Or.inr ⟨_, _, _, rfl⟩
      · exact Or.inl (added_newest within added).2
  | started _ _ | performed _ _ _ _ | aborted _ | moved _ | restarted _ =>
      exact Or.inl (added_newest suffix added).2

/-- What a step performs, its task was allowed to perform. -/
theorem Valid.performed_added {state after : State M} {action : Action M} (valid : D.Valid state)
    (stepped : state.step action = some after) {task : Nat} {op : M.Op} {response : M.Resp op}
    {earlier : List (Event M)} (suffix : .performed task op response :: earlier <:+ after.trace)
    (added : state.trace <:+ earlier) :
    earlier = state.trace ∧ Running task state.trace ∧ ∃ call answer world,
      .started task call ∈ state.trace ∧
      D.allowed (M.setting state.world) call (historyOf task state.trace) op ∧
      M.execute task op answer state.world = some (response, world) := by
  have first : earlier = state.trace :=
    (valid.added stepped suffix added).resolve_right nofun
  refine ⟨first, ?_⟩
  have stepCase := valid.step_case stepped
  generalize after.trace = trace at suffix stepCase
  generalize after.world = world at stepCase
  cases stepCase with
  | performed running started allowed executed =>
      cases (added_newest suffix added).1
      exact ⟨running, _, _, _, started, allowed, executed⟩
  | returned running started allowed executed _ =>
      rcases List.suffix_cons_iff.mp suffix with same | within
      · cases same
      · cases (added_newest within added).1
        exact ⟨running, _, _, _, started, allowed, executed⟩
  | answered _ =>
      rcases List.suffix_cons_iff.mp suffix with same | within
      · cases same
      · cases (added_newest within added).1
  | started _ _ | aborted _ | moved _ | restarted _ => cases (added_newest suffix added).1

/-- An operation that a step added to the trace was executed on the world before
the step. -/
theorem Valid.executed {state after : State M} {action : Action M} (valid : D.Valid state)
    (stepped : state.step action = some after) {task : Nat} {op : M.Op} {response : M.Resp op}
    (new : .performed task op response ∈ after.trace)
    (old : .performed task op response ∉ state.trace) :
    ∃ answer world, M.execute task op answer state.world = some (response, world) := by
  generalize added : after.trace = trace at new
  generalize reached : after.world = world at *
  have stepCase := valid.step_case stepped
  rw [added, reached] at stepCase
  cases stepCase with
  | performed _ _ _ executed =>
      rcases List.mem_cons.mp new with same | earlier
      · cases same
        exact ⟨_, _, executed⟩
      · exact (old earlier).elim
  | returned _ _ _ executed _ =>
      rcases List.mem_cons.mp new with same | new
      · cases same
      rcases List.mem_cons.mp new with same | earlier
      · cases same
        exact ⟨_, _, executed⟩
      · exact (old earlier).elim
  | answered _ =>
      rcases List.mem_cons.mp new with same | new
      · cases same
      rcases List.mem_cons.mp new with same | earlier
      · cases same
      · exact (old earlier).elim
  | started _ _ | aborted _ | moved _ | restarted _ =>
      rcases List.mem_cons.mp new with same | earlier
      · cases same
      · exact (old earlier).elim

/-- What a task has received by the end of a run that begins with the task was
executed on the world of one state of the run. -/
theorem Valid.executed_during {first opened last : State M} {call : M.Call}
    {during : List (State M)} (valid : D.Valid first)
    (starts : first.step (.start call) = some opened)
    (run : State.IsRun (opened :: during ++ [last])) {op : M.Op} {response : M.Resp op}
    (old : .performed first.next op response ∉ opened.trace)
    (received : .performed first.next op response ∈ last.trace) :
    ∃ state ∈ opened :: during, ∃ after ∈ opened :: during ++ [last],
      (∃ action, state.step action = some after) ∧
        .performed first.next op response ∉ state.trace ∧
        .performed first.next op response ∈ after.trace ∧
        ∃ answer world, M.execute first.next op answer state.world = some (response, world) := by
  have openedValid : D.Valid opened :=
    (D.inductive_true.reaches valid trivial (Relation.ReflTransGen.single ⟨_, starts⟩)).1
  obtain ⟨state, inside, after, later, ⟨action, stepped⟩, before, new⟩ :=
    run.crossing (fun state => .performed first.next op response ∈ state.trace) old received
  have stateValid := openedValid.states run state (List.mem_append_left _ inside)
  exact ⟨state, inside, after, later, ⟨action, stepped⟩, before, new,
    stateValid.executed stepped new before⟩

end Discipline

end Interleaving
