import ZkApi.ResumptionProgram
import Mathlib.Logic.Relation

/-!
# Interleaved tasks over a shared world

A machine runs any number of tasks.  Every step starts a task, lets one task
perform its next operation, drops a task, lets the environment change the
world, or restarts the machine and drops all its tasks.  A task that has no
further operation returns in the step that gave it its last response.

The trace of a state lists everything that happened, newest first.
-/

namespace Interleaving

/-- The tasks a machine can run and what their operations do to its world.
`Answer` is what the environment chooses when an operation asks it. -/
structure Machine where
  Op : Type
  Resp : Op → Type
  Err : Type
  Setting : Type
  Call : Type
  Result : Call → Type
  World : Type
  Answer : Type
  Environment : Type
  Restart : Type
  setting : World → Setting
  program : Setting → (call : Call) → Program Op Resp Err (Result call)
  execute : Nat → (op : Op) → Answer → World → Option (Resp op × World)
  finish : Nat → World → World
  environment : Environment → World → Option World
  restart : Restart → World → Option World

inductive Event (M : Machine) where
  | started (task : Nat) (call : M.Call)
  | performed (task : Nat) (op : M.Op) (response : M.Resp op)
  | returned (task : Nat) (call : M.Call)
      (result : Except M.Err (M.Result call))
  | aborted (task : Nat)
  | moved (change : M.Environment)
  | restarted (change : M.Restart)

section Equality

variable {M : Machine} [DecidableEq M.Op] [∀ op, DecidableEq (M.Resp op)] [DecidableEq M.Err]
  [DecidableEq M.Call] [∀ call, DecidableEq (M.Result call)] [DecidableEq M.Environment]
  [DecidableEq M.Restart]

/-- The two events are the same. -/
def Event.same : Event M → Event M → Bool
  | .started first call, .started second other => first = second ∧ call = other
  | .performed first op response, .performed second other otherResponse =>
      if equal : op = other then first = second ∧ equal ▸ response = otherResponse else false
  | .returned first call result, .returned second other otherResult =>
      if equal : call = other then first = second ∧ equal ▸ result = otherResult else false
  | .aborted first, .aborted second => first = second
  | .moved change, .moved other => change = other
  | .restarted change, .restarted other => change = other
  | _, _ => false

theorem Event.same_iff (first second : Event M) : first.same second = true ↔ first = second := by
  constructor
  · intro agree
    unfold same at agree
    split at agree
    · simpa using agree
    · split at agree
      · rename_i equal
        subst equal
        simpa using agree
      · cases agree
    · split at agree
      · rename_i equal
        subst equal
        simpa using agree
      · cases agree
    · simpa using agree
    · simpa using agree
    · simpa using agree
    · cases agree
  · rintro rfl
    cases first <;> simp [same]

instance : DecidableEq (Event M) :=
  fun first second => decidable_of_iff _ (Event.same_iff first second)

end Equality

inductive Action (M : Machine) where
  | start (call : M.Call)
  | advance (task : Nat) (answer : M.Answer)
  | abort (task : Nat)
  | move (change : M.Environment)
  | restart (change : M.Restart)

structure Task (M : Machine) where
  id : Nat
  call : M.Call
  program : Program M.Op M.Resp M.Err (M.Result call)

structure State (M : Machine) where
  world : M.World
  tasks : List (Task M)
  trace : List (Event M)
  next : Nat

namespace State

variable {M : Machine}

/-- A machine that has not done anything yet. -/
def initial (M : Machine) (world : M.World) : State M :=
  ⟨world, [], [], 0⟩

/-- Put a task back among the running ones, or let it return. -/
def resume (state : State M) (task : Task M) : State M :=
  match task.program with
  | .ret value =>
      { state with
        world := M.finish task.id state.world
        trace := .returned task.id task.call (.ok value) :: state.trace }
  | .fail error =>
      { state with
        world := M.finish task.id state.world
        trace := .returned task.id task.call (.error error) :: state.trace }
  | .perform _ _ => { state with tasks := task :: state.tasks }

/-- The state after a task has received one response. -/
def afterResponse (state : State M) (task : Task M) (world : M.World)
    (op : M.Op) (response : M.Resp op) : State M :=
  { state with
    world := world
    tasks := state.tasks.filter fun other => other.id ≠ task.id
    trace := .performed task.id op response :: state.trace }

def step (state : State M) : Action M → Option (State M)
  | .start call =>
      some (resume
        { state with
          trace := .started state.next call :: state.trace
          next := state.next + 1 }
        ⟨state.next, call, M.program (M.setting state.world) call⟩)
  | .advance id answer =>
      match state.tasks.find? fun task => task.id = id with
      | none => none
      | some task =>
          match task.program with
          | .perform op next =>
              match M.execute id op answer state.world with
              | none => none
              | some (response, world) =>
                  some (resume (state.afterResponse task world op response)
                    { task with program := next response })
          | _ => none
  | .abort id =>
      match state.tasks.find? fun task => task.id = id with
      | none => none
      | some _ =>
          some { state with
            world := M.finish id state.world
            tasks := state.tasks.filter fun other => other.id ≠ id
            trace := .aborted id :: state.trace }
  | .move change =>
      (M.environment change state.world).map fun world =>
        { state with world := world, trace := .moved change :: state.trace }
  | .restart change =>
      (M.restart change state.world).map fun world =>
        { state with
          world := world
          tasks := []
          trace := .restarted change :: state.trace }

/-- Execute a whole schedule. -/
def run (state : State M) : List (Action M) → Option (State M)
  | [] => some state
  | action :: actions => (state.step action).bind fun next => next.run actions

/-- One state is followed by another in some run. -/
def Reaches : State M → State M → Prop :=
  Relation.ReflTransGen fun before after => ∃ action, before.step action = some after

theorem Reaches.trans {first second third : State M} (before : first.Reaches second)
    (after : second.Reaches third) : first.Reaches third :=
  Relation.ReflTransGen.trans before after

theorem reaches_of_run {state last : State M} {actions : List (Action M)}
    (runs : state.run actions = some last) : state.Reaches last := by
  induction actions generalizing state with
  | nil =>
      cases Option.some.inj runs
      exact Relation.ReflTransGen.refl
  | cons action actions ih =>
      obtain ⟨middle, first, rest⟩ := Option.bind_eq_some_iff.mp runs
      exact Relation.ReflTransGen.head ⟨action, first⟩ (ih rest)

/-- A schedule whose last state has a decidable property leads to such a
state. -/
theorem reaches_of_decide {state : State M} {holds : State M → Prop} [DecidablePred holds]
    (actions : List (Action M))
    (decided : (state.run actions).map (fun last => decide (holds last)) = some true) :
    ∃ last, state.Reaches last ∧ holds last := by
  obtain ⟨last, runs, passed⟩ := Option.map_eq_some_iff.mp decided
  exact ⟨last, reaches_of_run runs, of_decide_eq_true passed⟩

/-- What one step can do to the world, before a task that ends with it
finishes. -/
inductive WorldStep (M : Machine) (world : M.World) : M.World → Prop
  | kept : WorldStep M world world
  | executed {task : Nat} {op : M.Op} {answer : M.Answer} {response : M.Resp op}
      {after : M.World} (done : M.execute task op answer world = some (response, after)) :
      WorldStep M world after
  | moved {change : M.Environment} {after : M.World}
      (done : M.environment change world = some after) : WorldStep M world after
  | restarted {change : M.Restart} {after : M.World}
      (done : M.restart change world = some after) : WorldStep M world after

theorem resume_world (state : State M) (task : Task M) :
    (state.resume task).world = state.world ∨
      (state.resume task).world = M.finish task.id state.world := by
  unfold resume
  split
  · exact Or.inr rfl
  · exact Or.inr rfl
  · exact Or.inl rfl

/-- A task that advances performs the operation it is waiting for. -/
theorem step_advance {state after : State M} {id : Nat} {answer : M.Answer}
    (stepped : state.step (.advance id answer) = some after) :
    ∃ call op next response world,
      (⟨id, call, .perform op next⟩ : Task M) ∈ state.tasks ∧
      M.execute id op answer state.world = some (response, world) ∧
      after = resume (state.afterResponse ⟨id, call, .perform op next⟩ world op response)
        ⟨id, call, next response⟩ := by
  simp only [step] at stepped
  split at stepped
  · cases stepped
  rename_i task found
  have member := List.mem_of_find?_eq_some found
  have sameId : task.id = id := by simpa using List.find?_some found
  subst sameId
  rcases task with ⟨id, call, program⟩
  cases program with
  | ret value => cases stepped
  | fail error => cases stepped
  | perform op next =>
      simp only at stepped
      split at stepped
      · cases stepped
      rename_i response world executed
      exact ⟨call, op, next, response, world, member, executed, (Option.some.inj stepped).symm⟩

/-- A task that is aborted is dropped. -/
theorem step_abort {state after : State M} {id : Nat}
    (stepped : state.step (.abort id) = some after) :
    ∃ task ∈ state.tasks, task.id = id ∧ after = { state with
      world := M.finish id state.world
      tasks := state.tasks.filter fun other => other.id ≠ id
      trace := .aborted id :: state.trace } := by
  simp only [step] at stepped
  split at stepped
  · cases stepped
  rename_i task found
  have sameId : task.id = id := by simpa using List.find?_some found
  exact ⟨task, List.mem_of_find?_eq_some found, sameId, (Option.some.inj stepped).symm⟩

/-- A step changes the world at most once, and then at most finishes a task. -/
theorem step_world {state after : State M} {action : Action M}
    (stepped : state.step action = some after) :
    ∃ middle, WorldStep M state.world middle ∧
      (after.world = middle ∨ ∃ task, after.world = M.finish task middle) := by
  cases action with
  | start call =>
      cases Option.some.inj stepped
      refine ⟨state.world, .kept, ?_⟩
      rcases resume_world _ _ with same | finished
      · exact Or.inl same
      · exact Or.inr ⟨_, finished⟩
  | advance id answer =>
      obtain ⟨_, _, _, _, world, _, executed, rfl⟩ := step_advance stepped
      refine ⟨world, .executed executed, ?_⟩
      rcases resume_world _ _ with same | finished
      · exact Or.inl same
      · exact Or.inr ⟨_, finished⟩
  | abort id =>
      obtain ⟨_, _, _, rfl⟩ := step_abort stepped
      exact ⟨state.world, .kept, Or.inr ⟨id, rfl⟩⟩
  | move change =>
      obtain ⟨world, changed, rfl⟩ := Option.map_eq_some_iff.mp stepped
      exact ⟨world, .moved changed, Or.inl rfl⟩
  | restart change =>
      obtain ⟨world, changed, rfl⟩ := Option.map_eq_some_iff.mp stepped
      exact ⟨world, .restarted changed, Or.inl rfl⟩

end State

section Traces

variable {M : Machine}

/-- What one task has performed, newest first. -/
def historyOf (task : Nat) : List (Event M) → History M.Resp
  | [] => []
  | .performed other op response :: trace =>
      if other = task then ⟨op, response⟩ :: historyOf task trace
      else historyOf task trace
  | .started _ _ :: trace => historyOf task trace
  | .returned _ _ _ :: trace => historyOf task trace
  | .aborted _ :: trace => historyOf task trace
  | .moved _ :: trace => historyOf task trace
  | .restarted _ :: trace => historyOf task trace

/-- A task has started and neither returned nor been dropped. -/
def Running (task : Nat) : List (Event M) → Prop
  | [] => False
  | .started other _ :: trace => other = task ∨ Running task trace
  | .performed _ _ _ :: trace => Running task trace
  | .returned other _ _ :: trace => other ≠ task ∧ Running task trace
  | .aborted other :: trace => other ≠ task ∧ Running task trace
  | .moved _ :: trace => Running task trace
  | .restarted _ :: _ => False

/-- What a task has performed at some point stays at the end of its history. -/
theorem historyOf_suffix {earlier trace : List (Event M)} (task : Nat)
    (suffix : earlier <:+ trace) : historyOf task earlier <:+ historyOf task trace := by
  induction trace with
  | nil =>
      rw [List.suffix_nil.mp suffix]
  | cons event trace ih =>
      rcases List.suffix_cons_iff.mp suffix with rfl | suffix
      · exact List.suffix_refl _
      · have within := ih suffix
        cases event with
        | performed other op response =>
            by_cases same : other = task
            · rw [historyOf, if_pos same]
              exact within.trans (List.suffix_cons _ _)
            · rw [historyOf, if_neg same]
              exact within
        | _ => exact within

theorem saw_historyOf_iff {task : Nat} {trace : List (Event M)}
    {op : M.Op} {response : M.Resp op} :
    Saw (historyOf task trace) op response ↔
      Event.performed task op response ∈ trace := by
  induction trace with
  | nil => simp [historyOf, Saw]
  | cons event trace ih =>
      cases event with
      | performed other otherOp otherResponse =>
          by_cases same : other = task
          · subst same
            simp only [historyOf, if_true, saw_cons, ih, List.mem_cons,
              Event.performed.injEq, true_and]
            constructor
            · rintro (equal | member)
              · cases equal
                exact Or.inl ⟨rfl, HEq.rfl⟩
              · exact Or.inr member
            · rintro (⟨rfl, equal⟩ | member)
              · cases equal
                exact Or.inl rfl
              · exact Or.inr member
          · simp only [historyOf, if_neg same, ih, List.mem_cons,
              Event.performed.injEq]
            constructor
            · exact Or.inr
            · rintro (⟨rfl, _⟩ | member)
              · exact (same rfl).elim
              · exact member
      | _ => simpa [historyOf] using ih

end Traces

end Interleaving
