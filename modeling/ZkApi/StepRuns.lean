import Mathlib.Logic.Relation

/-!
# Runs of a machine

A machine takes a state and an action to the next state, if it can take the action at
all.  A run takes only the actions that are allowed where they are taken.
-/

namespace ZkApi

section Runs

variable {State Action : Type*} {step : State → Action → Option State}
  {allowed : State → Action → Prop} {start : State}

inductive StepRun (step : State → Action → Option State) (allowed : State → Action → Prop)
    (start : State) : State → Prop where
  | refl : StepRun step allowed start start
  | step {state next : State} (action : Action) (run : StepRun step allowed start state)
      (legal : allowed state action) (taken : step state action = some next) :
      StepRun step allowed start next

/-- What holds at the start and is kept by every step holds after every run. -/
theorem StepRun.invariant {state : State} (run : StepRun step allowed start state)
    (P : State → Prop) (starts : P start)
    (keeps : ∀ state action next, P state → allowed state action →
      step state action = some next → P next) : P state := by
  induction run with
  | refl => exact starts
  | step action run legal taken ih => exact keeps _ action _ ih legal taken

theorem StepRun.mono {weaker : State → Action → Prop} {state : State}
    (run : StepRun step allowed start state)
    (weakens : ∀ state action, allowed state action → weaker state action) :
    StepRun step weaker start state := by
  induction run with
  | refl => exact .refl
  | step action run legal taken ih => exact ih.step action (weakens _ _ legal) taken

/-- Take these actions one after the other, if each is legal. -/
def follow (step : State → Action → Option State) (legal : State → Action → Bool)
    (state : State) : List Action → Option State
  | [] => some state
  | action :: rest =>
      if legal state action then (step state action).bind fun next => follow step legal next rest
      else none

theorem StepRun.follow {legal : State → Action → Bool} {state next : State}
    {actions : List Action}
    (run : StepRun step (fun state action => legal state action = true) start state)
    (followed : ZkApi.follow step legal state actions = some next) :
    StepRun step (fun state action => legal state action = true) start next := by
  induction actions generalizing state with
  | nil => exact Option.some.inj followed ▸ run
  | cons action rest ih =>
    rw [ZkApi.follow] at followed
    split at followed
    case isTrue fine =>
      obtain ⟨middle, taken, after⟩ := Option.bind_eq_some_iff.mp followed
      exact ih (run.step action fine taken) after
    · cases followed

/-- A state with a property that these actions lead to. -/
theorem exists_stepRun (step : State → Action → Option State) (legal : State → Action → Bool)
    (start : State) (actions : List Action) (P : State → Bool)
    (ran : (ZkApi.follow step legal start actions).any P = true) :
    ∃ state, StepRun step (fun state action => legal state action = true) start state ∧
      P state = true := by
  cases followed : ZkApi.follow step legal start actions with
  | none =>
    rw [followed] at ran
    cases ran
  | some state =>
    rw [followed] at ran
    exact ⟨state, StepRun.refl.follow followed, ran⟩

end Runs

end ZkApi
