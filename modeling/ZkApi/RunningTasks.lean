import ZkApi.TaskDiscipline

/-!
# What holds of all running tasks

A property of the history of every running task, such as that the owner of a
lock is the task that has taken it.  An event changes the history of one task
at most, so only that task has to be checked, and every other task keeps what
it had.
-/

namespace Interleaving

variable {M : Machine}

instance Running.decide (task : Nat) : (trace : List (Event M)) → Decidable (Running task trace)
  | [] => isFalse id
  | .started other _ :: trace =>
      have := Running.decide task trace
      inferInstanceAs (Decidable (other = task ∨ Running task trace))
  | .performed _ _ _ :: trace => Running.decide task trace
  | .returned other _ _ :: trace =>
      have := Running.decide task trace
      inferInstanceAs (Decidable (other ≠ task ∧ Running task trace))
  | .aborted other :: trace =>
      have := Running.decide task trace
      inferInstanceAs (Decidable (other ≠ task ∧ Running task trace))
  | .moved _ :: trace => Running.decide task trace
  | .restarted _ :: _ => isFalse id

/-- The tasks that were started, with their calls. -/
def starts : List (Event M) → List (Nat × M.Call)
  | [] => []
  | .started task call :: trace => (task, call) :: starts trace
  | _ :: trace => starts trace

theorem mem_starts {task : Nat} {call : M.Call} {trace : List (Event M)} :
    (task, call) ∈ starts trace ↔ .started task call ∈ trace := by
  induction trace with
  | nil => simp [starts]
  | cons event trace ih =>
      cases event <;> simp [starts, ih]

/-- Every running task has a history that is as it should be. -/
def ForRunning (holds : Nat → M.Call → History M.Resp → Prop) (trace : List (Event M)) : Prop :=
  ∀ task call, Running task trace → .started task call ∈ trace →
    holds task call (historyOf task trace)

instance {holds : Nat → M.Call → History M.Resp → Prop}
    [∀ task call history, Decidable (holds task call history)] (trace : List (Event M)) :
    Decidable (ForRunning holds trace) :=
  decidable_of_iff (∀ start ∈ starts trace, Running start.1 trace →
      holds start.1 start.2 (historyOf start.1 trace)) (by
    constructor
    · intro all task call running started
      exact all (task, call) (mem_starts.mpr started) running
    · intro all start member running
      exact all start.1 start.2 running (mem_starts.mp member))

namespace ForRunning

variable {holds holds' : Nat → M.Call → History M.Resp → Prop} {trace : List (Event M)}
  {task : Nat}

theorem nil : ForRunning holds ([] : List (Event M)) :=
  fun _ _ running => running.elim

theorem mono (all : ForRunning holds trace)
    (weaker : ∀ task call history, holds task call history → holds' task call history) :
    ForRunning holds' trace :=
  fun task call running started => weaker _ _ _ (all task call running started)

theorem started {call : M.Call} (fresh : Fresh task trace) (all : ForRunning holds trace)
    (new : holds task call []) : ForRunning holds (.started task call :: trace) := by
  intro other otherCall running member
  change holds other otherCall (historyOf other trace)
  by_cases same : task = other
  · subst same
    rw [fresh.historyOf_eq_nil]
    rcases List.mem_cons.mp member with equal | earlier
    · cases equal
      exact new
    · exact (fresh.not_started otherCall earlier).elim
  · have running : Running other trace := running.resolve_left same
    rcases List.mem_cons.mp member with equal | earlier
    · cases equal
      exact (same rfl).elim
    · exact all other otherCall running earlier

theorem performed {op : M.Op} {response : M.Resp op} (all : ForRunning holds trace)
    (mover : ∀ call, Running task trace → .started task call ∈ trace →
      holds task call (historyOf task trace) →
      holds' task call (⟨op, response⟩ :: historyOf task trace))
    (others : ∀ other call history, task ≠ other → holds other call history →
      holds' other call history) :
    ForRunning holds' (.performed task op response :: trace) := by
  intro other call running member
  have earlier := (List.mem_cons.mp member).resolve_left nofun
  have held := all other call running earlier
  by_cases same : task = other
  · subst same
    rw [historyOf, if_pos rfl]
    exact mover call running earlier held
  · rw [historyOf, if_neg same]
    exact others other call _ same held

theorem returned {call : M.Call} {result : Except M.Err (M.Result call)}
    (all : ForRunning holds trace)
    (others : ∀ other call history, task ≠ other → holds other call history →
      holds' other call history) :
    ForRunning holds' (.returned task call result :: trace) := by
  intro other otherCall running member
  have earlier := (List.mem_cons.mp member).resolve_left nofun
  exact others other otherCall _ running.1 (all other otherCall running.2 earlier)

theorem aborted (all : ForRunning holds trace)
    (others : ∀ other call history, task ≠ other → holds other call history →
      holds' other call history) :
    ForRunning holds' (.aborted task :: trace) := by
  intro other otherCall running member
  have earlier := (List.mem_cons.mp member).resolve_left nofun
  exact others other otherCall _ running.1 (all other otherCall running.2 earlier)

theorem moved {change : M.Environment} (all : ForRunning holds trace) :
    ForRunning holds (.moved change :: trace) := by
  intro other otherCall running member
  have earlier := (List.mem_cons.mp member).resolve_left nofun
  exact all other otherCall running earlier

theorem restarted {change : M.Restart} : ForRunning holds (.restarted change :: trace) :=
  fun _ _ running => running.elim

end ForRunning

end Interleaving
