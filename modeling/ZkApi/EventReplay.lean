import Mathlib.Data.List.Basic

/-!
# Replaying events

A consumer applies events to a state one after the other.  When it stops in the
middle of a batch and starts the batch again, some events are applied twice.
An event is absorbed when applying it early changes nothing that its regular
application does not settle again.
-/

namespace EventReplay

variable {State Event : Type*} (apply : State → Event → State)

/-- Applying the event early and again later is the same as applying it later:
some relation holds between the two states, survives every event, and is
resolved by the event itself. -/
def Absorbed (event : Event) : Prop :=
  ∃ Ahead : State → State → Prop,
    (∀ state, Ahead state (apply state event)) ∧
    (∀ first second other, Ahead first second →
      Ahead (apply first other) (apply second other)) ∧
    ∀ first second, Ahead first second → apply first event = apply second event

variable {apply}

private theorem ahead_foldl {Ahead : State → State → Prop}
    (kept : ∀ first second other, Ahead first second →
      Ahead (apply first other) (apply second other))
    (events : List Event) {first second : State} (ahead : Ahead first second) :
    Ahead (events.foldl apply first) (events.foldl apply second) := by
  induction events generalizing first second with
  | nil => exact ahead
  | cons event events ih =>
      rw [List.foldl_cons, List.foldl_cons]
      apply ih
      exact kept first second event ahead

/-- An event that the batch contains may be applied before the batch. -/
theorem foldl_of_mem {event : Event} {events : List Event} (absorbed : Absorbed apply event)
    (member : event ∈ events) (state : State) :
    events.foldl apply (apply state event) = events.foldl apply state := by
  obtain ⟨Ahead, initially, kept, resolved⟩ := absorbed
  obtain ⟨before, rest, rfl⟩ := List.append_of_mem member
  have ahead : Ahead (before.foldl apply state) (before.foldl apply (apply state event)) :=
    ahead_foldl kept before (initially state)
  have same := resolved _ _ ahead
  rw [List.foldl_append, List.foldl_append, List.foldl_cons, List.foldl_cons, same]

/-- Events that the batch contains may be applied before the batch. -/
theorem foldl_append_of_subset {applied events : List Event}
    (absorbed : ∀ event ∈ applied, Absorbed apply event) (subset : applied ⊆ events)
    (state : State) : (applied ++ events).foldl apply state = events.foldl apply state := by
  induction applied generalizing state with
  | nil => rfl
  | cons event applied ih =>
      have rest : (applied ++ events).foldl apply (apply state event) =
          events.foldl apply (apply state event) := by
        apply ih
        · intro other member
          exact absorbed other (List.mem_cons_of_mem _ member)
        · exact (List.cons_subset.mp subset).2
      have first : event ∈ events := (List.cons_subset.mp subset).1
      rw [List.cons_append, List.foldl_cons, rest]
      exact foldl_of_mem (absorbed event (by simp)) first state

/-- A batch may be started again after any part of it. -/
theorem foldl_restarted {events : List Event} (absorbed : ∀ event ∈ events, Absorbed apply event)
    (applied : List Event) (part : applied <+: events) (state : State) :
    events.foldl apply (applied.foldl apply state) = events.foldl apply state := by
  have subset : applied ⊆ events := part.subset
  rw [← List.foldl_append]
  apply foldl_append_of_subset
  · intro event member
    exact absorbed event (subset member)
  · exact subset

end EventReplay
