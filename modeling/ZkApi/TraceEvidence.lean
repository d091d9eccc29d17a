import ZkApi.TaskDiscipline

/-!
# Facts that events leave behind

An event of a task can assert a fact about the world, such as the row that an
insert has left.  If the fact lasts, it still holds whenever the event is in
the trace.  Only the moment of the event has to be checked.

Conversely, everything that held when an event happened can be recalled from
the place of the event in the trace.
-/

namespace Interleaving

variable {M : Machine}

/-- A condition on runs that holds of every earlier part of a run. -/
def SuffixClosed (condition : List (Event M) → Prop) : Prop :=
  ∀ event trace, condition (event :: trace) → condition trace

/-- Every event meets a condition on it and on what happened before. -/
def Throughout (step : Event M → List (Event M) → Prop) : List (Event M) → Prop
  | [] => True
  | event :: trace => Throughout step trace ∧ step event trace

instance Throughout.decide {step : Event M → List (Event M) → Prop}
    [∀ event trace, Decidable (step event trace)] :
    (trace : List (Event M)) → Decidable (Throughout step trace)
  | [] => isTrue trivial
  | event :: trace =>
      have : Decidable (Throughout step trace) := Throughout.decide trace
      inferInstanceAs (Decidable (Throughout step trace ∧ step event trace))

theorem Throughout.of_suffix {step : Event M → List (Event M) → Prop}
    {earlier trace : List (Event M)} (meets : Throughout step trace)
    (suffix : earlier <:+ trace) : Throughout step earlier := by
  induction trace with
  | nil =>
      cases List.suffix_nil.mp suffix
      exact meets
  | cons event trace ih =>
      rcases List.suffix_cons_iff.mp suffix with rfl | suffix
      · exact meets
      · exact ih meets.1 suffix

theorem Throughout.of_mem {step : Event M → List (Event M) → Prop} {trace : List (Event M)}
    (meets : Throughout step trace) {event : Event M} (member : event ∈ trace) :
    ∃ earlier, event :: earlier <:+ trace ∧ step event earlier := by
  obtain ⟨later, earlier, split⟩ := List.append_of_mem member
  have suffix : event :: earlier <:+ trace := ⟨later, split.symm⟩
  exact ⟨earlier, suffix, (meets.of_suffix suffix).2⟩

/-- A property of the world that nothing takes away. -/
structure Lasting (M : Machine) (holds : M.World → Prop) : Prop where
  execute : ∀ {task op answer world response after},
    M.execute task op answer world = some (response, after) → holds world → holds after
  finish : ∀ {task world}, holds world → holds (M.finish task world)
  environment : ∀ {change world after},
    M.environment change world = some after → holds world → holds after
  restart : ∀ {change world after},
    M.restart change world = some after → holds world → holds after

/-- In a run that meets the condition, everything that an event has asserted
holds. -/
def Evidence {ι : Type} (condition : List (Event M) → Prop)
    (asserts : Event M → ι → Prop) (holds : ι → M.World → Prop)
    (world : M.World) (trace : List (Event M)) : Prop :=
  condition trace → ∀ event ∈ trace, ∀ index, asserts event index → holds index world

/-- A task has performed an operation or returned. -/
def Event.OfTask : Event M → Prop
  | .performed _ _ _ => True
  | .returned _ _ _ => True
  | _ => False

/-- Only what a task does or returns asserts anything. -/
def OfTasks {ι : Type} (asserts : Event M → ι → Prop) : Prop :=
  ∀ event index, asserts event index → event.OfTask

section Evidence

variable {D : Discipline M} {ι : Type} {Base : M.World → List (Event M) → Prop}
  {condition : List (Event M) → Prop} {asserts : Event M → ι → Prop}
  {holds : ι → M.World → Prop}

theorem evidence_initial (world : M.World) : Evidence condition asserts holds world [] :=
  fun _ _ member => absurd member List.not_mem_nil

private theorem OfTasks.cons {event : Event M} {trace : List (Event M)}
    (ofTasks : OfTasks asserts)
    (other : ¬ event.OfTask)
    {asserting : Event M} {index : ι} (asserted : asserts asserting index)
    (member : asserting ∈ event :: trace) : asserting ∈ trace := by
  rcases List.mem_cons.mp member with rfl | member
  · exact (other (ofTasks _ _ asserted)).elim
  · exact member

/-- Lasting facts are evidence as soon as they hold when they are asserted. -/
theorem evidence_preserved (suffixClosed : SuffixClosed condition)
    (ofTasks : OfTasks asserts) (lasting : ∀ index, Lasting M (holds index))
    (performed : ∀ {world trace task call op answer response after index},
      D.allowed (M.setting world) call (historyOf task trace) op →
      M.execute task op answer world = some (response, after) → Base world trace →
      condition trace → asserts (.performed task op response) index → holds index after)
    (returned : ∀ {world trace task call result index},
      D.returns (M.setting world) call (historyOf task trace) result →
      Base world trace → condition trace →
      (∀ event ∈ trace, ∀ index, asserts event index → holds index world) →
      asserts (.returned task call result) index → holds index world) :
    D.Preserved Base (Evidence condition asserts holds) where
  started task call _ _ held met event member index asserted :=
    held (suffixClosed _ _ met) event
      (ofTasks.cons id asserted member) index asserted
  performed _ _ allowed executed base held met event member index asserted := by
    have met := suffixClosed _ _ met
    rcases List.mem_cons.mp member with rfl | member
    · exact performed allowed executed base met asserted
    · exact (lasting index).execute executed (held met event member index asserted)
  returned _ _ _ returns base held met event member index asserted := by
    have met := suffixClosed _ _ met
    refine (lasting index).finish ?_
    rcases List.mem_cons.mp member with rfl | member
    · exact returned returns base met (held met) asserted
    · exact held met event member index asserted
  aborted _ _ held met event member index asserted :=
    (lasting index).finish (held (suffixClosed _ _ met) event
      (ofTasks.cons id asserted member) index asserted)
  moved changed _ held met event member index asserted :=
    (lasting index).environment changed (held (suffixClosed _ _ met) event
      (ofTasks.cons id asserted member) index asserted)
  restarted changed _ held met event member index asserted :=
    (lasting index).restart changed (held (suffixClosed _ _ met) event
      (ofTasks.cons id asserted member) index asserted)

end Evidence

section Occurrences

namespace Discipline

/-- What is known about an event that happened right after `earlier`, if `Inv`
always holds. -/
def Occurs (D : Discipline M) (Inv : M.World → List (Event M) → Prop) :
    Event M → List (Event M) → Prop
  | .started task _, earlier => Fresh task earlier ∧ ∃ world, Inv world earlier
  | .performed task op response, earlier => ∃ call world answer after,
      .started task call ∈ earlier ∧
        D.allowed (M.setting world) call (historyOf task earlier) op ∧
        M.execute task op answer world = some (response, after) ∧ Inv world earlier
  | .returned task call result, earlier => ∃ world, .started task call ∈ earlier ∧
      Newest task earlier ∧
        D.returns (M.setting world) call (historyOf task earlier) result ∧ Inv world earlier
  | .aborted _, earlier => ∃ world, Inv world earlier
  | .moved change, earlier => ∃ world after,
      M.environment change world = some after ∧ Inv world earlier
  | .restarted change, earlier => ∃ world after,
      M.restart change world = some after ∧ Inv world earlier

/-- Every event of the trace occurred as events do. -/
def Occurred (D : Discipline M) (Inv : M.World → List (Event M) → Prop)
    (trace : List (Event M)) : Prop :=
  ∀ event earlier, event :: earlier <:+ trace → D.Occurs Inv event earlier

variable {D : Discipline M} {Inv : M.World → List (Event M) → Prop}

theorem Occurred.cons {trace : List (Event M)} {event : Event M}
    (occurred : D.Occurred Inv trace) (occurs : D.Occurs Inv event trace) :
    D.Occurred Inv (event :: trace) := by
  intro other earlier suffix
  rcases List.suffix_cons_iff.mp suffix with same | suffix
  · cases same
    exact occurs
  · exact occurred other earlier suffix

theorem Occurred.of_mem {trace : List (Event M)} {event : Event M}
    (occurred : D.Occurred Inv trace) (member : event ∈ trace) :
    ∃ earlier, event :: earlier <:+ trace ∧ D.Occurs Inv event earlier := by
  obtain ⟨later, earlier, split⟩ := List.append_of_mem member
  have suffix : event :: earlier <:+ trace := ⟨later, split.symm⟩
  exact ⟨earlier, suffix, occurred event earlier suffix⟩

theorem occurred_preserved (D : Discipline M) (Inv : M.World → List (Event M) → Prop) :
    D.Preserved Inv fun _ trace => D.Occurred Inv trace where
  started _ _ fresh base held := held.cons ⟨fresh, _, base⟩
  performed _ started allowed executed base held :=
    held.cons ⟨_, _, _, _, started, allowed, executed, base⟩
  returned _ started newest returns base held :=
    held.cons ⟨_, started, newest, returns, base⟩
  aborted _ base held := held.cons ⟨_, base⟩
  moved changed base held := held.cons ⟨_, _, changed, base⟩
  restarted changed base held := held.cons ⟨_, _, changed, base⟩

theorem Preserved.occurred_holds (preserved : D.Inductive Inv) {world : M.World}
    (initially : Inv world []) {last : State M}
    (run : (State.initial M world).Reaches last) : D.Occurred Inv last.trace := by
  have nothing : D.Occurred Inv [] := by
    intro event earlier suffix
    cases List.suffix_nil.mp suffix
  exact (preserved.and (occurred_preserved D Inv)).holds ⟨initially, nothing⟩ run |>.2

/-- What a task performs comes after its start. -/
theorem Occurred.started_suffix {trace earlier before : List (Event M)} {task : Nat}
    {call other : M.Call} (occurred : D.Occurred Inv trace)
    (start : .started task call :: before <:+ trace) (suffix : earlier <:+ trace)
    (started : .started task other ∈ earlier) : .started task call :: before <:+ earlier := by
  rcases List.suffix_or_suffix_of_suffix start suffix with within | within
  · exact within
  · rcases List.suffix_cons_iff.mp within with same | within
    · rw [same]
    · have fresh := (occurred _ _ start).1
      exact (fresh.not_started other (within.subset started)).elim

end Discipline

end Occurrences

section Starts

/-- No task is started twice. -/
def StartsOnce (trace : List (Event M)) : Prop :=
  ∀ task first second, .started task first ∈ trace → .started task second ∈ trace →
    first = second

def Event.IsStart : Event M → Prop
  | .started _ _ => True
  | _ => False

theorem started_of_cons {trace : List (Event M)} {event : Event M} {task : Nat}
    {call : M.Call} (other : ¬ event.IsStart) (started : .started task call ∈ event :: trace) :
    .started task call ∈ trace := by
  refine (List.mem_cons.mp started).resolve_left fun same => other ?_
  rw [← same]
  trivial

private theorem StartsOnce.cons {trace : List (Event M)} {event : Event M}
    (once : StartsOnce trace) (other : ¬ event.IsStart) :
    StartsOnce (event :: trace) := by
  intro task first second firstStarted secondStarted
  exact once task first second (started_of_cons other firstStarted)
    (started_of_cons other secondStarted)

theorem startsOnce_preserved (D : Discipline M) :
    D.Inductive fun _ trace => StartsOnce trace where
  started := by
    intro world trace task call fresh _ once other first second firstStarted secondStarted
    rcases List.mem_cons.mp firstStarted with same | firstStarted
    · cases same
      rcases List.mem_cons.mp secondStarted with same | secondStarted
      · cases same
        rfl
      · exact (fresh.not_started second secondStarted).elim
    · rcases List.mem_cons.mp secondStarted with same | secondStarted
      · cases same
        exact (fresh.not_started first firstStarted).elim
      · exact once other first second firstStarted secondStarted
  performed _ _ _ _ _ once := once.cons id
  returned _ _ _ _ _ once := once.cons id
  aborted _ _ once := once.cons id
  moved _ _ once := once.cons id
  restarted _ _ once := once.cons id

theorem startsOnce_nil : StartsOnce ([] : List (Event M)) :=
  fun _ _ _ member => absurd member List.not_mem_nil

end Starts

section Steps

/-- A lasting property survives every step. -/
theorem Lasting.step {holds : M.World → Prop} (lasting : Lasting M holds)
    {state after : State M} {action : Action M} (stepped : state.step action = some after)
    (held : holds state.world) : holds after.world := by
  obtain ⟨middle, worldStep, ended⟩ := State.step_world stepped
  have heldMiddle : holds middle := by
    cases worldStep with
    | kept => exact held
    | executed done => exact lasting.execute done held
    | moved done => exact lasting.environment done held
    | restarted done => exact lasting.restart done held
  rcases ended with same | ⟨task, same⟩
  · rw [same]
    exact heldMiddle
  · rw [same]
    exact lasting.finish heldMiddle

end Steps

theorem suffixClosed_true : SuffixClosed (fun _ => True : List (Event M) → Prop) :=
  fun _ _ _ => trivial

end Interleaving
