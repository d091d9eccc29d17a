import ZkApi.TaskInterleaving

/-!
# Invariants of disciplined tasks

A discipline says, for every call, which operations its task may perform after
what it has seen itself and how it may return.  Checking the programs of a
machine against a discipline needs no shared state.  An invariant of world and
trace is then proved event by event, and every event of a task comes with what
the discipline guarantees about it.
-/

namespace Interleaving

variable {M : Machine}

/-- The event belongs to the given task. -/
def Event.Mentions (task : Nat) : Event M → Prop
  | .started other _ => other = task
  | .performed other _ _ => other = task
  | .returned other _ _ => other = task
  | .aborted other => other = task
  | .moved _ => False
  | .restarted _ => False

/-- No event of the trace belongs to the task. -/
def Fresh (task : Nat) (trace : List (Event M)) : Prop :=
  ∀ event ∈ trace, ¬ event.Mentions task

theorem Fresh.historyOf_eq_nil {task : Nat} {trace : List (Event M)}
    (fresh : Fresh task trace) : historyOf task trace = [] := by
  induction trace with
  | nil => rfl
  | cons event trace ih =>
      have rest := ih fun other member => fresh other (by simp [member])
      have first := fresh event (by simp)
      cases event with
      | performed other op response =>
          have different : other ≠ task := first
          simp [historyOf, different, rest]
      | _ => simpa [historyOf] using rest

theorem Fresh.not_started {task : Nat} {trace : List (Event M)}
    (fresh : Fresh task trace) (call : M.Call) :
    Event.started task call ∉ trace :=
  fun member => fresh _ member rfl

/-- The last thing that happened is what the task did last. -/
def Newest (task : Nat) (trace : List (Event M)) : Prop :=
  ∀ op response history, historyOf task trace = ⟨op, response⟩ :: history →
    ∃ earlier, trace = .performed task op response :: earlier ∧
      historyOf task earlier = history

theorem newest_performed (task : Nat) (op : M.Op) (response : M.Resp op)
    (trace : List (Event M)) : Newest task (.performed task op response :: trace) := by
  intro other otherResponse history same
  simp only [historyOf, if_true, List.cons.injEq] at same
  obtain ⟨sameHead, sameTail⟩ := same
  cases sameHead
  exact ⟨trace, rfl, sameTail⟩

theorem Fresh.newest_started {task : Nat} {trace : List (Event M)}
    (fresh : Fresh task trace) (call : M.Call) :
    Newest task (.started task call :: trace) := by
  intro op response history same
  simp [historyOf, fresh.historyOf_eq_nil] at same

/-- What the programs of a machine promise about their own steps. -/
structure Discipline (M : Machine) where
  allowed : M.Setting → M.Call → History M.Resp → M.Op → Prop
  returns : M.Setting → (call : M.Call) → History M.Resp →
    Except M.Err (M.Result call) → Prop
  follows : ∀ setting call, (M.program setting call).Follows
    (allowed setting call)
    (fun history value => returns setting call history (.ok value))
    (fun history error => returns setting call history (.error error)) []
  execute_setting : ∀ {task op answer world response after},
    M.execute task op answer world = some (response, after) →
      M.setting after = M.setting world
  finish_setting : ∀ task world,
    M.setting (M.finish task world) = M.setting world
  environment_setting : ∀ {change world after},
    M.environment change world = some after →
      M.setting after = M.setting world

namespace Discipline

/-- The rest of a task's program keeps the promises of its call. -/
def TaskFollows (D : Discipline M) (setting : M.Setting)
    (history : History M.Resp) (task : Task M) : Prop :=
  task.program.Follows (D.allowed setting task.call)
    (fun history value => D.returns setting task.call history (.ok value))
    (fun history error => D.returns setting task.call history (.error error))
    history

/-- The running tasks of a state agree with its trace. -/
structure Valid (D : Discipline M) (state : State M) : Prop where
  running : ∀ task ∈ state.tasks, Running task.id state.trace
  started : ∀ task ∈ state.tasks, .started task.id task.call ∈ state.trace
  follows : ∀ task ∈ state.tasks, D.TaskFollows (M.setting state.world)
    (historyOf task.id state.trace) task
  fresh : ∀ task, state.next ≤ task → Fresh task state.trace

theorem valid_initial (D : Discipline M) (world : M.World) :
    D.Valid (State.initial M world) where
  running := by simp [State.initial]
  started := by simp [State.initial]
  follows := by simp [State.initial]
  fresh := by simp [State.initial, Fresh]

/-- Every event keeps `Inv`, given that `Base` held before it. -/
structure Preserved (D : Discipline M)
    (Base Inv : M.World → List (Event M) → Prop) : Prop where
  started : ∀ {world trace} (task : Nat) (call : M.Call),
    Fresh task trace → Base world trace → Inv world trace →
      Inv world (.started task call :: trace)
  performed : ∀ {world trace task call op answer response after},
    Running task trace → .started task call ∈ trace →
      D.allowed (M.setting world) call (historyOf task trace) op →
      M.execute task op answer world = some (response, after) →
      Base world trace → Inv world trace →
        Inv after (.performed task op response :: trace)
  returned : ∀ {world trace task call result},
    Running task trace → .started task call ∈ trace → Newest task trace →
      D.returns (M.setting world) call (historyOf task trace) result →
      Base world trace → Inv world trace →
        Inv (M.finish task world) (.returned task call result :: trace)
  aborted : ∀ {world trace task}, Running task trace →
    Base world trace → Inv world trace →
      Inv (M.finish task world) (.aborted task :: trace)
  moved : ∀ {world trace change after},
    M.environment change world = some after →
      Base world trace → Inv world trace → Inv after (.moved change :: trace)
  restarted : ∀ {world trace change after},
    M.restart change world = some after →
      Base world trace → Inv world trace → Inv after (.restarted change :: trace)

/-- An invariant that rests on no other. -/
abbrev Inductive (D : Discipline M)
    (Inv : M.World → List (Event M) → Prop) : Prop :=
  D.Preserved (fun _ _ => True) Inv

/-- An invariant may rest on more than it needs. -/
theorem Preserved.mono {D : Discipline M} {Base Base' Inv : M.World → List (Event M) → Prop}
    (preserved : D.Preserved Base Inv)
    (stronger : ∀ world trace, Base' world trace → Base world trace) :
    D.Preserved Base' Inv where
  started task call fresh base held :=
    preserved.started task call fresh (stronger _ _ base) held
  performed running started allowed executed base held :=
    preserved.performed running started allowed executed (stronger _ _ base) held
  returned running started newest returns base held :=
    preserved.returned running started newest returns (stronger _ _ base) held
  aborted running base held := preserved.aborted running (stronger _ _ base) held
  moved changed base held := preserved.moved changed (stronger _ _ base) held
  restarted changed base held := preserved.restarted changed (stronger _ _ base) held

/-- An invariant that rests on an inductive one makes both inductive. -/
theorem Preserved.and {D : Discipline M}
    {Base Inv : M.World → List (Event M) → Prop}
    (base : D.Inductive Base) (relative : D.Preserved Base Inv) :
    D.Inductive fun world trace => Base world trace ∧ Inv world trace where
  started task call fresh _ held :=
    ⟨base.started task call fresh trivial held.1,
      relative.started task call fresh held.1 held.2⟩
  performed running started allowed executed _ held :=
    ⟨base.performed running started allowed executed trivial held.1,
      relative.performed running started allowed executed held.1 held.2⟩
  returned running started newest returns _ held :=
    ⟨base.returned running started newest returns trivial held.1,
      relative.returned running started newest returns held.1 held.2⟩
  aborted running _ held :=
    ⟨base.aborted running trivial held.1, relative.aborted running held.1 held.2⟩
  moved changed _ held :=
    ⟨base.moved changed trivial held.1, relative.moved changed held.1 held.2⟩
  restarted changed _ held :=
    ⟨base.restarted changed trivial held.1, relative.restarted changed held.1 held.2⟩

/-- Inductive invariants hold together. -/
theorem Preserved.both {D : Discipline M} {First Second : M.World → List (Event M) → Prop}
    (first : D.Inductive First) (second : D.Inductive Second) :
    D.Inductive fun world trace => First world trace ∧ Second world trace :=
  first.and (second.mono fun _ _ _ => trivial)

/-- Another discipline of the same machine. -/
def restate (D : Discipline M)
    (allowed : M.Setting → M.Call → History M.Resp → M.Op → Prop)
    (returns : M.Setting → (call : M.Call) → History M.Resp →
      Except M.Err (M.Result call) → Prop)
    (follows : ∀ setting call, (M.program setting call).Follows (allowed setting call)
      (fun history value => returns setting call history (.ok value))
      (fun history error => returns setting call history (.error error)) []) :
    Discipline M where
  allowed := allowed
  returns := returns
  follows := follows
  execute_setting := D.execute_setting
  finish_setting := D.finish_setting
  environment_setting := D.environment_setting

section Conjunction

/-- What two disciplines guarantee together. -/
def conj (first second : Discipline M) : Discipline M where
  allowed setting call history op :=
    first.allowed setting call history op ∧ second.allowed setting call history op
  returns setting call history result :=
    first.returns setting call history result ∧ second.returns setting call history result
  follows setting call := (first.follows setting call).and (second.follows setting call)
  execute_setting := first.execute_setting
  finish_setting := first.finish_setting
  environment_setting := first.environment_setting

variable {first second : Discipline M} {Base Inv : M.World → List (Event M) → Prop}

theorem Preserved.conj_left (preserved : first.Preserved Base Inv) :
    (first.conj second).Preserved Base Inv where
  started := preserved.started
  performed running started allowed := preserved.performed running started allowed.1
  returned running started newest returns := preserved.returned running started newest returns.1
  aborted := preserved.aborted
  moved := preserved.moved
  restarted := preserved.restarted

end Conjunction

section Steps

variable {D : Discipline M} {Inv : M.World → List (Event M) → Prop}

private theorem resume_sound (preserved : D.Inductive Inv)
    {state : State M} {task : Task M}
    (valid : D.Valid state) (held : Inv state.world state.trace)
    (running : Running task.id state.trace)
    (started : .started task.id task.call ∈ state.trace)
    (newest : Newest task.id state.trace)
    (follows : D.TaskFollows (M.setting state.world)
      (historyOf task.id state.trace) task)
    (others : ∀ other ∈ state.tasks, other.id ≠ task.id)
    (older : task.id < state.next) :
    D.Valid (state.resume task) ∧
      Inv (state.resume task).world (state.resume task).trace := by
  rcases task with ⟨id, call, program⟩
  have returnedValid : ∀ result, D.Valid
      { state with
        world := M.finish id state.world
        trace := .returned id call result :: state.trace } := by
    intro result
    refine ⟨?_, ?_, ?_, ?_⟩
    · intro other member
      exact ⟨(others other member).symm, valid.running other member⟩
    · intro other member
      exact List.mem_cons_of_mem _ (valid.started other member)
    · intro other member
      simpa [historyOf, D.finish_setting] using valid.follows other member
    · intro later bound event member
      rcases List.mem_cons.mp member with rfl | member
      · exact (Nat.lt_of_lt_of_le older bound).ne
      · exact valid.fresh later bound event member
  cases program with
  | ret value =>
      exact ⟨returnedValid _, preserved.returned running started newest follows trivial held⟩
  | fail error =>
      exact ⟨returnedValid _, preserved.returned running started newest follows trivial held⟩
  | perform op next =>
      refine ⟨⟨?_, ?_, ?_, valid.fresh⟩, held⟩
      · intro other member
        rcases List.mem_cons.mp member with rfl | member
        · exact running
        · exact valid.running other member
      · intro other member
        rcases List.mem_cons.mp member with rfl | member
        · exact started
        · exact valid.started other member
      · intro other member
        rcases List.mem_cons.mp member with rfl | member
        · exact follows
        · exact valid.follows other member

private theorem start_sound (preserved : D.Inductive Inv)
    {state : State M} (call : M.Call)
    (valid : D.Valid state) (held : Inv state.world state.trace) :
    ∀ after, state.step (.start call) = some after →
      D.Valid after ∧ Inv after.world after.trace := by
  rintro after stepped
  cases Option.some.inj stepped
  have fresh := valid.fresh state.next le_rfl
  refine resume_sound preserved ?_
    (preserved.started _ call fresh trivial held) (Or.inl rfl) (by simp)
    (fresh.newest_started call) ?_ ?_ (Nat.lt_succ_self _)
  · refine ⟨?_, ?_, ?_, ?_⟩
    · intro task member
      exact Or.inr (valid.running task member)
    · intro task member
      exact List.mem_cons_of_mem _ (valid.started task member)
    · intro task member
      simpa [historyOf] using valid.follows task member
    · intro later bound event member
      have bound : state.next + 1 ≤ later := bound
      rcases List.mem_cons.mp member with rfl | member
      · exact (show state.next ≠ later by omega)
      · exact valid.fresh later (by omega) event member
  · simpa [TaskFollows, historyOf, fresh.historyOf_eq_nil] using
      D.follows (M.setting state.world) call
  · intro other member same
    have mentioned := valid.started other member
    exact fresh _ mentioned same

private theorem advance_sound (preserved : D.Inductive Inv)
    {state after : State M} {id : Nat} {answer : M.Answer}
    (valid : D.Valid state) (held : Inv state.world state.trace)
    (stepped : state.step (.advance id answer) = some after) :
    D.Valid after ∧ Inv after.world after.trace := by
  obtain ⟨call, op, next, response, world, member, executed, rfl⟩ := State.step_advance stepped
  have running : Running id state.trace := valid.running _ member
  have started : .started id call ∈ state.trace := valid.started _ member
  have follows := valid.follows _ member
  have settingKept : M.setting world = M.setting state.world :=
    D.execute_setting executed
  refine resume_sound preserved ?_
    (preserved.performed running started follows.1 executed trivial held)
    running (List.mem_cons_of_mem _ started)
    (newest_performed id op response state.trace) ?_ ?_ ?_
  · refine ⟨?_, ?_, ?_, ?_⟩
    · intro other otherMember
      exact valid.running other (List.mem_filter.mp otherMember).1
    · intro other otherMember
      exact List.mem_cons_of_mem _
        (valid.started other (List.mem_filter.mp otherMember).1)
    · intro other otherMember
      obtain ⟨inTasks, different⟩ := List.mem_filter.mp otherMember
      have different : id ≠ other.id := fun same => by
        simp [same] at different
      simpa [State.afterResponse, historyOf, different, settingKept] using
        valid.follows other inTasks
    · intro later bound event eventMember
      have older : id < later :=
        Nat.lt_of_not_le fun small => valid.fresh id
          (le_trans bound small) _ started rfl
      rcases List.mem_cons.mp eventMember with rfl | eventMember
      · exact older.ne
      · exact valid.fresh later bound event eventMember
  · have resumed := follows.2 response
    simpa [TaskFollows, State.afterResponse, historyOf, settingKept] using resumed
  · intro other otherMember
    simpa using (List.mem_filter.mp otherMember).2
  · exact Nat.lt_of_not_le fun small =>
      valid.fresh id small _ started rfl

private theorem abort_sound (preserved : D.Inductive Inv)
    {state after : State M} {id : Nat}
    (valid : D.Valid state) (held : Inv state.world state.trace)
    (stepped : state.step (.abort id) = some after) :
    D.Valid after ∧ Inv after.world after.trace := by
  obtain ⟨task, member, rfl, rfl⟩ := State.step_abort stepped
  refine ⟨⟨?_, ?_, ?_, ?_⟩,
    preserved.aborted (valid.running task member) trivial held⟩
  · intro other otherMember
    obtain ⟨inTasks, different⟩ := List.mem_filter.mp otherMember
    exact ⟨fun same => by simp [same] at different, valid.running other inTasks⟩
  · intro other otherMember
    exact List.mem_cons_of_mem _
      (valid.started other (List.mem_filter.mp otherMember).1)
  · intro other otherMember
    simpa [historyOf, D.finish_setting] using
      valid.follows other (List.mem_filter.mp otherMember).1
  · intro later bound event eventMember
    rcases List.mem_cons.mp eventMember with rfl | eventMember
    · intro same
      have same : task.id = later := same
      exact valid.fresh later bound _ (valid.started task member) same
    · exact valid.fresh later bound event eventMember

/-- An inductive invariant survives every step. -/
theorem Preserved.step (preserved : D.Inductive Inv)
    {state after : State M} {action : Action M}
    (valid : D.Valid state) (held : Inv state.world state.trace)
    (stepped : state.step action = some after) :
    D.Valid after ∧ Inv after.world after.trace := by
  cases action with
  | start call => exact start_sound preserved call valid held after stepped
  | advance id answer => exact advance_sound preserved valid held stepped
  | abort id => exact abort_sound preserved valid held stepped
  | move change =>
      obtain ⟨world, changed, rfl⟩ := Option.map_eq_some_iff.mp stepped
      refine ⟨⟨valid.running, ?_, ?_, ?_⟩, preserved.moved changed trivial held⟩
      · intro task member
        exact List.mem_cons_of_mem _ (valid.started task member)
      · intro task member
        simpa [historyOf, D.environment_setting changed] using
          valid.follows task member
      · intro later bound event member
        rcases List.mem_cons.mp member with rfl | member
        · exact id
        · exact valid.fresh later bound event member
  | restart change =>
      obtain ⟨world, changed, rfl⟩ := Option.map_eq_some_iff.mp stepped
      refine ⟨⟨?_, ?_, ?_, ?_⟩, preserved.restarted changed trivial held⟩
      · simp
      · simp
      · simp
      · intro later bound event member
        rcases List.mem_cons.mp member with rfl | member
        · exact id
        · exact valid.fresh later bound event member

/-- Everything that one step can do to the world and add to the trace, with what
the discipline guarantees about it. -/
inductive StepCase (D : Discipline M) (state : State M) :
    M.World → List (Event M) → Prop
  | started (task : Nat) (call : M.Call) :
      StepCase D state state.world (.started task call :: state.trace)
  | answered {task : Nat} {call : M.Call} {result : Except M.Err (M.Result call)}
      (returns : D.returns (M.setting state.world) call [] result) :
      StepCase D state (M.finish task state.world)
        (.returned task call result :: .started task call :: state.trace)
  | performed {task : Nat} {call : M.Call} {op : M.Op} {answer : M.Answer}
      {response : M.Resp op} {world : M.World} (running : Running task state.trace)
      (started : .started task call ∈ state.trace)
      (allowed : D.allowed (M.setting state.world) call (historyOf task state.trace) op)
      (executed : M.execute task op answer state.world = some (response, world)) :
      StepCase D state world (.performed task op response :: state.trace)
  | returned {task : Nat} {call : M.Call} {op : M.Op} {answer : M.Answer}
      {response : M.Resp op} {world : M.World} {result : Except M.Err (M.Result call)}
      (running : Running task state.trace) (started : .started task call ∈ state.trace)
      (allowed : D.allowed (M.setting state.world) call (historyOf task state.trace) op)
      (executed : M.execute task op answer state.world = some (response, world))
      (returns : D.returns (M.setting state.world) call
        (⟨op, response⟩ :: historyOf task state.trace) result) :
      StepCase D state (M.finish task world)
        (.returned task call result :: .performed task op response :: state.trace)
  | aborted (task : Nat) :
      StepCase D state (M.finish task state.world) (.aborted task :: state.trace)
  | moved {change : M.Environment} {world : M.World}
      (changed : M.environment change state.world = some world) :
      StepCase D state world (.moved change :: state.trace)
  | restarted {change : M.Restart} {world : M.World}
      (changed : M.restart change state.world = some world) :
      StepCase D state world (.restarted change :: state.trace)

/-- A step that returns has either started the task or given it its last
response. -/
theorem StepCase.of_returned {state : State M} {world : M.World} {trace rest : List (Event M)}
    (stepCase : StepCase D state world trace) {task : Nat} {call : M.Call}
    {result : Except M.Err (M.Result call)} (new : trace = .returned task call result :: rest) :
    D.returns (M.setting state.world) call [] result ∨
      ∃ op answer response middle, rest = .performed task op response :: state.trace ∧
        world = M.finish task middle ∧ Running task state.trace ∧
        .started task call ∈ state.trace ∧
        D.allowed (M.setting state.world) call (historyOf task state.trace) op ∧
        M.execute task op answer state.world = some (response, middle) ∧
        D.returns (M.setting state.world) call
          (⟨op, response⟩ :: historyOf task state.trace) result := by
  cases stepCase with
  | answered returns =>
      cases new
      exact Or.inl returns
  | returned running started allowed executed returns =>
      cases new
      exact Or.inr ⟨_, _, _, _, rfl, rfl, running, started, allowed, executed, returns⟩
  | _ => cases new

/-- A step adds to the trace what it counts, at most one event of a kind that
only returns belong to. -/
theorem StepCase.countP {state : State M} {world : M.World} {trace : List (Event M)}
    (stepCase : StepCase D state world trace) {kind : Event M → Bool}
    (onlyReturns : ∀ event, kind event = true → ∃ task call result,
      event = .returned task call result) :
    trace.countP kind = state.trace.countP kind ∨
      trace.countP kind = state.trace.countP kind + 1 ∧
        ∃ event rest, trace = event :: rest ∧ kind event = true := by
  have other : ∀ event : Event M, (∀ task call result, event ≠ .returned task call result) →
      kind event = false := by
    intro event different
    by_contra counted
    obtain ⟨task, call, result, same⟩ := onlyReturns event (by simpa using counted)
    exact different task call result same
  cases stepCase with
  | answered returns =>
      rename_i task call result
      cases counted : kind (.returned task call result) with
      | false => simp [counted, other (.started task call)]
      | true =>
          refine Or.inr ⟨?_, _, _, rfl, counted⟩
          simp [counted, other (.started task call)]
  | returned running started allowed executed returns =>
      rename_i task call op answer response middle result
      cases counted : kind (.returned task call result) with
      | false => simp [counted, other (.performed task op response)]
      | true =>
          refine Or.inr ⟨?_, _, _, rfl, counted⟩
          simp [counted, other (.performed task op response)]
  | _ => exact Or.inl (by simp [other])

private theorem start_case {state : State M} (call : M.Call) :
    ∀ after, state.step (.start call) = some after →
      StepCase D state after.world after.trace := by
  intro after stepped
  cases Option.some.inj stepped
  have follows := D.follows (M.setting state.world) call
  unfold State.resume
  split
  · rename_i value same
    rw [show M.program (M.setting state.world) call = .ret value from same] at follows
    exact .answered follows
  · rename_i error same
    rw [show M.program (M.setting state.world) call = .fail error from same] at follows
    exact .answered follows
  · exact .started _ _

private theorem advance_case {state after : State M} {id : Nat} {answer : M.Answer}
    (valid : D.Valid state) (stepped : state.step (.advance id answer) = some after) :
    StepCase D state after.world after.trace := by
  obtain ⟨call, op, next, response, world, member, executed, rfl⟩ := State.step_advance stepped
  have running : Running id state.trace := valid.running _ member
  have started : .started id call ∈ state.trace := valid.started _ member
  have follows := valid.follows _ member
  have resumed := follows.2 response
  unfold State.resume
  split
  · rename_i value same
    rw [show next response = .ret value from same] at resumed
    exact .returned running started follows.1 executed resumed
  · rename_i error same
    rw [show next response = .fail error from same] at resumed
    exact .returned running started follows.1 executed resumed
  · exact .performed running started follows.1 executed

/-- A step of a valid state is one of the cases. -/
theorem Valid.step_case {state after : State M} {action : Action M} (valid : D.Valid state)
    (stepped : state.step action = some after) : StepCase D state after.world after.trace := by
  cases action with
  | start call => exact start_case call after stepped
  | advance id answer => exact advance_case valid stepped
  | abort id =>
      obtain ⟨_, _, _, rfl⟩ := State.step_abort stepped
      exact .aborted id
  | move change =>
      obtain ⟨world, changed, rfl⟩ := Option.map_eq_some_iff.mp stepped
      exact .moved changed
  | restart change =>
      obtain ⟨world, changed, rfl⟩ := Option.map_eq_some_iff.mp stepped
      exact .restarted changed

/-- An inductive invariant holds in every state of every run from a valid
state. -/
theorem Preserved.reaches (preserved : D.Inductive Inv)
    {state last : State M} (valid : D.Valid state)
    (held : Inv state.world state.trace) (run : state.Reaches last) :
    D.Valid last ∧ Inv last.world last.trace := by
  induction run with
  | refl => exact ⟨valid, held⟩
  | tail _ stepped ih =>
      obtain ⟨action, stepped⟩ := stepped
      exact preserved.step ih.1 ih.2 stepped

/-- An inductive invariant of the first world holds throughout the run. -/
theorem Preserved.holds (preserved : D.Inductive Inv) {world : M.World}
    (initially : Inv world []) {last : State M}
    (run : (State.initial M world).Reaches last) :
    Inv last.world last.trace :=
  (preserved.reaches (D.valid_initial world) initially run).2

end Steps

end Discipline

end Interleaving
