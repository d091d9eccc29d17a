import ZkApi.TaskInterleaving

/-!
# Tasks that run alone

A task that nothing interrupts is a sequential program: it performs its
operations one after the other on the world, with the answers that the outside
gives.  Such a run is one of the runs of the machine.
-/

namespace Interleaving

variable {M : Machine}

/-- The answer that the outside gives to each operation. -/
abbrev Answers (M : Machine) := M.Op → M.Answer

namespace Program

/-- Run a program of a task to its end with nothing in between. -/
def alone {α : Type} (answers : Answers M) (task : Nat) :
    Program M.Op M.Resp M.Err α → M.World → Option (Except M.Err α × M.World)
  | .ret value, world => some (.ok value, world)
  | .fail error, world => some (.error error, world)
  | .perform op resume, world =>
      (M.execute task op (answers op) world).bind fun reached =>
        (resume reached.1).alone answers task reached.2

variable {α β : Type} {answers : Answers M} {task : Nat} {world middle : M.World}

theorem alone_perform {op : M.Op} {resume : M.Resp op → Program M.Op M.Resp M.Err α}
    {response : M.Resp op}
    (executed : M.execute task op (answers op) world = some (response, middle)) :
    (Program.perform op resume).alone answers task world =
      (resume response).alone answers task middle := by
  rw [alone, executed]
  rfl

theorem alone_bind_ok {program : Program M.Op M.Resp M.Err α} {value : α}
    (next : α → Program M.Op M.Resp M.Err β)
    (done : program.alone answers task world = some (.ok value, middle)) :
    (program >>= next).alone answers task world =
      (next value).alone answers task middle := by
  induction program generalizing world with
  | ret found =>
      cases Option.some.inj done
      rfl
  | fail error => cases done
  | perform op resume ih =>
      obtain ⟨reached, executed, rest⟩ := Option.bind_eq_some_iff.mp done
      change (Program.perform op fun response => resume response >>= next).alone answers task
        world = _
      rw [alone_perform executed]
      exact ih reached.1 rest

theorem alone_bind_error {program : Program M.Op M.Resp M.Err α} {error : M.Err}
    (next : α → Program M.Op M.Resp M.Err β)
    (failed : program.alone answers task world = some (.error error, middle)) :
    (program >>= next).alone answers task world = some (.error error, middle) := by
  induction program generalizing world with
  | ret found => cases failed
  | fail found =>
      cases Option.some.inj failed
      rfl
  | perform op resume ih =>
      obtain ⟨reached, executed, rest⟩ := Option.bind_eq_some_iff.mp failed
      change (Program.perform op fun response => resume response >>= next).alone answers task
        world = _
      rw [alone_perform executed]
      exact ih reached.1 rest

/-- A program that goes on with another one ends with an error of the first, or with
what the second one ends with. -/
theorem alone_bind_cases {program : Program M.Op M.Resp M.Err α}
    {next : α → Program M.Op M.Resp M.Err β} {result : Except M.Err β}
    (done : (program >>= next).alone answers task world = some (result, middle)) :
    (∃ error, program.alone answers task world = some (.error error, middle) ∧
        result = .error error) ∨
      ∃ value reached, program.alone answers task world = some (.ok value, reached) ∧
        (next value).alone answers task reached = some (result, middle) := by
  induction program generalizing world with
  | ret value => exact Or.inr ⟨value, world, rfl, done⟩
  | fail error =>
      cases Option.some.inj done
      exact Or.inl ⟨error, rfl, rfl⟩
  | perform op resume ih =>
      obtain ⟨⟨response, reached⟩, executed, rest⟩ := Option.bind_eq_some_iff.mp done
      rw [alone_perform executed]
      exact ih response rest

/-- A program that begins with an operation performs it and goes on with the rest. -/
theorem alone_call_bind {op : M.Op} {next : M.Resp op → Program M.Op M.Resp M.Err β}
    {result : Except M.Err β}
    (done : ((call op : Program M.Op M.Resp M.Err (M.Resp op)) >>= next).alone answers task world =
      some (result, middle)) :
    ∃ response reached, M.execute task op (answers op) world = some (response, reached) ∧
      (next response).alone answers task reached = some (result, middle) := by
  obtain ⟨⟨response, reached⟩, executed, rest⟩ := Option.bind_eq_some_iff.mp done
  exact ⟨response, reached, executed, rest⟩

theorem alone_call {op : M.Op} {response : M.Resp op}
    (executed : M.execute task op (answers op) world = some (response, middle)) :
    (call op : Program M.Op M.Resp M.Err (M.Resp op)).alone answers task world =
      some (.ok response, middle) :=
  alone_perform executed

end Program

namespace State

/-- A task that runs alone leads to its result in some run of the machine. -/
private theorem reaches_of_alone_task {answers : Answers M} {id : Nat} {call : M.Call}
    (program : Program M.Op M.Resp M.Err (M.Result call)) (state : State M)
    {result : Except M.Err (M.Result call)} {world : M.World}
    (done : program.alone answers id state.world = some (result, world)) :
    ∃ last, (state.resume ⟨id, call, program⟩).Reaches last ∧
      last.world = M.finish id world ∧
      ∃ earlier, last.trace = .returned id call result :: earlier := by
  induction program generalizing state with
  | ret value =>
      cases Option.some.inj done
      exact ⟨_, Relation.ReflTransGen.refl, rfl, _, rfl⟩
  | fail error =>
      cases Option.some.inj done
      exact ⟨_, Relation.ReflTransGen.refl, rfl, _, rfl⟩
  | perform op next ih =>
      obtain ⟨⟨response, middle⟩, executed, rest⟩ := Option.bind_eq_some_iff.mp done
      have started : state.resume ⟨id, call, .perform op next⟩ =
          { state with tasks := ⟨id, call, .perform op next⟩ :: state.tasks } := rfl
      obtain ⟨last, reaches, ended⟩ := ih response
        (State.afterResponse { state with tasks := ⟨id, call, .perform op next⟩ :: state.tasks }
          ⟨id, call, .perform op next⟩ middle op response) rest
      refine ⟨last, ?_, ended⟩
      rw [started]
      refine Relation.ReflTransGen.head ⟨.advance id (answers op), ?_⟩ reaches
      simp [step, executed]

/-- The result of a call that nothing interrupts, and the world after it. -/
def callAlone (state : State M) (answers : Answers M) (call : M.Call) :
    Option (Except M.Err (M.Result call) × M.World) :=
  ((M.program (M.setting state.world) call).alone answers state.next state.world).map
    fun reached => (reached.1, M.finish state.next reached.2)

variable {answers : Answers M} {state : State M} {call : M.Call}
  {result : Except M.Err (M.Result call)} {world : M.World}

theorem callAlone_eq (done : (M.program (M.setting state.world) call).alone answers state.next
    state.world = some (result, world)) :
    state.callAlone answers call = some (result, M.finish state.next world) := by
  rw [callAlone, done]
  rfl

theorem reaches_of_callAlone (done : state.callAlone answers call = some (result, world)) :
    ∃ last, state.Reaches last ∧ last.world = world ∧
      ∃ earlier, last.trace = .returned state.next call result :: earlier := by
  obtain ⟨⟨ended, reached⟩, alone, same⟩ := Option.map_eq_some_iff.mp done
  cases same
  obtain ⟨last, reaches, ends⟩ := reaches_of_alone_task
    (M.program (M.setting state.world) call)
    { state with
      trace := .started state.next call :: state.trace
      next := state.next + 1 } alone
  exact ⟨last, Relation.ReflTransGen.head ⟨.start call, rfl⟩ reaches, ends⟩

end State

end Interleaving
