import Mathlib.Data.List.Infix

/-!
# Resumption programs

One task of an interleaved system is a tree: it returns a value, fails with an
error, or performs one operation on the shared world and resumes with the
response.  The tree fixes the order in which a task performs its operations
but says nothing about what the rest of the system does in between.

`Program.Follows` states which operations a program may perform after which
responses of its own.  It mentions no shared state, so it survives every
interleaving.
-/

namespace Interleaving

/-- A sequential program over operations `Op` with responses `Resp`. -/
inductive Program (Op : Type) (Resp : Op → Type) (Err α : Type) where
  | ret (value : α)
  | fail (error : Err)
  | perform (op : Op) (next : Resp op → Program Op Resp Err α)

/-- The operations one task has performed, newest first, each with the
response it received. -/
abbrev History {Op : Type} (Resp : Op → Type) := List ((op : Op) × Resp op)

/-- A task has performed an operation and received this response. -/
def Saw {Op : Type} {Resp : Op → Type} (history : History Resp)
    (op : Op) (response : Resp op) : Prop :=
  (⟨op, response⟩ : (op : Op) × Resp op) ∈ history

section Saw

variable {Op : Type} {Resp : Op → Type} {history later : History Resp}

@[simp]
theorem saw_cons {op : Op} {response : Resp op}
    {entry : (op : Op) × Resp op} :
    Saw (entry :: history) op response ↔
      ⟨op, response⟩ = entry ∨ Saw history op response := by
  simp [Saw]

theorem Saw.mono {op : Op} {response : Resp op}
    (saw : Saw history op response) (grows : history <:+ later) :
    Saw later op response :=
  grows.subset saw

end Saw

namespace Program

variable {Op : Type} {Resp : Op → Type} {Err α β : Type}

protected def bind : Program Op Resp Err α →
    (α → Program Op Resp Err β) → Program Op Resp Err β
  | .ret value, next => next value
  | .fail error, _ => .fail error
  | .perform op resume, next => .perform op fun response =>
      (resume response).bind next

instance : Monad (Program Op Resp Err) where
  pure := .ret
  bind := Program.bind

/-- Perform one operation and return its response. -/
def call (op : Op) : Program Op Resp Err (Resp op) :=
  .perform op .ret

/-- Continue with the value of a computation that may already have failed. -/
def lift : Except Err α → Program Op Resp Err α
  | .ok value => .ret value
  | .error error => .fail error

/-- Fail with `error` unless the condition holds. -/
def require (condition : Prop) [Decidable condition] (error : Err) :
    Program Op Resp Err Unit :=
  if condition then .ret () else .fail error

/-- Run a program and return its failure as a value. -/
def attempt : Program Op Resp Err α → Program Op Resp Err (Except Err α)
  | .ret value => .ret (.ok value)
  | .fail error => .ret (.error error)
  | .perform op resume => .perform op fun response =>
      (resume response).attempt

/-- Run a program once for every element of a list. -/
def forEach : List β → (β → Program Op Resp Err Unit) →
    Program Op Resp Err Unit
  | [], _ => .ret ()
  | item :: items, body => do
      body item
      forEach items body

/-- The program still has an operation to perform. -/
def Active : Program Op Resp Err α → Prop
  | .perform _ _ => True
  | _ => False

/-- Every operation is `allowed` after the history at which it is performed,
and the program ends in an allowed way: a returned value satisfies `returns`
and an error satisfies `fails`. -/
def Follows (allowed : History Resp → Op → Prop)
    (returns : History Resp → α → Prop)
    (fails : History Resp → Err → Prop) :
    History Resp → Program Op Resp Err α → Prop
  | history, .ret value => returns history value
  | history, .fail error => fails history error
  | history, .perform op resume =>
      allowed history op ∧ ∀ response,
        (resume response).Follows allowed returns fails
          (⟨op, response⟩ :: history)

variable {allowed : History Resp → Op → Prop}
variable {returns returns' : History Resp → α → Prop}
variable {fails fails' : History Resp → Err → Prop}
variable {history : History Resp}

@[simp]
theorem follows_ret (value : α) :
    Follows allowed returns fails history
        (.ret value : Program Op Resp Err α) ↔ returns history value :=
  Iff.rfl

@[simp]
theorem follows_pure (value : α) :
    Follows allowed returns fails history
        (pure value : Program Op Resp Err α) ↔ returns history value :=
  Iff.rfl

@[simp]
theorem follows_fail (error : Err) :
    Follows allowed returns fails history
        (.fail error : Program Op Resp Err α) ↔ fails history error :=
  Iff.rfl

@[simp]
theorem follows_call (op : Op) {returns : History Resp → Resp op → Prop} :
    Follows allowed returns fails history (call op) ↔
      allowed history op ∧
        ∀ response, returns (⟨op, response⟩ :: history) response :=
  Iff.rfl

@[simp]
theorem follows_lift (result : Except Err α) :
    Follows allowed returns fails history
        (lift result : Program Op Resp Err α) ↔
      (∀ value, result = .ok value → returns history value) ∧
        ∀ error, result = .error error → fails history error := by
  cases result <;> simp [lift]

@[simp]
theorem follows_require (condition : Prop) [Decidable condition]
    (error : Err) {returns : History Resp → Unit → Prop} :
    Follows allowed returns fails history
        (require condition error : Program Op Resp Err Unit) ↔
      (condition → returns history ()) ∧ (¬ condition → fails history error) := by
  unfold require
  split <;> simp_all

@[simp]
theorem follows_bind (program : Program Op Resp Err α)
    (next : α → Program Op Resp Err β)
    {returns : History Resp → β → Prop} :
    Follows allowed returns fails history (program >>= next) ↔
      Follows allowed
        (fun reached value => (next value).Follows allowed returns fails reached)
        fails history program := by
  induction program generalizing history with
  | ret value => exact Iff.rfl
  | fail error => exact Iff.rfl
  | perform op resume ih =>
      change (allowed history op ∧ ∀ response,
        Follows allowed returns fails _ (resume response >>= next)) ↔ _
      simp only [ih]
      rfl

/-- One operation, and then the rest. -/
theorem follows_call_bind (op : Op) (next : Resp op → Program Op Resp Err β)
    {returns : History Resp → β → Prop} :
    Follows allowed returns fails history (call op >>= next) ↔
      allowed history op ∧ ∀ response,
        (next response).Follows allowed returns fails (⟨op, response⟩ :: history) :=
  Iff.rfl

@[simp]
theorem follows_attempt (program : Program Op Resp Err α)
    {returns : History Resp → Except Err α → Prop} :
    Follows allowed returns fails history program.attempt ↔
      Follows allowed (fun reached value => returns reached (.ok value))
        (fun reached error => returns reached (.error error))
        history program := by
  induction program generalizing history with
  | ret value => exact Iff.rfl
  | fail error => exact Iff.rfl
  | perform op resume ih =>
      change (allowed history op ∧ ∀ response,
        Follows allowed returns fails _ (resume response).attempt) ↔ _
      simp only [ih]
      rfl

/-- Weaken the postconditions; what the program has performed only grows. -/
theorem Follows.weaken {program : Program Op Resp Err α}
    (follows : program.Follows allowed returns fails history)
    (returnsWeaker : ∀ reached value, history <:+ reached →
      returns reached value → returns' reached value)
    (failsWeaker : ∀ reached error, history <:+ reached →
      fails reached error → fails' reached error) :
    program.Follows allowed returns' fails' history := by
  induction program generalizing history with
  | ret value => exact returnsWeaker _ _ (List.suffix_refl _) follows
  | fail error => exact failsWeaker _ _ (List.suffix_refl _) follows
  | perform op resume ih =>
      refine ⟨follows.1, fun response => ?_⟩
      have grows := List.suffix_cons (⟨op, response⟩ : (op : Op) × Resp op) history
      exact ih response (follows.2 response)
        (fun reached value suffix => returnsWeaker reached value (grows.trans suffix))
        (fun reached error suffix => failsWeaker reached error (grows.trans suffix))

/-- A program that follows two rules follows both at once. -/
theorem Follows.and {allowed' : History Resp → Op → Prop} {program : Program Op Resp Err α}
    (first : program.Follows allowed returns fails history)
    (second : program.Follows allowed' returns' fails' history) :
    program.Follows (fun reached op => allowed reached op ∧ allowed' reached op)
      (fun reached value => returns reached value ∧ returns' reached value)
      (fun reached error => fails reached error ∧ fails' reached error) history := by
  induction program generalizing history with
  | ret value => exact ⟨first, second⟩
  | fail error => exact ⟨first, second⟩
  | perform op resume ih =>
      refine ⟨⟨first.1, second.1⟩, fun response => ?_⟩
      exact ih response (first.2 response) (second.2 response)

/-- Every operation that the program can perform is of the kind. -/
inductive Only (kind : Op → Bool) : Program Op Resp Err α → Prop
  | ret (value : α) : Only kind (.ret value)
  | fail (error : Err) : Only kind (.fail error)
  | perform {op : Op} {resume : Resp op → Program Op Resp Err α} (holds : kind op = true)
      (rest : ∀ response, Only kind (resume response)) : Only kind (.perform op resume)

section Only

variable {kind other : Op → Bool}

theorem only_call {op : Op} (holds : kind op = true) :
    (call op : Program Op Resp Err (Resp op)).Only kind :=
  .perform holds .ret

theorem only_lift (result : Except Err α) : (lift result : Program Op Resp Err α).Only kind := by
  cases result with
  | ok value => exact .ret value
  | error error => exact .fail error

theorem only_require (condition : Prop) [Decidable condition] (error : Err) :
    (require condition error : Program Op Resp Err Unit).Only kind := by
  unfold require
  split
  · exact .ret ()
  · exact .fail error

theorem Only.bind {program : Program Op Resp Err α} {next : α → Program Op Resp Err β}
    (first : program.Only kind) (rest : ∀ value, (next value).Only kind) :
    (program >>= next).Only kind := by
  induction first with
  | ret value => exact rest value
  | fail error => exact .fail error
  | perform holds _ ih => exact .perform holds ih

theorem Only.attempt {program : Program Op Resp Err α} (only : program.Only kind) :
    program.attempt.Only kind := by
  induction only with
  | ret value => exact .ret _
  | fail error => exact .ret _
  | perform holds _ ih => exact .perform holds ih

theorem Only.mono {program : Program Op Resp Err α} (only : program.Only kind)
    (more : ∀ op, kind op = true → other op = true) : program.Only other := by
  induction only with
  | ret value => exact .ret value
  | fail error => exact .fail error
  | perform holds _ ih => exact .perform (more _ holds) ih

theorem only_true (program : Program Op Resp Err α) : program.Only fun _ => true := by
  induction program with
  | ret value => exact .ret value
  | fail error => exact .fail error
  | perform op resume ih => exact .perform rfl ih

/-- A program of one kind of operations follows every rule that allows them as
long as an invariant holds that they keep. -/
theorem Only.follows {program : Program Op Resp Err α} (only : program.Only kind)
    (invariant : History Resp → Prop) (initially : invariant history)
    (each : ∀ reached op, invariant reached → kind op = true →
      allowed reached op ∧ ∀ response, invariant (⟨op, response⟩ :: reached))
    (anyValue : ∀ reached value, invariant reached → returns reached value)
    (anyError : ∀ reached error, invariant reached → fails reached error) :
    program.Follows allowed returns fails history := by
  induction only generalizing history with
  | ret value => exact anyValue history value initially
  | fail error => exact anyError history error initially
  | perform holds _ ih =>
      obtain ⟨permitted, kept⟩ := each history _ initially holds
      exact ⟨permitted, fun response => ih response (kept response)⟩

end Only

/-- A loop keeps every property of its history that each round keeps. -/
theorem follows_forEach {invariant : History Resp → Prop}
    (items : List β) (body : β → Program Op Resp Err Unit)
    (round : ∀ item ∈ items, ∀ reached, invariant reached →
      (body item).Follows allowed (fun later _ => invariant later) fails reached)
    (initially : invariant history) :
    (forEach items body).Follows allowed
      (fun later _ => invariant later) fails history := by
  induction items generalizing history with
  | nil => exact initially
  | cons item items ih =>
      change Follows _ _ _ _ (body item >>= fun _ => forEach items body)
      rw [follows_bind]
      refine (round item (by simp) history initially).weaken ?_ ?_
      · intro reached value _ kept
        exact ih (fun other member => round other (by simp [member])) kept
      · intro reached error _ failed
        exact failed

end Program

end Interleaving
