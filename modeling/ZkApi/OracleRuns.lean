import ZkApi.ResumptionProgram

/-!
# Programs against an oracle

An oracle answers each operation of a program and knows which operations came before.  Two
programs are alike if they perform the same operations whatever they are answered; what a
program ensures may rest on its answers being admissible.
-/

namespace Interleaving.Program

variable {Op : Type} {Resp : Op → Type} {Err α β : Type}

/-- What an oracle answers to an operation after others, the oldest of them first. -/
abbrev Oracle (Resp : Op → Type) := List Op → (op : Op) → Resp op

/-- Run a program to its end.  The result is accompanied by all operations performed. -/
def answered (oracle : Oracle Resp) :
    List Op → Program Op Resp Err α → Except Err α × List Op
  | performed, .ret value => (.ok value, performed)
  | performed, .fail error => (.error error, performed)
  | performed, .perform op resume =>
      (resume (oracle performed op)).answered oracle (performed ++ [op])

section Alike

/-- Both programs perform the same operations, and end together. -/
inductive Alike : Program Op Resp Err α → Program Op Resp Err β → Prop
  | ended (first : Except Err α) (second : Except Err β) : Alike (lift first) (lift second)
  | perform {op : Op} {first : Resp op → Program Op Resp Err α}
      {second : Resp op → Program Op Resp Err β}
      (rest : ∀ response, (first response).Alike (second response)) :
      Alike (.perform op first) (.perform op second)

theorem Alike.refl (program : Program Op Resp Err α) : program.Alike program := by
  induction program with
  | ret value => exact .ended (.ok value) (.ok value)
  | fail error => exact .ended (.error error) (.error error)
  | perform op resume ih => exact .perform ih

/-- The same program goes on alike. -/
theorem Alike.bind (program : Program Op Resp Err α)
    {first second : α → Program Op Resp Err β} (rest : ∀ value, (first value).Alike (second value)) :
    (program >>= first).Alike (program >>= second) := by
  induction program with
  | ret value => exact rest value
  | fail error => exact .ended (.error error) (.error error)
  | perform op resume ih => exact .perform ih

/-- Programs that are alike ask every oracle the same. -/
theorem Alike.same_operations {first : Program Op Resp Err α} {second : Program Op Resp Err β}
    (alike : first.Alike second) (oracle : Oracle Resp) (performed : List Op) :
    (first.answered oracle performed).2 = (second.answered oracle performed).2 := by
  induction alike generalizing performed with
  | ended one other => cases one <;> cases other <;> rfl
  | perform rest ih => exact ih _ _

end Alike

section Ensures

/-- As long as every answer is admissible, a returned value satisfies `returns` and an error
satisfies `fails`. -/
def Ensures (admissible : (op : Op) → Resp op → Prop) (returns : α → Prop) (fails : Err → Prop) :
    Program Op Resp Err α → Prop
  | .ret value => returns value
  | .fail error => fails error
  | .perform op resume => ∀ response, admissible op response →
      (resume response).Ensures admissible returns fails

variable {admissible : (op : Op) → Resp op → Prop} {returns returns' : α → Prop}
  {fails fails' : Err → Prop}

@[simp]
theorem ensures_pure (value : α) :
    (pure value : Program Op Resp Err α).Ensures admissible returns fails ↔ returns value :=
  Iff.rfl

@[simp]
theorem ensures_fail (error : Err) :
    (.fail error : Program Op Resp Err α).Ensures admissible returns fails ↔ fails error :=
  Iff.rfl

@[simp]
theorem ensures_call (op : Op) {returns : Resp op → Prop} :
    (call op : Program Op Resp Err (Resp op)).Ensures admissible returns fails ↔
      ∀ response, admissible op response → returns response :=
  Iff.rfl

@[simp]
theorem ensures_lift (result : Except Err α) :
    (lift result : Program Op Resp Err α).Ensures admissible returns fails ↔
      (∀ value, result = .ok value → returns value) ∧
        ∀ error, result = .error error → fails error := by
  cases result <;> simp [lift, Ensures]

@[simp]
theorem ensures_require (condition : Prop) [Decidable condition] (error : Err)
    {returns : Unit → Prop} :
    (require condition error : Program Op Resp Err Unit).Ensures admissible returns fails ↔
      (condition → returns ()) ∧ (¬ condition → fails error) := by
  unfold require
  split <;> simp_all [Ensures]

@[simp]
theorem ensures_bind (program : Program Op Resp Err α) (next : α → Program Op Resp Err β)
    {returns : β → Prop} :
    (program >>= next).Ensures admissible returns fails ↔
      program.Ensures admissible (fun value => (next value).Ensures admissible returns fails)
        fails := by
  induction program with
  | ret value => exact Iff.rfl
  | fail error => exact Iff.rfl
  | perform op resume ih =>
    change (∀ response, admissible op response →
      (resume response >>= next).Ensures admissible returns fails) ↔ _
    simp only [ih]
    rfl

@[simp]
theorem ensures_attempt (program : Program Op Resp Err α) {returns : Except Err α → Prop} :
    program.attempt.Ensures admissible returns fails ↔
      program.Ensures admissible (fun value => returns (.ok value))
        fun error => returns (.error error) := by
  induction program with
  | ret value => exact Iff.rfl
  | fail error => exact Iff.rfl
  | perform op resume ih =>
    change (∀ response, admissible op response →
      (resume response).attempt.Ensures admissible returns fails) ↔ _
    simp only [ih]
    rfl

theorem Ensures.weaken {program : Program Op Resp Err α}
    (ensures : program.Ensures admissible returns fails)
    (returnsWeaker : ∀ value, returns value → returns' value)
    (failsWeaker : ∀ error, fails error → fails' error) :
    program.Ensures admissible returns' fails' := by
  induction program with
  | ret value => exact returnsWeaker value ensures
  | fail error => exact failsWeaker error ensures
  | perform op resume ih =>
    intro response admitted
    exact ih response (ensures response admitted)

/-- What a program ensures holds of its run against an oracle with admissible answers. -/
theorem Ensures.answered {program : Program Op Resp Err α} {oracle : Oracle Resp}
    (ensures : program.Ensures admissible returns fails)
    (truthful : ∀ performed op, admissible op (oracle performed op)) {performed all : List Op}
    {value : α} (ran : program.answered oracle performed = (.ok value, all)) : returns value := by
  induction program generalizing performed with
  | ret found =>
    obtain ⟨same, -⟩ := Prod.mk.inj ran
    exact Except.ok.inj same ▸ ensures
  | fail error =>
    obtain ⟨same, -⟩ := Prod.mk.inj ran
    cases same
  | perform op resume ih =>
    exact ih _ (ensures _ (truthful performed op)) ran

end Ensures

end Interleaving.Program
