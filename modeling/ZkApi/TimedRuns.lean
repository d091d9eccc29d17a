import ZkApi.OracleRuns

/-!
# Runs of programs in time

What the world answers to an operation can depend on the moment at which it is performed.  A
timed run performs the operations of one program at moments that do not go back.  Two programs
can also run at the same time, with their operations in any order.
-/

namespace Interleaving.Program

variable {Op : Type} {Resp : Op → Type} {Err Err' α β : Type}

section Errors

/-- Change what a program fails with. -/
def mapError (change : Err → Err') : Program Op Resp Err α → Program Op Resp Err' α
  | .ret value => .ret value
  | .fail error => .fail (change error)
  | .perform op resume => .perform op fun response => (resume response).mapError change

@[simp]
theorem follows_mapError {allowed : History Resp → Op → Prop} {returns : History Resp → α → Prop}
    {fails : History Resp → Err' → Prop} {history : History Resp} (change : Err → Err')
    (program : Program Op Resp Err α) :
    Follows allowed returns fails history (program.mapError change) ↔
      Follows allowed returns (fun reached error => fails reached (change error)) history
        program := by
  induction program generalizing history with
  | ret value => exact Iff.rfl
  | fail error => exact Iff.rfl
  | perform op resume ih =>
      change (allowed history op ∧ ∀ response,
        Follows allowed returns fails _ ((resume response).mapError change)) ↔ _
      simp only [ih]
      rfl

end Errors

section Together

/-- Run two programs at the same time.  As long as the schedule lasts, it tells which of them
goes on.  The first failure is the failure of both. -/
def both : List Bool → Program Op Resp Err α → Program Op Resp Err β →
    Program Op Resp Err (α × β)
  | true :: schedule, .perform op resume, second =>
      .perform op fun response => both schedule (resume response) second
  | false :: schedule, first, .perform op resume =>
      .perform op fun response => both schedule first (resume response)
  | _, first, second => do
      let one ← first
      let other ← second
      return (one, other)

end Together

section Sequence

theorem both_eq {schedule : List Bool} {first : Program Op Resp Err α}
    {second : Program Op Resp Err β}
    (notFirst : ∀ rest op resume, schedule = true :: rest → first = .perform op resume → False)
    (notSecond : ∀ rest op resume, schedule = false :: rest → second = .perform op resume →
      False) :
    both schedule first second = (do
      let one ← first
      let other ← second
      return (one, other)) := by
  unfold both
  split
  · exact (notFirst _ _ _ rfl rfl).elim
  · exact (notSecond _ _ _ rfl rfl).elim
  · rfl

end Sequence

section Times

/-- A run of a program from one moment to another, with its result. -/
inductive Takes (answers : Nat → (op : Op) → Resp op → Prop) :
    Nat → Program Op Resp Err α → Except Err α → Nat → Prop
  | ret {now : Nat} (value : α) : Takes answers now (.ret value) (.ok value) now
  | fail {now : Nat} (error : Err) : Takes answers now (.fail error) (.error error) now
  | perform {now time later : Nat} {op : Op} {response : Resp op}
      {resume : Resp op → Program Op Resp Err α} {result : Except Err α} (waits : now ≤ time)
      (answered : answers time op response)
      (rest : Takes answers time (resume response) result later) :
      Takes answers now (.perform op resume) result later

variable {answers : Nat → (op : Op) → Resp op → Prop} {now later : Nat}

theorem Takes.le {program : Program Op Resp Err α} {result : Except Err α}
    (takes : Takes answers now program result later) : now ≤ later := by
  induction takes with
  | ret value => exact le_rfl
  | fail error => exact le_rfl
  | perform waits _ _ ih => exact waits.trans ih

@[simp]
theorem takes_pure {value : α} {result : Except Err α} :
    Takes answers now (pure value : Program Op Resp Err α) result later ↔
      result = .ok value ∧ later = now := by
  constructor
  · intro takes
    cases takes with
    | ret value => exact ⟨rfl, rfl⟩
  · rintro ⟨rfl, rfl⟩
    exact .ret value

@[simp]
theorem takes_fail {error : Err} {result : Except Err α} :
    Takes answers now (.fail error : Program Op Resp Err α) result later ↔
      result = .error error ∧ later = now := by
  constructor
  · intro takes
    cases takes with
    | fail error => exact ⟨rfl, rfl⟩
  · rintro ⟨rfl, rfl⟩
    exact .fail error

@[simp]
theorem takes_call {op : Op} {result : Except Err (Resp op)} :
    Takes answers now (call op : Program Op Resp Err (Resp op)) result later ↔
      now ≤ later ∧ ∃ response, answers later op response ∧ result = .ok response := by
  constructor
  · intro takes
    cases takes with
    | perform waits answered rest =>
        cases rest
        exact ⟨waits, _, answered, rfl⟩
  · rintro ⟨waits, response, answered, rfl⟩
    exact .perform waits answered (.ret response)

/-- A sequence fails with its first part or goes on with its value. -/
@[simp]
theorem takes_bind (program : Program Op Resp Err α) (next : α → Program Op Resp Err β)
    {result : Except Err β} :
    Takes answers now (program >>= next) result later ↔
      (∃ value middle, Takes answers now program (.ok value) middle ∧
        Takes answers middle (next value) result later) ∨
      ∃ error, result = .error error ∧ Takes answers now program (.error error) later := by
  induction program generalizing now with
  | ret value =>
      constructor
      · exact fun takes => .inl ⟨value, now, .ret value, takes⟩
      · rintro (⟨_, _, first, second⟩ | ⟨_, _, first⟩)
        · cases first
          exact second
        · cases first
  | fail error =>
      constructor
      · intro takes
        change Takes answers now (.fail error) result later at takes
        cases takes
        exact .inr ⟨error, rfl, .fail error⟩
      · rintro (⟨_, _, first, _⟩ | ⟨_, rfl, first⟩)
        · cases first
        · cases first
          exact .fail error
  | perform op resume ih =>
      constructor
      · intro takes
        change Takes answers now (.perform op fun response => resume response >>= next) result later
          at takes
        cases takes with
        | perform waits answered rest =>
            rcases (ih _).mp rest with ⟨value, middle, first, second⟩ | ⟨error, same, first⟩
            · exact .inl ⟨value, middle, .perform waits answered first, second⟩
            · exact .inr ⟨error, same, .perform waits answered first⟩
      · rintro (⟨value, middle, first, second⟩ | ⟨error, same, first⟩)
        · cases first with
          | perform waits answered rest =>
              exact .perform waits answered ((ih _).mpr (.inl ⟨value, middle, rest, second⟩))
        · cases first with
          | perform waits answered rest =>
              exact .perform waits answered ((ih _).mpr (.inr ⟨error, same, rest⟩))

/-- The two parts of a sequence that returns. -/
theorem takes_seq {program : Program Op Resp Err α} {next : α → Program Op Resp Err β} {value : β}
    (takes : Takes answers now (program >>= next) (.ok value) later) :
    ∃ between middle, Takes answers now program (.ok between) middle ∧
      Takes answers middle (next between) (.ok value) later := by
  rcases (takes_bind _ _).mp takes with found | ⟨_, impossible, _⟩
  · exact found
  · cases impossible

@[simp]
theorem takes_attempt (program : Program Op Resp Err α) {result : Except Err (Except Err α)} :
    Takes answers now program.attempt result later ↔
      ∃ inner, result = .ok inner ∧ Takes answers now program inner later := by
  induction program generalizing now with
  | ret value =>
      constructor
      · intro takes
        cases takes with
        | ret inner => exact ⟨_, rfl, .ret value⟩
      · rintro ⟨_, rfl, first⟩
        cases first
        exact .ret _
  | fail error =>
      constructor
      · intro takes
        cases takes with
        | ret inner => exact ⟨_, rfl, .fail error⟩
      · rintro ⟨_, rfl, first⟩
        cases first
        exact .ret _
  | perform op resume ih =>
      constructor
      · intro takes
        cases takes with
        | perform waits answered rest =>
            obtain ⟨inner, same, first⟩ := (ih _).mp rest
            exact ⟨inner, same, .perform waits answered first⟩
      · rintro ⟨inner, same, first⟩
        cases first with
        | perform waits answered rest =>
            exact .perform waits answered ((ih _).mpr ⟨inner, same, rest⟩)

/-- A run that could have begun before. -/
theorem Takes.earlier {program : Program Op Resp Err α} {result : Except Err α} {before : Nat}
    (takes : Takes answers now program result later) (le : before ≤ now) :
    ∃ ends ≤ later, Takes answers before program result ends := by
  cases takes with
  | ret value => exact ⟨before, le, .ret value⟩
  | fail error => exact ⟨before, le, .fail error⟩
  | perform waits answered rest => exact ⟨later, le_rfl, .perform (le.trans waits) answered rest⟩

/-- An oracle that answers as the world does at one moment gives a run at that moment. -/
theorem takes_answered {oracle : Oracle Resp}
    (honest : ∀ performed op, answers now op (oracle performed op)) (program : Program Op Resp Err α)
    (performed : List Op) :
    Takes answers now program (program.answered oracle performed).1 now := by
  induction program generalizing performed with
  | ret value => exact .ret value
  | fail error => exact .fail error
  | perform op resume ih =>
      exact .perform le_rfl (honest performed op) (ih _ (performed ++ [op]))

/-- Each of two programs that ran at the same time has run by itself. -/
theorem Takes.of_both {schedule : List Bool} {first : Program Op Resp Err α}
    {second : Program Op Resp Err β} {one : α} {other : β}
    (takes : Takes answers now (both schedule first second) (.ok (one, other)) later) :
    (∃ ends ≤ later, Takes answers now first (.ok one) ends) ∧
      ∃ ends ≤ later, Takes answers now second (.ok other) ends := by
  induction schedule, first, second using both.induct generalizing now with
  | case1 schedule op resume second ih =>
      rw [both] at takes
      cases takes with
      | perform waits answered rest =>
          obtain ⟨⟨ends, le, firstRun⟩, laterEnds, laterLe, secondRun⟩ := ih _ rest
          refine ⟨⟨ends, le, .perform waits answered firstRun⟩, ?_⟩
          obtain ⟨secondEnds, secondLe, secondRun⟩ := secondRun.earlier waits
          exact ⟨secondEnds, secondLe.trans laterLe, secondRun⟩
  | case2 schedule first op resume ih =>
      rw [both] at takes
      cases takes with
      | perform waits answered rest =>
          obtain ⟨⟨ends, le, firstRun⟩, laterEnds, laterLe, secondRun⟩ := ih _ rest
          obtain ⟨firstEnds, firstLe, firstRun⟩ := firstRun.earlier waits
          exact ⟨⟨firstEnds, firstLe.trans le, firstRun⟩, laterEnds, laterLe,
            .perform waits answered secondRun⟩
  | case3 schedule first second notFirst notSecond =>
      rw [both_eq notFirst notSecond] at takes
      simp only [takes_bind, takes_pure, reduceCtorEq, false_and, exists_false, or_false,
        Except.ok.injEq, Prod.mk.injEq] at takes
      obtain ⟨_, middle, firstRun, _, _, secondRun, ⟨rfl, rfl⟩, rfl⟩ := takes
      refine ⟨⟨middle, secondRun.le, firstRun⟩, ?_⟩
      exact secondRun.earlier firstRun.le

end Times

section Safety

variable {answers : Nat → (op : Op) → Resp op → Prop} {allowed : Nat → Op → Prop}

/-- In every timed run each operation is allowed at the moment when it is performed, and the
program ends in an allowed way. -/
def Safely (answers : Nat → (op : Op) → Resp op → Prop) (allowed : Nat → Op → Prop)
    (ends : Nat → Except Err α → Prop) : Nat → Program Op Resp Err α → Prop
  | now, .ret value => ends now (.ok value)
  | now, .fail error => ends now (.error error)
  | now, .perform op resume => ∀ time, now ≤ time → allowed time op ∧
      ∀ response, answers time op response → (resume response).Safely answers allowed ends time

@[simp]
theorem safely_pure {ends : Nat → Except Err α → Prop} {now : Nat} (value : α) :
    Safely answers allowed ends now (pure value : Program Op Resp Err α) ↔ ends now (.ok value) :=
  Iff.rfl

@[simp]
theorem safely_fail {ends : Nat → Except Err α → Prop} {now : Nat} (error : Err) :
    Safely answers allowed ends now (.fail error : Program Op Resp Err α) ↔
      ends now (.error error) :=
  Iff.rfl

theorem safely_call {op : Op} {ends : Nat → Except Err (Resp op) → Prop} {now : Nat} :
    Safely answers allowed ends now (call op : Program Op Resp Err (Resp op)) ↔
      ∀ time, now ≤ time → allowed time op ∧
        ∀ response, answers time op response → ends time (.ok response) :=
  Iff.rfl

theorem safely_bind (program : Program Op Resp Err α) (next : α → Program Op Resp Err β)
    {ends : Nat → Except Err β → Prop} {now : Nat} :
    Safely answers allowed ends now (program >>= next) ↔
      Safely answers allowed (fun time result => match result with
        | .ok value => Safely answers allowed ends time (next value)
        | .error error => ends time (.error error)) now program := by
  induction program generalizing now with
  | ret value => exact Iff.rfl
  | fail error => exact Iff.rfl
  | perform op resume ih =>
      change (∀ time, now ≤ time → allowed time op ∧ ∀ response, answers time op response →
        Safely answers allowed ends time (resume response >>= next)) ↔ _
      simp only [ih]
      rfl

/-- A program whose operations are always allowed is judged by its runs. -/
theorem safely_of_takes {program : Program Op Resp Err α} {kind : Op → Bool}
    {ends : Nat → Except Err α → Prop} {now : Nat} (only : program.Only kind)
    (free : ∀ time op, kind op = true → allowed time op)
    (ended : ∀ result later, Takes answers now program result later → ends later result) :
    Safely answers allowed ends now program := by
  induction only generalizing now with
  | ret value => exact ended _ _ (.ret value)
  | fail error => exact ended _ _ (.fail error)
  | perform holds _ ih =>
      intro time waits
      refine ⟨free time _ holds, fun response answered => ih response ?_⟩
      exact fun result later takes => ended result later (.perform waits answered takes)

/-- A program of operations of one kind, each allowed from a moment on, may run then. -/
theorem safely_of_only {program : Program Op Resp Err α} {kind : Op → Bool}
    {ends : Nat → Except Err α → Prop} {now : Nat} (only : program.Only kind)
    (free : ∀ time op, now ≤ time → kind op = true → allowed time op)
    (ended : ∀ time result, now ≤ time → ends time result) :
    Safely answers allowed ends now program := by
  induction only generalizing now with
  | ret value => exact ended now _ le_rfl
  | fail error => exact ended now _ le_rfl
  | perform holds _ ih =>
      intro time waits
      refine ⟨free time _ waits holds, fun response _ => ih response ?_ ?_⟩
      · exact fun later op after => free later op (waits.trans after)
      · exact fun later result after => ended later result (waits.trans after)

/-- What follows a program whose operations are always allowed may rest on its runs. -/
theorem safely_seq {program : Program Op Resp Err α} {next : α → Program Op Resp Err β}
    {kind : Op → Bool} {ends : Nat → Except Err β → Prop} {now : Nat} (only : program.Only kind)
    (free : ∀ time op, kind op = true → allowed time op)
    (failed : ∀ error later, Takes answers now program (.error error) later →
      ends later (.error error))
    (rest : ∀ value later, Takes answers now program (.ok value) later →
      Safely answers allowed ends later (next value)) :
    Safely answers allowed ends now (program >>= next) := by
  rw [safely_bind]
  refine safely_of_takes only free fun result later takes => ?_
  cases result with
  | ok value => exact rest value later takes
  | error error => exact failed error later takes

theorem safely_attempt (program : Program Op Resp Err α)
    {ends : Nat → Except Err (Except Err α) → Prop} {now : Nat} :
    Safely answers allowed ends now program.attempt ↔
      Safely answers allowed (fun time result => ends time (.ok result)) now program := by
  induction program generalizing now with
  | ret value => exact Iff.rfl
  | fail error => exact Iff.rfl
  | perform op resume ih =>
      change (∀ time, now ≤ time → allowed time op ∧ ∀ response, answers time op response →
        Safely answers allowed ends time (resume response).attempt) ↔ _
      simp only [ih]
      rfl

/-- What a program may do and how it may end can be weakened. -/
theorem Safely.weaken {program : Program Op Resp Err α} {ends ends' : Nat → Except Err α → Prop}
    {now : Nat} (safely : program.Safely answers allowed ends now)
    (weaker : ∀ time result, now ≤ time → ends time result → ends' time result) :
    program.Safely answers allowed ends' now := by
  induction program generalizing now with
  | ret value => exact weaker now _ le_rfl safely
  | fail error => exact weaker now _ le_rfl safely
  | perform op resume ih =>
      intro time waits
      obtain ⟨permitted, rest⟩ := safely time waits
      refine ⟨permitted, fun response answered => ih response (rest response answered) ?_⟩
      exact fun later result after => weaker later result (waits.trans after)

theorem Only.both {kind : Op → Bool} {schedule : List Bool} {first : Program Op Resp Err α}
    {second : Program Op Resp Err β} (one : first.Only kind) (other : second.Only kind) :
    (both schedule first second).Only kind := by
  induction schedule, first, second using both.induct with
  | case1 schedule op resume second ih =>
      cases one with
      | perform holds rest => exact .perform holds fun response => ih response (rest response) other
  | case2 schedule first op resume ih =>
      cases other with
      | perform holds rest => exact .perform holds fun response => ih response one (rest response)
  | case3 schedule first second notFirst notSecond =>
      rw [both_eq notFirst notSecond]
      exact one.bind fun value => other.bind fun found => .ret (value, found)

end Safety

end Interleaving.Program
