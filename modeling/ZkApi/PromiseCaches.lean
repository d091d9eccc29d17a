import Mathlib.Data.List.Basic
import Mathlib.Logic.Function.Basic

/-!
# Caches of promises

A cache remembers the promise of a computation that has begun, so that others can wait for it
too.  When a promise is rejected, the one who made it takes it out of the cache again, but only
later and only if it is still there.
-/

namespace PromiseCaches

inductive Outcome (Value : Type) where
  | pending
  | fulfilled (value : Value)
  | rejected
deriving DecidableEq

/-- A promise for an input.  It is handled when the one who made it has seen the outcome. -/
structure Promise (Input Value : Type) where
  input : Input
  outcome : Outcome Value
  handled : Bool

structure Cache (Input Key Value : Type) where
  promises : List (Promise Input Value)
  entry : Key → Option Nat

variable {Input Key Value : Type}

namespace Cache

def empty : Cache Input Key Value where
  promises := []
  entry _ := none

def get (cache : Cache Input Key Value) (id : Nat) : Option (Promise Input Value) :=
  cache.promises[id]?

/-- Replace a promise. -/
def put (cache : Cache Input Key Value) (id : Nat) (promise : Promise Input Value) :
    Cache Input Key Value :=
  { cache with promises := cache.promises.set id promise }

@[simp]
theorem put_entry (cache : Cache Input Key Value) (id : Nat) (promise : Promise Input Value) :
    (cache.put id promise).entry = cache.entry :=
  rfl

theorem get_put_self {cache : Cache Input Key Value} {id : Nat} {old promise : Promise Input Value}
    (found : cache.get id = some old) : (cache.put id promise).get id = some promise := by
  obtain ⟨within, _⟩ := List.getElem?_eq_some_iff.mp found
  exact List.getElem?_set_self within

theorem get_put_ne {cache : Cache Input Key Value} {id other : Nat} {promise : Promise Input Value}
    (different : id ≠ other) : (cache.put id promise).get other = cache.get other :=
  List.getElem?_set_ne different

variable [DecidableEq Key]

/-- Take an entry out. -/
def drop (cache : Cache Input Key Value) (key : Key) : Cache Input Key Value :=
  { cache with entry := Function.update cache.entry key none }

@[simp]
theorem get_drop (cache : Cache Input Key Value) (key : Key) (id : Nat) :
    (cache.drop key).get id = cache.get id :=
  rfl

theorem entry_drop_self (cache : Cache Input Key Value) (key : Key) :
    (cache.drop key).entry key = none := by
  simp [drop]

theorem entry_drop_ne {cache : Cache Input Key Value} {key other : Key} (different : other ≠ key) :
    (cache.drop key).entry other = cache.entry other := by
  simp [drop, different]

/-- Begin a computation, and remember its promise. -/
def start (keyOf : Input → Key) (cache : Cache Input Key Value) (input : Input) :
    Cache Input Key Value where
  promises := cache.promises ++ [⟨input, .pending, false⟩]
  entry := Function.update cache.entry (keyOf input) (some cache.promises.length)

theorem entry_start_self (keyOf : Input → Key) (cache : Cache Input Key Value) (input : Input) :
    (cache.start keyOf input).entry (keyOf input) = some cache.promises.length :=
  Function.update_self _ _ cache.entry

theorem entry_start_ne {keyOf : Input → Key} {cache : Cache Input Key Value} {input : Input}
    {key : Key} (different : key ≠ keyOf input) :
    (cache.start keyOf input).entry key = cache.entry key :=
  Function.update_of_ne different _ cache.entry

theorem get_start_old {keyOf : Input → Key} {cache : Cache Input Key Value} {input : Input}
    {id : Nat} {promise : Promise Input Value} (found : cache.get id = some promise) :
    (cache.start keyOf input).get id = some promise := by
  obtain ⟨within, _⟩ := List.getElem?_eq_some_iff.mp found
  rw [get, start, List.getElem?_append_left within]
  exact found

theorem get_start_new (keyOf : Input → Key) (cache : Cache Input Key Value) (input : Input) :
    (cache.start keyOf input).get cache.promises.length = some ⟨input, .pending, false⟩ :=
  List.getElem?_concat_length

theorem get_start_cases {keyOf : Input → Key} {cache : Cache Input Key Value} {input : Input}
    {id : Nat} {promise : Promise Input Value}
    (found : (cache.start keyOf input).get id = some promise) :
    cache.get id = some promise ∨
      id = cache.promises.length ∧ promise = ⟨input, .pending, false⟩ := by
  by_cases old : id < cache.promises.length
  · rw [get, start, List.getElem?_append_left old] at found
    exact .inl found
  · rw [get, start, List.getElem?_append_right (by omega)] at found
    cases place : id - cache.promises.length with
    | zero =>
        rw [place] at found
        cases found
        exact .inr ⟨by omega, rfl⟩
    | succ more =>
        rw [place] at found
        cases found

/-- A pending promise gets its outcome. -/
def settle (cache : Cache Input Key Value) (id : Nat) (outcome : Outcome Value) :
    Cache Input Key Value :=
  match cache.get id with
  | some promise => cache.put id { promise with outcome := outcome }
  | none => cache

/-- The one who made a promise sees its outcome.  A rejected promise that is still in the cache
is taken out. -/
def handle (keyOf : Input → Key) (cache : Cache Input Key Value) (id : Nat) :
    Cache Input Key Value :=
  match cache.get id with
  | some promise =>
      let handled := cache.put id { promise with handled := true }
      match promise.outcome with
      | .rejected =>
          if cache.entry (keyOf promise.input) = some id then handled.drop (keyOf promise.input)
          else handled
      | _ => handled
  | none => cache

end Cache

section Invariants

variable [DecidableEq Key] {keyOf : Input → Key} {cache : Cache Input Key Value} {id : Nat}

/-- Every entry is a promise for its key, and one that is rejected is not handled yet.  Nobody
has seen the outcome of a pending promise. -/
structure Sound (keyOf : Input → Key) (cache : Cache Input Key Value) : Prop where
  entry : ∀ key id, cache.entry key = some id → ∃ promise, cache.get id = some promise ∧
    keyOf promise.input = key ∧ (promise.outcome = .rejected → promise.handled = false)
  pending : ∀ id promise, cache.get id = some promise → promise.outcome = .pending →
    promise.handled = false

/-- A promise stays in the cache unless it is rejected. -/
def Lasting (keyOf : Input → Key) (cache : Cache Input Key Value) : Prop :=
  ∀ id promise, cache.get id = some promise → promise.outcome ≠ .rejected →
    cache.entry (keyOf promise.input) = some id

omit [DecidableEq Key] in
theorem sound_empty : Sound keyOf (Cache.empty : Cache Input Key Value) where
  entry _ _ found := by cases found
  pending _ _ found := by cases found

omit [DecidableEq Key] in
theorem lasting_empty : Lasting keyOf (Cache.empty : Cache Input Key Value) :=
  fun _ _ found => by cases found

theorem Sound.start (sound : Sound keyOf cache) (input : Input) :
    Sound keyOf (cache.start keyOf input) where
  entry key id found := by
    by_cases own : key = keyOf input
    · subst own
      rw [Cache.entry_start_self] at found
      cases found
      exact ⟨_, cache.get_start_new keyOf input, rfl, nofun⟩
    · rw [Cache.entry_start_ne own] at found
      obtain ⟨promise, held, same, fresh⟩ := sound.entry key id found
      exact ⟨promise, Cache.get_start_old held, same, fresh⟩
  pending id promise found waiting := by
    rcases Cache.get_start_cases found with old | ⟨_, rfl⟩
    · exact sound.pending id promise old waiting
    · rfl

theorem Lasting.start {input : Input} (lasting : Lasting keyOf cache)
    (absent : cache.entry (keyOf input) = none) : Lasting keyOf (cache.start keyOf input) := by
  intro id promise found alive
  rcases Cache.get_start_cases found with old | ⟨rfl, rfl⟩
  · have held := lasting id promise old alive
    have different : keyOf promise.input ≠ keyOf input := by
      intro same
      rw [same, absent] at held
      cases held
    rw [Cache.entry_start_ne different]
    exact held
  · exact cache.entry_start_self keyOf input

theorem Sound.drop (sound : Sound keyOf cache) (key : Key) : Sound keyOf (cache.drop key) where
  entry other id found := by
    by_cases own : other = key
    · subst own
      rw [Cache.entry_drop_self] at found
      cases found
    · rw [Cache.entry_drop_ne own] at found
      exact sound.entry other id found
  pending := sound.pending

omit [DecidableEq Key] in
/-- A change of one promise that keeps its input. -/
theorem Sound.put {promise changed : Promise Input Value} (sound : Sound keyOf cache)
    (found : cache.get id = some promise) (input : changed.input = promise.input)
    (entry : cache.entry (keyOf promise.input) = some id → changed.outcome = .rejected →
      changed.handled = false)
    (pending : changed.outcome = .pending → changed.handled = false) :
    Sound keyOf (cache.put id changed) where
  entry key other held := by
    obtain ⟨old, got, same, fresh⟩ := sound.entry key other held
    by_cases own : id = other
    · subst own
      cases found.symm.trans got
      exact ⟨changed, Cache.get_put_self found, by rw [input, same], entry (by rw [same]; exact held)⟩
    · exact ⟨old, by rw [Cache.get_put_ne own]; exact got, same, fresh⟩
  pending other old got waiting := by
    by_cases own : id = other
    · subst own
      cases (Cache.get_put_self found).symm.trans got
      exact pending waiting
    · rw [Cache.get_put_ne own] at got
      exact sound.pending other old got waiting

omit [DecidableEq Key] in
theorem Lasting.put {promise changed : Promise Input Value} (lasting : Lasting keyOf cache)
    (found : cache.get id = some promise) (input : changed.input = promise.input)
    (alive : changed.outcome ≠ .rejected → promise.outcome ≠ .rejected) :
    Lasting keyOf (cache.put id changed) := by
  intro other old got living
  by_cases own : id = other
  · subst own
    cases (Cache.get_put_self found).symm.trans got
    rw [input]
    exact lasting id promise found (alive living)
  · rw [Cache.get_put_ne own] at got
    exact lasting other old got living

omit [DecidableEq Key] in
theorem Cache.settle_eq {promise : Promise Input Value} (found : cache.get id = some promise)
    (outcome : Outcome Value) :
    cache.settle id outcome = cache.put id { promise with outcome := outcome } := by
  rw [settle, found]

omit [DecidableEq Key] in
theorem Sound.settle {promise : Promise Input Value} (sound : Sound keyOf cache)
    (found : cache.get id = some promise) (waiting : promise.outcome = .pending)
    (outcome : Outcome Value) : Sound keyOf (cache.settle id outcome) := by
  have fresh := sound.pending id promise found waiting
  rw [Cache.settle_eq found]
  exact sound.put found rfl (fun _ _ => fresh) fun _ => fresh

omit [DecidableEq Key] in
theorem Lasting.settle {promise : Promise Input Value} (lasting : Lasting keyOf cache)
    (found : cache.get id = some promise) (waiting : promise.outcome = .pending)
    (outcome : Outcome Value) : Lasting keyOf (cache.settle id outcome) := by
  rw [Cache.settle_eq found]
  exact lasting.put found rfl fun _ rejected => by rw [waiting] at rejected; cases rejected

/-- What handling a settled promise does. -/
theorem Cache.handle_cases (cache : Cache Input Key Value) (keyOf : Input → Key)
    {promise : Promise Input Value} (found : cache.get id = some promise) :
    (promise.outcome = .rejected ∧ cache.entry (keyOf promise.input) = some id ∧
      cache.handle keyOf id =
        (cache.put id { promise with handled := true }).drop (keyOf promise.input)) ∨
    ((promise.outcome = .rejected → cache.entry (keyOf promise.input) ≠ some id) ∧
      cache.handle keyOf id = cache.put id { promise with handled := true }) := by
  rw [handle, found]
  cases outcome : promise.outcome with
  | rejected =>
      by_cases held : cache.entry (keyOf promise.input) = some id
      · exact .inl ⟨rfl, held, by simp [outcome, held]⟩
      · exact .inr ⟨fun _ => held, by simp [outcome, held]⟩
  | pending => exact .inr ⟨nofun, by simp [outcome]⟩
  | fulfilled value => exact .inr ⟨nofun, by simp [outcome]⟩

theorem Sound.handle {promise : Promise Input Value} (sound : Sound keyOf cache)
    (found : cache.get id = some promise) (settled : promise.outcome ≠ .pending) :
    Sound keyOf (cache.handle keyOf id) := by
  rcases cache.handle_cases keyOf found with ⟨rejected, held, same⟩ | ⟨absent, same⟩
  · rw [same]
    -- The entry is gone before the promise counts as handled.
    have dropped : Sound keyOf (cache.drop (keyOf promise.input)) := sound.drop _
    have still : (cache.drop (keyOf promise.input)).get id = some promise := found
    refine dropped.put still rfl (fun held => ?_) fun waiting => (settled waiting).elim
    rw [Cache.entry_drop_self] at held
    cases held
  · rw [same]
    exact sound.put found rfl (fun held rejected => (absent rejected held).elim) fun waiting =>
      (settled waiting).elim

theorem Lasting.handle {promise : Promise Input Value} (lasting : Lasting keyOf cache)
    (found : cache.get id = some promise) : Lasting keyOf (cache.handle keyOf id) := by
  have marked : Lasting keyOf (cache.put id { promise with handled := true }) :=
    lasting.put found rfl fun alive => alive
  rcases cache.handle_cases keyOf found with ⟨rejected, held, same⟩ | ⟨_, same⟩
  · rw [same]
    intro other old got alive
    rw [Cache.get_drop] at got
    have entry := marked other old got alive
    have different : keyOf old.input ≠ keyOf promise.input := by
      intro equal
      rw [equal, Cache.put_entry, held] at entry
      cases entry
      cases (Cache.get_put_self found).symm.trans got
      exact alive rejected
    rw [Cache.entry_drop_ne different]
    exact entry
  · rw [same]
    exact marked

omit [DecidableEq Key] in
/-- Two promises for one key that are not rejected are the same. -/
theorem Lasting.unique (lasting : Lasting keyOf cache) {other : Nat}
    {first second : Promise Input Value} (found : cache.get id = some first)
    (also : cache.get other = some second) (same : keyOf first.input = keyOf second.input)
    (alive : first.outcome ≠ .rejected) (living : second.outcome ≠ .rejected) : id = other := by
  have one := lasting id first found alive
  have two := lasting other second also living
  rw [same, two] at one
  exact (Option.some.inj one).symm

end Invariants

section Evolution

variable [DecidableEq Key] {keyOf : Input → Key}

/-- A later cache has the same promises, with more outcomes. -/
def Evolves (cache later : Cache Input Key Value) : Prop :=
  ∀ id promise, cache.get id = some promise → ∃ grown, later.get id = some grown ∧
    grown.input = promise.input ∧
    ∀ value, promise.outcome = .fulfilled value → grown.outcome = .fulfilled value

variable {cache later last : Cache Input Key Value} {id : Nat}

omit [DecidableEq Key] in
theorem Evolves.refl (cache : Cache Input Key Value) : Evolves cache cache :=
  fun _ promise found => ⟨promise, found, rfl, fun _ same => same⟩

theorem evolves_start (cache : Cache Input Key Value) (input : Input) :
    Evolves cache (cache.start keyOf input) :=
  fun _ promise found => ⟨promise, Cache.get_start_old found, rfl, fun _ same => same⟩

theorem evolves_drop (cache : Cache Input Key Value) (key : Key) :
    Evolves cache (cache.drop key) :=
  fun _ promise found => ⟨promise, found, rfl, fun _ same => same⟩

omit [DecidableEq Key] in
theorem evolves_put {promise changed : Promise Input Value} (found : cache.get id = some promise)
    (input : changed.input = promise.input)
    (kept : ∀ value, promise.outcome = .fulfilled value → changed.outcome = .fulfilled value) :
    Evolves cache (cache.put id changed) := by
  intro other old got
  by_cases own : id = other
  · subst own
    cases found.symm.trans got
    exact ⟨changed, Cache.get_put_self found, input, kept⟩
  · exact ⟨old, by rw [Cache.get_put_ne own]; exact got, rfl, fun _ same => same⟩

omit [DecidableEq Key] in
theorem evolves_settle {promise : Promise Input Value} (found : cache.get id = some promise)
    (waiting : promise.outcome = .pending) (outcome : Outcome Value) :
    Evolves cache (cache.settle id outcome) := by
  rw [Cache.settle_eq found]
  refine evolves_put found rfl fun value same => ?_
  rw [waiting] at same
  cases same

theorem evolves_handle {promise : Promise Input Value} (found : cache.get id = some promise) :
    Evolves cache (cache.handle keyOf id) := by
  have marked : Evolves cache (cache.put id { promise with handled := true }) :=
    evolves_put found rfl fun _ same => same
  rcases cache.handle_cases keyOf found with ⟨_, _, same⟩ | ⟨_, same⟩
  · rw [same]
    exact marked
  · rw [same]
    exact marked

/-- Handling changes no input and no outcome. -/
theorem get_of_handle {promise old : Promise Input Value} {other : Nat}
    (found : cache.get id = some promise) (got : (cache.handle keyOf id).get other = some old) :
    ∃ before, cache.get other = some before ∧ old.input = before.input ∧
      old.outcome = before.outcome := by
  have got : (cache.put id { promise with handled := true }).get other = some old := by
    rcases cache.handle_cases keyOf found with ⟨_, _, same⟩ | ⟨_, same⟩
    · rw [same] at got
      exact got
    · rw [same] at got
      exact got
  by_cases own : id = other
  · subst own
    cases (Cache.get_put_self found).symm.trans got
    exact ⟨promise, found, rfl, rfl⟩
  · rw [Cache.get_put_ne own] at got
    exact ⟨old, got, rfl, rfl⟩

/-- Handling a rejected promise frees its key. -/
theorem entry_handle {promise : Promise Input Value} {key : Key}
    (found : cache.get id = some promise) (rejected : promise.outcome = .rejected)
    (own : keyOf promise.input = key) (held : cache.entry key = some id) :
    (cache.handle keyOf id).entry key = none := by
  subst own
  rcases cache.handle_cases keyOf found with ⟨_, _, same⟩ | ⟨absent, _⟩
  · rw [same, Cache.entry_drop_self]
  · exact (absent rejected held).elim

end Evolution

end PromiseCaches
