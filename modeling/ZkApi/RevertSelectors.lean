import Mathlib.Data.List.TakeWhile
import ZkApi.AvoidingPaths
import ZkApi.ContractErrors
import ZkApi.JsonPrints

/-!
# The search for a contract error ends and misses nothing that it can match

Each turn of the search makes the strings of the queue and the values of the unseen
objects weigh less, since a decoded text is no larger than the text.  Whether a
string with a known selector is ahead of the queue stays the same from turn to turn.
-/

namespace ZkApi.Browser.ContractErrors

open AvoidingPaths JsonTexts

section Runs

variable {text run rest first : List Char}

/-- `0x` and at least eight hexadecimal digits, with no further digit behind them. -/
structure Maximal (run rest : List Char) : Prop where
  digits : ∃ digits, run = '0' :: 'x' :: digits ∧ 8 ≤ digits.length ∧
    ∀ digit ∈ digits, isHexDigit digit = true
  ended : ∀ letter ∈ rest.head?, isHexDigit letter = false

/-- The runs that a search from left to right finds without overlap. -/
inductive Finds : List Char → List Char → Prop where
  | here {run rest : List Char} (maximal : Maximal run rest) : Finds (run ++ rest) run
  | later {first rest run : List Char} (maximal : Maximal first rest) (finds : Finds rest run) :
      Finds (first ++ rest) run
  | skip {letter : Char} {text run : List Char}
      (none : ∀ first rest, letter :: text = first ++ rest → ¬ Maximal first rest)
      (finds : Finds text run) : Finds (letter :: text) run

theorem takeWhile_run {digits : List Char} (all : ∀ digit ∈ digits, isHexDigit digit = true)
    (ended : ∀ letter ∈ rest.head?, isHexDigit letter = false) :
    (digits ++ rest).takeWhile isHexDigit = digits := by
  rw [List.takeWhile_append_of_pos all]
  cases rest with
  | nil => simp
  | cons letter rest => simp [ended letter rfl]

theorem runAt_of_maximal (maximal : Maximal run rest) : runAt (run ++ rest) = some run := by
  obtain ⟨⟨digits, rfl, enough, all⟩, ended⟩ := maximal
  rw [List.cons_append, List.cons_append, runAt, takeWhile_run all ended, if_pos enough]

theorem exists_of_runAt (found : runAt text = some run) :
    ∃ rest, text = run ++ rest ∧ Maximal run rest := by
  unfold runAt at found
  split at found
  · next text =>
      dsimp only at found
      split at found
      · next enough =>
          cases found
          refine ⟨text.dropWhile isHexDigit, ?_, ⟨_, rfl, enough, ?_⟩, ?_⟩
          · rw [List.cons_append, List.cons_append, List.takeWhile_append_dropWhile]
          · exact fun _ member => List.mem_takeWhile_imp member
          · intro letter member
            have stopped := List.head?_dropWhile_not isHexDigit text
            rw [Option.mem_def.mp member] at stopped
            simpa using stopped
      · cases found
  · cases found

theorem maximal_length (maximal : Maximal run rest) : 10 ≤ run.length := by
  obtain ⟨⟨digits, rfl, enough, -⟩, -⟩ := maximal
  simpa using enough

theorem matchAll_drop (taken : Nat) (text : List Char) :
    matchAll taken text = matchAll 0 (text.drop taken) := by
  induction taken generalizing text with
  | zero => rfl
  | succ taken ih =>
      cases text with
      | nil => rfl
      | cons letter text => exact ih text

/-- Behind a run the search goes on. -/
theorem matchAll_run (maximal : Maximal run rest) :
    matchAll 0 (run ++ rest) = run :: matchAll 0 rest := by
  have found := runAt_of_maximal maximal
  have length := maximal_length maximal
  cases run with
  | nil => cases length
  | cons letter run =>
      rw [List.cons_append] at found ⊢
      rw [matchAll, found]
      dsimp only
      rw [matchAll_drop, List.length_cons, Nat.add_sub_cancel, List.drop_left]

theorem matchAll_skip {letter : Char}
    (none : ∀ first rest, letter :: text = first ++ rest → ¬ Maximal first rest) :
    matchAll 0 (letter :: text) = matchAll 0 text := by
  rw [matchAll]
  split
  · next run found =>
      obtain ⟨rest, same, maximal⟩ := exists_of_runAt found
      exact absurd maximal (none run rest same)
  · rfl

theorem mem_matchAll_of_finds (finds : Finds text run) : run ∈ matchAll 0 text := by
  induction finds with
  | here maximal =>
      rw [matchAll_run maximal]
      exact List.mem_cons_self
  | later maximal _ ih =>
      rw [matchAll_run maximal]
      exact List.mem_cons_of_mem _ ih
  | skip none _ ih =>
      rw [matchAll_skip none]
      exact ih

theorem finds_of_mem_matchAll (count : Nat) (short : text.length ≤ count)
    (member : run ∈ matchAll 0 text) : Finds text run := by
  induction count generalizing text with
  | zero =>
      rw [List.eq_nil_of_length_eq_zero (Nat.le_zero.mp short)] at member
      cases member
  | succ count ih =>
      cases text with
      | nil => cases member
      | cons letter text =>
          cases found : runAt (letter :: text) with
          | none =>
              have none : ∀ first rest, letter :: text = first ++ rest → ¬ Maximal first rest := by
                intro first rest same maximal
                rw [same, runAt_of_maximal maximal] at found
                cases found
              rw [matchAll_skip none] at member
              exact .skip none (ih (Nat.le_of_succ_le_succ short) member)
          | some first =>
              obtain ⟨rest, same, maximal⟩ := exists_of_runAt found
              have length := maximal_length maximal
              rw [same, List.length_append] at short
              rw [same, matchAll_run maximal] at member
              rw [same]
              rcases List.mem_cons.mp member with rfl | member
              · exact .here maximal
              · exact .later maximal (ih (by omega) member)

theorem mem_matchAll : run ∈ matchAll 0 text ↔ Finds text run :=
  ⟨finds_of_mem_matchAll _ (Nat.le_refl _), mem_matchAll_of_finds⟩

/-- The end of a run is no start of another, unless they share the zero behind a digit. -/
theorem not_shared {front shared digits others : List Char} (enough : 8 ≤ digits.length)
    (all : ∀ digit ∈ digits, isHexDigit digit = true) (nonempty : front ≠ []) (some : shared ≠ [])
    (apart : ∀ letter ∈ front.getLast?, isHexDigit letter = false)
    (split : '0' :: 'x' :: digits = front ++ shared)
    (more : '0' :: 'x' :: others = shared ++ rest) : False := by
  obtain ⟨zero, shared, rfl⟩ := List.exists_cons_of_ne_nil some
  obtain ⟨rfl, moreTail⟩ := List.cons_eq_cons.mp more
  obtain ⟨head, front, rfl⟩ := List.exists_cons_of_ne_nil nonempty
  obtain ⟨rfl, splitTail⟩ := List.cons_eq_cons.mp split
  cases front with
  | nil => exact absurd (List.cons_eq_cons.mp splitTail).1 (by decide)
  | cons head front =>
      have parts : digits = front ++ '0' :: shared := (List.cons_eq_cons.mp splitTail).2
      cases shared with
      | nil =>
          -- Only the zero is shared, so the letter in front of it is a digit of the run.
          cases last : front.getLast? with
          | none =>
              rw [List.getLast?_eq_none_iff.mp last] at parts
              rw [parts] at enough
              exact absurd enough (by decide)
          | some letter =>
              have member : letter ∈ digits := by
                rw [parts]
                exact List.mem_append_left _ (List.mem_of_getLast? last)
              have other := apart letter (by simp [List.getLast?_cons, last])
              rw [all letter member] at other
              cases other
      | cons second shared =>
          obtain ⟨rfl, -⟩ := List.cons_eq_cons.mp moreTail
          have digit : isHexDigit 'x' = true := all 'x' (by simp [parts])
          exact absurd digit (by decide)

/-- A run does not reach into a later one that no digit precedes. -/
theorem maximal_before {front back : List Char} (maximal : Maximal first rest)
    (later : Maximal run back) (nonempty : front ≠ [])
    (apart : ∀ letter ∈ front.getLast?, isHexDigit letter = false)
    (same : first ++ rest = front ++ (run ++ back)) : ∃ between, front = first ++ between := by
  obtain ⟨⟨digits, rfl, enough, all⟩, -⟩ := maximal
  obtain ⟨⟨_, rfl, -, -⟩, -⟩ := later
  rcases List.append_eq_append_iff.mp same with ⟨between, found, -⟩ | ⟨shared, split, more⟩
  · exact ⟨between, found⟩
  · by_cases none : shared = []
    · rw [none, List.append_nil] at split
      exact ⟨[], by rw [List.append_nil, split]⟩
    · exact absurd (not_shared enough all nonempty none apart split more) id

/-- A run that does not follow a hexadecimal digit is found. -/
theorem finds_of_apart {front back : List Char} (maximal : Maximal run back)
    (apart : ∀ letter ∈ front.getLast?, isHexDigit letter = false) :
    Finds (front ++ (run ++ back)) run := by
  induction length : front.length using Nat.strong_induction_on generalizing front with
  | _ count ih =>
      cases front with
      | nil => exact .here maximal
      | cons letter front =>
          by_cases starts : ∃ first rest,
              letter :: front ++ (run ++ back) = first ++ rest ∧ Maximal first rest
          · obtain ⟨first, rest, same, before⟩ := starts
            obtain ⟨between, split⟩ :=
              maximal_before before maximal (List.cons_ne_nil _ _) apart same.symm
            have long := maximal_length before
            have shorter : between.length < count := by
              rw [← length, split, List.length_append]
              omega
            have apart : ∀ letter ∈ between.getLast?, isHexDigit letter = false := by
              intro last member
              refine apart last ?_
              rw [split, List.getLast?_append, Option.mem_def.mp member]
              rfl
            rw [split, List.append_assoc] at same ⊢
            rw [← List.append_cancel_left same] at before
            exact .later before (ih _ shorter apart rfl)
          · have shorter : front.length < count := by
              rw [← length, List.length_cons]
              exact Nat.lt_succ_self _
            have apart : ∀ letter ∈ front.getLast?, isHexDigit letter = false := by
              intro last member
              refine apart last ?_
              rw [List.getLast?_cons, Option.mem_def.mp member]
              rfl
            refine .skip (fun first rest same before => ?_) (ih _ shorter apart rfl)
            exact starts ⟨first, rest, same, before⟩

/-- A search finds a known error in a text. -/
def Selected (text : Text) : Prop :=
  ∃ run, Finds (text.map letter) run ∧ selectorOf run ∈ contractErrors

theorem matchingSelector_isSome {text : Text} :
    (matchingSelector text).isSome = true ↔ Selected text := by
  simp [matchingSelector, Selected, mem_matchAll]

end Runs

section Reachability

variable {heap later : Heap} {seen : List Nat} {identity : Nat} {value last : Value}
  {values : List Value} {text : Text}

/-- A string stands somewhere in a decoded value. -/
inductive Holds : Decoded → Text → Prop where
  | string (text : Text) : Holds (.string text) text
  | object {values : List Decoded} {value : Decoded} {text : Text} (member : value ∈ values)
      (holds : Holds value text) : Holds (.object values) text

/-- A value is a value of an object. -/
def Nested (heap : Heap) (value other : Value) : Prop :=
  ∃ identity values, value = .object identity ∧ heap[identity]? = some values ∧ other ∈ values

/-- A text decodes to a value that holds another. -/
def Decodes (text other : Text) : Prop :=
  ∃ value, parse text = some value ∧ Holds value other

/-- The strings of an error, through the values of objects and repeated decoding. -/
def ProviderError.Reachable (error : ProviderError) (text : Text) : Prop :=
  ∃ first, Relation.ReflTransGen (Nested error.heap) error.value (.string first) ∧
    Relation.ReflTransGen Decodes first text

/-- A text or a string that it decodes to selects an error. -/
def Leads (text : Text) : Prop :=
  ∃ other, Relation.ReflTransGen Decodes text other ∧ Selected other

theorem leads_iff :
    Leads text ↔ Selected text ∨ ∃ other, Decodes text other ∧ Leads other := by
  constructor
  · rintro ⟨other, path, selected⟩
    rcases path.cases_head with rfl | ⟨following, decodes, path⟩
    · exact .inl selected
    · exact .inr ⟨following, decodes, other, path, selected⟩
  · rintro (selected | ⟨following, decodes, other, path, selected⟩)
    · exact ⟨text, .refl, selected⟩
    · exact ⟨other, .head decodes path, selected⟩

def Goal (value : Value) : Prop :=
  ∃ text, value = .string text ∧ Leads text

/-- The value is an object that the search has seen. -/
def Seen (seen : List Nat) (value : Value) : Prop :=
  ∃ identity ∈ seen, value = .object identity

theorem seen_cons : Seen (identity :: seen) =
    fun other => other = .object identity ∨ Seen seen other := by
  funext other
  simp [Seen]

theorem seen_object : Seen seen (.object identity) ↔ identity ∈ seen := by
  simp [Seen]

theorem nested_object {other : Value} (found : heap[identity]? = some values) :
    Nested heap (.object identity) other ↔ other ∈ values := by
  constructor
  · rintro ⟨_, others, same, foundOthers, member⟩
    cases same
    rw [found] at foundOthers
    cases foundOthers
    exact member
  · intro member
    exact ⟨identity, values, rfl, found, member⟩

theorem path_leaf {avoided : Value → Prop} (leaf : ∀ identity, value ≠ .object identity) :
    Path (Nested heap) avoided value last ↔ value = last := by
  constructor
  · intro path
    cases path with
    | refl => rfl
    | step _ edge _ =>
        obtain ⟨identity, _, same, _⟩ := edge
        exact absurd same (leaf identity)
  · rintro rfl
    exact .refl value

theorem path_object (found : heap[identity]? = some values) (fresh : identity ∉ seen) :
    Path (Nested heap) (Seen seen) (.object identity) (.string text) ↔
      ∃ value ∈ values, Path (Nested heap) (Seen seen) value (.string text) := by
  constructor
  · intro path
    cases path with
    | step _ edge rest => exact ⟨_, (nested_object found).mp edge, rest⟩
  · rintro ⟨value, member, path⟩
    exact .step (mt seen_object.mp fresh) ((nested_object found).mpr member) path

theorem holds_object {contents : List Decoded} :
    Holds (.object contents) text ↔ ∃ value ∈ contents, Holds value text := by
  constructor
  · rintro ⟨⟩
    next member holds => exact ⟨_, member, holds⟩
  · rintro ⟨value, member, holds⟩
    exact .object member holds

mutual

/-- From the copy of a decoded value lead paths to the strings that it holds. -/
theorem allocate_path (value : Decoded) {heap : Heap}
    (fresh : ∀ identity ∈ seen, identity < heap.length) (grown : (allocate value heap).1 <+: later) :
    Path (Nested later) (Seen seen) (allocate value heap).2 (.string text) ↔
      Holds value text := by
  cases value with
  | object contents =>
      rw [allocate] at grown ⊢
      dsimp only at grown ⊢
      have found : later[(allocateAll contents heap).1.length]? =
          some (allocateAll contents heap).2 := by
        obtain ⟨more, rfl⟩ := grown
        simp
      have new : (allocateAll contents heap).1.length ∉ seen := fun member =>
        Nat.not_lt.mpr (allocateAll_isPrefix contents heap).length_le (fresh _ member)
      rw [path_object found new, holds_object]
      exact allocateAll_path contents fresh ((List.prefix_append _ _).trans grown)
  | string other =>
      rw [allocate, path_leaf (fun _ same => (by cases same))]
      constructor
      · rintro ⟨⟩
        exact .string _
      · rintro ⟨⟩
        rfl
  | _ =>
      rw [allocate, path_leaf (fun _ same => (by cases same))]
      exact ⟨fun same => (by cases same), fun holds => (by cases holds)⟩

theorem allocateAll_path (contents : List Decoded) {heap : Heap}
    (fresh : ∀ identity ∈ seen, identity < heap.length)
    (grown : (allocateAll contents heap).1 <+: later) :
    (∃ value ∈ (allocateAll contents heap).2,
        Path (Nested later) (Seen seen) value (.string text)) ↔
      ∃ value ∈ contents, Holds value text := by
  cases contents with
  | nil => simp [allocateAll]
  | cons value contents =>
      rw [allocateAll] at grown ⊢
      dsimp only at grown ⊢
      have first := allocate_path value fresh
        ((allocateAll_isPrefix contents _).trans grown)
      have rest := allocateAll_path contents
        (fun identity member => Nat.lt_of_lt_of_le (fresh identity member)
          (allocate_isPrefix value heap).length_le) grown
      simp only [List.mem_cons, or_and_right, exists_or, exists_eq_left]
      rw [first, rest]

end

end Reachability

section Turns

variable {search : Search} {queue : List Value} {seen : List Nat} {heap later : Heap}
  {text : Text} {value : Value}

/-- The objects of a search exist. -/
structure Search.Valid (search : Search) : Prop where
  closed : Closed search.heap
  queue : ∀ value ∈ search.queue, value.Within search.heap.length
  seen : ∀ identity ∈ search.seen, identity < search.heap.length

/-- A string that leads to a known selector is ahead. -/
def Search.Ahead (search : Search) : Prop :=
  GoalAhead (Nested search.heap) (Seen search.seen) Goal search.queue

/-- The queue and the values of the objects that were not seen. -/
def Search.weight (search : Search) : Nat :=
  contentsWeight search.queue + unvisited search.seen 0 search.heap

/-- A turn makes progress and keeps what is ahead. -/
structure Search.Progress (search next : Search) : Prop where
  valid : next.Valid
  lighter : next.weight < search.weight
  ahead : search.Ahead ↔ next.Ahead

theorem Value.weight_pos (value : Value) : 0 < value.weight := by
  cases value <;> exact Nat.succ_pos _

theorem within_of_nested {other : Value} (closed : Closed heap) (edge : Nested heap value other) :
    other.Within heap.length := by
  obtain ⟨identity, values, -, found, member⟩ := edge
  exact closed values (List.mem_of_getElem? found) other member

/-- What is ahead of a queue stays the same when the heap grows. -/
theorem goalAhead_grow {avoided goal : Value → Prop} (closed : Closed heap) (grown : heap <+: later)
    (within : ∀ value ∈ queue, value.Within heap.length) :
    GoalAhead (Nested heap) avoided goal queue ↔ GoalAhead (Nested later) avoided goal queue := by
  obtain ⟨more, rfl⟩ := grown
  constructor
  · intro ahead
    refine ahead.congr (Value.Within heap.length) within fun value other _ edge => ?_
    refine ⟨within_of_nested closed edge, ?_⟩
    obtain ⟨identity, values, same, found, member⟩ := edge
    refine ⟨identity, values, same, ?_, member⟩
    rw [List.getElem?_append_left (List.getElem?_eq_some_iff.mp found).1, found]
  · intro ahead
    refine ahead.congr (Value.Within heap.length) within
      fun value other inside edge => ?_
    obtain ⟨identity, values, rfl, found, member⟩ := edge
    rw [List.getElem?_append_left inside] at found
    have edge : Nested heap (.object identity) other := ⟨identity, values, rfl, found, member⟩
    exact ⟨within_of_nested closed edge, edge⟩

/-- A value that is no goal and leads nowhere is dropped. -/
theorem progress_drop (valid : (Search.mk heap (value :: queue) seen).Valid)
    (stuck : ∀ other, Nested heap value other → Seen seen value) (miss : ¬ Goal value) :
    (Search.mk heap (value :: queue) seen).Progress ⟨heap, queue, seen⟩ where
  valid := ⟨valid.closed, fun other member => valid.queue other (List.mem_cons_of_mem _ member),
    valid.seen⟩
  lighter := by
    have := value.weight_pos
    simp only [Search.weight, contentsWeight_cons]
    omega
  ahead := by
    refine (goalAhead_stuck stuck).trans ?_
    rw [or_iff_right miss]
    rfl

/-- An object is seen, and its values are queued. -/
theorem progress_object {identity : Nat}
    (valid : (Search.mk heap (.object identity :: queue) seen).Valid) (fresh : identity ∉ seen) :
    (Search.mk heap (.object identity :: queue) seen).Progress
      ⟨heap, queue ++ heap.getD identity [], identity :: seen⟩ := by
  have within : identity < heap.length := valid.queue (.object identity) List.mem_cons_self
  have found : heap[identity]? = some (heap.getD identity []) := by
    simp [within]
  refine ⟨⟨valid.closed, fun other member => ?_, fun other member => ?_⟩, ?_, ?_⟩
  · rcases List.mem_append.mp member with member | member
    · exact valid.queue other (List.mem_cons_of_mem _ member)
    · exact valid.closed _ (List.mem_of_getElem? found) other member
  · rcases List.mem_cons.mp member with rfl | member
    · exact within
    · exact valid.seen other member
  · have unseen : 0 + identity ∉ seen := by rwa [Nat.zero_add]
    have visit := unvisited_visit found unseen
    rw [Nat.zero_add] at visit
    simp only [Search.weight, contentsWeight_cons, contentsWeight_append, Value.weight]
    omega
  · simp only [Search.Ahead, seen_cons]
    refine goalAhead_visit (mt seen_object.mp fresh) ?_ fun other => nested_object found
    rintro ⟨_, same, -⟩
    cases same

theorem goal_string : Goal (.string text) ↔ Leads text := by
  constructor
  · rintro ⟨_, ⟨⟩, leads⟩
    exact leads
  · exact fun leads => ⟨text, rfl, leads⟩

theorem not_nested_string {other : Value} : ¬ Nested heap (.string text) other := by
  rintro ⟨_, _, ⟨⟩, _⟩

/-- A decoded value takes the place of a text without a match. -/
theorem progress_decoded {decoded : Decoded}
    (valid : (Search.mk heap (.string text :: queue) seen).Valid) (miss : ¬ Selected text)
    (parsed : parse text = some decoded) :
    (Search.mk heap (.string text :: queue) seen).Progress
      ⟨(allocate decoded heap).1, queue ++ [(allocate decoded heap).2], seen⟩ := by
  have grown := allocate_isPrefix decoded heap
  have within : ∀ other ∈ queue, other.Within heap.length := fun other member =>
    valid.queue other (List.mem_cons_of_mem _ member)
  obtain ⟨closed, new⟩ := allocate_closed decoded valid.closed
  refine ⟨⟨closed, fun other member => ?_, fun identity member => ?_⟩, ?_, ?_⟩
  · rcases List.mem_append.mp member with member | member
    · exact (within other member).mono grown.length_le
    · rw [List.mem_singleton.mp member]
      exact new
  · exact Nat.lt_of_lt_of_le (valid.seen identity member) grown.length_le
  · have weight := allocate_weight decoded heap
    have small := parse_weight parsed
    obtain ⟨added, same⟩ := grown
    have append := unvisited_append seen 0 heap added
    rw [← same, heapWeight_append] at weight
    rw [same] at append
    have string : (Value.string text).weight = text.length + 1 := rfl
    simp only [Search.weight, contentsWeight_cons, contentsWeight_append, contentsWeight_nil]
    omega
  · have leads : Leads text ↔ ∃ other, Holds decoded other ∧ Leads other := by
      rw [leads_iff, or_iff_right miss]
      simp [Decodes, parsed]
    have copy : GoalAhead (Nested (allocate decoded heap).1) (Seen seen) Goal
        [(allocate decoded heap).2] ↔ ∃ other, Holds decoded other ∧ Leads other := by
      rw [goalAhead_singleton]
      constructor
      · rintro ⟨_, ⟨other, rfl, leads⟩, path⟩
        exact ⟨other, (allocate_path decoded valid.seen (List.prefix_refl _)).mp path, leads⟩
      · rintro ⟨other, holds, leads⟩
        exact ⟨.string other, goal_string.mpr leads,
          (allocate_path decoded valid.seen (List.prefix_refl _)).mpr holds⟩
    have same : GoalAhead (Nested heap) (Seen seen) Goal queue ↔
        GoalAhead (Nested (allocate decoded heap).1) (Seen seen) Goal queue :=
      goalAhead_grow valid.closed grown within
    calc
      GoalAhead (Nested heap) (Seen seen) Goal (.string text :: queue)
          ↔ Goal (.string text) ∨ GoalAhead (Nested heap) (Seen seen) Goal queue :=
        goalAhead_stuck fun other edge => absurd edge not_nested_string
      _ ↔ GoalAhead (Nested (allocate decoded heap).1) (Seen seen) Goal queue ∨
            GoalAhead (Nested (allocate decoded heap).1) (Seen seen) Goal
              [(allocate decoded heap).2] := by
        rw [goal_string, leads, copy, same, or_comm]
      _ ↔ GoalAhead (Nested (allocate decoded heap).1) (Seen seen) Goal
            (queue ++ [(allocate decoded heap).2]) := goalAhead_append.symm

/-- A text that decodes to nothing holds no other text. -/
theorem not_goal_of_not_parsed (miss : ¬ Selected text) (failed : parse text = none) :
    ¬ Goal (.string text) := by
  rw [goal_string, leads_iff]
  rintro (selected | ⟨other, ⟨_, parsed, _⟩, _⟩)
  · exact miss selected
  · rw [failed] at parsed
    cases parsed

theorem not_goal_of_leaf (leaf : ∀ text, value ≠ .string text) : ¬ Goal value := by
  rintro ⟨text, same, -⟩
  exact leaf text same

/-- A turn that does not return makes progress. -/
theorem Search.turn_continues {next : Search} (valid : search.Valid)
    (turn : search.turn = .continues next) : search.Progress next := by
  obtain ⟨heap, queue, seen⟩ := search
  unfold Search.turn at turn
  dsimp only at turn
  split at turn
  · cases turn
  · next text queue =>
      split at turn
      · cases turn
      · next none =>
          have miss : ¬ Selected text := by
            rw [← matchingSelector_isSome, none]
            exact Bool.false_ne_true
          split at turn
          · next decoded parsed =>
              cases turn
              exact progress_decoded valid miss parsed
          · next failed =>
              cases turn
              exact progress_drop valid (fun other edge => absurd edge not_nested_string)
                (not_goal_of_not_parsed miss failed)
  · next identity queue =>
      split at turn
      · next old =>
          cases turn
          exact progress_drop valid (fun _ _ => seen_object.mpr old)
            (not_goal_of_leaf fun _ same => (by cases same))
      · next fresh =>
          cases turn
          exact progress_object valid fresh
  · next value queue noString noObject =>
      cases turn
      refine progress_drop valid (fun other edge => ?_) (not_goal_of_leaf noString)
      obtain ⟨identity, _, same, _⟩ := edge
      exact absurd same (noObject identity)

/-- A turn returns a selector exactly if one is ahead. -/
theorem Search.turn_returns {selector : Option String} (turn : search.turn = .returns selector) :
    selector.isSome = true ↔ search.Ahead := by
  obtain ⟨heap, queue, seen⟩ := search
  unfold Search.turn at turn
  dsimp only at turn
  split at turn
  · cases turn
    simp [Search.Ahead, not_goalAhead_nil]
  · next text queue =>
      split at turn
      · next selector found =>
          cases turn
          have selected : Selected text := matchingSelector_isSome.mp (by rw [found]; rfl)
          have goal : Goal (.string text) := goal_string.mpr (leads_iff.mpr (.inl selected))
          exact iff_of_true rfl (goalAhead_of_goal goal)
      · split at turn <;> cases turn
  · split at turn <;> cases turn
  · cases turn

/-- A selector that a search returns is one of a contract error. -/
theorem Search.run_known {turns : Nat} {selector : String}
    (done : search.run turns = some (some selector)) : selector ∈ contractErrors := by
  induction turns generalizing search with
  | zero => cases done
  | succ turns ih =>
      rw [Search.run] at done
      split at done
      · next returned turn =>
          cases done
          obtain ⟨heap, queue, seen⟩ := search
          unfold Search.turn at turn
          dsimp only at turn
          split at turn
          · cases turn
          · split at turn
            · next found =>
                cases turn
                rw [matchingSelector] at found
                simpa using List.find?_some found
            · split at turn <;> cases turn
          · split at turn <;> cases turn
          · cases turn
      · exact ih done

/-- The search ends within as many turns as it weighs and one more. -/
theorem Search.run_spec (turns : Nat) (valid : search.Valid) (enough : search.weight < turns) :
    ∃ selector, search.run turns = some selector ∧ (selector.isSome = true ↔ search.Ahead) := by
  induction turns generalizing search with
  | zero => cases enough
  | succ turns ih =>
      rw [Search.run]
      cases turn : search.turn with
      | returns selector => exact ⟨selector, rfl, Search.turn_returns turn⟩
      | continues next =>
          have progress := Search.turn_continues valid turn
          obtain ⟨selector, done, ahead⟩ := ih progress.valid
            (Nat.lt_of_lt_of_le progress.lighter (Nat.le_of_lt_succ enough))
          exact ⟨selector, done, ahead.trans progress.ahead.symm⟩

/-- More turns do not change what a search returns. -/
theorem Search.run_mono {turns more : Nat} {selector : Option String}
    (done : search.run turns = some selector) (le : turns ≤ more) :
    search.run more = some selector := by
  induction turns generalizing search more with
  | zero => cases done
  | succ turns ih =>
      cases more with
      | zero => cases le
      | succ more =>
          rw [Search.run] at done ⊢
          split at done
          · exact done
          · exact ih done (Nat.le_of_succ_le_succ le)

end Turns

section Errors

theorem closed_nil : Closed [] := by
  intro values member
  cases member

variable (error : ProviderError)

theorem search_valid : error.search.Valid where
  closed := error.closed
  queue := by
    intro value member
    rw [List.mem_singleton.mp member]
    exact error.within
  seen := by
    intro identity member
    cases member

theorem search_ahead : error.search.Ahead ↔ ∃ text, error.Reachable text ∧ Selected text := by
  have never : ∀ value, ¬ Seen [] value := by
    rintro value ⟨_, ⟨⟩, _⟩
  have paths : ∀ last, Path (Nested error.heap) (Seen []) error.value last ↔
      Relation.ReflTransGen (Nested error.heap) error.value last :=
    fun _ => path_iff_reflTransGen never
  refine goalAhead_singleton.trans ?_
  constructor
  · rintro ⟨_, ⟨first, rfl, other, decodes, selected⟩, path⟩
    exact ⟨other, ⟨first, (paths _).mp path, decodes⟩, selected⟩
  · rintro ⟨other, ⟨first, path, decodes⟩, selected⟩
    exact ⟨.string first, ⟨first, rfl, other, decodes, selected⟩, (paths _).mpr path⟩

theorem leads_print {value : Decoded} {text : Text} (holds : Holds value text)
    (leads : Leads text) : Leads (print value) :=
  leads_iff.mpr (.inr ⟨text, ⟨value, parse_print value, holds⟩, leads⟩)

theorem leads_quote {text : Text} (selected : Selected text) (depth : Nat) :
    Leads (quote^[depth] text) := by
  induction depth with
  | zero => exact leads_iff.mpr (.inl selected)
  | succ depth ih =>
      rw [Function.iterate_succ_apply']
      exact leads_print (.string _) ih

/-- The search of every error ends.  It returns the selector of a contract error exactly if a
search from left to right finds a run of a known error in a reachable string.  A run that does
not follow a hexadecimal digit is always found. -/
theorem contractRevertSelector_spec :
    (∀ error : ProviderError, ∃ result,
      (∀ turns, error.search.weight < turns →
        contractRevertSelector turns error = some result) ∧
      (∀ selector, result = some selector → selector ∈ contractErrors) ∧
      (result.isSome = true ↔
        ∃ text run, error.Reachable text ∧ Finds (text.map letter) run ∧
          selectorOf run ∈ contractErrors)) ∧
    ∀ front run back : List Char, Maximal run back →
      (∀ letter ∈ front.getLast?, isHexDigit letter = false) →
        Finds (front ++ (run ++ back)) run := by
  refine ⟨fun error => ?_, fun front run back maximal apart => finds_of_apart maximal apart⟩
  obtain ⟨result, done, ahead⟩ :=
    Search.run_spec _ (search_valid error) (Nat.lt_succ_self error.search.weight)
  refine ⟨result, fun turns enough => Search.run_mono done enough, ?_, ?_⟩
  · rintro selector rfl
    exact Search.run_known done
  rw [ahead, search_ahead]
  constructor
  · rintro ⟨text, reachable, run, finds, known⟩
    exact ⟨text, run, reachable, finds, known⟩
  · rintro ⟨text, run, reachable, finds, known⟩
    exact ⟨text, reachable, run, finds, known⟩

/-- An error that is a text. -/
def ProviderError.ofText (text : Text) : ProviderError where
  heap := []
  value := .string text
  closed := closed_nil
  within := trivial

/-- A text is found however often it was made a string of JSON. -/
theorem contractRevertSelector_quote {text : Text} (selected : Selected text) (depth : Nat) :
    ∃ turns selector,
      contractRevertSelector turns (.ofText (quote^[depth] text)) = some (some selector) := by
  obtain ⟨result, done, ahead⟩ := Search.run_spec _
    (search_valid (.ofText (quote^[depth] text))) (Nat.lt_succ_self _)
  obtain ⟨other, path, selected⟩ := leads_quote selected depth
  have found : result.isSome = true :=
    ahead.mpr ((search_ahead _).mpr ⟨other, ⟨_, .refl, path⟩, selected⟩)
  obtain ⟨selector, rfl⟩ := Option.isSome_iff_exists.mp found
  exact ⟨_, selector, done⟩

/-- The second of two runs that share a zero is missed. -/
theorem contractRevertSelector_shared_zero :
    contractRevertSelector 100 (.ofText (units "0x123456780x09bde339")) = some none ∧
      ∃ text front run back,
        (ProviderError.ofText (units "0x123456780x09bde339")).Reachable text ∧
          text.map letter = front ++ (run ++ back) ∧ Maximal run back ∧
            selectorOf run ∈ contractErrors := by
  refine ⟨by decide, units "0x123456780x09bde339", "0x12345678".toList,
    "0x09bde339".toList, [], ⟨_, .refl, .refl⟩, by decide, ⟨⟨"09bde339".toList, ?_⟩, ?_⟩, by decide⟩
  · exact ⟨by decide, by decide, List.all_eq_true.mp (by decide)⟩
  · intro letter member
    cases member

end Errors

end ZkApi.Browser.ContractErrors
