import ZkApi.JsonTexts

/-!
# Contract errors in the errors of a provider

A provider wraps the error of a reverted call in objects and in JSON texts of its own.
The page searches all of them for the selector of an error that it knows.
-/

namespace ZkApi.Browser.ContractErrors

open Indexer (hexDigit)
open JsonTexts

section Selectors

/-- The keys of `CONTRACT_ERRORS`. -/
def contractErrors : List String :=
  ["0x09bde339", "0x607447de", "0x947e59c5", "0x61a83aab", "0xc52e3eff", "0x9722445b",
    "0xd9876be8", "0x3be553f2", "0x151f07fe", "0x5274afe7"]

def isHexDigit (letter : Char) : Bool :=
  (hexDigit letter).isSome

/-- The match of `/0x[0-9a-fA-F]{8,}/` at the start of a text. -/
def runAt : List Char → Option (List Char)
  | '0' :: 'x' :: text =>
    let digits := text.takeWhile isHexDigit
    if 8 ≤ digits.length then some ('0' :: 'x' :: digits) else none
  | _ => none

/-- `matchAll`: the matches from left to right.  The first characters may still belong to the
match before. -/
def matchAll : Nat → List Char → List (List Char)
  | _, [] => []
  | taken + 1, _ :: text => matchAll taken text
  | 0, letter :: text =>
    match runAt (letter :: text) with
    | some run => run :: matchAll (run.length - 1) text
    | none => matchAll 0 text

/-- `match[0].slice(0, 10).toLowerCase()`. -/
def selectorOf (run : List Char) : String :=
  String.ofList ((run.take 10).map Char.toLower)

def matchingSelector (value : Text) : Option String :=
  ((matchAll 0 (value.map letter)).map selectorOf).find? fun selector =>
    selector ∈ contractErrors

end Selectors

section Values

/-- A JavaScript value.  Objects and arrays have identities; `undefined` is like null here. -/
inductive Value where
  | null
  | boolean (value : Bool)
  | number
  | string (text : Text)
  | object (identity : Nat)
deriving DecidableEq

/-- `Object.values` of every object. -/
abbrev Heap := List (List Value)

/-- The objects of a value exist. -/
def Value.Within (bound : Nat) : Value → Prop
  | .object identity => identity < bound
  | _ => True

def Closed (heap : Heap) : Prop :=
  ∀ values ∈ heap, ∀ value ∈ values, value.Within heap.length

/-- The error of a provider: a finite graph of values, which may have cycles. -/
structure ProviderError where
  heap : Heap
  value : Value
  closed : Closed heap
  within : value.Within heap.length

mutual

/-- Decoding creates every object anew. -/
def allocate : Decoded → Heap → Heap × Value
  | .null, heap => (heap, .null)
  | .boolean value, heap => (heap, .boolean value)
  | .number, heap => (heap, .number)
  | .string text, heap => (heap, .string text)
  | .object values, heap =>
    let (heap, contents) := allocateAll values heap
    (heap ++ [contents], .object heap.length)

def allocateAll : List Decoded → Heap → Heap × List Value
  | [], heap => (heap, [])
  | value :: values, heap =>
    let (heap, first) := allocate value heap
    let (heap, rest) := allocateAll values heap
    (heap, first :: rest)

end

end Values

section Search

structure Search where
  heap : Heap
  queue : List Value
  seen : List Nat

/-- A turn of the loop returns or leaves a search for the next turn. -/
inductive Turn where
  | returns (selector : Option String)
  | continues (search : Search)

def Search.turn (search : Search) : Turn :=
  match search.queue with
  | [] => .returns none
  | .string text :: queue =>
    match matchingSelector text with
    | some selector => .returns (some selector)
    | none =>
      match parse text with
      | some decoded =>
        let (heap, value) := allocate decoded search.heap
        .continues { search with heap := heap, queue := queue ++ [value] }
      | none => .continues { search with queue := queue }
  | .object identity :: queue =>
    if identity ∈ search.seen then .continues { search with queue := queue }
    else
      .continues
        { search with
          queue := queue ++ search.heap.getD identity []
          seen := identity :: search.seen }
  | _ :: queue => .continues { search with queue := queue }

/-- The loop for a number of turns; nothing if it has not returned by then. -/
def Search.run : Nat → Search → Option (Option String)
  | 0, _ => none
  | turns + 1, search =>
    match search.turn with
    | .returns selector => some selector
    | .continues next => next.run turns

def ProviderError.search (error : ProviderError) : Search where
  heap := error.heap
  queue := [error.value]
  seen := []

/-- What the search returns within a number of turns. -/
def contractRevertSelector (turns : Nat) (error : ProviderError) : Option (Option String) :=
  error.search.run turns

end Search

section Allocation

mutual

theorem allocate_isPrefix (value : Decoded) (heap : Heap) : heap <+: (allocate value heap).1 := by
  cases value with
  | object values =>
      rw [allocate]
      exact (allocateAll_isPrefix values heap).trans (List.prefix_append _ _)
  | _ => exact List.prefix_refl heap

theorem allocateAll_isPrefix (values : List Decoded) (heap : Heap) :
    heap <+: (allocateAll values heap).1 := by
  cases values with
  | nil => exact List.prefix_refl heap
  | cons value values =>
      rw [allocateAll]
      exact (allocate_isPrefix value heap).trans (allocateAll_isPrefix values _)

end

theorem Value.Within.mono {bound more : Nat} {value : Value} (within : value.Within bound)
    (le : bound ≤ more) : value.Within more := by
  cases value with
  | object identity => exact Nat.lt_of_lt_of_le within le
  | _ => trivial

/-- A closed heap stays closed when an object is added whose values exist. -/
theorem Closed.append {heap : Heap} {contents : List Value} (closed : Closed heap)
    (within : ∀ value ∈ contents, value.Within heap.length) : Closed (heap ++ [contents]) := by
  intro values member value inside
  rw [List.length_append]
  rcases List.mem_append.mp member with old | new
  · exact (closed values old value inside).mono (Nat.le_add_right _ _)
  · rw [List.mem_singleton.mp new] at inside
    exact (within value inside).mono (Nat.le_add_right _ _)

mutual

theorem allocate_closed (value : Decoded) {heap : Heap} (closed : Closed heap) :
    Closed (allocate value heap).1 ∧
      (allocate value heap).2.Within (allocate value heap).1.length := by
  cases value with
  | object values =>
      obtain ⟨closed, within⟩ := allocateAll_closed values closed
      rw [allocate]
      refine ⟨closed.append within, ?_⟩
      simp only [Value.Within, List.length_append, List.length_singleton]
      omega
  | _ => exact ⟨closed, trivial⟩

theorem allocateAll_closed (values : List Decoded) {heap : Heap} (closed : Closed heap) :
    Closed (allocateAll values heap).1 ∧
      ∀ value ∈ (allocateAll values heap).2, value.Within (allocateAll values heap).1.length := by
  cases values with
  | nil => exact ⟨closed, fun _ member => (by cases member)⟩
  | cons value values =>
      obtain ⟨closed, first⟩ := allocate_closed value closed
      obtain ⟨closed, rest⟩ := allocateAll_closed values closed
      rw [allocateAll]
      refine ⟨closed, fun other member => ?_⟩
      rcases List.mem_cons.mp member with rfl | member
      · exact first.mono (allocateAll_isPrefix values _).length_le
      · exact rest other member

end

end Allocation

section Weights

/-- A string counts one more than its units, and everything else counts one. -/
def Value.weight : Value → Nat
  | .string text => text.length + 1
  | _ => 1

def contentsWeight (values : List Value) : Nat :=
  (values.map Value.weight).sum

def heapWeight (heap : Heap) : Nat :=
  (heap.map contentsWeight).sum

@[simp]
theorem contentsWeight_nil : contentsWeight [] = 0 :=
  rfl

@[simp]
theorem contentsWeight_cons (value : Value) (values : List Value) :
    contentsWeight (value :: values) = value.weight + contentsWeight values := by
  rw [contentsWeight, List.map_cons, List.sum_cons, contentsWeight]

@[simp]
theorem contentsWeight_append (first second : List Value) :
    contentsWeight (first ++ second) = contentsWeight first + contentsWeight second := by
  rw [contentsWeight, List.map_append, List.sum_append, contentsWeight, contentsWeight]

theorem heapWeight_append (first second : Heap) :
    heapWeight (first ++ second) = heapWeight first + heapWeight second := by
  rw [heapWeight, List.map_append, List.sum_append, heapWeight, heapWeight]

theorem heapWeight_singleton (values : List Value) :
    heapWeight [values] = contentsWeight values := by
  rw [heapWeight, List.map_singleton, List.sum_singleton]

mutual

/-- A decoded value weighs as much as its copy in the heap. -/
theorem allocate_weight (value : Decoded) (heap : Heap) :
    heapWeight (allocate value heap).1 + (allocate value heap).2.weight =
      heapWeight heap + value.weight := by
  cases value with
  | object values =>
      have contents := allocateAll_weight values heap
      rw [allocate, Decoded.weight]
      simp only [heapWeight_append, heapWeight_singleton, Value.weight]
      omega
  | _ => rfl

theorem allocateAll_weight (values : List Decoded) (heap : Heap) :
    heapWeight (allocateAll values heap).1 + contentsWeight (allocateAll values heap).2 =
      heapWeight heap + weights values := by
  cases values with
  | nil => rfl
  | cons value values =>
      have first := allocate_weight value heap
      have rest := allocateAll_weight values (allocate value heap).1
      rw [allocateAll, weights]
      simp only [contentsWeight_cons]
      omega

end

/-- The weight of the values of objects that were not seen, from an identity on. -/
def unvisited (seen : List Nat) : Nat → Heap → Nat
  | _, [] => 0
  | identity, values :: heap =>
    (if identity ∈ seen then 0 else contentsWeight values) + unvisited seen (identity + 1) heap

theorem unvisited_le (seen : List Nat) (identity : Nat) (heap : Heap) :
    unvisited seen identity heap ≤ heapWeight heap := by
  induction heap generalizing identity with
  | nil => exact Nat.le_refl 0
  | cons values heap ih =>
      have rest := ih (identity + 1)
      rw [unvisited, heapWeight, List.map_cons, List.sum_cons]
      rw [heapWeight] at rest
      split <;> omega

theorem unvisited_append (seen : List Nat) (identity : Nat) (heap added : Heap) :
    unvisited seen identity (heap ++ added) ≤ unvisited seen identity heap + heapWeight added := by
  induction heap generalizing identity with
  | nil => simpa [unvisited] using unvisited_le seen identity added
  | cons values heap ih =>
      have rest := ih (identity + 1)
      rw [List.cons_append, unvisited, unvisited]
      omega

theorem unvisited_cons_le (other : Nat) (seen : List Nat) (identity : Nat) (heap : Heap) :
    unvisited (other :: seen) identity heap ≤ unvisited seen identity heap := by
  induction heap generalizing identity with
  | nil => exact Nat.le_refl 0
  | cons values heap ih =>
      have rest := ih (identity + 1)
      rw [unvisited, unvisited]
      by_cases old : identity ∈ seen
      · rw [if_pos (List.mem_cons_of_mem _ old), if_pos old]
        omega
      · rw [if_neg old]
        split <;> omega

/-- Seeing an object takes the weight of its values. -/
theorem unvisited_visit {seen : List Nat} {first position : Nat} {heap : Heap}
    {values : List Value} (found : heap[position]? = some values)
    (fresh : first + position ∉ seen) :
    unvisited ((first + position) :: seen) first heap + contentsWeight values ≤
      unvisited seen first heap := by
  induction heap generalizing first position with
  | nil => cases found
  | cons head heap ih =>
      cases position with
      | zero =>
          cases found
          have rest := unvisited_cons_le first seen (first + 1) heap
          rw [Nat.add_zero] at fresh ⊢
          rw [unvisited, unvisited, if_pos List.mem_cons_self, if_neg fresh]
          omega
      | succ position =>
          have shift : first + (position + 1) = first + 1 + position := by omega
          rw [shift] at fresh ⊢
          have rest := ih found fresh
          rw [unvisited, unvisited]
          by_cases old : first ∈ seen
          · rw [if_pos (List.mem_cons_of_mem _ old), if_pos old]
            omega
          · rw [if_neg old]
            split <;> omega

end Weights

end ZkApi.Browser.ContractErrors
