import Mathlib.Data.List.Basic
import Mathlib.Data.List.Forall2
import Mathlib.Tactic.Ring

/-!
# Reading ABI arguments

The arguments of a contract call are a sequence of words of thirty-two bytes.  Static arguments
stand in the head one after the other, and a dynamic one is found through an offset from the
start of the arguments.  Calldata is read here as hexadecimal digits.
-/

namespace Abi

/-- The number of hexadecimal digits of a word. -/
def wordDigits : Nat := 64

/-- The number that digits encode. -/
def number (digits : List Nat) : Nat :=
  digits.foldl (fun value digit => 16 * value + digit) 0

/-- The word that starts at a byte of the arguments. -/
def wordAt (arguments : List Nat) (start : Nat) : Option Nat :=
  let digits := (arguments.drop (2 * start)).take wordDigits
  if digits.length = wordDigits then some (number digits) else none

/-- Pairs of digits as bytes. -/
def bytesOf : List Nat → List Nat
  | high :: low :: rest => (16 * high + low) :: bytesOf rest
  | _ => []

/-- Some bytes from a byte of the arguments on. -/
def bytesAt (arguments : List Nat) (start count : Nat) : Option (List Nat) :=
  let digits := (arguments.drop (2 * start)).take (2 * count)
  if digits.length = 2 * count then some (bytesOf digits) else none

/-- Consecutive words. -/
def wordsAt (arguments : List Nat) (start : Nat) : Nat → Option (List Nat)
  | 0 => some []
  | count + 1 => do
      let first ← wordAt arguments start
      let rest ← wordsAt arguments (start + 32) count
      some (first :: rest)

/-- A dynamic argument of bytes, found at its offset: a length and then the bytes. -/
def dynamicBytes (arguments : List Nat) (offset : Nat) : Option (List Nat) := do
  let length ← wordAt arguments offset
  bytesAt arguments (offset + 32) length

section Layout

/-- Digits that consist of whole words. -/
def Words (words : List (List Nat)) : Prop :=
  ∀ word ∈ words, word.length = wordDigits

variable {words : List (List Nat)}

theorem Words.tail {word : List Nat} (whole : Words (word :: words)) : Words words :=
  fun other member => whole other (List.mem_cons_of_mem _ member)

theorem Words.length_flatten (whole : Words words) :
    words.flatten.length = wordDigits * words.length := by
  induction words with
  | nil => rfl
  | cons word words ih =>
      rw [List.flatten_cons, List.length_append, ih whole.tail, whole word List.mem_cons_self,
        List.length_cons, Nat.mul_succ, Nat.add_comm]

/-- Leaving whole words out leaves the later ones. -/
theorem Words.drop_flatten (whole : Words words) {count : Nat} (within : count ≤ words.length) :
    words.flatten.drop (2 * (32 * count)) = (words.drop count).flatten := by
  induction words generalizing count with
  | nil => simp
  | cons word words ih =>
      cases count with
      | zero => rfl
      | succ count =>
          have first := whole word List.mem_cons_self
          have split : 2 * (32 * (count + 1)) = word.length + 2 * (32 * count) := by
            rw [first, wordDigits]
            omega
          rw [List.flatten_cons, split, List.drop_append, List.drop_eq_nil_of_le (by omega),
            List.nil_append, Nat.add_sub_cancel_left, List.drop_succ_cons]
          exact ih whole.tail (by simpa using within)

/-- The word at the start of an item is the item. -/
theorem Words.wordAt_flatten (whole : Words words) {index : Nat} {word : List Nat}
    (found : words[index]? = some word) :
    wordAt words.flatten (32 * index) = some (number word) := by
  obtain ⟨within, same⟩ := List.getElem?_eq_some_iff.mp found
  have member : word ∈ words := same ▸ List.getElem_mem within
  have length := whole word member
  have taken : (words.flatten.drop (2 * (32 * index))).take wordDigits = word := by
    rw [whole.drop_flatten (Nat.le_of_lt within), List.drop_eq_getElem_cons within, same,
      List.flatten_cons, ← length, List.take_left']
    rfl
  simp only [wordAt, taken, length, if_true]

/-- Consecutive words are consecutive items. -/
theorem Words.wordsAt_flatten {before items after : List (List Nat)}
    (whole : Words (before ++ (items ++ after))) :
    wordsAt (before ++ (items ++ after)).flatten (32 * before.length) items.length =
      some (items.map number) := by
  induction items generalizing before with
  | nil => rfl
  | cons item items ih =>
      have first : (before ++ (item :: items ++ after))[before.length]? = some item := by simp
      have rest := @ih (before ++ [item]) (by simpa using whole)
      have next : 32 * (before ++ [item]).length = 32 * before.length + 32 := by
        rw [List.length_append, List.length_singleton]
        omega
      rw [next, List.append_assoc, List.singleton_append, ← List.cons_append] at rest
      rw [List.length_cons, wordsAt, whole.wordAt_flatten first, Option.bind_eq_bind,
        Option.bind_some, rest]
      rfl

/-- Bytes at the end of the words. -/
theorem Words.bytesAt_flatten {front back : List (List Nat)} (whole : Words (front ++ back))
    {count : Nat} (length : back.flatten.length = 2 * count) :
    bytesAt (front ++ back).flatten (32 * front.length) count = some (bytesOf back.flatten) := by
  have dropped : (front ++ back).flatten.drop (2 * (32 * front.length)) = back.flatten := by
    rw [whole.drop_flatten (by simp), List.drop_left]
  simp only [bytesAt, dropped]
  rw [List.take_of_length_le (Nat.le_of_eq length), if_pos length]

end Layout

section Numbers

theorem number_foldl (digits : List Nat) (start : Nat) :
    digits.foldl (fun value digit => 16 * value + digit) start =
      start * 16 ^ digits.length + number digits := by
  induction digits generalizing start with
  | nil => simp [number]
  | cons digit digits ih =>
      rw [number, List.foldl_cons, List.foldl_cons, ih, ih (16 * 0 + digit), List.length_cons,
        pow_succ]
      ring

theorem number_cons (digit : Nat) (digits : List Nat) :
    number (digit :: digits) = digit * 16 ^ digits.length + number digits := by
  rw [number, List.foldl_cons, number_foldl, Nat.mul_zero, Nat.zero_add]

/-- The digits of a number can be cut anywhere. -/
theorem number_split (front back : List Nat) :
    number (front ++ back) = number front * 16 ^ back.length + number back := by
  rw [number, List.foldl_append, number_foldl]
  rfl

theorem number_lt {digits : List Nat} (small : ∀ digit ∈ digits, digit < 16) :
    number digits < 16 ^ digits.length := by
  induction digits with
  | nil => exact Nat.one_pos
  | cons digit digits ih =>
      have rest := ih fun other member => small other (List.mem_cons_of_mem _ member)
      have first : digit + 1 ≤ 16 := small digit List.mem_cons_self
      calc number (digit :: digits)
        _ = digit * 16 ^ digits.length + number digits := number_cons digit digits
        _ < digit * 16 ^ digits.length + 16 ^ digits.length := Nat.add_lt_add_left rest _
        _ = (digit + 1) * 16 ^ digits.length := by ring
        _ ≤ 16 * 16 ^ digits.length := Nat.mul_le_mul_right _ first
        _ = 16 ^ (digit :: digits).length := by rw [List.length_cons, pow_succ, Nat.mul_comm]

/-- A number is zero only if all its digits are. -/
theorem number_eq_zero {digits : List Nat} :
    number digits = 0 ↔ ∀ digit ∈ digits, digit = 0 := by
  induction digits with
  | nil => simp [number]
  | cons digit digits ih => simp [number_cons, ih]

end Numbers

end Abi
