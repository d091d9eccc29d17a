import Mathlib.Algebra.Order.Field.Rat
import Mathlib.Data.List.DropRight
import Mathlib.Tactic.FieldSimp
import Mathlib.Tactic.Linarith
import Mathlib.Tactic.NormNum
import Mathlib.Tactic.Positivity
import Mathlib.Tactic.Ring

/-!
# Plain decimal numerals

A plain decimal is a text of digits, perhaps with a point and more digits behind
it.  Every number that has such numerals has a shortest one, which is the one
without superfluous zeros.
-/

namespace Numerals

section Digits

/-- The number that decimal digits denote. -/
def number (digits : List Char) : Nat :=
  Nat.ofDigitChars 10 digits 0

def IsDigits (digits : List Char) : Prop :=
  ∀ letter ∈ digits, letter.isDigit = true

variable {digits other : List Char} {letter : Char}

@[simp]
theorem number_nil : number [] = 0 :=
  Nat.ofDigitChars_nil

theorem number_append (front back : List Char) :
    number (front ++ back) = number front * 10 ^ back.length + number back := by
  rw [number, Nat.ofDigitChars_append, Nat.ofDigitChars_eq_ofDigitChars_zero, Nat.mul_comm]
  rfl

theorem number_cons (letter : Char) (digits : List Char) :
    number (letter :: digits) = number [letter] * 10 ^ digits.length + number digits :=
  number_append [letter] digits

@[simp]
theorem number_zeros (count : Nat) : number (List.replicate count '0') = 0 := by
  rw [number, Nat.ofDigitChars_replicate_zero, Nat.mul_zero]

@[simp]
theorem number_toDigits (value : Nat) : number (Nat.toDigits 10 value) = value :=
  Nat.ofDigitChars_ten_toDigits

theorem isDigits_toDigits (value : Nat) : IsDigits (Nat.toDigits 10 value) :=
  fun _ member => Nat.isDigit_of_mem_toDigits (by decide) (by decide) member

theorem isDigits_zeros (count : Nat) : IsDigits (List.replicate count '0') := by
  intro letter member
  rw [List.eq_of_mem_replicate member]
  rfl

theorem IsDigits.append (first : IsDigits digits) (second : IsDigits other) :
    IsDigits (digits ++ other) := by
  intro letter member
  rcases List.mem_append.mp member with front | back
  · exact first letter front
  · exact second letter back

theorem number_digit (digit : letter.isDigit = true) :
    number [letter] < 10 ∧ letter.toNat = 48 + number [letter] := by
  have value : number [letter] = letter.toNat - 48 := by
    simp [number, Nat.ofDigitChars_cons]
  have range : 48 ≤ letter.toNat ∧ letter.toNat ≤ 57 := by
    simpa [Char.isDigit, UInt32.le_iff_toNat_le] using digit
  omega

theorem number_lt (all : IsDigits digits) : number digits < 10 ^ digits.length := by
  induction digits with
  | nil => simp
  | cons letter digits ih =>
      have rest := ih fun other member => all other (List.mem_cons_of_mem _ member)
      have first := (number_digit (all letter List.mem_cons_self)).1
      calc
        number (letter :: digits)
            = number [letter] * 10 ^ digits.length + number digits := number_cons _ _
        _ < number [letter] * 10 ^ digits.length + 10 ^ digits.length := by omega
        _ = (number [letter] + 1) * 10 ^ digits.length := by ring
        _ ≤ 10 * 10 ^ digits.length := Nat.mul_le_mul_right _ first
        _ = 10 ^ (letter :: digits).length := by rw [List.length_cons, pow_succ, Nat.mul_comm]

theorem parts_eq {base front back frontRest backRest : Nat} (small : frontRest < base)
    (otherSmall : backRest < base) (same : front * base + frontRest = back * base + backRest) :
    front = back ∧ frontRest = backRest := by
  have positive : 0 < base := Nat.zero_lt_of_lt small
  have split : (front * base + frontRest) / base = front ∧
      (front * base + frontRest) % base = frontRest :=
    (Nat.div_mod_unique positive).mpr ⟨by rw [Nat.add_comm, Nat.mul_comm], small⟩
  have otherSplit : (back * base + backRest) / base = back ∧
      (back * base + backRest) % base = backRest :=
    (Nat.div_mod_unique positive).mpr ⟨by rw [Nat.add_comm, Nat.mul_comm], otherSmall⟩
  rw [same] at split
  exact ⟨split.1.symm.trans otherSplit.1, split.2.symm.trans otherSplit.2⟩

/-- Digits are determined by their number and how many there are. -/
theorem number_injective (all : IsDigits digits) (allOther : IsDigits other)
    (length : digits.length = other.length) (same : number digits = number other) :
    digits = other := by
  induction digits generalizing other with
  | nil => exact (List.eq_nil_of_length_eq_zero length.symm).symm
  | cons letter digits ih =>
      cases other with
      | nil => cases length
      | cons another other =>
          have length : digits.length = other.length := by simpa using length
          have digit := number_digit (all letter List.mem_cons_self)
          have anotherDigit := number_digit (allOther another List.mem_cons_self)
          have allRest : IsDigits digits := fun _ member => all _ (List.mem_cons_of_mem _ member)
          have allOtherRest : IsDigits other :=
            fun _ member => allOther _ (List.mem_cons_of_mem _ member)
          have small := number_lt allRest
          have otherSmall := number_lt allOtherRest
          rw [number_cons, number_cons another, length] at same
          rw [length] at small
          have ⟨first, last⟩ := parts_eq small otherSmall same
          have equal : letter = another :=
            Char.toNat_inj.mp (by rw [digit.2, anotherDigit.2, first])
          rw [equal, ih allRest allOtherRest length last]

end Digits

/-- A plain decimal: digits and perhaps a point with more digits, which may be none. -/
structure Decimal where
  whole : List Char
  fraction : Option (List Char)
  nonempty : whole ≠ []
  wholeDigits : IsDigits whole
  fractionDigits : ∀ digits, fraction = some digits → IsDigits digits

namespace Decimal

def text (numeral : Decimal) : List Char :=
  match numeral.fraction with
  | none => numeral.whole
  | some digits => numeral.whole ++ '.' :: digits

/-- The digits behind the point. -/
def decimals (numeral : Decimal) : List Char :=
  numeral.fraction.getD []

/-- The number of digits behind the point. -/
def places (numeral : Decimal) : Nat :=
  numeral.decimals.length

/-- The number that a decimal denotes. -/
def value (numeral : Decimal) : ℚ :=
  number numeral.whole + number numeral.decimals / 10 ^ numeral.places

/-- Every other decimal of the same value is longer. -/
def Shortest (numeral : Decimal) : Prop :=
  ∀ other : Decimal, other.value = numeral.value →
    other.text = numeral.text ∨ numeral.text.length < other.text.length

/-- Without superfluous zeros. -/
structure Canonical (numeral : Decimal) : Prop where
  whole : numeral.whole.length = 1 ∨ 10 ^ (numeral.whole.length - 1) ≤ number numeral.whole
  fraction : ∀ digits, numeral.fraction = some digits → number digits % 10 ≠ 0

section Shortness

variable {numeral other : Decimal}

theorem decimals_isDigits (numeral : Decimal) : IsDigits numeral.decimals := by
  rw [decimals]
  cases fraction : numeral.fraction with
  | none => intro letter member; cases member
  | some digits => exact numeral.fractionDigits digits fraction

theorem text_length_none (none : numeral.fraction = none) :
    numeral.text.length = numeral.whole.length := by
  rw [text, none]

theorem text_length_some {digits : List Char} (some : numeral.fraction = some digits) :
    numeral.text.length = numeral.whole.length + digits.length + 1 := by
  rw [text, some, List.length_append, List.length_cons, Nat.add_assoc]

/-- Equal values have equal whole parts, and fractions that differ in trailing zeros. -/
theorem parts_of_value_eq (same : other.value = numeral.value) :
    number other.whole = number numeral.whole ∧
      number other.decimals * 10 ^ numeral.places =
        number numeral.decimals * 10 ^ other.places := by
  have scaled : (number other.whole * 10 ^ other.places + number other.decimals) *
        10 ^ numeral.places =
      (number numeral.whole * 10 ^ numeral.places + number numeral.decimals) *
        10 ^ other.places := by
    rw [value, value] at same
    field_simp at same
    refine Eq.trans ?_ (Nat.mul_comm _ _)
    exact_mod_cast same
  have small : number other.decimals * 10 ^ numeral.places <
      10 ^ other.places * 10 ^ numeral.places :=
    Nat.mul_lt_mul_of_pos_right (number_lt other.decimals_isDigits) (by positivity)
  have otherSmall : number numeral.decimals * 10 ^ other.places <
      10 ^ other.places * 10 ^ numeral.places := by
    rw [Nat.mul_comm (10 ^ other.places)]
    exact Nat.mul_lt_mul_of_pos_right (number_lt numeral.decimals_isDigits) (by positivity)
  refine parts_eq small otherSmall ?_
  calc
    number other.whole * (10 ^ other.places * 10 ^ numeral.places) +
          number other.decimals * 10 ^ numeral.places
        = (number other.whole * 10 ^ other.places + number other.decimals) *
            10 ^ numeral.places := by ring
    _ = (number numeral.whole * 10 ^ numeral.places + number numeral.decimals) *
            10 ^ other.places := scaled
    _ = number numeral.whole * (10 ^ other.places * 10 ^ numeral.places) +
          number numeral.decimals * 10 ^ other.places := by ring

theorem Canonical.whole_length_le (canonical : numeral.Canonical)
    (same : number other.whole = number numeral.whole) :
    numeral.whole.length ≤ other.whole.length := by
  rcases canonical.whole with single | large
  · rw [single]
    exact List.length_pos_iff.mpr other.nonempty
  · have small := number_lt other.wholeDigits
    rw [same] at small
    have := (Nat.pow_lt_pow_iff_right (by decide)).mp (Nat.lt_of_le_of_lt large small)
    omega

theorem whole_eq (same : number other.whole = number numeral.whole)
    (length : other.whole.length = numeral.whole.length) : other.whole = numeral.whole :=
  number_injective other.wholeDigits numeral.wholeDigits length same

/-- A fraction that does not end in a zero has the fewest places. -/
theorem places_le {front back places otherPlaces : Nat} (last : back % 10 ≠ 0)
    (same : front * 10 ^ places = back * 10 ^ otherPlaces) : places ≤ otherPlaces := by
  by_contra more
  have count : places = otherPlaces + (places - otherPlaces - 1) + 1 := by omega
  have factor : back = front * 10 ^ (places - otherPlaces - 1) * 10 := by
    refine Nat.eq_of_mul_eq_mul_right (Nat.pow_pos (by decide) : 0 < 10 ^ otherPlaces) ?_
    rw [← same]
    conv => lhs; rw [count]
    ring
  rw [factor, Nat.mul_mod_left] at last
  exact last rfl

theorem Canonical.shortest (canonical : numeral.Canonical) : numeral.Shortest := by
  intro other same
  obtain ⟨wholeSame, fractionSame⟩ := parts_of_value_eq same
  have wholeLength := canonical.whole_length_le wholeSame
  cases fraction : numeral.fraction with
  | none =>
      rw [text_length_none fraction]
      cases otherFraction : other.fraction with
      | none =>
          rw [text_length_none otherFraction]
          rcases Nat.lt_or_eq_of_le wholeLength with shorter | equal
          · exact .inr shorter
          · rw [text, text, fraction, otherFraction]
            exact .inl (whole_eq wholeSame equal.symm)
      | some digits =>
          rw [text_length_some otherFraction]
          exact .inr (by omega)
  | some digits =>
      have last := canonical.fraction digits fraction
      have decimalsEq : numeral.decimals = digits := by rw [decimals, fraction, Option.getD_some]
      rw [places, places, decimalsEq] at fractionSame
      rw [text_length_some fraction]
      cases otherFraction : other.fraction with
      | none =>
          -- A fraction that does not end in a zero is not zero.
          rw [decimals, otherFraction, Option.getD_none, number_nil, Nat.zero_mul, List.length_nil,
            pow_zero, Nat.mul_one] at fractionSame
          rw [← fractionSame] at last
          exact absurd rfl last
      | some others =>
          have othersEq : other.decimals = others := by
            rw [decimals, otherFraction, Option.getD_some]
          rw [othersEq] at fractionSame
          have fewer := places_le last fractionSame
          rw [text_length_some otherFraction]
          rcases Nat.lt_or_eq_of_le (Nat.add_le_add wholeLength fewer) with shorter | equal
          · exact .inr (by omega)
          · have length : others.length = digits.length := by omega
            have numbers : number others = number digits := by
              rw [length] at fractionSame
              exact Nat.eq_of_mul_eq_mul_right (Nat.pow_pos (by decide)) fractionSame
            have equalDigits : others = digits :=
              number_injective (other.fractionDigits others otherFraction)
                (numeral.fractionDigits digits fraction) length numbers
            rw [text, text, fraction, otherFraction, equalDigits,
              whole_eq wholeSame (by omega)]
            exact .inl rfl

end Shortness

section Scaled

variable {places amount : Nat}

/-- The digits behind the point of an amount in units of a decimal place, all of them. -/
def scaledDigits (places amount : Nat) : List Char :=
  List.replicate (places - (Nat.toDigits 10 (amount % 10 ^ places)).length) '0' ++
    Nat.toDigits 10 (amount % 10 ^ places)

/-- Digits without the zeros at their end. -/
def stripZeros (digits : List Char) : List Char :=
  digits.rdropWhile (· == '0')

theorem stripZeros_append (digits : List Char) :
    stripZeros digits ++ List.replicate (digits.length - (stripZeros digits).length) '0' =
      digits := by
  have whole : stripZeros digits ++ digits.rtakeWhile (· == '0') = digits :=
    List.rdropWhile_append_rtakeWhile
  have zeros : digits.rtakeWhile (· == '0') =
      List.replicate (digits.rtakeWhile (· == '0')).length '0' := by
    refine List.eq_replicate_iff.mpr ⟨rfl, fun letter member => ?_⟩
    exact beq_iff_eq.mp (List.mem_rtakeWhile_imp (p := (· == '0')) member)
  have count : (digits.rtakeWhile (· == '0')).length =
      digits.length - (stripZeros digits).length := by
    have lengths := congrArg List.length whole
    rw [List.length_append] at lengths
    omega
  rw [← count, ← zeros, whole]

theorem stripZeros_isDigits {digits : List Char} (all : IsDigits digits) :
    IsDigits (stripZeros digits) :=
  fun _ member => all _ ((List.rdropWhile_prefix _ digits).subset member)

theorem number_stripZeros_mod {digits : List Char} (all : IsDigits digits)
    (some : stripZeros digits ≠ []) : number (stripZeros digits) % 10 ≠ 0 := by
  have notZero : ¬ ((stripZeros digits).getLast some == '0') = true :=
    List.rdropWhile_last_not _ _ some
  have digit := number_digit (stripZeros_isDigits all _ (List.getLast_mem some))
  have front := List.dropLast_append_getLast some
  rw [← front, number_append, List.length_singleton, pow_one, Nat.mul_add_mod_of_lt digit.1]
  intro zero
  rw [zero] at digit
  exact notZero (beq_iff_eq.mpr (Char.toNat_inj.mp digit.2))

theorem isDigits_scaledDigits (places amount : Nat) : IsDigits (scaledDigits places amount) :=
  (isDigits_zeros _).append (isDigits_toDigits _)

theorem length_scaledDigits (positive : 0 < places) :
    (scaledDigits places amount).length = places := by
  have fits : (Nat.toDigits 10 (amount % 10 ^ places)).length ≤ places :=
    (Nat.length_toDigits_le_iff (by decide) positive).mpr
      (Nat.mod_lt _ (Nat.pow_pos (by decide)))
  rw [scaledDigits, List.length_append, List.length_replicate, Nat.sub_add_cancel fits]

theorem number_scaledDigits : number (scaledDigits places amount) = amount % 10 ^ places := by
  rw [scaledDigits, number_append, number_zeros, Nat.zero_mul, Nat.zero_add, number_toDigits]

/-- The fraction of an amount in units of a decimal place. -/
def scaledFraction (places amount : Nat) : Option (List Char) :=
  match stripZeros (scaledDigits places amount) with
  | [] => none
  | digit :: digits => some (digit :: digits)

theorem scaledFraction_eq_some {digits : List Char}
    (some : scaledFraction places amount = some digits) :
    stripZeros (scaledDigits places amount) = digits ∧ digits ≠ [] := by
  unfold scaledFraction at some
  split at some
  · cases some
  · next digit rest strip =>
      cases some
      exact ⟨strip, List.cons_ne_nil digit rest⟩

theorem scaledFraction_getD :
    (scaledFraction places amount).getD [] = stripZeros (scaledDigits places amount) := by
  unfold scaledFraction
  split
  · next strip => rw [strip, Option.getD_none]
  · next digit rest strip => rw [strip, Option.getD_some]

theorem scaledFraction_digits (places amount : Nat) :
    ∀ digits, scaledFraction places amount = some digits → IsDigits digits := by
  intro digits fraction
  rw [← (scaledFraction_eq_some fraction).1]
  exact stripZeros_isDigits (isDigits_scaledDigits places amount)

/-- The decimal of an amount in units of a decimal place. -/
def ofScaled (places amount : Nat) : Decimal where
  whole := Nat.toDigits 10 (amount / 10 ^ places)
  fraction := scaledFraction places amount
  nonempty := Nat.toDigits_ne_nil
  wholeDigits := isDigits_toDigits _
  fractionDigits := scaledFraction_digits places amount

theorem toDigits_canonical (value : Nat) :
    (Nat.toDigits 10 value).length = 1 ∨ 10 ^ ((Nat.toDigits 10 value).length - 1) ≤ value := by
  have positive : 0 < (Nat.toDigits 10 value).length :=
    List.length_pos_iff.mpr Nat.toDigits_ne_nil
  rcases Nat.eq_or_lt_of_le positive with single | more
  · exact .inl single.symm
  · refine .inr (Nat.le_of_not_lt fun small => ?_)
    have := (Nat.length_toDigits_le_iff (by decide) (Nat.sub_pos_of_lt more)).mpr small
    omega

theorem ofScaled_canonical (places amount : Nat) : (ofScaled places amount).Canonical where
  whole := by
    simpa [ofScaled] using toDigits_canonical (amount / 10 ^ places)
  fraction := by
    intro digits fraction
    obtain ⟨strip, some⟩ := scaledFraction_eq_some fraction
    rw [← strip] at some ⊢
    exact number_stripZeros_mod (isDigits_scaledDigits places amount) some

theorem ofScaled_places_le (positive : 0 < places) : (ofScaled places amount).places ≤ places := by
  have digits : (ofScaled places amount).decimals = stripZeros (scaledDigits places amount) :=
    scaledFraction_getD
  have length := congrArg List.length (stripZeros_append (scaledDigits places amount))
  rw [List.length_append, length_scaledDigits positive] at length
  rw [Decimal.places, digits]
  omega

theorem ofScaled_value (positive : 0 < places) :
    (ofScaled places amount).value = amount / 10 ^ places := by
  have digits : (ofScaled places amount).decimals = stripZeros (scaledDigits places amount) :=
    scaledFraction_getD
  have strip := stripZeros_append (scaledDigits places amount)
  have count : (ofScaled places amount).places ≤ places := ofScaled_places_le positive
  rw [Decimal.places, digits] at count
  have rest : number (stripZeros (scaledDigits places amount)) *
      10 ^ (places - (stripZeros (scaledDigits places amount)).length) =
        amount % 10 ^ places := by
    have numbers := congrArg number strip
    rw [number_append, number_zeros, List.length_replicate, length_scaledDigits positive,
      number_scaledDigits, Nat.add_zero] at numbers
    exact numbers
  have whole : number (ofScaled places amount).whole = amount / 10 ^ places :=
    number_toDigits _
  rw [value, Decimal.places, digits, whole]
  generalize number (stripZeros (scaledDigits places amount)) = front at rest
  generalize (stripZeros (scaledDigits places amount)).length = length at rest count
  have total : amount =
      amount / 10 ^ places * 10 ^ places + front * 10 ^ (places - length) := by
    rw [rest, Nat.mul_comm, Nat.div_add_mod]
  have power : (10 : ℚ) ^ places = 10 ^ length * 10 ^ (places - length) := by
    rw [← pow_add, Nat.add_sub_cancel' count]
  have cast : (amount : ℚ) = ((amount / 10 ^ places : Nat) : ℚ) * 10 ^ places +
      front * 10 ^ (places - length) := by
    exact_mod_cast total
  rw [eq_div_iff (by positivity), cast, add_mul]
  congr 1
  rw [power, div_mul_eq_mul_div, div_eq_iff (by positivity)]
  ring

end Scaled

end Decimal

end Numerals
