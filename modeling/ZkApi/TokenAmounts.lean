import ZkApi.Numerals
import ZkApi.VaultCalldata

/-!
# Token amounts

The page reads and prints amounts of the billing token in units of a millionth.
An accepted text is a plain decimal with at most six digits behind the point, and
an amount is printed as the shortest decimal that denotes it.
-/

namespace ZkApi.Browser.Tokens

open Numerals
open Calldata (padStart)

section Texts

/-- The white space and line ends that `trim` removes. -/
def isTrimmed (letter : Char) : Bool :=
  letter ∈ ['\t', '\n', '\x0b', '\x0c', '\r', ' ', '\xa0', '\u1680', '\u2028', '\u2029', '\u202f',
    '\u205f', '\u3000', '\ufeff'] ||
  ('\u2000' ≤ letter && letter ≤ '\u200a')

def trim (text : List Char) : List Char :=
  (text.dropWhile isTrimmed).rdropWhile isTrimmed

/-- The groups of `/^(\d+)(?:\.(\d{0,6}))?$/`. -/
def matchAmount (text : List Char) : Option (List Char × Option (List Char)) :=
  let whole := text.takeWhile Char.isDigit
  if whole.isEmpty then none
  else
    match text.dropWhile Char.isDigit with
    | [] => some (whole, none)
    | letter :: fraction =>
      if letter == '.' && fraction.all Char.isDigit && fraction.length ≤ 6 then
        some (whole, some fraction)
      else none

/-- `padEnd(width, "0")`. -/
def padEnd (width : Nat) (digits : List Char) : List Char :=
  digits ++ List.replicate (width - digits.length) '0'

/-- `BigInt` of digits. -/
def bigInt (digits : List Char) : Int :=
  Nat.ofDigitChars 10 digits 0

/-- `digits || other`. -/
def orElse (digits other : List Char) : List Char :=
  if digits.isEmpty then other else digits

def parseTokenAmount (value : String) : Except String Int :=
  match matchAmount (trim value.toList) with
  | none => .error "Enter a positive amount with no more than six decimal places."
  | some (whole, fraction) =>
    .ok (bigInt whole * 1000000 + bigInt (orElse (padEnd 6 (fraction.getD [])) ['0']))

/-- `BigInt` division and remainder round towards zero. -/
def formatTokenAmount (value : Int) : String :=
  let whole := value.tdiv 1000000
  let fraction := (padStart 6 (toString (value.tmod 1000000)).toList).rdropWhile (· == '0')
  if fraction.isEmpty then toString whole
  else toString whole ++ "." ++ String.ofList fraction

end Texts

section Numerals

variable {text : List Char} {whole : List Char} {fraction : Option (List Char)} {amount : Nat}

theorem bigInt_eq (digits : List Char) : bigInt digits = number digits :=
  rfl

theorem number_padEnd {width : Nat} {digits : List Char} :
    number (padEnd width digits) = number digits * 10 ^ (width - digits.length) := by
  rw [padEnd, number_append, number_zeros, List.length_replicate, Nat.add_zero]

/-- The text that the groups of a match spell. -/
def spelled (whole : List Char) : Option (List Char) → List Char
  | none => whole
  | some fraction => whole ++ '.' :: fraction

theorem takeWhile_digits (rest : List Char) (digits : IsDigits whole)
    (stop : ∀ letter ∈ rest.head?, letter.isDigit = false) :
    (whole ++ rest).takeWhile Char.isDigit = whole ∧
      (whole ++ rest).dropWhile Char.isDigit = rest := by
  induction whole with
  | nil =>
      cases rest with
      | nil => exact ⟨rfl, rfl⟩
      | cons letter rest =>
          have other : letter.isDigit = false := stop letter rfl
          simp [other]
  | cons letter whole ih =>
      have digit : letter.isDigit = true := digits letter List.mem_cons_self
      have rest := ih fun other member => digits other (List.mem_cons_of_mem _ member)
      simp [digit, rest]

/-- The match gives the digits of a plain decimal with at most six digits behind the point. -/
theorem matchAmount_eq_some :
    matchAmount text = some (whole, fraction) ↔
      whole ≠ [] ∧ IsDigits whole ∧ (∀ digits, fraction = some digits → IsDigits digits) ∧
        (fraction.getD []).length ≤ 6 ∧ text = spelled whole fraction := by
  constructor
  · intro matched
    have split := List.takeWhile_append_dropWhile (p := Char.isDigit) (l := text)
    have digits : IsDigits (text.takeWhile Char.isDigit) :=
      fun _ member => List.mem_takeWhile_imp member
    have nonempty : text.takeWhile Char.isDigit ≠ [] := by
      intro nil
      simp [matchAmount, nil] at matched
    simp only [matchAmount, List.isEmpty_iff, nonempty, if_false] at matched
    split at matched
    · next rest =>
        cases matched
        rw [rest, List.append_nil] at split
        exact ⟨nonempty, digits, fun _ other => (by cases other), Nat.zero_le 6, split.symm⟩
    · next letter behind rest =>
        split at matched
        · next accepted =>
            cases matched
            simp only [Bool.and_eq_true, beq_iff_eq, List.all_eq_true,
              decide_eq_true_eq] at accepted
            obtain ⟨⟨rfl, behindDigits⟩, short⟩ := accepted
            rw [rest] at split
            refine ⟨nonempty, digits, ?_, short, split.symm⟩
            intro other same
            cases same
            exact behindDigits
        · cases matched
  · rintro ⟨nonempty, digits, fractionDigits, short, rfl⟩
    cases fraction with
    | none =>
        obtain ⟨front, rest⟩ := takeWhile_digits [] digits (by simp)
        rw [List.append_nil] at front rest
        simp [matchAmount, spelled, front, rest, nonempty]
    | some behind =>
        obtain ⟨front, rest⟩ := takeWhile_digits ('.' :: behind) digits (by simp)
        have behindDigits : behind.all Char.isDigit = true :=
          List.all_eq_true.mpr (fractionDigits behind rfl)
        rw [Option.getD_some] at short
        rw [matchAmount, spelled, front, rest]
        simp [nonempty, behindDigits, short]

/-- The decimal that an accepted text spells. -/
theorem exists_decimal (matched : matchAmount text = some (whole, fraction)) :
    ∃ numeral : Decimal, numeral.text = text ∧ numeral.whole = whole ∧
      numeral.fraction = fraction ∧ numeral.places ≤ 6 := by
  obtain ⟨nonempty, digits, fractionDigits, short, spells⟩ := matchAmount_eq_some.mp matched
  refine ⟨⟨whole, fraction, nonempty, digits, fractionDigits⟩, ?_, rfl, rfl, short⟩
  rw [spells]
  cases fraction <;> rfl

theorem matchAmount_decimal (numeral : Decimal) (short : numeral.places ≤ 6) :
    matchAmount numeral.text = some (numeral.whole, numeral.fraction) := by
  refine matchAmount_eq_some.mpr
    ⟨numeral.nonempty, numeral.wholeDigits, numeral.fractionDigits, short, ?_⟩
  rw [Decimal.text]
  cases numeral.fraction <;> rfl

theorem orElse_padEnd (digits : List Char) : orElse (padEnd 6 digits) ['0'] = padEnd 6 digits := by
  have some : padEnd 6 digits ≠ [] := by
    intro nil
    have length := congrArg List.length nil
    rw [padEnd, List.length_append, List.length_replicate, List.length_nil] at length
    omega
  rw [orElse, if_neg (mt List.isEmpty_iff.mp some)]

/-- The millionths that a decimal counts. -/
def millionths (numeral : Decimal) : Nat :=
  number numeral.whole * 1000000 + number numeral.decimals * 10 ^ (6 - numeral.places)

theorem millionths_eq {numeral : Decimal} (short : numeral.places ≤ 6) :
    (millionths numeral : ℚ) = 10 ^ 6 * numeral.value := by
  have power : (10 : ℚ) ^ 6 = 10 ^ numeral.places * 10 ^ (6 - numeral.places) := by
    rw [← pow_add, Nat.add_sub_cancel' short]
  have places : (10 : ℚ) ^ numeral.places ≠ 0 := by positivity
  have decimals : (10 : ℚ) ^ 6 * (number numeral.decimals / 10 ^ numeral.places) =
      number numeral.decimals * 10 ^ (6 - numeral.places) := by
    rw [power]
    field_simp
  rw [millionths, Decimal.value, mul_add, decimals]
  push_cast
  norm_num [mul_comm]

theorem bigInt_parts (numeral : Decimal) :
    bigInt numeral.whole * 1000000 +
        bigInt (orElse (padEnd 6 (numeral.fraction.getD [])) ['0']) = millionths numeral := by
  rw [orElse_padEnd, bigInt_eq, bigInt_eq, number_padEnd, millionths, Decimal.places,
    Decimal.decimals]
  push_cast
  rfl

/-- A text is accepted exactly if it spells a decimal with at most six digits behind the point. -/
theorem parseTokenAmount_eq_ok {value : String} {result : Int} :
    parseTokenAmount value = .ok result ↔
      ∃ numeral : Decimal, numeral.text = trim value.toList ∧ numeral.places ≤ 6 ∧
        result = millionths numeral := by
  constructor
  · intro parsed
    unfold parseTokenAmount at parsed
    split at parsed
    · cases parsed
    · next whole fraction matched =>
        cases parsed
        obtain ⟨numeral, spells, rfl, rfl, short⟩ := exists_decimal matched
        exact ⟨numeral, spells, short, bigInt_parts numeral⟩
  · rintro ⟨numeral, spells, short, rfl⟩
    rw [parseTokenAmount, ← spells, matchAmount_decimal numeral short]
    exact congrArg Except.ok (bigInt_parts numeral)

/-- Every other text is an error. -/
theorem parseTokenAmount_eq_error {value : String} :
    parseTokenAmount value =
        .error "Enter a positive amount with no more than six decimal places." ↔
      ¬ ∃ numeral : Decimal, numeral.text = trim value.toList ∧ numeral.places ≤ 6 := by
  constructor
  · rintro failed ⟨numeral, spells, short⟩
    have parsed := parseTokenAmount_eq_ok.mpr ⟨numeral, spells, short, rfl⟩
    rw [failed] at parsed
    cases parsed
  · intro none
    unfold parseTokenAmount
    split
    · rfl
    · next whole fraction matched =>
        obtain ⟨numeral, spells, -, -, short⟩ := exists_decimal matched
        exact absurd ⟨numeral, spells, short⟩ none

theorem isTrimmed_digit {letter : Char} (digit : letter.isDigit = true) :
    isTrimmed letter = false := by
  have small : letter.toNat < 58 := by
    have := number_digit digit
    omega
  have large : ¬ '\u2000' ≤ letter := by
    intro le
    have : 0x2000 ≤ letter.toNat := le
    omega
  have listed : letter ∉ ['\t', '\n', '\x0b', '\x0c', '\r', ' ', '\xa0', '\u1680', '\u2028',
      '\u2029', '\u202f', '\u205f', '\u3000', '\ufeff'] := by
    intro member
    have none := List.all_eq_true.mp (by decide : ['\t', '\n', '\x0b', '\x0c', '\r', ' ', '\xa0',
      '\u1680', '\u2028', '\u2029', '\u202f', '\u205f', '\u3000', '\ufeff'].all
        (fun letter => !letter.isDigit) = true) letter member
    rw [digit] at none
    cases none
  rw [isTrimmed, decide_eq_false listed, decide_eq_false large]
  rfl

theorem trim_eq_self {text : List Char} (none : ∀ letter ∈ text, isTrimmed letter = false) :
    trim text = text := by
  have front : text.dropWhile isTrimmed = text := by
    cases text with
    | nil => rfl
    | cons letter text => rw [List.dropWhile_cons_of_neg (by simp [none letter])]
  rw [trim, front, List.rdropWhile_eq_self_iff]
  intro some
  rw [none _ (List.getLast_mem some)]
  exact Bool.false_ne_true

theorem trim_decimal (numeral : Decimal) : trim numeral.text = numeral.text := by
  refine trim_eq_self fun letter member => ?_
  rw [Decimal.text] at member
  cases fraction : numeral.fraction with
  | none =>
      rw [fraction] at member
      exact isTrimmed_digit (numeral.wholeDigits letter member)
  | some digits =>
      rw [fraction] at member
      rcases List.mem_append.mp member with front | back
      · exact isTrimmed_digit (numeral.wholeDigits letter front)
      · rcases List.mem_cons.mp back with rfl | back
        · decide
        · exact isTrimmed_digit (numeral.fractionDigits digits fraction letter back)

theorem toList_toString (value : Nat) : (toString (value : Int)).toList = Nat.toDigits 10 value :=
  Nat.toList_repr

/-- An amount is printed as its canonical decimal. -/
theorem formatTokenAmount_eq (amount : Nat) :
    (formatTokenAmount amount).toList = (Decimal.ofScaled 6 amount).text := by
  have whole : (amount : Int).tdiv 1000000 = ((amount / 1000000 : Nat) : Int) := rfl
  have rest : (amount : Int).tmod 1000000 = ((amount % 1000000 : Nat) : Int) := rfl
  rcases strip : Decimal.stripZeros (Decimal.scaledDigits 6 amount) with _ | ⟨digit, digits⟩
  · have none : (padStart 6 (Nat.toDigits 10 (amount % 1000000))).rdropWhile (· == '0') = [] :=
      strip
    have fraction : (Decimal.ofScaled 6 amount).fraction = .none := by
      simp only [Decimal.ofScaled, Decimal.scaledFraction, strip]
    simp only [formatTokenAmount, whole, rest, toList_toString, none, Decimal.text, fraction]
    exact toList_toString _
  · have some : (padStart 6 (Nat.toDigits 10 (amount % 1000000))).rdropWhile (· == '0') =
        digit :: digits := strip
    have fraction : (Decimal.ofScaled 6 amount).fraction = .some (digit :: digits) := by
      simp only [Decimal.ofScaled, Decimal.scaledFraction, strip]
    simp only [formatTokenAmount, whole, rest, toList_toString, some, Decimal.text, fraction,
      List.isEmpty_cons, Bool.false_eq_true, if_false, String.toList_append, String.toList_ofList,
      List.append_assoc]
    rfl

theorem millionths_ofScaled (amount : Nat) : millionths (Decimal.ofScaled 6 amount) = amount := by
  have places : (Decimal.ofScaled 6 amount).places ≤ 6 := Decimal.ofScaled_places_le (by decide)
  have value := millionths_eq places
  rw [Decimal.ofScaled_value (by decide), mul_div_cancel₀ _ (by positivity)] at value
  exact_mod_cast value

/-- The decimal that is printed for an accepted text is the shortest of its value. -/
theorem formatTokenAmount_shortest (numeral : Decimal) (places : numeral.places ≤ 6) :
    ∃ short : Decimal, short.text = (formatTokenAmount (millionths numeral)).toList ∧
      short.value = numeral.value ∧ short.Shortest := by
  refine ⟨Decimal.ofScaled 6 (millionths numeral), (formatTokenAmount_eq _).symm, ?_,
    (Decimal.ofScaled_canonical 6 _).shortest⟩
  rw [Decimal.ofScaled_value (by decide), millionths_eq places,
    mul_div_cancel_left₀ _ (by positivity)]

/-- An amount survives printing and reading.  An accepted text is a plain decimal, its amount
counts millionths exactly and is printed as the shortest decimal of the same value, and every
other text is an error. -/
theorem token_amounts :
    (∀ amount : Nat, parseTokenAmount (formatTokenAmount amount) = .ok amount) ∧
    (∀ (text : String) (result : Int), parseTokenAmount text = .ok result →
      ∃ numeral : Decimal, numeral.text = trim text.toList ∧ numeral.places ≤ 6 ∧
        (result : ℚ) = 10 ^ 6 * numeral.value ∧
        ∃ short : Decimal, short.text = (formatTokenAmount result).toList ∧
          short.value = numeral.value ∧ short.Shortest) ∧
    ∀ text : String,
      parseTokenAmount text =
          .error "Enter a positive amount with no more than six decimal places." ↔
        ¬ ∃ numeral : Decimal, numeral.text = trim text.toList ∧ numeral.places ≤ 6 := by
  refine ⟨fun amount => ?_, fun text result parsed => ?_, fun text => ?_⟩
  · refine parseTokenAmount_eq_ok.mpr ⟨Decimal.ofScaled 6 amount, ?_, ?_, ?_⟩
    · rw [formatTokenAmount_eq, trim_decimal]
    · exact Decimal.ofScaled_places_le (by decide)
    · rw [millionths_ofScaled]
  · obtain ⟨numeral, spells, places, rfl⟩ := parseTokenAmount_eq_ok.mp parsed
    exact ⟨numeral, spells, places, by exact_mod_cast millionths_eq places,
      formatTokenAmount_shortest numeral places⟩
  · exact parseTokenAmount_eq_error

end Numerals

end ZkApi.Browser.Tokens
