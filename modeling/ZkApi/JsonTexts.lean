import Mathlib.Algebra.BigOperators.Group.List.Basic
import Mathlib.Data.List.Sort
import ZkApi.VaultLogs

/-!
# Decoding JSON texts in the browser

`JSON.parse` reads the code units of a text in two passes.  The first makes tokens of
the units, and the second keeps the open arrays and objects on a stack.  What a
text decodes to is never larger than the text.
-/

namespace ZkApi.Browser.JsonTexts

open Indexer (hexDigit)

/-- A text is its UTF-16 code units. -/
abbrev Text := List UInt16

/-- The character of a unit, unless the unit is half of a surrogate pair. -/
def letter (unit : UInt16) : Char :=
  Char.ofNat unit.toNat

def unit (letter : Char) : UInt16 :=
  letter.toNat.toUInt16

/-- The units of a text without surrogate pairs. -/
def units (text : String) : Text :=
  text.toList.map unit

/-- A decoded value.  Of an array or an object only the values matter, in the order in which
`Object.values` lists them. -/
inductive Decoded where
  | null
  | boolean (value : Bool)
  | number
  | string (text : Text)
  | object (values : List Decoded)

section Tokens

inductive Token where
  | openBrace
  | closeBrace
  | openBracket
  | closeBracket
  | colon
  | comma
  | string (text : Text)
  | scalar (value : Decoded)

/-- What is left of a text after a fraction: perhaps an exponent. -/
def isExponent : List Char → Bool
  | [] => true
  | letter :: rest =>
    let digits := match rest with
      | '+' :: digits => digits
      | '-' :: digits => digits
      | digits => digits
    (letter == 'e' || letter == 'E') && !digits.isEmpty && digits.all Char.isDigit

/-- What is left of a text after the whole part: perhaps a fraction. -/
def isFraction : List Char → Bool
  | '.' :: rest =>
    !(rest.takeWhile Char.isDigit).isEmpty && isExponent (rest.dropWhile Char.isDigit)
  | rest => isExponent rest

def isUnsigned (text : List Char) : Bool :=
  let whole := text.takeWhile Char.isDigit
  (whole == ['0'] || (!whole.isEmpty && whole.head? != some '0')) &&
    isFraction (text.dropWhile Char.isDigit)

def isNumber : List Char → Bool
  | '-' :: text => isUnsigned text
  | text => isUnsigned text

/-- The value of a lexeme that is not a string. -/
def scalar (lexeme : Text) : Option Decoded :=
  let letters := lexeme.map letter
  if letters == "null".toList then some .null
  else if letters == "true".toList then some (.boolean true)
  else if letters == "false".toList then some (.boolean false)
  else if isNumber letters then some .number
  else none

/-- Where a unit stands: between lexemes, in a lexeme, in a string, directly behind a backslash
or among the four digits of an escaped unit. -/
inductive Mode where
  | between
  | lexeme (units : Text)
  | string (units : Text)
  | escape (units : Text)
  | unicode (units : Text) (digits : List Nat)

def isSpace (letter : Char) : Bool :=
  letter == ' ' || letter == '\t' || letter == '\n' || letter == '\r'

def punctuation : Char → Option Token
  | '{' => some .openBrace
  | '}' => some .closeBrace
  | '[' => some .openBracket
  | ']' => some .closeBracket
  | ':' => some .colon
  | ',' => some .comma
  | _ => none

/-- The unit of an escape of two characters. -/
def escaped : Char → Option UInt16
  | '"' => some 0x22
  | '\\' => some 0x5c
  | '/' => some 0x2f
  | 'b' => some 0x08
  | 'f' => some 0x0c
  | 'n' => some 0x0a
  | 'r' => some 0x0d
  | 't' => some 0x09
  | _ => none

/-- One unit outside a string: the tokens that it completes and the next mode. -/
def outside (pending : Text) (unit : UInt16) : Option (List Token × Mode) :=
  let ended : Option (List Token) :=
    if pending.isEmpty then some [] else (scalar pending).map fun value => [.scalar value]
  if isSpace (letter unit) then ended.map fun tokens => (tokens, .between)
  else if letter unit == '"' then ended.map fun tokens => (tokens, .string [])
  else
    match punctuation (letter unit) with
    | some token => ended.map fun tokens => (tokens ++ [token], .between)
    | none => some ([], .lexeme (pending ++ [unit]))

/-- The value of four hexadecimal digits. -/
def hexUnit (digits : List Nat) : UInt16 :=
  (digits.foldl (fun value digit => 16 * value + digit) 0).toUInt16

def Mode.step : Mode → UInt16 → Option (List Token × Mode)
  | .between, unit => outside [] unit
  | .lexeme units, unit => outside units unit
  | .string units, unit =>
    if letter unit == '"' then some ([.string units], .between)
    else if letter unit == '\\' then some ([], .escape units)
    else if unit < 0x20 then none
    else some ([], .string (units ++ [unit]))
  | .escape units, unit =>
    if letter unit == 'u' then some ([], .unicode units [])
    else (escaped (letter unit)).map fun unit => ([], .string (units ++ [unit]))
  | .unicode units digits, unit =>
    (hexDigit (letter unit)).map fun digit =>
      if digits.length = 3 then ([], .string (units ++ [hexUnit (digits ++ [digit])]))
      else ([], .unicode units (digits ++ [digit]))

/-- The tokens of a text. -/
def tokens (mode : Mode) : Text → Option (List Token)
  | [] =>
    match mode with
    | .between => some []
    | .lexeme units => (scalar units).map fun value => [.scalar value]
    | _ => none
  | unit :: text => do
    let (completed, next) ← mode.step unit
    let later ← tokens next text
    return completed ++ later

end Tokens

section Values

abbrev Member := Text × Decoded

/-- The array index that a key denotes. -/
def arrayIndex (key : Text) : Option Nat :=
  let letters := key.map letter
  let index := Nat.ofDigitChars 10 letters 0
  if !letters.isEmpty && letters.all Char.isDigit &&
      (letters == ['0'] || letters.head? != some '0') && index < 2 ^ 32 - 1 then some index
  else none

/-- A later member replaces the value of an earlier one with its key. -/
def put (key : Text) (value : Decoded) : List Member → List Member
  | [] => [(key, value)]
  | member :: members =>
    if member.1 = key then (key, value) :: members else member :: put key value members

/-- `Object.values`: array indices first, in their order, then the other keys as they came. -/
def objectValues (members : List Member) : List Decoded :=
  let indexed := members.filterMap fun member =>
    (arrayIndex member.1).map fun index => (index, member.2)
  let named := members.filter fun member => (arrayIndex member.1).isNone
  (indexed.insertionSort fun first second => first.1 ≤ second.1).map Prod.snd ++
    named.map Prod.snd

/-- An open array or object.  An object waits for the value of a key. -/
inductive Frame where
  | array (values : List Decoded)
  | object (members : List Member) (key : Text)

/-- What may come next: a value, a value or the end of a new array, a key or the end of a new
object, a colon, or what follows a value. -/
inductive Phase where
  | value (frames : List Frame)
  | element (frames : List Frame)
  | member (fresh : Bool) (members : List Member) (frames : List Frame)
  | colon (members : List Member) (key : Text) (frames : List Frame)
  | complete (value : Decoded) (frames : List Frame)

/-- The first token of a value. -/
def start (frames : List Frame) : Token → Option Phase
  | .string text => some (.complete (.string text) frames)
  | .scalar value => some (.complete value frames)
  | .openBracket => some (.element frames)
  | .openBrace => some (.member true [] frames)
  | _ => none

def advance : Phase → Token → Option Phase
  | .value frames, token => start frames token
  | .element frames, .closeBracket => some (.complete (.object []) frames)
  | .element frames, token => start (.array [] :: frames) token
  | .member _ members frames, .string key => some (.colon members key frames)
  | .member true members frames, .closeBrace =>
    some (.complete (.object (objectValues members)) frames)
  | .colon members key frames, .colon => some (.value (.object members key :: frames))
  | .complete value (.array values :: frames), .comma =>
    some (.value (.array (values ++ [value]) :: frames))
  | .complete value (.array values :: frames), .closeBracket =>
    some (.complete (.object (values ++ [value])) frames)
  | .complete value (.object members key :: frames), .comma =>
    some (.member false (put key value members) frames)
  | .complete value (.object members key :: frames), .closeBrace =>
    some (.complete (.object (objectValues (put key value members))) frames)
  | _, _ => none

/-- The value of tokens, from a phase on. -/
def decode (phase : Phase) : List Token → Option Decoded
  | [] =>
    match phase with
    | .complete value [] => some value
    | _ => none
  | token :: later => do
    let next ← advance phase token
    decode next later

/-- `JSON.parse`; a syntax error gives nothing. -/
def parse (text : Text) : Option Decoded := do
  let read ← tokens .between text
  decode (.value []) read

end Values

section Size

mutual

/-- A string counts one more than its units, and everything else counts one. -/
def Decoded.weight : Decoded → Nat
  | .string text => text.length + 1
  | .object values => weights values + 1
  | .null => 1
  | .boolean _ => 1
  | .number => 1

def weights : List Decoded → Nat
  | [] => 0
  | value :: values => value.weight + weights values

end

theorem weights_eq_sum (values : List Decoded) :
    weights values = (values.map Decoded.weight).sum := by
  induction values with
  | nil => rfl
  | cons value values ih => rw [weights, ih, List.map_cons, List.sum_cons]

@[simp]
theorem weights_append (first second : List Decoded) :
    weights (first ++ second) = weights first + weights second := by
  simp only [weights_eq_sum, List.map_append, List.sum_append]

def Token.weight : Token → Nat
  | .string text => text.length + 1
  | .scalar value => value.weight
  | .openBrace => 1
  | .openBracket => 1
  | _ => 0

def Mode.weight : Mode → Nat
  | .between => 0
  | .lexeme _ => 1
  | .string units => units.length + 1
  | .escape units => units.length + 1
  | .unicode units _ => units.length + 1

def tokensWeight (read : List Token) : Nat :=
  (read.map Token.weight).sum

theorem scalar_weight {lexeme : Text} {value : Decoded} (read : scalar lexeme = some value) :
    value.weight = 1 := by
  unfold scalar at read
  dsimp only at read
  split_ifs at read <;> cases read <;> rfl

theorem punctuation_weight {letter : Char} {token : Token}
    (read : punctuation letter = some token) : token.weight ≤ 1 := by
  unfold punctuation at read
  split at read <;> cases read <;> decide

theorem ended_weight {pending : Text} {completed : List Token}
    (read : (if pending.isEmpty then some []
      else (scalar pending).map fun value => [Token.scalar value]) = some completed) :
    tokensWeight completed ≤ if pending.isEmpty then 0 else 1 := by
  split at read
  · cases read
    exact Nat.zero_le _
  · next some =>
      obtain ⟨value, scalar, rfl⟩ := Option.map_eq_some_iff.mp read
      simp [tokensWeight, Token.weight, scalar_weight scalar, some]

/-- A unit adds at most one to what was read. -/
theorem outside_weight {pending : Text} {unit : UInt16} {completed : List Token} {next : Mode}
    (read : outside pending unit = some (completed, next)) :
    tokensWeight completed + next.weight ≤ (if pending.isEmpty then 0 else 1) + 1 := by
  unfold outside at read
  dsimp only at read
  split at read
  · obtain ⟨completed, ended, same⟩ := Option.map_eq_some_iff.mp read
    cases same
    have := ended_weight ended
    simp only [Mode.weight]
    omega
  · split at read
    · obtain ⟨completed, ended, same⟩ := Option.map_eq_some_iff.mp read
      cases same
      have := ended_weight ended
      simp only [Mode.weight, List.length_nil]
      omega
    · split at read
      · next token found =>
          obtain ⟨completed, ended, same⟩ := Option.map_eq_some_iff.mp read
          cases same
          have := ended_weight ended
          have := punctuation_weight found
          simp only [Mode.weight, tokensWeight, List.map_append, List.sum_append, List.map_cons,
            List.map_nil, List.sum_cons, List.sum_nil] at *
          omega
      · cases read
        simp only [Mode.weight, tokensWeight, List.map_nil, List.sum_nil]
        omega

theorem Mode.step_weight {mode next : Mode} {unit : UInt16} {completed : List Token}
    (read : mode.step unit = some (completed, next)) :
    tokensWeight completed + next.weight ≤ mode.weight + 1 := by
  cases mode with
  | between => exact outside_weight read
  | lexeme units =>
      refine (outside_weight read).trans ?_
      simp only [Mode.weight]
      split <;> omega
  | string units =>
      simp only [Mode.step] at read
      split_ifs at read <;> cases read <;>
        simp [tokensWeight, Token.weight, Mode.weight]
  | escape units =>
      simp only [Mode.step] at read
      split at read
      · cases read
        simp [tokensWeight, Mode.weight]
      · obtain ⟨value, -, same⟩ := Option.map_eq_some_iff.mp read
        cases same
        simp [tokensWeight, Mode.weight]
  | unicode units digits =>
      obtain ⟨digit, -, same⟩ := Option.map_eq_some_iff.mp read
      split at same <;> cases same <;> simp [tokensWeight, Mode.weight]

theorem tokens_weight {mode : Mode} {text : Text} {read : List Token}
    (done : tokens mode text = some read) : tokensWeight read ≤ mode.weight + text.length := by
  induction text generalizing mode read with
  | nil =>
      unfold tokens at done
      split at done
      · cases done
        exact Nat.zero_le _
      · next units =>
          obtain ⟨value, scalar, rfl⟩ := Option.map_eq_some_iff.mp done
          simp [tokensWeight, Token.weight, Mode.weight, scalar_weight scalar]
      · cases done
  | cons unit text ih =>
      obtain ⟨⟨completed, next⟩, step, done⟩ := Option.bind_eq_some_iff.mp done
      obtain ⟨later, rest, same⟩ := Option.bind_eq_some_iff.mp done
      cases same
      have first := Mode.step_weight step
      have second := ih rest
      rw [tokensWeight, List.map_append, List.sum_append, List.length_cons]
      rw [tokensWeight] at first second
      omega

def membersWeight (members : List Member) : Nat :=
  weights (members.map Prod.snd)

def Frame.weight : Frame → Nat
  | .array values => weights values + 1
  | .object members _ => membersWeight members + 1

def framesWeight (frames : List Frame) : Nat :=
  (frames.map Frame.weight).sum

def Phase.weight : Phase → Nat
  | .value frames => framesWeight frames
  | .element frames => framesWeight frames + 1
  | .member _ members frames => membersWeight members + 1 + framesWeight frames
  | .colon members _ frames => membersWeight members + 1 + framesWeight frames
  | .complete decoded frames => decoded.weight + framesWeight frames

@[simp]
theorem framesWeight_cons (frame : Frame) (frames : List Frame) :
    framesWeight (frame :: frames) = frame.weight + framesWeight frames := by
  rw [framesWeight, List.map_cons, List.sum_cons, framesWeight]

theorem put_weight (key : Text) (value : Decoded) (members : List Member) :
    membersWeight (put key value members) ≤ membersWeight members + value.weight := by
  induction members with
  | nil => simp [put, membersWeight, weights]
  | cons member members ih =>
      rw [put]
      split
      · simp only [membersWeight, List.map_cons, weights]
        omega
      · simp only [membersWeight, List.map_cons, weights] at ih ⊢
        omega

theorem weights_perm {first second : List Decoded} (perm : first.Perm second) :
    weights first = weights second := by
  rw [weights_eq_sum, weights_eq_sum]
  exact (perm.map Decoded.weight).sum_eq

/-- Listing the values keeps all of them. -/
theorem objectValues_perm (members : List Member) :
    (objectValues members).Perm (members.map Prod.snd) := by
  have sorted := (List.perm_insertionSort
    (fun first second : Nat × Decoded => first.1 ≤ second.1)
    (members.filterMap fun member =>
      (arrayIndex member.1).map fun index => (index, member.2))).map Prod.snd
  refine (sorted.append_right _).trans ?_
  clear sorted
  induction members with
  | nil => exact List.Perm.nil
  | cons member members ih =>
      cases index : arrayIndex member.1 with
      | none =>
          simp only [index, Option.map_none, List.filterMap_cons_none, Option.isNone_none,
            List.filter_cons_of_pos, List.map_cons]
          exact List.perm_middle.trans (ih.cons member.2)
      | some position =>
          rw [List.filter_cons_of_neg (by simp [index])]
          simp only [List.filterMap_cons, index, Option.map_some, List.map_cons, List.cons_append]
          exact ih.cons member.2

theorem objectValues_weight (members : List Member) :
    weights (objectValues members) = membersWeight members :=
  weights_perm (objectValues_perm members)

theorem start_weight {frames : List Frame} {token : Token} {next : Phase}
    (step : start frames token = some next) : next.weight ≤ framesWeight frames + token.weight := by
  cases token <;> cases step <;>
    simp [Phase.weight, Token.weight, Decoded.weight, membersWeight, weights] <;> omega

/-- A token adds at most its own weight to what was decoded. -/
theorem advance_weight {phase next : Phase} {token : Token}
    (step : advance phase token = some next) : next.weight ≤ phase.weight + token.weight := by
  unfold advance at step
  split at step
  · exact start_weight step
  · cases step
    simp only [Phase.weight, Decoded.weight, weights, Token.weight]
    omega
  · have := start_weight step
    rw [framesWeight_cons, Frame.weight, weights] at this
    rw [Phase.weight]
    omega
  · cases step
    exact Nat.le_add_right _ _
  · cases step
    simp only [Phase.weight, Decoded.weight, objectValues_weight, Token.weight]
    omega
  · cases step
    simp only [Phase.weight, framesWeight_cons, Frame.weight, Token.weight]
    omega
  · cases step
    simp only [Phase.weight, framesWeight_cons, Frame.weight, weights_append, weights,
      Token.weight]
    omega
  · cases step
    simp only [Phase.weight, framesWeight_cons, Frame.weight, Decoded.weight, weights_append,
      weights, Token.weight]
    omega
  · next value members key frames =>
      cases step
      have := put_weight key value members
      simp only [Phase.weight, framesWeight_cons, Frame.weight, Token.weight]
      omega
  · next value members key frames =>
      cases step
      have := put_weight key value members
      simp only [Phase.weight, framesWeight_cons, Frame.weight, Decoded.weight,
        objectValues_weight, Token.weight]
      omega
  · cases step

theorem decode_weight {phase : Phase} {read : List Token} {value : Decoded}
    (done : decode phase read = some value) : value.weight ≤ phase.weight + tokensWeight read := by
  induction read generalizing phase with
  | nil =>
      unfold decode at done
      split at done <;> cases done
      exact Nat.le_add_right _ _
  | cons token later ih =>
      obtain ⟨next, step, done⟩ := Option.bind_eq_some_iff.mp done
      have first := advance_weight step
      have rest := ih done
      rw [tokensWeight, List.map_cons, List.sum_cons]
      rw [tokensWeight] at rest
      omega

/-- What a text decodes to is no larger than the text. -/
theorem parse_weight {text : Text} {value : Decoded} (parsed : parse text = some value) :
    value.weight ≤ text.length := by
  obtain ⟨read, done, decoded⟩ := Option.bind_eq_some_iff.mp parsed
  have first := tokens_weight done
  have rest := decode_weight decoded
  simp only [Mode.weight, Phase.weight, framesWeight, List.map_nil, List.sum_nil] at first rest
  omega

end Size

end ZkApi.Browser.JsonTexts
