import ZkApi.JsonTexts

/-!
# Printed JSON values are read back

Every decoded value has a text, in which arrays stand for objects and a zero for every number.
Decoding the text gives the value again, so a value can be nested in texts to any depth.
-/

namespace ZkApi.Browser.JsonTexts

open Indexer (hexDigit)

section Printing

/-- The escape of a control character. -/
def escapedUnit (next : UInt16) : Text :=
  units "\\u00" ++ [unit (Nat.digitChar (next.toNat / 16)), unit (Nat.digitChar (next.toNat % 16))]

def quotedUnit (next : UInt16) : Text :=
  if letter next = '"' then units "\\\""
  else if letter next = '\\' then units "\\\\"
  else if next < 0x20 then escapedUnit next
  else [next]

/-- A string literal. -/
def quote (text : Text) : Text :=
  unit '"' :: (text.flatMap quotedUnit ++ [unit '"'])

mutual

/-- A text of a value; arrays stand for objects, and zero for every number. -/
def print : Decoded → Text
  | .null => units "null"
  | .boolean true => units "true"
  | .boolean false => units "false"
  | .number => units "0"
  | .string text => quote text
  | .object values => unit '[' :: (printValues values ++ [unit ']'])

def printValues : List Decoded → Text
  | [] => []
  | [value] => print value
  | value :: values => print value ++ unit ',' :: printValues values

end

variable {mode next : Mode} {text rest : Text} {first : UInt16}

theorem tokens_step (step : mode.step first = some ([], next)) :
    tokens mode (first :: rest) = tokens next rest := by
  rw [tokens, step]
  exact Option.bind_fun_some (tokens next rest)

theorem tokens_emit (completed : List Token) (step : mode.step first = some (completed, next)) :
    tokens mode (first :: rest) = (tokens next rest).map (completed ++ ·) := by
  rw [tokens, step]
  exact Option.map_eq_bind.symm

theorem eq_of_letter {char : Char} (same : letter first = char) (some : char ≠ Char.ofNat 0) :
    first = unit char := by
  have valid : first.toNat.isValidChar := by
    by_contra invalid
    refine some (same.symm.trans ?_)
    rw [letter, Char.ofNat, dif_neg invalid]
    rfl
  have back : char.toNat = first.toNat := by
    rw [← same, letter, Char.ofNat, dif_pos valid]
    rfl
  rw [unit, back]
  simp

theorem hexDigit_digitChar (digit : Nat) (small : digit < 16) :
    hexDigit (letter (unit (Nat.digitChar digit))) = some digit := by
  have all : (List.range 16).all fun digit =>
      hexDigit (letter (unit (Nat.digitChar digit))) == some digit := by decide
  exact beq_iff_eq.mp (List.all_eq_true.mp all digit (List.mem_range.mpr small))

theorem tokens_escapedUnit (read : Text) (next : UInt16) (control : next < 0x20) (rest : Text) :
    tokens (.string read) (escapedUnit next ++ rest) = tokens (.string (read ++ [next])) rest := by
  have small : next.toNat < 32 := UInt16.lt_iff_toNat_lt.mp control
  have high := hexDigit_digitChar (next.toNat / 16) (by omega)
  have low := hexDigit_digitChar (next.toNat % 16) (by omega)
  have value : hexUnit [0, 0, next.toNat / 16, next.toNat % 16] = next := by
    simp only [hexUnit, List.foldl_cons, List.foldl_nil, Nat.mul_zero, Nat.zero_add,
      Nat.div_add_mod]
    simp
  calc
    tokens (.string read) (escapedUnit next ++ rest)
        = tokens (.unicode read [0, 0]) (unit (Nat.digitChar (next.toNat / 16)) ::
            unit (Nat.digitChar (next.toNat % 16)) :: rest) :=
      (tokens_step rfl).trans ((tokens_step rfl).trans ((tokens_step rfl).trans (tokens_step rfl)))
    _ = tokens (.unicode read [0, 0, next.toNat / 16])
          (unit (Nat.digitChar (next.toNat % 16)) :: rest) := by
      refine tokens_step ?_
      rw [Mode.step, high]
      rfl
    _ = tokens (.string (read ++ [next])) rest := by
      refine tokens_step ?_
      rw [Mode.step, low]
      simp [value]

theorem tokens_quotedUnit (read : Text) (next : UInt16) (rest : Text) :
    tokens (.string read) (quotedUnit next ++ rest) = tokens (.string (read ++ [next])) rest := by
  rw [quotedUnit]
  split
  · next quoted =>
      rw [eq_of_letter quoted (by decide)]
      exact (tokens_step rfl).trans (tokens_step rfl)
  · split
    · next notQuote backslash =>
        rw [eq_of_letter backslash (by decide)]
        exact (tokens_step rfl).trans (tokens_step rfl)
    · split
      · next control => exact tokens_escapedUnit read _ control rest
      · next notQuote notBackslash plain =>
          refine tokens_step ?_
          simp [Mode.step, notQuote, notBackslash, plain]

theorem tokens_quote (text rest : Text) :
    tokens .between (quote text ++ rest) = (tokens .between rest).map (.string text :: ·) := by
  have body : ∀ read, tokens (.string read) (text.flatMap quotedUnit ++ (unit '"' :: rest)) =
      tokens (.string (read ++ text)) (unit '"' :: rest) := by
    induction text with
    | nil => simp
    | cons next text ih =>
        intro read
        rw [List.flatMap_cons, List.append_assoc, tokens_quotedUnit, ih, List.append_assoc]
        rfl
  rw [quote, List.cons_append, List.append_assoc]
  refine (tokens_step rfl).trans ((body []).trans ?_)
  exact tokens_emit [.string text] rfl

/-- What may stand behind a value. -/
def Delimited (rest : Text) : Prop :=
  ∀ next ∈ rest.head?, next = unit ',' ∨ next = unit ']'

mutual

/-- The tokens of a printed value. -/
def tokensOf : Decoded → List Token
  | .string text => [.string text]
  | .object values => .openBracket :: (tokensOfAll values ++ [.closeBracket])
  | value => [.scalar value]

def tokensOfAll : List Decoded → List Token
  | [] => []
  | [value] => tokensOf value
  | value :: values => tokensOf value ++ .comma :: tokensOfAll values

end

theorem printValues_cons (value second : Decoded) (values : List Decoded) :
    printValues (value :: second :: values) =
      print value ++ unit ',' :: printValues (second :: values) :=
  rfl

theorem tokensOfAll_cons (value second : Decoded) (values : List Decoded) :
    tokensOfAll (value :: second :: values) =
      tokensOf value ++ .comma :: tokensOfAll (second :: values) :=
  rfl

theorem tokens_between (token : Token) {char : Char}
    (space : isSpace (letter (unit char)) = false) (quote : (letter (unit char) == '"') = false)
    (found : punctuation (letter (unit char)) = some token) :
    tokens .between (unit char :: rest) = (tokens .between rest).map (token :: ·) := by
  refine tokens_emit [token] ?_
  simp [Mode.step, outside, space, quote, found]

/-- A lexeme ends in front of a comma or a bracket. -/
theorem tokens_lexeme (lexeme : Text) {value : Decoded} (some : lexeme ≠ [])
    (read : scalar lexeme = Option.some value) (delimited : Delimited rest) :
    tokens (.lexeme lexeme) rest = (tokens .between rest).map (.scalar value :: ·) := by
  cases rest with
  | nil => simp [tokens, read]
  | cons next rest =>
      have ended : ∀ (token : Token) {char : Char}, isSpace (letter (unit char)) = false →
          (letter (unit char) == '"') = false →
          punctuation (letter (unit char)) = Option.some token →
          tokens (.lexeme lexeme) (unit char :: rest) =
            (tokens .between (unit char :: rest)).map (.scalar value :: ·) := by
        intro token char space quote found
        have step : (Mode.lexeme lexeme).step (unit char) =
            Option.some ([.scalar value, token], .between) := by
          simp [Mode.step, outside, space, quote, found, some, read]
        rw [tokens_between token space quote found, tokens_emit _ step, Option.map_map]
        rfl
      rcases delimited next rfl with rfl | rfl
      · exact ended .comma (by decide) (by decide) rfl
      · exact ended .closeBracket (by decide) (by decide) rfl

theorem delimited_comma : Delimited (unit ',' :: rest) := by
  rintro _ ⟨⟩
  exact .inl rfl

theorem delimited_bracket : Delimited (unit ']' :: rest) := by
  rintro _ ⟨⟩
  exact .inr rfl

mutual

theorem tokens_print (value : Decoded) {rest : Text} (delimited : Delimited rest) :
    tokens .between (print value ++ rest) = (tokens .between rest).map (tokensOf value ++ ·) := by
  cases value with
  | null =>
      refine Eq.trans ?_ (tokens_lexeme (units "null") (by decide) rfl delimited)
      exact (tokens_step rfl).trans ((tokens_step rfl).trans ((tokens_step rfl).trans
        (tokens_step rfl)))
  | boolean value =>
      cases value with
      | true =>
          refine Eq.trans ?_ (tokens_lexeme (units "true") (by decide) rfl delimited)
          exact (tokens_step rfl).trans ((tokens_step rfl).trans ((tokens_step rfl).trans
            (tokens_step rfl)))
      | false =>
          refine Eq.trans ?_ (tokens_lexeme (units "false") (by decide) rfl delimited)
          exact (tokens_step rfl).trans ((tokens_step rfl).trans ((tokens_step rfl).trans
            ((tokens_step rfl).trans (tokens_step rfl))))
  | number =>
      refine Eq.trans ?_ (tokens_lexeme (units "0") (by decide) rfl delimited)
      exact tokens_step rfl
  | string text => exact tokens_quote text rest
  | object values =>
      rw [print, List.cons_append, List.append_assoc,
        tokens_between .openBracket (by decide) (by decide) rfl]
      refine (congrArg _ (tokens_printValues values rest)).trans ?_
      rw [tokensOf, Option.map_map]
      simp [Function.comp_def]

theorem tokens_printValues (values : List Decoded) (rest : Text) :
    tokens .between (printValues values ++ unit ']' :: rest) =
      (tokens .between rest).map (tokensOfAll values ++ .closeBracket :: ·) := by
  have close : tokens .between (unit ']' :: rest) =
      (tokens .between rest).map (.closeBracket :: ·) :=
    tokens_between _ (by decide) (by decide) rfl
  match values with
  | [] => exact close
  | [value] =>
      rw [printValues, tokens_print value delimited_bracket, close, Option.map_map]
      rfl
  | value :: second :: values =>
      rw [printValues_cons, List.append_assoc, List.cons_append,
        tokens_print value delimited_comma, tokens_between .comma (by decide) (by decide) rfl,
        tokens_printValues (second :: values) rest, Option.map_map, Option.map_map]
      simp [tokensOfAll_cons, Function.comp_def]

end

/-- A value starts with a token that ends no array. -/
theorem tokensOf_eq_cons (value : Decoded) :
    ∃ token tokens, tokensOf value = token :: tokens ∧ token ≠ .closeBracket := by
  cases value <;> exact ⟨_, _, rfl, by simp⟩

theorem decode_element (value : Decoded) (frames : List Frame) (later : List Token) :
    decode (.element frames) (tokensOf value ++ later) =
      decode (.value (.array [] :: frames)) (tokensOf value ++ later) := by
  obtain ⟨token, tokens, same, other⟩ := tokensOf_eq_cons value
  rw [same, List.cons_append, decode, decode]
  cases token with
  | closeBracket => exact absurd rfl other
  | _ => rfl

theorem decode_elements {values : List Decoded} (some : values ≠ []) (frames : List Frame)
    (later : List Token) :
    decode (.element frames) (tokensOfAll values ++ later) =
      decode (.value (.array [] :: frames)) (tokensOfAll values ++ later) := by
  match values, some with
  | [value], _ => exact decode_element value frames later
  | value :: second :: values, _ =>
      rw [tokensOfAll_cons, List.append_assoc]
      exact decode_element value frames _

mutual

/-- The tokens of a value complete it. -/
theorem decode_tokensOf (value : Decoded) (frames : List Frame) (later : List Token) :
    decode (.value frames) (tokensOf value ++ later) = decode (.complete value frames) later := by
  cases value with
  | object values =>
      rw [tokensOf, List.cons_append, List.append_assoc]
      change decode (.element frames) (tokensOfAll values ++ .closeBracket :: later) = _
      by_cases empty : values = []
      · rw [empty]
        rfl
      · rw [decode_elements empty]
        exact decode_tokensOfAll values empty [] frames later
  | _ => rfl

/-- The last values of an array, behind those that were read. -/
theorem decode_tokensOfAll (values : List Decoded) (some : values ≠ []) (done : List Decoded)
    (frames : List Frame) (later : List Token) :
    decode (.value (.array done :: frames)) (tokensOfAll values ++ .closeBracket :: later) =
      decode (.complete (.object (done ++ values)) frames) later := by
  match values, some with
  | [value], _ => exact decode_tokensOf value _ _
  | value :: second :: values, _ =>
      rw [tokensOfAll_cons, List.append_assoc, decode_tokensOf value]
      have rest := decode_tokensOfAll (second :: values) (List.cons_ne_nil _ _) (done ++ [value])
        frames later
      rw [List.append_assoc] at rest
      exact rest

end

/-- A printed value is read back. -/
theorem parse_print (value : Decoded) : parse (print value) = some value := by
  have read : tokens .between (print value) = some (tokensOf value) := by
    have delimited : Delimited [] := by rintro _ ⟨⟩
    simpa [tokens] using tokens_print value delimited
  have decoded : decode (.value []) (tokensOf value) = some value := by
    simpa [decode] using decode_tokensOf value [] []
  rw [parse, read]
  exact decoded

end Printing

end ZkApi.Browser.JsonTexts
