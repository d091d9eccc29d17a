import Mathlib.Data.List.TakeWhile

/-!
# Redaction of keys in the dashboard

The dashboard masks everything that looks like a bearer key before a text reaches its feed.  It
looks for a marker, takes the longest token behind it and goes on after the token.  Positions are
counted in bytes.
-/

namespace ZkApi.Dashboard

section Redaction

def marker : List Char :=
  ['s', 'k', '-']

def replacement : List Char :=
  marker ++ "***REDACTED***".toList

def isTokenChar (letter : Char) : Bool :=
  letter.isAlphanum || letter == '-' || letter == '_'

/-- `rest.find("sk-")`: the text before the first marker, and the text from it on. -/
def findMarker : List Char → Option (List Char × List Char)
  | [] => none
  | letter :: rest =>
      if marker.isPrefixOf (letter :: rest) then some ([], letter :: rest)
      else (findMarker rest).map fun found => (letter :: found.1, found.2)

/-- The position of the first character that ends a token, after the three bytes of the marker,
or the length of the text. -/
def tokenEnd (index : Nat) : List Char → Nat
  | [] => index
  | letter :: rest =>
      if 3 ≤ index && !isTokenChar letter then index else tokenEnd (index + letter.utf8Size) rest

/-- Split a text at a position. -/
def splitAtByte : Nat → List Char → List Char × List Char
  | 0, text => ([], text)
  | _, [] => ([], [])
  | position, letter :: rest =>
      let (before, after) := splitAtByte (position - letter.utf8Size) rest
      (letter :: before, after)

theorem findMarker_some {rest before after : List Char}
    (found : findMarker rest = some (before, after)) :
    rest = before ++ after ∧ ∃ tail, after = marker ++ tail := by
  induction rest generalizing before with
  | nil => cases found
  | cons letter rest ih =>
      rw [findMarker] at found
      split at found
      · rename_i marked
        cases found
        obtain ⟨tail, same⟩ := List.isPrefixOf_iff_prefix.mp marked
        exact ⟨rfl, tail, same.symm⟩
      · obtain ⟨⟨front, back⟩, inside, same⟩ := Option.map_eq_some_iff.mp found
        cases same
        obtain ⟨split, tail⟩ := ih inside
        exact ⟨by rw [split]; rfl, tail⟩

theorem utf8Size_token {letter : Char} (token : isTokenChar letter = true) :
    letter.utf8Size = 1 := by
  have small : letter.val ≤ 0x7f := by
    change (((decide (65 ≤ letter.val ∧ letter.val ≤ 90) ||
      decide (97 ≤ letter.val) && decide (letter.val ≤ 122)) ||
      decide (48 ≤ letter.val) && decide (letter.val ≤ 57)) || letter == '-' || letter == '_') =
        true at token
    simp only [Bool.or_eq_true, Bool.and_eq_true, decide_eq_true_eq, beq_iff_eq] at token
    rcases token with ((((⟨-, most⟩ | ⟨-, most⟩) | ⟨-, most⟩) | rfl) | rfl)
    · exact UInt32.le_trans most (by decide)
    · exact UInt32.le_trans most (by decide)
    · exact UInt32.le_trans most (by decide)
    · decide
    · decide
  exact if_pos small

/-- Behind the marker the token ends where its characters do. -/
theorem tokenEnd_of_le {index : Nat} (past : 3 ≤ index) (text : List Char) :
    tokenEnd index text = index + (text.takeWhile isTokenChar).length := by
  induction text generalizing index with
  | nil => rfl
  | cons letter rest ih =>
      rw [tokenEnd]
      by_cases token : isTokenChar letter = true
      · have size := utf8Size_token token
        simp only [token, Bool.not_true, Bool.and_false, Bool.false_eq_true, if_false, size,
          List.takeWhile_cons, if_true, List.length_cons]
        rw [ih (by omega)]
        omega
      · simp [past, token]

theorem tokenEnd_marker (tail : List Char) :
    tokenEnd 0 (marker ++ tail) = 3 + (tail.takeWhile isTokenChar).length :=
  tokenEnd_of_le (le_refl 3) tail

theorem splitAtByte_token {token : List Char} (all : ∀ letter ∈ token, isTokenChar letter = true)
    (text : List Char) : splitAtByte token.length (token ++ text) = (token, text) := by
  induction token with
  | nil => cases text <;> rfl
  | cons letter token ih =>
      have size := utf8Size_token (all letter List.mem_cons_self)
      have rest := ih fun other member => all other (List.mem_cons_of_mem _ member)
      rw [List.length_cons, List.cons_append, splitAtByte, size, Nat.add_sub_cancel, rest]
      simp

theorem marker_token : ∀ letter ∈ marker, isTokenChar letter = true :=
  List.all_eq_true.mp (by decide)

/-- The text from a marker on splits after its token. -/
theorem splitAtByte_marker (tail : List Char) :
    splitAtByte (tokenEnd 0 (marker ++ tail)) (marker ++ tail) =
      (marker ++ tail.takeWhile isTokenChar, tail.dropWhile isTokenChar) := by
  have all : ∀ letter ∈ marker ++ tail.takeWhile isTokenChar, isTokenChar letter = true := by
    intro letter member
    rcases List.mem_append.mp member with inside | inside
    · exact marker_token letter inside
    · exact List.mem_takeWhile_imp inside
  have split := splitAtByte_token all (tail.dropWhile isTokenChar)
  rw [List.append_assoc, List.takeWhile_append_dropWhile, List.length_append] at split
  rw [tokenEnd_marker]
  exact split

/-- The loop of `redact_secrets`. -/
def redactFrom (rest : List Char) : List Char :=
  match _found : findMarker rest with
  | none => rest
  | some (before, after) =>
      let stop := tokenEnd 0 after
      before ++ (if 12 < stop then replacement else (splitAtByte stop after).1) ++
        redactFrom (splitAtByte stop after).2
termination_by rest.length
decreasing_by
  obtain ⟨split, tail, same⟩ := findMarker_some _found
  subst same
  rw [splitAtByte_marker, split]
  have shorter := List.length_dropWhile_le isTokenChar tail
  simp only [List.length_append, marker, List.length_cons, List.length_nil]
  omega

def redactSecrets (input : String) : String :=
  String.ofList (redactFrom input.toList)

end Redaction

section Scanning

theorem redactFrom_nil : redactFrom [] = [] := by
  rw [redactFrom]
  rfl

/-- A token behind a marker is masked if it has ten characters or more. -/
theorem redactFrom_marker (tail : List Char) :
    redactFrom (marker ++ tail) =
      (if 10 ≤ (tail.takeWhile isTokenChar).length then replacement
        else marker ++ tail.takeWhile isTokenChar) ++ redactFrom (tail.dropWhile isTokenChar) := by
  have found : findMarker (marker ++ tail) = some ([], marker ++ tail) := rfl
  have long : 12 < 3 + (tail.takeWhile isTokenChar).length ↔
      10 ≤ (tail.takeWhile isTokenChar).length := by omega
  rw [redactFrom]
  split
  · rename_i missing
    rw [found] at missing
    cases missing
  · rename_i before after here
    rw [found] at here
    cases here
    have split := splitAtByte_marker tail
    rw [tokenEnd_marker] at split
    simp only [tokenEnd_marker, split, List.nil_append, long]

/-- A character that begins no marker is kept. -/
theorem redactFrom_cons {letter : Char} {rest : List Char}
    (plain : ¬ marker <+: letter :: rest) :
    redactFrom (letter :: rest) = letter :: redactFrom rest := by
  have step : findMarker (letter :: rest) =
      (findMarker rest).map fun found => (letter :: found.1, found.2) := by
    rw [findMarker, if_neg (by rwa [List.isPrefixOf_iff_prefix])]
  rw [redactFrom, redactFrom]
  cases found : findMarker rest with
  | none =>
      rw [found, Option.map_none] at step
      split
      · rfl
      · rename_i here
        rw [step] at here
        cases here
  | some pieces =>
      rw [found, Option.map_some] at step
      split
      · rename_i missing
        rw [step] at missing
        cases missing
      · rename_i before after here
        rw [step] at here
        cases here
        rfl

/-- The cases of a text: it is empty, begins with a marker, or begins with another character. -/
theorem scan_induction {motive : List Char → Prop} (nil : motive [])
    (token : ∀ tail, motive (tail.dropWhile isTokenChar) → motive (marker ++ tail))
    (cons : ∀ letter rest, ¬ marker <+: letter :: rest → motive rest → motive (letter :: rest))
    (text : List Char) : motive text := by
  induction length : text.length using Nat.strong_induction_on generalizing text with
  | _ size ih =>
      subst length
      rcases text with _ | ⟨letter, rest⟩
      · exact nil
      · by_cases marked : marker <+: letter :: rest
        · obtain ⟨tail, same⟩ := marked
          rw [← same]
          refine token tail (ih _ ?_ _ rfl)
          have shorter := List.length_dropWhile_le isTokenChar tail
          rw [← same]
          simp only [List.length_append, marker, List.length_cons, List.length_nil]
          omega
        · exact cons letter rest marked (ih _ (Nat.lt_succ_self _) rest rfl)

/-- Redaction keeps the first character. -/
theorem head?_redactFrom (text : List Char) : (redactFrom text).head? = text.head? := by
  induction text using scan_induction with
  | nil => rw [redactFrom_nil]
  | token tail =>
      rw [redactFrom_marker]
      split <;> rfl
  | cons letter rest plain => rw [redactFrom_cons plain]; rfl

end Scanning

section Secrets

/-- The text has a marker with ten token characters or more behind it. -/
def HasSecret (text : List Char) : Prop :=
  ∃ before token after, text = before ++ (marker ++ (token ++ after)) ∧ 10 ≤ token.length ∧
    ∀ letter ∈ token, isTokenChar letter = true

/-- At the start of the text there is no such marker. -/
def CleanHead (text : List Char) : Prop :=
  ∀ tail, text = marker ++ tail → (tail.takeWhile isTokenChar).length < 10

/-- No suffix of the text begins with a secret. -/
def Clean : List Char → Prop
  | [] => True
  | letter :: rest => CleanHead (letter :: rest) ∧ Clean rest

theorem Clean.append_right {front text : List Char} (clean : Clean (front ++ text)) : Clean text := by
  induction front with
  | nil => exact clean
  | cons letter front ih => exact ih clean.2

theorem Clean.head {text : List Char} (clean : Clean text) : CleanHead text := by
  cases text with
  | nil =>
      intro tail same
      cases same
  | cons letter rest => exact clean.1

theorem takeWhile_token {token : List Char} (all : ∀ letter ∈ token, isTokenChar letter = true)
    (after : List Char) :
    (token ++ after).takeWhile isTokenChar = token ++ after.takeWhile isTokenChar :=
  List.takeWhile_append_of_pos all

/-- A clean text has no secret. -/
theorem Clean.not_hasSecret {text : List Char} (clean : Clean text) : ¬ HasSecret text := by
  rintro ⟨before, token, after, rfl, long, all⟩
  have short := clean.append_right.head _ rfl
  rw [takeWhile_token all, List.length_append] at short
  omega

/-- A short token that ends where its characters do is clean. -/
theorem clean_append {token text : List Char} (all : ∀ letter ∈ token, isTokenChar letter = true)
    (ends : text.takeWhile isTokenChar = []) (short : token.length < 13) (clean : Clean text) :
    Clean (token ++ text) := by
  induction token with
  | nil => exact clean
  | cons letter token ih =>
      have rest := ih (fun other member => all other (List.mem_cons_of_mem _ member))
        (by simp only [List.length_cons] at short; omega)
      refine ⟨?_, rest⟩
      intro tail same
      have whole : (letter :: token) ++ text = marker ++ tail := same
      have lengths := congrArg (fun text => (text.takeWhile isTokenChar).length) whole
      rw [takeWhile_token all, ends, List.append_nil, takeWhile_token marker_token,
        List.length_append] at lengths
      have three : marker.length = 3 := rfl
      omega

theorem takeWhile_redactFrom {text : List Char} (ends : text.takeWhile isTokenChar = []) :
    (redactFrom text).takeWhile isTokenChar = [] := by
  have first := head?_redactFrom text
  cases text with
  | nil => rw [redactFrom_nil]; rfl
  | cons letter rest =>
      have other : isTokenChar letter = false := by
        by_contra token
        rw [List.takeWhile_cons, if_pos (by simpa using token)] at ends
        cases ends
      cases out : redactFrom (letter :: rest) with
      | nil => rfl
      | cons head tail =>
          rw [out] at first
          cases first
          rw [List.takeWhile_cons, other]
          rfl

theorem takeWhile_dropWhile_token (tail : List Char) :
    (tail.dropWhile isTokenChar).takeWhile isTokenChar = [] := by
  cases dropped : tail.dropWhile isTokenChar with
  | nil => rfl
  | cons head rest =>
      have first := List.head_dropWhile_not isTokenChar (l := tail) (by rw [dropped]; simp)
      have other : isTokenChar head = false := by simpa [dropped] using first
      rw [List.takeWhile_cons, other]
      rfl

/-- The replacement contains no other marker. -/
theorem clean_replacement {text : List Char} (clean : Clean text) : Clean (replacement ++ text) := by
  have other : ∀ {letter : Char} {rest : List Char}, letter ≠ 's' → Clean rest →
      Clean (letter :: rest) := by
    intro letter rest different clean
    refine ⟨fun tail same => ?_, clean⟩
    exact absurd (List.cons.inj same).1 different
  have masked : Clean ("***REDACTED***".toList ++ text) := by
    have all : ("***REDACTED***".toList.all fun letter => letter != 's') = true := by decide
    have letters : ∀ letter ∈ "***REDACTED***".toList, letter ≠ 's' := fun letter member =>
      bne_iff_ne.mp (List.all_eq_true.mp all letter member)
    clear all
    generalize "***REDACTED***".toList = mask at letters
    induction mask with
    | nil => exact clean
    | cons letter mask ih =>
        exact other (letters letter List.mem_cons_self)
          (ih fun head member => letters head (List.mem_cons_of_mem _ member))
  refine ⟨?_, other (by decide) (other (by decide) masked)⟩
  intro tail same
  have whole : marker ++ ("***REDACTED***".toList ++ text) = marker ++ tail := same
  have behind := List.append_cancel_left whole
  subst behind
  exact Nat.zero_lt_succ 9

/-- A redacted text is clean. -/
theorem clean_redactFrom (text : List Char) : Clean (redactFrom text) := by
  induction text using scan_induction with
  | nil => rw [redactFrom_nil]; trivial
  | token tail ih =>
      rw [redactFrom_marker]
      split
      · exact clean_replacement ih
      · rename_i short
        have all : ∀ letter ∈ marker ++ tail.takeWhile isTokenChar, isTokenChar letter = true := by
          intro letter member
          rcases List.mem_append.mp member with inside | inside
          · exact marker_token letter inside
          · exact List.mem_takeWhile_imp inside
        apply clean_append all (takeWhile_redactFrom (takeWhile_dropWhile_token tail)) _ ih
        rw [List.length_append]
        have three : marker.length = 3 := rfl
        omega
  | cons letter rest plain ih =>
      rw [redactFrom_cons plain]
      refine ⟨?_, ih⟩
      -- A marker here would be one of the text itself, as no replacement begins like the rest of it.
      intro tail same
      exfalso
      apply plain
      obtain ⟨rfl, second⟩ := List.cons.inj same
      have firstKept := head?_redactFrom rest
      rcases rest with _ | ⟨next, rest⟩
      · rw [redactFrom_nil] at second
        cases second
      · rw [second] at firstKept
        cases firstKept
        have unmarked : ¬ marker <+: 'k' :: rest := by
          rintro ⟨more, equal⟩
          cases equal
        rw [redactFrom_cons unmarked] at second
        have third := (List.cons.inj second).2
        have secondKept := head?_redactFrom rest
        rcases rest with _ | ⟨last, rest⟩
        · rw [redactFrom_nil] at third
          cases third
        · rw [third] at secondKept
          cases secondKept
          exact ⟨rest, rfl⟩

/-- A clean text is kept as it is. -/
theorem redactFrom_clean {text : List Char} (clean : Clean text) : redactFrom text = text := by
  induction text using scan_induction with
  | nil => exact redactFrom_nil
  | token tail ih =>
      have short := clean.head tail rfl
      have rest : Clean (tail.dropWhile isTokenChar) := by
        have whole : Clean ((marker ++ tail.takeWhile isTokenChar) ++ tail.dropWhile isTokenChar) := by
          rwa [List.append_assoc, List.takeWhile_append_dropWhile]
        exact whole.append_right
      rw [redactFrom_marker, if_neg (by omega), ih rest, List.append_assoc,
        List.takeWhile_append_dropWhile]
  | cons letter rest plain ih => rw [redactFrom_cons plain, ih clean.2]

end Secrets

section Preservation

/-- The second text is the first one with some tokens masked: each begins with a marker, has ten
characters or more behind it and ends where no token character follows. -/
inductive Masks : List Char → List Char → Prop where
  | nil : Masks [] []
  | keep (letter : Char) {text masked : List Char} (rest : Masks text masked) :
      Masks (letter :: text) (letter :: masked)
  | mask {token text masked : List Char} (long : 10 ≤ token.length)
      (all : ∀ letter ∈ token, isTokenChar letter = true)
      (ends : text.takeWhile isTokenChar = []) (rest : Masks text masked) :
      Masks (marker ++ (token ++ text)) (replacement ++ masked)

theorem Masks.append {text masked : List Char} (front : List Char) (rest : Masks text masked) :
    Masks (front ++ text) (front ++ masked) := by
  induction front with
  | nil => exact rest
  | cons letter front ih => exact .keep letter ih

theorem masks_redactFrom (text : List Char) : Masks text (redactFrom text) := by
  induction text using scan_induction with
  | nil => rw [redactFrom_nil]; exact .nil
  | token tail ih =>
      have split := List.takeWhile_append_dropWhile (p := isTokenChar) (l := tail)
      rw [redactFrom_marker]
      split
      · rename_i long
        have masked := Masks.mask long (fun letter member => List.mem_takeWhile_imp member)
          (takeWhile_dropWhile_token tail) ih
        rwa [split] at masked
      · have kept := ih.append (marker ++ tail.takeWhile isTokenChar)
        rwa [List.append_assoc, split] at kept
  | cons letter rest plain ih =>
      rw [redactFrom_cons plain]
      exact .keep letter ih

/-- Redaction leaves no secret, changes nothing but the tokens that it masks, and changes nothing
when it is repeated. -/
theorem redactSecrets_safe (input : String) :
    ¬ HasSecret (redactSecrets input).toList ∧ Masks input.toList (redactSecrets input).toList ∧
      redactSecrets (redactSecrets input) = redactSecrets input := by
  have text : (redactSecrets input).toList = redactFrom input.toList := String.toList_ofList
  have clean := clean_redactFrom input.toList
  refine ⟨?_, ?_, ?_⟩
  · rw [text]
    exact clean.not_hasSecret
  · rw [text]
    exact masks_redactFrom input.toList
  · rw [redactSecrets, text, redactFrom_clean clean]
    rfl

end Preservation

end ZkApi.Dashboard
