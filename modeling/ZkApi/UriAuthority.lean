import Mathlib.Data.List.Basic

/-!
# The authority of a URI

The authority of a URI stands between the two slashes after its scheme and the next slash,
question mark or number sign.  It names a host, with user information before an at sign and a
port after a colon.
-/

namespace Uri

section Characters

/-- The characters that need no encoding anywhere. -/
def isUnreserved (letter : Char) : Bool :=
  letter.isAlphanum || letter == '-' || letter == '.' || letter == '_' || letter == '~'

def isSubDelim (letter : Char) : Bool :=
  ['!', '$', '&', '\'', '(', ')', '*', '+', ',', ';', '='].contains letter

def isHex (letter : Char) : Bool :=
  letter.isDigit || ('a' ≤ letter && letter ≤ 'f') || ('A' ≤ letter && letter ≤ 'F')

/-- A text of unreserved characters, delimiters, percent encodings and some characters more. -/
def isEncoded (extra : Char → Bool) : List Char → Bool
  | [] => true
  | '%' :: high :: low :: rest => isHex high && isHex low && isEncoded extra rest
  | letter :: rest => (isUnreserved letter || isSubDelim letter || extra letter) && isEncoded extra rest

def isUserinfo : List Char → Bool :=
  isEncoded (· == ':')

def isRegName : List Char → Bool :=
  isEncoded fun _ => false

/-- A character of the authority, which the path, the query and the fragment end. -/
def inAuthority (letter : Char) : Bool :=
  letter != '/' && letter != '?' && letter != '#'

def inScheme (letter : Char) : Bool :=
  inAuthority letter && letter != ':'

end Characters

section Components

/-- The scheme in front of the first colon. -/
def scheme (text : List Char) : Option (List Char) :=
  match text.dropWhile inScheme with
  | ':' :: _ => some (text.takeWhile inScheme)
  | _ => none

/-- The text of the authority. -/
def authorityText (text : List Char) : Option (List Char) :=
  match text.dropWhile inScheme with
  | ':' :: '/' :: '/' :: rest => some (rest.takeWhile inAuthority)
  | _ => none

structure Authority where
  userinfo : Option (List Char)
  host : List Char
  port : Option (List Char)
deriving DecidableEq

/-- What follows the host is nothing or a colon with digits. -/
def portOf : List Char → Option (Option (List Char))
  | [] => some none
  | ':' :: digits => if digits.all Char.isDigit then some (some digits) else none
  | _ => none

/-- A host in brackets ends with its bracket, and any other one before a colon. -/
def hostAndPort (userinfo : Option (List Char)) (text : List Char) : Option Authority :=
  match text with
  | '[' :: literal =>
      match literal.dropWhile (· != ']') with
      | ']' :: rest =>
          (portOf rest).map fun port =>
            ⟨userinfo, '[' :: literal.takeWhile (· != ']') ++ [']'], port⟩
      | _ => none
  | _ =>
      if isRegName (text.takeWhile (· != ':')) then
        (portOf (text.dropWhile (· != ':'))).map fun port =>
          ⟨userinfo, text.takeWhile (· != ':'), port⟩
      else none

/-- The components of an authority. -/
def components (text : List Char) : Option Authority :=
  match text.dropWhile (· != '@') with
  | _ :: rest =>
      if isUserinfo (text.takeWhile (· != '@')) then
        hostAndPort (some (text.takeWhile (· != '@'))) rest
      else none
  | [] => hostAndPort none text

/-- The authority of a URI. -/
def authority (text : List Char) : Option Authority :=
  (authorityText text).bind components

end Components

section Hosts

/-- The URI names one of these hosts. -/
def HostIn (hosts : List (List Char)) (text : List Char) : Prop :=
  ∃ found, authority text = some found ∧ found.host ∈ hosts

/-- Nothing or a colon with digits. -/
def IsPort (text : List Char) : Prop :=
  text = [] ∨ ∃ digits, text = ':' :: digits ∧ digits.all Char.isDigit = true

theorem portOf_isSome (text : List Char) : (∃ port, portOf text = some port) ↔ IsPort text := by
  unfold portOf
  split
  · simp [IsPort]
  · rename_i digits
    by_cases all : digits.all Char.isDigit = true
    · rw [if_pos all]
      exact ⟨fun _ => Or.inr ⟨digits, rfl, all⟩, fun _ => ⟨_, rfl⟩⟩
    · rw [if_neg all]
      refine ⟨fun found => ?_, fun port => ?_⟩
      · obtain ⟨port, found⟩ := found
        cases found
      · rcases port with empty | ⟨others, same, numeric⟩
        · cases empty
        · cases same
          exact absurd numeric all
  · rename_i notEmpty notColon
    refine ⟨fun found => ?_, fun port => ?_⟩
    · obtain ⟨port, found⟩ := found
      cases found
    · rcases port with rfl | ⟨digits, rfl, -⟩
      · exact absurd rfl notEmpty
      · exact absurd rfl (notColon digits)

theorem takeWhile_ne_eq {separator : Char} {text front : List Char} (plain : separator ∉ front) :
    (front ++ text).takeWhile (· != separator) = front ++ text.takeWhile (· != separator) := by
  induction front with
  | nil => rfl
  | cons letter rest ih =>
      have different : letter ≠ separator := fun same => plain (same ▸ List.mem_cons_self)
      have tail := ih fun member => plain (List.mem_cons_of_mem _ member)
      simp [different, tail]

theorem dropWhile_ne_eq {separator : Char} {text front : List Char} (plain : separator ∉ front) :
    (front ++ text).dropWhile (· != separator) = text.dropWhile (· != separator) := by
  induction front with
  | nil => rfl
  | cons letter rest ih =>
      have different : letter ≠ separator := fun same => plain (same ▸ List.mem_cons_self)
      have tail := ih fun member => plain (List.mem_cons_of_mem _ member)
      simp [different, tail]

/-- What follows the first separator begins with it. -/
theorem dropWhile_ne_head {separator head : Char} {text rest : List Char}
    (dropped : text.dropWhile (· != separator) = head :: rest) : head = separator := by
  have first := List.head_dropWhile_not (· != separator) (l := text) (by rw [dropped]; simp)
  simpa [dropped] using first

/-- A port begins with a colon, so what stands before the colon is the host. -/
theorem IsPort.split {host port : List Char} (ends : IsPort port) (plain : ':' ∉ host) :
    (host ++ port).takeWhile (· != ':') = host ∧ (host ++ port).dropWhile (· != ':') = port := by
  rw [takeWhile_ne_eq plain, dropWhile_ne_eq plain]
  rcases ends with rfl | ⟨digits, rfl, -⟩
  · simp
  · simp

/-- A host without brackets is one of some names if a port follows such a name. -/
theorem hostAndPort_iff {hosts : List (List Char)} (userinfo : Option (List Char))
    (names : ∀ host ∈ hosts, isRegName host = true ∧ ':' ∉ host ∧ ∃ first rest, host = first :: rest ∧
      first ≠ '[') (text : List Char) :
    (∃ found, hostAndPort userinfo text = some found ∧ found.host ∈ hosts) ↔
      ∃ host ∈ hosts, ∃ port, text = host ++ port ∧ IsPort port := by
  constructor
  · rintro ⟨found, parsed, member⟩
    unfold hostAndPort at parsed
    split at parsed
    · split at parsed
      · obtain ⟨port, -, rfl⟩ := Option.map_eq_some_iff.mp parsed
        obtain ⟨-, -, first, rest, same, different⟩ := names _ member
        cases same
        exact absurd rfl different
      · cases parsed
    · split at parsed
      · obtain ⟨port, ends, rfl⟩ := Option.map_eq_some_iff.mp parsed
        exact ⟨_, member, _, (List.takeWhile_append_dropWhile).symm,
          (portOf_isSome _).mp ⟨port, ends⟩⟩
      · cases parsed
  · rintro ⟨host, member, port, rfl, ends⟩
    obtain ⟨regName, plain, first, rest, rfl, different⟩ := names host member
    obtain ⟨value, read⟩ := (portOf_isSome port).mpr ends
    obtain ⟨taken, dropped⟩ := ends.split plain
    refine ⟨⟨userinfo, first :: rest, value⟩, ?_, member⟩
    unfold hostAndPort
    split
    · rename_i literal same
      exact absurd (List.cons.inj same).1 different
    · rw [taken, dropped, if_pos regName, read]
      rfl

end Hosts

end Uri
