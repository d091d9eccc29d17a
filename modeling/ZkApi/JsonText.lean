import Mathlib.Algebra.Group.Nat.Defs

/-!
# JSON values

The part of a JSON library that the server uses: building flat objects,
indexing a value by a key, and reading integers and floats back.  Integers are
kept apart from floats, as the library does.
-/

namespace JsonText

inductive Json where
  | null
  | bool (value : Bool)
  | integer (value : Nat)
  | negative (magnitude : Nat)
  | float (value : Float)
  | string (value : String)
  | array (items : List Json)
  | object (fields : List (String × Json))

namespace Json

/-- `value[key]`: a missing key, like a value that is no object, gives null. -/
def index (value : Json) (key : String) : Json :=
  match value with
  | .object fields => (fields.lookup key).getD .null
  | _ => .null

/-- The value of a required field, if the object has it. -/
def field? (value : Json) (key : String) : Option Json :=
  match value with
  | .object fields => fields.lookup key
  | _ => none

def asU64 : Json → Option Nat
  | .integer value => if value < 2 ^ 64 then some value else none
  | _ => none

def asF64 : Json → Option Float
  | .integer value => some (Float.ofNat value)
  | .negative magnitude => some (-Float.ofNat magnitude)
  | .float value => some value
  | _ => none

def asString : Json → Option String
  | .string value => some value
  | _ => none

/-- A float becomes null unless it is finite. -/
def ofF64 (value : Float) : Json :=
  if value.isFinite then .float value else .null

/-- Building a value out of a 128-bit integer fails beyond 64 bits. -/
def ofU128 (value : Nat) : Option Json :=
  if value < 2 ^ 64 then some (.integer value) else none

/-- The value is an integer or a string: printing and parsing keep it. -/
def Exact : Json → Prop
  | .integer _ => True
  | .string _ => True
  | _ => False

end Json

/-- Parsing the text of an object gives an object with the same keys, and the
same value under every key whose value is an integer or a string. -/
def ObjectTextFaithful (print : Json → String) (parse : String → Option Json) : Prop :=
  ∀ fields : List (String × Json), ∃ parsed : List (String × Json),
    parse (print (.object fields)) = some (.object parsed) ∧
      ∀ key,
        (parsed.lookup key = none ↔ fields.lookup key = none) ∧
          ∀ value, fields.lookup key = some value → value.Exact →
            parsed.lookup key = some value

end JsonText
