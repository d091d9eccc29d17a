import ZkApi.ProtocolTypes
import Mathlib.Control.Monad.Basic

/-!
# Replies of the key services

What an HTTP exchange with a key service can end in, the records that the
replies of the OpenRouter management API decode to, and the checks on them.
-/

namespace ZkApi

/-- A status code and the text it is printed with. -/
structure HttpStatus where
  code : UInt16
  text : String
deriving DecidableEq

def HttpStatus.isSuccess (status : HttpStatus) : Bool :=
  200 ≤ status.code ∧ status.code < 300

/-- How one HTTP exchange ended: the request was not answered, the body of the
answer could not be read, or there is a body, which may or may not decode.
`retryAfter` is the number in the `Retry-After` header. -/
inductive Exchange (Body : Type) where
  | unsent (error : String)
  | unread (status : HttpStatus) (retryAfter : Option UInt64) (error : String)
  | received (status : HttpStatus) (retryAfter : Option UInt64) (text : String)
      (decoded : Except String Body)
deriving DecidableEq

structure KeyData where
  hash : String
  usage : Float
  byokUsage : Float
  name : String
  limit : Option Float
  expiresAt : Option String
  includeByokInLimit : Bool
deriving DecidableEq

/-- `CreateKeyEnvelope`. -/
structure CreateKeyEnvelope where
  key : String
  data : KeyData
deriving DecidableEq

structure CreatedKey where
  key : String
  hash : String
deriving DecidableEq

/-- The longest run of leading characters that fits into `room` bytes. -/
def fittingCharacters (room : Nat) : List Char → List Char
  | [] => []
  | character :: rest =>
      if character.utf8Size ≤ room then
        character :: fittingCharacters (room - character.utf8Size) rest
      else []

/-- Shorten an upstream text for an error message, at a character boundary. -/
def truncate (value : String) (max : Nat) : String :=
  if value.utf8ByteSize ≤ max then value
  else String.ofList (fittingCharacters max value.toList) ++ "…"

/-- `format!("{value:0width$}")`. -/
def zeroPadded (width : Nat) (value : Int) : String :=
  let digits := toString value
  String.ofList (List.replicate (width - digits.length) '0') ++ digits

/-- A Unix time as the UTC ISO-8601 text that OpenRouter accepts. -/
def unixToIso8601 (secs : UInt64) : String :=
  let days : Int := (secs / 86400).toNat
  let rem : Int := (secs % 86400).toNat
  let hour := rem.tdiv 3600
  let min := (rem.tmod 3600).tdiv 60
  let sec := rem.tmod 60
  let z := days + 719468
  let era := (if z ≥ 0 then z else z - 146096).tdiv 146097
  let doe := z - era * 146097
  let yoe := (doe - doe.tdiv 1460 + doe.tdiv 36524 - doe.tdiv 146096).tdiv 365
  let y := yoe + era * 400
  let doy := doe - (365 * yoe + yoe.tdiv 4 - yoe.tdiv 100)
  let mp := (5 * doy + 2).tdiv 153
  let day := doy - (153 * mp + 2).tdiv 5 + 1
  let month := if mp < 10 then mp + 3 else mp - 9
  let year := if month ≤ 2 then y + 1 else y
  zeroPadded 4 year ++ "-" ++ zeroPadded 2 month ++ "-" ++ zeroPadded 2 day ++ "T" ++
    zeroPadded 2 hour ++ ":" ++ zeroPadded 2 min ++ ":" ++ zeroPadded 2 sec ++ "Z"

example : unixToIso8601 0 = "1970-01-01T00:00:00Z" ∧
    unixToIso8601 1700000000 = "2023-11-14T22:13:20Z" ∧
      unixToIso8601 1709208000 = "2024-02-29T12:00:00Z" := by
  decide +kernel

/-- OpenRouter may write a whole second with or without milliseconds. -/
def openrouterExpiryMatches (actual expected : String) : Bool :=
  actual == expected ||
    match expected.toList.reverse with
    | 'Z' :: front => actual == String.ofList front.reverse ++ ".000Z"
    | _ => false

/-- `f64::max`, which ignores a NaN on the left. -/
def f64Max (first second : Float) : Float :=
  if first.isNaN then second else if first ≤ second then second else first

/-- `f64::EPSILON`. -/
def f64Epsilon : Float := 2.220446049250313e-16

/-- The tolerance within which a service has to repeat a requested limit. -/
def limitsAgree (reported requested : Float) : Bool :=
  (reported - requested).abs ≤ f64Max f64Epsilon (requested * 1e-9)

/-- What `get_key_usage` makes of a reply: own credits and BYOK use count. -/
def KeyData.usageUsd (data : KeyData) : Float :=
  f64Max data.usage 0.0 + f64Max data.byokUsage 0.0

end ZkApi
