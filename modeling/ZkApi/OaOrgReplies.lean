import ZkApi.MachineIntegers
import ZkApi.OpenRouterReplies
import ZkApi.ServerConfig

/-!
# Replies of the OA org

Key and usage evidence of the OA org, the bounds it is checked against, and the
classification of its rate-limit answers into stable reason codes.
-/

namespace ZkApi

open JsonText MachineIntegers

structure OaOrgKeyResponse where
  source : String
  key : String
  keyHash : String
  creditLimit : Float
  durationMinutes : UInt64
  expiresAtUnix : UInt64
  stationId : String
  stationRecentlyAttested : Bool
  stationSignature : String
  orgSignature : String
  verifierUrl : String
  openrouterApiBase : String
deriving DecidableEq

structure OaOrgCreatedKey where
  key : String
  hash : String
  expiresAt : UInt64
  openrouterApiBase : String
  verification : OaKeyVerificationEvidence

structure OaOrgUsageResponse where
  source : String
  version : UInt64
  status : String
  clientRequestId : String
  stationRequestId : String
  keyHash : String
  retryAfterSeconds : Option UInt64
  usageCredits : Option Nat
  creditLimitCredits : Option Nat
  expiresAtUnix : Option UInt64
  closedAtUnix : Option UInt64
  finalizedAtUnix : Option UInt64
  stationId : Option String
  stationSignature : Option String
  orgSignature : Option String
deriving DecidableEq

structure OaOrgFinalUsage where
  usageCredits : Nat
  expiresAt : UInt64
  closedAt : UInt64
  finalizedAt : UInt64
  stationId : String
  stationSignature : String
  orgSignature : String

inductive OaOrgUsage where
  | pending (retryAfterSeconds : UInt64)
  | finalized (receipt : OaOrgFinalUsage)

structure OaOrgUsageExpectation where
  creditLimitUsd : Float
  durationMinutes : UInt64
  limitCredits : Nat
  minimumExpiresAt : UInt64
  maximumExpiresAt : UInt64
deriving DecidableEq

def isAsciiHexDigit (character : Char) : Bool :=
  character.isDigit || ('a' ≤ character && character ≤ 'f') ||
    ('A' ≤ character && character ≤ 'F')

def isHexOfLength (length : Nat) (value : String) : Bool :=
  value.utf8ByteSize == length && value.toList.all isAsciiHexDigit

def isHexSignature (value : String) : Bool :=
  isHexOfLength 128 value

/-- Every check of `validate_response` that does not look at the clock. -/
def keyEvidenceUsable (response : OaOrgKeyResponse) (requestedLimitUsd : Float)
    (requestedDurationMinutes : UInt64) : Bool :=
  response.source == "oa_org" && response.key != "" && response.keyHash != "" &&
    response.stationId != "" &&
    response.durationMinutes == requestedDurationMinutes &&
    (response.creditLimit.isFinite &&
      limitsAgree response.creditLimit requestedLimitUsd) &&
    isSecureOrLoopbackUrl response.verifierUrl &&
    isSecureOrLoopbackUrl response.openrouterApiBase &&
    (isHexSignature response.stationSignature && isHexSignature response.orgSignature)

/-- The key expires one lease duration from now, give or take 30 seconds. -/
def expiryIsBounded (now ttlSeconds expiresAt : UInt64) : Bool :=
  saturatingSub (saturatingAdd now ttlSeconds) 30 ≤ expiresAt &&
    expiresAt ≤ saturatingAdd (saturatingAdd now ttlSeconds) 30

def validateResponse (now : UInt64) (response : OaOrgKeyResponse)
    (requestedLimitUsd : Float) (requestedDurationMinutes ttlSeconds : UInt64) :
    Except ServerError Unit :=
  if keyEvidenceUsable response requestedLimitUsd requestedDurationMinutes &&
      expiryIsBounded now ttlSeconds response.expiresAtUnix then
    .ok ()
  else
    .error (.internal "OA org returned unusable or unbounded key evidence")

def usageEvidenceMatches (response : OaOrgUsageResponse)
    (clientRequestId keyHash : String) : Bool :=
  response.source == "oa_org" && response.version == 1 &&
    response.clientRequestId == clientRequestId && response.keyHash == keyHash &&
    isHexOfLength 64 response.stationRequestId

/-- The final receipt of a response, if no part of it is missing. -/
def finalUsageOf (response : OaOrgUsageResponse) : Option (OaOrgFinalUsage × Nat) := do
  let usageCredits ← response.usageCredits
  let creditLimitCredits ← response.creditLimitCredits
  let expiresAt ← response.expiresAtUnix
  let closedAt ← response.closedAtUnix
  let finalizedAt ← response.finalizedAtUnix
  let stationId ← response.stationId
  let stationSignature ← response.stationSignature
  let orgSignature ← response.orgSignature
  return (⟨usageCredits, expiresAt, closedAt, finalizedAt, stationId,
    stationSignature, orgSignature⟩, creditLimitCredits)

def validateUsageResponse (response : OaOrgUsageResponse)
    (clientRequestId keyHash : String) (expectedLimitCredits : Nat)
    (minimumExpiresAt maximumExpiresAt pendingRetryAfterSeconds : UInt64) :
    Except ServerError OaOrgUsage :=
  if !usageEvidenceMatches response clientRequestId keyHash then
    .error (.internal "OA org returned mismatched usage evidence")
  else if response.status = "pending" then
    .ok (.pending (max pendingRetryAfterSeconds 1))
  else
    match finalUsageOf response with
    | none => .error (.internal "OA org returned incomplete final usage evidence")
    | some (receipt, creditLimitCredits) =>
        if response.status ≠ "finalized" ∨ receipt.usageCredits > expectedLimitCredits ∨
            creditLimitCredits ≠ expectedLimitCredits ∨
            receipt.expiresAt < minimumExpiresAt ∨ receipt.expiresAt > maximumExpiresAt ∨
            receipt.closedAt > receipt.expiresAt ∨ receipt.finalizedAt < receipt.closedAt ∨
            receipt.stationId = "" ∨ isHexSignature receipt.stationSignature = false ∨
            isHexSignature receipt.orgSignature = false then
          .error (.internal "OA org returned usage outside the issued lease bounds")
        else
          .ok (.finalized receipt)

/-- A final receipt never bills more than the limit it was checked against. -/
theorem validateUsageResponse_le_limit {response : OaOrgUsageResponse}
    {clientRequestId keyHash : String} {expectedLimitCredits : Nat}
    {minimumExpiresAt maximumExpiresAt pendingRetryAfterSeconds : UInt64}
    {receipt : OaOrgFinalUsage}
    (validated : validateUsageResponse response clientRequestId keyHash
      expectedLimitCredits minimumExpiresAt maximumExpiresAt
      pendingRetryAfterSeconds = .ok (.finalized receipt)) :
    receipt.usageCredits ≤ expectedLimitCredits := by
  unfold validateUsageResponse at validated
  split at validated
  · cases validated
  split at validated
  · cases validated
  split at validated
  · cases validated
  split at validated
  · cases validated
  · rename_i bounds
    cases validated
    push Not at bounds
    exact bounds.2.1

section RateLimits

/-- `OA_RATE_LIMITED`. -/
def oaRateLimited : String := "oa_rate_limited"

/-- `OA_HOURLY_ISSUANCE_BUDGET`. -/
def oaHourlyIssuanceBudget : String := "oa_hourly_issuance_budget"

/-- `OA_MINUTE_REQUEST_LIMIT`. -/
def oaMinuteRequestLimit : String := "oa_minute_request_limit"

/-- `DEFAULT_OA_RETRY_AFTER_SECONDS`. -/
def defaultOaRetryAfterSeconds : UInt64 := 60

/-- The text contains the other as consecutive characters. -/
def containsText (value part : String) : Bool :=
  value.toList.tails.any fun rest => part.toList.isPrefixOf rest

def classifyRateLimitText (value : String) : Option String :=
  let value := String.ofList (value.toList.map Char.toLower)
  let hourly := containsText value "hourly" || containsText value "per hour" ||
    containsText value "per_hour" || containsText value "hour_limit"
  if hourly && (containsText value "issuance" || containsText value "budget" ||
      containsText value "credit" || containsText value "limit") then
    some oaHourlyIssuanceBudget
  else if containsText value "requests per minute" ||
      containsText value "requests_per_minute" ||
      containsText value "per-minute request" || containsText value "request rate" then
    some oaMinuteRequestLimit
  else none

/-- The digits of a `u64` in a text, as `parse::<u64>` reads them. -/
def parseU64 (text : String) : Option UInt64 :=
  let digits := match text.toList with
    | '+' :: rest => rest
    | characters => characters
  if digits.isEmpty || !digits.all Char.isDigit then none
  else
    let value := digits.foldl
      (fun value digit => 10 * value + (digit.toNat - '0'.toNat)) 0
    if value < 2 ^ 64 then some (UInt64.ofNat value) else none

/-- The Unicode white space that `str::trim` removes. -/
def isUnicodeWhitespace (character : Char) : Bool :=
  let code := character.toNat
  (9 ≤ code && code ≤ 13) || code == 0x20 || code == 0x85 || code == 0xA0 ||
    code == 0x1680 || (0x2000 ≤ code && code ≤ 0x200A) || code == 0x2028 ||
    code == 0x2029 || code == 0x202F || code == 0x205F || code == 0x3000

def trimText (text : String) : String :=
  String.ofList ((text.toList.dropWhile isUnicodeWhitespace).reverse.dropWhile
    isUnicodeWhitespace).reverse

def retryAfterScalar : Json → Option UInt64
  | .integer value => if value < 2 ^ 64 then some (UInt64.ofNat value) else none
  | .string value => parseU64 (trimText value)
  | _ => none

/-- JSON texts nested deeper than this are refused by the parser. -/
def jsonDepthLimit : Nat := 128

def retryAfterValue : Nat → Json → Option UInt64
  | 0, _ => none
  | depth + 1, .object fields =>
      (["retry_after_seconds", "retryAfterSeconds", "retry_after", "retryAfter"].findSome?
        fun key => (fields.lookup key).bind retryAfterScalar).or
          ((fields.lookup "detail").bind (retryAfterValue depth))
  | _ + 1, _ => none

def classifyRateLimitValue : Nat → Json → Option String
  | 0, _ => none
  | _ + 1, .string value => classifyRateLimitText value
  | depth + 1, .object fields =>
      ["reason", "code", "error_code", "type", "message", "error", "detail"].findSome?
        fun key => (fields.lookup key).bind (classifyRateLimitValue depth)
  | depth + 1, .array items => items.findSome? (classifyRateLimitValue depth)
  | _ + 1, _ => none

/-- The loop of `normalize_machine_reason`: `normalized` is reversed. -/
def normalizedCharacters : List Char → List Char → Bool → List Char
  | [], normalized, _ => normalized
  | character :: rest, normalized, separatorPending =>
      let (normalized, separatorPending) :=
        if character.isAlphanum then
          (character.toLower ::
            (if separatorPending && !normalized.isEmpty then '_' :: normalized
              else normalized), false)
        else (normalized, separatorPending || !normalized.isEmpty)
      if normalized.length ≥ 80 then normalized
      else normalizedCharacters rest normalized separatorPending

def normalizeMachineReason (value : String) : Option String :=
  let normalized := String.ofList
    ((normalizedCharacters (value.toList.take 160) [] false).dropWhile (· == '_')).reverse
  if normalized = "" then none
  else if normalized ∈ ["minute_request_limit", "oa_minute_request_limit",
      "requests_per_minute_exceeded", "request_rate_exceeded"] then
    some oaMinuteRequestLimit
  else if normalized ∈ ["hourly_issuance_budget", "oa_hourly_issuance_budget",
      "hourly_issuance_budget_exceeded"] then
    some oaHourlyIssuanceBudget
  else some oaRateLimited

def machineReasonAt (fields : List (String × Json)) (key : String) : Option String :=
  ((fields.lookup key).bind Json.asString).bind normalizeMachineReason

def machineRateLimitReason : Nat → Json → Option String
  | 0, _ => none
  | depth + 1, .object fields =>
      (machineReasonAt fields "reason").or
        (((fields.lookup "detail").bind (machineRateLimitReason depth)).or
          (["code", "error_code", "type"].findSome? (machineReasonAt fields)))
  | _ + 1, _ => none

def parseOaRateLimit (P : Protocol) (retryAfter : Option UInt64) (body : String) :
    ServerError :=
  let parsed := P.jsonFromStr body
  let reason :=
    ((parsed.bind (machineRateLimitReason jsonDepthLimit)).or
      ((parsed.bind (classifyRateLimitValue jsonDepthLimit)).or
        (classifyRateLimitText body))).getD oaRateLimited
  let retryAfterSeconds :=
    (retryAfter.or (parsed.bind (retryAfterValue jsonDepthLimit))).getD
      defaultOaRetryAfterSeconds
  .oaRateLimited reason retryAfterSeconds

/-- The reason codes a client can see. -/
def StableReason (reason : String) : Prop :=
  reason = oaRateLimited ∨ reason = oaHourlyIssuanceBudget ∨
    reason = oaMinuteRequestLimit

private theorem stableReason_classifyText {value reason : String}
    (classified : classifyRateLimitText value = some reason) : StableReason reason := by
  unfold classifyRateLimitText at classified
  dsimp only at classified
  split at classified
  · cases classified
    exact Or.inr (Or.inl rfl)
  · split at classified
    · cases classified
      exact Or.inr (Or.inr rfl)
    · cases classified

private theorem stableReason_classifyValue {depth : Nat} {value : Json} {reason : String}
    (classified : classifyRateLimitValue depth value = some reason) :
    StableReason reason := by
  induction depth generalizing value with
  | zero => cases classified
  | succ depth ih =>
      cases value with
      | string text => exact stableReason_classifyText classified
      | object fields =>
          obtain ⟨key, _, found⟩ := List.exists_of_findSome?_eq_some classified
          obtain ⟨inner, _, found⟩ := Option.bind_eq_some_iff.mp found
          exact ih found
      | array items =>
          obtain ⟨item, _, found⟩ := List.exists_of_findSome?_eq_some classified
          exact ih found
      | _ => cases classified

private theorem stableReason_machineReasonAt {fields : List (String × Json)}
    {key reason : String} (found : machineReasonAt fields key = some reason) :
    StableReason reason := by
  obtain ⟨text, _, normalized⟩ := Option.bind_eq_some_iff.mp found
  unfold normalizeMachineReason at normalized
  dsimp only at normalized
  split at normalized
  · cases normalized
  split at normalized
  · cases normalized
    exact Or.inr (Or.inr rfl)
  split at normalized
  · cases normalized
    exact Or.inr (Or.inl rfl)
  · cases normalized
    exact Or.inl rfl

private theorem stableReason_machineReason {depth : Nat} {value : Json} {reason : String}
    (found : machineRateLimitReason depth value = some reason) : StableReason reason := by
  induction depth generalizing value with
  | zero => cases found
  | succ depth ih =>
      cases value with
      | object fields =>
          rcases Option.or_eq_some_iff.mp found with own | ⟨_, found⟩
          · exact stableReason_machineReasonAt own
          rcases Option.or_eq_some_iff.mp found with detail | ⟨_, coded⟩
          · obtain ⟨inner, _, found⟩ := Option.bind_eq_some_iff.mp detail
            exact ih found
          · obtain ⟨key, _, found⟩ := List.exists_of_findSome?_eq_some coded
            exact stableReason_machineReasonAt found
      | _ => cases found

/-- Whatever an upstream body says, the reason handed on is one of the three
stable codes. -/
theorem parseOaRateLimit_stable (P : Protocol) (retryAfter : Option UInt64)
    (body : String) : ∃ reason retryAfterSeconds, StableReason reason ∧
      parseOaRateLimit P retryAfter body = .oaRateLimited reason retryAfterSeconds := by
  refine ⟨_, _, ?_, rfl⟩
  cases found : ((P.jsonFromStr body).bind (machineRateLimitReason jsonDepthLimit)).or
      (((P.jsonFromStr body).bind (classifyRateLimitValue jsonDepthLimit)).or
        (classifyRateLimitText body)) with
  | none => exact Or.inl rfl
  | some reason =>
      rw [Option.getD_some]
      rcases Option.or_eq_some_iff.mp found with machine | ⟨_, found⟩
      · obtain ⟨_, _, machine⟩ := Option.bind_eq_some_iff.mp machine
        exact stableReason_machineReason machine
      rcases Option.or_eq_some_iff.mp found with classified | ⟨_, text⟩
      · obtain ⟨_, _, classified⟩ := Option.bind_eq_some_iff.mp classified
        exact stableReason_classifyValue classified
      · exact stableReason_classifyText text

end RateLimits

end ZkApi
