import ZkApi.LeaseHandlers

/-!
# Types of the client daemon

The configuration and errors of the daemon, what its wallet keeps of a note,
the plan of a withdrawal, and the lease of a child key with the checks that it
has to pass.
-/

namespace ZkApi.Clientd

open MachineIntegers

inductive RequestMode where
  | proxy
  | directOpenrouter
deriving DecidableEq

structure AuthConfig where
  requestMode : RequestMode
  requestChargeCap : Nat
  policyChargeCap : Nat
  policyEnabled : Bool
  oaVerifierUrl : String
  openrouterInferenceBase : String
  requireOaOrgKeySource : Bool
deriving DecidableEq

inductive AuthError where
  | walletBusy
  | noActiveNote
  | insufficientBalance
  | pendingRequest
  | leasePending (message : String)
  | withdrawalPending (message : String)
  | leaseSessionConflict (activeSessionId : String) (expiresAt : UInt64)
  | upstream (message : String)
  | upstreamResponse (status : UInt16) (message : String)
  | keyVerification (message : String)
  | invalidInput (message : String)
  | wallet (message : String)
  | indexer (message : String)
  | serialization (message : String)
deriving DecidableEq

section Wallet

/-- What the wallet keeps of its note. -/
structure NoteState where
  noteId : UInt32
  secret : Felt252
  currentBalance : Nat
  currentAnchor : Felt252
deriving DecidableEq

/-- The journal of a request whose response the wallet has not installed. -/
structure PendingRequestJournal where
  clientRequestId : String
  nullifier : Felt252
  noteId : UInt32
  preparedRequest : Option ApiRequestV2
deriving DecidableEq

structure ConfirmDepositRequest where
  secret : Felt252
  noteId : UInt32
  amount : Nat
  expiryTs : UInt64
deriving DecidableEq

structure WalletStatus where
  hasNote : Bool
  pendingRequest : Bool
  note : Option NoteState
deriving DecidableEq

structure RetiredNote where
  noteId : UInt32
  remainingBalance : Nat
deriving DecidableEq

structure RecoverResult where
  recovered : Bool
  wallet : WalletStatus
deriving DecidableEq

/-- The functions of the wallet that the daemon is built with.  `openrouterBody` is the text
that the JSON library prints of `openrouter_request` for a path and the body it parses. -/
structure WalletFunctions where
  stateNullifier : NoteState → Felt252
  confirmDeposit : Option NoteState → ConfirmDepositRequest → Except AuthError NoteState
  leaseAuthorization : String
  openrouterBody : String → String → String
  jsonErrorMessage : String → Option String

end Wallet

section Withdrawals

inductive WithdrawalMode where
  | mutual
  | escape
deriving DecidableEq

/-- A payout address of twenty bytes. -/
abbrev Address := BitVec 160

structure WithdrawalPublicInputsV2 where
  noteId : UInt32
  finalBalance : Nat
  destination : Address
  withdrawalNullifier : Felt252
deriving DecidableEq

structure WithdrawalPlan where
  mode : WithdrawalMode
  publicInputs : WithdrawalPublicInputsV2
  siblings : List Felt252
  proof : Groth16ProofWire
deriving DecidableEq

structure WithdrawalChainStatus where
  noteId : UInt32
  status : String
  challengeDeadline : Option UInt64
  wallet : WalletStatus
deriving DecidableEq

def withdrawalModeLabel : WithdrawalMode → String
  | .mutual => "mutual-close"
  | .escape => "escape-hatch"

/-- The bytes of a number, the highest first. -/
def bigEndianBytes : Nat → Nat → List Nat
  | 0, _ => []
  | count + 1, value => bigEndianBytes count (value / 256) ++ [value % 256]

/-- `{byte:02x}`. -/
def byteHex (byte : Nat) : List Char :=
  [Nat.digitChar (byte / 16), Nat.digitChar (byte % 16)]

def formatAddress (address : Address) : String :=
  "0x" ++ String.ofList ((bigEndianBytes 20 address.toNat).flatMap byteHex)

end Withdrawals

section Leases

structure ActiveOpenRouterLease where
  sessionId : String
  clientRequestId : String
  apiKey : String
  openrouterApiBase : String
  expiresAt : UInt64
  settleAfter : UInt64
  verification : Option OaKeyVerificationEvidence
  verified : Bool
  requestsServed : UInt32
deriving DecidableEq

/-- The lease with one more request counted. -/
def ActiveOpenRouterLease.served (lease : ActiveOpenRouterLease) : ActiveOpenRouterLease :=
  { lease with
    requestsServed := UInt32.ofNat (min (lease.requestsServed.toNat + 1) (2 ^ 32 - 1)) }

structure CoreRequest where
  path : String
  body : String
deriving DecidableEq

structure CoreResponse where
  clientRequestId : String
  responseCode : UInt16
  rawPayload : String
  chargeApplied : Nat
  nextAnchor : Felt252
  remainingBalance : Option Nat
deriving DecidableEq

structure ErrorResponse where
  errorCode : String
  errorMessage : String
  retriable : Bool
deriving DecidableEq

/-- What a call of the protocol server can come back with. -/
inductive Reply (α : Type) where
  | unreachable (message : String)
  | success (value : α)
  | malformed (message : String)
  | refused (error : ErrorResponse)
  | failed (status : UInt16) (body : String)
deriving DecidableEq

/-- What the key verifier can come back with. -/
inductive VerifierReply where
  | unreachable (message : String)
  | unreadable (message : String)
  | invalid (status : UInt16) (retryAfter : Option UInt64) (message : String)
  | json (status : UInt16) (retryAfter : Option UInt64) (verdict : Option String)
      (retryable : Option Bool) (detail : Option String)
deriving DecidableEq

/-- What the inference endpoint can come back with. -/
inductive UpstreamReply where
  | unreachable (message : String)
  | success (status : UInt16)
  | unreadable (message : String)
  | failure (status : UInt16) (retryAfter : Option UInt64) (body : String)
deriving DecidableEq

end Leases

section Urls

def startsWith (text pattern : String) : Bool :=
  pattern.toList.isPrefixOf text.toList

def isSecureOrLoopbackUrl (value : String) : Bool :=
  startsWith value "https://" || startsWith value "http://127.0.0.1:" ||
    startsWith value "http://localhost:"

def matchesTrustedUrl (supplied expected : String) : Bool :=
  isSecureOrLoopbackUrl (trimEndSlashes expected) &&
    trimEndSlashes supplied == trimEndSlashes expected

end Urls

section Checks

def enforceRequiredKeySource (requireOa : Bool) (source : String) : Except AuthError Unit :=
  if requireOa && source != "oa_org" then
    .error (.keyVerification "client policy requires an OA-org verifier-backed key")
  else .ok ()

def maxOaSignatureEncodingLen : Nat := 4096

def maxOaEvidenceExpirySkewSeconds : UInt64 := 60

/-- A signature is present and not oversized. -/
def checkSignature (label signature : String) : Except AuthError Unit :=
  if signature.isEmpty then
    .error (.keyVerification s!"OA key evidence omitted the {label} signature")
  else if maxOaSignatureEncodingLen < signature.utf8ByteSize then
    .error (.keyVerification s!"OA key evidence {label} signature encoding is oversized")
  else .ok ()

def validateOaKeyEvidence (expiresAt : UInt64) (evidence : OaKeyVerificationEvidence) :
    Except AuthError Unit := do
  if (trimText evidence.stationId).isEmpty then
    .error (.keyVerification "OA key evidence omitted the station ID")
  else if evidence.keyValidTill < expiresAt ||
      maxOaEvidenceExpirySkewSeconds < saturatingSub evidence.keyValidTill expiresAt then
    .error (.keyVerification (s!"OA key evidence expiry {evidence.keyValidTill} does not " ++
      s!"safely cover lease expiry {expiresAt}"))
  else
    checkSignature "station" evidence.stationSignature
    checkSignature "org" evidence.orgSignature

def isTransientRemoteStatus (status : UInt16) : Bool :=
  [408, 425, 429, 500, 502, 503, 504, 524, 529].contains status

def isOpenrouterTotalKeyLimitError (W : WalletFunctions) (message : String) : Bool :=
  (W.jsonErrorMessage message).any fun text => startsWith text "Key limit exceeded (total limit)"

def isRejectedOpenrouterKey (W : WalletFunctions) : AuthError → Bool
  | .upstreamResponse status message =>
      status == 401 || (status == 403 && isOpenrouterTotalKeyLimitError W message)
  | _ => false

def isExhaustedOpenrouterKey : AuthError → Bool
  | .upstreamResponse status _ => status == 402
  | _ => false

/-- The characters of a text that end within a number of bytes. -/
def takeBytes : List Char → Nat → List Char
  | [], _ => []
  | char :: chars, budget =>
      if char.utf8Size ≤ budget then char :: takeBytes chars (budget - char.utf8Size) else []

def truncateForError (value : String) (max : Nat) : String :=
  if value.utf8ByteSize ≤ max then value
  else String.ofList (takeBytes value.toList max) ++ "…"

def normalizeSessionId (sessionId : Option String) : Except AuthError String :=
  let value := trimText (sessionId.getD "default")
  if value.isEmpty || 128 < value.utf8ByteSize then
    .error (.invalidInput "x-zkapi-session-id must contain 1 to 128 characters")
  else if value.toList.all fun char => char.isAlphanum || ['-', '_', '.', ':'].contains char then
    .ok value
  else
    .error (.invalidInput
      "x-zkapi-session-id may contain only letters, digits, '-', '_', '.', and ':'")

end Checks

end ZkApi.Clientd
