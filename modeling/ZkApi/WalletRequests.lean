import ZkApi.ContractErrors
import ZkApi.ResumptionProgram
import ZkApi.TokenAmounts

/-!
# Requests to the wallet

The page talks to the chain through the wallet of the user, which answers with JavaScript
values of several forms or rejects.  The numbers in its answers are read here, and the checks
that every kind of request begins with.
-/

namespace ZkApi.Browser.WalletRpc

open Interleaving Indexer Expiry Numerals
open Tokens (isTrimmed)
open ContractErrors (ProviderError contractRevertSelector)

section Values

/-- A value in an answer of the wallet.  A number with an integral value is exact. -/
inductive JsValue where
  | undefined
  | null
  | boolean (value : Bool)
  | integer (value : Int)
  | otherNumber (shown : String)
  | bigint (value : Int)
  | text (value : String)
  | object (fields : List (String × JsValue))

/-- An own property of an object. -/
def JsValue.field (value : JsValue) (name : String) : Option JsValue :=
  match value with
  | .object fields => fields.lookup name
  | _ => none

/-- `String(value)`. -/
def JsValue.toText : JsValue → String
  | .undefined => "undefined"
  | .null => "null"
  | .boolean value => if value then "true" else "false"
  | .integer value => toString value
  | .otherNumber shown => shown
  | .bigint value => toString value
  | .text value => value
  | .object _ => "[object Object]"

/-- Neither false nor null nor zero nor empty. -/
def JsValue.truthy : JsValue → Bool
  | .undefined => false
  | .null => false
  | .boolean value => value
  | .integer value => value ≠ 0
  | .otherNumber shown => shown ≠ "NaN"
  | .bigint value => value ≠ 0
  | .text value => value ≠ ""
  | .object _ => true

/-- `value?.name || other` -/
def JsValue.fieldOr (value : JsValue) (name : String) (other : JsValue) : JsValue :=
  match value.field name with
  | some found => if found.truthy then found else other
  | none => other

end Values

section Numbers

/-- The digits of `/^0x[0-9a-fA-F]+$/`. -/
def hexQuantity (text : String) : Option Nat :=
  match text.toList with
  | '0' :: 'x' :: digits => if digits.isEmpty then none else (digits.mapM hexDigit).map ofDigits
  | _ => none

/-- `0x${value.toString(16)}` -/
def hexText (value : Nat) : String :=
  String.ofList ('0' :: 'x' :: Nat.toDigits 16 value)

/-- `/^(?:0[xX][0-9a-fA-F]+|(?:0|[1-9][0-9]*))$/`, and the number of such a text. -/
def exactInteger : List Char → Option Nat
  | [] => none
  | ['0'] => some 0
  | '0' :: mark :: digits =>
    if (mark = 'x' ∨ mark = 'X') ∧ !digits.isEmpty then (digits.mapM hexDigit).map ofDigits else none
  | digits => if digits.all Char.isDigit then some (number digits) else none

/-- A number from zero to the largest exact one. -/
def safeNumber (value : Int) : Option Nat :=
  if 0 ≤ value ∧ value ≤ maxSafeInteger then some value.toNat else none

/-- The nonce in a value that may be wrapped a number of times. -/
def nonceWithin : Nat → JsValue → Option Nat
  | 0, _ => none
  | depth + 1, .object fields =>
    if (fields.lookup "error").isSome then none
    else
      match ["result", "_hex", "hex"].findSome? (List.lookup · fields) with
      | some inner => nonceWithin depth inner
      | none => none
  | _ + 1, .bigint value => safeNumber value
  | _ + 1, .integer value => safeNumber value
  | _ + 1, .text value => (exactInteger (Tokens.trim value.toList)).bind fun value => safeNumber value
  | _ + 1, _ => none

def walletNonceNumber (value : JsValue) : Option Nat :=
  nonceWithin 3 value

/-- The digits of a base, all of them smaller than it. -/
def digitsOf (base : Nat) (digits : List Char) : Option Nat := do
  let values ← digits.mapM hexDigit
  if !values.isEmpty ∧ values.all (· < base) then
    some (values.foldl (fun value digit => base * value + digit) 0)
  else none

/-- `BigInt` of a text, with white space around it already removed. -/
def bigIntText : List Char → Option Int
  | [] => some 0
  | '0' :: 'x' :: digits => (digitsOf 16 digits).map Int.ofNat
  | '0' :: 'X' :: digits => (digitsOf 16 digits).map Int.ofNat
  | '0' :: 'o' :: digits => (digitsOf 8 digits).map Int.ofNat
  | '0' :: 'O' :: digits => (digitsOf 8 digits).map Int.ofNat
  | '0' :: 'b' :: digits => (digitsOf 2 digits).map Int.ofNat
  | '0' :: 'B' :: digits => (digitsOf 2 digits).map Int.ofNat
  | '-' :: digits => (digitsOf 10 digits).map fun value => -Int.ofNat value
  | '+' :: digits => (digitsOf 10 digits).map Int.ofNat
  | digits => (digitsOf 10 digits).map Int.ofNat

/-- `BigInt(value)`; nothing if it throws. -/
def bigIntOf : JsValue → Option Int
  | .boolean value => some (if value then 1 else 0)
  | .integer value => some value
  | .bigint value => some value
  | .text value => bigIntText (Tokens.trim value.toList)
  | _ => none

/-- `Number.parseInt(text, 16)`; nothing for `NaN`. -/
def parseInt16 (text : String) : Option Int :=
  let (negative, unsigned) :=
    match text.toList.dropWhile isTrimmed with
    | '-' :: rest => (true, rest)
    | '+' :: rest => (false, rest)
    | rest => (false, rest)
  let digits := (stripHexPrefix unsigned).takeWhile fun letter => (hexDigit letter).isSome
  match digitsOf 16 digits with
  | some value => some (if negative then -Int.ofNat value else Int.ofNat value)
  | none => none

end Numbers

section Failures

/-- The code of an error. -/
inductive Code where
  | number (value : Int)
  | text (value : String)
deriving DecidableEq

/-- `Number(code)`, where a text is the number it spells. -/
def Code.number? : Code → Option Int
  | .number value => some value
  | .text value => bigIntText (Tokens.trim value.toList)

/-- What the page reads of a value that the wallet throws.  A missing property and one that is
null are alike. -/
structure WalletFailure where
  isError : Bool
  code : Option Code
  causeCode : Option Code
  originalCode : Option Code
  nestedCode : Option Code
  message : Option String
  shortMessage : Option String
  dataMessage : Option String
  originalMessage : Option String
  nestedMessage : Option String
  transactionHash : Option JsValue
  text : String
  provider : ProviderError

/-- What the functions of the page throw. -/
inductive Failure where
  | wallet (failure : WalletFailure)
  | wrongNetwork (message : String)
  | plain (message : String)
  | gasLimitExceeded
  | contract (code message : String) (selector : Option String)
  | reverted (message : String) (receipt : JsValue)

def WalletFailure.walletErrorCode (failure : WalletFailure) : Option Code :=
  failure.code.or (failure.causeCode.or (failure.originalCode.or failure.nestedCode))

/-- `walletErrorCode` after `normalizeWalletError`, which copies the code and the data of a
thrown value that is no error, and makes that value its cause. -/
def WalletFailure.normalizedCode (failure : WalletFailure) : Option Code :=
  if failure.isError then failure.walletErrorCode else failure.code.or failure.originalCode

/-- The hash that an error already carries.  `normalizeWalletError` copies it from a thrown value
that is no error. -/
def Failure.transactionHash : Failure → Option JsValue
  | .wallet failure => failure.transactionHash
  | .wrongNetwork _ | .plain _ | .gasLimitExceeded | .contract _ _ _ | .reverted _ _ => none

def Failure.code : Failure → Option Code
  | .wallet failure => failure.code
  | .wrongNetwork _ => some (.text "wrong_network")
  | .plain _ => none
  | .gasLimitExceeded => some (.text "transaction_gas_limit_exceeded")
  | .contract code _ _ => some (.text code)
  | .reverted _ _ => none

end Failures

section Operations

/-- A transaction that the page hands to the wallet. -/
structure Transaction where
  sender : String
  target : String
  data : String
  nonce : Option String
  gas : Option String
deriving DecidableEq

/-- The requests of the page, by their methods. -/
inductive Request where
  | chainId
  | estimateGas (transaction : Transaction)
  | transactionCount (account : String) (block : String)
  | sendTransaction (transaction : Transaction)
  | transactionReceipt (hash : JsValue)
  | finalizedBlock
  | blockNumber
  | call (target : String) (data : String) (block : String)

/-- A transaction of a deposit whose hash is known. -/
structure DepositAttempt where
  hash : String
  sender : Option String
  nonce : Option JsValue

/-- What the page reads of a pending deposit. -/
structure PendingDeposit where
  operationId : String
  secret : String
  nextNoteId : Nat
  amount : Nat
  commitment : Nat
  phase : Option String
  submissionId : Option String
  submissionFrom : Option String
  submissionNonce : Option JsValue
  transactionHash : Option String
  transactionHashes : Option (List String)
  transactionAttempts : List DepositAttempt

/-- The calls of the browser wallet that a recovery makes. -/
inductive RuntimeCall where
  | pendingDeposit
  | treePath (noteId : Nat)
  | confirmDeposit (plan : PendingDeposit) (expiryTs : Nat)
  | resolvePendingDepositSlotConflict (plan : PendingDeposit) (transactionHashes : List String)
  | markPendingDepositRetryable (hash : String)
  | markPendingSubmissionRetryable (plan : PendingDeposit)
  | markPendingDepositMissingReceipts (hashes : List String)
  | refresh

/-- A request, a call of the browser wallet, a write to the journal of the caller, or a pause. -/
inductive Op where
  | request (request : Request)
  | runtime (call : RuntimeCall)
  | prepared (sender : String) (nonce : Nat)
  | submitted (hash : JsValue)
  | sleep (milliseconds : Nat)

abbrev Resp : Op → Type
  | .request _ => Except WalletFailure JsValue
  | .runtime _ => Except Failure (Option PendingDeposit)
  | .prepared _ _ => Except Failure Unit
  | .submitted _ => Except Failure Unit
  | .sleep _ => Unit

abbrev Page (α : Type) := Program Op Resp Failure α

/-- What the functions read of the configuration. -/
structure Setting where
  chainId : Option Nat
  networkName : String
  vault : String

/-- What the wallet answers. -/
def answer (asked : Request) : Page (Except WalletFailure JsValue) :=
  Program.call (Op.request asked)

/-- A request whose rejection is thrown. -/
def ask (asked : Request) : Page JsValue := do
  match ← answer asked with
  | .ok value => pure value
  | .error failure => .fail (.wallet failure)

/-- There is no wanted chain if the configuration names none. -/
def assertFundingChain (setting : Setting) : Page Unit :=
  match setting.chainId with
  | none => pure ()
  | some wanted => do
      let current ← ask .chainId
      Program.require (parseInt16 current.toText = some (wanted : Int))
        (.wrongNetwork
          s!"MetaMask changed networks. Switch back to {setting.networkName} and try again.")

end Operations

end ZkApi.Browser.WalletRpc
