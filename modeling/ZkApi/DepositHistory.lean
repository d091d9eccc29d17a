import Mathlib.Data.List.Infix
import ZkApi.EscapeFinalization
import ZkApi.TokenAmounts

/-!
# The deposit history of a browser

A browser keeps one row for every note that it has deposited.  Rows are rebuilt from an
allow-list on every read and merged with what the other stores say about the note.  A field that
is known already has precedence.
-/

namespace ZkApi.Browser.Deposits

open Expiry Escape
open Tokens (isTrimmed)

section Scalars

/-- A value of a stored object.  A number is `none` if it is not a safe integer. -/
inductive Scalar where
  | undefined
  | null
  | boolean (value : Bool)
  | number (value : Option Int)
  | text (value : String)
deriving DecidableEq

def Scalar.isNullish : Scalar → Bool
  | .undefined | .null => true
  | _ => false

/-- `left ?? right`. -/
def Scalar.orElse (left right : Scalar) : Scalar :=
  if left.isNullish then right else left

def isSafe (value : Int) : Bool :=
  value.natAbs ≤ maxSafeInteger

/-- `Number(value)` if this is a safe integer.  The number that a text stands for is given. -/
def Scalar.safeInteger (parse : String → Option Int) : Scalar → Option Int
  | .undefined => none
  | .null => some 0
  | .boolean value => some (if value then 1 else 0)
  | .number value => value.filter isSafe
  | .text value => (parse value).filter isSafe

/-- `String(value)`. -/
def Scalar.toText : Scalar → String
  | .undefined => "undefined"
  | .null => "null"
  | .boolean value => toString value
  | .number (some value) => toString value
  | .number none => ""
  | .text value => value

def ofNumber : Option Nat → Scalar
  | some value => .number (some (value : Int))
  | none => .null

def ofText : Option String → Scalar
  | some value => .text value
  | none => .null

/-- The text if it is a transaction hash, in lower case. -/
def Scalar.hash : Scalar → Option String
  | .text value => if hasDigits 64 value then some (lowerCase value) else none
  | _ => none

def Scalar.asText : Scalar → Option String
  | .text value => some value
  | _ => none

def positiveTimestamp (parse : String → Option Int) (value : Scalar) : Option Nat :=
  ((value.safeInteger parse).filter (0 < ·)).map Int.toNat

end Scalars

section Rows

structure ExpiryClaim where
  transactionHash : String
  blockHash : String
  blockNumber : Nat
  claimedAt : Nat
  amount : Nat
deriving DecidableEq

/-- A claim as it is given or stored. -/
structure ClaimInput where
  deploymentId : Scalar
  noteId : Scalar
  amount : Scalar
  transactionHash : Scalar
  blockHash : Scalar
  blockNumber : Scalar
  claimedAt : Scalar
deriving DecidableEq

/-- What is stored besides the state of a note. -/
structure Metadata where
  operationId : Scalar
  createdAt : Scalar
  confirmedAt : Scalar
  transactionHash : Scalar
  expiryTs : Scalar
  expiryClaim : Option ClaimInput
deriving DecidableEq

def Metadata.empty : Metadata :=
  ⟨.undefined, .undefined, .undefined, .undefined, .undefined, none⟩

/-- The public part of the state of a note. -/
structure NoteState where
  noteId : Scalar
  depositAmount : Scalar
  expiryTs : Scalar
deriving DecidableEq

/-- A row of the history.  Its type and status are the same in all rows. -/
structure Deposit where
  deploymentId : String
  operationId : Option String
  noteId : Nat
  amount : Nat
  expiryTs : Option Nat
  createdAt : Option Nat
  confirmedAt : Option Nat
  transactionHash : Option String
  expiryClaim : Option ExpiryClaim
deriving DecidableEq

def recordIdOf (deploymentId : String) (noteId : Nat) : String :=
  deploymentId ++ ":deposit:" ++ noteId.repr

/-- The key of a row. -/
def Deposit.recordId (record : Deposit) : String :=
  recordIdOf record.deploymentId record.noteId

variable (parse : String → Option Int)

def sanitizedExpiryClaim (claim : Option ClaimInput) (amount : Nat) (expiryTs : Option Nat) :
    Option ExpiryClaim := do
  let claim ← claim
  let expiryTs ← expiryTs
  guard (claim.amount.safeInteger parse = some (amount : Int))
  let transactionHash ← claim.transactionHash.hash
  let blockHash ← claim.blockHash.hash
  let blockNumber ← positiveTimestamp parse claim.blockNumber
  let claimedAt ← positiveTimestamp parse claim.claimedAt
  guard (expiryTs * 1000 ≤ claimedAt)
  some { transactionHash, blockHash, blockNumber, claimedAt, amount }

def depositRecord (state : Option NoteState) (deploymentId : Option String)
    (metadata : Metadata) : Option Deposit := do
  let state ← state
  let deploymentId ← deploymentId.filter (· ≠ "")
  guard (state.noteId.isNullish = false)
  let noteId ← (state.noteId.safeInteger parse).filter (0 ≤ ·)
  let amount ← (state.depositAmount.safeInteger parse).filter (0 < ·)
  let expiryTs := positiveTimestamp parse (state.expiryTs.orElse metadata.expiryTs)
  some {
    deploymentId
    operationId := metadata.operationId.asText
    noteId := noteId.toNat
    amount := amount.toNat
    expiryTs
    createdAt := positiveTimestamp parse metadata.createdAt
    confirmedAt := positiveTimestamp parse metadata.confirmedAt
    transactionHash := metadata.transactionHash.hash
    expiryClaim := sanitizedExpiryClaim parse metadata.expiryClaim amount.toNat expiryTs }

/-- `left || right` for numbers. -/
def orNumber (left right : Option Nat) : Option Nat :=
  if left.any (· ≠ 0) then left else right

/-- `left || right` for texts. -/
def orText (left right : Option String) : Option String :=
  if left.any (· ≠ "") then left else right

abbrev Rows := List Deposit

def Rows.get (rows : Rows) (recordId : String) : Option Deposit :=
  rows.find? (·.recordId = recordId)

/-- Replace the row with the key of the record, or append the record. -/
def Rows.set (rows : Rows) (record : Deposit) : Rows :=
  if (rows.get record.recordId).isSome then
    rows.map fun other => if other.recordId = record.recordId then record else other
  else rows ++ [record]

/-- A row with what a candidate adds to it. -/
def mergedRow (previous candidate : Deposit) : Deposit :=
  { candidate with
    createdAt := orNumber previous.createdAt candidate.createdAt
    confirmedAt := orNumber previous.confirmedAt candidate.confirmedAt
    transactionHash := orText previous.transactionHash candidate.transactionHash
    operationId := orText previous.operationId candidate.operationId
    expiryTs := orNumber previous.expiryTs candidate.expiryTs
    expiryClaim := previous.expiryClaim.or candidate.expiryClaim }

/-- Merge a candidate into the history that was read and into the store.  The fields of all rows
are in the same order, so the serialized rows are equal if the rows are. -/
def mergeDepositRecord (history : Rows × Rows) (candidate : Option Deposit) : Rows × Rows :=
  match candidate with
  | none => history
  | some candidate =>
      let previous := history.1.get candidate.recordId
      let next := match previous with
        | some previous => mergedRow previous candidate
        | none => candidate
      (history.1.set next, if previous = some next then history.2 else history.2.set next)

/-- A row as an input of `depositRecord`. -/
def Deposit.state (record : Deposit) : NoteState where
  noteId := ofNumber (some record.noteId)
  depositAmount := ofNumber (some record.amount)
  expiryTs := ofNumber record.expiryTs

def ExpiryClaim.input (claim : ExpiryClaim) : ClaimInput where
  deploymentId := .undefined
  noteId := .undefined
  amount := ofNumber (some claim.amount)
  transactionHash := ofText (some claim.transactionHash)
  blockHash := ofText (some claim.blockHash)
  blockNumber := ofNumber (some claim.blockNumber)
  claimedAt := ofNumber (some claim.claimedAt)

def Deposit.metadata (record : Deposit) : Metadata where
  operationId := ofText record.operationId
  createdAt := ofNumber record.createdAt
  confirmedAt := ofNumber record.confirmedAt
  transactionHash := ofText record.transactionHash
  expiryTs := ofNumber record.expiryTs
  expiryClaim := record.expiryClaim.map ExpiryClaim.input

/-- The rows as they are read: every row is rebuilt. -/
def depositRecordMap (records : Rows) : Rows :=
  (records.filterMap fun record =>
    depositRecord parse (some record.state) (some record.deploymentId) record.metadata).foldl
      Rows.set []

end Rows

section Calls

/-- A note with its deployment, as the runtime or a withdrawal record has it. -/
structure Source where
  state : Option NoteState
  deploymentId : Option String

structure Archive where
  deploymentId : Option String
  archiveId : String
  state : Option NoteState

def isDecimal (text : List Char) : Bool :=
  text ≠ [] ∧ text.all Char.isDigit

/-- Older archives have the deployment in their key only. -/
def archiveDeploymentId (archive : Archive) : Option String :=
  if archive.deploymentId.any (· ≠ "") then archive.deploymentId
  else match (archive.archiveId.toList.splitOn ':').reverse with
    | timestamp :: noteId :: parts =>
        let spelled := match archive.state with
          | some state => state.noteId.toText
          | none => "undefined"
        let deploymentId := String.ofList ([':'].intercalate parts.reverse)
        if isDecimal timestamp ∧ spelled = String.ofList noteId ∧ deploymentId ≠ "" then
          some deploymentId
        else none
    | _ => none

def Archive.source (archive : Archive) : Source where
  state := archive.state
  deploymentId := archiveDeploymentId archive

/-- The calls that write the history, with what they read from the other stores. -/
inductive Call where
  | readBrowserWalletSnapshot (runtime : Source) (records : List Source) (archives : List Archive)
  | writeBrowserWallet (current value : Source) (depositConfirmation : Option Metadata)
  | sanitizeBrowserWithdrawal (current : Source)
  | recordBrowserExpiryClaims (deploymentId : String) (claims : List (Option ClaimInput))

variable (parse : String → Option Int)

def Source.record (source : Source) : Option Deposit :=
  depositRecord parse source.state source.deploymentId Metadata.empty

/-- The candidates that a call merges, in their order. -/
def Call.candidates : Call → List (Option Deposit)
  | .readBrowserWalletSnapshot runtime records archives =>
      runtime.record parse ::
        (records.map (·.record parse) ++ archives.map (·.source.record parse))
  | .writeBrowserWallet current value depositConfirmation =>
      [current.record parse,
        depositRecord parse value.state value.deploymentId
          (depositConfirmation.getD Metadata.empty)]
  | .sanitizeBrowserWithdrawal current => [current.record parse]
  | .recordBrowserExpiryClaims _ _ => []

/-- The note that a claim is about. -/
def claimedNote (deploymentId : String) (claim : Option ClaimInput) : Option (ClaimInput × Nat) := do
  let claim ← claim
  guard (claim.deploymentId.isNullish ∨ claim.deploymentId = .text deploymentId)
  guard (claim.noteId.isNullish = false)
  let noteId ← (claim.noteId.safeInteger parse).filter fun noteId =>
    0 ≤ noteId ∧ noteId ≤ 0xffffffff
  some (claim, noteId.toNat)

/-- One claim: the history and the rows to be written after it. -/
def recordClaim (deploymentId : String) (state : Rows × Rows) (claim : Option ClaimInput) :
    Except String (Rows × Rows) :=
  match claimedNote parse deploymentId claim with
  | none => .error "An expiry claim has an invalid deployment or note identity."
  | some (claim, noteId) =>
      match state.1.get (recordIdOf deploymentId noteId) with
      | none => .ok state
      | some record =>
          -- Neither an expiry nor a deposit is inferred from a claim.
          if record.expiryTs = none then .ok state
          else match sanitizedExpiryClaim parse (some claim) record.amount record.expiryTs with
            | none => .error "An expiry claim does not match its saved deposit."
            | some expiryClaim =>
                if record.expiryClaim.any (· ≠ expiryClaim) then
                  .error "A different finalized expiry claim is already saved for this deposit."
                else
                  let next := { record with expiryClaim := some expiryClaim }
                  .ok (state.1.set next,
                    if record.expiryClaim = none then state.2.set next else state.2)

/-- The stored rows after the claims, and the rows that were written. -/
def recordBrowserExpiryClaims (deploymentId : String) (claims : List (Option ClaimInput))
    (stored : Rows) : Except String (Rows × Rows) :=
  if deploymentId.toList.all isTrimmed then
    .error "Expiry history requires a deployment and claim records."
  else do
    let history := depositRecordMap parse (stored.filter (·.deploymentId = deploymentId))
    let (_, updates) ← claims.foldlM (recordClaim parse deploymentId) (history, [])
    return (updates.foldl Rows.set stored, updates)

/-- The stored rows after a call. -/
def call (stored : Rows) (call : Call) : Rows :=
  match call with
  | .recordBrowserExpiryClaims deploymentId claims =>
      match recordBrowserExpiryClaims parse deploymentId claims stored with
      | .ok (rows, _) => rows
      | .error _ => stored
  | call =>
      ((call.candidates parse).foldl mergeDepositRecord (depositRecordMap parse stored, stored)).2

def calls (stored : Rows) (all : List Call) : Rows :=
  all.foldl (call parse) stored

end Calls

end ZkApi.Browser.Deposits
