import Mathlib.Data.List.ReduceOption
import Mathlib.Data.List.Sort
import ZkApi.OracleRuns
import ZkApi.VaultLogs

/-!
# The history of expired notes

The browser reads which of its notes were claimed after their expiry from the public events
of the vault.  It scans the finalized blocks in one range, or in chunks if the RPC refuses
the range, and checks the block of every event before it looks for its own deposits.
-/

namespace ZkApi.Browser.Expiry

open Interleaving Indexer

section Texts

/-- The digits of a hexadecimal text with its prefix. -/
def hexDigits (text : String) : Option (List Nat) :=
  match text.toList with
  | '0' :: mark :: digits => if mark = 'x' ∨ mark = 'X' then digits.mapM hexDigit else none
  | _ => none

def hasHexDigits (count : Nat) (text : String) : Bool :=
  (hexDigits text).any (·.length == count)

def isHash : String → Bool :=
  hasHexDigits 64

def isAddress : String → Bool :=
  hasHexDigits 40

def lowerCase (text : String) : String :=
  String.ofList (text.toList.map Char.toLower)

theorem toLower_toLower (letter : Char) : letter.toLower.toLower = letter.toLower := by
  delta Char.toLower
  grind

theorem lowerCase_lowerCase (text : String) : lowerCase (lowerCase text) = lowerCase text := by
  rw [lowerCase, lowerCase, String.toList_ofList, List.map_map]
  congr 1
  exact List.map_congr_left fun letter _ => toLower_toLower letter

/-- The largest number that is exact. -/
def maxSafeInteger : Nat :=
  2 ^ 53 - 1

def integer (value : Nat) : Bool :=
  value ≤ maxSafeInteger

/-- The value is a time in seconds that a date can show. -/
def seconds (value : Nat) : Bool :=
  integer value && 0 < value && value * 1000 ≤ 8640000000000000

/-- A quantity has no leading zeros. -/
def quantity (text : String) : Option Nat := do
  let digits ← hexDigits text
  let first ← digits.head?
  if (first ≠ 0 ∨ digits.length = 1) ∧ integer (ofDigits digits) then some (ofDigits digits)
  else none

end Texts

/-- What the scan throws. -/
inductive ScanError where
  | invalidEvent (message : String)
  | plain (message : String)
deriving DecidableEq

def ScanError.isInvalidEvent : ScanError → Bool
  | .invalidEvent _ => true
  | .plain _ => false

section Events

/-- A log as the RPC returns it.  Fields that are missing are empty. -/
structure RpcLog where
  address : String
  topics : List String
  data : String
  removed : Option Bool
  blockNumber : String
  blockHash : String
  transactionHash : String
deriving DecidableEq

/-- A note was claimed after its expiry. -/
structure ExpiryEvent where
  noteId : Nat
  amount : Nat
  blockNumber : Nat
  transactionHash : String
  blockHash : String
deriving DecidableEq

def expiredClaimedTopic : String :=
  "0x5534ce4a9fb7fe545375064cc186660ac10ba2152cb1592b29b244d2fe169ae4"

/-- The number that hexadecimal digits after the prefix encode. -/
def hexValue (text : String) : Nat :=
  ofDigits ((hexDigits text).getD [])

/-- The amount is the first word of the data. -/
def dataAmount (data : String) : Nat :=
  ofDigits (((hexDigits data).getD []).take 64)

/-- A log of another contract or with another topic is skipped, and a malformed log of the
vault stops the scan. -/
def parsedLog (vaultAddress : String) (fromBlock toBlock : Nat) (log : RpcLog) :
    Except ScanError (Option ExpiryEvent) :=
  if lowerCase log.address ≠ vaultAddress ∨
      lowerCase (log.topics.head?.getD "") ≠ expiredClaimedTopic then .ok none
  else match log.topics with
    | [_, noteTopic] =>
        if log.removed ≠ some false ∨ !isHash noteTopic ∨ !hasHexDigits 128 log.data ∨
            !isHash log.transactionHash ∨ !isHash log.blockHash then
          .error (.invalidEvent
            "The RPC returned a malformed or removed expiry event. Retry the scan.")
        else
          let noteId := hexValue noteTopic
          let amount := dataAmount log.data
          match quantity log.blockNumber with
          | none => .error (.invalidEvent
              "The RPC returned invalid expiry event values. Retry the scan.")
          | some blockNumber =>
              if noteId > 0xffffffff ∨ amount = 0 ∨ amount > 2 ^ 128 - 1 ∨
                  blockNumber < fromBlock ∨ blockNumber > toBlock then
                .error (.invalidEvent
                  "The RPC returned invalid expiry event values. Retry the scan.")
              else .ok (some ⟨noteId, amount, blockNumber, lowerCase log.transactionHash,
                lowerCase log.blockHash⟩)
    | _ => .error (.invalidEvent
        "The RPC returned a malformed or removed expiry event. Retry the scan.")

/-- A block as the RPC returns it.  Fields that are missing are empty. -/
structure RpcBlock where
  number : String
  timestamp : String
  hash : String
deriving DecidableEq

structure Block where
  number : Nat
  timestamp : Nat
  hash : String
deriving DecidableEq

def validatedBlock (expectedNumber : Option Nat) (block : RpcBlock) : Except ScanError Block :=
  match quantity block.number, quantity block.timestamp with
  | some number, some timestamp =>
      if expectedNumber.any (number ≠ ·) ∨ !seconds timestamp ∨ !isHash block.hash then
        .error (.plain "The RPC returned an invalid finalized expiry block.")
      else .ok ⟨number, timestamp, lowerCase block.hash⟩
  | _, _ => .error (.plain "The RPC returned an invalid finalized expiry block.")

end Events

section Requests

inductive Request where
  | chainId
  | finalizedBlock
  | block (number : Nat)
  | code (vaultAddress : String) (number : Nat)
  | logs (vaultAddress : String) (fromBlock toBlock : Nat)
deriving DecidableEq

/-- The logs may be no list at all. -/
abbrev Request.Reply : Request → Type
  | .chainId => String
  | .finalizedBlock => RpcBlock
  | .block _ => RpcBlock
  | .code _ _ => String
  | .logs _ _ _ => Option (List RpcLog)

/-- Every request may fail with a message. -/
abbrev Request.Answer (request : Request) : Type :=
  Except String request.Reply

abbrev Scan := Program Request Request.Answer ScanError

def send (request : Request) : Scan request.Reply := do
  let answer ← Program.call request
  Program.lift (answer.mapError ScanError.plain)

/-- The events of a range of blocks. -/
def load (vaultAddress : String) (fromBlock toBlock : Nat) : Scan (List ExpiryEvent) := do
  let logs : Option (List RpcLog) ← send (.logs vaultAddress fromBlock toBlock)
  match logs with
  | none => .fail (.invalidEvent "The RPC returned invalid expiry logs.")
  | some logs =>
      Program.lift ((logs.mapM (parsedLog vaultAddress fromBlock toBlock)).map List.reduceOption)

/-- The bytecode is hexadecimal and has whole bytes. -/
def isBytecode (code : String) : Bool :=
  (hexDigits code).any (·.length % 2 == 0)

def hasCode (vaultAddress : String) (number : Nat) : Scan Bool := do
  let code : String ← send (.code vaultAddress number)
  Program.require (isBytecode code = true) (.plain "Invalid vault bytecode response.")
  pure (code != "0x")

/-- Search for the first block at which the vault has code, between two blocks. -/
def searchContractBlock (vaultAddress : String) (low high : Nat) : Scan Nat :=
  if below : low < high then do
    let middle := low + (high - low) / 2
    let found ← hasCode vaultAddress middle
    if found then searchContractBlock vaultAddress low middle
    else searchContractBlock vaultAddress (middle + 1) high
  else pure low
termination_by high - low

def firstContractBlock (vaultAddress : String) (head : Nat) : Scan Nat := do
  let found ← hasCode vaultAddress head
  Program.require (found = true) (.plain "The vault has no code at the finalized block.")
  searchContractBlock vaultAddress 0 head

/-- The first block with the vault, searched unless it is known. -/
def contractBlock (vaultAddress : String) (head : Nat) : Option Nat → Scan Nat
  | some known => pure known
  | none => firstContractBlock vaultAddress head

/-- Scan chunks as long as requests are left.  A chunk that is refused is halved. -/
def scanChunks (vaultAddress : String) (head : Nat) :
    (requests size next : Nat) → (scannedTo : Int) → List ExpiryEvent →
      Scan (List ExpiryEvent × Int)
  | 0, _, _, scannedTo, logs => pure (logs, scannedTo)
  | requests + 1, size, next, scannedTo, logs =>
      if next ≤ head then do
        let last := min head (next + size - 1)
        let loaded ← (load vaultAddress next last).attempt
        match loaded with
        | .ok found => scanChunks vaultAddress head requests size (last + 1) last (logs ++ found)
        | .error error =>
            if error.isInvalidEvent ∨ size = 1 then .fail error
            else scanChunks vaultAddress head requests (max 1 (size / 2)) next scannedTo logs
      else pure (logs, scannedTo)

/-- What the caller of a scan chooses. -/
structure ScanLimits where
  fromBlock : Nat
  deploymentBlock : Option Nat
  chunkSize : Nat
  maxLogRequests : Nat
  maxBlockRequests : Nat
deriving DecidableEq

/-- What was scanned: the events, the last block scanned and the first one with the vault. -/
structure Scanned where
  logs : List ExpiryEvent
  scannedTo : Int
  deploymentBlock : Option Nat

/-- Scan the whole range, or in chunks if the RPC refuses that. -/
def scanLogs (vaultAddress : String) (limits : ScanLimits) (head : Nat) : Scan Scanned :=
  if limits.fromBlock ≤ head then do
    let loaded ← (load vaultAddress limits.fromBlock head).attempt
    match loaded with
    | .ok logs => pure ⟨logs, head, limits.deploymentBlock⟩
    | .error error =>
        if error.isInvalidEvent then .fail error
        else do
          let deploymentBlock ← contractBlock vaultAddress head limits.deploymentBlock
          let next := max limits.fromBlock deploymentBlock
          let (logs, scannedTo) ← scanChunks vaultAddress head (limits.maxLogRequests - 1)
            limits.chunkSize next ((next : Int) - 1) []
          pure ⟨logs, scannedTo, some deploymentBlock⟩
  else pure ⟨[], (limits.fromBlock : Int) - 1, limits.deploymentBlock⟩

/-- An event with the time of its block. -/
structure CanonicalLog where
  event : ExpiryEvent
  claimedAt : Nat
deriving DecidableEq

/-- Check the blocks of sorted events.  When no request is left for another block, the
block before it is the last one scanned. -/
def checkBlocks (head : Block) (maxBlockRequests : Nat) :
    List Block → List ExpiryEvent → Scan (List CanonicalLog × Option Int)
  | _, [] => pure ([], none)
  | blocks, log :: logs =>
      match blocks.find? (·.number == log.blockNumber) with
      | some block => do
          Program.require (block.hash = log.blockHash ∧ block.timestamp ≤ head.timestamp)
            (.plain "Expiry history changed during the finalized block check. Retry the scan.")
          let (canonical, cut) ← checkBlocks head maxBlockRequests blocks logs
          pure (⟨log, block.timestamp * 1000⟩ :: canonical, cut)
      | none =>
          if blocks.length ≥ maxBlockRequests then
            pure ([], some ((log.blockNumber : Int) - 1))
          else do
            let found : RpcBlock ← send (.block log.blockNumber)
            let block ← Program.lift (validatedBlock (some log.blockNumber) found)
            Program.require (block.hash = log.blockHash ∧ block.timestamp ≤ head.timestamp)
              (.plain "Expiry history changed during the finalized block check. Retry the scan.")
            let (canonical, cut) ← checkBlocks head maxBlockRequests (blocks ++ [block]) logs
            pure (⟨log, block.timestamp * 1000⟩ :: canonical, cut)

end Requests

section Claims

/-- A deposit as the history shows it.  Only confirmed deposits have an amount and an expiry
for certain. -/
structure Deposit where
  status : String
  noteId : Nat
  amount : Option Nat
  expiryTs : Option Nat
deriving DecidableEq

structure ExpiryClaim where
  noteId : Nat
  amount : Nat
  transactionHash : String
  blockHash : String
  blockNumber : Nat
  claimedAt : Nat
deriving DecidableEq

/-- The confirmed deposit of a note, the last one if there are more. -/
def ownedDeposit (deposits : List Deposit) (noteId : Nat) : Option Deposit :=
  (deposits.filter (·.status == "confirmed")).reverse.find? (·.noteId == noteId)

/-- The claim of an event, if it claims an owned deposit as a whole and after its expiry. -/
def claimOf (deposits : List Deposit) (log : CanonicalLog) : Option ExpiryClaim := do
  let deposit ← ownedDeposit deposits log.event.noteId
  let amount ← deposit.amount
  let expiryTs ← deposit.expiryTs
  if integer amount ∧ amount = log.event.amount ∧ seconds expiryTs ∧
      expiryTs * 1000 ≤ log.claimedAt then
    some ⟨log.event.noteId, amount, log.event.transactionHash, log.event.blockHash,
      log.event.blockNumber, log.claimedAt⟩
  else none

/-- Collect one claim for each note. -/
def collectClaims (deposits : List Deposit) :
    List ExpiryClaim → List CanonicalLog → Except ScanError (List ExpiryClaim)
  | claims, [] => .ok claims
  | claims, log :: logs =>
      match claimOf deposits log with
      | none => collectClaims deposits claims logs
      | some claim =>
          match claims.find? (·.noteId == claim.noteId) with
          | none => collectClaims deposits (claims ++ [claim]) logs
          | some previous =>
              if previous = claim then collectClaims deposits claims logs
              else .error (.plain "The RPC returned conflicting expiry claims for one note.")

/-- What a scan returns. -/
structure ScanResult where
  claims : List ExpiryClaim
  scannedTo : Int
  deploymentBlock : Option Nat
  complete : Bool
deriving DecidableEq

def ScanLimits.isValid (limits : ScanLimits) (vaultAddress : String) (chainId : Nat) : Bool :=
  isAddress vaultAddress && integer chainId && chainId != 0 && integer limits.fromBlock &&
    integer limits.chunkSize && limits.chunkSize != 0 && integer limits.maxLogRequests &&
    limits.maxLogRequests != 0 && integer limits.maxBlockRequests &&
    limits.maxBlockRequests != 0 && limits.deploymentBlock.all integer

def readFinalizedExpiryClaims (vaultAddress : String) (chainId : Nat) (deposits : List Deposit)
    (limits : ScanLimits) : Scan ScanResult := do
  Program.require (limits.isValid vaultAddress chainId = true)
    (.plain "Invalid public expiry-history request.")
  let vaultAddress := lowerCase vaultAddress
  let chain : String ← send .chainId
  Program.require (quantity chain = some chainId)
    (.plain "Switch to the configured network before checking expiry history.")
  let finalized : RpcBlock ← send .finalizedBlock
  let head ← Program.lift (validatedBlock none finalized)
  let scanned ← scanLogs vaultAddress limits head.number
  let logs := scanned.logs.insertionSort fun first second =>
    first.blockNumber ≤ second.blockNumber
  let (canonical, cut) ← checkBlocks head limits.maxBlockRequests [] logs
  let scannedTo := cut.getD scanned.scannedTo
  let found : RpcBlock ← send (.block head.number)
  let checkedHead ← Program.lift (validatedBlock (some head.number) found)
  Program.require (checkedHead.hash = head.hash)
    (.plain "The finalized expiry-history head changed. Retry the scan.")
  let claims ← Program.lift (collectClaims deposits [] canonical)
  pure ⟨claims, min scannedTo head.number, scanned.deploymentBlock, head.number ≤ scannedTo⟩

end Claims

end ZkApi.Browser.Expiry
