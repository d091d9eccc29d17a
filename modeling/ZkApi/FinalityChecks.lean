import ZkApi.FinalizedChains
import ZkApi.TransactionSending
import ZkApi.VaultCalldata

/-!
# Checks of finality

Before the page forgets a transaction it asks whether the chain can still change its mind.  It
reads a finalized block, or one that is deep enough, and then the state of the vault at that
very block.
-/

namespace ZkApi.Browser.WalletRpc

open Interleaving Indexer Expiry Calldata

section Blocks

/-- `CLOSE_FINALITY_FALLBACK_BLOCKS` -/
def closeFinalityFallbackBlocks : Nat := 64

/-- The number of a finalized block, if the answer has one. -/
def finalizedNumber (block : JsValue) : Option String :=
  match block.field "number" with
  | some number =>
      if number.truthy ∧ (hexQuantity number.toText).isSome then some number.toText else none
  | none => none

/-- The head of the chain, if the answer is one. -/
def headNumber (latest : JsValue) : Option Nat :=
  if latest.truthy then hexQuantity latest.toText else none

/-- A request that failed has no finalized block. -/
def finalizedOf : Except WalletFailure JsValue → Option String
  | .ok block => finalizedNumber block
  | .error _ => none

def headOf : Except WalletFailure JsValue → Option Nat
  | .ok latest => headNumber latest
  | .error _ => none

/-- Where a check reads: a finalized block if the wallet knows one, and else a block that is
deep below the head, with the source of the knowledge.  There is none near the genesis. -/
def finalityTag (observedBlock : Nat) : Page (Option String × String) := do
  match finalizedOf (← answer .finalizedBlock) with
  | some tag => return (some tag, "finalized")
  | none => do
      let latest := headOf (← answer .blockNumber)
      let checkpoint := max observedBlock (latest.getD 0) - closeFinalityFallbackBlocks
      return (if checkpoint = 0 then none else some (hexText checkpoint), "confirmations")

/-- `/^0x[0-9a-fA-F]{64}$/` -/
def isHashText (text : String) : Bool :=
  match text.toList with
  | '0' :: 'x' :: digits =>
      digits.length == 64 && digits.all fun digit => (hexDigit digit).isSome
  | _ => false

/-- `Number(BigInt(blockTag))` -/
def blockOf (tag : String) : Nat :=
  (hexQuantity tag).getD 0

end Blocks

section Notes

/-- `match(/.{64}/g)`, as long as there are words. -/
def wordTexts : Nat → List Char → List (List Char)
  | 0, _ => []
  | count + 1, text =>
    if text.length < 64 then [] else text.take 64 :: wordTexts count (text.drop 64)

/-- The words of an answer of the vault. -/
def answerWords (encoded : JsValue) : List (List Char) :=
  let digits := strip0x (if encoded.truthy then encoded.toText.toList else [])
  wordTexts digits.length digits

/-- `BigInt` of a word. -/
def wordNumber (word : List Char) : Except Failure Nat :=
  match word.mapM hexDigit with
  | some digits => .ok (Abi.number digits)
  | none => .error (.plain "Cannot convert a word to a BigInt")

/-- A note of the vault as the page reads it. -/
structure BrowserNote where
  noteId : Nat
  commitment : List Char
  amount : Nat
  expiryTs : Nat
  status : Nat

def decodeNote (noteId : Nat) : List (List Char) → Except Failure BrowserNote
  | commitment :: amount :: expiryTs :: status :: _ => do
      return {
        noteId := noteId
        commitment := commitment
        amount := ← wordNumber amount
        expiryTs := ← wordNumber expiryTs
        status := ← wordNumber status }
  | _ => .error (.plain "The vault returned a truncated note record.")

def notesSelector : String := "9f18e4ed"

def pendingWithdrawalsSelector : String := "a2f9f1ce"

/-- Call a getter of the vault that takes the number of a note. -/
def callVault (setting : Setting) (selector : String) (noteId : Nat) (blockTag : String) :
    Page (List (List Char)) := do
  let word ← Program.lift ((abiWord (.integer noteId)).mapError Failure.plain)
  let encoded ← ask (.call setting.vault (callData selector [word]) blockTag)
  return answerWords encoded

def readBrowserNote (setting : Setting) (noteId : Nat) (blockTag : String) :
    Page BrowserNote := do
  assertFundingChain setting
  let words ← callVault setting notesSelector noteId blockTag
  Program.lift (decodeNote noteId words)

/-- Where a note is in its life. -/
inductive NoteStatus where
  | noNote
  | active
  | pendingWithdrawal
  | closed
deriving DecidableEq

/-- The record of a pending withdrawal. -/
structure PendingWithdrawal where
  activeRoot : List Char
  withdrawalNullifier : List Char
  finalBalance : Nat
  destination : List Char
  challengeDeadline : Nat

structure WithdrawalStatus where
  status : NoteStatus
  noteId : Option Nat
  observedBlock : Option Nat
  pending : Option PendingWithdrawal

def decodePending : List (List Char) → Except Failure PendingWithdrawal
  | pending :: activeRoot :: withdrawalNullifier :: finalBalance :: destination ::
      challengeDeadline :: _ => do
      if (← wordNumber pending) ≠ 1 then
        .error (.plain "The vault pending-withdrawal record is missing.")
      else
        return {
          activeRoot := activeRoot
          withdrawalNullifier := withdrawalNullifier
          finalBalance := ← wordNumber finalBalance
          destination := destination.drop 24
          challengeDeadline := ← wordNumber challengeDeadline }
  | _ => .error (.plain "The vault pending-withdrawal record is missing.")

/-- The fourth word of a record of a note. -/
def statusWord (words : List (List Char)) : Except Failure Nat :=
  match words with
  | _ :: _ :: _ :: status :: _ => wordNumber status
  | _ => .error (.plain "The vault returned a truncated note record.")

/-- The status of a note at a block.  Only a pending withdrawal needs a second call. -/
def readStatusAt (setting : Setting) (noteId : Nat) (blockTag : String) :
    Page WithdrawalStatus := do
  let words ← callVault setting notesSelector noteId blockTag
  let status ← Program.lift (statusWord words)
  if status = 3 then return ⟨.closed, some noteId, some (blockOf blockTag), none⟩
  else if status = 1 then return ⟨.active, some noteId, some (blockOf blockTag), none⟩
  else if status ≠ 2 then
    .fail (.plain s!"The vault returned unknown note status {status}.")
  else do
    assertFundingChain setting
    let pendingWords ← callVault setting pendingWithdrawalsSelector noteId blockTag
    let pending ← Program.lift (decodePending pendingWords)
    return ⟨.pendingWithdrawal, some noteId, some (blockOf blockTag), some pending⟩

/-- `requestedBlock || await request(eth_blockNumber)` -/
def requestedTag : Option String → Page String
  | some block => pure block
  | none => do
      let latest ← ask .blockNumber
      return if latest.truthy then latest.toText else ""

def readBrowserWithdrawalStatus (setting : Setting) (noteId : Option Nat)
    (requestedBlock : Option String) : Page WithdrawalStatus :=
  match noteId with
  | none => pure ⟨.noNote, none, none, none⟩
  | some noteId => do
      assertFundingChain setting
      let blockTag ← requestedTag requestedBlock
      if (hexQuantity blockTag).isNone then
        .fail (.plain "The wallet provider returned an invalid block number.")
      else readStatusAt setting noteId blockTag

end Notes

section Checks

/-- Where a check has read, and what it has seen there. -/
structure Checked (α : Type) where
  holds : Bool
  checkedBlock : Nat
  source : String
  seen : Option α

/-- A transaction that the page has journaled.  A missing nonce is nothing. -/
structure TransactionAttempt where
  sender : Option String
  nonce : Option JsValue

/-- A read whose failure is nothing. -/
def tried {α : Type} (read : Page α) : Page (Option α) := do
  match ← read.attempt with
  | .ok value => return some value
  | .error _ => return none

/-- The sender and the nonce of an attempt, if they are usable. -/
def TransactionAttempt.identity (attempt : TransactionAttempt) : Option (String × Nat) := do
  let sender ← attempt.sender
  let value ← attempt.nonce
  let nonce ← (numberOf value).bind safeNumber
  if isAddressText sender then some (sender, nonce) else none

/-- Read the count of an account and something else at the same block, in any order. -/
def countAnd {α : Type} (schedule : List Bool) (sender blockTag : String) (read : Page α) :
    Page (Option (JsValue × α)) :=
  tried (Program.both schedule (ask (.transactionCount sender blockTag)) read)

/-- A nonce is consumed when the account has sent a later one by the block, and what was read at
the block is as expected.  Some callers also want what was read if the count is unusable. -/
def nonceConsumed {α : Type} (schedule : List Bool) (identity : Option (String × Nat))
    (observedBlock : Nat) (read : String → Page α) (expected : α → Bool) (always : Bool) :
    Page (Checked α) :=
  match identity with
  | none => pure ⟨false, 0, "missing_metadata", none⟩
  | some (sender, nonce) => do
      let (tag, source) ← finalityTag observedBlock
      match tag with
      | none => return ⟨false, 0, source, none⟩
      | some blockTag =>
          match ← countAnd schedule sender blockTag (read blockTag) with
          | none => return ⟨false, blockOf blockTag, source, none⟩
          | some (transactionCount, seen) =>
              let counted := (walletNonceNumber transactionCount).any (nonce < ·)
              return ⟨counted && expected seen, blockOf blockTag, source,
                if always || (walletNonceNumber transactionCount).isSome then some seen else none⟩

/-- The note of the deposit was still empty when its nonce had been consumed. -/
def browserDepositNonceConsumed (setting : Setting) (schedule : List Bool)
    (transactionAttempt : TransactionAttempt) (noteId : Nat) : Page (Checked BrowserNote) :=
  nonceConsumed schedule transactionAttempt.identity 0 (readBrowserNote setting noteId)
    (fun note => note.status = 0) true

/-- The statuses that a caller may expect.  A nonce that is null counts as missing here. -/
def browserTransactionNonceConsumed (setting : Setting) (schedule : List Bool)
    (transactionAttempt : TransactionAttempt) (noteId : Option Nat)
    (expectedStatuses : List NoteStatus) (observedBlock : Nat) : Page (Checked WithdrawalStatus) :=
  let usable := transactionAttempt.nonce.all (fun nonce => nonce matches .null) = false ∧
    expectedStatuses ≠ [] ∧ ∀ status ∈ expectedStatuses,
      status = .active ∨ status = .pendingWithdrawal
  nonceConsumed schedule (if usable then transactionAttempt.identity else none) observedBlock
    (fun blockTag => readBrowserWithdrawalStatus setting noteId (some blockTag))
    (fun status => status.status ∈ expectedStatuses) false

/-- The note has a status at a block that is final and not before its transition. -/
def browserWithdrawalStateFinality (setting : Setting) (noteId : Option Nat)
    (expectedStatus : NoteStatus) (transitionBlock observedBlock : Nat) :
    Page (Checked WithdrawalStatus) :=
  if ¬ (expectedStatus = .active ∨ expectedStatus = .closed) ∨ transitionBlock = 0 ∨
      maxSafeInteger < transitionBlock then pure ⟨false, 0, "unknown", none⟩
  else do
    let (tag, source) ← finalityTag observedBlock
    match tag with
    | none => return ⟨false, 0, source, none⟩
    | some finalityTag =>
        if blockOf finalityTag < transitionBlock then
          return ⟨false, blockOf finalityTag, source, none⟩
        else
          match ← tried (readBrowserWithdrawalStatus setting noteId (some finalityTag)) with
          | none => return ⟨false, blockOf finalityTag, source, none⟩
          | some status =>
              return ⟨status.status = expectedStatus, blockOf finalityTag, source, some status⟩

/-- What a deposit plan promises about its note. -/
structure SlotPlan where
  nextNoteId : Nat
  amount : Nat
  commitment : Nat

/-- The slot of a plan holds a note that is not its own. -/
def conflicts (plan : SlotPlan) (note : BrowserNote) : Except Failure Bool :=
  if note.status = 0 then .ok false
  else if note.amount ≠ plan.amount then .ok true
  else do
    let commitment ← wordNumber note.commitment
    return commitment ≠ plan.commitment

def browserDepositSlotConflictFinality (setting : Setting) (plan : SlotPlan) :
    Page (Checked BrowserNote) := do
  let (tag, source) ← finalityTag 0
  match tag with
  | none => return ⟨false, 0, source, none⟩
  | some blockTag =>
      let outcome ← tried (do
        let note ← readBrowserNote setting plan.nextNoteId blockTag
        let conflict ← Program.lift (conflicts plan note)
        return (note, conflict))
      match outcome with
      | none => return ⟨false, blockOf blockTag, source, none⟩
      | some (note, conflict) => return ⟨conflict, blockOf blockTag, source, some note⟩

/-- The block of a receipt, or zero. -/
def receiptBlockOf (receipt : JsValue) : Nat :=
  let number := receipt.fieldOr "blockNumber" .undefined
  if number.truthy then blockOf number.toText else 0

/-- The transaction still is where its receipt has it, and has failed. -/
def revertedStill (receipt canonicalReceipt : JsValue) : Except Failure Bool :=
  if !canonicalReceipt.truthy then .ok false
  else
    match bigIntOf (canonicalReceipt.fieldOr "blockNumber" (.text "0x0")) with
    | none => .error (.plain "Cannot convert the block number to a BigInt")
    | some block =>
        let first := receipt.fieldOr "blockHash" .undefined
        let second := canonicalReceipt.fieldOr "blockHash" .undefined
        if block ≠ receiptBlockOf receipt ∨ (first.truthy = true ∧ second.truthy = true ∧
            lowerCase first.toText ≠ lowerCase second.toText) then .ok false
        else
          match bigIntOf (canonicalReceipt.fieldOr "status" (.text "0x1")) with
          | none => .error (.plain "Cannot convert the status to a BigInt")
          | some status => .ok (status ≠ 1)

/-- Unlike the other checks, this one also falls back when the finalized block is the genesis. -/
def finalizedBlockNumber : Page (Nat × String) := do
  let finalized := (finalizedOf (← answer .finalizedBlock)).elim 0 blockOf
  if finalized ≠ 0 then return (finalized, "finalized")
  else do
    let latest := headOf (← answer .blockNumber)
    return (latest.getD 0 - closeFinalityFallbackBlocks, "confirmations")

def browserRevertedReceiptFinality (transactionHash : String) (receipt : JsValue) :
    Page (Checked JsValue) :=
  let receiptBlock := receiptBlockOf receipt
  if !isHashText transactionHash || receiptBlock = 0 || maxSafeInteger < receiptBlock then
    pure ⟨false, 0, "invalid_receipt", none⟩
  else
    match bigIntOf (receipt.fieldOr "status" (.text "0x1")) with
    | none => .fail (.plain "Cannot convert the status to a BigInt")
    | some status =>
        if status = 1 then pure ⟨false, 0, "invalid_receipt", none⟩
        else do
          let (checkedBlock, source) ← finalizedBlockNumber
          if checkedBlock < receiptBlock then return ⟨false, checkedBlock, source, none⟩
          else
            let outcome ← tried (do
              let canonicalReceipt ← ask (.transactionReceipt (.text transactionHash))
              let still ← Program.lift (revertedStill receipt canonicalReceipt)
              return (canonicalReceipt, still))
            match outcome with
            | none => return ⟨false, checkedBlock, source, none⟩
            | some (canonicalReceipt, still) =>
                return ⟨still, checkedBlock, source,
                  if canonicalReceipt.truthy then some canonicalReceipt else none⟩

end Checks

end ZkApi.Browser.WalletRpc
