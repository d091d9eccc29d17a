import ZkApi.ExpiryHistory
import ZkApi.StepRuns

/-!
# Finalization claims of an escape

A pending escape is finalized by a wallet prompt.  The tabs of a wallet claim the prompt
in the record of the escape, write down what it sent and release it.  Every operation is
one transaction on the record, and the operations of all tabs may come in any order.
-/

namespace ZkApi.Browser.Escape

open Expiry Indexer

section Types

inductive Phase where
  | pending
  | awaitingWallet
  | finalizing
  | ambiguous
  | parked
  | restored
  | closed
  | other (name : String)
deriving DecidableEq

inductive ChainStatus where
  | pendingWithdrawal
  | active
  | closed
  | other (name : String)
deriving DecidableEq

/-- `finalizeSubmissionOutcome`. -/
inductive SubmissionOutcome where
  | receiptMissing
  | replacementAwaitingWallet
  | replacementResultUnknown
  | challengedPromptClosed
  | ambiguous
  | retryAuthorized
deriving DecidableEq

/-- `finalizationIdentity`. -/
structure Identity where
  recordId : String
  deploymentId : String
  chainId : Nat
  contractAddress : String
  noteId : Nat
  destination : String
deriving DecidableEq

/-- `finalizationReference`: what a tab keeps of the claim that it was given. -/
structure Reference where
  identity : Identity
  submissionId : String
  operationId : String
  generation : Nat
deriving DecidableEq

structure Attempt where
  hash : String
  submissionId : String
  operationId : String
  generation : Nat
  sender : Option String
  nonce : Option Nat
deriving DecidableEq

structure AmbiguousReplacement where
  reference : Reference
  nonce : Nat
  message : String
deriving DecidableEq

structure AmbiguousSubmission where
  submissionId : String
  operationId : Option String
  generation : Nat
deriving DecidableEq

/-- What these operations read and write of a durable withdrawal. -/
structure Record where
  identity : Identity
  phase : Phase
  chainStatus : ChainStatus
  startBlockNumber : Nat
  lastObservedBlock : Nat
  clearanceReserved : Bool
  planReserved : Bool
  finalizeTransactionHash : Option String
  finalizeTransactionHashes : Option (List String)
  finalizeAttempts : List Attempt
  finalizeOperationId : Option String
  finalizeGeneration : Nat
  finalizeSubmissionId : Option String
  finalizeSubmissionOwner : Option String
  finalizeSubmissionFrom : Option String
  finalizeSubmissionNonce : Option Nat
  finalizeSubmissionError : Option String
  finalizeSubmissionOutcome : Option SubmissionOutcome
  finalizeReplacementOf : List String
  concurrentFinalizationObserved : Bool
  ambiguousFinalizationReplacements : List AmbiguousReplacement
  ambiguousFinalizationSubmissions : List AmbiguousSubmission
  dismissedFinalizationClaims : List Reference
  revision : Nat
deriving DecidableEq

/-- The sender and the nonce that a wallet shows for a transaction. -/
structure Metadata where
  sender : String
  nonce : Option Nat
deriving DecidableEq

inductive Claimed where
  | submitted (transactionHash : String)
  | claimed (reference : Reference)
deriving DecidableEq

end Types

section Records

def hasDigits (count : Nat) (text : String) : Bool :=
  match text.toList with
  | '0' :: 'x' :: digits => digits.length == count && digits.all fun digit => (hexDigit digit).isSome
  | _ => false

theorem hexDigit_toLower (letter : Char) (digit : (hexDigit letter).isSome = true) :
    (hexDigit letter.toLower).isSome = true := by
  have all : ∀ code : Fin 103, (hexDigit (Char.ofNat code)).isSome = true →
      (hexDigit (Char.ofNat code).toLower).isSome = true := by decide
  have found := all ⟨letter.toNat, hexDigit_lt digit⟩
  rw [Char.ofNat_toNat] at found
  exact found digit

theorem hasDigits_lowerCase {count : Nat} {text : String} (digits : hasDigits count text = true) :
    hasDigits count (lowerCase text) = true := by
  rw [hasDigits] at digits
  split at digits
  case h_1 letters spelled =>
    rw [hasDigits, lowerCase, String.toList_ofList, spelled]
    simp only [Bool.and_eq_true, beq_iff_eq, List.all_eq_true] at digits
    show ((letters.map Char.toLower).length == count &&
      (letters.map Char.toLower).all fun digit => (hexDigit digit).isSome) = true
    rw [List.length_map, digits.1, beq_self_eq_true, Bool.true_and, List.all_eq_true]
    intro digit mem
    obtain ⟨letter, held, rfl⟩ := List.mem_map.mp mem
    exact hexDigit_toLower letter (digits.2 letter held)
  · cases digits

/-- The terminal phases of a finalization. -/
def Phase.isTerminal : Phase → Bool
  | .closed | .restored | .parked => true
  | _ => false

def Record.hashes (record : Record) : List String :=
  record.finalizeTransactionHashes.getD record.finalizeTransactionHash.toList

def Identity.matches (identity other : Identity) : Bool :=
  identity.recordId == other.recordId && identity.deploymentId == other.deploymentId &&
    identity.chainId == other.chainId &&
    lowerCase identity.contractAddress == lowerCase other.contractAddress &&
    identity.noteId == other.noteId &&
    lowerCase identity.destination == lowerCase other.destination

def matchesFinalizationClaim (record : Record) (reference : Option Reference) : Bool :=
  reference.any fun reference => reference.submissionId != "" && reference.operationId != "" &&
    record.finalizeSubmissionId == some reference.submissionId &&
    record.finalizeOperationId == some reference.operationId &&
    reference.generation == record.finalizeGeneration &&
    reference.identity.matches record.identity

/-- The live claim is taken out of the record. -/
def Record.withoutClaim (record : Record) : Record :=
  { record with
    finalizeSubmissionId := none
    finalizeSubmissionOwner := none
    finalizeSubmissionFrom := none
    finalizeSubmissionNonce := none }

def Record.revise (record : Record) : Record :=
  { record with revision := record.revision + 1 }

/-- `slice(-8)`. -/
def lastEight {α : Type*} (items : List α) : List α :=
  items.drop (items.length - 8)

end Records

section Operations

variable (record : Record)

/-- The record with a new claim. -/
def Record.issue (ownerId submissionId operationId : String) : Record :=
  { record.revise with
    finalizeOperationId := some (record.finalizeOperationId.getD operationId)
    finalizeGeneration := record.finalizeGeneration + 1
    finalizeSubmissionId := some submissionId
    finalizeSubmissionOwner := some ownerId }

def Record.reference (submissionId operationId : String) : Reference :=
  ⟨record.identity, submissionId, record.finalizeOperationId.getD operationId,
    record.finalizeGeneration + 1⟩

def claimBrowserWithdrawalFinalization (ownerId submissionId operationId : String) :
    Except String (Record × Claimed) :=
  if record.phase ∉ [.pending, .finalizing, .awaitingWallet, .ambiguous] then
    .error "There is no pending escape withdrawal to finalize."
  else if record.chainStatus = .active then
    .error "This escape was challenged and is no longer available to finalize."
  else match record.hashes with
    | hash :: _ => .ok (record, .submitted hash)
    | [] =>
        if record.phase = .ambiguous then
          .error ("The previous MetaMask request has an unknown result. Check its status, then " ++
            "explicitly retry if the escape is still pending.")
        else if record.finalizeSubmissionId.isSome then
          .error "This escape is already awaiting MetaMask in this or another tab."
        else .ok ({ record.issue ownerId submissionId operationId with phase := .awaitingWallet },
          .claimed (record.reference submissionId operationId))

/-- The sender and nonce of every saved transaction that can be replaced; a nonce that is
`null` counts as 0. -/
def Record.replacementIdentities : List (String × Nat) :=
  let hashes := record.hashes.map lowerCase
  ((record.finalizeAttempts.filter fun attempt =>
      hashes.contains (lowerCase attempt.hash) && attempt.sender.any (hasDigits 40)).map
    fun attempt => (lowerCase (attempt.sender.getD ""), attempt.nonce.getD 0)).eraseDups

def claimBrowserWithdrawalFinalizationReplacement (ownerId submissionId operationId : String)
    (expectedFrom : String) : Except String (Record × Claimed) :=
  if record.phase ≠ .finalizing ∨ record.chainStatus = .active ∨ record.chainStatus = .closed then
    .error "Check the pending escape before replacing its finalization."
  else if record.finalizeSubmissionId.isSome then
    .error "A finalization replacement request is already open in MetaMask."
  else
    let eligible := record.finalizeSubmissionOutcome = some .receiptMissing ∨
      record.finalizeSubmissionOutcome = some .replacementResultUnknown
    match record.replacementIdentities with
    | [(sender, nonce)] =>
        if ¬ eligible then
          .error "The saved finalization has no replacement nonce. Check its transaction status first."
        else if hasDigits 40 expectedFrom = false ∨ sender ≠ lowerCase expectedFrom then
          .error s!"Connect the MetaMask account {sender} that submitted this finalization."
        else .ok ({ record.issue ownerId submissionId operationId with
          finalizeSubmissionFrom := some sender
          finalizeSubmissionNonce := some nonce
          finalizeSubmissionOutcome := some .replacementAwaitingWallet
          finalizeReplacementOf := (record.hashes.map lowerCase).eraseDups },
          .claimed (record.reference submissionId operationId))
    | [] =>
        .error "The saved finalization has no replacement nonce. Check its transaction status first."
    | _ =>
        .error ("The saved finalization has more than one wallet nonce. Use MetaMask to cancel or " ++
          "speed up the pending transactions, then check again.")

def rememberBrowserWithdrawalFinalizationSubmissionMetadata (submission : Option Reference)
    (metadata : Option Metadata) : Except String Record :=
  match metadata.bind fun metadata => metadata.nonce.map fun nonce => (metadata.sender, nonce) with
  | none => .error "The finalization transaction metadata is invalid."
  | some (sender, nonce) =>
      if hasDigits 40 sender = false then
        .error "The finalization transaction metadata is invalid."
      else if matchesFinalizationClaim record submission = false then
        .error "The finalization wallet claim changed before its nonce was saved."
      else .ok { record.revise with
        finalizeSubmissionFrom := some (lowerCase sender)
        finalizeSubmissionNonce := some nonce }

/-- The hashes of the record and this one, without repeats. -/
def Record.hashesWith (transactionHash : String) : List String :=
  ((record.hashes ++ [transactionHash]).map lowerCase).eraseDups

def Record.attempt (reference : Reference) (transactionHash : String)
    (metadata : Option Metadata) : Attempt where
  hash := lowerCase transactionHash
  submissionId := reference.submissionId
  operationId := reference.operationId
  generation := reference.generation
  sender := ((metadata.map Metadata.sender).or record.finalizeSubmissionFrom).filter
    (hasDigits 40) |>.map lowerCase
  nonce := (metadata.bind Metadata.nonce).or record.finalizeSubmissionNonce

def rememberBrowserWithdrawalFinalization (transactionHash : String)
    (submission : Option Reference) (metadata : Option Metadata) : Except String Record :=
  if hasDigits 64 transactionHash = false then
    .error "MetaMask returned an invalid finalization transaction hash."
  else match submission with
    | none => .error "The finalization transaction is missing its durable operation identity."
    | some reference =>
        if reference.submissionId = "" ∨ reference.operationId = "" ∨
            reference.identity.recordId ≠ record.identity.recordId then
          .error "The finalization transaction is missing its durable operation identity."
        else
          let hashes := record.hashesWith transactionHash
          let claimMatches := matchesFinalizationClaim record submission
          let next := { record.revise with
            phase := if record.phase.isTerminal then record.phase else .finalizing
            finalizeTransactionHash := hashes.head?
            finalizeTransactionHashes := some hashes
            finalizeAttempts := (record.finalizeAttempts.filter fun attempt =>
              attempt.hash != lowerCase transactionHash) ++
              [record.attempt reference transactionHash metadata]
            concurrentFinalizationObserved := record.concurrentFinalizationObserved ||
              !claimMatches && (record.finalizeSubmissionId.isSome ||
                record.finalizeOperationId != some reference.operationId ||
                reference.generation != record.finalizeGeneration) }
          .ok (if claimMatches then next.withoutClaim else next)

def releaseBrowserWithdrawalFinalization (submission : Option Reference)
    (transactionHash : Option String) : Except String Record :=
  let claimMatches := matchesFinalizationClaim record submission
  match transactionHash with
  | some hash =>
      if lowerCase hash ∉ record.hashes.map lowerCase then
        .error "The finalization transaction changed while its receipt was being checked."
      else
        let remaining := record.hashes.filter fun other => lowerCase other != lowerCase hash
        .ok { record.revise with
          phase := if record.phase.isTerminal then record.phase
            else if remaining ≠ [] then .finalizing
            else if record.finalizeSubmissionId.isSome then
              if record.phase = .ambiguous then .ambiguous else .awaitingWallet
            else .pending
          finalizeTransactionHash := remaining.head?
          finalizeTransactionHashes := if remaining = [] then none else some remaining
          finalizeAttempts := record.finalizeAttempts.filter fun attempt =>
            lowerCase attempt.hash != lowerCase hash }
  | none =>
      if claimMatches = false then
        .error "The finalization request changed while MetaMask was open."
      else
        let remaining := record.hashes
        .ok { record.revise.withoutClaim with
          phase := if record.phase.isTerminal then record.phase
            else if remaining ≠ [] then .finalizing else .pending
          finalizeTransactionHash := remaining.head?
          finalizeTransactionHashes := if remaining = [] then none else some remaining }

/-- The two lists of hashes are the same but for their order and their case. -/
def sameHashes (hashes others : List String) : Bool :=
  (hashes.map lowerCase).isPerm (others.map lowerCase)

def markBrowserWithdrawalFinalizationMissingReceipts (expectedTransactionHashes : List String) :
    Except String Record :=
  if record.phase.isTerminal then .ok record
  else if sameHashes record.hashes expectedTransactionHashes = false then
    .error "The finalization transactions changed while their receipts were checked."
  else if record.finalizeSubmissionId.isSome ∨ record.chainStatus = .active ∨
      record.chainStatus = .closed ∨ record.finalizeSubmissionOutcome = some .receiptMissing then
    .ok record
  else .ok { record.revise with
    phase := .finalizing
    finalizeSubmissionOutcome := some .receiptMissing }

def releaseBrowserWithdrawalFinalizationReplacementClaim (submission : Option Reference)
    (replacementNonce : Option Nat) (message : Option String) : Except String Record :=
  match submission, replacementNonce with
  | some reference, some nonce =>
      if matchesFinalizationClaim record submission = false then
        .error "The finalization replacement request changed before it could be released."
      else .ok { record.revise.withoutClaim with
        phase := if record.phase.isTerminal then record.phase else .finalizing
        finalizeSubmissionError := none
        finalizeSubmissionOutcome := some .replacementResultUnknown
        ambiguousFinalizationReplacements := lastEight
          (record.ambiguousFinalizationReplacements ++ [⟨reference, nonce, message.getD
            "The wallet did not return a finalization replacement transaction ID."⟩]) }
  | _, _ => .error "The finalization replacement request changed before it could be released."

/-- Release a hashless prompt after a chain read has shown that the escape was challenged. -/
def resolveBrowserChallengedFinalization (submission : Option Reference)
    (expectedRevision observedBlock : Option Nat) : Except String Record :=
  match submission, observedBlock with
  | some reference, some block =>
      if expectedRevision ≠ some record.revision ∨
          block < max record.startBlockNumber record.lastObservedBlock ∨
          record.chainStatus ≠ .active ∨ record.hashes ≠ [] ∨
          matchesFinalizationClaim record submission = false then
        .error "This challenged finalization changed. Check its on-chain status again."
      else .ok { record.revise.withoutClaim with
        phase := if record.clearanceReserved || record.planReserved then .parked else .restored
        finalizeSubmissionError := none
        finalizeSubmissionOutcome := some .challengedPromptClosed
        dismissedFinalizationClaims := record.dismissedFinalizationClaims ++ [reference] }
  | _, _ => .error "This challenged finalization changed. Check its on-chain status again."

def markBrowserWithdrawalFinalizationAmbiguous (submission : Option Reference)
    (message : Option String) : Except String Record :=
  if record.phase.isTerminal || !matchesFinalizationClaim record submission then
    .error "The finalization changed before its unknown result could be saved."
  else .ok { record.revise with
    phase := .ambiguous
    finalizeSubmissionOutcome := some .ambiguous
    finalizeSubmissionError := some (message.getD "MetaMask did not return a transaction ID.") }

def authorizeBrowserWithdrawalFinalizationRetry : Except String Record :=
  match record.finalizeSubmissionId with
  | none => .error "There is no unknown finalization request to retry."
  | some submissionId =>
      if record.phase ≠ .ambiguous ∨ record.hashes ≠ [] then
        .error "There is no unknown finalization request to retry."
      else .ok { record.revise.withoutClaim with
        phase := .pending
        finalizeSubmissionError := none
        finalizeSubmissionOutcome := some .retryAuthorized
        ambiguousFinalizationSubmissions := lastEight
          (record.ambiguousFinalizationSubmissions ++
            [⟨submissionId, record.finalizeOperationId, record.finalizeGeneration⟩]) }

/-- A sync of the record with the chain; only a final close sanitizes. -/
def updateBrowserWithdrawal (phase : Option Phase) (chainStatus : ChainStatus)
    (lastObservedBlock : Nat) (sanitize : Bool) (expectedRevision : Option Nat) :
    Except String Record :=
  if expectedRevision.any (· ≠ record.revision) then
    .error "The withdrawal changed while its status was being checked."
  else if record.phase = .closed ∧ phase.any (· ≠ .closed) then
    .error "A completed withdrawal cannot return to an earlier phase."
  else
    let next := { record.revise with
      phase := phase.getD record.phase
      chainStatus := chainStatus
      lastObservedBlock := lastObservedBlock }
    .ok (if sanitize then { next.withoutClaim with
      planReserved := false
      finalizeTransactionHash := none
      finalizeTransactionHashes := none
      finalizeAttempts := []
      finalizeSubmissionError := none } else next)

end Operations

section Machine

inductive Action where
  | claims (ownerId submissionId operationId : String)
  | claimsReplacement (ownerId submissionId operationId expectedFrom : String)
  | savesMetadata (submission : Option Reference) (metadata : Option Metadata)
  | remembers (transactionHash : String) (submission : Option Reference)
      (metadata : Option Metadata)
  | releases (submission : Option Reference) (transactionHash : Option String)
  | missesReceipts (expectedTransactionHashes : List String)
  | releasesReplacement (submission : Option Reference) (replacementNonce : Option Nat)
      (message : Option String)
  | resolvesChallenged (submission : Option Reference)
      (expectedRevision observedBlock : Option Nat)
  | marksAmbiguous (submission : Option Reference) (message : Option String)
  | authorizesRetry
  | closes (lastObservedBlock : Nat) (expectedRevision : Option Nat)
  | observes (phase : Option Phase) (chainStatus : ChainStatus) (lastObservedBlock : Nat)
      (expectedRevision : Option Nat)
deriving DecidableEq

/-- What an operation of some tab makes of the record, and what a claim answers to its tab. -/
def Action.apply (record : Record) : Action → Except String (Record × Option Claimed)
  | .claims ownerId submissionId operationId =>
      (claimBrowserWithdrawalFinalization record ownerId submissionId operationId).map
        fun (next, claimed) => (next, some claimed)
  | .claimsReplacement ownerId submissionId operationId expectedFrom =>
      (claimBrowserWithdrawalFinalizationReplacement record ownerId submissionId operationId
        expectedFrom).map fun (next, claimed) => (next, some claimed)
  | .savesMetadata submission metadata =>
      (rememberBrowserWithdrawalFinalizationSubmissionMetadata record submission metadata).map
        (·, none)
  | .remembers transactionHash submission metadata =>
      (rememberBrowserWithdrawalFinalization record transactionHash submission metadata).map
        (·, none)
  | .releases submission transactionHash =>
      (releaseBrowserWithdrawalFinalization record submission transactionHash).map (·, none)
  | .missesReceipts expectedTransactionHashes =>
      (markBrowserWithdrawalFinalizationMissingReceipts record expectedTransactionHashes).map
        (·, none)
  | .releasesReplacement submission replacementNonce message =>
      (releaseBrowserWithdrawalFinalizationReplacementClaim record submission replacementNonce
        message).map (·, none)
  | .resolvesChallenged submission expectedRevision observedBlock =>
      (resolveBrowserChallengedFinalization record submission expectedRevision observedBlock).map
        (·, none)
  | .marksAmbiguous submission message =>
      (markBrowserWithdrawalFinalizationAmbiguous record submission message).map (·, none)
  | .authorizesRetry => (authorizeBrowserWithdrawalFinalizationRetry record).map (·, none)
  | .closes lastObservedBlock expectedRevision =>
      (updateBrowserWithdrawal record (some .closed) .closed lastObservedBlock true
        expectedRevision).map (·, none)
  | .observes phase chainStatus lastObservedBlock expectedRevision =>
      (updateBrowserWithdrawal record phase chainStatus lastObservedBlock false
        expectedRevision).map (·, none)

/-- What the tab of a claim is told. -/
def Action.answer (record : Record) (action : Action) : Option Claimed :=
  (action.apply record).toOption.bind Prod.snd

/-- The client closes a record only with a sanitizing update. -/
def Action.isFinal : Action → Bool
  | .observes phase _ _ _ => phase != some .closed
  | _ => true

/-- An operation that throws aborts its transaction. -/
def Record.step (record : Record) (action : Action) : Option Record :=
  some (((action.apply record).toOption.map Prod.fst).getD record)

end Machine

end ZkApi.Browser.Escape
