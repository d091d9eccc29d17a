import ZkApi.BrowserLeases
import ZkApi.EscapeFinalization

/-!
# Deposits of the browser wallet

A wallet without a note keeps one durable deposit plan.  Its tabs claim wallet prompts
for the plan, write down what the prompts sent, and rebase, retry, release or confirm
the plan.  Every operation is one transaction under the lock that the tabs share.
-/

namespace ZkApi.Browser.Deposits

open Escape (lastEight)

section Types

inductive Phase where
  | prepared
  | awaitingWallet
  | submitted
  | ambiguous
  | retryExact
  | droppedOrPending
deriving DecidableEq

structure TransactionAttempt where
  hash : String
  submissionId : String
  operationId : String
  sender : Option String
  nonce : Option Nat
deriving DecidableEq

structure AmbiguousReplacement where
  submissionId : String
  nonce : Nat
deriving DecidableEq

/-- The durable plan of a deposit. -/
structure Plan where
  operationId : String
  phase : Phase
  amount : Nat
  secret : Felt252
  commitment : Felt252
  nextNoteId : Nat
  submissionId : Option String
  submissionFrom : Option String
  submissionNonce : Option Nat
  transactionHashes : List String
  transactionAttempts : List TransactionAttempt
  ambiguousSubmissions : List String
  ambiguousReplacements : List AmbiguousReplacement
deriving DecidableEq

/-- A wallet prompt that was claimed for a plan. -/
structure Submission where
  operationId : String
  submissionId : String
  noteId : Nat
  amount : Nat
  commitment : Felt252
  secret : Felt252
  replacementNonce : Option Nat
deriving DecidableEq

structure LateAttempt where
  submission : Submission
  transactionHash : String
  sender : Option String
  nonce : Option Nat
  status : String
deriving DecidableEq

/-- What the wallet keeps of a confirmed deposit. -/
structure ConfirmedNote where
  noteId : Nat
  secret : Felt252
  amount : Nat
deriving DecidableEq

structure Wallet where
  pendingDeposit : Option Plan
  lateDepositAttempts : List LateAttempt
  state : Option ConfirmedNote
deriving DecidableEq

/-- What the worker and the indexer make of a new deposit. -/
structure Generated where
  operationId : String
  secret : Felt252
  commitment : Felt252
  noteId : Nat
deriving DecidableEq

/-- What a caller has read of a plan. -/
structure Expected where
  operationId : String
  noteId : Nat
  amount : Nat
  commitment : Felt252
  phase : Phase
  submissionId : Option String
  transactionHashes : List String
deriving DecidableEq

end Types

section Operations

variable (wallet : Wallet)

/-- `depositSubmissionMatches`. -/
def depositSubmissionMatches (pending : Plan) (reference : Submission) : Bool :=
  reference.operationId != "" && reference.submissionId != "" &&
    pending.operationId == reference.operationId && pending.nextNoteId == reference.noteId &&
    pending.amount == reference.amount && pending.commitment == reference.commitment

/-- `retainAttemptHistory`. -/
def retainAttemptHistory (attempts : List LateAttempt) : List LateAttempt :=
  let terminal := attempts.filter (·.status ∈ ["confirmed", "reverted", "superseded"])
  terminal.drop (terminal.length - 32) ++
    attempts.filter (·.status ∉ ["confirmed", "reverted", "superseded"])

def Plan.unclaimed (pending : Plan) : Plan :=
  { pending with submissionId := none, submissionFrom := none, submissionNonce := none }

def Plan.submission (pending : Plan) (submissionId : String) (replacementNonce : Option Nat) :
    Submission where
  operationId := pending.operationId
  submissionId := submissionId
  noteId := pending.nextNoteId
  amount := pending.amount
  commitment := pending.commitment
  secret := pending.secret
  replacementNonce := replacementNonce

/-- The plan has no wallet attempt. -/
def Plan.isUntouched (pending : Plan) : Bool :=
  pending.phase == .prepared && pending.submissionId.isNone && pending.transactionHashes.isEmpty

def Generated.plan (generated : Generated) (amount : Nat) : Plan where
  operationId := generated.operationId
  phase := .prepared
  amount := amount
  secret := generated.secret
  commitment := generated.commitment
  nextNoteId := generated.noteId
  submissionId := none
  submissionFrom := none
  submissionNonce := none
  transactionHashes := []
  transactionAttempts := []
  ambiguousSubmissions := []
  ambiguousReplacements := []

/-- The old plan is dropped before the new one is generated, which may fail. -/
def prepareDeposit (amount : Nat) (generated : Option Generated) : Except BrowserError Wallet :=
  let renewed := { wallet with pendingDeposit := generated.map fun made => made.plan amount }
  if wallet.state.isSome then
    .error (.plain "This browser already has an active private note.")
  else match wallet.pendingDeposit with
    | none => .ok renewed
    | some pending =>
        if pending.amount = amount then .ok wallet
        else if pending.isUntouched = false then
          .error (.plain ("A previous deposit may already be in MetaMask. Recover it before " ++
            "changing the amount."))
        else .ok renewed

def refreshPendingDeposit (amount noteId : Nat) : Except BrowserError Wallet :=
  if wallet.state.isSome then
    .error (.plain "This browser already has an active private note.")
  else match wallet.pendingDeposit with
    | none => .error (.plain "The durable pending deposit is missing.")
    | some pending =>
        if pending.amount ≠ amount then
          .error (.plain "The prepared private note has a different deposit amount.")
        else if pending.isUntouched = false then
          .error (.plain ("This deposit already has a wallet attempt. Check it before refreshing " ++
            "the vault path."))
        else .ok { wallet with pendingDeposit := some { pending with nextNoteId := noteId } }

/-- A plan with a hash is not claimed again. -/
def claimPendingDepositSubmission (submissionId : String) :
    Except BrowserError (Wallet × Option Submission) :=
  match wallet.pendingDeposit with
  | none => .error (.plain "The durable pending deposit is missing.")
  | some pending =>
      if pending.transactionHashes ≠ [] then .ok (wallet, none)
      else if pending.phase = .ambiguous then
        .error (.conflict ("The previous deposit has an unknown result. Check it before " ++
          "explicitly retrying.") "deposit_submission_ambiguous")
      else if pending.submissionId.isSome then
        .error (.conflict "This deposit is already awaiting MetaMask in this or another tab."
          "deposit_wallet_pending")
      else if pending.phase ∉ [.prepared, .retryExact] then
        .error (.plain "This deposit is not ready for a wallet request.")
      else .ok ({ wallet with pendingDeposit := some { pending with
        phase := .awaitingWallet, submissionId := some submissionId } },
        some (pending.submission submissionId none))

/-- The senders and nonces of the transactions of a plan; a nonce of `null` is read as zero. -/
def Plan.identities (pending : Plan) : List (String × Nat) :=
  (pending.transactionAttempts.filterMap fun attempt =>
    if attempt.hash ∈ pending.transactionHashes then
      attempt.sender.map fun sender => (sender, attempt.nonce.getD 0)
    else none).dedup

def claimPendingDepositReplacement (expectedFrom submissionId : String) :
    Except BrowserError (Wallet × Option Submission) :=
  match wallet.pendingDeposit.filter (·.phase == .droppedOrPending) with
  | none => .error (.plain "Check the submitted deposit before replacing it.")
  | some pending =>
      if pending.submissionId.isSome then
        .error (.plain "A deposit replacement request is already open in MetaMask.")
      else match pending.identities with
        | [(sender, nonce)] =>
            if sender ≠ expectedFrom then
              .error (.plain
                s!"Connect the MetaMask account {sender} that submitted this deposit.")
            else .ok ({ wallet with pendingDeposit := some { pending with
              phase := .awaitingWallet, submissionId := some submissionId,
              submissionFrom := some sender, submissionNonce := some nonce } },
              some (pending.submission submissionId (some nonce)))
        | [] => .error (.plain ("The saved deposit has no replacement nonce. Use MetaMask to " ++
            "cancel or speed up the pending transaction, then check again."))
        | _ => .error (.plain ("The saved deposit has more than one wallet nonce. Use MetaMask to " ++
            "cancel or speed up the pending transactions, then check again."))

def rememberPendingDepositSubmissionMetadata (submission : Submission) (sender : String)
    (nonce : Nat) : Except BrowserError Wallet :=
  match wallet.pendingDeposit.filter fun pending => depositSubmissionMatches pending submission &&
      pending.submissionId == some submission.submissionId with
  | none => .error (.plain "The deposit wallet claim changed before its nonce was saved.")
  | some pending => .ok { wallet with pendingDeposit := some { pending with
      submissionFrom := some sender, submissionNonce := some nonce } }

/-- A hash of a plan that is gone is kept as a late attempt. -/
def rememberPendingDepositTransaction (transactionHash : String) (submission : Submission)
    (metadata : Option (String × Nat)) : Except BrowserError Wallet :=
  match wallet.pendingDeposit with
  | none => .error (.plain "The durable pending deposit is missing.")
  | some pending =>
      if depositSubmissionMatches pending submission = false then
        .ok { wallet with
          lateDepositAttempts := retainAttemptHistory ((wallet.lateDepositAttempts.filter
            fun attempt => !(attempt.submission.operationId == submission.operationId &&
              attempt.transactionHash == transactionHash)) ++
            [⟨submission, transactionHash, metadata.map Prod.fst, metadata.map Prod.snd,
              "submitted_late"⟩]) }
      else
        let attempt : TransactionAttempt := {
          hash := transactionHash
          submissionId := submission.submissionId
          operationId := submission.operationId
          sender := (metadata.map Prod.fst).or pending.submissionFrom
          nonce := (metadata.map Prod.snd).or pending.submissionNonce }
        let sent := { pending with
          phase := .submitted
          transactionHashes := if transactionHash ∈ pending.transactionHashes then
            pending.transactionHashes else pending.transactionHashes ++ [transactionHash]
          transactionAttempts := (pending.transactionAttempts.filter
            (·.hash != transactionHash)) ++ [attempt] }
        let next := if pending.submissionId = some submission.submissionId then sent.unclaimed
          else sent
        .ok { wallet with pendingDeposit := some next }

def Plan.remaining (pending : Plan) (expectedTransactionHash : Option String) : List String :=
  pending.transactionHashes.filter fun hash => some hash != expectedTransactionHash

/-- The caller gives up the claim that the plan has. -/
def Plan.isReleasedBy (pending : Plan) (expectedTransactionHash : Option String)
    (submission : Option Submission) : Bool :=
  expectedTransactionHash.isNone && pending.submissionId == submission.map Submission.submissionId

/-- No transaction and no claim of the plan is left after a release. -/
def Plan.isEmptiedBy (pending : Plan) (expectedTransactionHash : Option String)
    (submission : Option Submission) : Bool :=
  (pending.remaining expectedTransactionHash).isEmpty &&
    (pending.submissionId.isNone || pending.isReleasedBy expectedTransactionHash submission)

def markPendingDepositRetryable (expectedTransactionHash : Option String)
    (submission : Option Submission) : Except BrowserError Wallet :=
  match wallet.pendingDeposit with
  | none => .ok wallet
  | some pending =>
      if expectedTransactionHash.isNone ∧
          submission.any (depositSubmissionMatches pending) = false then
        .error (.plain "The deposit operation changed while MetaMask was open.")
      else if expectedTransactionHash.any (· ∉ pending.transactionHashes) then
        .error (.plain "The deposit transaction changed while its receipt was checked.")
      else
        let kept := { pending with
          phase := if pending.isEmptiedBy expectedTransactionHash submission then .prepared
            else if pending.remaining expectedTransactionHash ≠ [] then .submitted
            else if pending.phase = .ambiguous then .ambiguous
            else .awaitingWallet
          transactionHashes := pending.remaining expectedTransactionHash
          transactionAttempts := pending.transactionAttempts.filter fun attempt =>
            some attempt.hash != expectedTransactionHash }
        let next := if pending.isReleasedBy expectedTransactionHash submission then kept.unclaimed
          else kept
        .ok { wallet with pendingDeposit := some next }

def markPendingDepositMissingReceipts (expectedTransactionHashes : List String) :
    Except BrowserError Wallet :=
  match wallet.pendingDeposit with
  | none => .ok wallet
  | some pending =>
      if pending.transactionHashes.isPerm expectedTransactionHashes = false then
        .error (.plain "The deposit transactions changed while their receipts were checked.")
      else if pending.submissionId.isSome then .ok wallet
      else .ok { wallet with pendingDeposit := some { pending with phase := .droppedOrPending } }

def releasePendingDepositReplacementClaim (submission : Submission) : Except BrowserError Wallet :=
  match wallet.pendingDeposit.filter fun pending =>
      pending.submissionId == some submission.submissionId &&
        pending.operationId == submission.operationId, submission.replacementNonce with
  | some pending, some nonce => .ok { wallet with pendingDeposit := some { pending.unclaimed with
      phase := .droppedOrPending
      ambiguousReplacements := lastEight (pending.ambiguousReplacements ++
        [⟨submission.submissionId, nonce⟩]) } }
  | _, _ => .error (.plain
      "The deposit replacement request changed before it could be released.")

def markPendingDepositAmbiguous (submission : Submission) : Except BrowserError Wallet :=
  match wallet.pendingDeposit.filter fun pending => depositSubmissionMatches pending submission &&
      pending.submissionId == some submission.submissionId with
  | none => .error (.plain
      "The deposit operation changed before its unknown result could be saved.")
  | some pending => .ok { wallet with pendingDeposit := some { pending with phase := .ambiguous } }

def markPendingDepositUnknown : Except BrowserError Wallet :=
  match wallet.pendingDeposit.filter (·.submissionId.isSome) with
  | none => .error (.plain "There is no deposit wallet prompt to recover.")
  | some pending => .ok { wallet with pendingDeposit := some { pending with phase := .ambiguous } }

def authorizePendingDepositRetry : Except BrowserError Wallet :=
  match wallet.pendingDeposit.filter fun pending =>
      pending.phase == .ambiguous && pending.transactionHashes.isEmpty with
  | none => .error (.plain "There is no unknown deposit request to retry.")
  | some pending =>
      match pending.submissionId with
      | none => .error (.plain "There is no unknown deposit request to retry.")
      | some submissionId => .ok { wallet with pendingDeposit := some { pending.unclaimed with
          phase := .retryExact
          ambiguousSubmissions := lastEight (pending.ambiguousSubmissions ++ [submissionId]) } }

def resolvePendingDepositSlotConflict (expected : Expected) : Except BrowserError Wallet :=
  match wallet.pendingDeposit with
  | none => .ok wallet
  | some pending =>
      if pending.operationId ≠ expected.operationId ∨ pending.nextNoteId ≠ expected.noteId ∨
          pending.amount ≠ expected.amount ∨ pending.commitment ≠ expected.commitment ∨
          pending.phase ≠ expected.phase ∨ pending.submissionId ≠ expected.submissionId ∨
          pending.transactionHashes.isPerm expected.transactionHashes = false then
        .error (.plain ("The pending deposit changed while its vault slot was being checked. " ++
          "Check it again before retrying."))
      else .ok { wallet with pendingDeposit := some { pending with
        phase := .prepared
        submissionId := none
        transactionHashes := []
        transactionAttempts := [] } }

def confirmDeposit (operationId : String) (note : ConfirmedNote) (commitment : Option Felt252) :
    Except BrowserError Wallet :=
  if wallet.state.isSome then
    .error (.plain "This browser already has an active private note.")
  else match wallet.pendingDeposit.filter fun pending => pending.secret == note.secret &&
      (operationId == "" || pending.operationId == operationId) &&
      pending.nextNoteId == note.noteId && pending.amount == note.amount &&
      commitment.all (pending.commitment == ·) with
    | none => .error (.plain
        "The deposit secret does not match this browser’s durable pending deposit.")
    | some _ => .ok { wallet with pendingDeposit := none, state := some note }

end Operations

end ZkApi.Browser.Deposits
