import ZkApi.RevertSelectors
import ZkApi.TimedRuns
import ZkApi.WalletRequests

/-!
# Sending a transaction

The page estimates the gas of a call, writes the nonce into its journal, and hands the
transaction to the wallet.  Whatever fails afterwards, the error tells whether the transaction
may have been broadcast, and a hash that the wallet returned is never lost.
-/

namespace ZkApi.Browser.WalletRpc

open Interleaving Expiry
open ContractErrors (contractErrors contractRevertSelector)
open Program (mapError)

section Errors

/-- The codes and messages of `CONTRACT_ERRORS`. -/
def contractErrorDetails : List (String × String × String) :=
  [("0x09bde339", "invalid_proof", "The vault rejected the withdrawal proof. Refresh the page " ++
      "and prepare the withdrawal again."),
    ("0x607447de", "stale_root", "The vault changed while the withdrawal was being prepared. " ++
      "The Merkle path and proof must be refreshed."),
    ("0x947e59c5", "replayed_nullifier", "This private state was already used or reserved. " ++
      "Check the withdrawal’s on-chain status before retrying."),
    ("0x61a83aab", "note_not_active", "This private note is no longer active. Check its " ++
      "on-chain withdrawal status."),
    ("0xc52e3eff", "invalid_balance", "The withdrawal balance is not valid for this private note."),
    ("0x9722445b", "invalid_deployment", "The withdrawal proof does not match this zkAPI " ++
      "deployment."),
    ("0xd9876be8", "invalid_siblings", "The vault rejected the withdrawal Merkle path. Prepare " ++
      "a fresh withdrawal and try again."),
    ("0x3be553f2", "not_pending_withdrawal", "This note does not have an escape withdrawal " ++
      "waiting to be finalized."),
    ("0x151f07fe", "challenge_not_expired", "The escape safety window has not finished yet."),
    ("0x5274afe7", "token_transfer_failed", "The vault could not return the billing tokens. " ++
      "Check the deployed token and vault balances.")]

example : contractErrorDetails.map Prod.fst = contractErrors := rfl

/-- The search ends within as many turns as there is text in the error. -/
def Failure.revertSelector : Failure → Option String
  | .wallet failure =>
      (contractRevertSelector (failure.provider.search.weight + 1) failure.provider).join
  | _ => none

def Failure.providerMessage : Failure → String
  | .wallet failure =>
      ((failure.shortMessage.filter (· ≠ "")).or (failure.message.filter (· ≠ ""))).getD failure.text
  | .wrongNetwork message => message
  | .plain message => message
  | .gasLimitExceeded => "The simulated transaction exceeds Ethereum’s per-transaction gas " ++
      "limit. Nothing was submitted."
  | .contract _ message _ => message
  | .reverted message _ => message

def contractEstimateError (failure : Failure) : Failure :=
  match failure.revertSelector.bind (List.lookup · contractErrorDetails) with
  | some (code, message) => .contract code message failure.revertSelector
  | none =>
      .contract "gas_estimation_failed"
        s!"Transaction simulation failed: {failure.providerMessage}" failure.revertSelector

/-- A text contains one of the words. -/
def containsAny (words : List String) (text : List Char) : Bool :=
  text.tails.any fun rest => words.any fun word => word.toList.isPrefixOf rest

def lineEnds : List Char :=
  ['\n', '\r', '\u2028', '\u2029']

/-- `/(?:user|wallet).*(?:reject|denied|cancel)|request rejected/i` -/
def rejectionMessage (message : String) : Bool :=
  let text := message.toList.map Char.toLower
  containsAny ["request rejected"] text ||
    text.tails.any fun rest => ["user", "wallet"].any fun word =>
      word.toList.isPrefixOf rest &&
        containsAny ["reject", "denied", "cancel"]
          ((rest.drop word.length).takeWhile (· ∉ lineEnds))

def isWalletRejection (failure : WalletFailure) : Bool :=
  failure.walletErrorCode = some (.number 4001) ||
    failure.walletErrorCode = some (.text "ACTION_REJECTED") ||
    rejectionMessage (failure.message.getD "")

/-- The failures that no node has accepted a transaction before. -/
def isDefinitelyPreBroadcastSendFailure (failure : WalletFailure) : Bool :=
  (failure.walletErrorCode.bind Code.number?).any
      (· ∈ [4100, 4200, 4900, 4901, -32600, -32601, -32602]) ||
    containsAny ["insufficient funds for gas", "insufficient funds to pay",
        "intrinsic gas too low", "exceeds block gas limit", "exceeds the block gas limit",
        "transaction gas limit too high", "gas limit too high", "gas limit is too high",
        "sender account not recognized", "unknown account"]
      ((" ".intercalate ([failure.message, failure.shortMessage, failure.dataMessage,
        failure.originalMessage, failure.nestedMessage].reduceOption.filter (· ≠ ""))).toList.map
          Char.toLower)

/-- An error with what it tells about the transaction. -/
structure Tagged where
  failure : Failure
  stage : String
  broadcastPossible : Bool
  transactionHash : Option JsValue

/-- A hash is only attached if it is one; else the error keeps its own. -/
def tagTransactionError (stage : String) (broadcastPossible : Bool) (transactionHash : JsValue)
    (failure : Failure) : Tagged where
  failure := failure
  stage := stage
  broadcastPossible := broadcastPossible
  transactionHash := if transactionHash.truthy then some transactionHash else failure.transactionHash

end Errors

section Gas

def maxTransactionGasLimit : Nat :=
  2 ^ 24

/-- `BigInt` division rounds towards zero. -/
def bufferedGas (estimate : Int) : Int :=
  (estimate * 12).tdiv 10 + 50000

def bufferedGasLimit (estimate : JsValue) : Except Failure String :=
  match bigIntOf estimate with
  | none => .error (.plain "Cannot convert the estimate to a BigInt")
  | some value =>
      if value ≤ 0 then .error (.plain "The wallet returned an invalid gas estimate.")
      else if maxTransactionGasLimit < bufferedGas value then .error .gasLimitExceeded
      else .ok (hexText (bufferedGas value).toNat)

end Gas

section Receipts

/-- `compact(value)` -/
def compact (value : JsValue) : String :=
  if !value.truthy then "—"
  else
    let text := value.toText.toList
    if 16 < text.length then
      String.ofList (text.take 7 ++ ['…'] ++ text.drop (text.length - 7))
    else value.toText

/-- A failure that ends the reading of receipts at once. -/
def WalletFailure.endsReads (failure : WalletFailure) : Bool :=
  (failure.normalizedCode.bind Code.number?).any
    (· ∈ [4001, 4100, 4200, 4901, -32600, -32601, -32602])

def pause (milliseconds : Nat) : Page Unit :=
  Program.call (Op.sleep milliseconds)

/-- A receipt of a transaction that succeeded. -/
def checkReceipt (hash receipt : JsValue) : Except Failure JsValue :=
  match bigIntOf (receipt.fieldOr "status" (.text "0x0")) with
  | none => .error (.plain "Cannot convert the status to a BigInt")
  | some status =>
      if status ≠ 1 then .error (.reverted s!"Transaction {compact hash} reverted." receipt)
      else .ok receipt

/-- The loop with the attempts that are left, after some failures in a row. -/
def waitFrom (hash : JsValue) : Nat → Nat → Page JsValue
  | 0, _ => .fail (.plain s!"Timed out waiting for transaction {compact hash}.")
  | attempts + 1, failures => do
      match ← answer (.transactionReceipt hash) with
      | .error failure =>
          if failure.endsReads ∨ 3 ≤ failures + 1 then .fail (.wallet failure)
          else do
            pause 1000
            waitFrom hash attempts (failures + 1)
      | .ok receipt =>
          if receipt.truthy then Program.lift (checkReceipt hash receipt)
          else do
            pause 1000
            waitFrom hash attempts 0

def waitForReceipt (hash : JsValue) : Page JsValue :=
  waitFrom hash 180 0

end Receipts

section Sending

/-- The arguments of `sendContractTransaction`: the call, the nonce of a replacement, and which
callbacks it has. -/
structure Send where
  sender : String
  target : String
  data : String
  onSubmitted : Bool
  onPrepared : Bool
  preparedNonce : Option JsValue

/-- `Number(value)` for an integral number. -/
def numberOf : JsValue → Option Int
  | .null => some 0
  | .boolean value => some (if value then 1 else 0)
  | .integer value => some value
  | .bigint value => some value
  | .text value => bigIntText (Tokens.trim value.toList)
  | _ => none

/-- The nonce of a replacement, if there is one. -/
def normalizedNonce (call : Send) : Except Failure (Option Nat) :=
  match call.preparedNonce with
  | none => .ok none
  | some value =>
      match (numberOf value).bind safeNumber with
      | some nonce => .ok (some nonce)
      | none => .error (.plain "The replacement transaction nonce is invalid.")

def Send.transaction (call : Send) (nonce : Option Nat) : Transaction where
  sender := call.sender
  target := call.target
  data := call.data
  nonce := nonce.map hexText
  gas := none

/-- Estimate the gas on the right chain. -/
def estimate (setting : Setting) (transaction : Transaction) : Page String := do
  assertFundingChain setting
  let value ← ask (.estimateGas transaction)
  Program.lift (bufferedGasLimit value)

def estimateError (failure : Failure) : Tagged :=
  if failure.code = some (.text "wrong_network") ∨
      failure.code = some (.text "transaction_gas_limit_exceeded") then
    tagTransactionError "estimate" false .null failure
  else tagTransactionError "estimate" false .null (contractEstimateError failure)

/-- The nonce that the transaction will have. -/
def chooseNonce (call : Send) (prepared : Option Nat) : Page Nat :=
  match prepared with
  | some nonce => pure nonce
  | none => do
      let pending ← ask (.transactionCount call.sender "pending")
      match walletNonceNumber pending with
      | some nonce => pure nonce
      | none => .fail (.plain "MetaMask returned an invalid pending transaction nonce.")

/-- A callback whose failure is thrown. -/
def awaits (result : Page (Except Failure Unit)) : Page Unit := do
  Program.lift (← result)

/-- Write the nonce into the journal. -/
def journal (call : Send) (prepared : Option Nat) (transaction : Transaction) :
    Page Transaction :=
  if call.onPrepared then do
    let nonce ← chooseNonce call prepared
    awaits (Program.call (Op.prepared (lowerCase call.sender) nonce))
    return { transaction with nonce := some (hexText nonce) }
  else pure transaction

/-- Why the wallet did not send the transaction, as far as the page can tell. -/
def sendError (failure : WalletFailure) : Tagged :=
  if isWalletRejection failure then tagTransactionError "send" false .null (.wallet failure)
  else if isDefinitelyPreBroadcastSendFailure failure then
    tagTransactionError "send" false .null (.wallet failure)
  else if (Failure.wallet failure).revertSelector.isSome then
    tagTransactionError "send" false .null (contractEstimateError (.wallet failure))
  else tagTransactionError "send" true .null (.wallet failure)

/-- What the page does with the hash that the wallet returned. -/
def afterHash (call : Send) (hash : JsValue) : Program Op Resp Tagged JsValue := do
  (if call.onSubmitted then awaits (Program.call (Op.submitted hash)) else pure ()).mapError
    (tagTransactionError "journal" true hash)
  (waitForReceipt hash).mapError (tagTransactionError "receipt" true hash)

def sendContractTransaction (setting : Setting) (call : Send) :
    Program Op Resp Tagged JsValue := do
  let prepared ← (Program.lift (normalizedNonce call) : Page (Option Nat)).mapError
    (tagTransactionError "journal" false .null)
  let transaction := call.transaction prepared
  let gas ← (estimate setting transaction).mapError estimateError
  (assertFundingChain setting).mapError (tagTransactionError "network-check" false .null)
  let transaction ← (journal call prepared { transaction with gas := some gas }).mapError
    (tagTransactionError "journal" false .null)
  let sent ← (answer (.sendTransaction transaction)).mapError
    (tagTransactionError "send" true .null)
  match sent with
  | .error failure => .fail (sendError failure)
  | .ok hash => afterHash call hash

end Sending

section Rules

/-- The operation hands a transaction to the wallet. -/
def IsSend : Op → Bool
  | .request (.sendTransaction _) => true
  | _ => false

/-- No transaction has been handed to the wallet. -/
def Unsent (history : History Resp) : Prop :=
  ∀ entry ∈ history, IsSend entry.1 = false

/-- The answers to the reads of receipts, newest first. -/
def receiptAnswers (history : History Resp) : List (Except WalletFailure JsValue) :=
  history.filterMap fun
    | ⟨.request (.transactionReceipt _), response⟩ => some response
    | _ => none

/-- The operation comes before the wallet is handed a transaction. -/
def isEarly : Op → Bool
  | .request (.sendTransaction _) => false
  | .request (.transactionReceipt _) => false
  | _ => true

def Early (history : History Resp) : Prop :=
  ∀ entry ∈ history, isEarly entry.1 = true

def isFailure : Except WalletFailure JsValue → Bool
  | .error _ => true
  | .ok _ => false

/-- The wallet has confirmed the chain of the deployment, if it names one. -/
def ChainChecked (setting : Setting) (history : History Resp) : Prop :=
  ∀ wanted, setting.chainId = some wanted → ∃ current,
    Saw history (.request .chainId) (.ok current) ∧ parseInt16 current.toText = some (wanted : Int)

/-- The gas of a transaction is the buffered estimate of the very same call. -/
structure Estimated (estimated transaction : Transaction) (answered : JsValue) : Prop where
  same : transaction = { estimated with nonce := transaction.nonce, gas := transaction.gas }
  gas : ∃ value : Int, bigIntOf answered = some value ∧ value < bufferedGas value ∧
    bufferedGas value ≤ maxTransactionGasLimit ∧
    transaction.gas = some (hexText (bufferedGas value).toNat)

/-- A transaction may be handed to the wallet: it is the first one, it is the call of the
caller, its gas was estimated before and the chain was checked since then, and its nonce has
just been written into the journal. -/
structure Ready (setting : Setting) (call : Send) (history : History Resp)
    (transaction : Transaction) : Prop where
  unsent : Unsent history
  asked : transaction = { call.transaction none with
    nonce := transaction.nonce, gas := transaction.gas }
  estimated : ∃ later earlier estimated answered,
    history = later ++ ⟨.request (.estimateGas estimated), .ok answered⟩ :: earlier ∧
      Estimated estimated transaction answered ∧ ChainChecked setting later
  journaled : call.onPrepared = true → ∃ nonce earlier,
    transaction.nonce = some (hexText nonce) ∧
      history = ⟨.prepared (lowerCase call.sender) nonce, .ok ()⟩ :: earlier

/-- What the page may do after a history. -/
def Permitted (setting : Setting) (call : Send) (history : History Resp) : Op → Prop
  | .request (.sendTransaction transaction) => Ready setting call history transaction
  | .request (.transactionReceipt hash) =>
      (∃ transaction, Saw history (.request (.sendTransaction transaction)) (.ok hash)) ∧
        (call.onSubmitted = true → Saw history (.submitted hash) (.ok ())) ∧
        (receiptAnswers history).length < 180 ∧
        ((receiptAnswers history).takeWhile isFailure).length < 3
  | .prepared sender _ =>
      call.onPrepared = true ∧ Unsent history ∧ sender = lowerCase call.sender
  | .submitted hash => call.onSubmitted = true ∧ ∃ transaction earlier,
      history = ⟨.request (.sendTransaction transaction), .ok hash⟩ :: earlier
  | _ => True

/-- The wallet failed to send in one of the ways in which nothing is broadcast. -/
def KnownUnsent (failure : WalletFailure) : Prop :=
  isWalletRejection failure = true ∨ isDefinitelyPreBroadcastSendFailure failure = true ∨
    (Failure.wallet failure).revertSelector.isSome = true

/-- A receipt of the transaction that was sent, with the status of success. -/
def Confirmed (history : History Resp) (receipt : JsValue) : Prop :=
  ∃ transaction hash, Saw history (.request (.sendTransaction transaction)) (.ok hash) ∧
    Saw history (.request (.transactionReceipt hash)) (.ok receipt) ∧
    bigIntOf (receipt.fieldOr "status" (.text "0x0")) = some 1

/-- What an error tells about the transaction.  A hash that the wallet has not returned for it
is one that the failing value came with. -/
structure Told (history : History Resp) (error : Tagged) : Prop where
  safe : error.broadcastPossible = false ↔ Unsent history ∨ ∃ transaction failure,
    Saw history (.request (.sendTransaction transaction)) (.error failure) ∧ KnownUnsent failure
  hash : ∀ transaction hash, Saw history (.request (.sendTransaction transaction)) (.ok hash) →
    error.broadcastPossible = true ∧ (hash.truthy = true → error.transactionHash = some hash)
  only : ∀ hash, error.transactionHash = some hash →
    (∃ transaction, Saw history (.request (.sendTransaction transaction)) (.ok hash)) ∨
      error.failure.transactionHash = some hash

end Rules

section Parts

variable {setting : Setting} {call : Send} {history : History Resp}

@[simp]
theorem unsent_cons {entry : (op : Op) × Resp op} :
    Unsent (entry :: history) ↔ IsSend entry.1 = false ∧ Unsent history := by
  simp [Unsent]

@[simp]
theorem unsent_append {checks : History Resp} :
    Unsent (checks ++ history) ↔ Unsent checks ∧ Unsent history := by
  simp [Unsent, or_imp, forall_and]

@[simp]
theorem unsent_nil : Unsent [] := by
  simp [Unsent]

/-- Nothing was answered to a transaction that was never handed over. -/
theorem Unsent.not_saw {transaction : Transaction} {response : Except WalletFailure JsValue}
    (unsent : Unsent history)
    (saw : Saw history (.request (.sendTransaction transaction)) response) : False := by
  have kept := unsent _ saw
  simp [IsSend] at kept

@[simp]
theorem early_cons {entry : (op : Op) × Resp op} :
    Early (entry :: history) ↔ isEarly entry.1 = true ∧ Early history := by
  simp [Early]

@[simp]
theorem early_append {checks : History Resp} :
    Early (checks ++ history) ↔ Early checks ∧ Early history := by
  simp [Early, or_imp, forall_and]

@[simp]
theorem early_nil : Early [] := by
  simp [Early]

theorem Early.unsent (early : Early history) : Unsent history := by
  rintro ⟨op, response⟩ member
  have kind := early _ member
  cases op with
  | request asked => cases asked <;> first | rfl | cases kind
  | _ => rfl

theorem Early.receiptAnswers (early : Early history) : receiptAnswers history = [] := by
  rw [WalletRpc.receiptAnswers, List.filterMap_eq_nil_iff]
  rintro ⟨op, response⟩ member
  have kind := early _ member
  cases op with
  | request asked => cases asked <;> first | rfl | cases kind
  | _ => rfl

@[simp]
theorem follows_ask {allowed : History Resp → Op → Prop} {returns : History Resp → JsValue → Prop}
    {fails : History Resp → Failure → Prop} (asked : Request) :
    Program.Follows allowed returns fails history (ask asked) ↔
      allowed history (.request asked) ∧
        (∀ value, returns (⟨.request asked, .ok value⟩ :: history) value) ∧
        ∀ failure, fails (⟨.request asked, .error failure⟩ :: history) (.wallet failure) := by
  rw [ask, answer, Program.follows_call_bind]
  constructor
  · rintro ⟨permitted, rest⟩
    exact ⟨permitted, fun value => rest (.ok value), fun failure => rest (.error failure)⟩
  · rintro ⟨permitted, returned, failed⟩
    refine ⟨permitted, fun response => ?_⟩
    cases response with
    | ok value => exact returned value
    | error failure => exact failed failure

/-- The check of the chain adds one request at most. -/
theorem follows_assertFundingChain {allowed : History Resp → Op → Prop}
    (free : ∀ reached, allowed reached (.request .chainId)) :
    Program.Follows allowed
      (fun reached _ => ∃ checks, reached = checks ++ history ∧ Early checks ∧
        ChainChecked setting checks)
      (fun reached _ => ∃ checks, reached = checks ++ history ∧ Early checks)
      history (assertFundingChain setting) := by
  unfold assertFundingChain
  cases wanted : setting.chainId with
  | none => exact ⟨[], rfl, early_nil, by simp [ChainChecked, wanted]⟩
  | some chain =>
      simp only [Program.follows_bind, follows_ask, Program.follows_require]
      refine ⟨free _, fun value => ⟨fun same => ?_, fun _ => ?_⟩, fun failure => ?_⟩
      · refine ⟨[_], rfl, by simp [isEarly], ?_⟩
        intro other named
        rw [wanted] at named
        cases named
        exact ⟨value, by simp [Saw], same⟩
      · exact ⟨[_], rfl, by simp [isEarly]⟩
      · exact ⟨[_], rfl, by simp [isEarly]⟩

theorem lt_bufferedGas {value : Int} (positive : 0 < value) : value < bufferedGas value := by
  rw [bufferedGas, Int.tdiv_eq_ediv_of_nonneg (by omega)]
  omega

/-- A limit that is accepted leaves room above the estimate and stays below the cap. -/
theorem bufferedGasLimit_eq_ok {answered : JsValue} {gas : String}
    (accepted : bufferedGasLimit answered = .ok gas) :
    ∃ value : Int, bigIntOf answered = some value ∧ value < bufferedGas value ∧
      bufferedGas value ≤ maxTransactionGasLimit ∧ gas = hexText (bufferedGas value).toNat := by
  unfold bufferedGasLimit at accepted
  split at accepted
  · cases accepted
  · rename_i value read
    split at accepted
    · cases accepted
    · split at accepted
      · cases accepted
      · cases accepted
        exact ⟨value, read, lt_bufferedGas (by omega), by omega, rfl⟩

theorem follows_estimate (transaction : Transaction) (early : Early history) :
    Program.Follows (Permitted setting call)
      (fun reached gas => ∃ answered value earlier,
        reached = ⟨.request (.estimateGas transaction), .ok answered⟩ :: earlier ∧
          Early earlier ∧ bigIntOf answered = some value ∧ value < bufferedGas value ∧
          bufferedGas value ≤ maxTransactionGasLimit ∧ gas = hexText (bufferedGas value).toNat)
      (fun reached _ => Early reached)
      history (estimate setting transaction) := by
  rw [estimate, Program.follows_bind]
  refine (follows_assertFundingChain fun _ => trivial).weaken ?_ ?_
  · rintro reached _ _ ⟨checks, rfl, quiet, _⟩
    simp only [Program.follows_bind, follows_ask, Program.follows_lift]
    refine ⟨trivial, fun answered => ⟨fun gas accepted => ?_, fun _ _ => ?_⟩, fun failure => ?_⟩
    · obtain ⟨value, read, more, capped, same⟩ := bufferedGasLimit_eq_ok accepted
      exact ⟨answered, value, _, rfl, early_append.mpr ⟨quiet, early⟩, read, more, capped, same⟩
    · simp [isEarly, quiet, early]
    · simp [isEarly, quiet, early]
  · rintro reached _ _ ⟨checks, rfl, quiet⟩
    exact early_append.mpr ⟨quiet, early⟩

/-- The nonce that is chosen is written last. -/
theorem follows_journal (prepared : Option Nat) (transaction : Transaction)
    (early : Early history) :
    Program.Follows (Permitted setting call)
      (fun reached journaled => ∃ checks, reached = checks ++ history ∧ Early checks ∧
        journaled = { transaction with nonce := journaled.nonce } ∧
        (call.onPrepared = true → ∃ nonce earlier, journaled.nonce = some (hexText nonce) ∧
          reached = ⟨.prepared (lowerCase call.sender) nonce, .ok ()⟩ :: earlier))
      (fun reached _ => Early reached)
      history (journal call prepared transaction) := by
  unfold journal
  split
  · rename_i asked
    have wrote : ∀ (checks : History Resp) (nonce : Nat), Early checks →
        Program.Follows (Permitted setting call)
          (fun reached journaled => ∃ checks, reached = checks ++ history ∧ Early checks ∧
            journaled = { transaction with nonce := journaled.nonce } ∧
            (call.onPrepared = true → ∃ nonce earlier, journaled.nonce = some (hexText nonce) ∧
              reached = ⟨.prepared (lowerCase call.sender) nonce, .ok ()⟩ :: earlier))
          (fun reached _ => Early reached) (checks ++ history) (do
            awaits (Program.call (Op.prepared (lowerCase call.sender) nonce))
            return { transaction with nonce := some (hexText nonce) }) := by
      intro checks nonce quiet
      simp only [awaits, Program.follows_bind, Program.follows_lift, Program.follows_pure]
      refine ⟨⟨asked, (early_append.mpr ⟨quiet, early⟩).unsent, rfl⟩, fun response => ⟨?_, ?_⟩⟩
      · rintro ⟨⟩ rfl
        exact ⟨_ :: checks, rfl, by simp [isEarly, quiet], trivial, fun _ => ⟨nonce, _, rfl, rfl⟩⟩
      · rintro _ rfl
        simp [isEarly, quiet, early]
    rw [Program.follows_bind]
    unfold chooseNonce
    cases prepared with
    | some nonce => exact wrote [] nonce early_nil
    | none =>
        rw [Program.follows_bind, follows_ask]
        refine ⟨trivial, fun pending => ?_, fun failure => by simp [isEarly, early]⟩
        split
        · rename_i nonce read
          exact wrote [_] nonce (by simp [isEarly])
        · simp [isEarly, early]
  · rename_i silent
    exact ⟨[], rfl, early_nil, rfl, fun asked => (silent asked).elim⟩

end Parts

section Receipts

variable {setting : Setting} {call : Send} {history : History Resp} {hash : JsValue}

/-- The wallet returned a hash for the transaction, and the caller has it. -/
structure Journaled (call : Send) (hash : JsValue) (history : History Resp) : Prop where
  sent : ∃ transaction, Saw history (.request (.sendTransaction transaction)) (.ok hash)
  told : call.onSubmitted = true → Saw history (.submitted hash) (.ok ())

theorem Journaled.cons (journaled : Journaled call hash history) (entry : (op : Op) × Resp op) :
    Journaled call hash (entry :: history) where
  sent := by
    obtain ⟨transaction, saw⟩ := journaled.sent
    exact ⟨transaction, saw.mono (List.suffix_cons _ _)⟩
  told asked := (journaled.told asked).mono (List.suffix_cons _ _)

/-- Each attempt reads one receipt, and three failures in a row end the loop. -/
theorem follows_waitFrom (attempts failures : Nat) (journaled : Journaled call hash history)
    (reads : (receiptAnswers history).length + attempts ≤ 180)
    (row : ((receiptAnswers history).takeWhile isFailure).length = failures)
    (few : failures < 3) :
    Program.Follows (Permitted setting call) Confirmed
      (fun reached _ => ∃ later, reached = later ++ history ∧ Unsent later)
      history (waitFrom hash attempts failures) := by
  induction attempts generalizing failures history with
  | zero => exact ⟨[], rfl, unsent_nil⟩
  | succ attempts ih =>
      have permitted : Permitted setting call history (.request (.transactionReceipt hash)) :=
        ⟨journaled.sent, journaled.told, by omega, by omega⟩
      have again : ∀ (response : Except WalletFailure JsValue) (failures : Nat),
          ((receiptAnswers (⟨.request (.transactionReceipt hash), response⟩ :: history)).takeWhile
            isFailure).length = failures → failures < 3 →
          Program.Follows (Permitted setting call) Confirmed
            (fun reached _ => ∃ later, reached = later ++ history ∧ Unsent later)
            (⟨.request (.transactionReceipt hash), response⟩ :: history) (do
              pause 1000
              waitFrom hash attempts failures) := by
        intro response failures row few
        rw [pause, Program.follows_call_bind]
        refine ⟨trivial, fun _ => ?_⟩
        refine (ih failures ((journaled.cons _).cons _) ?_ row few).weaken
          (fun _ _ _ confirmed => confirmed) ?_
        · have one : receiptAnswers (⟨.sleep 1000, ()⟩ ::
              ⟨.request (.transactionReceipt hash), response⟩ :: history) =
              response :: receiptAnswers history := rfl
          rw [one, List.length_cons]
          omega
        · rintro reached _ _ ⟨later, rfl, quiet⟩
          exact ⟨later ++ [_, _], by rw [List.append_assoc]; rfl, by simp [IsSend, quiet]⟩
      rw [waitFrom, answer, Program.follows_call_bind]
      refine ⟨permitted, fun response => ?_⟩
      have grown : receiptAnswers (⟨.request (.transactionReceipt hash), response⟩ :: history) =
          response :: receiptAnswers history := rfl
      cases response with
      | error failure =>
          dsimp only
          split
          · exact ⟨[_], rfl, by simp [IsSend]⟩
          · rename_i goes
            refine again _ _ ?_ (by omega)
            rw [grown, List.takeWhile_cons_of_pos rfl, List.length_cons, row]
      | ok receipt =>
          dsimp only
          split
          · rw [Program.follows_lift]
            refine ⟨fun value checked => ?_, fun _ _ => ⟨[_], rfl, by simp [IsSend]⟩⟩
            unfold checkReceipt at checked
            split at checked
            · cases checked
            · rename_i status read
              split at checked
              · cases checked
              · rename_i one
                cases checked
                obtain ⟨transaction, saw⟩ := journaled.sent
                refine ⟨transaction, hash, saw.mono (List.suffix_cons _ _), by simp [Saw], ?_⟩
                rw [read, not_not.mp one]
          · refine again _ _ ?_ (by omega)
            rw [grown, List.takeWhile_cons_of_neg (by simp [isFailure]), List.length_nil]

end Receipts

section Results

variable {setting : Setting} {call : Send} {history : History Resp}

/-- Nothing was broadcast before a transaction was handed to the wallet. -/
theorem told_before (stage : String) (failure : Failure) (unsent : Unsent history) :
    Told history (tagTransactionError stage false .null failure) where
  safe := ⟨fun _ => .inl unsent, fun _ => rfl⟩
  hash _ _ saw := (unsent.not_saw saw).elim
  only _ same := .inr same

theorem told_sendError (transaction : Transaction) (failure : WalletFailure)
    (unsent : Unsent history) :
    Told (⟨.request (.sendTransaction transaction), .error failure⟩ :: history)
      (sendError failure) := by
  have noHash : ∀ other hash, ¬ Saw
      (⟨.request (.sendTransaction transaction), .error failure⟩ :: history)
      (.request (.sendTransaction other)) (.ok hash) := by
    intro other hash saw
    rcases List.mem_cons.mp saw with same | saw
    · cases same
    · exact unsent.not_saw saw
  have own : (sendError failure).transactionHash = (sendError failure).failure.transactionHash := by
    unfold sendError
    split_ifs <;> rfl
  have safe : (sendError failure).broadcastPossible = false ↔ KnownUnsent failure := by
    unfold sendError KnownUnsent
    split_ifs <;> simp_all [tagTransactionError]
  refine ⟨safe.trans ⟨fun known => .inr ⟨transaction, failure, by simp [Saw], known⟩, ?_⟩,
    fun other hash saw => (noHash other hash saw).elim, fun hash same => ?_⟩
  · rintro (quiet | ⟨other, others, saw, known⟩)
    · simp [IsSend] at quiet
    · rcases List.mem_cons.mp saw with same | saw
      · cases same
        exact known
      · exact (unsent.not_saw saw).elim
  · exact .inr (own ▸ same)

/-- Everything after the hash keeps it. -/
theorem told_after (stage : String) (failure : Failure) (transaction : Transaction)
    (hash : JsValue) {later earlier : History Resp} (quiet : Unsent later)
    (unsent : Unsent earlier) :
    Told (later ++ ⟨.request (.sendTransaction transaction), .ok hash⟩ :: earlier)
      (tagTransactionError stage true hash failure) := by
  have only : ∀ other response, Saw
      (later ++ ⟨.request (.sendTransaction transaction), .ok hash⟩ :: earlier)
      (.request (.sendTransaction other)) response → response = .ok hash := by
    intro other response saw
    rcases List.mem_append.mp saw with saw | saw
    · exact (quiet.not_saw saw).elim
    · rcases List.mem_cons.mp saw with same | saw
      · cases same
        rfl
      · exact (unsent.not_saw saw).elim
  refine ⟨⟨nofun, ?_⟩, fun other found saw => ?_, fun found same => ?_⟩
  · rintro (none | ⟨other, failed, saw, _⟩)
    · simp [IsSend] at none
    · cases only other _ saw
  · cases only other _ saw
    exact ⟨rfl, fun truthy => by simp [tagTransactionError, truthy]⟩
  · simp only [tagTransactionError] at same
    split at same
    · cases same
      exact .inl ⟨transaction, by simp [Saw]⟩
    · exact .inr same

theorem told_estimateError (failure : Failure) (unsent : Unsent history) :
    Told history (estimateError failure) := by
  unfold estimateError
  split
  · exact told_before _ _ unsent
  · exact told_before _ _ unsent

/-- The hash goes into the journal before the first receipt is read. -/
theorem follows_sent (transaction : Transaction) (hash : JsValue) (early : Early history) :
    Program.Follows (Permitted setting call) Confirmed Told
      (⟨.request (.sendTransaction transaction), .ok hash⟩ :: history) (afterHash call hash) := by
  have wait : ∀ later : History Resp, Early later →
      (call.onSubmitted = true → Saw later (.submitted hash) (.ok ())) →
      Program.Follows (Permitted setting call) Confirmed Told
        (later ++ ⟨.request (.sendTransaction transaction), .ok hash⟩ :: history)
        ((waitForReceipt hash).mapError (tagTransactionError "receipt" true hash)) := by
    intro later quiet told
    have none : receiptAnswers (later ++
        ⟨.request (.sendTransaction transaction), .ok hash⟩ :: history) = [] := by
      rw [receiptAnswers, List.filterMap_append, ← receiptAnswers, quiet.receiptAnswers]
      exact early.receiptAnswers
    rw [Program.follows_mapError]
    refine (follows_waitFrom 180 0 ⟨⟨transaction, by simp [Saw]⟩, fun asked =>
      List.mem_append_left _ (told asked)⟩ (by simp [none]) (by simp [none])
      (by omega)).weaken (fun _ _ _ confirmed => confirmed) ?_
    rintro _ failure _ ⟨more, rfl, silent⟩
    rw [← List.append_assoc]
    exact told_after _ _ _ _ (unsent_append.mpr ⟨silent, quiet.unsent⟩) early.unsent
  rw [afterHash, Program.follows_bind, Program.follows_mapError]
  split
  · rename_i asked
    simp only [awaits, Program.follows_bind, Program.follows_lift]
    refine ⟨⟨asked, transaction, history, rfl⟩, fun response => ⟨?_, ?_⟩⟩
    · rintro ⟨⟩ rfl
      exact wait [_] (by simp [isEarly]) fun _ => by simp [Saw]
    · rintro failure rfl
      have quiet : Unsent [⟨.submitted hash, .error failure⟩] := by simp [IsSend]
      exact told_after _ _ _ _ quiet early.unsent
  · rename_i silent
    exact wait [] early_nil fun asked => (silent asked).elim

/-- Whatever the wallet answers, the page hands one transaction to it at most, and only with its
nonce in the journal, with the gas that was estimated for the same call, and on the right chain.
A returned receipt confirms the transaction.  An error excludes a broadcast only if nothing was
handed to the wallet or the wallet refused it in a known way, and it carries the hash that the
wallet returned. -/
theorem sendContractTransaction_writeAhead (setting : Setting) (call : Send) :
    Program.Follows (Permitted setting call) Confirmed Told []
      (sendContractTransaction setting call) := by
  rw [sendContractTransaction, Program.follows_bind, Program.follows_mapError,
    Program.follows_lift]
  refine ⟨fun prepared _ => ?_, fun failure _ => told_before _ _ unsent_nil⟩
  rw [Program.follows_bind, Program.follows_mapError]
  refine (follows_estimate _ early_nil).weaken ?_ fun _ failure _ early =>
    told_estimateError failure early.unsent
  rintro _ gas _ ⟨answered, value, earlier, rfl, early, read, more, capped, same⟩
  rw [Program.follows_bind, Program.follows_mapError]
  refine (follows_assertFundingChain fun _ => trivial).weaken ?_ ?_
  · rintro _ _ _ ⟨checks, rfl, quiet, checked⟩
    have early : Early (checks ++ ⟨.request (.estimateGas (call.transaction prepared)),
        .ok answered⟩ :: earlier) := by
      simp [isEarly, quiet, early]
    rw [Program.follows_bind, Program.follows_mapError]
    refine (follows_journal prepared _ early).weaken ?_ fun _ failure _ early =>
      told_before _ failure early.unsent
    rintro _ transaction _ ⟨writes, rfl, wrote, form, journaled⟩
    have before := early_append.mpr ⟨wrote, early⟩
    rw [Program.follows_bind, Program.follows_mapError, answer]
    refine ⟨⟨before.unsent, ?_, ?_, journaled⟩, fun response => ?_⟩
    · rw [form]
      rfl
    · refine ⟨writes ++ checks, earlier, _, answered, by rw [List.append_assoc], ⟨?_, ?_⟩, ?_⟩
      · rw [form]
      · refine ⟨value, read, more, capped, ?_⟩
        rw [form, same]
      · intro wanted named
        obtain ⟨current, saw, equal⟩ := checked wanted named
        exact ⟨current, List.mem_append_right _ saw, equal⟩
    · cases response with
      | error failure => exact told_sendError transaction failure before.unsent
      | ok hash => exact follows_sent transaction hash before
  · rintro _ failure _ ⟨checks, rfl, quiet⟩
    refine told_before _ _ ?_
    simp [IsSend, quiet.unsent, early.unsent]

end Results

end ZkApi.Browser.WalletRpc
