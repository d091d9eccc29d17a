import ZkApi.FinalitySafety

/-!
# Recovering a deposit

A deposit whose outcome the page does not know is recovered from the chain.  The page confirms
it, drops one of its transactions or gives up its slot, and does each of these only when no later
chain can prove it wrong.
-/

namespace ZkApi.Browser.WalletRpc

open Interleaving Expiry Chains Program
open scoped List

section Plans

/-- A call of the browser wallet whose rejection is thrown. -/
def runtime (asked : RuntimeCall) : Page (Option PendingDeposit) := do
  match ← (Program.call (Op.runtime asked) : Page _) with
  | .ok found => pure found
  | .error failure => .fail failure

def PendingDeposit.slot (plan : PendingDeposit) : SlotPlan where
  nextNoteId := plan.nextNoteId
  amount := plan.amount
  commitment := plan.commitment

/-- The known hashes of a plan.  An older record has one at most. -/
def PendingDeposit.hashes (plan : PendingDeposit) : List String :=
  plan.transactionHashes.getD (plan.transactionHash.toList.filter (· ≠ ""))

/-- The first attempt with a hash.  There is nothing in an attempt that is not found. -/
def PendingDeposit.attemptOf (plan : PendingDeposit) (hash : String) : TransactionAttempt :=
  match plan.transactionAttempts.find? fun attempt => lowerCase attempt.hash = lowerCase hash with
  | some attempt => ⟨attempt.sender, attempt.nonce⟩
  | none => ⟨none, none⟩

/-- The slot of a plan holds its own note. -/
def depositMatches (plan : PendingDeposit) (note : BrowserNote) : Except Failure Bool :=
  if note.status = 0 ∨ note.amount ≠ plan.amount then .ok false
  else do
    let commitment ← wordNumber note.commitment
    return commitment = plan.commitment

end Plans

section Recovery

/-- What a recovery has come to. -/
inductive Recovered where
  | confirmed (noteId amount : Nat)
  | slotConflictUnconfirmed
  | slotConsumed
  | awaiting (status transactionHash : String) (replacementAvailable : Bool)
  | phase (status : String)

/-- What the receipts have shown so far. -/
structure ReceiptScan where
  pendingHash : Option String
  missingReceiptHashes : List String

/-- `pendingHash || hash` -/
def ReceiptScan.keep (scan : ReceiptScan) (hash : String) : ReceiptScan :=
  { scan with pendingHash := scan.pendingHash.or (if hash = "" then none else some hash) }

/-- The note of the plan is in the vault. -/
def confirmRecovered (plan : PendingDeposit) (note : BrowserNote) : Page Recovered :=
  if note.status ≠ 1 then
    .fail (.plain "The recovered deposit exists, but its private note is no longer active.")
  else do
    let _ ← runtime (.treePath plan.nextNoteId)
    let _ ← runtime (.confirmDeposit plan note.expiryTs)
    let _ ← runtime .refresh
    return .confirmed plan.nextNoteId plan.amount

/-- Another note is in the slot of the plan. -/
def resolveConflict (setting : Setting) (plan : PendingDeposit) : Page Recovered := do
  let conflictFinality ← browserDepositSlotConflictFinality setting plan.slot
  if !conflictFinality.holds then do
    let _ ← runtime .refresh
    return .slotConflictUnconfirmed
  else do
    let _ ← runtime (.resolvePendingDepositSlotConflict plan plan.hashes)
    let _ ← runtime .refresh
    return .slotConsumed

/-- A receipt that cannot be had is none. -/
def receiptOrNull : Except WalletFailure JsValue → JsValue
  | .ok receipt => receipt
  | .error _ => .null

/-- Drop a transaction without a receipt once its nonce is consumed. -/
def checkMissing (setting : Setting) (schedule : List Bool) (plan : PendingDeposit)
    (scan : ReceiptScan) (hash : String) : Page ReceiptScan := do
  let nonceStatus ←
    browserDepositNonceConsumed setting schedule (plan.attemptOf hash) plan.nextNoteId
  if nonceStatus.holds then do
    let _ ← runtime (.markPendingDepositRetryable hash)
    return scan
  else
    return { scan.keep hash with missingReceiptHashes := scan.missingReceiptHashes ++ [hash] }

/-- Drop a transaction that has failed once its revert is final. -/
def checkReverted (scan : ReceiptScan) (hash : String) (receipt : JsValue) :
    Page ReceiptScan := do
  let finality ← browserRevertedReceiptFinality hash receipt
  if finality.holds then do
    let _ ← runtime (.markPendingDepositRetryable hash)
    return scan
  else return scan.keep hash

def checkHash (setting : Setting) (schedule : List Bool) (plan : PendingDeposit)
    (scan : ReceiptScan) (hash : String) : Page ReceiptScan := do
  let receipt := receiptOrNull (← answer (.transactionReceipt (.text hash)))
  if !receipt.truthy then checkMissing setting schedule plan scan hash
  else
    match bigIntOf (receipt.fieldOr "status" (.text "0x0")) with
    | none => .fail (.plain "Cannot convert the status to a BigInt")
    | some status =>
        if status ≠ 1 then checkReverted scan hash receipt
        else .fail (.plain <| "The deposit transaction mined, but the latest vault read has " ++
          "not caught up yet. Check again shortly.")

/-- The schedule of a check is found by the number of hashes still to check. -/
def checkHashes (setting : Setting) (schedule : Nat → List Bool) (plan : PendingDeposit) :
    ReceiptScan → List String → Page ReceiptScan
  | scan, [] => pure scan
  | scan, hash :: rest => do
      let next ← checkHash setting (schedule (rest.length + 1)) plan scan hash
      checkHashes setting schedule plan next rest

/-- A submission without a hash is dropped once its nonce is consumed, if no hash is pending. -/
def checkSubmission (setting : Setting) (schedule : List Bool) (plan : PendingDeposit)
    (scan : ReceiptScan) : Page Unit :=
  match plan.submissionId, plan.submissionFrom, plan.submissionNonce.bind numberOf with
  | some submissionId, some sender, some nonce =>
      if scan.pendingHash.isSome ∨ submissionId = "" ∨ sender = "" ∨
          maxSafeInteger < nonce.natAbs then pure ()
      else do
        let nonceStatus ← browserDepositNonceConsumed setting schedule
          ⟨some sender, some (.integer nonce)⟩ plan.nextNoteId
        if nonceStatus.holds then do
          let _ ← runtime (.markPendingSubmissionRetryable plan)
          return ()
        else return ()
  | _, _, _ => pure ()

/-- The accounts and nonces that a replacement may have. -/
def replacementIdentities (hashes : List String) (marked : Option PendingDeposit) :
    List (String × Nat) :=
  let attempts := (marked.map PendingDeposit.transactionAttempts).getD []
  let known := attempts.filter fun attempt => lowerCase attempt.hash ∈ hashes.map lowerCase
  (known.filterMap fun attempt =>
    (TransactionAttempt.identity ⟨attempt.sender, attempt.nonce⟩).map fun (sender, nonce) =>
      (lowerCase sender, nonce)).dedup

/-- Some transaction may still be mined. -/
def awaitReceipts (pendingHash : String) (missingReceiptHashes : List String) :
    Page Recovered := do
  let current ← runtime .pendingDeposit
  let currentHashes := (current.map PendingDeposit.hashes).getD []
  let allReceiptsMissing := !currentHashes.isEmpty &&
    currentHashes.all fun hash => lowerCase hash ∈ missingReceiptHashes.map lowerCase
  if allReceiptsMissing then do
    let marked ← runtime (.markPendingDepositMissingReceipts currentHashes)
    let _ ← runtime .refresh
    let single := (replacementIdentities currentHashes marked).length = 1
    let unclaimed := (marked.bind PendingDeposit.submissionId).all (· = "")
    return .awaiting "dropped_or_pending" pendingHash (single && unclaimed)
  else return .awaiting "submitted" pendingHash false

/-- The slot of the plan is still empty. -/
def checkTransactions (setting : Setting) (schedule : Nat → List Bool) (plan : PendingDeposit) :
    Page Recovered := do
  let scan ← checkHashes setting schedule plan ⟨none, []⟩ plan.hashes
  checkSubmission setting (schedule 0) plan scan
  let _ ← runtime .refresh
  match scan.pendingHash with
  | some pendingHash => awaitReceipts pendingHash scan.missingReceiptHashes
  | none => do
      let current ← runtime .pendingDeposit
      let phase := (current.bind PendingDeposit.phase).getD ""
      return .phase (if phase = "" then "prepared" else phase)

/-- `recoverBrowserDeposit`, once there is a plan. -/
def recoverDeposit (setting : Setting) (schedule : Nat → List Bool) (plan : PendingDeposit) :
    Page Recovered := do
  let note ← readBrowserNote setting plan.nextNoteId "latest"
  let own ← Program.lift (depositMatches plan note)
  if own then confirmRecovered plan note
  else if note.status ≠ 0 then resolveConflict setting plan
  else checkTransactions setting schedule plan

end Recovery

section Requests

/-- An operation that only asks the wallet. -/
def Op.isRequest : Op → Bool
  | .request _ => true
  | _ => false

theorem only_answer (asked : Request) : (answer asked).Only Op.isRequest :=
  only_call rfl

theorem only_ask (asked : Request) : (ask asked).Only Op.isRequest :=
  (only_answer asked).bind fun response => by
    cases response with
    | ok value => exact .ret value
    | error failure => exact .fail _

theorem only_assertFundingChain (setting : Setting) :
    (assertFundingChain setting).Only Op.isRequest := by
  unfold assertFundingChain
  split
  · exact .ret ()
  · exact (only_ask _).bind fun _ => only_require _ _

theorem only_readBrowserNote (setting : Setting) (noteId : Nat) (blockTag : String) :
    (readBrowserNote setting noteId blockTag).Only Op.isRequest :=
  (only_assertFundingChain setting).bind fun _ =>
    ((only_lift _).bind fun _ => (only_ask _).bind fun _ => .ret _).bind fun _ => only_lift _

theorem only_tried {α : Type} {read : Page α} (only : read.Only Op.isRequest) :
    (tried read).Only Op.isRequest :=
  only.attempt.bind fun outcome => by
    cases outcome with
    | ok value => exact .ret (some value)
    | error failure => exact .ret none

theorem only_finalityTag (observedBlock : Nat) :
    (finalityTag observedBlock).Only Op.isRequest :=
  (only_answer _).bind fun block => by
    split
    · exact .ret _
    · exact (only_answer _).bind fun _ => .ret _

theorem only_browserDepositNonceConsumed (setting : Setting) (schedule : List Bool)
    (transactionAttempt : TransactionAttempt) (noteId : Nat) :
    (browserDepositNonceConsumed setting schedule transactionAttempt noteId).Only
      Op.isRequest := by
  unfold browserDepositNonceConsumed nonceConsumed
  split
  · exact .ret _
  · refine (only_finalityTag 0).bind fun ⟨tag, source⟩ => ?_
    cases tag with
    | none => exact .ret _
    | some blockTag =>
        have reads := only_readBrowserNote setting noteId blockTag
        refine (only_tried ((only_ask _).both reads)).bind fun outcome => ?_
        cases outcome <;> exact .ret _

theorem only_browserDepositSlotConflictFinality (setting : Setting) (plan : SlotPlan) :
    (browserDepositSlotConflictFinality setting plan).Only Op.isRequest := by
  refine (only_finalityTag 0).bind fun ⟨tag, source⟩ => ?_
  cases tag with
  | none => exact .ret _
  | some blockTag =>
      have reads := only_readBrowserNote setting plan.nextNoteId blockTag
      refine (only_tried (reads.bind fun _ => (only_lift _).bind fun _ => .ret _)).bind ?_
      intro outcome
      cases outcome <;> exact .ret _

theorem only_finalizedBlockNumber : finalizedBlockNumber.Only Op.isRequest :=
  (only_answer _).bind fun block => by
    dsimp only
    split
    · exact .ret _
    · exact (only_answer _).bind fun _ => .ret _

theorem only_browserRevertedReceiptFinality (transactionHash : String) (receipt : JsValue) :
    (browserRevertedReceiptFinality transactionHash receipt).Only Op.isRequest := by
  unfold browserRevertedReceiptFinality
  dsimp only
  split
  · exact .ret _
  · split
    · exact .fail _
    · split
      · exact .ret _
      · refine only_finalizedBlockNumber.bind fun found => ?_
        split
        · exact .ret _
        · refine (only_tried ((only_ask _).bind fun _ => (only_lift _).bind fun _ =>
            .ret _)).bind fun outcome => ?_
          split <;> exact .ret _

end Requests

section Justifications

variable {Effect : Type} {world : World Effect} {setting : Setting} {now : Nat}

/-- From a moment on the nonce of an account is used up, and without filling the slot. -/
structure World.Fruitless (world : World Effect) (noteId moment : Nat) (sender : String)
    (nonce : Nat) : Prop where
  used : ∀ time ≥ moment, ∃ before sent after,
    (world.timeline.chain time).flatten = before ++ sent :: after ∧
      sent.sender = lowerCase sender ∧ sent.nonce = nonce
  unfilled : ∀ time ≥ moment, ∀ before sent after,
    (world.timeline.chain time).flatten = before ++ sent :: after →
      sent.sender = lowerCase sender → sent.nonce = nonce →
      (world.note (world.after (before ++ [sent])) noteId).status.val = 0

/-- From a moment on the transaction with a hash is in the chain and has failed, and it leaves
the slot as it was. -/
structure World.Reverted (world : World Effect) (noteId moment : Nat) (hash : String) : Prop where
  used : ∀ time ≥ moment, ∃ before sent after,
    (world.timeline.chain time).flatten = before ++ sent :: after ∧
      world.hash sent = lowerCase hash
  failed : ∀ time ≥ moment, ∀ before sent after,
    (world.timeline.chain time).flatten = before ++ sent :: after →
      world.hash sent = lowerCase hash → world.succeeds (world.after before) sent = false
  unfilled : ∀ time ≥ moment, ∀ before sent after,
    (world.timeline.chain time).flatten = before ++ sent :: after →
      world.hash sent = lowerCase hash →
      world.note (world.after (before ++ [sent])) noteId = world.note (world.after before) noteId

/-- What must be true of the chain when the page writes down what it has found. -/
def Justified (world : World Effect) (plan : PendingDeposit) (moment : Nat) : Op → Prop
  | .runtime (.confirmDeposit named expiryTs) => named = plan ∧ ∃ time ≤ moment,
      let record := world.note (world.after (world.timeline.chain time).flatten) plan.nextNoteId
      record.status.val = NoteStatus.active.code ∧ record.commitment.val = plan.commitment ∧
        record.amount.val = plan.amount ∧ record.expiryTs.val = expiryTs
  | .runtime (.resolvePendingDepositSlotConflict named hashes) =>
      named = plan ∧ hashes = plan.hashes ∧ ∀ time ≥ moment, ∀ sents,
        sents <+: (world.timeline.chain time).flatten →
        ¬ world.Holds plan.nextNoteId plan.commitment plan.amount (world.after sents)
  | .runtime (.markPendingDepositRetryable hash) => hash ∈ plan.hashes ∧
      (world.Reverted plan.nextNoteId moment hash ∨ ∃ sender nonce,
        (plan.attemptOf hash).identity = some (sender, nonce) ∧
          world.Fruitless plan.nextNoteId moment sender nonce)
  | .runtime (.markPendingSubmissionRetryable named) => named = plan ∧
      ∃ sender nonce, plan.submissionFrom = some sender ∧
        plan.submissionNonce.bind numberOf = some (Int.ofNat nonce) ∧
          world.Fruitless plan.nextNoteId moment sender nonce
  | _ => True

theorem fruitless_of_consumed (laws : VaultLaws world) {schedule : List Bool}
    {transactionAttempt : TransactionAttempt} {noteId later : Nat} {result : Checked BrowserNote}
    (takes : Takes (Honest world setting) now
      (browserDepositNonceConsumed setting schedule transactionAttempt noteId) (.ok result) later)
    (consumed : result.holds = true) :
    ∃ sender nonce, transactionAttempt.identity = some (sender, nonce) ∧
      ∀ moment ≥ later, world.Fruitless noteId moment sender nonce := by
  obtain ⟨sender, nonce, known, final⟩ := browserDepositNonceConsumed_final laws takes consumed
  refine ⟨sender, nonce, known, fun moment waits => ?_⟩
  constructor
  case used =>
    intro time le
    obtain ⟨before, sent, after, split, own, place⟩ := (final time (waits.trans le)).1.used
    obtain ⟨rest, whole⟩ := upTo_prefix (world.timeline.chain time) result.checkedBlock
    refine ⟨before, sent, after ++ rest, ?_, own, place⟩
    rw [← whole, split, List.append_assoc, List.cons_append]
  case unfilled => exact fun time le => (final time (waits.trans le)).2

theorem reverted_of_final {hash : String} {receipt : JsValue} {later : Nat}
    {result : Checked JsValue}
    (takes : Takes (Honest world setting) now (browserRevertedReceiptFinality hash receipt)
      (.ok result) later)
    (finalized : result.holds = true) (noteId : Nat) :
    ∀ moment ≥ later, world.Reverted noteId moment hash := by
  have final := (browserRevertedReceiptFinality_final takes finalized).2
  intro moment waits
  have failed : ∀ time ≥ moment, ∀ before sent after,
      (world.timeline.chain time).flatten = before ++ sent :: after →
        world.hash sent = lowerCase hash → world.succeeds (world.after before) sent = false := by
    intro time le before sent after split named
    exact ((final time (waits.trans le)).2 before sent after split named).2
  constructor
  case used => exact fun time le => (final time (waits.trans le)).1
  case failed => exact failed
  case unfilled =>
    intro time le before sent after split named
    have step : world.after (before ++ [sent]) = world.apply (world.after before) sent :=
      List.foldl_concat ..
    rw [step, world.apply_failed (failed time le before sent after split named)]

/-- The identity of a submission is its account and its nonce. -/
theorem identity_submission {sender owner : String} {nonce : Int} {own : Nat}
    (identity : TransactionAttempt.identity ⟨some sender, some (.integer nonce)⟩ =
      some (owner, own)) : owner = sender ∧ nonce = Int.ofNat own := by
  simp only [TransactionAttempt.identity, numberOf, safeNumber, Option.bind_eq_bind,
    Option.bind_some] at identity
  split at identity
  · rename_i within
    simp only [Option.bind_some] at identity
    split at identity
    · cases identity
      exact ⟨rfl, (Int.toNat_of_nonneg within.1).symm⟩
    · cases identity
  · cases identity

/-- A note that is the plan's own is a record with its commitment and amount. -/
theorem depositMatches_record {plan : PendingDeposit} {record : NoteRecord}
    (own : depositMatches plan (.ofRecord plan.nextNoteId record) = .ok true) :
    record.commitment.val = plan.commitment ∧ record.amount.val = plan.amount := by
  unfold depositMatches at own
  split at own
  · cases own
  · rename_i filled
    rw [BrowserNote.ofRecord, wordNumber_word] at own
    have same : decide (record.commitment.val = plan.commitment) = true := Except.ok.inj own
    refine ⟨of_decide_eq_true same, ?_⟩
    by_contra other
    exact filled (.inr other)

end Justifications

section Safety

variable {Effect α β : Type} {world : World Effect} {setting : Setting} {plan : PendingDeposit}
  {now : Nat}

/-- Whatever the chain does from a moment on, the page writes down only what is true. -/
def Careful (world : World Effect) (setting : Setting) (plan : PendingDeposit) (now : Nat)
    (program : Page α) : Prop :=
  Safely (Honest world setting) (Justified world plan) (fun _ _ => True) now program

theorem careful_pure (value : α) : Careful world setting plan now (pure value : Page α) :=
  trivial

theorem careful_fail (failure : Failure) :
    Careful world setting plan now (.fail failure : Page α) :=
  trivial

theorem Careful.bind {program : Page α} {next : α → Page β}
    (first : Careful world setting plan now program)
    (rest : ∀ value, ∀ time ≥ now, Careful world setting plan time (next value)) :
    Careful world setting plan now (program >>= next) := by
  rw [Careful, safely_bind]
  refine first.weaken fun time result le _ => ?_
  cases result with
  | ok value => exact rest value time le
  | error failure => trivial

/-- What follows requests may rest on their answers. -/
theorem careful_request {program : Page α} {next : α → Page β}
    (only : program.Only Op.isRequest)
    (rest : ∀ value later, Takes (Honest world setting) now program (.ok value) later →
      Careful world setting plan later (next value)) :
    Careful world setting plan now (program >>= next) := by
  refine safely_seq only (fun time op request => ?_) (fun _ _ _ => trivial) rest
  cases op with
  | request asked => trivial
  | _ => cases request

theorem careful_runtime {asked : RuntimeCall} {next : Option PendingDeposit → Page β}
    (justified : ∀ time ≥ now, Justified world plan time (.runtime asked))
    (rest : ∀ found, ∀ time ≥ now, Careful world setting plan time (next found)) :
    Careful world setting plan now (runtime asked >>= next) := by
  rw [Careful, safely_bind, runtime, safely_bind, safely_call]
  refine fun time waits => ⟨justified time waits, fun response _ => ?_⟩
  cases response with
  | ok found => exact rest found time waits
  | error failure => trivial

theorem careful_confirmRecovered {record : NoteRecord} {seen : Nat}
    (shown : record =
      world.note (world.after (world.timeline.chain seen).flatten) plan.nextNoteId)
    (before : seen ≤ now)
    (own : depositMatches plan (.ofRecord plan.nextNoteId record) = .ok true) :
    Careful world setting plan now (confirmRecovered plan (.ofRecord plan.nextNoteId record)) := by
  unfold confirmRecovered
  split
  · exact careful_fail _
  · rename_i active
    obtain ⟨commitment, amount⟩ := depositMatches_record own
    refine careful_runtime (fun _ _ => trivial) fun _ start waits => ?_
    refine careful_runtime (fun time le => ⟨rfl, seen, by omega, ?_⟩) fun _ _ _ => ?_
    · rw [← shown]
      exact ⟨not_not.mp active, commitment, amount, rfl⟩
    · exact careful_runtime (fun _ _ => trivial) fun _ _ _ => careful_pure _

theorem careful_resolveConflict (laws : VaultLaws world) :
    Careful world setting plan now (resolveConflict setting plan) := by
  refine careful_request (only_browserDepositSlotConflictFinality _ _) ?_
  intro conflictFinality later takes
  cases finalized : conflictFinality.holds with
  | false => exact careful_runtime (fun _ _ => trivial) fun _ _ _ => careful_pure _
  | true =>
      have final := browserDepositSlotConflictFinality_final laws takes finalized
      refine careful_runtime (fun moment waits => ⟨rfl, rfl, ?_⟩) fun _ _ _ => ?_
      · exact fun time le => final time (waits.trans le)
      · exact careful_runtime (fun _ _ => trivial) fun _ _ _ => careful_pure _

theorem careful_checkMissing (laws : VaultLaws world) {schedule : List Bool} {scan : ReceiptScan}
    {hash : String} (known : hash ∈ plan.hashes) :
    Careful world setting plan now (checkMissing setting schedule plan scan hash) := by
  refine careful_request (only_browserDepositNonceConsumed _ _ _ _) fun nonceStatus later takes => ?_
  split
  · rename_i consumed
    obtain ⟨sender, nonce, identity, fruitless⟩ := fruitless_of_consumed laws takes consumed
    refine careful_runtime (fun moment waits => ⟨known, .inr ?_⟩) fun _ _ _ => careful_pure _
    exact ⟨sender, nonce, identity, fruitless moment waits⟩
  · exact careful_pure _

theorem careful_checkReverted {scan : ReceiptScan} {hash : String} {receipt : JsValue}
    (known : hash ∈ plan.hashes) :
    Careful world setting plan now (checkReverted scan hash receipt) := by
  refine careful_request (only_browserRevertedReceiptFinality _ _) fun finality later takes => ?_
  split
  · rename_i finalized
    have reverted := reverted_of_final takes finalized
    refine careful_runtime (fun moment waits => ⟨known, .inl ?_⟩) fun _ _ _ => careful_pure _
    exact reverted _ moment waits
  · exact careful_pure _

theorem careful_checkHash (laws : VaultLaws world) {schedule : List Bool} {scan : ReceiptScan}
    {hash : String} (known : hash ∈ plan.hashes) :
    Careful world setting plan now (checkHash setting schedule plan scan hash) := by
  refine careful_request (only_answer _) fun response later takes => ?_
  dsimp only
  split
  · exact careful_checkMissing laws known
  · split
    · exact careful_fail _
    · split
      · exact careful_checkReverted known
      · exact careful_fail _

theorem careful_checkHashes (laws : VaultLaws world) {schedule : Nat → List Bool}
    {scan : ReceiptScan} {hashes : List String} (known : ∀ hash ∈ hashes, hash ∈ plan.hashes) :
    Careful world setting plan now (checkHashes setting schedule plan scan hashes) := by
  induction hashes generalizing scan now with
  | nil => exact careful_pure _
  | cons hash rest ih =>
      have first : Careful world setting plan now
          (checkHash setting (schedule (rest.length + 1)) plan scan hash) :=
        careful_checkHash laws (known hash List.mem_cons_self)
      exact first.bind fun next time le =>
        ih fun other member => known other (List.mem_cons_of_mem _ member)

theorem careful_checkSubmission (laws : VaultLaws world) {schedule : List Bool}
    {scan : ReceiptScan} :
    Careful world setting plan now (checkSubmission setting schedule plan scan) := by
  unfold checkSubmission
  split
  · rename_i submissionId sender nonce _ named counted
    split
    · exact careful_pure _
    · refine careful_request (only_browserDepositNonceConsumed _ _ _ _) ?_
      intro nonceStatus later takes
      split
      · rename_i consumed
        obtain ⟨owner, own, identity, fruitless⟩ := fruitless_of_consumed laws takes consumed
        refine careful_runtime (fun moment waits => ⟨rfl, owner, own, ?_⟩) fun _ _ _ =>
          careful_pure _
        obtain ⟨rfl, same⟩ := identity_submission identity
        exact ⟨named, by rw [counted, same], fruitless moment waits⟩
      · exact careful_pure _
  · exact careful_pure _

theorem careful_awaitReceipts {pendingHash : String} {missingReceiptHashes : List String} :
    Careful world setting plan now (awaitReceipts pendingHash missingReceiptHashes) := by
  refine careful_runtime (fun _ _ => trivial) fun current _ _ => ?_
  dsimp only
  split
  · refine careful_runtime (fun _ _ => trivial) fun marked _ _ => ?_
    exact careful_runtime (fun _ _ => trivial) fun _ _ _ => careful_pure _
  · exact careful_pure _

theorem careful_checkTransactions (laws : VaultLaws world) {schedule : Nat → List Bool} :
    Careful world setting plan now (checkTransactions setting schedule plan) := by
  refine (careful_checkHashes laws fun _ member => member).bind fun scan _ _ => ?_
  refine (careful_checkSubmission laws).bind fun _ _ _ => ?_
  refine careful_runtime (fun _ _ => trivial) fun _ _ _ => ?_
  split
  · exact careful_awaitReceipts
  · exact careful_runtime (fun _ _ => trivial) fun _ _ _ => careful_pure _

/-- While the page recovers a deposit the chain may grow and change above its settled part, and
requests may fail.  What the page writes down about the deposit is true nevertheless: it
confirms a note that the vault has shown, gives up a slot that no later chain can give back, and
drops a transaction that can never fill its slot in any later chain. -/
theorem recoverDeposit_justified (laws : VaultLaws world) (setting : Setting)
    (schedule : Nat → List Bool) (plan : PendingDeposit) (now : Nat) :
    Safely (Honest world setting) (Justified world plan) (fun _ _ => True) now
      (recoverDeposit setting schedule plan) := by
  refine careful_request (only_readBrowserNote _ _ _) fun note later takes => ?_
  have latest : ∀ time, world.sentsAt time "latest" =
      some (world.timeline.chain time).flatten := fun _ => rfl
  obtain ⟨seen, _, before, rfl⟩ := readBrowserNote_reads latest takes
  refine careful_request (only_lift _) fun own middle lifted => ?_
  obtain ⟨matching, rfl⟩ := takes_lift lifted
  cases own with
  | true => exact careful_confirmRecovered rfl before matching
  | false =>
      rw [if_neg (by decide)]
      split
      · exact careful_resolveConflict laws
      · exact careful_checkTransactions laws

/-- A deposit whose only transaction has failed. -/
def samplePending : PendingDeposit where
  operationId := "operation"
  secret := "secret"
  nextNoteId := 3
  amount := 7
  commitment := 5
  phase := some "submitted"
  submissionId := none
  submissionFrom := none
  submissionNonce := none
  transactionHash := none
  transactionHashes := some [sampleHash]
  transactionAttempts := []

theorem recoverDeposit_justified_sample :
    Safely (Honest (sampleWorld (sampleRecord 0)) sampleSetting)
      (Justified (sampleWorld (sampleRecord 0)) samplePending) (fun _ _ => True) 0
      (recoverDeposit sampleSetting (fun _ => []) samplePending) ∧
    ((recoverDeposit sampleSetting (fun _ => []) samplePending).answered
      (fun _ => sampleAnswer (sampleRecord 0)) []).2.any
        (fun op => op matches .runtime (.markPendingDepositRetryable _)) = true :=
  ⟨recoverDeposit_justified (sampleLaws _) sampleSetting (fun _ => []) samplePending 0,
    by set_option maxRecDepth 20000 in decide⟩

end Safety

end ZkApi.Browser.WalletRpc
