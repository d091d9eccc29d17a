import ZkApi.FinalityFacts

/-!
# Nothing is forgotten too early

The page drops its record of a transaction only after a check of finality.  Whatever chain the
node follows from then on, the transaction that is dropped cannot take effect any more.
-/

namespace ZkApi.Browser.WalletRpc

open Interleaving Expiry Calldata Chains Program

/-- What the vault never does: a slot that is filled keeps its note, and a closed note stays
closed. -/
structure VaultLaws {Effect : Type} (world : World Effect) : Prop where
  kept : ∀ state sent noteId, (world.note state noteId).status.val ≠ 0 →
    (world.note (world.apply state sent) noteId).status.val ≠ 0 ∧
    (world.note (world.apply state sent) noteId).commitment =
      (world.note state noteId).commitment ∧
    (world.note (world.apply state sent) noteId).amount = (world.note state noteId).amount
  closed : ∀ state sent noteId, (world.note state noteId).status.val = NoteStatus.closed.code →
    (world.note (world.apply state sent) noteId).status.val = NoteStatus.closed.code

section Laws

variable {Effect : Type} {world : World Effect} {setting : Setting} {now later time block : Nat}

theorem VaultLaws.filled (laws : VaultLaws world) (noteId : Nat) :
    Keeps world.apply fun state => (world.note state noteId).status.val ≠ 0 :=
  fun state sent filled => (laws.kept state sent noteId filled).1

/-- The slot holds a note with a commitment and an amount. -/
def World.Holds (world : World Effect) (noteId commitment amount : Nat) (state : world.State) :
    Prop :=
  (world.note state noteId).status.val ≠ 0 ∧
    (world.note state noteId).commitment.val = commitment ∧
    (world.note state noteId).amount.val = amount

theorem VaultLaws.holds (laws : VaultLaws world) (noteId commitment amount : Nat) :
    Keeps world.apply (world.Holds noteId commitment amount) := by
  rintro state sent ⟨filled, own, same⟩
  obtain ⟨still, kept, keptAmount⟩ := laws.kept state sent noteId filled
  exact ⟨still, by rw [kept, own], by rw [keptAmount, same]⟩

/-- Another note in the slot stays there. -/
theorem VaultLaws.others (laws : VaultLaws world) (noteId commitment amount : Nat) :
    Keeps world.apply fun state => (world.note state noteId).status.val ≠ 0 ∧
      ¬ world.Holds noteId commitment amount state := by
  rintro state sent ⟨filled, other⟩
  obtain ⟨still, kept, keptAmount⟩ := laws.kept state sent noteId filled
  refine ⟨still, fun holds => other ⟨filled, ?_, ?_⟩⟩
  · rw [← kept]
    exact holds.2.1
  · rw [← keptAmount]
    exact holds.2.2

/-- A settled block shows the same note at every later moment. -/
theorem World.noteAt_eq (world : World Effect) {read noteId : Nat}
    (settled : block ≤ world.timeline.settled time) (waits : time ≤ read) (le : time ≤ later) :
    world.noteAt later block noteId = world.noteAt read block noteId := by
  rw [World.noteAt, World.noteAt, world.timeline.upTo_read settled waits le]

end Laws

section Samples

/-- An account that has sent one transaction. -/
def sampleSender : String := "0xaaaaaaaaaaaaaaaaaaaaaaaaaaaaaaaaaaaaaaaa"

def sampleHash : String := "0xbbbbbbbbbbbbbbbbbbbbbbbbbbbbbbbbbbbbbbbbbbbbbbbbbbbbbbbbbbbbbbbb"

def sampleSent : Sent String Unit where
  sender := sampleSender
  nonce := 0
  effect := ()

/-- A chain of one settled block with one failed transaction, and a vault with one record. -/
def sampleWorld (record : NoteRecord) : World Unit where
  timeline := {
    chain := fun _ => [[sampleSent]]
    settled := fun _ => 1
    stays := fun _ => rfl
    ordered := fun _ => by
      intro before sent after split
      cases before with
      | nil =>
          cases split
          rfl
      | cons first before => cases before <;> cases split }
  State := Unit
  initial := ()
  effect _ _ := ()
  note _ _ := record
  hash _ := sampleHash
  succeeds _ _ := false
  hashed _ sent member other also _ := by
    cases List.mem_singleton.mp member
    cases List.mem_singleton.mp also
    exact ⟨rfl, rfl⟩

theorem sampleLaws (record : NoteRecord) : VaultLaws (sampleWorld record) where
  kept _ _ _ filled := ⟨filled, rfl, rfl⟩
  closed _ _ _ closed := closed

def sampleReceipt : JsValue :=
  .object [("blockNumber", .text "0x1"), ("status", .text "0x0")]

/-- What the node of the sample world answers. -/
def sampleAnswer (record : NoteRecord) : (op : Op) → Resp op
  | .request .finalizedBlock => .ok (.object [("number", .text "0x1")])
  | .request (.transactionCount account blockTag) =>
      .ok (.integer (sentBy (lowerCase account) (upTo [[sampleSent]] (blockOf blockTag))))
  | .request (.call _ _ _) => .ok record.encode
  | .request (.transactionReceipt (.text hash)) =>
      .ok (if lowerCase hash = sampleHash then sampleReceipt else .null)
  | .request _ => .ok .null
  | .runtime _ => .ok none
  | .prepared _ _ => .ok ()
  | .submitted _ => .ok ()
  | .sleep _ => ()

def sampleSetting : Setting where
  chainId := none
  networkName := "Local Anvil"
  vault := sampleSender

def sampleAttempt : TransactionAttempt where
  sender := some sampleSender
  nonce := some (.integer 0)

def sampleRecord (status : Word) : NoteRecord where
  commitment := 5
  amount := 7
  expiryTs := 9
  status := status

def run {α : Type} (record : NoteRecord) (program : Page α) : Except Failure α :=
  (program.answered (fun _ => sampleAnswer record) []).1

theorem sampleAnswer_honest (record : NoteRecord) :
    ∀ op, Honest (sampleWorld record) sampleSetting 0 op (sampleAnswer record op) := by
  intro op
  cases op with
  | request asked =>
      cases asked with
      | finalizedBlock =>
          intro tag found
          have known : finalizedNumber (.object [("number", .text "0x1")]) = some "0x1" := by
            decide
          have one : blockOf "0x1" ≤ 1 := by decide
          rw [known] at found
          cases found
          exact one
      | transactionCount account blockTag =>
          intro block nonce read counted
          have same : blockOf blockTag = block := by
            rw [blockOf, read]
            rfl
          rw [walletNonceNumber, nonceWithin, safeNumber] at counted
          split at counted
          · cases counted
            rw [same]
            rfl
          · cases counted
      | call target data blockTag => exact fun _ _ _ _ _ _ _ => rfl
      | transactionReceipt hash =>
          cases hash with
          | text hash =>
              intro truthy block status placed stated
              by_cases named : lowerCase hash = sampleHash
              · rw [if_pos named] at placed stated
                have one : bigIntOf (sampleReceipt.fieldOr "blockNumber" (.text "0x0")) =
                    some 1 := by
                  decide
                have zero : bigIntOf (sampleReceipt.fieldOr "status" (.text "0x1")) = some 0 := by
                  decide
                rw [one] at placed
                rw [zero] at stated
                cases stated
                obtain rfl : block = 1 := by
                  have same := Option.some.inj placed
                  omega
                exact ⟨[], sampleSent, [], rfl, named.symm, by simp [sampleWorld]⟩
              · rw [if_neg named] at truthy
                cases truthy
          | _ => trivial
      | blockNumber =>
          intro head found
          cases found
      | _ => trivial
  | _ => trivial

/-- A run in the sample world that is found to hold. -/
theorem takes_sample {α : Type} {record : NoteRecord} {program : Page (Checked α)} {block : Nat}
    (found : (run record program).toOption.map (fun result =>
      (result.holds, result.checkedBlock)) = some (true, block)) :
    ∃ result, Takes (Honest (sampleWorld record) sampleSetting) 0 program (.ok result) 0 ∧
      result.holds = true ∧ result.checkedBlock = block := by
  have takes := takes_answered (fun _ => sampleAnswer_honest record) program []
  change Takes _ 0 program (run record program) 0 at takes
  cases outcome : run record program with
  | error failure =>
      rw [outcome] at found
      cases found
  | ok result =>
      rw [outcome] at takes found
      simp only [Except.toOption, Option.map_some, Option.some.injEq, Prod.mk.injEq] at found
      exact ⟨result, takes, found⟩

end Samples

section Deposits

variable {Effect : Type} {world : World Effect} {setting : Setting} {now later : Nat}

/-- When the nonce of a deposit counts as consumed, its transaction is settled without having
filled the slot.  In no later chain can it ever create the note. -/
theorem browserDepositNonceConsumed_final (laws : VaultLaws world) {schedule : List Bool}
    {transactionAttempt : TransactionAttempt} {noteId : Nat} {result : Checked BrowserNote}
    (takes : Takes (Honest world setting) now
      (browserDepositNonceConsumed setting schedule transactionAttempt noteId) (.ok result) later)
    (consumed : result.holds = true) :
    ∃ sender nonce, transactionAttempt.identity = some (sender, nonce) ∧ ∀ time ≥ later,
      Consumed world time sender nonce result.checkedBlock ∧
      ∀ before sent after, (world.timeline.chain time).flatten = before ++ sent :: after →
        sent.sender = lowerCase sender → sent.nonce = nonce →
        (world.note (world.after (before ++ [sent])) noteId).status.val = 0 := by
  obtain ⟨sender, nonce, seen, known, empty, settled⟩ :=
    nonceConsumed_settled (by simp [closeFinalityFallbackBlocks]) takes consumed
  refine ⟨sender, nonce, known, fun time le => ?_⟩
  have gone := settled.consumed le
  refine ⟨gone, fun before sent after split own place => ?_⟩
  obtain ⟨start, _, began, ends, blockTag, _, _, waits, ended, _, block, fixed, _, read⟩ :=
    settled.found
  obtain ⟨moment, began, finished, same⟩ := readBrowserNote_reads (world.sentsAt_hex block) read
  have unfilled : (world.noteAt time result.checkedBlock noteId).status.val = 0 := by
    rw [world.noteAt_eq fixed (waits.trans began) (by omega), World.noteAt]
    rw [same] at empty
    simpa [BrowserNote.ofRecord] using empty
  by_contra filled
  exact (laws.filled noteId).later (gone.within before sent after split own place) filled unfilled

/-- A conflict that is found is one in the vault. -/
theorem conflicts_record {plan : SlotPlan} {note : BrowserNote} {record : NoteRecord}
    (same : note = .ofRecord plan.nextNoteId record)
    (conflicting : conflicts plan note = .ok true) :
    record.status.val ≠ 0 ∧ ¬ (record.status.val ≠ 0 ∧ record.commitment.val = plan.commitment ∧
      record.amount.val = plan.amount) := by
  subst same
  unfold conflicts at conflicting
  split at conflicting
  · cases conflicting
  · rename_i filled
    refine ⟨filled, ?_⟩
    rintro ⟨_, own, amount⟩
    split at conflicting
    · rename_i other
      exact other amount
    · rw [BrowserNote.ofRecord, wordNumber_word, own] at conflicting
      simp [pure, Except.pure, bind, Except.bind] at conflicting

open List in
/-- When the slot of a plan is finally taken by another note, no chain from then on has the note
of the plan in it after any of its transactions. -/
theorem browserDepositSlotConflictFinality_final (laws : VaultLaws world) {plan : SlotPlan}
    {result : Checked BrowserNote}
    (takes : Takes (Honest world setting) now
      (browserDepositSlotConflictFinality setting plan) (.ok result) later)
    (finalized : result.holds = true) :
    ∀ time ≥ later, ∀ sents, sents <+: (world.timeline.chain time).flatten →
      ¬ world.Holds plan.nextNoteId plan.commitment plan.amount (world.after sents) := by
  intro time le sents initial
  obtain ⟨⟨tag, source⟩, middle, first, rest⟩ := takes_seq takes
  cases tag with
  | none =>
      obtain ⟨same, _⟩ := takes_pure.mp rest
      cases same
      cases finalized
  | some blockTag =>
      obtain ⟨start, _, waits, settled, block⟩ :=
        finalityTag_settled first (by simp [closeFinalityFallbackBlocks])
      obtain ⟨outcome, reached, second, third⟩ := takes_seq rest
      cases outcome with
      | none =>
          obtain ⟨same, _⟩ := takes_pure.mp third
          cases same
          cases finalized
      | some outcome =>
          obtain ⟨note, conflict⟩ := outcome
          obtain ⟨same, rfl⟩ := takes_pure.mp third
          cases same
          obtain ⟨found, between, read, decided⟩ := takes_seq (takes_tried second)
          obtain ⟨decision, _, lifted, last⟩ := takes_seq decided
          obtain ⟨conflicting, rfl⟩ := takes_lift lifted
          obtain ⟨same, rfl⟩ := takes_pure.mp last
          cases same
          obtain ⟨moment, began, ended, same⟩ := readBrowserNote_reads (world.sentsAt_hex block) read
          have taken := conflicts_record same (conflicting.trans (congrArg _ finalized))
          have fixed : world.noteAt time (blockOf blockTag) plan.nextNoteId =
              world.noteAt moment (blockOf blockTag) plan.nextNoteId :=
            world.noteAt_eq settled (waits.trans began) (by omega)
          rw [World.noteAt, World.noteAt] at fixed
          rw [← fixed] at taken
          have whole := upTo_prefix (world.timeline.chain time) (blockOf blockTag)
          intro holds
          rcases prefix_or_prefix_of_prefix initial whole with short | long
          · exact taken.2 ((laws.holds _ _ _).later short holds)
          · exact ((laws.others _ _ _).later long taken).2 holds

end Deposits

section Receipts

theorem revertedStill_true {receipt canonicalReceipt : JsValue}
    (reverted : revertedStill receipt canonicalReceipt = .ok true) :
    canonicalReceipt.truthy = true ∧ ∃ status : Int,
      bigIntOf (canonicalReceipt.fieldOr "blockNumber" (.text "0x0")) =
        some (receiptBlockOf receipt : Int) ∧
      bigIntOf (canonicalReceipt.fieldOr "status" (.text "0x1")) = some status ∧ status ≠ 1 := by
  unfold revertedStill at reverted
  split at reverted
  · cases reverted
  · rename_i truthy
    split at reverted
    · cases reverted
    · rename_i block placed
      dsimp only at reverted
      split at reverted
      · cases reverted
      · rename_i same
        split at reverted
        · cases reverted
        · rename_i status stated
          refine ⟨by simpa using truthy, status, ?_, stated, by simpa using reverted⟩
          rw [placed, not_not.mp fun other => same (.inl other)]

end Receipts

section Withdrawals

variable {Effect : Type} {world : World Effect} {setting : Setting} {now later : Nat}

/-- When the nonce of a withdrawal attempt counts as consumed, its transaction is settled, and
the expected status is that of the vault after it, in every later chain. -/
theorem browserTransactionNonceConsumed_final {schedule : List Bool}
    {transactionAttempt : TransactionAttempt} {noteId : Option Nat}
    {expectedStatuses : List NoteStatus} {observedBlock : Nat} {result : Checked WithdrawalStatus}
    (observed : observedBlock - closeFinalityFallbackBlocks ≤ world.timeline.settled now)
    (takes : Takes (Honest world setting) now
      (browserTransactionNonceConsumed setting schedule transactionAttempt noteId expectedStatuses
        observedBlock) (.ok result) later)
    (consumed : result.holds = true) :
    ∃ sender nonce note, ∃ status ∈ expectedStatuses,
      transactionAttempt.identity = some (sender, nonce) ∧ noteId = some note ∧
      ∀ time ≥ later, Consumed world time sender nonce result.checkedBlock ∧
        (world.noteAt time result.checkedBlock note).status.val = status.code := by
  unfold browserTransactionNonceConsumed at takes
  obtain ⟨sender, nonce, seen, known, expected, settled⟩ :=
    nonceConsumed_settled observed takes consumed
  split at known
  · rename_i usable
    have expected : seen.status ∈ expectedStatuses := by simpa using expected
    have real : seen.status ≠ .noNote := by
      rcases usable.2.2 _ expected with same | same <;> simp [same]
    obtain ⟨start, _, began, ends, blockTag, _, _, waits, ended, _, block, fixed, _, read⟩ :=
      settled.found
    obtain ⟨note, moment, named, begun, finished, same⟩ :=
      readBrowserWithdrawalStatus_reads block real read
    refine ⟨sender, nonce, note, seen.status, expected, known, named, fun time le => ?_⟩
    refine ⟨settled.consumed le, ?_⟩
    rw [world.noteAt_eq fixed (waits.trans begun) (by omega), same]
  · cases known

theorem browserTransactionNonceConsumed_final_sample :
    ∃ sender nonce note, ∃ status ∈ [NoteStatus.active],
      sampleAttempt.identity = some (sender, nonce) ∧ some 3 = some note ∧
      ∀ time ≥ 0, Consumed (sampleWorld (sampleRecord 1)) time sender nonce 1 ∧
        ((sampleWorld (sampleRecord 1)).noteAt time 1 note).status.val = status.code := by
  obtain ⟨result, takes, holds, same⟩ : ∃ result, Takes
      (Honest (sampleWorld (sampleRecord 1)) sampleSetting) 0
      (browserTransactionNonceConsumed sampleSetting [] sampleAttempt (some 3) [.active] 0)
      (.ok result) 0 ∧ result.holds = true ∧ result.checkedBlock = 1 :=
    takes_sample (by set_option maxRecDepth 20000 in decide)
  have final := browserTransactionNonceConsumed_final (by decide) takes holds
  rw [same] at final
  exact final

/-- When a transition is final, the block that shows it is not before the transition, and shows
it in every later chain.  A note that is closed there is closed at every later block. -/
theorem browserWithdrawalStateFinality_final (laws : VaultLaws world) {noteId : Option Nat}
    {expectedStatus : NoteStatus} {transitionBlock observedBlock : Nat}
    {result : Checked WithdrawalStatus}
    (observed : observedBlock - closeFinalityFallbackBlocks ≤ world.timeline.settled now)
    (takes : Takes (Honest world setting) now
      (browserWithdrawalStateFinality setting noteId expectedStatus transitionBlock observedBlock)
      (.ok result) later)
    (finalized : result.holds = true) :
    transitionBlock ≤ result.checkedBlock ∧ ∃ note, noteId = some note ∧ ∀ time ≥ later,
      (world.noteAt time result.checkedBlock note).status.val = expectedStatus.code ∧
      (expectedStatus = .closed → ∀ block ≥ result.checkedBlock,
        (world.noteAt time block note).status.val = NoteStatus.closed.code) := by
  unfold browserWithdrawalStateFinality at takes
  split at takes
  · obtain ⟨same, _⟩ := takes_pure.mp takes
    cases same
    cases finalized
  · rename_i sensible
    obtain ⟨⟨tag, source⟩, middle, first, rest⟩ := takes_seq takes
    cases tag with
    | none =>
        obtain ⟨same, _⟩ := takes_pure.mp rest
        cases same
        cases finalized
    | some blockTag =>
        obtain ⟨start, _, waits, settled, block⟩ := finalityTag_settled first observed
        dsimp only at rest
        split at rest
        · obtain ⟨same, _⟩ := takes_pure.mp rest
          cases same
          cases finalized
        · rename_i late
          obtain ⟨outcome, reached, second, third⟩ := takes_seq rest
          cases outcome with
          | none =>
              obtain ⟨same, _⟩ := takes_pure.mp third
              cases same
              cases finalized
          | some status =>
              obtain ⟨same, rfl⟩ := takes_pure.mp third
              cases same
              have expected : status.status = expectedStatus := by simpa using finalized
              have real : status.status ≠ .noNote := by
                rw [expected]
                rintro rfl
                simp at sensible
              obtain ⟨note, moment, named, began, ended, same⟩ :=
                readBrowserWithdrawalStatus_reads block real (takes_tried second)
              refine ⟨Nat.le_of_not_lt late, note, named, fun time le => ?_⟩
              have shown : (world.noteAt time (blockOf blockTag) note).status.val =
                  expectedStatus.code := by
                rw [world.noteAt_eq settled (waits.trans began) (by omega), same, expected]
              refine ⟨shown, ?_⟩
              rintro rfl others more
              have longer : upTo (world.timeline.chain time) (blockOf blockTag) <+:
                  upTo (world.timeline.chain time) others := upTo_mono _ more
              have keeps : Keeps world.apply fun state =>
                  (world.note state note).status.val = NoteStatus.closed.code :=
                fun state sent => laws.closed state sent note
              exact keeps.later longer shown

theorem browserWithdrawalStateFinality_final_sample :
    1 ≤ 1 ∧ ∃ note, some 3 = some note ∧ ∀ time ≥ 0,
      ((sampleWorld (sampleRecord 3)).noteAt time 1 note).status.val = NoteStatus.closed.code ∧
      (NoteStatus.closed = .closed → ∀ block ≥ 1,
        ((sampleWorld (sampleRecord 3)).noteAt time block note).status.val =
          NoteStatus.closed.code) := by
  obtain ⟨result, takes, holds, same⟩ : ∃ result, Takes
      (Honest (sampleWorld (sampleRecord 3)) sampleSetting) 0
      (browserWithdrawalStateFinality sampleSetting (some 3) .closed 1 0) (.ok result) 0 ∧
      result.holds = true ∧ result.checkedBlock = 1 :=
    takes_sample (by set_option maxRecDepth 20000 in decide)
  have final := browserWithdrawalStateFinality_final (sampleLaws _) (by decide) takes holds
  rw [same] at final
  exact final

/-- The block of a reverted receipt is settled from some moment of the check on. -/
theorem finalizedBlockNumber_settled {checkedBlock : Nat} {source : String}
    (takes : Takes (Honest world setting) now finalizedBlockNumber
      (.ok (checkedBlock, source)) later) :
    ∃ time, now ≤ time ∧ time ≤ later ∧ checkedBlock ≤ world.timeline.settled time := by
  obtain ⟨block, middle, first, second⟩ := takes_seq takes
  obtain ⟨waits, response, honest, same⟩ := takes_answer.mp first
  cases same
  dsimp only at second
  split at second
  · rename_i known
    obtain ⟨same, rfl⟩ := takes_pure.mp second
    cases same
    refine ⟨later, waits, le_rfl, ?_⟩
    cases found : finalizedOf block with
    | none => simp
    | some tag =>
        cases block with
        | error failure => cases found
        | ok block => exact honest tag found
  · obtain ⟨latest, reached, third, fourth⟩ := takes_seq second
    obtain ⟨waitsMore, response, honest, same⟩ := takes_answer.mp third
    cases same
    obtain ⟨same, rfl⟩ := takes_pure.mp fourth
    cases same
    refine ⟨later, waits.trans waitsMore, le_rfl, ?_⟩
    cases found : headOf latest with
    | none => simp [closeFinalityFallbackBlocks]
    | some head =>
        cases latest with
        | error failure => cases found
        | ok latest => exact honest head found

/-- A receipt that still shows the revert of a settled block is true for good. -/
theorem reverted_settled {transactionHash : String} {receipt canonicalReceipt : JsValue}
    {start moment time block : Nat} (settled : block ≤ world.timeline.settled start)
    (waits : start ≤ moment) (le : start ≤ time) (early : receiptBlockOf receipt ≤ block)
    (honest : Honest world setting moment
      (.request (.transactionReceipt (.text transactionHash))) (.ok canonicalReceipt))
    (reverted : revertedStill receipt canonicalReceipt = .ok true) :
    (∃ before sent after, (world.timeline.chain time).flatten = before ++ sent :: after ∧
      world.hash sent = lowerCase transactionHash) ∧
    ∀ before sent after, (world.timeline.chain time).flatten = before ++ sent :: after →
      world.hash sent = lowerCase transactionHash →
      before ++ [sent] <+: upTo (world.timeline.chain time) (receiptBlockOf receipt) ∧
        world.succeeds (world.after before) sent = false := by
  obtain ⟨truthy, status, placed, stated, failed⟩ := revertedStill_true reverted
  obtain ⟨before, sent, after, split, named, outcome⟩ := honest truthy _ status placed stated
  have fixed : upTo (world.timeline.chain time) (receiptBlockOf receipt) =
      upTo (world.timeline.chain moment) (receiptBlockOf receipt) :=
    world.timeline.upTo_read (early.trans settled) waits le
  obtain ⟨rest, whole⟩ := upTo_prefix (world.timeline.chain time) (receiptBlockOf receipt)
  rw [fixed, split, List.append_assoc, List.cons_append] at whole
  have lost : world.succeeds (world.after before) sent = false := by
    rw [← Bool.not_eq_true, outcome]
    exact failed
  refine ⟨⟨before, sent, _, whole.symm, named⟩, fun front other behind otherSplit otherNamed => ?_⟩
  have own := world.hashed time other (by rw [otherSplit]; simp) sent (by rw [← whole]; simp)
    (otherNamed.trans named.symm)
  have same := (world.timeline.ordered time).unique whole.symm otherSplit own.1 own.2
  subst same
  obtain ⟨rfl, _⟩ := List.cons.inj (List.append_cancel_left (otherSplit.symm.trans whole.symm))
  refine ⟨?_, lost⟩
  rw [fixed, split]
  exact ⟨after, by rw [List.append_assoc]; rfl⟩

/-- When a revert is final, the transaction failed in the settled part of the chain, and no
later chain has it anywhere else or with another outcome. -/
theorem browserRevertedReceiptFinality_final {transactionHash : String} {receipt : JsValue}
    {result : Checked JsValue}
    (takes : Takes (Honest world setting) now
      (browserRevertedReceiptFinality transactionHash receipt) (.ok result) later)
    (finalized : result.holds = true) :
    receiptBlockOf receipt ≤ result.checkedBlock ∧ ∀ time ≥ later,
      (∃ before sent after, (world.timeline.chain time).flatten = before ++ sent :: after ∧
        world.hash sent = lowerCase transactionHash) ∧
      ∀ before sent after, (world.timeline.chain time).flatten = before ++ sent :: after →
        world.hash sent = lowerCase transactionHash →
        before ++ [sent] <+: upTo (world.timeline.chain time) (receiptBlockOf receipt) ∧
          world.succeeds (world.after before) sent = false := by
  unfold browserRevertedReceiptFinality at takes
  dsimp only at takes
  split at takes
  · obtain ⟨same, _⟩ := takes_pure.mp takes
    cases same
    cases finalized
  · split at takes
    · obtain ⟨impossible, _⟩ := takes_fail.mp takes
      cases impossible
    · split at takes
      · obtain ⟨same, _⟩ := takes_pure.mp takes
        cases same
        cases finalized
      · obtain ⟨⟨checkedBlock, source⟩, middle, first, rest⟩ := takes_seq takes
        obtain ⟨start, _, waits, settled⟩ := finalizedBlockNumber_settled first
        dsimp only at rest
        split at rest
        · obtain ⟨same, _⟩ := takes_pure.mp rest
          cases same
          cases finalized
        · rename_i late
          obtain ⟨outcome, reached, second, third⟩ := takes_seq rest
          cases outcome with
          | none =>
              obtain ⟨same, _⟩ := takes_pure.mp third
              cases same
              cases finalized
          | some outcome =>
              obtain ⟨canonicalReceipt, still⟩ := outcome
              obtain ⟨same, rfl⟩ := takes_pure.mp third
              cases same
              obtain ⟨found, moment, asked, decided⟩ := takes_seq (takes_tried second)
              obtain ⟨decision, _, lifted, last⟩ := takes_seq decided
              obtain ⟨reverted, rfl⟩ := takes_lift lifted
              obtain ⟨same, rfl⟩ := takes_pure.mp last
              cases same
              obtain ⟨began, honest⟩ := takes_ask asked
              have early := Nat.le_of_not_lt late
              refine ⟨early, fun time le => ?_⟩
              exact reverted_settled settled (waits.trans began) (by omega) early honest
                (reverted.trans (congrArg _ finalized))

end Withdrawals

end ZkApi.Browser.WalletRpc
