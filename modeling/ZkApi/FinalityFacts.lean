import ZkApi.FinalityChecks

/-!
# What a check of finality settles

A node follows a chain whose settled part does not change.  It answers from the chain that it
follows at the moment, and its answers may fail at any time.  If a check nevertheless holds, no
later chain can undo what it has found.
-/

namespace ZkApi.Browser.WalletRpc

open Interleaving Indexer Expiry Calldata Chains Program

section Nodes

/-- A word of the vault. -/
abbrev Word := Fin (2 ^ 256)

/-- A note in the state of the vault. -/
structure NoteRecord where
  commitment : Word
  amount : Word
  expiryTs : Word
  status : Word

/-- The words of a record. -/
def NoteRecord.words (record : NoteRecord) : List (List Char) :=
  [record.commitment, record.amount, record.expiryTs, record.status].map fun word =>
    padStart 64 (Nat.toDigits 16 word.val)

/-- The answer to a call that returns a record. -/
def NoteRecord.encode (record : NoteRecord) : JsValue :=
  .text (String.ofList ('0' :: 'x' :: record.words.flatten))

/-- The chain that a node follows, and the vault on it. -/
structure World (Effect : Type) where
  timeline : Timeline String Effect
  State : Type
  initial : State
  effect : State → Sent String Effect → State
  note : State → Nat → NoteRecord
  hash : Sent String Effect → String
  succeeds : State → Sent String Effect → Bool
  hashed : ∀ time, ∀ sent ∈ (timeline.chain time).flatten,
    ∀ other ∈ (timeline.chain time).flatten, hash sent = hash other →
      sent.sender = other.sender ∧ sent.nonce = other.nonce

variable {Effect : Type}

/-- A transaction that fails changes nothing. -/
def World.apply (world : World Effect) (state : world.State) (sent : Sent String Effect) :
    world.State :=
  if world.succeeds state sent then world.effect state sent else state

theorem World.apply_failed (world : World Effect) {state : world.State}
    {sent : Sent String Effect} (failed : world.succeeds state sent = false) :
    world.apply state sent = state := by
  rw [World.apply, if_neg (by simp [failed])]

/-- The state of the vault after some transactions. -/
def World.after (world : World Effect) (sents : List (Sent String Effect)) : world.State :=
  stateAfter world.apply world.initial sents

/-- The record of a note at a block of the chain of a moment. -/
def World.noteAt (world : World Effect) (time block noteId : Nat) : NoteRecord :=
  world.note (world.after (upTo (world.timeline.chain time) block)) noteId

/-- The transactions before the state that a block tag stands for. -/
def World.sentsAt (world : World Effect) (time : Nat) (blockTag : String) :
    Option (List (Sent String Effect)) :=
  if blockTag = "latest" then some (world.timeline.chain time).flatten
  else (hexQuantity blockTag).map (upTo (world.timeline.chain time))

theorem World.sentsAt_hex (world : World Effect) {blockTag : String} {block : Nat}
    (read : hexQuantity blockTag = some block) (time : Nat) :
    world.sentsAt time blockTag = some (upTo (world.timeline.chain time) block) := by
  have other : blockTag ≠ "latest" := by
    rintro rfl
    have none : hexQuantity "latest" = none := by decide
    rw [none] at read
    cases read
  rw [sentsAt, if_neg other, read]
  rfl

/-- What a node answers at a moment.  A request may always fail.  A finalized block is settled,
and so is every block that is deep enough below the head.  State is read at the block that was
asked for, and a receipt tells where a transaction is and whether it succeeded. -/
def Honest (world : World Effect) (setting : Setting) (time : Nat) : (op : Op) → Resp op → Prop
  | .request .finalizedBlock, .ok block => ∀ tag, finalizedNumber block = some tag →
      blockOf tag ≤ world.timeline.settled time
  | .request .blockNumber, .ok latest => ∀ head, headNumber latest = some head →
      head - closeFinalityFallbackBlocks ≤ world.timeline.settled time
  | .request (.transactionCount account blockTag), .ok count =>
      ∀ block nonce, hexQuantity blockTag = some block → walletNonceNumber count = some nonce →
        nonce = sentBy (lowerCase account) (upTo (world.timeline.chain time) block)
  | .request (.call target data blockTag), .ok encoded =>
      ∀ sents noteId word, world.sentsAt time blockTag = some sents → target = setting.vault →
        abiWord (.integer noteId) = .ok word → data = callData notesSelector [word] →
        encoded = (world.note (world.after sents) noteId).encode
  | .request (.transactionReceipt (.text hash)), .ok receipt => receipt.truthy = true →
      ∀ block : Nat, ∀ status : Int,
        bigIntOf (receipt.fieldOr "blockNumber" (.text "0x0")) = some (block : Int) →
        bigIntOf (receipt.fieldOr "status" (.text "0x1")) = some status →
        ∃ before sent after, upTo (world.timeline.chain time) block = before ++ sent :: after ∧
          world.hash sent = lowerCase hash ∧
          (world.succeeds (world.after before) sent = true ↔ status = 1)
  | _, _ => True

end Nodes

section Words

theorem length_toDigits_word (word : Word) : (Nat.toDigits 16 word.val).length ≤ 64 := by
  rw [Nat.length_toDigits_le_iff (by omega) (by omega)]
  exact word.isLt

theorem length_padStart {width : Nat} {digits : List Char} (short : digits.length ≤ width) :
    (padStart width digits).length = width := by
  rw [padStart, List.length_append, List.length_replicate]
  omega

/-- A text of whole words is cut into them. -/
theorem wordTexts_flatten (words : List (List Char)) (whole : ∀ word ∈ words, word.length = 64)
    (count : Nat) (enough : words.length ≤ count) : wordTexts count words.flatten = words := by
  induction words generalizing count with
  | nil => cases count <;> rfl
  | cons word words ih =>
      cases count with
      | zero => cases enough
      | succ count =>
          have length := whole word List.mem_cons_self
          rw [wordTexts, if_neg (by simp [length]), List.flatten_cons, ← length,
            List.take_left, List.drop_left,
            ih (fun other member => whole other (List.mem_cons_of_mem _ member)) count
              (Nat.le_of_succ_le_succ enough)]

theorem wordNumber_word (word : Word) :
    wordNumber (padStart 64 (Nat.toDigits 16 word.val)) = .ok word.val := by
  obtain ⟨digits, read, same⟩ := mapM_toDigits word.val
  rw [wordNumber, mapM_padStart read]
  dsimp only
  rw [number_zeros, same]

/-- The words of a record are read back. -/
theorem answerWords_encode (record : NoteRecord) :
    answerWords record.encode = record.words := by
  have whole : ∀ word ∈ record.words, word.length = 64 := by
    intro word member
    obtain ⟨number, _, rfl⟩ := List.mem_map.mp member
    exact length_padStart (length_toDigits_word number)
  have some : (record.encode).truthy = true := by
    simp [NoteRecord.encode, JsValue.truthy]
  have digits : strip0x (if record.encode.truthy then record.encode.toText.toList else []) =
      record.words.flatten := by
    rw [if_pos some, NoteRecord.encode, JsValue.toText, String.toList_ofList, strip0x]
  rw [answerWords, digits]
  apply wordTexts_flatten _ whole
  have four : record.words.length = 4 := rfl
  have long := List.length_flatten (L := record.words)
  rw [List.map_congr_left whole, List.map_const', List.sum_replicate, four] at long
  rw [four, long]
  decide

/-- What the page should read of a record. -/
def BrowserNote.ofRecord (noteId : Nat) (record : NoteRecord) : BrowserNote where
  noteId := noteId
  commitment := padStart 64 (Nat.toDigits 16 record.commitment.val)
  amount := record.amount.val
  expiryTs := record.expiryTs.val
  status := record.status.val

/-- A note is read back as it is in the vault. -/
theorem decodeNote_encode (noteId : Nat) (record : NoteRecord) :
    decodeNote noteId (answerWords record.encode) = .ok (.ofRecord noteId record) := by
  rw [answerWords_encode, NoteRecord.words]
  simp only [List.map_cons, List.map_nil, decodeNote, wordNumber_word]
  rfl

theorem statusWord_encode (record : NoteRecord) :
    statusWord (answerWords record.encode) = .ok record.status.val := by
  rw [answerWords_encode, NoteRecord.words]
  simp only [List.map_cons, List.map_nil, statusWord, wordNumber_word]

theorem hexQuantity_hexText (value : Nat) : hexQuantity (hexText value) = some value := by
  obtain ⟨digits, read, same⟩ := mapM_toDigits value
  have some : (Nat.toDigits 16 value).isEmpty = false := by
    rw [← Bool.not_eq_true, List.isEmpty_iff, ← List.length_eq_zero_iff]
    have positive := Nat.length_toDigits_pos (b := 16) (n := value)
    omega
  rw [hexQuantity, hexText, String.toList_ofList]
  simp only [some, read]
  simp only [Bool.false_eq_true, if_false, Option.map_some]
  exact congrArg _ same

theorem blockOf_hexText (value : Nat) : blockOf (hexText value) = value := by
  rw [blockOf, hexQuantity_hexText]
  rfl

end Words

section Reads

variable {Effect : Type} {world : World Effect} {setting : Setting} {now later : Nat}

theorem takes_answer {asked : Request} {result : Except Failure (Except WalletFailure JsValue)} :
    Takes (Honest world setting) now (answer asked) result later ↔ now ≤ later ∧
      ∃ response, Honest world setting later (.request asked) response ∧ result = .ok response :=
  takes_call

/-- A value that was asked for and received. -/
theorem takes_ask {asked : Request} {value : JsValue}
    (takes : Takes (Honest world setting) now (ask asked) (.ok value) later) :
    now ≤ later ∧ Honest world setting later (.request asked) (.ok value) := by
  rw [ask, takes_bind] at takes
  rcases takes with ⟨response, middle, first, second⟩ | ⟨_, impossible, _⟩
  · obtain ⟨waits, _, honest, same⟩ := takes_answer.mp first
    cases same
    cases response with
    | ok found =>
        obtain ⟨same, rfl⟩ := takes_pure.mp second
        cases same
        exact ⟨waits, honest⟩
    | error failure =>
        obtain ⟨impossible, _⟩ := takes_fail.mp second
        cases impossible
  · cases impossible

theorem takes_lift {α : Type} {given : Except Failure α} {value : α}
    (takes : Takes (Honest world setting) now (lift given : Page α) (.ok value) later) :
    given = .ok value ∧ later = now := by
  cases given with
  | ok found =>
      obtain ⟨same, le⟩ := takes_pure.mp takes
      cases same
      exact ⟨rfl, le⟩
  | error failure =>
      obtain ⟨impossible, _⟩ := takes_fail.mp takes
      cases impossible

theorem takes_tried {α : Type} {read : Page α} {value : α}
    (takes : Takes (Honest world setting) now (tried read) (.ok (some value)) later) :
    Takes (Honest world setting) now read (.ok value) later := by
  simp only [tried, takes_bind, takes_attempt, Except.ok.injEq, exists_eq_left'] at takes
  rcases takes with ⟨outcome, middle, first, second⟩ | ⟨_, impossible, _⟩
  · cases outcome with
    | ok found =>
        obtain ⟨same, rfl⟩ := takes_pure.mp second
        cases same
        exact first
    | error failure =>
        obtain ⟨impossible, _⟩ := takes_pure.mp second
        cases impossible
  · cases impossible

theorem finalizedNumber_block {block : JsValue} {tag : String}
    (found : finalizedNumber block = some tag) : hexQuantity tag = some (blockOf tag) := by
  unfold finalizedNumber at found
  split at found
  · split at found
    · rename_i known
      cases found
      obtain ⟨number, read⟩ := Option.isSome_iff_exists.mp known.2
      rw [blockOf, read]
      rfl
    · cases found
  · cases found

/-- The block that a check reads at is settled from some moment of the check on. -/
theorem finalityTag_settled {observedBlock : Nat} {tag source : String}
    (takes : Takes (Honest world setting) now (finalityTag observedBlock)
      (.ok (some tag, source)) later)
    (observed : observedBlock - closeFinalityFallbackBlocks ≤ world.timeline.settled now) :
    ∃ time, now ≤ time ∧ time ≤ later ∧ blockOf tag ≤ world.timeline.settled time ∧
      hexQuantity tag = some (blockOf tag) := by
  obtain ⟨block, middle, first, second⟩ := takes_seq takes
  obtain ⟨waits, response, honest, same⟩ := takes_answer.mp first
  cases same
  split at second
  · rename_i finalized found
    obtain ⟨same, rfl⟩ := takes_pure.mp second
    cases same
    cases block with
    | error failure => cases found
    | ok block => exact ⟨later, waits, le_rfl, honest _ found, finalizedNumber_block found⟩
  · obtain ⟨latest, reached, third, fourth⟩ := takes_seq second
    obtain ⟨waitsMore, response, honest, same⟩ := takes_answer.mp third
    cases same
    obtain ⟨same, rfl⟩ := takes_pure.mp fourth
    simp only [Except.ok.injEq, Prod.mk.injEq] at same
    have chosen := same.1
    split at chosen
    · cases chosen
    · rename_i deep
      have same := Option.some.inj chosen
      rw [same, blockOf_hexText, hexQuantity_hexText]
      -- The head that counts was observed before the check or just now.
      rcases Nat.le_total ((headOf latest).getD 0) observedBlock with old | new
      · rw [Nat.max_eq_left old]
        exact ⟨now, le_rfl, waits.trans waitsMore, observed, rfl⟩
      · rw [Nat.max_eq_right new] at deep ⊢
        refine ⟨later, waits.trans waitsMore, le_rfl, ?_, rfl⟩
        cases found : headOf latest with
        | none =>
            rw [found] at deep
            exact (deep rfl).elim
        | some head =>
            cases latest with
            | error failure => cases found
            | ok latest => exact honest head found

/-- The words of a note at a block of the chain of some moment of the call. -/
theorem callVault_reads {noteId : Nat} {blockTag : String} {words : List (List Char)}
    {view : Nat → List (Sent String Effect)}
    (shows : ∀ time, world.sentsAt time blockTag = some (view time))
    (takes : Takes (Honest world setting) now (callVault setting notesSelector noteId blockTag)
      (.ok words) later) :
    now ≤ later ∧
      words = answerWords (world.note (world.after (view later)) noteId).encode := by
  obtain ⟨word, middle, first, rest⟩ := takes_seq takes
  obtain ⟨encoded, reached, second, third⟩ := takes_seq rest
  obtain ⟨fits, rfl⟩ := takes_lift first
  obtain ⟨waits, honest⟩ := takes_ask second
  obtain ⟨same, rfl⟩ := takes_pure.mp third
  cases same
  refine ⟨waits, ?_⟩
  have fits : abiWord (.integer noteId) = .ok word := by
    cases found : abiWord (.integer noteId) with
    | error message =>
        rw [found] at fits
        cases fits
    | ok other =>
        rw [found] at fits
        cases fits
        rfl
  rw [honest _ noteId word (shows later) rfl fits rfl]

theorem readBrowserNote_reads {noteId : Nat} {blockTag : String} {note : BrowserNote}
    {view : Nat → List (Sent String Effect)}
    (shows : ∀ time, world.sentsAt time blockTag = some (view time))
    (takes : Takes (Honest world setting) now (readBrowserNote setting noteId blockTag)
      (.ok note) later) :
    ∃ time, now ≤ time ∧ time ≤ later ∧
      note = .ofRecord noteId (world.note (world.after (view time)) noteId) := by
  obtain ⟨_, middle, checked, rest⟩ := takes_seq takes
  obtain ⟨words, time, called, decoded⟩ := takes_seq rest
  obtain ⟨waits, rfl⟩ := callVault_reads shows called
  obtain ⟨same, rfl⟩ := takes_lift decoded
  rw [decodeNote_encode] at same
  exact ⟨later, checked.le.trans waits, le_rfl, (Except.ok.inj same).symm⟩

/-- The number of a status in the vault. -/
def NoteStatus.code : NoteStatus → Nat
  | .noNote => 0
  | .active => 1
  | .pendingWithdrawal => 2
  | .closed => 3

theorem readStatusAt_reads {noteId block : Nat} {blockTag : String} {status : WithdrawalStatus}
    (read : hexQuantity blockTag = some block)
    (takes : Takes (Honest world setting) now (readStatusAt setting noteId blockTag)
      (.ok status) later) :
    ∃ time, now ≤ time ∧ time ≤ later ∧
      (world.noteAt time block noteId).status.val = status.status.code := by
  obtain ⟨words, time, called, decoded⟩ := takes_seq takes
  obtain ⟨waits, rfl⟩ := callVault_reads (world.sentsAt_hex read) called
  obtain ⟨code, reached, found, rest⟩ := takes_seq decoded
  obtain ⟨same, rfl⟩ := takes_lift found
  rw [statusWord_encode] at same
  have same := Except.ok.inj same
  refine ⟨reached, waits, rest.le, ?_⟩
  change (world.note (world.after (upTo (world.timeline.chain reached) block)) noteId).status.val = _
  rw [same]
  split at rest
  · rename_i closed
    obtain ⟨answered, _⟩ := takes_pure.mp rest
    cases answered
    exact closed
  · split at rest
    · rename_i active
      obtain ⟨answered, _⟩ := takes_pure.mp rest
      cases answered
      exact active
    · split at rest
      · obtain ⟨impossible, _⟩ := takes_fail.mp rest
        cases impossible
      · rename_i pending
        obtain ⟨_, _, _, second⟩ := takes_seq rest
        obtain ⟨_, _, _, third⟩ := takes_seq second
        obtain ⟨_, _, _, last⟩ := takes_seq third
        obtain ⟨answered, _⟩ := takes_pure.mp last
        cases answered
        exact not_not.mp pending

theorem readBrowserWithdrawalStatus_reads {noteId : Option Nat} {block : Nat} {blockTag : String}
    {status : WithdrawalStatus} (read : hexQuantity blockTag = some block)
    (known : status.status ≠ .noNote)
    (takes : Takes (Honest world setting) now
      (readBrowserWithdrawalStatus setting noteId (some blockTag)) (.ok status) later) :
    ∃ note time, noteId = some note ∧ now ≤ time ∧ time ≤ later ∧
      (world.noteAt time block note).status.val = status.status.code := by
  cases noteId with
  | none =>
      obtain ⟨same, _⟩ := takes_pure.mp takes
      cases same
      exact (known rfl).elim
  | some note =>
      obtain ⟨_, middle, checked, after⟩ := takes_seq takes
      obtain ⟨tag, reached, requested, rest⟩ := takes_seq after
      obtain ⟨same, rfl⟩ := takes_pure.mp requested
      cases same
      rw [if_neg (by simp [read])] at rest
      obtain ⟨time, waits, le, same⟩ := readStatusAt_reads read rest
      exact ⟨note, time, rfl, checked.le.trans waits, le, same⟩

end Reads

section Nonces

variable {Effect : Type} {world : World Effect} {setting : Setting} {now later : Nat}

/-- The count that a check has read of an account at a settled block, and its other read there. -/
structure Settled {α : Type} (world : World Effect) (setting : Setting) (now later : Nat)
    (sender : String) (nonce : Nat) (read : String → Page α) (seen : α) (block : Nat) : Prop where
  found : ∃ time counted began ends blockTag, now ≤ time ∧ time ≤ counted ∧ time ≤ began ∧
    ends ≤ later ∧ counted ≤ later ∧ hexQuantity blockTag = some block ∧
    block ≤ world.timeline.settled time ∧
    nonce < sentBy (lowerCase sender) (upTo (world.timeline.chain counted) block) ∧
    Takes (Honest world setting) began (read blockTag) (.ok seen) ends

/-- A nonce counts as consumed only if both reads were made at one settled block. -/
theorem nonceConsumed_settled {α : Type} {schedule : List Bool}
    {identity : Option (String × Nat)} {observedBlock : Nat} {read : String → Page α}
    {expected : α → Bool} {always : Bool} {result : Checked α}
    (observed : observedBlock - closeFinalityFallbackBlocks ≤ world.timeline.settled now)
    (takes : Takes (Honest world setting) now
      (nonceConsumed schedule identity observedBlock read expected always) (.ok result) later)
    (consumed : result.holds = true) :
    ∃ sender nonce seen, identity = some (sender, nonce) ∧ expected seen = true ∧
      Settled world setting now later sender nonce read seen result.checkedBlock := by
  cases identity with
  | none =>
      obtain ⟨same, _⟩ := takes_pure.mp takes
      cases same
      cases consumed
  | some identity =>
      obtain ⟨sender, nonce⟩ := identity
      obtain ⟨⟨tag, source⟩, middle, first, rest⟩ := takes_seq takes
      cases tag with
      | none =>
          obtain ⟨same, _⟩ := takes_pure.mp rest
          cases same
          cases consumed
      | some blockTag =>
          obtain ⟨time, waits, le, settled, block⟩ := finalityTag_settled first observed
          obtain ⟨outcome, reached, second, third⟩ := takes_seq rest
          cases outcome with
          | none =>
              obtain ⟨same, _⟩ := takes_pure.mp third
              cases same
              cases consumed
          | some outcome =>
              obtain ⟨transactionCount, seen⟩ := outcome
              obtain ⟨same, rfl⟩ := takes_pure.mp third
              cases same
              obtain ⟨⟨countedEnds, countedLe, counted⟩, ends, endsLe, other⟩ :=
                (takes_tried second).of_both
              obtain ⟨countedWaits, honest⟩ := takes_ask counted
              simp only [Bool.and_eq_true] at consumed
              obtain ⟨counts, expects⟩ := consumed
              refine ⟨sender, nonce, seen, rfl, expects, ⟨time, countedEnds, middle, ends, blockTag,
                waits, le.trans countedWaits, le, endsLe, countedLe, block, settled, ?_, other⟩⟩
              cases number : walletNonceNumber transactionCount with
              | none => simp [number] at counts
              | some count =>
                  rw [number] at counts
                  rw [← honest _ count block number]
                  simpa using counts

/-- The nonce of an attempt was used in the settled part of the chain, where the transaction
stays. -/
structure Consumed (world : World Effect) (time : Nat) (sender : String) (nonce block : Nat) :
    Prop where
  used : ∃ before sent after,
    upTo (world.timeline.chain time) block = before ++ sent :: after ∧
      sent.sender = lowerCase sender ∧ sent.nonce = nonce
  within : ∀ before sent after, (world.timeline.chain time).flatten = before ++ sent :: after →
    sent.sender = lowerCase sender → sent.nonce = nonce →
    before ++ [sent] <+: upTo (world.timeline.chain time) block

theorem Settled.consumed {α : Type} {sender : String} {nonce : Nat} {read : String → Page α}
    {seen : α} {block time : Nat}
    (settled : Settled world setting now later sender nonce read seen block) (le : later ≤ time) :
    Consumed world time sender nonce block := by
  obtain ⟨start, counted, _, _, _, _, waits, _, _, ended, _, fixed, less, _⟩ := settled.found
  obtain ⟨used, within⟩ :=
    world.timeline.consumed fixed waits (waits.trans (ended.trans le)) less
  exact ⟨used, within⟩

end Nonces

end ZkApi.Browser.WalletRpc
