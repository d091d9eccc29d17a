import ZkApi.ReferenceProtocol
import ZkApi.Traversals
import ZkApi.VaultCalls
import ZkApi.VaultLogs
import ZkApi.WalletRequests

/-!
# Receipts of the vault

The page reads the outcome of its own transaction from the logs of the receipt, and the indexer
reads the same logs for everyone.  Both must see the same event.
-/

namespace ZkApi.Browser.Receipts

open Indexer Expiry Calldata WalletRpc

section Parsing

/-- A log of a receipt.  A missing list of topics is like an empty one. -/
structure ReceiptLog where
  address : Option String
  topics : List String
  data : Option String
deriving DecidableEq

def noteDepositedTopic : String :=
  "0x7c83dba8534bea9e30d6444f9ca6462dc906897f9938d220dbbe4358c1f7a063"

def mutualCloseEventTopic : String :=
  "0x1f43fa4711ca18e1d26398f26bf598bd3a62992cdd0e84f055f2bb506e9d7031"

def escapeInitiatedEventTopic : String :=
  "0xb0d1eb7131bcf3c6dd53517f6fa90bf7cc94178eb0eb5e0a1f204abe3b839cdf"

def escapeFinalizedEventTopic : String :=
  "0x163f2e46c4004f0ed9682e2db8c84efac31310720266b17ea9904ba348c26504"

/-- The log is one of the vault with a topic. -/
def ReceiptLog.isOf (log : ReceiptLog) (vaultAddress topic : String) : Bool :=
  log.address.map lowerCase = some (lowerCase vaultAddress) &&
    log.topics.head?.map lowerCase = some topic

/-- `String(log.data || "").replace(/^0x/, "")` -/
def ReceiptLog.digits (log : ReceiptLog) : List Char :=
  strip0x (log.data.getD "").toList

/-- `BigInt(text)`, which may throw. -/
def bigInt (text : List Char) : Except String Int :=
  match bigIntText (Tokens.trim text) with
  | some value => .ok value
  | none => .error "Cannot convert a text to a BigInt"

/-- The characters of a word of the data. -/
def wordOf (digits : List Char) (index : Nat) : List Char :=
  (digits.drop (64 * index)).take 64

/-- `BigInt` of a word of the data. -/
def wordInt (digits : List Char) (index : Nat) : Except String Int :=
  bigInt ('0' :: 'x' :: wordOf digits index)

/-- A deposit as the page reads it. -/
structure Deposited where
  noteId : Int
  commitment : String
  amount : Int
  expiryTs : Int
  newRoot : Int

def depositedOf (digits : List Char) (noteId commitment : String) : Except String Deposited := do
  return {
    noteId := ← bigInt noteId.toList
    commitment := commitment
    amount := ← wordInt digits 0
    expiryTs := ← wordInt digits 1
    newRoot := ← wordInt digits 2 }

/-- The first log of the vault with a topic that can be read. -/
def firstLog {α : Type} (vaultAddress topic : String)
    (read : ReceiptLog → Option (Except String α)) : List ReceiptLog → Except String (Option α)
  | [] => .ok none
  | log :: logs =>
      if log.isOf vaultAddress topic then
        match read log with
        | some found => found.map some
        | none => firstLog vaultAddress topic read logs
      else firstLog vaultAddress topic read logs

/-- A log that is too short for a deposit is passed over. -/
def depositedLog (log : ReceiptLog) : Option (Except String Deposited) :=
  match log.topics with
  | _ :: noteId :: commitment :: _ =>
      if 192 ≤ log.digits.length then some (depositedOf log.digits noteId commitment) else none
  | _ => none

def parseNoteDeposited (logs : List ReceiptLog) (vaultAddress : String) :
    Except String (Option Deposited) :=
  firstLog vaultAddress noteDepositedTopic depositedLog logs

/-- A withdrawal as the page reads it. -/
structure Withdrawn where
  noteId : Int
  finalBalance : Int
  destination : String
  challengeDeadline : Option Int

/-- The topic of a mode and the number of words that its log must have. -/
def withdrawalEvent (mode : String) : Except String (String × Nat) :=
  if mode = "mutual" then .ok (mutualCloseEventTopic, 3)
  else if mode = "escape" then .ok (escapeInitiatedEventTopic, 5)
  else if mode = "finalize" then .ok (escapeFinalizedEventTopic, 3)
  else .error "Unknown withdrawal receipt mode."

def withdrawnOf (mode : String) (digits : List Char) (noteId : String) :
    Except String Withdrawn := do
  let withdrawn : Withdrawn := {
    noteId := ← bigInt noteId.toList
    finalBalance := ← wordInt digits 1
    destination := lowerCase (String.ofList ('0' :: 'x' :: (wordOf digits 2).drop 24))
    challengeDeadline := none }
  if mode = "escape" then return { withdrawn with challengeDeadline := some (← wordInt digits 3) }
  else return withdrawn

/-- A log that is too short for a withdrawal of the mode is passed over. -/
def withdrawnLog (mode : String) (minimumWords : Nat) (log : ReceiptLog) :
    Option (Except String Withdrawn) :=
  match log.topics with
  | _ :: noteId :: _ =>
      if 64 * minimumWords ≤ log.digits.length then some (withdrawnOf mode log.digits noteId)
      else none
  | _ => none

def parseWithdrawalReceipt (logs : List ReceiptLog) (vaultAddress mode : String) :
    Except String (Option Withdrawn) := do
  let (expectedTopic, minimumWords) ← withdrawalEvent mode
  firstLog vaultAddress expectedTopic (withdrawnLog mode minimumWords) logs

end Parsing

section Words

theorem hexDigit_small {letter : Char} {digit : Nat} (found : hexDigit letter = some digit) :
    digit < 16 := by
  have below := hexDigit_lt (by rw [found]; rfl)
  have all : ∀ code : Fin 103, ((hexDigit (Char.ofNat code)).all (· < 16)) = true := by decide
  have own := all ⟨letter.toNat, below⟩
  rw [Char.ofNat_toNat, found] at own
  simpa using own

theorem isTrimmed_hexDigit {letter : Char} (digit : (hexDigit letter).isSome = true) :
    Tokens.isTrimmed letter = false := by
  have below := hexDigit_lt digit
  have all : ∀ code : Fin 103, ((hexDigit (Char.ofNat code)).isSome &&
      Tokens.isTrimmed (Char.ofNat code)) = false := by decide
  have own := all ⟨letter.toNat, below⟩
  rw [Char.ofNat_toNat, digit] at own
  simpa using own

theorem isWhiteSpace_hexDigit {letter : Char} (digit : (hexDigit letter).isSome = true) :
    isWhiteSpace letter = false := by
  have below := hexDigit_lt digit
  have all : ∀ code : Fin 103, ((hexDigit (Char.ofNat code)).isSome &&
      isWhiteSpace (Char.ofNat code)) = false := by decide
  have own := all ⟨letter.toNat, below⟩
  rw [Char.ofNat_toNat, digit] at own
  simpa using own

variable {text : List Char} {values : List Nat}

/-- The letters of a prefixed hexadecimal text. -/
theorem prefixed_letters (read : text.mapM hexDigit = some values) :
    ∀ letter ∈ '0' :: 'x' :: text, letter = 'x' ∨ (hexDigit letter).isSome = true := by
  intro letter member
  rcases List.mem_cons.mp member with rfl | member
  · exact .inr (by decide)
  · rcases List.mem_cons.mp member with rfl | member
    · exact .inl rfl
    · exact .inr (Traversal.isSome_of_mapM read member)

/-- A number that is written with a prefix is read back. -/
theorem bigInt_hex (read : text.mapM hexDigit = some values) (written : text ≠ []) :
    bigInt ('0' :: 'x' :: text) = .ok (ofDigits values : Int) := by
  have plain : Tokens.trim ('0' :: 'x' :: text) = '0' :: 'x' :: text := by
    refine Tokens.trim_eq_self fun letter member => ?_
    rcases prefixed_letters read letter member with rfl | digit
    · decide
    · exact isTrimmed_hexDigit digit
  have some : values ≠ [] := by
    rintro rfl
    exact written (List.length_eq_zero_iff.mp (Traversal.length_of_mapM read).symm)
  have small : ∀ digit ∈ values, digit < 16 := by
    intro digit member
    obtain ⟨index, bound, rfl⟩ := List.getElem_of_mem member
    have within : index < text.length := by rwa [← Traversal.length_of_mapM read]
    have found := Traversal.getElem?_of_mapM read (List.getElem?_eq_getElem within)
    rw [List.getElem?_eq_getElem bound] at found
    exact hexDigit_small found.symm
  have number : digitsOf 16 text = .some (ofDigits values) := by
    simp only [digitsOf, read, Option.bind_eq_bind, Option.bind_some]
    rw [if_pos ⟨by simpa using some, by simpa using small⟩]
    rfl
  rw [bigInt, plain]
  change (match (digitsOf 16 text).map Int.ofNat with
    | .some value => Except.ok value
    | none => .error "Cannot convert a text to a BigInt") = _
  rw [number]
  rfl

/-- A word of hexadecimal data is read back. -/
theorem wordInt_hex (read : text.mapM hexDigit = some values) {index : Nat}
    (within : 64 * index < values.length) :
    wordInt text index = .ok (ofDigits ((values.drop (64 * index)).take 64) : Int) := by
  have all := Traversal.mapM_eq_some_iff.mp read
  have cut : (wordOf text index).mapM hexDigit =
      some ((values.drop (64 * index)).take 64) :=
    Traversal.mapM_eq_some_iff.mpr (List.forall₂_take 64 (List.forall₂_drop _ all))
  refine bigInt_hex cut ?_
  rw [Traversal.length_of_mapM read] at within
  rw [wordOf, Ne, List.take_eq_nil_iff, List.drop_eq_nil_iff]
  omega

/-- The words of hexadecimal data, as the indexer reads them. -/
theorem splitWords_hex {data : String} {words : List Nat} (form : data.toList = '0' :: 'x' :: text)
    (read : text.mapM hexDigit = some values) (split : splitWords data = .ok words) :
    words = wordsOf (values.length / 64) values := by
  have plain : ∀ letter ∈ '0' :: 'x' :: text, isWhiteSpace letter = false := by
    intro letter member
    rcases prefixed_letters read letter member with rfl | digit
    · decide
    · exact isWhiteSpace_hexDigit digit
  have front : ('0' :: 'x' :: text).dropWhile isWhiteSpace = '0' :: 'x' :: text := by
    rw [List.dropWhile_cons_of_neg (by decide)]
  have back : ('0' :: 'x' :: text).reverse.dropWhile isWhiteSpace =
      ('0' :: 'x' :: text).reverse := by
    rw [List.dropWhile_eq_self_iff]
    intro some
    rw [plain _ (List.mem_reverse.mp (List.getElem_mem some))]
    exact Bool.false_ne_true
  have raw : stripHexPrefix (trim data.toList) = text := by
    rw [form, trim, front, back, List.reverse_reverse]
    rfl
  rw [splitWords, raw] at split
  split at split
  · rename_i empty
    cases List.isEmpty_iff.mp empty
    cases read
    cases split
    rfl
  · split at split
    · cases split
    · rw [read] at split
      exact (Except.ok.inj split).symm

theorem getElem?_wordsOf {count index : Nat} (within : index < count) :
    (wordsOf count values)[index]? = some (ofDigits ((values.drop (64 * index)).take 64)) := by
  induction count generalizing values index with
  | zero => cases within
  | succ count ih =>
      cases index with
      | zero => rfl
      | succ index =>
          rw [wordsOf, List.getElem?_cons_succ, ih (Nat.lt_of_succ_lt_succ within), List.drop_drop]
          congr 4
          omega

theorem length_wordsOf (count : Nat) : (wordsOf count values).length = count := by
  induction count generalizing values with
  | zero => rfl
  | succ count ih => rw [wordsOf, List.length_cons, ih]

/-- Both sides read the same words of a log. -/
theorem wordInt_split {data : String} {words : List Nat} {index word : Nat}
    (form : data.toList = '0' :: 'x' :: text) (read : text.mapM hexDigit = some values)
    (split : splitWords data = .ok words) (found : words[index]? = some word) :
    wordInt text index = .ok (word : Int) := by
  have same := splitWords_hex form read split
  have within : index < values.length / 64 := by
    have := (List.getElem?_eq_some_iff.mp found).1
    rwa [same, length_wordsOf] at this
  rw [same, getElem?_wordsOf within] at found
  rw [wordInt_hex read (by omega), Option.some.inj found]

end Words

section Events

/-- The signature of the event in the contract. -/
def signature : VaultEvent → String
  | .noteDeposited .. => "NoteDeposited(uint32,bytes32,uint128,uint64,uint256)"
  | .mutualClose .. => "MutualClose(uint32,uint256,uint128,address)"
  | .escapeWithdrawalInitiated .. =>
      "EscapeWithdrawalInitiated(uint32,uint256,uint128,address,uint64,uint256)"
  | .escapeWithdrawalChallenged .. => "EscapeWithdrawalChallenged(uint32,uint256,uint256)"
  | .escapeWithdrawalFinalized .. => "EscapeWithdrawalFinalized(uint32,uint256,uint128,address)"
  | .expiredClaimed .. => "ExpiredClaimed(uint32,uint128,uint256)"

def signatures : List String :=
  ["NoteDeposited(uint32,bytes32,uint128,uint64,uint256)",
    "MutualClose(uint32,uint256,uint128,address)",
    "EscapeWithdrawalInitiated(uint32,uint256,uint128,address,uint64,uint256)",
    "EscapeWithdrawalChallenged(uint32,uint256,uint256)",
    "EscapeWithdrawalFinalized(uint32,uint256,uint128,address)",
    "ExpiredClaimed(uint32,uint128,uint256)"]

theorem signature_mem (event : VaultEvent) : signature event ∈ signatures := by
  cases event <;> simp [signature, signatures]

/-- How an event stands in the topics and words of its log. -/
def Shape (P : Protocol) (topics : List String) (words : List Nat) : VaultEvent → Prop
  | .noteDeposited noteId commitment amount expiryTs newRoot =>
      ∃ noteTopic commitmentTopic others first second third,
        topics = noteTopic :: commitmentTopic :: others ∧ words = [first, second, third] ∧
        topicToU32 P noteTopic = .ok noteId ∧ topicToFelt P commitmentTopic = .ok commitment ∧
        amount = wordToU128 first ∧ expiryTs = wordToU64 second ∧ newRoot = wordToFelt third
  | .mutualClose noteId _ finalBalance
  | .escapeWithdrawalFinalized noteId _ finalBalance =>
      ∃ noteTopic others first second third,
        topics = noteTopic :: others ∧ words = [first, second, third] ∧
        topicToU32 P noteTopic = .ok noteId ∧ finalBalance = wordToU128 second
  | .escapeWithdrawalInitiated noteId _ finalBalance challengeDeadline _ =>
      ∃ noteTopic others first second third fourth fifth,
        topics = noteTopic :: others ∧ words = [first, second, third, fourth, fifth] ∧
        topicToU32 P noteTopic = .ok noteId ∧ finalBalance = wordToU128 second ∧
        challengeDeadline = wordToU64 fourth
  | _ => True

variable {P : Protocol}

/-- What the indexer has read of a log that it decodes. -/
theorem decodeLog_some {log : Indexer.RpcLog} {event : VaultEvent} {root : Option Felt252}
    (decodes : decodeLog P log = .ok (some (event, root))) :
    ∃ topic topics words, log.topics = topic :: topics ∧ splitWords log.data = .ok words ∧
      topic = eventTopic P (signature event) ∧ Shape P topics words event := by
  unfold decodeLog at decodes
  split at decodes
  · cases decodes
  · rename_i topic topics named
    obtain ⟨words, split, rest⟩ := bind_eq_ok decodes
    refine ⟨topic, topics, words, named, split, ?_⟩
    split at rest
    · rename_i same
      split at rest
      · obtain ⟨noteId, first, rest⟩ := bind_eq_ok rest
        obtain ⟨commitment, second, rest⟩ := bind_eq_ok rest
        cases rest
        exact ⟨same, _, _, _, _, _, _, rfl, rfl, first, second, rfl, rfl, rfl⟩
      · cases rest
    split at rest
    · rename_i same
      split at rest
      · obtain ⟨noteId, first, rest⟩ := bind_eq_ok rest
        cases rest
        exact ⟨same, _, _, _, _, _, rfl, rfl, first, rfl⟩
      · cases rest
    split at rest
    · rename_i same
      split at rest
      · obtain ⟨noteId, first, rest⟩ := bind_eq_ok rest
        cases rest
        exact ⟨same, _, _, _, _, _, _, _, rfl, rfl, first, rfl, rfl⟩
      · cases rest
    split at rest
    · rename_i same
      split at rest
      · obtain ⟨noteId, first, rest⟩ := bind_eq_ok rest
        cases rest
        exact ⟨same, trivial⟩
      · cases rest
    split at rest
    · rename_i same
      split at rest
      · obtain ⟨noteId, first, rest⟩ := bind_eq_ok rest
        cases rest
        exact ⟨same, _, _, _, _, _, rfl, rfl, first, rfl⟩
      · cases rest
    split at rest
    · rename_i same
      split at rest
      · obtain ⟨noteId, first, rest⟩ := bind_eq_ok rest
        cases rest
        exact ⟨same, trivial⟩
      · cases rest
    · cases rest

theorem read_ne_none {α : Type} {read : Except String α}
    {event : α → VaultEvent × Option Felt252} :
    (do return some (event (← read)) : Except String (Option (VaultEvent × Option Felt252))) ≠
      .ok none := by
  intro same
  obtain ⟨_, _, impossible⟩ := bind_eq_ok same
  cases impossible

/-- A log that the indexer skips has the topic of no event. -/
theorem decodeLog_none {log : Indexer.RpcLog} (skipped : decodeLog P log = .ok none) {topic : String}
    {topics : List String} (named : log.topics = topic :: topics) :
    ∀ event, topic ≠ eventTopic P (signature event) := by
  unfold decodeLog at skipped
  rw [named] at skipped
  obtain ⟨words, _, rest⟩ := bind_eq_ok skipped
  split at rest
  · split at rest
    · obtain ⟨_, _, rest⟩ := bind_eq_ok rest
      obtain ⟨_, _, rest⟩ := bind_eq_ok rest
      cases rest
    · cases rest
  rename_i deposited
  split at rest
  · split at rest
    · exact (read_ne_none rest).elim
    · cases rest
  rename_i closed
  split at rest
  · split at rest
    · exact (read_ne_none rest).elim
    · cases rest
  rename_i initiated
  split at rest
  · split at rest
    · exact (read_ne_none rest).elim
    · cases rest
  rename_i challenged
  split at rest
  · split at rest
    · exact (read_ne_none rest).elim
    · cases rest
  rename_i finalized
  split at rest
  · split at rest
    · exact (read_ne_none rest).elim
    · cases rest
  rename_i claimed
  intro event
  cases event <;> assumption

end Events

section Agreement

/-- The topics of the page are those of the events, no two events have the same topic, and a
field element that is written as a hexadecimal number is read as that number. -/
structure Known (P : Protocol) : Prop where
  deposited : eventTopic P "NoteDeposited(uint32,bytes32,uint128,uint64,uint256)" =
    noteDepositedTopic
  closed : eventTopic P "MutualClose(uint32,uint256,uint128,address)" = mutualCloseEventTopic
  initiated : eventTopic P
    "EscapeWithdrawalInitiated(uint32,uint256,uint128,address,uint64,uint256)" =
      escapeInitiatedEventTopic
  finalized : eventTopic P "EscapeWithdrawalFinalized(uint32,uint256,uint128,address)" =
    escapeFinalizedEventTopic
  distinct : ∀ first ∈ signatures, ∀ second ∈ signatures,
    eventTopic P first = eventTopic P second → first = second
  reads : ∀ text number felt, hexQuantity text = some number → P.feltFromHex text = some felt →
    felt.value = number

/-- The log as the indexer gets it. -/
def ReceiptLog.rpc (log : ReceiptLog) : Indexer.RpcLog where
  blockNumber := "0x0"
  data := log.data.getD ""
  topics := log.topics

def ReceiptLog.isAt (log : ReceiptLog) (vaultAddress : String) : Bool :=
  log.address.map lowerCase = some (lowerCase vaultAddress)

/-- A log as a node shows it, in small letters, that the indexer can decode. -/
structure WellFormed (P : Protocol) (log : ReceiptLog) : Prop where
  data : ∃ data text values, log.data = some data ∧ data.toList = '0' :: 'x' :: text ∧
    text.mapM hexDigit = some values
  topics : ∀ topic ∈ log.topics, (hexQuantity topic).isSome = true ∧ lowerCase topic = topic
  decodes : (decodeLog P log.rpc).toOption.isSome = true

/-- The events of the vault in a receipt, as the indexer reads them. -/
def vaultEvents (P : Protocol) (logs : List ReceiptLog) (vaultAddress : String) :
    List VaultEvent :=
  eventsOf P ((logs.filter (·.isAt vaultAddress)).map ReceiptLog.rpc)

variable {P : Protocol} {log : ReceiptLog} {vaultAddress : String}

theorem isOf_of_notAt {topic : String} (other : log.isAt vaultAddress = false) :
    log.isOf vaultAddress topic = false := by
  rw [ReceiptLog.isOf]
  rw [ReceiptLog.isAt] at other
  rw [other]
  rfl

theorem decodeLog_of_eventOf {log : Indexer.RpcLog} {event : VaultEvent}
    (found : eventOf P log = some event) : ∃ root, decodeLog P log = .ok (some (event, root)) := by
  unfold eventOf at found
  split at found
  · rename_i shown root decoded
    cases found
    exact ⟨root, decoded⟩
  · cases found

theorem exists_signature {name : String} (member : name ∈ signatures) :
    ∃ event, signature event = name := by
  simp only [signatures, List.mem_cons, List.not_mem_nil, or_false] at member
  rcases member with rfl | rfl | rfl | rfl | rfl | rfl
  · exact ⟨.noteDeposited 0 ⟨0⟩ 0 0 ⟨0⟩, rfl⟩
  · exact ⟨.mutualClose 0 ⟨0⟩ 0, rfl⟩
  · exact ⟨.escapeWithdrawalInitiated 0 ⟨0⟩ 0 0 ⟨0⟩, rfl⟩
  · exact ⟨.escapeWithdrawalChallenged 0 ⟨0⟩ ⟨0⟩, rfl⟩
  · exact ⟨.escapeWithdrawalFinalized 0 ⟨0⟩ 0, rfl⟩
  · exact ⟨.expiredClaimed 0 0 ⟨0⟩, rfl⟩

/-- A log of the vault has a topic exactly if the indexer reads the event of the topic. -/
theorem isOf_iff (known : Known P) (formed : WellFormed P log)
    (here : log.isAt vaultAddress = true) {name : String} (member : name ∈ signatures) :
    log.isOf vaultAddress (eventTopic P name) = true ↔
      ∃ event, eventOf P log.rpc = some event ∧ signature event = name := by
  have at_vault : log.isOf vaultAddress (eventTopic P name) =
      decide (log.topics.head?.map lowerCase = some (eventTopic P name)) := by
    rw [ReceiptLog.isOf]
    rw [ReceiptLog.isAt] at here
    rw [here]
    rfl
  rw [at_vault, decide_eq_true_iff]
  constructor
  · intro holds
    obtain ⟨topic, first, same⟩ := Option.map_eq_some_iff.mp holds
    obtain ⟨topics, named⟩ := List.head?_eq_some_iff.mp first
    rw [(formed.topics topic (by rw [named]; exact List.mem_cons_self)).2] at same
    obtain ⟨result, decoded⟩ := Option.isSome_iff_exists.mp formed.decodes
    have decoded : decodeLog P log.rpc = .ok result := by
      cases found : decodeLog P log.rpc with
      | error message =>
          rw [found] at decoded
          cases decoded
      | ok other =>
          rw [found] at decoded
          cases decoded
          rfl
    cases result with
    | none =>
        obtain ⟨event, own⟩ := exists_signature member
        exact (decodeLog_none decoded named event (by rw [own, same])).elim
    | some decodedEvent =>
        obtain ⟨event, root⟩ := decodedEvent
        obtain ⟨shown, others, words, split, _, equal, _⟩ := decodeLog_some decoded
        cases named.symm.trans split
        refine ⟨event, by rw [eventOf, decoded], ?_⟩
        exact known.distinct _ (signature_mem event) _ member (by rw [← equal, same])
  · rintro ⟨event, found, rfl⟩
    obtain ⟨root, decoded⟩ := decodeLog_of_eventOf found
    obtain ⟨topic, topics, words, named, _, same, _⟩ := decodeLog_some decoded
    have named : log.topics = topic :: topics := named
    rw [named, List.head?_cons, Option.map_some,
      (formed.topics topic (by rw [named]; exact List.mem_cons_self)).2, same]

/-- The page finds the first event of the indexer with the wanted signature, and no other. -/
theorem firstLog_indexed {α : Type} {read : ReceiptLog → Option (Except String α)}
    {Agrees : α → VaultEvent → Prop} (known : Known P) {name topic : String}
    (member : name ∈ signatures) (named : eventTopic P name = topic)
    (reads : ∀ log event, WellFormed P log → eventOf P log.rpc = some event →
      signature event = name → ∃ value, read log = some (.ok value) ∧ Agrees value event)
    (logs : List ReceiptLog)
    (formed : ∀ log ∈ logs, log.isAt vaultAddress = true → WellFormed P log) :
    ∃ found, firstLog vaultAddress topic read logs = .ok found ∧ Option.Rel Agrees found
      ((vaultEvents P logs vaultAddress).find? fun event => signature event = name) := by
  subst named
  induction logs with
  | nil => exact ⟨none, rfl, .none⟩
  | cons log logs ih =>
      obtain ⟨found, rest, agrees⟩ :=
        ih fun other later => formed other (List.mem_cons_of_mem _ later)
      cases here : log.isAt vaultAddress with
      | false =>
          refine ⟨found, ?_, ?_⟩
          · rw [firstLog, isOf_of_notAt here]
            exact rest
          · rw [vaultEvents, List.filter_cons_of_neg (by simp [here])]
            exact agrees
      | true =>
          have own := formed log List.mem_cons_self here
          have shown := isOf_iff known own here member
          have events : vaultEvents P (log :: logs) vaultAddress =
              (eventOf P log.rpc).toList ++ vaultEvents P logs vaultAddress := by
            rw [vaultEvents, List.filter_cons_of_pos (by exact here), List.map_cons, eventsOf,
              List.filterMap_cons]
            cases eventOf P log.rpc <;> rfl
          rw [events]
          by_cases wanted : log.isOf vaultAddress (eventTopic P name) = true
          · obtain ⟨event, decoded, same⟩ := shown.mp wanted
            obtain ⟨value, readable, agree⟩ := reads log event own decoded same
            refine ⟨some value, ?_, ?_⟩
            · rw [firstLog, if_pos wanted, readable]
              rfl
            · rw [decoded, Option.toList_some, List.singleton_append,
                List.find?_cons_of_pos (by simpa using same)]
              exact .some agree
          · refine ⟨found, ?_, ?_⟩
            · rw [firstLog, if_neg wanted]
              exact rest
            · cases decoded : eventOf P log.rpc with
              | none => exact agrees
              | some event =>
                  have other : signature event ≠ name := fun same =>
                    wanted (shown.mpr ⟨event, decoded, same⟩)
                  rw [Option.toList_some, List.singleton_append,
                    List.find?_cons_of_neg (by simpa using other)]
                  exact agrees

/-- A hexadecimal quantity is the same number for `BigInt`. -/
theorem bigInt_quantity {text : String} {number : Nat} (read : hexQuantity text = some number) :
    bigInt text.toList = .ok (number : Int) := by
  unfold hexQuantity at read
  split at read
  · rename_i digits form
    split at read
    · cases read
    · rename_i written
      obtain ⟨values, mapped, same⟩ := Option.map_eq_some_iff.mp read
      rw [form, bigInt_hex mapped (by simpa using written), same]
  · cases read

theorem bigInt_felt (known : Known P) (formed : WellFormed P log) {topic : String}
    (member : topic ∈ log.topics) {felt : Felt252} (read : topicToFelt P topic = .ok felt) :
    bigInt topic.toList = .ok (felt.value : Int) := by
  obtain ⟨number, quantity⟩ := Option.isSome_iff_exists.mp (formed.topics topic member).1
  unfold topicToFelt at read
  split at read
  · rename_i found decoded
    cases read
    rw [bigInt_quantity quantity, known.reads topic number _ quantity decoded]
  · cases read

theorem bigInt_noteId (known : Known P) (formed : WellFormed P log) {topic : String}
    (member : topic ∈ log.topics) {noteId : UInt32} (read : topicToU32 P topic = .ok noteId) :
    bigInt topic.toList = .ok (noteId.toNat : Int) := by
  obtain ⟨number, quantity⟩ := Option.isSome_iff_exists.mp (formed.topics topic member).1
  unfold topicToU32 at read
  split at read
  · cases read
  · rename_i felt decoded
    split at read
    · split at read
      · rename_i small
        cases read
        rw [bigInt_quantity quantity, ← known.reads topic number _ quantity decoded,
          UInt32.toNat_ofNat_of_lt' small]
      · cases read
    · cases read

/-- The words of a log of the vault, and that there is room for them. -/
theorem digits_words (formed : WellFormed P log) {words : List Nat}
    (split : splitWords log.rpc.data = .ok words) :
    64 * words.length ≤ log.digits.length ∧ ∀ index word : Nat, words[index]? = some word →
      wordInt log.digits index = .ok (word : Int) := by
  obtain ⟨data, text, values, given, form, read⟩ := formed.data
  have same : log.digits = text := by rw [ReceiptLog.digits, given, Option.getD_some, form]; rfl
  have split : splitWords data = .ok words := by
    rw [ReceiptLog.rpc, given] at split
    exact split
  rw [same]
  refine ⟨?_, fun index word found => wordInt_split form read split found⟩
  rw [splitWords_hex form read split, length_wordsOf, ← Traversal.length_of_mapM read]
  omega

/-- The page and the indexer read the same deposit. -/
def Deposited.Agrees (found : Deposited) : VaultEvent → Prop
  | .noteDeposited noteId commitment amount expiryTs newRoot =>
      found.noteId = noteId.toNat ∧ bigInt found.commitment.toList = .ok (commitment.value : Int) ∧
      found.amount % 2 ^ 128 = amount ∧ found.expiryTs % 2 ^ 64 = expiryTs.toNat ∧
      found.newRoot = newRoot.value
  | _ => False

theorem depositedLog_reads (known : Known P) (formed : WellFormed P log) {event : VaultEvent}
    (decoded : eventOf P log.rpc = some event)
    (same : signature event = "NoteDeposited(uint32,bytes32,uint128,uint64,uint256)") :
    ∃ value, depositedLog log = some (.ok value) ∧ value.Agrees event := by
  obtain ⟨root, decoded⟩ := decodeLog_of_eventOf decoded
  obtain ⟨topic, topics, words, named, split, _, shape⟩ := decodeLog_some decoded
  have named : log.topics = topic :: topics := named
  cases event with
  | noteDeposited noteId commitment amount expiryTs newRoot =>
      obtain ⟨noteTopic, commitmentTopic, others, first, second, third, rfl, rfl, id, own, rfl,
        rfl, rfl⟩ := shape
      obtain ⟨room, read⟩ := digits_words formed split
      have noteId := bigInt_noteId known formed (by rw [named]; simp) id
      have committed := bigInt_felt known formed (by rw [named]; simp) own
      refine ⟨⟨_, commitmentTopic, first, second, third⟩, ?_, rfl, committed, ?_, ?_, rfl⟩
      · rw [depositedLog, named]
        dsimp only
        rw [if_pos (by simpa using room), depositedOf, noteId, read 0 first rfl, read 1 second rfl,
          read 2 third rfl]
        rfl
      · rw [wordToU128]
        norm_cast
      · rw [wordToU64, UInt64.toNat_ofNat']
        norm_cast
  | _ => simp [signature] at same

/-- The page and the indexer read the same withdrawal. -/
def Withdrawn.Agrees (found : Withdrawn) : VaultEvent → Prop
  | .mutualClose noteId _ finalBalance
  | .escapeWithdrawalFinalized noteId _ finalBalance =>
      found.noteId = noteId.toNat ∧ found.finalBalance % 2 ^ 128 = finalBalance ∧
        found.challengeDeadline = none
  | .escapeWithdrawalInitiated noteId _ finalBalance challengeDeadline _ =>
      found.noteId = noteId.toNat ∧ found.finalBalance % 2 ^ 128 = finalBalance ∧
        ∃ deadline, found.challengeDeadline = some deadline ∧
          deadline % 2 ^ 64 = challengeDeadline.toNat
  | _ => False

/-- The event of a mode. -/
def withdrawalSignature (mode : String) : String :=
  if mode = "mutual" then "MutualClose(uint32,uint256,uint128,address)"
  else if mode = "escape" then
    "EscapeWithdrawalInitiated(uint32,uint256,uint128,address,uint64,uint256)"
  else "EscapeWithdrawalFinalized(uint32,uint256,uint128,address)"

theorem withdrawalEvent_cases {mode topic : String} {minimumWords : Nat}
    (chosen : withdrawalEvent mode = .ok (topic, minimumWords)) :
    mode = "mutual" ∧ topic = mutualCloseEventTopic ∧ minimumWords = 3 ∨
    mode = "escape" ∧ topic = escapeInitiatedEventTopic ∧ minimumWords = 5 ∨
    mode = "finalize" ∧ topic = escapeFinalizedEventTopic ∧ minimumWords = 3 := by
  unfold withdrawalEvent at chosen
  split at chosen
  · rename_i own
    cases chosen
    exact .inl ⟨own, rfl, rfl⟩
  split at chosen
  · rename_i own
    cases chosen
    exact .inr (.inl ⟨own, rfl, rfl⟩)
  split at chosen
  · rename_i own
    cases chosen
    exact .inr (.inr ⟨own, rfl, rfl⟩)
  · cases chosen

theorem withdrawnLog_plain {mode topic noteTopic : String} {others : List String}
    {noteId balance : Int} (plain : mode ≠ "escape")
    (named : log.topics = topic :: noteTopic :: others) (room : 192 ≤ log.digits.length)
    (id : bigInt noteTopic.toList = .ok noteId) (read : wordInt log.digits 1 = .ok balance) :
    ∃ value, withdrawnLog mode 3 log = some (.ok value) ∧ value.noteId = noteId ∧
      value.finalBalance = balance ∧ value.challengeDeadline = none := by
  refine ⟨⟨noteId, balance,
    lowerCase (String.ofList ('0' :: 'x' :: (wordOf log.digits 2).drop 24)), none⟩, ?_, rfl, rfl, rfl⟩
  rw [withdrawnLog, named]
  dsimp only
  rw [if_pos room, withdrawnOf, id, read]
  simp only [bind, Except.bind, if_neg plain]
  rfl

theorem withdrawnLog_reads (known : Known P) (formed : WellFormed P log) {mode topic : String}
    {minimumWords : Nat} (chosen : withdrawalEvent mode = .ok (topic, minimumWords))
    {event : VaultEvent} (decoded : eventOf P log.rpc = some event)
    (same : signature event = withdrawalSignature mode) :
    ∃ value, withdrawnLog mode minimumWords log = some (.ok value) ∧ value.Agrees event := by
  obtain ⟨root, decoded⟩ := decodeLog_of_eventOf decoded
  obtain ⟨first, topics, words, named, split, _, shape⟩ := decodeLog_some decoded
  have named : log.topics = first :: topics := named
  obtain ⟨room, read⟩ := digits_words formed split
  rcases withdrawalEvent_cases chosen with ⟨rfl, rfl, rfl⟩ | ⟨rfl, rfl, rfl⟩ | ⟨rfl, rfl, rfl⟩
  · cases event with
    | mutualClose noteId nullifier finalBalance =>
        have plain : "mutual" ≠ "escape" := by decide
        obtain ⟨noteTopic, others, _, balance, _, rfl, rfl, id, rfl⟩ := shape
        have id := bigInt_noteId known formed (by rw [named]; simp) id
        obtain ⟨value, found, own, paid, none⟩ :=
          withdrawnLog_plain plain named (by simpa using room) id (read 1 balance rfl)
        refine ⟨value, found, own, ?_, none⟩
        rw [paid, wordToU128]
        norm_cast
    | _ => simp [signature, withdrawalSignature] at same
  · cases event with
    | escapeWithdrawalInitiated noteId nullifier finalBalance challengeDeadline newRoot =>
        obtain ⟨noteTopic, others, _, balance, _, deadline, _, rfl, rfl, id, rfl, rfl⟩ := shape
        have id := bigInt_noteId known formed (by rw [named]; simp) id
        refine ⟨⟨noteId.toNat, balance,
          lowerCase (String.ofList ('0' :: 'x' :: (wordOf log.digits 2).drop 24)),
          some (deadline : Int)⟩, ?_, rfl, ?_, deadline, rfl, ?_⟩
        · rw [withdrawnLog, named]
          dsimp only
          rw [if_pos (by simpa using room), withdrawnOf, id, read 1 balance rfl,
            read 3 deadline rfl]
          rfl
        · rw [wordToU128]
          norm_cast
        · rw [wordToU64, UInt64.toNat_ofNat']
          norm_cast
    | _ => simp [signature, withdrawalSignature] at same
  · cases event with
    | escapeWithdrawalFinalized noteId nullifier finalBalance =>
        have plain : "finalize" ≠ "escape" := by decide
        obtain ⟨noteTopic, others, _, balance, _, rfl, rfl, id, rfl⟩ := shape
        have id := bigInt_noteId known formed (by rw [named]; simp) id
        obtain ⟨value, found, own, paid, none⟩ :=
          withdrawnLog_plain plain named (by simpa using room) id (read 1 balance rfl)
        refine ⟨value, found, own, ?_, none⟩
        rw [paid, wordToU128]
        norm_cast
    | _ => simp [signature, withdrawalSignature] at same

/-- The page finds in a receipt the deposit that the indexer finds first in it, with the same
note, or none if there is none.  Logs of other contracts may say what they want. -/
theorem parseNoteDeposited_indexed (known : Known P) (logs : List ReceiptLog)
    (formed : ∀ log ∈ logs, log.isAt vaultAddress = true → WellFormed P log) :
    ∃ found, parseNoteDeposited logs vaultAddress = .ok found ∧
      Option.Rel Deposited.Agrees found ((vaultEvents P logs vaultAddress).find? fun event =>
        signature event = "NoteDeposited(uint32,bytes32,uint128,uint64,uint256)") := by
  refine firstLog_indexed known (by simp [signatures]) known.deposited ?_ logs formed
  intro log event own decoded same
  exact depositedLog_reads known own decoded same

/-- Digests of the signatures that the page knows. -/
def sampleKeccak (text : String) : String :=
  if text = "NoteDeposited(uint32,bytes32,uint128,uint64,uint256)" then
    "7c83dba8534bea9e30d6444f9ca6462dc906897f9938d220dbbe4358c1f7a063"
  else if text = "MutualClose(uint32,uint256,uint128,address)" then
    "1f43fa4711ca18e1d26398f26bf598bd3a62992cdd0e84f055f2bb506e9d7031"
  else if text =
      "EscapeWithdrawalInitiated(uint32,uint256,uint128,address,uint64,uint256)" then
    "b0d1eb7131bcf3c6dd53517f6fa90bf7cc94178eb0eb5e0a1f204abe3b839cdf"
  else if text = "EscapeWithdrawalFinalized(uint32,uint256,uint128,address)" then
    "163f2e46c4004f0ed9682e2db8c84efac31310720266b17ea9904ba348c26504"
  else text

noncomputable def sampleProtocol : Protocol :=
  { Reference.protocol with
    keccak256Hex := sampleKeccak
    feltFromHex := fun text => (hexQuantity text).map Felt252.mk }

theorem sampleKnown : Known sampleProtocol where
  deposited := by decide
  closed := by decide
  initiated := by decide
  finalized := by decide
  distinct := by decide
  reads text number felt quantity decoded := by
    change (hexQuantity text).map Felt252.mk = some felt at decoded
    rw [quantity] at decoded
    cases decoded
    rfl

def sampleVault : String := "0xCCCCCCCCCCCCCCCCCCCCCCCCCCCCCCCCCCCCCCCC"

/-- A word of the data. -/
def sampleWord (value : Nat) : List Char :=
  padStart 64 (Nat.toDigits 16 value)

def sampleTopic (value : Nat) : String :=
  String.ofList ('0' :: 'x' :: sampleWord value)

/-- A log of another contract that looks like a deposit, and then one of the vault. -/
def sampleDepositLogs : List ReceiptLog :=
  [⟨some "0xdddddddddddddddddddddddddddddddddddddddd", [noteDepositedTopic, "x", "y"], none⟩,
    ⟨some (lowerCase sampleVault), [noteDepositedTopic, sampleTopic 3, sampleTopic 5],
      some (String.ofList ('0' :: 'x' :: ([7, 8, 9].map sampleWord).flatten))⟩]

/-- The checks that make a log well-formed. -/
theorem wellFormed_of_checks {log : ReceiptLog} {text : List Char}
    (data : log.data = some (String.ofList ('0' :: 'x' :: text)))
    (digits : (text.mapM hexDigit).isSome = true)
    (topics : log.topics.all
      (fun topic => (hexQuantity topic).isSome && lowerCase topic = topic) = true)
    (decodes : (decodeLog P log.rpc).toOption.isSome = true) : WellFormed P log where
  data := by
    obtain ⟨values, read⟩ := Option.isSome_iff_exists.mp digits
    exact ⟨_, text, values, data, by rw [String.toList_ofList], read⟩
  topics topic member := by simpa using List.all_eq_true.mp topics topic member
  decodes := decodes

theorem sampleDepositLogs_formed :
    ∀ log ∈ sampleDepositLogs, log.isAt sampleVault = true → WellFormed sampleProtocol log := by
  intro log member here
  rcases List.mem_cons.mp member with rfl | member
  · exact absurd here (by decide)
  · cases List.mem_singleton.mp member
    exact wellFormed_of_checks rfl (by decide +kernel) (by decide +kernel) (by decide +kernel)

theorem parseNoteDeposited_indexed_sample :
    (parseNoteDeposited sampleDepositLogs sampleVault).toOption.any Option.isSome = true ∧
    ∃ found, parseNoteDeposited sampleDepositLogs sampleVault = .ok found ∧
      Option.Rel Deposited.Agrees found
        ((vaultEvents sampleProtocol sampleDepositLogs sampleVault).find? fun event =>
          signature event = "NoteDeposited(uint32,bytes32,uint128,uint64,uint256)") :=
  ⟨by decide +kernel, parseNoteDeposited_indexed sampleKnown _ sampleDepositLogs_formed⟩

/-- The page finds in a receipt the withdrawal of its mode that the indexer finds first in it,
with the same note and balance, or none if there is none. -/
theorem parseWithdrawalReceipt_indexed (known : Known P) (logs : List ReceiptLog)
    (formed : ∀ log ∈ logs, log.isAt vaultAddress = true → WellFormed P log) {mode : String}
    (sensible : mode = "mutual" ∨ mode = "escape" ∨ mode = "finalize") :
    ∃ found, parseWithdrawalReceipt logs vaultAddress mode = .ok found ∧
      Option.Rel Withdrawn.Agrees found ((vaultEvents P logs vaultAddress).find? fun event =>
        signature event = withdrawalSignature mode) := by
  obtain ⟨topic, minimumWords, chosen, named⟩ : ∃ topic minimumWords,
      withdrawalEvent mode = .ok (topic, minimumWords) ∧
        eventTopic P (withdrawalSignature mode) = topic := by
    rcases sensible with rfl | rfl | rfl
    · exact ⟨_, _, rfl, known.closed⟩
    · exact ⟨_, _, rfl, known.initiated⟩
    · exact ⟨_, _, rfl, known.finalized⟩
  rw [parseWithdrawalReceipt, chosen]
  have member : withdrawalSignature mode ∈ signatures := by
    rcases sensible with rfl | rfl | rfl <;> simp [withdrawalSignature, signatures]
  refine firstLog_indexed known member named ?_ logs formed
  intro log event own decoded same
  exact withdrawnLog_reads known own chosen decoded same

/-- The words seven to eleven. -/
def sampleEscapeDigits : List Char :=
  (['7', '8', '9', 'a', 'b'].map fun digit => List.replicate 63 '0' ++ [digit]).flatten

/-- An escape of note three. -/
def sampleEscapeLog : ReceiptLog :=
  ⟨some (lowerCase sampleVault), [escapeInitiatedEventTopic, sampleTopic 3],
    some (String.ofList ('0' :: 'x' :: sampleEscapeDigits))⟩

theorem sampleEscapeLog_words :
    splitWords (String.ofList ('0' :: 'x' :: sampleEscapeDigits)) = .ok [7, 8, 9, 10, 11] := by
  rw [splitWords, String.toList_ofList]
  set_option maxRecDepth 20000 in decide

theorem sampleEscapeLog_noteId : topicToU32 sampleProtocol (sampleTopic 3) = .ok 3 := by decide

theorem sampleEscapeLog_decoded : decodeLog sampleProtocol sampleEscapeLog.rpc =
    .ok (some (.escapeWithdrawalInitiated 3 ⟨7⟩ 8 10 ⟨11⟩, some ⟨11⟩)) := by
  have named := sampleKnown.initiated
  have apart : ∀ signature ∈ signatures, signature ≠
      "EscapeWithdrawalInitiated(uint32,uint256,uint128,address,uint64,uint256)" →
        escapeInitiatedEventTopic ≠ eventTopic sampleProtocol signature := by
    intro signature member different same
    apply different
    exact (sampleKnown.distinct _ (by simp [signatures]) _ member (named.trans same)).symm
  have deposited := apart "NoteDeposited(uint32,bytes32,uint128,uint64,uint256)"
    (by simp [signatures]) (by decide)
  have closed := apart "MutualClose(uint32,uint256,uint128,address)" (by simp [signatures])
    (by decide)
  simp only [decodeLog, sampleEscapeLog, ReceiptLog.rpc, Option.getD_some, sampleEscapeLog_words,
    if_neg deposited, if_neg closed, if_pos named.symm]
  simp only [bind, Except.bind, sampleEscapeLog_noteId]
  rfl

theorem sampleEscapeLog_formed : WellFormed sampleProtocol sampleEscapeLog where
  data := ⟨_, sampleEscapeDigits, _, rfl, by rw [String.toList_ofList], by
    set_option maxRecDepth 20000 in rfl⟩
  topics := by decide
  decodes := by rw [sampleEscapeLog_decoded]; rfl

/-- A log of another contract that looks like an escape, and then one of the vault. -/
def sampleEscapeLogs : List ReceiptLog :=
  [⟨some "0xdddddddddddddddddddddddddddddddddddddddd", [escapeInitiatedEventTopic, "x"], none⟩,
    sampleEscapeLog]

/-- A log of another contract that looks like an escape is passed over. -/
theorem sampleEscapeLogs_own :
    sampleEscapeLogs.filter (·.isAt sampleVault) = [sampleEscapeLog] := by
  have foreign : ReceiptLog.isAt ⟨some "0xdddddddddddddddddddddddddddddddddddddddd",
      [escapeInitiatedEventTopic, "x"], none⟩ sampleVault = false := by decide
  have own : sampleEscapeLog.isAt sampleVault = true := by
    simp [ReceiptLog.isAt, sampleEscapeLog, lowerCase_lowerCase]
  simp only [sampleEscapeLogs, List.filter_cons, foreign, own, if_true, Bool.false_eq_true,
    if_false, List.filter_nil]

theorem sampleEscapeLogs_events : vaultEvents sampleProtocol sampleEscapeLogs sampleVault =
    [.escapeWithdrawalInitiated 3 ⟨7⟩ 8 10 ⟨11⟩] := by
  have event : eventOf sampleProtocol sampleEscapeLog.rpc =
      some (.escapeWithdrawalInitiated 3 ⟨7⟩ 8 10 ⟨11⟩) := by
    rw [eventOf, sampleEscapeLog_decoded]
  rw [vaultEvents, sampleEscapeLogs_own, eventsOf, List.map_singleton,
    List.filterMap_cons_some event, List.filterMap_nil]

/-- Both sides find the escape of note three. -/
theorem parseWithdrawalReceipt_indexed_sample : ∃ found event,
    parseWithdrawalReceipt sampleEscapeLogs sampleVault "escape" = .ok (some found) ∧
      ((vaultEvents sampleProtocol sampleEscapeLogs sampleVault).find? fun event =>
        signature event = withdrawalSignature "escape") = some event ∧ found.Agrees event := by
  have formed : ∀ log ∈ sampleEscapeLogs, log.isAt sampleVault = true →
      WellFormed sampleProtocol log := by
    intro log member here
    have inside : log ∈ sampleEscapeLogs.filter (·.isAt sampleVault) :=
      List.mem_filter.mpr ⟨member, here⟩
    rw [sampleEscapeLogs_own, List.mem_singleton] at inside
    rw [inside]
    exact sampleEscapeLog_formed
  have shown : ((vaultEvents sampleProtocol sampleEscapeLogs sampleVault).find? fun event =>
      signature event = withdrawalSignature "escape") =
        some (.escapeWithdrawalInitiated 3 ⟨7⟩ 8 10 ⟨11⟩) := by
    rw [sampleEscapeLogs_events]
    rfl
  obtain ⟨found, parsed, agrees⟩ :=
    parseWithdrawalReceipt_indexed sampleKnown sampleEscapeLogs formed (.inr (.inl rfl))
  rw [shown] at agrees
  cases agrees with
  | some same => exact ⟨_, _, parsed, shown, same⟩

end Agreement

end ZkApi.Browser.Receipts
