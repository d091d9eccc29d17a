import ZkApi.ProtocolFunctions
import ZkApi.TreeMirror

/-!
# Logs of the vault contract

The poller receives logs as hexadecimal text and turns them into vault events.
A log without topics or with a foreign topic is skipped; a log of the vault
that does not have the shape of its event is an error.
-/

namespace ZkApi.Indexer

structure RpcLog where
  blockNumber : String
  data : String
  topics : List String
deriving DecidableEq

section Text

/-- The characters that trimming removes. -/
def isWhiteSpace (char : Char) : Bool :=
  let code := char.toNat
  (9 ≤ code && code ≤ 13) || code == 0x20 || code == 0x85 || code == 0xA0 || code == 0x1680 ||
    (0x2000 ≤ code && code ≤ 0x200A) || code == 0x2028 || code == 0x2029 || code == 0x202F ||
    code == 0x205F || code == 0x3000

def trim (text : List Char) : List Char :=
  ((text.dropWhile isWhiteSpace).reverse.dropWhile isWhiteSpace).reverse

/-- Remove one hexadecimal prefix. -/
def stripHexPrefix : List Char → List Char
  | '0' :: 'x' :: digits => digits
  | '0' :: 'X' :: digits => digits
  | text => text

def hexDigit (char : Char) : Option Nat :=
  if '0' ≤ char ∧ char ≤ '9' then some (char.toNat - '0'.toNat)
  else if 'a' ≤ char ∧ char ≤ 'f' then some (char.toNat - 'a'.toNat + 10)
  else if 'A' ≤ char ∧ char ≤ 'F' then some (char.toNat - 'A'.toNat + 10)
  else none

theorem hexDigit_lt {letter : Char} (digit : (hexDigit letter).isSome = true) :
    letter.toNat < 103 := by
  have range : letter ≤ '9' ∨ letter ≤ 'f' ∨ letter ≤ 'F' := by
    simp only [hexDigit] at digit
    grind
  simp only [Char.le_def, UInt32.le_iff_toNat_le] at range
  have ends : '9'.val.toNat = 57 ∧ 'f'.val.toNat = 102 ∧ 'F'.val.toNat = 70 := by decide
  rw [ends.1, ends.2.1, ends.2.2] at range
  show letter.val.toNat < 103
  omega

/-- The value of big-endian digits. -/
def ofDigits (digits : List Nat) : Nat :=
  digits.foldl (fun value digit => 16 * value + digit) 0

/-- Cut a list of digits into 32-byte words. -/
def wordsOf : Nat → List Nat → List Nat
  | 0, _ => []
  | count + 1, digits => ofDigits (digits.take 64) :: wordsOf count (digits.drop 64)

/-- The 32-byte words of the data of a log, each as the number it encodes. -/
def splitWords (data : String) : Except String (List Nat) :=
  let raw := stripHexPrefix (trim data.toList)
  if raw.isEmpty then .ok []
  else if (String.ofList raw).utf8ByteSize % 64 ≠ 0 then
    .error "log data is not a whole number of 32-byte words"
  else match raw.mapM hexDigit with
    | none => .error "invalid hex in log data"
    | some digits => .ok (wordsOf (digits.length / 64) digits)

end Text

section Decoding

def wordToU64 (word : Nat) : UInt64 :=
  UInt64.ofNat word

def wordToU128 (word : Nat) : Nat :=
  word % 2 ^ 128

def wordToFelt (word : Nat) : Felt252 :=
  ⟨word⟩

variable (P : Protocol)

def eventTopic (signature : String) : String :=
  "0x" ++ P.keccak256Hex signature

def topicToFelt (topic : String) : Except String Felt252 :=
  match P.feltFromHex topic with
  | some felt => .ok felt
  | none => .error s!"invalid topic felt {topic}"

def topicToU32 (topic : String) : Except String UInt32 :=
  match P.feltFromHex topic with
  | none => .error s!"invalid indexed topic {topic}"
  | some felt =>
      if felt.value < 2 ^ 64 then
        if felt.value < 2 ^ 32 then .ok (UInt32.ofNat felt.value)
        else .error "indexed note id does not fit in u32"
      else .error "indexed note id does not fit in u64"

/-- The event of a log, with the root that the contract emitted along with it. -/
def decodeLog (log : RpcLog) : Except String (Option (VaultEvent × Option Felt252)) :=
  match log.topics with
  | [] => .ok none
  | topic :: topics => do
      let words ← splitWords log.data
      if topic = eventTopic P "NoteDeposited(uint32,bytes32,uint128,uint64,uint256)" then
        match topics, words with
        | noteTopic :: commitmentTopic :: _, [amount, expiryTs, newRoot] =>
            let noteId ← topicToU32 P noteTopic
            let commitment ← topicToFelt P commitmentTopic
            return some (.noteDeposited noteId commitment (wordToU128 amount)
              (wordToU64 expiryTs) (wordToFelt newRoot), some (wordToFelt newRoot))
        | _, _ => .error "malformed NoteDeposited log"
      else if topic = eventTopic P "MutualClose(uint32,uint256,uint128,address)" then
        match topics, words with
        | noteTopic :: _, [nullifier, finalBalance, _] =>
            let noteId ← topicToU32 P noteTopic
            return some (.mutualClose noteId (wordToFelt nullifier) (wordToU128 finalBalance), none)
        | _, _ => .error "malformed MutualClose log"
      else if topic =
          eventTopic P "EscapeWithdrawalInitiated(uint32,uint256,uint128,address,uint64,uint256)"
      then
        match topics, words with
        | noteTopic :: _, [nullifier, finalBalance, _, challengeDeadline, newRoot] =>
            let noteId ← topicToU32 P noteTopic
            return some (.escapeWithdrawalInitiated noteId (wordToFelt nullifier)
              (wordToU128 finalBalance) (wordToU64 challengeDeadline) (wordToFelt newRoot),
              some (wordToFelt newRoot))
        | _, _ => .error "malformed EscapeWithdrawalInitiated log"
      else if topic = eventTopic P "EscapeWithdrawalChallenged(uint32,uint256,uint256)" then
        match topics, words with
        | noteTopic :: _, [nullifier, restoredRoot] =>
            let noteId ← topicToU32 P noteTopic
            return some (.escapeWithdrawalChallenged noteId (wordToFelt nullifier)
              (wordToFelt restoredRoot), some (wordToFelt restoredRoot))
        | _, _ => .error "malformed EscapeWithdrawalChallenged log"
      else if topic = eventTopic P "EscapeWithdrawalFinalized(uint32,uint256,uint128,address)" then
        match topics, words with
        | noteTopic :: _, [nullifier, finalBalance, _] =>
            let noteId ← topicToU32 P noteTopic
            return some (.escapeWithdrawalFinalized noteId (wordToFelt nullifier)
              (wordToU128 finalBalance), none)
        | _, _ => .error "malformed EscapeWithdrawalFinalized log"
      else if topic = eventTopic P "ExpiredClaimed(uint32,uint128,uint256)" then
        match topics, words with
        | noteTopic :: _, [depositAmount, newRoot] =>
            let noteId ← topicToU32 P noteTopic
            return some (.expiredClaimed noteId (wordToU128 depositAmount) (wordToFelt newRoot),
              some (wordToFelt newRoot))
        | _, _ => .error "malformed ExpiredClaimed log"
      else return none

/-- The event that a log decodes to, if it does. -/
def eventOf (log : RpcLog) : Option VaultEvent :=
  match decodeLog P log with
  | .ok (some (event, _)) => some event
  | _ => none

/-- All decodable logs of a list, as events. -/
def eventsOf (logs : List RpcLog) : List VaultEvent :=
  logs.filterMap (eventOf P)

/-- A reply that shows the given logs up to the first one that does not decode:
nothing after that one is read. -/
def truthful : List RpcLog → List RpcLog → Bool
  | [], [] => true
  | [], _ :: _ => false
  | log :: _, [] => (decodeLog P log).toOption.isNone
  | log :: reply, logged :: logs =>
      (decodeLog P log).toOption.isNone || (log == logged && truthful reply logs)

end Decoding

end ZkApi.Indexer
