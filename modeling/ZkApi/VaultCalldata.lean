import ZkApi.AbiDecoding
import ZkApi.Destinations
import ZkApi.ExpiryHistory

/-!
# Calldata for the vault

The page encodes the calls of the vault by hand.  Values are numbers or hexadecimal texts, and
each becomes a word of sixty-four digits.
-/

namespace ZkApi.Browser.Calldata

open Indexer Expiry Traversal

section Values

/-- A value of a plan: an integer or a text. -/
inductive Quantity where
  | integer (value : Nat)
  | text (value : String)
deriving DecidableEq

/-- `value.replace(/^0x/, "")`. -/
def strip0x : List Char → List Char
  | '0' :: 'x' :: digits => digits
  | text => text

/-- `/^[0-9a-fA-F]+$/`. -/
def isHex (digits : List Char) : Bool :=
  !digits.isEmpty && digits.all fun digit => (hexDigit digit).isSome

/-- `padStart(width, "0")`. -/
def padStart (width : Nat) (digits : List Char) : List Char :=
  List.replicate (width - digits.length) '0' ++ digits

/-- The digits of a value before they are filled up. -/
def Quantity.digits : Quantity → List Char
  | .integer value => Nat.toDigits 16 value
  | .text value => strip0x value.toList

def abiWord (value : Quantity) : Except String (List Char) :=
  if !isHex value.digits || 64 < value.digits.length then
    .error "Value cannot be encoded for the vault contract."
  else .ok (padStart 64 value.digits)

/-- `0x`, a selector and words. -/
def callData (selector : String) (words : List (List Char)) : String :=
  String.ofList ('0' :: 'x' :: (selector.toList ++ words.flatten))

def toBytes32 (felt : String) : String :=
  String.ofList ('0' :: 'x' :: padStart 64 (strip0x felt.toList))

/-- The selectors of the vault. -/
def depositSelector : String := "c588341c"

def mutualCloseSelector : String := "7fca9c82"

def initiateEscapeWithdrawalSelector : String := "9073639b"

end Values

section Deposits

/-- What a deposit plan says about the call.  A felt is a text. -/
structure DepositPlan where
  commitment : String
  zeroPath : Option (List Quantity)

def encodeDeposit (plan : DepositPlan) (amount : Quantity) : Except String String := do
  match plan.zeroPath with
  | none => .error "The daemon returned an invalid 32-level deposit path."
  | some path =>
      if path.length ≠ 32 then
        .error "The daemon returned an invalid 32-level deposit path."
      else
        let commitment ← abiWord (.text (toBytes32 plan.commitment))
        let amount ← abiWord amount
        let path ← path.mapM abiWord
        .ok (callData depositSelector (commitment :: amount :: path))

end Deposits

section Withdrawals

/-- The destination of a plan: a text or a list of numbers. -/
inductive Destination where
  | text (value : String)
  | bytes (values : List Int)
deriving DecidableEq

structure PublicInputs where
  protocolVersion : Quantity
  chainId : Quantity
  contractAddress : Quantity
  activeRoot : Quantity
  stateSigningKeyX : Quantity
  stateSigningKeyY : Quantity
  clearanceSigningKeyX : Quantity
  clearanceSigningKeyY : Quantity
  noteId : Quantity
  finalBalance : Quantity
  destination : Destination
  withdrawalNullifier : Quantity
  hasClearance : Bool
  withdrawalTag : Quantity

/-- A withdrawal plan of the daemon.  The proof may be no text, and the siblings no list. -/
structure WithdrawalPlan where
  mode : String
  backend : String
  proof : Option String
  siblings : Option (List Quantity)
  inputs : PublicInputs

/-- What the browser provides: base64 decoding, and the text of a number. -/
structure Platform where
  atob : String → Option (List UInt8)
  numberText : Nat → String

def decodeBase64 (platform : Platform) (value : Option String) : Except String (List UInt8) :=
  match value with
  | none => .error "The daemon returned an empty withdrawal proof."
  | some text =>
      if text = "" then .error "The daemon returned an empty withdrawal proof."
      else match platform.atob text with
        | some bytes => .ok bytes
        | none => .error "The daemon returned malformed base64 proof data."

def bytesHex (bytes : List Nat) : List Char :=
  bytes.flatMap fun byte => padStart 2 (Nat.toDigits 16 byte)

/-- `/^0x[0-9a-fA-F]{40}$/`. -/
def isAddressText (text : String) : Bool :=
  match text.toList with
  | '0' :: 'x' :: digits =>
      digits.length == 40 && digits.all fun digit => (hexDigit digit).isSome
  | _ => false

def destinationHex : Destination → Except String String
  | .text value =>
      if isAddressText value then .ok (lowerCase value)
      else .error "The daemon returned an invalid withdrawal destination."
  | .bytes values =>
      if values.length ≠ 20 || values.any fun byte => byte < 0 || 255 < byte then
        .error "The daemon returned an invalid withdrawal destination."
      else .ok (String.ofList ('0' :: 'x' :: bytesHex (values.map Int.toNat)))

/-- `String(value)`. -/
def Quantity.toText (platform : Platform) : Quantity → String
  | .integer value => platform.numberText value
  | .text value => value

/-- The fields of the tuple in their order. -/
def tupleFields (inputs : PublicInputs) (destination : String) : List Quantity :=
  [inputs.protocolVersion, inputs.chainId, inputs.contractAddress, inputs.activeRoot,
    inputs.stateSigningKeyX, inputs.stateSigningKeyY, inputs.clearanceSigningKeyX,
    inputs.clearanceSigningKeyY, inputs.noteId, inputs.finalBalance, .text destination,
    inputs.withdrawalNullifier, .integer (if inputs.hasClearance then 1 else 0),
    inputs.withdrawalTag]

/-- The eight words of the proof. -/
def proofWords (proof : List UInt8) : List (List Char) :=
  (List.range 8).map fun index =>
    bytesHex (((proof.drop (index * 32)).take 32).map UInt8.toNat)

/-- `encodeWithdrawal`.  No vault is expected when its text is empty. -/
def encodeWithdrawal (platform : Platform) (plan : WithdrawalPlan)
    (expectedMode expectedDestination expectedVault : String) : Except String String := do
  let mode := lowerCase expectedMode
  if (mode ≠ "mutual" ∧ mode ≠ "escape") ∨ plan.mode ≠ mode then
    .error "The daemon returned a different withdrawal mode than requested."
  else if plan.backend ≠ "groth16_bn254" then
    .error "The daemon returned an unsupported withdrawal proof backend."
  else match plan.siblings with
    | none => .error "The daemon returned an invalid 32-level withdrawal path."
    | some siblings =>
        if siblings.length ≠ 32 then
          .error "The daemon returned an invalid 32-level withdrawal path."
        else
          let destination ← destinationHex plan.inputs.destination
          if destination ≠ lowerCase expectedDestination then
            .error "The proof destination does not match the connected MetaMask account."
          else if expectedVault ≠ "" ∧
              lowerCase (plan.inputs.contractAddress.toText platform) ≠ lowerCase expectedVault then
            .error "The withdrawal proof is bound to a different vault contract."
          else if plan.inputs.hasClearance ≠ (mode == "mutual") then
            .error "The withdrawal proof has the wrong server-clearance state."
          else
            let proof ← decodeBase64 platform plan.proof
            if proof.length ≠ 256 then
              .error "The Groth16 withdrawal proof must contain exactly 256 bytes."
            else
              let tuple ← (tupleFields plan.inputs destination).mapM abiWord
              let offset ← abiWord (.integer (47 * 32))
              let path ← siblings.mapM abiWord
              let length ← abiWord (.integer proof.length)
              let selector := if mode = "mutual" then mutualCloseSelector
                else initiateEscapeWithdrawalSelector
              .ok (callData selector (tuple ++ [offset] ++ path ++ [length] ++ proofWords proof))

end Withdrawals

section Decoding

/-- The digits of calldata after its prefix. -/
def calldataDigits (calldata : String) : Option (List Nat) :=
  match calldata.toList with
  | '0' :: 'x' :: digits => digits.mapM hexDigit
  | _ => none

/-- A withdrawal call as the vault decodes it: a tuple of fourteen words, bytes and a path of
thirty-two words. -/
structure WithdrawalCall where
  selector : Nat
  tuple : List Nat
  proof : List Nat
  path : List Nat
deriving DecidableEq

def decodeWithdrawal (calldata : String) : Option WithdrawalCall := do
  let digits ← calldataDigits calldata
  let arguments := digits.drop 8
  let tuple ← Abi.wordsAt arguments 0 14
  let offset ← Abi.wordAt arguments (32 * 14)
  let path ← Abi.wordsAt arguments (32 * 15) 32
  let proof ← Abi.dynamicBytes arguments offset
  some ⟨Abi.number (digits.take 8), tuple, proof, path⟩

/-- A deposit call as the vault decodes it. -/
structure DepositCall where
  selector : Nat
  commitment : Nat
  amount : Nat
  path : List Nat
deriving DecidableEq

def decodeDeposit (calldata : String) : Option DepositCall := do
  let digits ← calldataDigits calldata
  let arguments := digits.drop 8
  let commitment ← Abi.wordAt arguments 0
  let amount ← Abi.wordAt arguments (32 * 1)
  let path ← Abi.wordsAt arguments (32 * 2) 32
  some ⟨Abi.number (digits.take 8), commitment, amount, path⟩

/-- The number that hexadecimal digits denote. -/
def hexNumber (digits : List Char) : Option Nat :=
  (digits.mapM hexDigit).map Abi.number

/-- The number that a value denotes. -/
def Quantity.value : Quantity → Option Nat
  | .integer value => some value
  | .text written => hexNumber (strip0x written.toList)

/-- The number of a destination. -/
def Destination.value : Destination → Option Nat
  | .text written => hexNumber (strip0x written.toList)
  | .bytes values => some (Clientd.ofBytes (values.map Int.toNat))

/-- The numbers of the public inputs. -/
def PublicInputs.values (inputs : PublicInputs) : Option (List Nat) :=
  [inputs.protocolVersion.value, inputs.chainId.value, inputs.contractAddress.value,
    inputs.activeRoot.value, inputs.stateSigningKeyX.value, inputs.stateSigningKeyY.value,
    inputs.clearanceSigningKeyX.value, inputs.clearanceSigningKeyY.value, inputs.noteId.value,
    inputs.finalBalance.value, inputs.destination.value, inputs.withdrawalNullifier.value,
    some (if inputs.hasClearance then 1 else 0), inputs.withdrawalTag.value].mapM id

end Decoding

section Digits

theorem mapM_append_some {first second : List Char} {left right : List Nat}
    (one : first.mapM hexDigit = some left) (two : second.mapM hexDigit = some right) :
    (first ++ second).mapM hexDigit = some (left ++ right) := by
  simp [List.mapM_append, one, two]

theorem number_append (first second : List Nat) :
    Abi.number (first ++ second) =
      second.foldl (fun value digit => 16 * value + digit) (Abi.number first) := by
  rw [Abi.number, List.foldl_append]
  rfl

/-- Zeros in front of a number do not change it. -/
theorem number_zeros (count : Nat) (digits : List Nat) :
    Abi.number (List.replicate count 0 ++ digits) = Abi.number digits := by
  have zeros : Abi.number (List.replicate count 0) = 0 := by
    induction count with
    | zero => rfl
    | succ count ih =>
        rw [List.replicate_succ', number_append, ih]
        rfl
  rw [number_append, zeros]
  rfl

theorem mapM_zeros (count : Nat) :
    (List.replicate count '0').mapM hexDigit = some (List.replicate count 0) := by
  induction count with
  | zero => rfl
  | succ count ih =>
      rw [List.replicate_succ, List.mapM_cons, ih]
      rfl

theorem mapM_padStart {width : Nat} {text : List Char} {digits : List Nat}
    (read : text.mapM hexDigit = some digits) :
    (padStart width text).mapM hexDigit =
      some (List.replicate (width - text.length) 0 ++ digits) :=
  mapM_append_some (mapM_zeros _) read

theorem hexDigit_digitChar {digit : Nat} (small : digit < 16) :
    hexDigit (Nat.digitChar digit) = some digit := by
  have all : ∀ digit : Fin 16, hexDigit (Nat.digitChar digit) = some digit.val := by decide
  exact all ⟨digit, small⟩

/-- The digits of a number denote it. -/
theorem mapM_toDigits (value : Nat) :
    ∃ digits, (Nat.toDigits 16 value).mapM hexDigit = some digits ∧ Abi.number digits = value := by
  induction value using Nat.strong_induction_on with
  | _ value ih =>
      by_cases small : value < 16
      · refine ⟨[value], ?_, by simp [Abi.number]⟩
        rw [Nat.toDigits_of_lt_base small]
        simp [hexDigit_digitChar small]
      · obtain ⟨digits, read, same⟩ := ih (value / 16) (by omega)
        have last : [Nat.digitChar (value % 16)].mapM hexDigit = some [value % 16] := by
          simp [hexDigit_digitChar (Nat.mod_lt value (by omega : 0 < 16))]
        refine ⟨digits ++ [value % 16], ?_, ?_⟩
        · rw [Nat.toDigits_of_base_le (by omega) (by omega)]
          exact mapM_append_some read last
        · rw [number_append, same]
          simp only [List.foldl_cons, List.foldl_nil]
          omega

/-- The text of a byte is its two digits. -/
theorem mapM_byte {byte : Nat} (small : byte < 256) :
    (padStart 2 (Nat.toDigits 16 byte)).mapM hexDigit = some [byte / 16, byte % 16] := by
  by_cases digit : byte < 16
  · have quotient : byte / 16 = 0 := by omega
    have remainder : byte % 16 = byte := by omega
    have one : [Nat.digitChar byte].mapM hexDigit = some [byte] := by
      simp [hexDigit_digitChar digit]
    rw [Nat.toDigits_of_lt_base digit, quotient, remainder]
    exact mapM_padStart one
  · have high : byte / 16 < 16 := by omega
    have two : [Nat.digitChar (byte / 16), Nat.digitChar (byte % 16)].mapM hexDigit =
        some [byte / 16, byte % 16] := by
      simp [hexDigit_digitChar high, hexDigit_digitChar (Nat.mod_lt byte (by omega : 0 < 16))]
    rw [Nat.toDigits_of_base_le (by omega) (by omega), Nat.toDigits_of_lt_base high]
    exact mapM_padStart two

/-- The digits of bytes. -/
def byteDigits (bytes : List Nat) : List Nat :=
  bytes.flatMap fun byte => [byte / 16, byte % 16]

theorem mapM_bytesHex {bytes : List Nat} (small : ∀ byte ∈ bytes, byte < 256) :
    (bytesHex bytes).mapM hexDigit = some (byteDigits bytes) := by
  induction bytes with
  | nil => rfl
  | cons byte bytes ih =>
      have rest := ih fun other member => small other (List.mem_cons_of_mem _ member)
      exact mapM_append_some (mapM_byte (small byte List.mem_cons_self)) rest

theorem length_byteDigits (bytes : List Nat) : (byteDigits bytes).length = 2 * bytes.length := by
  induction bytes with
  | nil => rfl
  | cons byte bytes ih =>
      have split : byteDigits (byte :: bytes) = byte / 16 :: byte % 16 :: byteDigits bytes := rfl
      rw [split, List.length_cons, List.length_cons, ih, List.length_cons]
      omega

theorem bytesOf_byteDigits (bytes : List Nat) : Abi.bytesOf (byteDigits bytes) = bytes := by
  induction bytes with
  | nil => rfl
  | cons byte bytes ih =>
      have split : byteDigits (byte :: bytes) = byte / 16 :: byte % 16 :: byteDigits bytes := rfl
      have value : 16 * (byte / 16) + byte % 16 = byte := by omega
      rw [split, Abi.bytesOf, ih, value]

theorem byteDigits_append (first second : List Nat) :
    byteDigits (first ++ second) = byteDigits first ++ byteDigits second :=
  List.flatMap_append

/-- Bytes denote the same number as their digits. -/
theorem number_byteDigits (bytes : List Nat) :
    Abi.number (byteDigits bytes) = Clientd.ofBytes bytes := by
  have general : ∀ initial, (byteDigits bytes).foldl (fun value digit => 16 * value + digit) initial =
      bytes.foldl (fun value byte => 256 * value + byte) initial := by
    induction bytes with
    | nil => intro initial; rfl
    | cons byte bytes ih =>
        intro initial
        have split : byteDigits (byte :: bytes) = byte / 16 :: byte % 16 :: byteDigits bytes := rfl
        rw [split, List.foldl_cons, List.foldl_cons, ih, List.foldl_cons]
        congr 1
        omega
  exact general 0

end Digits

section Words

/-- A word of letters and its digits. -/
structure WordReads (word : List Char) (digits : List Nat) : Prop where
  read : word.mapM hexDigit = some digits
  length : digits.length = Abi.wordDigits

/-- A value that is encoded is a word with its number. -/
theorem abiWord_reads {value : Quantity} {word : List Char} (encoded : abiWord value = .ok word) :
    ∃ digits, WordReads word digits ∧ value.value = some (Abi.number digits) := by
  unfold abiWord at encoded
  split at encoded
  · cases encoded
  · rename_i accepted
    cases encoded
    simp only [Bool.or_eq_true, Bool.not_eq_true', decide_eq_true_eq, not_or, Bool.not_eq_false,
      not_lt, isHex, Bool.and_eq_true, List.all_eq_true] at accepted
    obtain ⟨digits, read⟩ := mapM_of_all accepted.1.2
    refine ⟨_, ⟨mapM_padStart read, ?_⟩, ?_⟩
    · rw [List.length_append, List.length_replicate, length_of_mapM read, Abi.wordDigits]
      have short := accepted.2
      omega
    · rw [number_zeros]
      cases value with
      | integer value =>
          obtain ⟨others, again, same⟩ := mapM_toDigits value
          have equal : digits = others := Option.some.inj (read.symm.trans again)
          rw [equal, same]
          rfl
      | text written =>
          change hexNumber (strip0x written.toList) = _
          have here : (strip0x written.toList).mapM hexDigit = some digits := read
          rw [hexNumber, here]
          rfl

/-- Values that are encoded one after the other. -/
theorem mapM_abiWord_reads {values : List Quantity} {words : List (List Char)}
    (encoded : values.mapM abiWord = .ok words) :
    ∃ digits, List.Forall₂ WordReads words digits ∧
      values.mapM Quantity.value = some (digits.map Abi.number) := by
  have all := mapM_eq_ok_iff.mp encoded
  clear encoded
  induction all with
  | nil => exact ⟨[], .nil, rfl⟩
  | cons head tail ih =>
      obtain ⟨first, reads, value⟩ := abiWord_reads head
      obtain ⟨rest, others, more⟩ := ih
      exact ⟨first :: rest, .cons reads others, by simp [value, more]⟩

theorem words_of_reads {words : List (List Char)} {digits : List (List Nat)}
    (reads : List.Forall₂ WordReads words digits) :
    words.flatten.mapM hexDigit = some digits.flatten ∧ Abi.Words digits := by
  induction reads with
  | nil => exact ⟨rfl, by simp [Abi.Words]⟩
  | cons head tail ih =>
      exact ⟨mapM_append_some head.read ih.1, List.forall_mem_cons.mpr ⟨head.length, ih.2⟩⟩

/-- Calldata of a selector and words is read as their digits. -/
theorem calldataDigits_callData {selector : String} {chosen : List Nat}
    (read : selector.toList.mapM hexDigit = some chosen) {words : List (List Char)}
    {digits : List (List Nat)} (reads : List.Forall₂ WordReads words digits) :
    calldataDigits (callData selector words) = some (chosen ++ digits.flatten) := by
  rw [calldataDigits, callData, String.toList_ofList]
  exact mapM_append_some read (words_of_reads reads).1

end Words

end ZkApi.Browser.Calldata
