import ZkApi.ClientTypes
import ZkApi.Traversals
import ZkApi.VaultLogs

/-!
# Payout addresses

The daemon and the command line each decode the address that a withdrawal pays to.  Both cut
forty bytes into pairs and read every pair as a number, and a number may have a sign in front of
its digits.
-/

namespace ZkApi.Clientd

open Indexer Traversal

section Parsing

/-- `str::as_bytes`. -/
def asBytes (text : List Char) : List UInt8 :=
  text.flatMap String.utf8EncodeChar

/-- `str::from_utf8`. -/
def fromUtf8 (bytes : List UInt8) : Option (List Char) :=
  (String.fromUTF8? ⟨bytes.toArray⟩).map String.toList

/-- `slice::chunks` with two elements in a chunk. -/
def chunksOfTwo : List UInt8 → List (List UInt8)
  | first :: second :: rest => [first, second] :: chunksOfTwo rest
  | [last] => [[last]]
  | [] => []

/-- Digits as a byte, unless there is another character or the number is too large. -/
def u8OfHexDigits (digits : List Char) : Option Nat :=
  (digits.mapM hexDigit).bind fun values =>
    if ofDigits values < 256 then some (ofDigits values) else none

/-- `u8::from_str_radix` for hexadecimal numbers.  A sign alone is no number, and a minus is
no digit of an unsigned one. -/
def u8FromStrRadix16 : List Char → Option Nat
  | [] | ['+'] | ['-'] => none
  | '+' :: digits => u8OfHexDigits digits
  | digits => u8OfHexDigits digits

/-- Why an address is refused: its length, bytes that are no text, or a text that is no byte. -/
inductive DestinationError where
  | message (text : String)
  | utf8 (chunk : List UInt8)
  | parseInt (part : List Char)
deriving DecidableEq

def decodeChunk (chunk : List UInt8) : Except DestinationError Nat :=
  match fromUtf8 chunk with
  | none => .error (.utf8 chunk)
  | some part =>
      match u8FromStrRadix16 part with
      | none => .error (.parseInt part)
      | some byte => .ok byte

/-- `strip_prefix("0x")`. -/
def stripPrefix0x : List Char → List Char
  | '0' :: 'x' :: digits => digits
  | text => text

/-- The address whose bytes these are. -/
def addressOfBytes (bytes : List Nat) : Address :=
  BitVec.ofNat 160 (bytes.foldl (fun value byte => 256 * value + byte) 0)

def decodeDestination (value : String) : Except DestinationError Address :=
  let hex := stripPrefix0x value.toList
  if (asBytes hex).length ≠ 40 then
    .error (.message "destination must be a 20-byte hex address")
  else ((chunksOfTwo (asBytes hex)).mapM decodeChunk).map addressOfBytes

/-- The copy of the daemon. -/
def parseDestination (value : String) : Except DestinationError Address :=
  decodeDestination value

/-- The copy of the command line. -/
def cliParseDestination (value : String) : Except DestinationError Address :=
  decodeDestination value

end Parsing

section Specification

/-- A text is forty hexadecimal digits with an optional prefix, and the address is the number
that they encode. -/
def Denotes (value : String) (address : Address) : Prop :=
  ∃ digits values, (value.toList = digits ∨ value.toList = '0' :: 'x' :: digits) ∧
    digits.length = 40 ∧ digits.mapM hexDigit = some values ∧ address.toNat = ofDigits values ∧
      formatAddress address = "0x" ++ String.ofList (digits.map Char.toLower)

/-- The text is decoded exactly as it denotes an address, and refused otherwise. -/
def DecodesExactly (parse : String → Except DestinationError Address) (value : String) : Prop :=
  ∀ address, parse value = .ok address ↔ Denotes value address

/-- Two hexadecimal digits, or one after a plus. -/
inductive PairReads : List Char → Nat → Prop where
  | digits {high low : Char} {first second : Nat} (highDigit : hexDigit high = some first)
      (lowDigit : hexDigit low = some second) : PairReads [high, low] (16 * first + second)
  | signed {low : Char} {second : Nat} (lowDigit : hexDigit low = some second) :
      PairReads ['+', low] second

/-- After its prefix the text has twenty pairs that each have a digit or a plus before a digit,
and some pair has a plus. -/
def HasSignedPair (value : String) : Prop :=
  ∃ pairs : List (List Char), stripPrefix0x value.toList = pairs.flatten ∧ pairs.length = 20 ∧
    (∀ pair ∈ pairs, ∃ byte, PairReads pair byte) ∧ ∃ pair ∈ pairs, pair.head? = some '+'

end Specification

section Digits

theorem hexDigit_spec {letter : Char} {digit : Nat} (found : hexDigit letter = some digit) :
    letter.toNat < 128 ∧ digit < 16 ∧ Nat.digitChar digit = letter.toLower := by
  have all : ∀ code : Fin 103, ∀ digit, hexDigit (Char.ofNat code) = some digit →
      digit < 16 ∧ Nat.digitChar digit = (Char.ofNat code).toLower := by
    intro code digit found
    have value : ∀ code : Fin 103, (hexDigit (Char.ofNat code)).all fun digit =>
        decide (digit < 16 ∧ Nat.digitChar digit = (Char.ofNat code).toLower) := by decide
    have here := value code
    rw [found] at here
    exact of_decide_eq_true here
  have small : letter.toNat < 103 := hexDigit_lt (by rw [found]; rfl)
  have here := all ⟨letter.toNat, small⟩ digit
  rw [Char.ofNat_toNat] at here
  exact ⟨by omega, here found⟩

/-- The number that bytes encode, the highest first. -/
def ofBytes (bytes : List Nat) : Nat :=
  bytes.foldl (fun value byte => 256 * value + byte) 0

theorem ofBytes_append_singleton (bytes : List Nat) (byte : Nat) :
    ofBytes (bytes ++ [byte]) = 256 * ofBytes bytes + byte := by
  simp [ofBytes, List.foldl_append]

theorem ofBytes_lt {bytes : List Nat} (small : ∀ byte ∈ bytes, byte < 256) :
    ofBytes bytes < 256 ^ bytes.length := by
  induction bytes using List.reverseRecOn with
  | nil => simp [ofBytes]
  | append_singleton bytes byte ih =>
      have before := ih fun byte member => small byte (List.mem_append_left _ member)
      have last := small byte (by simp)
      rw [ofBytes_append_singleton, List.length_append, List.length_singleton, pow_succ]
      omega

/-- The bytes of a number are the ones that it is made of. -/
theorem bigEndianBytes_ofBytes {bytes : List Nat} (small : ∀ byte ∈ bytes, byte < 256) :
    bigEndianBytes bytes.length (ofBytes bytes) = bytes := by
  induction bytes using List.reverseRecOn with
  | nil => rfl
  | append_singleton bytes byte ih =>
      have before := ih fun byte member => small byte (List.mem_append_left _ member)
      have last := small byte (by simp)
      have quotient : (256 * ofBytes bytes + byte) / 256 = ofBytes bytes := by omega
      have remainder : (256 * ofBytes bytes + byte) % 256 = byte := by omega
      rw [List.length_append, List.length_singleton, bigEndianBytes, ofBytes_append_singleton,
        quotient, remainder, before]

theorem toNat_addressOfBytes {bytes : List Nat} (small : ∀ byte ∈ bytes, byte < 256)
    (length : bytes.length = 20) : (addressOfBytes bytes).toNat = ofBytes bytes := by
  have less := ofBytes_lt small
  rw [length] at less
  have words : 256 ^ 20 = 2 ^ 160 := by norm_num
  rw [words] at less
  exact (BitVec.toNat_ofNat _ _).trans (Nat.mod_eq_of_lt less)

theorem formatAddress_addressOfBytes {bytes : List Nat} (small : ∀ byte ∈ bytes, byte < 256)
    (length : bytes.length = 20) :
    formatAddress (addressOfBytes bytes) = "0x" ++ String.ofList (bytes.flatMap byteHex) := by
  have own := bigEndianBytes_ofBytes small
  rw [length] at own
  rw [formatAddress, toNat_addressOfBytes small length, own]

end Digits

section Bytes

theorem asBytes_append (first second : List Char) :
    asBytes (first ++ second) = asBytes first ++ asBytes second :=
  List.flatMap_append

theorem asBytes_flatten (parts : List (List Char)) :
    asBytes parts.flatten = (parts.map asBytes).flatten := by
  induction parts with
  | nil => rfl
  | cons part parts ih =>
      rw [List.flatten_cons, asBytes_append, ih, List.map_cons, List.flatten_cons]

theorem asBytes_injective {first second : List Char} (same : asBytes first = asBytes second) :
    first = second := by
  have encoded : (String.ofList first).toByteArray = (String.ofList second).toByteArray := by
    rw [String.toByteArray_ofList, String.toByteArray_ofList, List.utf8Encode, List.utf8Encode]
    exact congrArg List.toByteArray same
  exact String.ofList_injective (String.toByteArray_inj.mp encoded)

theorem fromUtf8_iff (bytes : List UInt8) (text : List Char) :
    fromUtf8 bytes = some text ↔ asBytes text = bytes := by
  constructor
  · intro decoded
    simp only [fromUtf8, String.fromUTF8?] at decoded
    split at decoded
    case isTrue valid =>
      have letters : (String.fromUTF8 ⟨bytes.toArray⟩ valid).toList = text := by simpa using decoded
      have encoded : text.utf8Encode = ⟨bytes.toArray⟩ := by
        rw [← letters, String.utf8Encode_toList]
        rfl
      rw [List.utf8Encode] at encoded
      have data := congrArg (fun bytes => bytes.data.toList) encoded
      simpa [asBytes] using data
    case isFalse => cases decoded
  · rintro rfl
    have encoded : (⟨(asBytes text).toArray⟩ : ByteArray) = text.utf8Encode := by
      rw [List.utf8Encode]
      ext1
      simp [asBytes]
    have valid : (⟨(asBytes text).toArray⟩ : ByteArray).IsValidUTF8 := ⟨text, encoded⟩
    have decoded : String.fromUTF8 _ valid = String.ofList text := by
      apply String.toByteArray_inj.mp
      rw [String.toByteArray_ofList, ← encoded]
      rfl
    rw [fromUtf8, String.fromUTF8?, dif_pos valid, Option.map_some, decoded, String.toList_ofList]

theorem utf8EncodeChar_ascii {letter : Char} (ascii : letter.toNat < 128) :
    String.utf8EncodeChar letter = [UInt8.ofNat letter.toNat] := by
  have small : letter.val.toNat ≤ 0x7f := by
    change letter.toNat ≤ 127
    omega
  rw [String.utf8EncodeChar]
  exact if_pos small

theorem length_asBytes_ascii {text : List Char} (ascii : ∀ letter ∈ text, letter.toNat < 128) :
    (asBytes text).length = text.length := by
  induction text with
  | nil => rfl
  | cons letter rest ih =>
      have tail := ih fun other member => ascii other (List.mem_cons_of_mem _ member)
      have head := utf8EncodeChar_ascii (ascii letter List.mem_cons_self)
      have parts : asBytes (letter :: rest) = String.utf8EncodeChar letter ++ asBytes rest := rfl
      rw [parts, head, List.length_append, tail, List.length_singleton, List.length_cons,
        Nat.add_comm]

end Bytes

section Pairs

theorem hexDigit_plus : hexDigit '+' = none := by decide

theorem PairReads.length {part : List Char} {byte : Nat} (reads : PairReads part byte) :
    part.length = 2 := by
  cases reads <;> rfl

theorem PairReads.ascii {part : List Char} {byte : Nat} (reads : PairReads part byte) :
    ∀ letter ∈ part, letter.toNat < 128 := by
  cases reads with
  | digits highDigit lowDigit =>
      simp only [List.forall_mem_cons, List.not_mem_nil, false_implies, implies_true, and_true]
      exact ⟨(hexDigit_spec highDigit).1, (hexDigit_spec lowDigit).1⟩
  | signed lowDigit =>
      simp only [List.forall_mem_cons, List.not_mem_nil, false_implies, implies_true, and_true]
      exact ⟨by decide, (hexDigit_spec lowDigit).1⟩

theorem PairReads.lt {part : List Char} {byte : Nat} (reads : PairReads part byte) :
    byte < 256 := by
  cases reads with
  | digits highDigit lowDigit =>
      have high := (hexDigit_spec highDigit).2.1
      have low := (hexDigit_spec lowDigit).2.1
      omega
  | signed lowDigit =>
      have low := (hexDigit_spec lowDigit).2.1
      omega

theorem u8OfHexDigits_ascii {digits : List Char} {byte : Nat}
    (read : u8OfHexDigits digits = some byte) : ∀ letter ∈ digits, letter.toNat < 128 := by
  obtain ⟨values, all, -⟩ := Option.bind_eq_some_iff.mp read
  intro letter member
  have each : (hexDigit letter).isSome = true := by
    clear read
    induction digits generalizing values with
    | nil => cases member
    | cons head tail ih =>
        rw [List.mapM_cons] at all
        obtain ⟨first, firstDigit, rest⟩ := Option.bind_eq_some_iff.mp all
        obtain ⟨others, otherDigits, -⟩ := Option.bind_eq_some_iff.mp rest
        rcases List.mem_cons.mp member with rfl | later
        · rw [firstDigit]
          rfl
        · exact ih others otherDigits later
  obtain ⟨digit, found⟩ := Option.isSome_iff_exists.mp each
  exact (hexDigit_spec found).1

theorem u8FromStrRadix16_ascii {part : List Char} {byte : Nat}
    (read : u8FromStrRadix16 part = some byte) : ∀ letter ∈ part, letter.toNat < 128 := by
  unfold u8FromStrRadix16 at read
  split at read
  · cases read
  · cases read
  · cases read
  · intro letter member
    rcases List.mem_cons.mp member with rfl | later
    · decide
    · exact u8OfHexDigits_ascii read letter later
  · exact u8OfHexDigits_ascii read

theorem u8OfHexDigits_one {low : Char} {byte : Nat} :
    u8OfHexDigits [low] = some byte ↔ hexDigit low = some byte := by
  cases found : hexDigit low with
  | none => simp [u8OfHexDigits, found]
  | some digit =>
      have small := (hexDigit_spec found).2.1
      have value : ofDigits [digit] = digit := by simp [ofDigits]
      simp [u8OfHexDigits, found, value]
      omega

theorem u8OfHexDigits_two {high low : Char} {byte : Nat} :
    u8OfHexDigits [high, low] = some byte ↔ ∃ first second,
      hexDigit high = some first ∧ hexDigit low = some second ∧ byte = 16 * first + second := by
  cases highFound : hexDigit high with
  | none => simp [u8OfHexDigits, highFound]
  | some first =>
      cases lowFound : hexDigit low with
      | none => simp [u8OfHexDigits, highFound, lowFound]
      | some second =>
          have highSmall := (hexDigit_spec highFound).2.1
          have lowSmall := (hexDigit_spec lowFound).2.1
          have value : ofDigits [first, second] = 16 * first + second := by simp [ofDigits]
          have less : 16 * first + second < 256 := by omega
          simp [u8OfHexDigits, highFound, lowFound, value, less, eq_comm]

theorem u8FromStrRadix16_pair {part : List Char} (two : part.length = 2) {byte : Nat} :
    u8FromStrRadix16 part = some byte ↔ PairReads part byte := by
  obtain ⟨high, low, rfl⟩ := List.length_eq_two.mp two
  by_cases sign : high = '+'
  · subst sign
    have signed : u8FromStrRadix16 ['+', low] = u8OfHexDigits [low] := rfl
    rw [signed, u8OfHexDigits_one]
    constructor
    · exact .signed
    · rintro (⟨highDigit, -⟩ | lowDigit)
      · rw [hexDigit_plus] at highDigit
        cases highDigit
      · exact lowDigit
  · have unsigned : u8FromStrRadix16 [high, low] = u8OfHexDigits [high, low] := by
      simp [u8FromStrRadix16, sign]
    rw [unsigned, u8OfHexDigits_two]
    constructor
    · rintro ⟨first, second, highDigit, lowDigit, rfl⟩
      exact .digits highDigit lowDigit
    · intro reads
      cases reads with
      | digits highDigit lowDigit => exact ⟨_, _, highDigit, lowDigit, rfl⟩
      | signed lowDigit => exact absurd rfl sign

/-- A chunk of two bytes is read as a pair of two characters. -/
theorem decodeChunk_iff {chunk : List UInt8} (two : chunk.length = 2) {byte : Nat} :
    decodeChunk chunk = .ok byte ↔ ∃ part, asBytes part = chunk ∧ PairReads part byte := by
  constructor
  · intro decoded
    unfold decodeChunk at decoded
    split at decoded
    · cases decoded
    · rename_i part text
      split at decoded
      · cases decoded
      · rename_i value read
        cases decoded
        have bytes := (fromUtf8_iff chunk part).mp text
        have length := length_asBytes_ascii (u8FromStrRadix16_ascii read)
        rw [bytes, two] at length
        exact ⟨part, bytes, (u8FromStrRadix16_pair length.symm).mp read⟩
  · rintro ⟨part, bytes, reads⟩
    rw [decodeChunk, (fromUtf8_iff chunk part).mpr bytes]
    simp only [(u8FromStrRadix16_pair reads.length).mpr reads]

theorem chunksOfTwo_flatten {chunks : List (List UInt8)} (two : ∀ chunk ∈ chunks, chunk.length = 2) :
    chunksOfTwo chunks.flatten = chunks := by
  induction chunks with
  | nil => rfl
  | cons chunk chunks ih =>
      obtain ⟨first, second, rfl⟩ := List.length_eq_two.mp (two chunk List.mem_cons_self)
      have rest := ih fun other member => two other (List.mem_cons_of_mem _ member)
      simp only [List.flatten_cons, List.cons_append, List.nil_append, chunksOfTwo, rest]

theorem exists_chunks (count : Nat) {bytes : List UInt8} (length : bytes.length = 2 * count) :
    ∃ chunks : List (List UInt8), chunks.flatten = bytes ∧ chunks.length = count ∧
      ∀ chunk ∈ chunks, chunk.length = 2 := by
  induction count generalizing bytes with
  | zero =>
      have empty : bytes = [] := List.length_eq_zero_iff.mp length
      exact ⟨[], empty.symm, rfl, by simp⟩
  | succ count ih =>
      rcases bytes with _ | ⟨first, _ | ⟨second, rest⟩⟩
      · simp at length
      · simp at length
        omega
      · obtain ⟨chunks, flat, number, two⟩ := @ih rest (by
          simp only [List.length_cons] at length
          omega)
        refine ⟨[first, second] :: chunks, by rw [List.flatten_cons, flat]; rfl, by simp [number], ?_⟩
        intro chunk member
        rcases List.mem_cons.mp member with rfl | later
        · rfl
        · exact two chunk later

theorem exists_reads {pairs : List (List Char)} {values : List Nat}
    (reads : List.Forall₂ PairReads pairs values) {pair : List Char} (member : pair ∈ pairs) :
    ∃ byte, PairReads pair byte := by
  induction reads with
  | nil => cases member
  | cons head tail ih =>
      rcases List.mem_cons.mp member with rfl | later
      · exact ⟨_, head⟩
      · exact ih later

/-- The text after the prefix is decoded pair by pair. -/
theorem decodeDestination_iff (value : String) (address : Address) :
    decodeDestination value = .ok address ↔ ∃ pairs values,
      stripPrefix0x value.toList = List.flatten pairs ∧ pairs.length = 20 ∧
        List.Forall₂ PairReads pairs values ∧ address = addressOfBytes values := by
  constructor
  · intro decoded
    simp only [decodeDestination] at decoded
    split at decoded
    · cases decoded
    · rename_i forty
      obtain ⟨chunks, flat, number, two⟩ := exists_chunks 20 (not_not.mp forty)
      rw [← flat, chunksOfTwo_flatten two] at decoded
      cases read : chunks.mapM decodeChunk with
      | error error =>
          rw [read] at decoded
          cases decoded
      | ok values =>
          rw [read] at decoded
          cases decoded
          have all := mapM_eq_ok_iff.mp read
          have pairs : ∃ pairs : List (List Char), pairs.map asBytes = chunks ∧
              List.Forall₂ PairReads pairs values := by
            clear read flat number
            induction all with
            | nil => exact ⟨[], rfl, .nil⟩
            | cons head tail ih =>
                obtain ⟨part, bytes, reads⟩ :=
                  (decodeChunk_iff (two _ List.mem_cons_self)).mp head
                obtain ⟨parts, others, rest⟩ :=
                  ih fun chunk member => two chunk (List.mem_cons_of_mem _ member)
                exact ⟨part :: parts, by rw [List.map_cons, bytes, others], .cons reads rest⟩
          obtain ⟨pairs, bytes, reads⟩ := pairs
          refine ⟨pairs, values, ?_, ?_, reads, rfl⟩
          · apply asBytes_injective
            rw [← flat, ← bytes, asBytes_flatten]
          · rw [← number, ← bytes, List.length_map]
  · rintro ⟨pairs, values, flat, number, reads, rfl⟩
    have two : ∀ chunk ∈ pairs.map asBytes, chunk.length = 2 := by
      intro chunk member
      obtain ⟨part, held, rfl⟩ := List.mem_map.mp member
      obtain ⟨byte, reading⟩ := exists_reads reads held
      rw [length_asBytes_ascii reading.ascii, reading.length]
    have bytes : asBytes (stripPrefix0x value.toList) = (pairs.map asBytes).flatten := by
      rw [flat, asBytes_flatten]
    have forty : (asBytes (stripPrefix0x value.toList)).length = 40 := by
      have lengths : (pairs.map asBytes).map List.length = List.replicate 20 2 := by
        rw [List.eq_replicate_iff, List.length_map, List.length_map]
        refine ⟨number, fun length member => ?_⟩
        obtain ⟨chunk, held, rfl⟩ := List.mem_map.mp member
        exact two chunk held
      rw [bytes, List.length_flatten, lengths]
      rfl
    have decoded : (pairs.map asBytes).mapM decodeChunk = .ok values := by
      rw [mapM_eq_ok_iff, List.forall₂_map_left_iff]
      exact reads.imp fun part byte reading =>
        (decodeChunk_iff (by rw [length_asBytes_ascii reading.ascii, reading.length])).mpr
          ⟨part, rfl, reading⟩
    simp only [decodeDestination]
    rw [if_neg (not_not.mpr forty), bytes, chunksOfTwo_flatten two, decoded]
    rfl

end Pairs

section Exactness

theorem byteHex_pair {high low : Char} {first second : Nat} (highDigit : hexDigit high = some first)
    (lowDigit : hexDigit low = some second) :
    byteHex (16 * first + second) = [high.toLower, low.toLower] := by
  obtain ⟨-, highSmall, highLetter⟩ := hexDigit_spec highDigit
  obtain ⟨-, lowSmall, lowLetter⟩ := hexDigit_spec lowDigit
  have quotient : (16 * first + second) / 16 = first := by omega
  have remainder : (16 * first + second) % 16 = second := by omega
  rw [byteHex, quotient, remainder, highLetter, lowLetter]

/-- Pairs of digits and the bytes that they encode. -/
structure DigitPairs (digits : List Char) (values : List Nat) (pairs : List (List Char))
    (bytes : List Nat) : Prop where
  reads : List.Forall₂ PairReads pairs bytes
  flat : pairs.flatten = digits
  digit : digits.mapM hexDigit = some values
  value : ∀ initial, bytes.foldl (fun value byte => 256 * value + byte) initial =
    values.foldl (fun value digit => 16 * value + digit) initial
  text : bytes.flatMap byteHex = digits.map Char.toLower

theorem DigitPairs.cons {digits : List Char} {values bytes : List Nat} {pairs : List (List Char)}
    (rest : DigitPairs digits values pairs bytes) {high low : Char} {first second : Nat}
    (highDigit : hexDigit high = some first) (lowDigit : hexDigit low = some second) :
    DigitPairs (high :: low :: digits) (first :: second :: values) ([high, low] :: pairs)
      ((16 * first + second) :: bytes) where
  reads := .cons (.digits highDigit lowDigit) rest.reads
  flat := by rw [List.flatten_cons, rest.flat]; rfl
  digit := by simp [highDigit, lowDigit, rest.digit]
  value := by
    intro initial
    simp only [List.foldl_cons]
    rw [rest.value]
    congr 1
    omega
  text := by
    rw [List.flatMap_cons, byteHex_pair highDigit lowDigit, rest.text]
    rfl

theorem DigitPairs.nil : DigitPairs [] [] [] [] where
  reads := .nil
  flat := rfl
  digit := rfl
  value _ := rfl
  text := rfl

/-- Digits split into pairs. -/
theorem digitPairs_of_digits (count : Nat) {digits : List Char} {values : List Nat}
    (length : digits.length = 2 * count) (all : digits.mapM hexDigit = some values) :
    ∃ pairs bytes, pairs.length = count ∧ DigitPairs digits values pairs bytes := by
  induction count generalizing digits values with
  | zero =>
      have empty : digits = [] := List.length_eq_zero_iff.mp length
      subst empty
      cases all
      exact ⟨[], [], rfl, .nil⟩
  | succ count ih =>
      rcases digits with _ | ⟨high, _ | ⟨low, digits⟩⟩
      · simp at length
      · simp at length
        omega
      · simp only [List.mapM_cons] at all
        obtain ⟨first, highDigit, all⟩ := Option.bind_eq_some_iff.mp all
        obtain ⟨others, all, done⟩ := Option.bind_eq_some_iff.mp all
        obtain ⟨second, lowDigit, all⟩ := Option.bind_eq_some_iff.mp all
        obtain ⟨rest, digit, last⟩ := Option.bind_eq_some_iff.mp all
        cases last
        cases done
        obtain ⟨pairs, bytes, number, split⟩ := ih (by
          simp only [List.length_cons] at length
          omega) digit
        exact ⟨_, _, by rw [List.length_cons, number], split.cons highDigit lowDigit⟩

/-- Pairs without a sign are digits. -/
theorem digitPairs_of_reads {pairs : List (List Char)} {bytes : List Nat}
    (reads : List.Forall₂ PairReads pairs bytes)
    (unsigned : ∀ pair ∈ pairs, pair.head? ≠ some '+') :
    ∃ values, DigitPairs pairs.flatten values pairs bytes := by
  induction reads with
  | nil => exact ⟨[], .nil⟩
  | cons head tail ih =>
      obtain ⟨values, rest⟩ := ih fun pair member => unsigned pair (List.mem_cons_of_mem _ member)
      cases head with
      | digits highDigit lowDigit => exact ⟨_, rest.cons highDigit lowDigit⟩
      | signed lowDigit => exact absurd rfl (unsigned _ List.mem_cons_self)

/-- Digits have no prefix, as it has a letter that is no digit. -/
theorem stripPrefix0x_digits {text digits : List Char} {values : List Nat}
    (all : digits.mapM hexDigit = some values) (spelled : text = digits ∨ text = '0' :: 'x' :: digits) :
    stripPrefix0x text = digits := by
  rcases spelled with rfl | rfl
  · unfold stripPrefix0x
    split
    · have letter := @isSome_of_mapM _ _ _ _ _ all 'x' (by simp)
      exact absurd letter (by decide)
    · rfl
  · rfl

theorem DigitPairs.denotes {digits : List Char} {values bytes : List Nat}
    {pairs : List (List Char)} (split : DigitPairs digits values pairs bytes)
    (number : pairs.length = 20) {value : String}
    (spelled : value.toList = digits ∨ value.toList = '0' :: 'x' :: digits) :
    Denotes value (addressOfBytes bytes) := by
  have count : bytes.length = 20 := by rw [← split.reads.length_eq, number]
  have small : ∀ byte ∈ bytes, byte < 256 := by
    have all : ∀ {pairs bytes}, List.Forall₂ PairReads pairs bytes → ∀ byte ∈ bytes, byte < 256 := by
      intro pairs bytes reads
      induction reads with
      | nil => simp
      | cons head tail ih => exact List.forall_mem_cons.mpr ⟨head.lt, ih⟩
    exact all split.reads
  have length : digits.length = 40 := by
    have texts := congrArg List.length split.text
    rw [List.length_map, List.length_flatMap] at texts
    have two : bytes.map (fun byte => (byteHex byte).length) = List.replicate 20 2 := by
      rw [← count]
      exact (List.map_congr_left (g := fun _ => 2) fun _ _ => rfl).trans List.map_const'
    rw [← texts, two]
    rfl
  refine ⟨digits, values, spelled, length, split.digit, ?_, ?_⟩
  · rw [toNat_addressOfBytes small count]
    exact split.value 0
  · rw [formatAddress_addressOfBytes small count, split.text]

/-- What the text denotes is decoded. -/
theorem decodes_of_denotes {value : String} {address : Address} (denotes : Denotes value address) :
    decodeDestination value = .ok address := by
  obtain ⟨digits, values, spelled, length, all, number, -⟩ := denotes
  obtain ⟨pairs, bytes, count, split⟩ := digitPairs_of_digits 20 length all
  refine (decodeDestination_iff value address).mpr ⟨pairs, bytes, ?_, count, split.reads, ?_⟩
  · rw [stripPrefix0x_digits all spelled, split.flat]
  · apply BitVec.eq_of_toNat_eq
    obtain ⟨others, more, again, -, allAgain, numberAgain, -⟩ := split.denotes count spelled
    have same : digits = others := by
      rw [← stripPrefix0x_digits all spelled, stripPrefix0x_digits allAgain again]
    subst same
    rw [all] at allAgain
    cases allAgain
    rw [number, numberAgain]

theorem not_denotes_of_signed {value : String} (signed : HasSignedPair value) (address : Address) :
    ¬ Denotes value address := by
  rintro ⟨digits, values, spelled, -, all, -, -⟩
  obtain ⟨pairs, flat, -, -, pair, member, sign⟩ := signed
  rw [stripPrefix0x_digits all spelled] at flat
  have inside : '+' ∈ digits := by
    rw [flat]
    exact List.mem_flatten_of_mem member (List.mem_of_head? sign)
  have digit := isSome_of_mapM all inside
  rw [hexDigit_plus] at digit
  cases digit

theorem denotes_of_decodes {value : String} (unsigned : ¬ HasSignedPair value) {address : Address}
    (decoded : decodeDestination value = .ok address) : Denotes value address := by
  obtain ⟨pairs, bytes, flat, number, reads, rfl⟩ := (decodeDestination_iff value address).mp decoded
  have plain : ∀ pair ∈ pairs, pair.head? ≠ some '+' := by
    intro pair member sign
    exact unsigned ⟨pairs, flat, number, fun other held => exists_reads reads held, pair, member, sign⟩
  obtain ⟨values, split⟩ := digitPairs_of_reads reads plain
  apply split.denotes number
  rw [← flat]
  unfold stripPrefix0x
  split
  · rename_i digits spelled
    exact Or.inr spelled
  · exact Or.inl rfl

/-- Both copies decode exactly the addresses and agree, unless the text has a pair with a sign. -/
theorem parseDestination_exact_iff (value : String) :
    (DecodesExactly parseDestination value ∧ DecodesExactly cliParseDestination value ∧
        parseDestination value = cliParseDestination value) ↔ ¬ HasSignedPair value := by
  constructor
  · rintro ⟨exactly, -, -⟩ signed
    obtain ⟨pairs, flat, number, reads, -⟩ := id signed
    have bytes : ∃ bytes, List.Forall₂ PairReads pairs bytes := by
      clear flat number
      induction pairs with
      | nil => exact ⟨[], .nil⟩
      | cons pair pairs ih =>
          obtain ⟨byte, reading⟩ := reads pair List.mem_cons_self
          obtain ⟨bytes, rest⟩ := ih fun other member => reads other (List.mem_cons_of_mem _ member)
          exact ⟨byte :: bytes, .cons reading rest⟩
    obtain ⟨bytes, all⟩ := bytes
    have decoded : parseDestination value = .ok (addressOfBytes bytes) :=
      (decodeDestination_iff value _).mpr ⟨pairs, bytes, flat, number, all, rfl⟩
    exact not_denotes_of_signed signed _ ((exactly _).mp decoded)
  · intro unsigned
    have exactly : DecodesExactly decodeDestination value := fun address =>
      ⟨denotes_of_decodes unsigned, decodes_of_denotes⟩
    exact ⟨exactly, exactly, rfl⟩

/-- An address of twenty pairs with a plus is decoded. -/
theorem signed_address_decoded :
    parseDestination "0x+1+1+1+1+1+1+1+1+1+1+1+1+1+1+1+1+1+1+1+1" =
        .ok 0x0101010101010101010101010101010101010101 ∧
      ¬ DecodesExactly parseDestination "0x+1+1+1+1+1+1+1+1+1+1+1+1+1+1+1+1+1+1+1+1" := by
  have decoded : parseDestination "0x+1+1+1+1+1+1+1+1+1+1+1+1+1+1+1+1+1+1+1+1" =
      .ok (addressOfBytes (List.replicate 20 1)) := by
    refine (decodeDestination_iff _ _).mpr
      ⟨List.replicate 20 ['+', '1'], List.replicate 20 1, rfl, rfl, ?_, rfl⟩
    exact List.forall₂_iff_get.mpr ⟨rfl, fun index _ _ => by
      rw [List.get_eq_getElem, List.get_eq_getElem, List.getElem_replicate, List.getElem_replicate]
      exact .signed (by decide)⟩
  refine ⟨decoded, fun exactly => ?_⟩
  refine not_denotes_of_signed ⟨List.replicate 20 ['+', '1'], rfl, rfl, ?_, ['+', '1'], by simp, rfl⟩
    _ ((exactly _).mp decoded)
  intro pair member
  rw [List.eq_of_mem_replicate member]
  exact ⟨1, .signed (by decide)⟩

end Exactness

end ZkApi.Clientd
