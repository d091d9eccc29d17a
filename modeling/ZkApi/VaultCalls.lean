import ZkApi.VaultCalldata

/-!
# Calls of the vault decode to their plans

The vault reads the calldata of a deposit or a withdrawal as the numbers and bytes of its plan, so
different plans have different calldata.
-/

namespace ZkApi.Browser.Calldata

open Indexer Expiry Traversal

section Proofs

/-- Slices of thirty-two bytes make up the bytes. -/
theorem flatten_slices (bytes : List Nat) (count : Nat) :
    ((List.range count).map fun index => (bytes.drop (index * 32)).take 32).flatten =
      bytes.take (count * 32) := by
  induction count with
  | zero => simp
  | succ count ih =>
      rw [List.range_succ, List.map_append, List.flatten_append, ih, Nat.succ_mul, List.take_add]
      simp

theorem byteDigits_flatten (slices : List (List Nat)) :
    byteDigits slices.flatten = (slices.map byteDigits).flatten := by
  induction slices with
  | nil => rfl
  | cons slice slices ih =>
      rw [List.flatten_cons, byteDigits_append, ih, List.map_cons, List.flatten_cons]

theorem proofWords_read {proof : List UInt8} (length : proof.length = 256) :
    ∃ digits, List.Forall₂ WordReads (proofWords proof) digits ∧ digits.length = 8 ∧
      digits.flatten = byteDigits (proof.map UInt8.toNat) := by
  refine ⟨(List.range 8).map fun index =>
    byteDigits (((proof.map UInt8.toNat).drop (index * 32)).take 32), ?_, by simp, ?_⟩
  · rw [proofWords, List.forall₂_map_left_iff, List.forall₂_map_right_iff, List.forall₂_same]
    intro index member
    have early := List.mem_range.mp member
    have slice : ((proof.drop (index * 32)).take 32).map UInt8.toNat =
        ((proof.map UInt8.toNat).drop (index * 32)).take 32 := by
      rw [List.map_take, List.map_drop]
    rw [slice]
    refine ⟨mapM_bytesHex ?_, ?_⟩
    · intro byte inside
      obtain ⟨source, -, rfl⟩ := List.mem_map.mp (List.mem_of_mem_drop (List.mem_of_mem_take inside))
      exact source.toNat_lt
    · rw [length_byteDigits, List.length_take, List.length_drop, List.length_map, length,
        Abi.wordDigits]
      omega
  · have whole := flatten_slices (proof.map UInt8.toNat) 8
    rw [List.take_of_length_le (by rw [List.length_map, length])] at whole
    conv_rhs => rw [← whole]
    rw [byteDigits_flatten, List.map_map]
    rfl

end Proofs

section Deposits

theorem bind_eq_ok {α β : Type} {first : Except String α} {next : α → Except String β} {value : β}
    (done : (first >>= next) = .ok value) : ∃ middle, first = .ok middle ∧ next middle = .ok value := by
  cases first with
  | error message => cases done
  | ok middle => exact ⟨middle, rfl, done⟩

/-- Zeros in front of a text do not change the number that it denotes. -/
theorem hexNumber_of_padStart {width : Nat} {digits : List Char} {value : Nat}
    (padded : hexNumber (padStart width digits) = some value) : hexNumber digits = some value := by
  cases read : digits.mapM hexDigit with
  | none =>
      rw [hexNumber, padStart, List.mapM_append, mapM_zeros, read] at padded
      cases padded
  | some values =>
      rw [hexNumber, mapM_padStart read, Option.map_some, number_zeros] at padded
      rw [hexNumber, read]
      exact padded

theorem wordAt_flatten_at {words : List (List Nat)} (whole : Abi.Words words) (index : Nat)
    {word : List Nat} (found : words[index]? = some word) :
    Abi.wordAt words.flatten (32 * index) = some (Abi.number word) :=
  whole.wordAt_flatten found

/-- The numbers of a deposit plan decode from its calldata. -/
theorem decodeDeposit_encodeDeposit {plan : DepositPlan} {amount : Quantity} {calldata : String}
    (encoded : encodeDeposit plan amount = .ok calldata) :
    ∃ call path, decodeDeposit calldata = some call ∧ call.selector = 0xc588341c ∧
      hexNumber (strip0x plan.commitment.toList) = some call.commitment ∧
      amount.value = some call.amount ∧ plan.zeroPath = some path ∧ call.path.length = 32 ∧
      path.mapM Quantity.value = some call.path := by
  simp only [encodeDeposit] at encoded
  split at encoded
  · cases encoded
  · rename_i path given
    split at encoded
    · cases encoded
    · rename_i count
      obtain ⟨first, commitment, encoded⟩ := bind_eq_ok encoded
      obtain ⟨second, value, encoded⟩ := bind_eq_ok encoded
      obtain ⟨words, siblings, encoded⟩ := bind_eq_ok encoded
      cases encoded
      obtain ⟨commitmentDigits, commitmentReads, commitmentValue⟩ := abiWord_reads commitment
      obtain ⟨amountDigits, amountReads, amountValue⟩ := abiWord_reads value
      obtain ⟨pathDigits, pathReads, pathValues⟩ := mapM_abiWord_reads siblings
      have reads := List.Forall₂.cons commitmentReads (List.Forall₂.cons amountReads pathReads)
      have chosen : depositSelector.toList.mapM hexDigit = some [12, 5, 8, 8, 3, 4, 1, 12] := by
        decide
      have calldata := calldataDigits_callData chosen reads
      have whole := (words_of_reads reads).2
      have number : pathDigits.length = 32 := by
        have lengths := congrArg (Option.map List.length) pathValues
        have pathLength := pathReads.length_eq
        have wordLength := (mapM_eq_ok_iff.mp siblings).length_eq
        omega
      refine ⟨⟨0xc588341c, Abi.number commitmentDigits, Abi.number amountDigits,
        pathDigits.map Abi.number⟩, path, ?_, rfl, ?_, amountValue, given, ?_, pathValues⟩
      · have shape : [commitmentDigits, amountDigits] ++ (pathDigits ++ []) =
            commitmentDigits :: amountDigits :: pathDigits := by simp
        have rest := Abi.Words.wordsAt_flatten (shape ▸ whole)
        rw [shape, number] at rest
        have one : Abi.wordAt (commitmentDigits :: amountDigits :: pathDigits).flatten 0 =
          some (Abi.number commitmentDigits) := wordAt_flatten_at whole 0 rfl
        have two : Abi.wordAt (commitmentDigits :: amountDigits :: pathDigits).flatten (32 * 1) =
          some (Abi.number amountDigits) := wordAt_flatten_at whole 1 rfl
        have path : Abi.wordsAt (commitmentDigits :: amountDigits :: pathDigits).flatten (32 * 2)
          32 = some (pathDigits.map Abi.number) := rest
        have dropped : ([12, 5, 8, 8, 3, 4, 1, 12] ++
          (commitmentDigits :: amountDigits :: pathDigits).flatten).drop 8 =
            (commitmentDigits :: amountDigits :: pathDigits).flatten := rfl
        have taken : ([12, 5, 8, 8, 3, 4, 1, 12] ++
          (commitmentDigits :: amountDigits :: pathDigits).flatten).take 8 =
            [12, 5, 8, 8, 3, 4, 1, 12] := rfl
        simp only [decodeDeposit, calldata, Option.bind_eq_bind, Option.bind_some, dropped, taken,
          one, two, path]
        rfl
      · have written : strip0x (toBytes32 plan.commitment).toList =
            padStart 64 (strip0x plan.commitment.toList) := by
          rw [toBytes32, String.toList_ofList]
          rfl
        have value : hexNumber (strip0x (toBytes32 plan.commitment).toList) =
          some (Abi.number commitmentDigits) := commitmentValue
        rw [written] at value
        exact hexNumber_of_padStart value
      · rw [List.length_map, number]

end Deposits

section Destinations

theorem hexDigit_lower {letter : Char} {digit : Nat} (found : hexDigit letter = some digit) :
    hexDigit letter.toLower = some digit := by
  obtain ⟨-, small, same⟩ := Clientd.hexDigit_spec found
  rw [← same, hexDigit_digitChar small]

theorem mapM_lower {text : List Char} {digits : List Nat} (read : text.mapM hexDigit = some digits) :
    (text.map Char.toLower).mapM hexDigit = some digits := by
  induction text generalizing digits with
  | nil => exact read
  | cons letter text ih =>
      rw [List.mapM_cons] at read
      obtain ⟨first, found, rest⟩ := Option.bind_eq_some_iff.mp read
      obtain ⟨others, more, last⟩ := Option.bind_eq_some_iff.mp rest
      cases last
      simp [hexDigit_lower found, ih more]

/-- The text of a destination denotes its number. -/
theorem destinationHex_value {destination : Destination} {text : String}
    (encoded : destinationHex destination = .ok text) :
    (Quantity.text text).value = destination.value ∧ destination.value.isSome = true := by
  cases destination with
  | text written =>
      simp only [destinationHex] at encoded
      split at encoded
      · rename_i address
        cases encoded
        unfold isAddressText at address
        split at address
        · rename_i digits spelled
          simp only [Bool.and_eq_true, List.all_eq_true] at address
          obtain ⟨values, read⟩ := mapM_of_all address.2
          have lowered : strip0x (lowerCase written).toList = digits.map Char.toLower := by
            rw [lowerCase, String.toList_ofList, spelled]
            rfl
          have own : strip0x written.toList = digits := by
            rw [spelled]
            rfl
          simp only [Quantity.value, Destination.value, hexNumber, lowered, own, read,
            mapM_lower read]
          exact ⟨trivial, rfl⟩
        · cases address
      · cases encoded
  | bytes values =>
      simp only [destinationHex] at encoded
      split at encoded
      · cases encoded
      · rename_i accepted
        cases encoded
        simp only [Bool.or_eq_true, not_or, List.any_eq_true, not_exists, not_and,
          decide_eq_true_eq, not_lt] at accepted
        have small : ∀ byte ∈ values.map Int.toNat, byte < 256 := by
          intro byte member
          obtain ⟨value, inside, rfl⟩ := List.mem_map.mp member
          have range := accepted.2 value inside
          omega
        have text : strip0x (String.ofList ('0' :: 'x' :: bytesHex (values.map Int.toNat))).toList =
            bytesHex (values.map Int.toNat) := by
          rw [String.toList_ofList]
          rfl
        simp only [Quantity.value, Destination.value, hexNumber, text, mapM_bytesHex small,
          Option.map_some, number_byteDigits]
        exact ⟨trivial, rfl⟩

end Destinations

section Withdrawals

/-- The words of a withdrawal call are read in their places. -/
theorem decodeWithdrawal_callData {selector : String} {chosen : List Nat}
    (read : selector.toList.mapM hexDigit = some chosen) (eight : chosen.length = 8)
    {words : List (List Char)} {tuple path proof : List (List Nat)} {offset length : List Nat}
    (reads : List.Forall₂ WordReads words (tuple ++ [offset] ++ path ++ [length] ++ proof))
    (fourteen : tuple.length = 14) (offsetValue : Abi.number offset = 47 * 32)
    (siblings : path.length = 32) (lengthValue : Abi.number length = 256) {bytes : List Nat}
    (proofBytes : proof.flatten = byteDigits bytes) (count : bytes.length = 256) :
    decodeWithdrawal (callData selector words) =
      some ⟨Abi.number chosen, tuple.map Abi.number, bytes, path.map Abi.number⟩ := by
  have whole := (words_of_reads reads).2
  have calldata := calldataDigits_callData read reads
  have dropped : (chosen ++ (tuple ++ [offset] ++ path ++ [length] ++ proof).flatten).drop 8 =
      (tuple ++ [offset] ++ path ++ [length] ++ proof).flatten := List.drop_left' eight
  have taken : (chosen ++ (tuple ++ [offset] ++ path ++ [length] ++ proof).flatten).take 8 =
      chosen := List.take_left' eight
  have tupleWords : Abi.wordsAt (tuple ++ [offset] ++ path ++ [length] ++ proof).flatten 0 14 =
      some (tuple.map Abi.number) := by
    have shape : [] ++ (tuple ++ ([offset] ++ path ++ [length] ++ proof)) =
        tuple ++ [offset] ++ path ++ [length] ++ proof := by simp
    have here := Abi.Words.wordsAt_flatten (shape ▸ whole)
    rw [shape, fourteen] at here
    exact here
  have offsetWord : Abi.wordAt (tuple ++ [offset] ++ path ++ [length] ++ proof).flatten (32 * 14) =
      some (47 * 32) := by
    have place : (tuple ++ [offset] ++ path ++ [length] ++ proof)[14]? = some offset := by
      simp [List.append_assoc, fourteen]
    rw [whole.wordAt_flatten place, offsetValue]
  have pathWords : Abi.wordsAt (tuple ++ [offset] ++ path ++ [length] ++ proof).flatten (32 * 15)
      32 = some (path.map Abi.number) := by
    have shape : (tuple ++ [offset]) ++ (path ++ ([length] ++ proof)) =
        tuple ++ [offset] ++ path ++ [length] ++ proof := by simp
    have here := Abi.Words.wordsAt_flatten (shape ▸ whole)
    rw [shape, siblings, List.length_append, fourteen] at here
    exact here
  have lengthWord : Abi.wordAt (tuple ++ [offset] ++ path ++ [length] ++ proof).flatten (32 * 47) =
      some 256 := by
    have place : (tuple ++ [offset] ++ path ++ [length] ++ proof)[47]? = some length := by
      simp [List.append_assoc, List.getElem?_append_right, fourteen, siblings]
    rw [whole.wordAt_flatten place, lengthValue]
  have proofRead : Abi.bytesAt (tuple ++ [offset] ++ path ++ [length] ++ proof).flatten (32 * 48)
      256 = some bytes := by
    have digits : proof.flatten.length = 2 * 256 := by
      rw [proofBytes, length_byteDigits, count]
    have here := Abi.Words.bytesAt_flatten whole digits
    have front : (tuple ++ [offset] ++ path ++ [length]).length = 48 := by
      simp [fourteen, siblings]
    rw [front, proofBytes, bytesOf_byteDigits] at here
    exact here
  have dynamic : Abi.dynamicBytes (tuple ++ [offset] ++ path ++ [length] ++ proof).flatten
      (47 * 32) = some bytes := by
    have place : 47 * 32 = 32 * 47 := rfl
    have next : 47 * 32 + 32 = 32 * 48 := rfl
    rw [Abi.dynamicBytes, next, place, lengthWord]
    exact proofRead
  simp only [decodeWithdrawal, calldata, Option.bind_eq_bind, Option.bind_some, dropped, taken,
    tupleWords, offsetWord, pathWords, dynamic]

/-- A vault text denotes a number: as hexadecimal digits or as the text of the number. -/
def DenotesVault (platform : Platform) (text : String) (number : Nat) : Prop :=
  hexNumber (strip0x (lowerCase text).toList) = some number ∨
    lowerCase text = lowerCase (platform.numberText number)

/-- What the calldata of a withdrawal says about its plan and about what the caller expects. -/
structure WithdrawalEncoded (platform : Platform) (plan : WithdrawalPlan)
    (expectedMode expectedDestination expectedVault calldata : String) (call : WithdrawalCall) :
    Prop where
  decodes : decodeWithdrawal calldata = some call
  inputs : plan.inputs.values = some call.tuple
  proof : ∃ bytes, decodeBase64 platform plan.proof = .ok bytes ∧
    call.proof = bytes.map UInt8.toNat
  path : ∃ siblings, plan.siblings = some siblings ∧ call.path.length = 32 ∧
    siblings.mapM Quantity.value = some call.path
  destination : ∃ number, call.tuple[10]? = some number ∧
    hexNumber (strip0x (lowerCase expectedDestination).toList) = some number
  vault : expectedVault ≠ "" → ∃ number, call.tuple[2]? = some number ∧
    DenotesVault platform expectedVault number
  mode : plan.mode = lowerCase expectedMode ∧
    ((lowerCase expectedMode = "mutual" ∧ call.selector = 0x7fca9c82 ∧
        call.tuple[12]? = some 1) ∨
      (lowerCase expectedMode = "escape" ∧ call.selector = 0x9073639b ∧
        call.tuple[12]? = some 0))

theorem strip0x_of_digits {text : List Char} {digits : List Nat}
    (read : text.mapM hexDigit = some digits) : strip0x text = text := by
  unfold strip0x
  split
  · rename_i rest
    rw [List.mapM_cons] at read
    obtain ⟨first, _, more⟩ := Option.bind_eq_some_iff.mp read
    obtain ⟨others, tail, _⟩ := Option.bind_eq_some_iff.mp more
    rw [List.mapM_cons] at tail
    obtain ⟨letter, found, _⟩ := Option.bind_eq_some_iff.mp tail
    cases found
  · rfl

/-- The case of its letters does not change the number that a text denotes. -/
theorem hexNumber_lowerCase {text : String} {number : Nat}
    (value : hexNumber (strip0x text.toList) = some number) :
    hexNumber (strip0x (lowerCase text).toList) = some number := by
  have letters : (lowerCase text).toList = text.toList.map Char.toLower := String.toList_ofList
  rw [letters]
  generalize text.toList = text at value
  obtain ⟨digits, read, same⟩ := Option.map_eq_some_iff.mp value
  have stripped : strip0x (text.map Char.toLower) = (strip0x text).map Char.toLower := by
    unfold strip0x at read
    split at read
    · rfl
    · rename_i plain
      have own : strip0x text = text := by
        unfold strip0x
        split
        · rename_i rest
          exact absurd rfl (plain rest)
        · rfl
      rw [own]
      exact strip0x_of_digits (mapM_lower read)
  rw [stripped, hexNumber, mapM_lower read, Option.map_some, same]

theorem Quantity.denotesVault {platform : Platform} {quantity : Quantity} {number : Nat}
    (value : quantity.value = some number) {text : String}
    (same : lowerCase (quantity.toText platform) = lowerCase text) :
    DenotesVault platform text number := by
  cases quantity with
  | integer own =>
      cases value
      exact Or.inr same.symm
  | text written =>
      left
      rw [← same]
      exact hexNumber_lowerCase value

/-- The numbers of the tuple are those of the public inputs. -/
theorem mapM_tupleFields (inputs : PublicInputs) {text : String}
    (same : (Quantity.text text).value = inputs.destination.value) :
    (tupleFields inputs text).mapM Quantity.value = inputs.values := by
  rw [PublicInputs.values, ← same]
  rfl

/-- The selector that a mode stands for. -/
theorem selector_read {mode : String} (known : mode = "mutual" ∨ mode = "escape") :
    ∃ chosen : List Nat, (if mode = "mutual" then mutualCloseSelector
        else initiateEscapeWithdrawalSelector).toList.mapM hexDigit = some chosen ∧
      chosen.length = 8 ∧ (mode = "mutual" ∧ Abi.number chosen = 0x7fca9c82 ∨
        mode = "escape" ∧ Abi.number chosen = 0x9073639b) := by
  rcases known with rfl | rfl
  · exact ⟨[7, 15, 12, 10, 9, 12, 8, 2], by decide, rfl, Or.inl ⟨rfl, by decide⟩⟩
  · exact ⟨[9, 0, 7, 3, 6, 3, 9, 11], by decide, rfl, Or.inr ⟨rfl, by decide⟩⟩

/-- The calldata of a withdrawal decodes to its plan. -/
theorem encodeWithdrawal_encoded {platform : Platform} {plan : WithdrawalPlan}
    {expectedMode expectedDestination expectedVault calldata : String}
    (encoded : encodeWithdrawal platform plan expectedMode expectedDestination expectedVault =
      .ok calldata) :
    ∃ call, WithdrawalEncoded platform plan expectedMode expectedDestination expectedVault
      calldata call := by
  simp only [encodeWithdrawal] at encoded
  split at encoded
  · cases encoded
  rename_i modes
  split at encoded
  · cases encoded
  split at encoded
  · cases encoded
  rename_i siblings given
  split at encoded
  · cases encoded
  rename_i count
  obtain ⟨text, destination, encoded⟩ := bind_eq_ok encoded
  split at encoded
  · cases encoded
  rename_i expected
  split at encoded
  · cases encoded
  rename_i vault
  split at encoded
  · cases encoded
  rename_i clearance
  obtain ⟨bytes, decoded, encoded⟩ := bind_eq_ok encoded
  split at encoded
  · cases encoded
  rename_i size
  obtain ⟨tuple, tupleWords, encoded⟩ := bind_eq_ok encoded
  obtain ⟨offset, offsetWord, encoded⟩ := bind_eq_ok encoded
  obtain ⟨path, pathWords, encoded⟩ := bind_eq_ok encoded
  obtain ⟨length, lengthWord, encoded⟩ := bind_eq_ok encoded
  have written := Except.ok.inj encoded
  obtain ⟨tupleDigits, tupleReads, tupleValues⟩ := mapM_abiWord_reads tupleWords
  obtain ⟨offsetDigits, offsetReads, offsetValue⟩ := abiWord_reads offsetWord
  obtain ⟨pathDigits, pathReads, pathValues⟩ := mapM_abiWord_reads pathWords
  obtain ⟨lengthDigits, lengthReads, lengthValue⟩ := abiWord_reads lengthWord
  obtain ⟨proofDigits, proofReads, -, proofFlat⟩ := proofWords_read (not_not.mp size)
  have fourteen : tupleDigits.length = 14 := by
    rw [← tupleReads.length_eq, ← (mapM_eq_ok_iff.mp tupleWords).length_eq]
    rfl
  have siblingCount : pathDigits.length = 32 := by
    rw [← pathReads.length_eq, ← (mapM_eq_ok_iff.mp pathWords).length_eq]
    exact not_not.mp count
  have head := List.rel_append (List.rel_append tupleReads (List.Forall₂.cons offsetReads .nil))
    pathReads
  have reads := List.rel_append (List.rel_append head (List.Forall₂.cons lengthReads .nil))
    proofReads
  have offsetNumber : Abi.number offsetDigits = 47 * 32 := (Option.some.inj offsetValue).symm
  have lengthNumber : Abi.number lengthDigits = 256 := by
    rw [← not_not.mp size]
    exact (Option.some.inj lengthValue).symm
  have byteCount : (bytes.map UInt8.toNat).length = 256 := by
    rw [List.length_map, not_not.mp size]
  obtain ⟨destinationValue, destinationKnown⟩ := destinationHex_value destination
  have inputs := mapM_tupleFields plan.inputs destinationValue
  rw [tupleValues] at inputs
  simp only [not_or, not_and_or, not_not] at modes
  obtain ⟨known, ownMode⟩ := modes
  obtain ⟨chosen, selected, eight, selector⟩ := selector_read known
  have decodes := decodeWithdrawal_callData selected eight reads fourteen offsetNumber siblingCount
    lengthNumber proofFlat byteCount
  rw [written] at decodes
  have clearanceWord : (tupleDigits.map Abi.number)[12]? =
      some (if plan.inputs.hasClearance then 1 else 0) :=
    @getElem?_of_mapM _ _ _ _ _ tupleValues 12 _ rfl
  have cleared := not_not.mp clearance
  refine ⟨_, decodes, inputs.symm, ⟨bytes, decoded, rfl⟩, ⟨siblings, given, ?_, pathValues⟩, ?_, ?_,
    ownMode, ?_⟩
  · rw [List.length_map, siblingCount]
  · have word : (tupleDigits.map Abi.number)[10]? = (Quantity.text text).value :=
      @getElem?_of_mapM _ _ _ _ _ tupleValues 10 _ rfl
    rw [destinationValue] at word
    obtain ⟨number, value⟩ := Option.isSome_iff_exists.mp destinationKnown
    refine ⟨number, word.trans value, ?_⟩
    rw [← not_not.mp expected]
    exact destinationValue.trans value
  · intro nonempty
    have word : (tupleDigits.map Abi.number)[2]? = plan.inputs.contractAddress.value :=
      @getElem?_of_mapM _ _ _ _ _ tupleValues 2 _ rfl
    have within : 2 < (tupleDigits.map Abi.number).length := by
      rw [List.length_map, fourteen]
      omega
    rw [List.getElem?_eq_getElem within] at word
    refine ⟨_, List.getElem?_eq_getElem within, Quantity.denotesVault word.symm ?_⟩
    by_contra different
    exact vault ⟨nonempty, different⟩
  · rcases selector with ⟨isMutual, number⟩ | ⟨isEscape, number⟩
    · left
      rw [isMutual] at cleared
      exact ⟨isMutual, number, by rw [clearanceWord, cleared]; rfl⟩
    · right
      rw [isEscape] at cleared
      exact ⟨isEscape, number, by rw [clearanceWord, cleared]; rfl⟩

end Withdrawals

section Exactness

theorem map_toNat_injective {first second : List UInt8}
    (same : first.map UInt8.toNat = second.map UInt8.toNat) : first = second :=
  List.map_injective_iff.mpr (fun _ _ equal => UInt8.toNat_inj.mp equal) same

/-- Plans with the same call have the same fields. -/
theorem WithdrawalEncoded.same {platform : Platform} {plan other : WithdrawalPlan}
    {mode destination vault otherMode otherDestination otherVault calldata : String}
    {call otherCall : WithdrawalCall}
    (encoded : WithdrawalEncoded platform plan mode destination vault calldata call)
    (another : WithdrawalEncoded platform other otherMode otherDestination otherVault calldata
      otherCall) :
    other.inputs.values = plan.inputs.values ∧
      decodeBase64 platform other.proof = decodeBase64 platform plan.proof ∧
      other.siblings.bind (·.mapM Quantity.value) = plan.siblings.bind (·.mapM Quantity.value) ∧
      other.mode = plan.mode := by
  have calls : otherCall = call :=
    Option.some.inj (another.decodes.symm.trans encoded.decodes)
  subst calls
  obtain ⟨bytes, decoded, proof⟩ := encoded.proof
  obtain ⟨otherBytes, otherDecoded, otherProof⟩ := another.proof
  obtain ⟨siblings, given, -, path⟩ := encoded.path
  obtain ⟨otherSiblings, otherGiven, -, otherPath⟩ := another.path
  have sameBytes := map_toNat_injective (otherProof.symm.trans proof)
  refine ⟨another.inputs.trans encoded.inputs.symm, ?_, ?_, ?_⟩
  · rw [otherDecoded, decoded, sameBytes]
  · rw [otherGiven, given, Option.bind_some, Option.bind_some, otherPath, path]
  · rw [another.mode.1, encoded.mode.1]
    rcases another.mode.2 with ⟨name, number, -⟩ | ⟨name, number, -⟩ <;>
      rcases encoded.mode.2 with ⟨otherName, otherNumber, -⟩ | ⟨otherName, otherNumber, -⟩
    · rw [name, otherName]
    · rw [number] at otherNumber
      cases otherNumber
    · rw [number] at otherNumber
      cases otherNumber
    · rw [name, otherName]

/-- Calldata that is encoded decodes to its plan, and no other fields of a withdrawal have the same
calldata. -/
theorem calldata_exact (platform : Platform) :
    (∀ (plan : WithdrawalPlan) (mode destination vault calldata : String),
      encodeWithdrawal platform plan mode destination vault = .ok calldata →
        (∃ call, WithdrawalEncoded platform plan mode destination vault calldata call) ∧
          ∀ other otherMode otherDestination otherVault,
            encodeWithdrawal platform other otherMode otherDestination otherVault = .ok calldata →
              other.inputs.values = plan.inputs.values ∧
                decodeBase64 platform other.proof = decodeBase64 platform plan.proof ∧
                other.siblings.bind (·.mapM Quantity.value) =
                  plan.siblings.bind (·.mapM Quantity.value) ∧ other.mode = plan.mode) ∧
      ∀ (plan : DepositPlan) (amount : Quantity) (calldata : String),
        encodeDeposit plan amount = .ok calldata →
          ∃ call path, decodeDeposit calldata = some call ∧ call.selector = 0xc588341c ∧
            hexNumber (strip0x plan.commitment.toList) = some call.commitment ∧
            amount.value = some call.amount ∧ plan.zeroPath = some path ∧
            call.path.length = 32 ∧ path.mapM Quantity.value = some call.path := by
  constructor
  · intro plan mode destination vault calldata encoded
    obtain ⟨call, whole⟩ := encodeWithdrawal_encoded encoded
    refine ⟨⟨call, whole⟩, ?_⟩
    intro other otherMode otherDestination otherVault again
    obtain ⟨otherCall, otherWhole⟩ := encodeWithdrawal_encoded again
    exact whole.same otherWhole
  · intro plan amount calldata deposited
    exact decodeDeposit_encodeDeposit deposited

def base64Value (letter : Char) : Option Nat :=
  if letter.isUpper then some (letter.toNat - 65)
  else if letter.isLower then some (letter.toNat - 71)
  else if letter.isDigit then some (letter.toNat + 4)
  else if letter = '+' then some 62
  else if letter = '/' then some 63
  else none

/-- The bytes of a padded base64 text. -/
def base64Bytes : List Char → Option (List UInt8)
  | [] => some []
  | [first, second, '=', '='] => do
      let group := (← base64Value first) * 64 + (← base64Value second)
      some [.ofNat (group / 16)]
  | [first, second, third, '='] => do
      let group := ((← base64Value first) * 64 + (← base64Value second)) * 64 +
        (← base64Value third)
      some [.ofNat (group / 1024), .ofNat (group / 4 % 256)]
  | first :: second :: third :: fourth :: rest => do
      let group := (((← base64Value first) * 64 + (← base64Value second)) * 64 +
        (← base64Value third)) * 64 + (← base64Value fourth)
      let bytes ← base64Bytes rest
      some (.ofNat (group / 65536) :: .ofNat (group / 256 % 256) :: .ofNat (group % 256) :: bytes)
  | _ => none

def samplePlatform : Platform where
  atob text := base64Bytes text.toList
  numberText number := toString number

/-- Two hundred and fifty-six bytes of seven. -/
def sampleProof : String :=
  String.ofList ((List.replicate 85 ['B', 'w', 'c', 'H']).flatten ++ ['B', 'w', '=', '='])

def samplePlan : WithdrawalPlan where
  mode := "mutual"
  backend := "groth16_bn254"
  proof := some sampleProof
  siblings := some (List.replicate 32 (.text "0x2a"))
  inputs :=
    { protocolVersion := .integer 2
      chainId := .integer 1
      contractAddress := .text "0x590df9abbfb21074016daa486c771ae0af729ee2"
      activeRoot := .text "0x1"
      stateSigningKeyX := .text "0x2"
      stateSigningKeyY := .text "0x3"
      clearanceSigningKeyX := .text "0x4"
      clearanceSigningKeyY := .text "0x5"
      noteId := .integer 21
      finalBalance := .integer 900
      destination := .bytes (List.replicate 20 0x22)
      withdrawalNullifier := .text "0x6"
      hasClearance := true
      withdrawalTag := .text "0x7" }

def sampleDeposit : DepositPlan where
  commitment := "0x2a"
  zeroPath := some (List.replicate 32 (.integer 0))

/-- A mutual withdrawal to the vault of its plan, and a deposit. -/
theorem calldata_exact_sample :
    (∃ calldata call, encodeWithdrawal samplePlatform samplePlan "mutual"
        "0x2222222222222222222222222222222222222222"
        "0x590DF9AbBFB21074016daa486C771aE0Af729ee2" = .ok calldata ∧
      decodeWithdrawal calldata = some call ∧ call.tuple[12]? = some 1) ∧
    ∃ calldata call, encodeDeposit sampleDeposit (.integer 100000) = .ok calldata ∧
      decodeDeposit calldata = some call ∧ call.selector = 0xc588341c := by
  have accepted : (encodeWithdrawal samplePlatform samplePlan "mutual"
      "0x2222222222222222222222222222222222222222"
      "0x590DF9AbBFB21074016daa486C771aE0Af729ee2").toOption.isSome = true := by decide +kernel
  have deposited : (encodeDeposit sampleDeposit (.integer 100000)).toOption.isSome = true := by
    decide
  obtain ⟨withdrawals, deposits⟩ := calldata_exact samplePlatform
  constructor
  · cases encoded : encodeWithdrawal samplePlatform samplePlan "mutual"
        "0x2222222222222222222222222222222222222222"
        "0x590DF9AbBFB21074016daa486C771aE0Af729ee2" with
    | error message =>
        rw [encoded] at accepted
        cases accepted
    | ok calldata =>
        obtain ⟨⟨call, whole⟩, -⟩ := withdrawals _ _ _ _ _ encoded
        refine ⟨calldata, call, rfl, whole.decodes, ?_⟩
        rcases whole.mode.2 with ⟨-, -, cleared⟩ | ⟨other, -, -⟩
        · exact cleared
        · exact absurd other (by decide)
  · cases encoded : encodeDeposit sampleDeposit (.integer 100000) with
    | error message =>
        rw [encoded] at deposited
        cases deposited
    | ok calldata =>
        obtain ⟨call, _, decoded, selector, -⟩ := deposits _ _ _ encoded
        exact ⟨calldata, call, rfl, decoded, selector⟩

end Exactness

end ZkApi.Browser.Calldata
