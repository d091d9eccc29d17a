import Mathlib.Tactic.Common
import ZkApi.DepositHistory

/-!
# Well-formed rows

A row that was rebuilt once is rebuilt to itself, so reading the history does not change it.
-/

namespace ZkApi.Browser.Deposits

open Expiry Escape

section Fields

def IsTime (value : Nat) : Prop :=
  0 < value ∧ value ≤ maxSafeInteger

def IsHash (text : String) : Prop :=
  hasDigits 64 text = true ∧ lowerCase text = text

variable {parse : String → Option Int}

theorem safeInteger_isSafe {value : Scalar} {number : Int}
    (safe : value.safeInteger parse = some number) : isSafe number = true := by
  unfold Scalar.safeInteger at safe
  split at safe
  · cases safe
  · cases safe
    rfl
  · cases safe
    split <;> rfl
  · exact (Option.filter_eq_some_iff.mp safe).2
  · exact (Option.filter_eq_some_iff.mp safe).2

theorem safeInteger_ofNumber {value : Nat} (safe : value ≤ maxSafeInteger) :
    (ofNumber (some value)).safeInteger parse = some (value : Int) :=
  Option.filter_eq_some_iff.mpr ⟨rfl, by simpa [isSafe] using safe⟩

theorem isTime_of_positiveTimestamp {value : Scalar} {time : Nat}
    (found : positiveTimestamp parse value = some time) : IsTime time := by
  obtain ⟨number, kept, rfl⟩ := Option.map_eq_some_iff.mp found
  obtain ⟨safe, positive⟩ := Option.filter_eq_some_iff.mp kept
  have bound := safeInteger_isSafe safe
  simp only [isSafe, decide_eq_true_eq] at bound positive
  unfold IsTime
  omega

theorem positiveTimestamp_ofNumber {time : Option Nat} (valid : ∀ value ∈ time, IsTime value) :
    positiveTimestamp parse (ofNumber time) = time := by
  cases time with
  | none => rfl
  | some value =>
      obtain ⟨positive, safe⟩ := valid value rfl
      rw [positiveTimestamp, safeInteger_ofNumber safe,
        Option.filter_some_pos (by simpa using positive)]
      rfl

theorem isHash_of_hash {value : Scalar} {hash : String} (found : value.hash = some hash) :
    IsHash hash := by
  unfold Scalar.hash at found
  split at found
  · split at found
    · next digits =>
        cases found
        exact ⟨hasDigits_lowerCase digits, lowerCase_lowerCase _⟩
    · cases found
  · cases found

theorem hash_ofText {hash : Option String} (valid : ∀ value ∈ hash, IsHash value) :
    (ofText hash).hash = hash := by
  cases hash with
  | none => rfl
  | some value =>
      obtain ⟨digits, lower⟩ := valid value rfl
      show (if hasDigits 64 value then some (lowerCase value) else none) = some value
      rw [if_pos digits, lower]

theorem asText_ofText (text : Option String) : (ofText text).asText = text := by
  cases text <;> rfl

theorem IsHash.ne_empty {hash : String} (valid : IsHash hash) : hash ≠ "" := by
  rintro rfl
  cases valid.1

end Fields

section Claims

/-- The claim belongs to a deposit with this amount and expiry. -/
structure ExpiryClaim.Fits (claim : ExpiryClaim) (amount expiryTs : Nat) : Prop where
  amount : claim.amount = amount
  transactionHash : IsHash claim.transactionHash
  blockHash : IsHash claim.blockHash
  blockNumber : IsTime claim.blockNumber
  claimedAt : IsTime claim.claimedAt
  expired : expiryTs * 1000 ≤ claim.claimedAt

variable {parse : String → Option Int}

/-- What a claim needs to be accepted for a deposit. -/
theorem sanitizedExpiryClaim_eq_some {claim : Option ClaimInput} {amount : Nat}
    {expiryTs : Option Nat} {result : ExpiryClaim} :
    sanitizedExpiryClaim parse claim amount expiryTs = some result ↔
      ∃ input expiry, claim = some input ∧ expiryTs = some expiry ∧
        input.amount.safeInteger parse = some (amount : Int) ∧
        input.transactionHash.hash = some result.transactionHash ∧
        input.blockHash.hash = some result.blockHash ∧
        positiveTimestamp parse input.blockNumber = some result.blockNumber ∧
        positiveTimestamp parse input.claimedAt = some result.claimedAt ∧
        expiry * 1000 ≤ result.claimedAt ∧ result.amount = amount := by
  obtain ⟨transactionHash, blockHash, blockNumber, claimedAt, total⟩ := result
  simp only [sanitizedExpiryClaim, Option.bind_eq_bind, Option.bind_eq_some_iff, Option.guard_eq_some',
    Option.some.injEq, ExpiryClaim.mk.injEq]
  constructor
  · rintro ⟨input, given, expiry, known, ⟨⟩, same, hash, isHash, block, isBlock, number, isNumber,
      time, isTime, ⟨⟩, late, rfl, rfl, rfl, rfl, rfl⟩
    exact ⟨input, expiry, given, known, same, isHash, isBlock, isNumber, isTime, late, rfl⟩
  · rintro ⟨input, expiry, given, known, same, isHash, isBlock, isNumber, isTime, late, rfl⟩
    exact ⟨input, given, expiry, known, (), same, _, isHash, _, isBlock, _, isNumber, _, isTime,
      (), late, rfl, rfl, rfl, rfl, rfl⟩

theorem fits_of_sanitized {claim : Option ClaimInput} {amount : Nat} {expiryTs : Option Nat}
    {result : ExpiryClaim} (accepted : sanitizedExpiryClaim parse claim amount expiryTs = some result) :
    ∃ expiry ∈ expiryTs, result.Fits amount expiry := by
  obtain ⟨input, expiry, -, known, -, hash, block, number, time, late, same⟩ :=
    sanitizedExpiryClaim_eq_some.mp accepted
  exact ⟨expiry, known, same, isHash_of_hash hash, isHash_of_hash block,
    isTime_of_positiveTimestamp number, isTime_of_positiveTimestamp time, late⟩

theorem sanitized_input {claim : ExpiryClaim} {amount expiry : Nat} (safe : amount ≤ maxSafeInteger)
    (fits : claim.Fits amount expiry) :
    sanitizedExpiryClaim parse (some claim.input) amount (some expiry) = some claim := by
  have one {value : Nat} (valid : IsTime value) :
      positiveTimestamp parse (ofNumber (some value)) = some value :=
    positiveTimestamp_ofNumber fun _ same => Option.some.inj same ▸ valid
  have text {value : String} (valid : IsHash value) : (ofText (some value)).hash = some value :=
    hash_ofText fun _ same => Option.some.inj same ▸ valid
  refine sanitizedExpiryClaim_eq_some.mpr ⟨claim.input, expiry, rfl, rfl, ?_,
    text fits.transactionHash, text fits.blockHash, one fits.blockNumber, one fits.claimedAt,
    fits.expired, fits.amount⟩
  rw [← fits.amount] at safe ⊢
  exact safeInteger_ofNumber safe

end Claims

section Rows

/-- A row as the code builds it. -/
structure Deposit.WellFormed (record : Deposit) : Prop where
  deploymentId : record.deploymentId ≠ ""
  noteId : record.noteId ≤ maxSafeInteger
  amount : IsTime record.amount
  expiryTs : ∀ time ∈ record.expiryTs, IsTime time
  createdAt : ∀ time ∈ record.createdAt, IsTime time
  confirmedAt : ∀ time ∈ record.confirmedAt, IsTime time
  transactionHash : ∀ hash ∈ record.transactionHash, IsHash hash
  expiryClaim : ∀ claim ∈ record.expiryClaim,
    ∃ expiry ∈ record.expiryTs, claim.Fits record.amount expiry

variable {parse : String → Option Int}

theorem depositRecord_wellFormed {state : Option NoteState} {deploymentId : Option String}
    {metadata : Metadata} {record : Deposit}
    (built : depositRecord parse state deploymentId metadata = some record) :
    record.WellFormed := by
  simp only [depositRecord, Option.bind_eq_bind, Option.bind_eq_some_iff, Option.guard_eq_some',
    Option.filter_eq_some_iff, Option.some.injEq] at built
  obtain ⟨state, -, deployment, ⟨-, named⟩, ⟨⟩, -, noteId, ⟨safeNote, natural⟩, amount,
    ⟨safeAmount, positive⟩, rfl⟩ := built
  have noteBound := safeInteger_isSafe safeNote
  have amountBound := safeInteger_isSafe safeAmount
  simp only [isSafe, decide_eq_true_eq] at noteBound amountBound positive natural named
  exact {
    deploymentId := named
    noteId := by
      show noteId.toNat ≤ maxSafeInteger
      omega
    amount := by
      show 0 < amount.toNat ∧ amount.toNat ≤ maxSafeInteger
      omega
    expiryTs := fun _ found => isTime_of_positiveTimestamp found
    createdAt := fun _ found => isTime_of_positiveTimestamp found
    confirmedAt := fun _ found => isTime_of_positiveTimestamp found
    transactionHash := fun _ found => isHash_of_hash found
    expiryClaim := fun _ found => fits_of_sanitized found }

/-- A well-formed row is rebuilt to itself. -/
theorem depositRecord_state {record : Deposit} (valid : record.WellFormed) :
    depositRecord parse (some record.state) (some record.deploymentId) record.metadata =
      some record := by
  have time : positiveTimestamp parse (record.state.expiryTs.orElse record.metadata.expiryTs) =
      record.expiryTs := by
    have same : record.state.expiryTs.orElse record.metadata.expiryTs = ofNumber record.expiryTs := by
      rw [Scalar.orElse]
      split <;> rfl
    rw [same, positiveTimestamp_ofNumber valid.expiryTs]
  have claim : sanitizedExpiryClaim parse record.metadata.expiryClaim record.amount
      record.expiryTs = record.expiryClaim := by
    rcases known : record.expiryClaim with _ | claim
    · rw [Deposit.metadata, known]
      rfl
    · obtain ⟨expiry, isExpiry, fits⟩ := valid.expiryClaim claim known
      rw [Deposit.metadata, known, Option.mem_def.mp isExpiry]
      exact sanitized_input valid.amount.2 fits
  simp only [depositRecord, Option.bind_eq_bind, Option.bind_eq_some_iff, Option.guard_eq_some',
    Option.filter_eq_some_iff, Option.some.injEq]
  refine ⟨record.state, rfl, record.deploymentId, ⟨rfl, by simpa using valid.deploymentId⟩, (), rfl,
    record.noteId, ⟨safeInteger_ofNumber valid.noteId, by simp⟩, record.amount,
    ⟨safeInteger_ofNumber valid.amount.2, by simpa using valid.amount.1⟩, ?_⟩
  simp only [Int.toNat_natCast]
  rw [time, claim]
  have created : positiveTimestamp parse record.metadata.createdAt = record.createdAt :=
    positiveTimestamp_ofNumber valid.createdAt
  have confirmed : positiveTimestamp parse record.metadata.confirmedAt = record.confirmedAt :=
    positiveTimestamp_ofNumber valid.confirmedAt
  have hash : record.metadata.transactionHash.hash = record.transactionHash :=
    hash_ofText valid.transactionHash
  have operation : record.metadata.operationId.asText = record.operationId :=
    asText_ofText record.operationId
  rw [created, confirmed, hash, operation]

end Rows

section Stores

/-- The rows of a store: one well-formed row for every key. -/
structure Saved (rows : Rows) : Prop where
  wellFormed : ∀ record ∈ rows, record.WellFormed
  nodup : (rows.map Deposit.recordId).Nodup

theorem Saved.eq {rows : Rows} (saved : Saved rows) {left right : Deposit} (memLeft : left ∈ rows)
    (memRight : right ∈ rows) (same : left.recordId = right.recordId) : left = right :=
  List.inj_on_of_nodup_map saved.nodup memLeft memRight same

theorem get_eq_some {rows : Rows} (saved : Saved rows) {recordId : String} {record : Deposit} :
    rows.get recordId = some record ↔ record ∈ rows ∧ record.recordId = recordId := by
  constructor
  · intro found
    exact ⟨List.mem_of_find?_eq_some found, by simpa using List.find?_some found⟩
  · rintro ⟨mem, rfl⟩
    rcases found : rows.get record.recordId with _ | other
    · simpa using List.find?_eq_none.mp found record mem
    · have same : other.recordId = record.recordId := by simpa using List.find?_some found
      rw [saved.eq (List.mem_of_find?_eq_some found) mem same]

theorem get_eq_none {rows : Rows} {recordId : String} :
    rows.get recordId = none ↔ ∀ record ∈ rows, record.recordId ≠ recordId := by
  simp [Rows.get, List.find?_eq_none]

theorem mem_set {rows : Rows} {record other : Deposit} :
    other ∈ rows.set record ↔
      other = record ∨ (other ∈ rows ∧ other.recordId ≠ record.recordId) := by
  rw [Rows.set]
  split
  · next found =>
      obtain ⟨old, isOld⟩ := Option.isSome_iff_exists.mp found
      have mem : old ∈ rows := List.mem_of_find?_eq_some isOld
      have same : old.recordId = record.recordId := by simpa using List.find?_some isOld
      rw [List.mem_map]
      constructor
      · rintro ⟨row, inside, rfl⟩
        split
        · exact .inl rfl
        · next differs => exact .inr ⟨inside, differs⟩
      · rintro (rfl | ⟨inside, differs⟩)
        · exact ⟨old, mem, if_pos same⟩
        · exact ⟨other, inside, if_neg differs⟩
  · next absent =>
      have free := get_eq_none.mp (Option.not_isSome_iff_eq_none.mp absent)
      rw [List.mem_append, List.mem_singleton]
      constructor
      · rintro (inside | same)
        · exact .inr ⟨inside, free other inside⟩
        · exact .inl same
      · rintro (same | ⟨inside, -⟩)
        · exact .inr same
        · exact .inl inside

theorem saved_set {rows : Rows} (saved : Saved rows) {record : Deposit}
    (valid : record.WellFormed) : Saved (rows.set record) where
  wellFormed other mem := by
    rcases mem_set.mp mem with rfl | ⟨inside, -⟩
    · exact valid
    · exact saved.wellFormed other inside
  nodup := by
    rw [Rows.set]
    split
    · have keys : (rows.map fun other =>
          if other.recordId = record.recordId then record else other).map Deposit.recordId =
          rows.map Deposit.recordId := by
        rw [List.map_map]
        refine List.map_congr_left fun other _ => ?_
        rw [Function.comp_apply]
        split
        · next same => exact same.symm
        · rfl
      rw [keys]
      exact saved.nodup
    · next absent =>
        have free := get_eq_none.mp (Option.not_isSome_iff_eq_none.mp absent)
        rw [List.map_append, List.nodup_append]
        refine ⟨saved.nodup, by simp, ?_⟩
        intro key mem other last
        obtain ⟨row, inside, rfl⟩ := List.mem_map.mp mem
        rw [List.map_singleton, List.mem_singleton] at last
        exact last ▸ free row inside

/-- Writing a row that is stored already changes nothing. -/
theorem set_self {rows : Rows} (saved : Saved rows) {record : Deposit} (mem : record ∈ rows) :
    rows.set record = rows := by
  have found := (get_eq_some saved).mpr ⟨mem, rfl⟩
  rw [Rows.set, found, if_pos Option.isSome_some]
  conv_rhs => rw [← List.map_id rows]
  refine List.map_congr_left fun other inside => ?_
  split
  · next same => exact (saved.eq inside mem same).symm
  · rfl

theorem set_of_free {rows : Rows} {record : Deposit}
    (free : ∀ other ∈ rows, other.recordId ≠ record.recordId) :
    rows.set record = rows ++ [record] := by
  rw [Rows.set, get_eq_none.mpr free]
  rfl

theorem Saved.filter {rows : Rows} (saved : Saved rows) (keep : Deposit → Bool) :
    Saved (rows.filter keep) where
  wellFormed record mem := saved.wellFormed record (List.mem_of_mem_filter mem)
  nodup := (List.Sublist.map _ List.filter_sublist).nodup saved.nodup

theorem foldl_set_append {front rows : Rows}
    (nodup : ((front ++ rows).map Deposit.recordId).Nodup) :
    rows.foldl Rows.set front = front ++ rows := by
  induction rows generalizing front with
  | nil => exact (List.append_nil front).symm
  | cons record rows ih =>
      have free : ∀ other ∈ front, other.recordId ≠ record.recordId := by
        intro other mem same
        rw [List.map_append, List.nodup_append] at nodup
        exact nodup.2.2 _ (List.mem_map_of_mem mem) _
          (List.mem_map_of_mem (List.mem_cons_self)) same
      rw [List.foldl_cons, set_of_free free, ih (by simpa using nodup)]
      simp

/-- Reading the rows of a store gives them as they are. -/
theorem depositRecordMap_saved {parse : String → Option Int} {rows : Rows} (saved : Saved rows) :
    depositRecordMap parse rows = rows := by
  have rebuilt : (rows.filterMap fun record =>
      depositRecord parse (some record.state) (some record.deploymentId) record.metadata) = rows := by
    conv_rhs => rw [← List.filterMap_some (l := rows)]
    exact List.filterMap_congr fun record mem => depositRecord_state (saved.wellFormed record mem)
  rw [depositRecordMap, rebuilt]
  exact foldl_set_append saved.nodup

end Stores

end ZkApi.Browser.Deposits
