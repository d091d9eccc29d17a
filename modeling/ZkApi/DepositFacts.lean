import Mathlib.Data.Set.Lattice
import ZkApi.DepositRows

/-!
# What the history knows

The history is a set of facts: a field of a note with its value.  Every call adds the facts that
it was given, so nothing is lost and the order of the calls does not matter.
-/

namespace ZkApi.Browser.Deposits

open Expiry Escape

section Facts

inductive Field where
  | createdAt
  | confirmedAt
  | transactionHash
  | operationId
  | expiryTs
  | amount
  | expiryClaim
deriving DecidableEq

inductive Known where
  | number (value : Nat)
  | text (value : String)
  | claim (value : ExpiryClaim)
deriving DecidableEq

/-- The value of a field, if it is known.  An empty operation id says nothing. -/
def Deposit.known (record : Deposit) : Field → Option Known
  | .createdAt => record.createdAt.map .number
  | .confirmedAt => record.confirmedAt.map .number
  | .transactionHash => record.transactionHash.map .text
  | .operationId => (record.operationId.filter (· ≠ "")).map .text
  | .expiryTs => record.expiryTs.map .number
  | .amount => some (.number record.amount)
  | .expiryClaim => record.expiryClaim.map .claim

structure Fact where
  recordId : String
  field : Field
  value : Known

def Deposit.facts (record : Deposit) : Set Fact :=
  {fact | record.recordId = fact.recordId ∧ record.known fact.field = some fact.value}

def Rows.facts (rows : Rows) : Set Fact :=
  {fact | ∃ record ∈ rows, fact ∈ record.facts}

/-- No two facts give different values to a field. -/
def Agree (facts : Set Fact) : Prop :=
  ∀ left ∈ facts, ∀ right ∈ facts, left.recordId = right.recordId → left.field = right.field →
    left.value = right.value

theorem Agree.mono {facts more : Set Fact} (agree : Agree more) (subset : facts ⊆ more) :
    Agree facts :=
  fun left isLeft right isRight => agree left (subset isLeft) right (subset isRight)

/-- Rows of one note that agree on all that they know. -/
theorem Agree.known_eq {facts : Set Fact} (agree : Agree facts) {left right : Deposit}
    (isLeft : left.facts ⊆ facts) (isRight : right.facts ⊆ facts)
    (same : left.recordId = right.recordId) {field : Field} {x y : Known}
    (knowsLeft : left.known field = some x) (knowsRight : right.known field = some y) : x = y :=
  agree ⟨left.recordId, field, x⟩ (isLeft ⟨rfl, knowsLeft⟩) ⟨left.recordId, field, y⟩
    (isRight ⟨same.symm, knowsRight⟩) rfl rfl

theorem facts_set {rows : Rows} {record : Deposit}
    (extends' : ∀ previous ∈ rows, previous.recordId = record.recordId →
      previous.facts ⊆ record.facts) :
    (rows.set record).facts = rows.facts ∪ record.facts := by
  ext fact
  constructor
  · rintro ⟨other, mem, knows⟩
    rcases mem_set.mp mem with rfl | ⟨inside, -⟩
    · exact .inr knows
    · exact .inl ⟨other, inside, knows⟩
  · rintro (⟨other, inside, knows⟩ | knows)
    · by_cases same : other.recordId = record.recordId
      · exact ⟨record, mem_set.mpr (.inl rfl), extends' other inside same knows⟩
      · exact ⟨other, mem_set.mpr (.inr ⟨inside, same⟩), knows⟩
    · exact ⟨record, mem_set.mpr (.inl rfl), knows⟩

end Facts

section Merge

theorem orNumber_map {left right : Option Nat} (valid : ∀ value ∈ left, IsTime value)
    (wrap : Nat → Known) :
    (orNumber left right).map wrap = (left.map wrap).or (right.map wrap) := by
  cases left with
  | none => rfl
  | some value =>
      have positive := (valid value rfl).1
      rw [orNumber, if_pos (by simpa using Nat.pos_iff_ne_zero.mp positive)]
      rfl

theorem orText_map (left right : Option String) (wrap : String → Known) :
    ((orText left right).filter (· ≠ "")).map wrap =
      ((left.filter (· ≠ "")).map wrap).or ((right.filter (· ≠ "")).map wrap) := by
  cases left with
  | none => rfl
  | some value =>
      by_cases empty : value = ""
      · subst empty
        rfl
      · rw [orText, if_pos (by simpa using empty)]
        simp [Option.filter, empty]

theorem filter_hash {hash : Option String} (valid : ∀ value ∈ hash, IsHash value) :
    hash.filter (· ≠ "") = hash := by
  cases hash with
  | none => rfl
  | some value => exact Option.filter_some_pos (by simpa using (valid value rfl).ne_empty)

theorem orText_valid {left right : Option String} (validLeft : ∀ value ∈ left, IsHash value)
    (validRight : ∀ value ∈ right, IsHash value) : ∀ value ∈ orText left right, IsHash value := by
  intro value mem
  rw [orText] at mem
  split at mem
  · exact validLeft value mem
  · exact validRight value mem

theorem orNumber_valid {left right : Option Nat} (validLeft : ∀ value ∈ left, IsTime value)
    (validRight : ∀ value ∈ right, IsTime value) : ∀ value ∈ orNumber left right, IsTime value := by
  intro value mem
  rw [orNumber] at mem
  split at mem
  · exact validLeft value mem
  · exact validRight value mem

/-- A merged row knows what the previous row knew, and otherwise what the candidate knows. -/
theorem known_mergedRow {previous candidate : Deposit} (valid : previous.WellFormed)
    (other : candidate.WellFormed) (amount : previous.amount = candidate.amount) (field : Field) :
    (mergedRow previous candidate).known field =
      (previous.known field).or (candidate.known field) := by
  cases field with
  | createdAt => exact orNumber_map valid.createdAt Known.number
  | confirmedAt => exact orNumber_map valid.confirmedAt Known.number
  | transactionHash =>
      have hashes := orText_map previous.transactionHash candidate.transactionHash
        Known.text
      rw [filter_hash valid.transactionHash, filter_hash other.transactionHash,
        filter_hash (orText_valid valid.transactionHash other.transactionHash)] at hashes
      exact hashes
  | operationId => exact orText_map _ _ Known.text
  | expiryTs => exact orNumber_map valid.expiryTs Known.number
  | amount =>
      show some (Known.number candidate.amount) = (some (Known.number previous.amount)).or _
      rw [amount]
      rfl
  | expiryClaim =>
      show (previous.expiryClaim.or candidate.expiryClaim).map Known.claim = _
      cases claim : previous.expiryClaim <;> simp [Deposit.known, claim]

theorem wellFormed_mergedRow {previous candidate : Deposit} (valid : previous.WellFormed)
    (other : candidate.WellFormed) (amount : previous.amount = candidate.amount)
    (expiry : ∀ left ∈ previous.expiryTs, ∀ right ∈ candidate.expiryTs, left = right) :
    (mergedRow previous candidate).WellFormed where
  deploymentId := other.deploymentId
  noteId := other.noteId
  amount := other.amount
  expiryTs := orNumber_valid valid.expiryTs other.expiryTs
  createdAt := orNumber_valid valid.createdAt other.createdAt
  confirmedAt := orNumber_valid valid.confirmedAt other.confirmedAt
  transactionHash := orText_valid valid.transactionHash other.transactionHash
  expiryClaim claim mem := by
    have kept (time : Nat) (isTime : previous.expiryTs = some time) :
        (mergedRow previous candidate).expiryTs = some time := by
      show orNumber previous.expiryTs candidate.expiryTs = some time
      have positive := (valid.expiryTs time isTime).1
      rw [orNumber, isTime, if_pos (by simpa using Nat.pos_iff_ne_zero.mp positive)]
    rcases Option.or_eq_some_iff.mp (show previous.expiryClaim.or candidate.expiryClaim =
      some claim from mem) with known | ⟨-, known⟩
    · obtain ⟨time, isTime, fits⟩ := valid.expiryClaim claim known
      exact ⟨time, kept time isTime, amount ▸ fits⟩
    · obtain ⟨time, isTime, fits⟩ := other.expiryClaim claim known
      refine ⟨time, ?_, fits⟩
      cases before : previous.expiryTs with
      | none =>
          show orNumber previous.expiryTs candidate.expiryTs = some time
          rw [before]
          exact isTime
      | some first => exact (kept first before).trans (congrArg some (expiry first before time isTime))

/-- The rows after one candidate. -/
def merged (rows : Rows) (candidate : Deposit) : Rows :=
  rows.set (match rows.get candidate.recordId with
    | some previous => mergedRow previous candidate
    | none => candidate)

/-- The history that was read and the store stay the same. -/
theorem mergeDepositRecord_eq {rows : Rows} (saved : Saved rows) (candidate : Deposit) :
    mergeDepositRecord (rows, rows) (some candidate) =
      (merged rows candidate, merged rows candidate) := by
  cases found : rows.get candidate.recordId with
  | none =>
      simp only [mergeDepositRecord, merged, found]
      rfl
  | some previous =>
      simp only [mergeDepositRecord, merged, found]
      split
      · next unchanged =>
          have mem : mergedRow previous candidate ∈ rows :=
            ((get_eq_some saved).mp (found.trans unchanged)).1
          rw [set_self saved mem]
      · rfl

theorem merged_spec {rows : Rows} (saved : Saved rows) {candidate : Deposit}
    (valid : candidate.WellFormed) (agree : Agree (rows.facts ∪ candidate.facts)) :
    Saved (merged rows candidate) ∧
      (merged rows candidate).facts = rows.facts ∪ candidate.facts := by
  rw [merged]
  cases found : rows.get candidate.recordId with
  | none =>
      refine ⟨saved_set saved valid, facts_set ?_⟩
      intro previous mem same
      exact absurd same (get_eq_none.mp found previous mem)
  | some previous =>
      obtain ⟨mem, same⟩ := (get_eq_some saved).mp found
      have before : previous.facts ⊆ rows.facts ∪ candidate.facts :=
        fun fact knows => .inl ⟨previous, mem, knows⟩
      have after : candidate.facts ⊆ rows.facts ∪ candidate.facts := fun fact knows => .inr knows
      have agrees (field : Field) {x y : Known} (left : previous.known field = some x)
          (right : candidate.known field = some y) : x = y :=
        agree.known_eq before after same left right
      have amount : previous.amount = candidate.amount :=
        Known.number.inj (agrees .amount rfl rfl)
      have expiry : ∀ left ∈ previous.expiryTs, ∀ right ∈ candidate.expiryTs, left = right := by
        intro left isLeft right isRight
        exact Known.number.inj (agrees .expiryTs
          (congrArg (Option.map Known.number) isLeft)
          (congrArg (Option.map Known.number) isRight))
      have known := known_mergedRow (saved.wellFormed previous mem) valid amount
      have key : (mergedRow previous candidate).recordId = candidate.recordId := rfl
      have facts : (mergedRow previous candidate).facts = previous.facts ∪ candidate.facts := by
        ext ⟨recordId, field, value⟩
        constructor
        · rintro ⟨isKey, knows⟩
          rw [known, Option.or_eq_some_iff] at knows
          rcases knows with left | ⟨-, right⟩
          · exact .inl ⟨same.trans isKey, left⟩
          · exact .inr ⟨isKey, right⟩
        · rintro (⟨isKey, left⟩ | ⟨isKey, right⟩)
          · refine ⟨same.symm.trans isKey, ?_⟩
            rw [known]
            exact Option.or_eq_some_iff.mpr (.inl left)
          · refine ⟨isKey, ?_⟩
            rw [known]
            cases left : previous.known field with
            | none => exact right
            | some x =>
                rw [agrees field left right]
                rfl
      refine ⟨saved_set saved (wellFormed_mergedRow (saved.wellFormed previous mem) valid amount
        expiry), ?_⟩
      rw [facts_set, facts, ← Set.union_assoc]
      · congr 1
        exact Set.union_eq_left.mpr fun fact knows => ⟨previous, mem, knows⟩
      · intro other inside isKey
        rw [saved.eq inside mem (isKey.trans (key.trans same.symm)), facts]
        exact Set.subset_union_left

end Merge

section Candidates

/-- The facts of all candidates. -/
def candidateFacts (candidates : List (Option Deposit)) : Set Fact :=
  {fact | ∃ candidate, some candidate ∈ candidates ∧ fact ∈ candidate.facts}

/-- A call that merges candidates adds their facts. -/
theorem foldl_merge_spec {rows : Rows} (saved : Saved rows) {candidates : List (Option Deposit)}
    (valid : ∀ candidate, some candidate ∈ candidates → candidate.WellFormed)
    (agree : Agree (rows.facts ∪ candidateFacts candidates)) :
    Saved (candidates.foldl mergeDepositRecord (rows, rows)).2 ∧
      (candidates.foldl mergeDepositRecord (rows, rows)).2.facts =
        rows.facts ∪ candidateFacts candidates := by
  induction candidates generalizing rows with
  | nil =>
      refine ⟨saved, (Set.union_eq_left.mpr ?_).symm⟩
      rintro fact ⟨candidate, mem, -⟩
      cases mem
  | cons first candidates ih =>
      cases first with
      | none =>
          have same : candidateFacts (none :: candidates) = candidateFacts candidates := by
            ext fact
            simp [candidateFacts]
          rw [same] at agree ⊢
          exact ih saved (fun candidate mem => valid candidate (List.mem_cons_of_mem _ mem)) agree
      | some candidate =>
          have split : candidateFacts (some candidate :: candidates) =
              candidate.facts ∪ candidateFacts candidates := by
            ext fact
            simp [candidateFacts, or_and_right, exists_or]
          rw [split, ← Set.union_assoc] at agree ⊢
          obtain ⟨kept, facts⟩ := merged_spec saved (valid candidate List.mem_cons_self)
            (agree.mono Set.subset_union_left)
          rw [List.foldl_cons, mergeDepositRecord_eq saved, ← facts]
          rw [← facts] at agree
          exact ih kept (fun other mem => valid other (List.mem_cons_of_mem _ mem)) agree

theorem candidates_wellFormed {parse : String → Option Int} {call : Call} {candidate : Deposit}
    (mem : some candidate ∈ call.candidates parse) : candidate.WellFormed := by
  cases call with
  | readBrowserWalletSnapshot runtime records archives =>
      simp only [Call.candidates, List.mem_cons, List.mem_append, List.mem_map] at mem
      rcases mem with built | ⟨source, -, built⟩ | ⟨archive, -, built⟩
      · exact depositRecord_wellFormed built.symm
      · exact depositRecord_wellFormed built
      · exact depositRecord_wellFormed built
  | writeBrowserWallet current value depositConfirmation =>
      simp only [Call.candidates, List.mem_cons, List.not_mem_nil, or_false] at mem
      rcases mem with built | built
      · exact depositRecord_wellFormed built.symm
      · exact depositRecord_wellFormed built.symm
  | sanitizeBrowserWithdrawal current =>
      exact depositRecord_wellFormed (List.mem_singleton.mp mem).symm
  | recordBrowserExpiryClaims deploymentId claims => cases mem

end Candidates

end ZkApi.Browser.Deposits
