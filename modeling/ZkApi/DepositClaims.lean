import ZkApi.DepositFacts

/-!
# Claims of expired notes

A list of claims is recorded for the rows that are saved with their expiry.  If one claim is
refused then no row is written.
-/

namespace ZkApi.Browser.Deposits

open Expiry Escape
open Tokens (isTrimmed)

section Keys

theorem isDigit_of_mem_repr {number : Nat} {letter : Char} (mem : letter ∈ number.repr.toList) :
    letter.isDigit = true := by
  rw [Nat.toList_repr] at mem
  exact Nat.isDigit_of_mem_toDigits (by decide) (by decide) mem

theorem append_colon_inj {left right back other : List Char} (clean : ':' ∉ back)
    (otherClean : ':' ∉ other) (same : left ++ ':' :: back = right ++ ':' :: other) :
    left = right ∧ back = other := by
  rw [List.append_eq_append_iff] at same
  rcases same with ⟨middle, rfl, tail⟩ | ⟨middle, rfl, tail⟩
  · cases middle with
    | nil =>
        injection tail with _ tail
        exact ⟨(List.append_nil left).symm, tail⟩
    | cons letter middle =>
        injection tail with _ tail
        exact absurd (tail ▸ List.mem_append_right _ List.mem_cons_self) clean
  · cases middle with
    | nil =>
        injection tail with _ tail
        exact ⟨List.append_nil right, tail.symm⟩
    | cons letter middle =>
        injection tail with _ tail
        exact absurd (tail ▸ List.mem_append_right _ List.mem_cons_self) otherClean

/-- The key of a row names its deployment and its note. -/
theorem recordIdOf_inj {left right : String} {first second : Nat}
    (same : recordIdOf left first = recordIdOf right second) : left = right ∧ first = second := by
  have clean (number : Nat) : ':' ∉ number.repr.toList := by
    intro mem
    cases isDigit_of_mem_repr mem
  have lists := congrArg String.toList same
  rw [recordIdOf, recordIdOf] at lists
  simp only [String.toList_append] at lists
  rw [show ":deposit:".toList = ":deposit".toList ++ [':'] from rfl] at lists
  simp only [List.append_assoc, List.singleton_append] at lists
  simp only [← List.append_assoc] at lists
  obtain ⟨front, back⟩ := append_colon_inj (clean first) (clean second) lists
  have digits : Nat.toDigits 10 first = Nat.toDigits 10 second := by
    rw [← Nat.toList_repr, ← Nat.toList_repr, back]
  refine ⟨String.toList_injective (List.append_cancel_right front), ?_⟩
  calc first = Nat.ofDigitChars 10 (Nat.toDigits 10 first) 0 :=
        (Nat.ofDigitChars_toDigits (by decide) (by decide)).symm
    _ = Nat.ofDigitChars 10 (Nat.toDigits 10 second) 0 := by rw [digits]
    _ = second := Nat.ofDigitChars_toDigits (by decide) (by decide)

end Keys

section Claims

variable (parse : String → Option Int)

/-- What a claim says about a deposit that it fits. -/
def ClaimInput.stated (input : ClaimInput) : Option ExpiryClaim :=
  (input.amount.safeInteger parse).bind fun amount =>
    sanitizedExpiryClaim parse (some input) amount.toNat (some 0)

def claimFact (deploymentId : String) (noteId : Nat) (claim : ExpiryClaim) : Fact :=
  ⟨recordIdOf deploymentId noteId, .expiryClaim, .claim claim⟩

/-- The row of the note is saved with its expiry. -/
def Finds (rows : Rows) (deploymentId : String) (noteId : Nat) : Prop :=
  ∃ record ∈ rows, record.deploymentId = deploymentId ∧
    record.recordId = recordIdOf deploymentId noteId ∧ record.expiryTs ≠ none

/-- The facts of claims about the rows that are saved with their expiry. -/
def hitFacts (deploymentId : String) (claims : List (Option ClaimInput)) (rows : Rows) :
    Set Fact :=
  {fact | ∃ claim ∈ claims, ∃ input noteId expiryClaim,
    claimedNote parse deploymentId claim = some (input, noteId) ∧
    input.stated parse = some expiryClaim ∧ Finds rows deploymentId noteId ∧
    fact = claimFact deploymentId noteId expiryClaim}

/-- A row without its claim. -/
def Deposit.unclaimed (record : Deposit) : Deposit :=
  { record with expiryClaim := none }

def Deposit.claimed (record : Deposit) (claim : ExpiryClaim) : Deposit :=
  { record with expiryClaim := some claim }

/-- What a list of claims does to the rows if none of them is refused. -/
structure Recorded (deploymentId : String) (claims : List (Option ClaimInput))
    (before after : Rows) : Prop where
  rows : after.map Deposit.unclaimed = before.map Deposit.unclaimed
  facts : after.facts = before.facts ∪ hitFacts parse deploymentId claims before
  kept : ∀ record ∈ before, record.expiryClaim.isSome → record ∈ after
  accepted : ∀ claim ∈ claims, ∃ input noteId,
    claimedNote parse deploymentId claim = some (input, noteId) ∧
    ∀ record ∈ before, record.deploymentId = deploymentId →
      record.recordId = recordIdOf deploymentId noteId → record.expiryTs ≠ none →
      ∃ expiryClaim,
        sanitizedExpiryClaim parse (some input) record.amount record.expiryTs = some expiryClaim ∧
        record.claimed expiryClaim ∈ after

/-- Why a list of claims is refused: a claim names no note of the deployment, or it does not fit
the row of its note, or it fits but the row or another claim of the list says something else. -/
inductive Refused (deploymentId : String) (claims : List (Option ClaimInput)) (rows : Rows) : Prop
  | blank (empty : deploymentId.toList.all isTrimmed = true)
  | identity {claim : Option ClaimInput} (mem : claim ∈ claims)
      (none : claimedNote parse deploymentId claim = none)
  | unfit {claim : Option ClaimInput} {input : ClaimInput} {noteId : Nat} {record : Deposit}
      (mem : claim ∈ claims) (note : claimedNote parse deploymentId claim = some (input, noteId))
      (saved : record ∈ rows) (key : record.recordId = recordIdOf deploymentId noteId)
      (known : record.expiryTs ≠ none)
      (unfit : sanitizedExpiryClaim parse (some input) record.amount record.expiryTs = none)
  | conflicting {claim : Option ClaimInput} {input : ClaimInput} {noteId : Nat} {record : Deposit}
      {expiryClaim other : ExpiryClaim}
      (mem : claim ∈ claims) (note : claimedNote parse deploymentId claim = some (input, noteId))
      (saved : record ∈ rows) (key : record.recordId = recordIdOf deploymentId noteId)
      (fits : sanitizedExpiryClaim parse (some input) record.amount record.expiryTs =
        some expiryClaim)
      (earlier : record.expiryClaim = some other ∨ ∃ claim ∈ claims, ∃ input,
        claimedNote parse deploymentId claim = some (input, noteId) ∧
        sanitizedExpiryClaim parse (some input) record.amount record.expiryTs = some other)
      (differs : other ≠ expiryClaim)

variable {parse}

theorem stated_of_sanitized {input : ClaimInput} {amount : Nat} {expiryTs : Option Nat}
    {result : ExpiryClaim}
    (accepted : sanitizedExpiryClaim parse (some input) amount expiryTs = some result) :
    input.stated parse = some result := by
  obtain ⟨same, expiry, given, -, safe, hash, block, number, time, -, total⟩ :=
    sanitizedExpiryClaim_eq_some.mp accepted
  have isInput := Option.some.inj given
  subst isInput
  rw [ClaimInput.stated, safe]
  exact sanitizedExpiryClaim_eq_some.mpr ⟨input, 0, rfl, rfl, safe, hash, block, number, time,
    Nat.zero_mul 1000 ▸ Nat.zero_le _, total⟩

theorem fields_of_unclaimed {left right : Deposit} (same : left.unclaimed = right.unclaimed) :
    left.expiryTs = right.expiryTs ∧ left.amount = right.amount ∧
      ∀ claim, left.claimed claim = right.claimed claim := by
  have expiryTs := congrArg Deposit.expiryTs same
  have amount := congrArg Deposit.amount same
  have claimed (claim : ExpiryClaim) :=
    congrArg (fun bare : Deposit => bare.claimed claim) same
  exact ⟨expiryTs, amount, claimed⟩

theorem mem_of_unclaimed {before after : Rows}
    (rows : after.map Deposit.unclaimed = before.map Deposit.unclaimed) {record : Deposit}
    (mem : record ∈ before) : ∃ other ∈ after, other.unclaimed = record.unclaimed := by
  have inside : record.unclaimed ∈ after.map Deposit.unclaimed :=
    rows ▸ List.mem_map_of_mem mem
  exact List.mem_map.mp inside

theorem finds_of_unclaimed {before after : Rows}
    (rows : after.map Deposit.unclaimed = before.map Deposit.unclaimed) {deploymentId : String}
    {noteId : Nat} (finds : Finds before deploymentId noteId) :
    Finds after deploymentId noteId := by
  obtain ⟨record, mem, deployment, key, expiry⟩ := finds
  obtain ⟨other, inside, same⟩ := mem_of_unclaimed rows mem
  have dep := congrArg Deposit.deploymentId same
  have id := congrArg Deposit.recordId same
  have ts := congrArg Deposit.expiryTs same
  exact ⟨other, inside, dep.trans deployment, id.trans key, fun none => expiry (ts.symm.trans none)⟩

theorem hitFacts_of_unclaimed {before after : Rows}
    (rows : after.map Deposit.unclaimed = before.map Deposit.unclaimed) (deploymentId : String)
    (claims : List (Option ClaimInput)) :
    hitFacts parse deploymentId claims after = hitFacts parse deploymentId claims before := by
  ext fact
  constructor
  · rintro ⟨claim, mem, input, noteId, expiryClaim, note, stated, finds, same⟩
    exact ⟨claim, mem, input, noteId, expiryClaim, note, stated,
      finds_of_unclaimed rows.symm finds, same⟩
  · rintro ⟨claim, mem, input, noteId, expiryClaim, note, stated, finds, same⟩
    exact ⟨claim, mem, input, noteId, expiryClaim, note, stated,
      finds_of_unclaimed rows finds, same⟩

theorem Recorded.nil (deploymentId : String) (rows : Rows) :
    Recorded parse deploymentId [] rows rows where
  rows := rfl
  facts := by
    refine (Set.union_eq_left.mpr ?_).symm
    rintro fact ⟨claim, mem, -⟩
    cases mem
  kept _ mem _ := mem
  accepted _ mem := by cases mem

theorem Recorded.append {deploymentId : String} {front back : List (Option ClaimInput)}
    {before middle after : Rows} (first : Recorded parse deploymentId front before middle)
    (rest : Recorded parse deploymentId back middle after) :
    Recorded parse deploymentId (front ++ back) before after where
  rows := rest.rows.trans first.rows
  facts := by
    rw [rest.facts, first.facts, hitFacts_of_unclaimed first.rows, Set.union_assoc]
    congr 1
    ext fact
    simp [hitFacts, or_and_right, exists_or]
  kept record mem claimed := rest.kept record (first.kept record mem claimed) claimed
  accepted other mem := by
    rcases List.mem_append.mp mem with inside | inside
    · obtain ⟨input, noteId, note, accepted⟩ := first.accepted other inside
      refine ⟨input, noteId, note, fun record isRow deployment key expiry => ?_⟩
      obtain ⟨expiryClaim, fits, written⟩ := accepted record isRow deployment key expiry
      exact ⟨expiryClaim, fits, rest.kept _ written rfl⟩
    · obtain ⟨input, noteId, note, accepted⟩ := rest.accepted other inside
      refine ⟨input, noteId, note, fun record isRow deployment key expiry => ?_⟩
      obtain ⟨row, isMiddle, same⟩ := mem_of_unclaimed first.rows isRow
      have dep := congrArg Deposit.deploymentId same
      have id := congrArg Deposit.recordId same
      obtain ⟨ts, amount, claimed⟩ := fields_of_unclaimed same
      obtain ⟨expiryClaim, fits, written⟩ := accepted row isMiddle (dep.trans deployment)
        (id.trans key) (fun none => expiry (ts.symm.trans none))
      rw [ts, amount] at fits
      exact ⟨expiryClaim, fits, claimed expiryClaim ▸ written⟩

end Claims

section Loop

variable {parse : String → Option Int}

/-- The rows of a store after the updates. -/
def written (stored updates : Rows) : Rows :=
  updates.foldl Rows.set stored

/-- The history of the loop is what the store will have for the deployment. -/
structure Loop (deploymentId : String) (stored : Rows) (state : Rows × Rows) : Prop where
  saved : Saved (written stored state.2)
  history : state.1 = (written stored state.2).filter (·.deploymentId = deploymentId)
  updates : ∀ record ∈ state.2, record ∈ written stored state.2 ∧ record.expiryClaim.isSome

theorem filter_set {rows : Rows} (saved : Saved rows) {keep : Deposit → Bool}
    {record next : Deposit} (mem : record ∈ rows) (same : record.recordId = next.recordId)
    (keepRecord : keep record = true) (keepNext : keep next = true) :
    (rows.set next).filter keep = Rows.set (rows.filter keep) next := by
  have whole : (rows.get next.recordId).isSome := by
    rw [(get_eq_some saved).mpr ⟨mem, same⟩]
    rfl
  have part : (Rows.get (rows.filter keep) next.recordId).isSome := by
    rw [(get_eq_some (saved.filter keep)).mpr ⟨List.mem_filter.mpr ⟨mem, keepRecord⟩, same⟩]
    rfl
  rw [Rows.set, Rows.set, if_pos whole, if_pos part, List.filter_map]
  congr 1
  refine List.filter_congr fun other inside => ?_
  rw [Function.comp_apply]
  split
  · next key =>
      rw [saved.eq inside mem (key.trans same.symm), keepRecord, keepNext]
  · rfl

theorem map_unclaimed_set {rows : Rows} (saved : Saved rows) {record next : Deposit}
    (mem : record ∈ rows) (same : next.unclaimed = record.unclaimed) :
    (rows.set next).map Deposit.unclaimed = rows.map Deposit.unclaimed := by
  have key : record.recordId = next.recordId := (congrArg Deposit.recordId same).symm
  rw [Rows.set, (get_eq_some saved).mpr ⟨mem, key⟩, if_pos Option.isSome_some, List.map_map]
  refine List.map_congr_left fun other inside => ?_
  rw [Function.comp_apply]
  split
  · next isKey => rw [saved.eq inside mem (isKey.trans key.symm), same]
  · rfl

theorem claimed_facts {record : Deposit} {claim : ExpiryClaim} {deploymentId : String}
    {noteId : Nat} (key : record.recordId = recordIdOf deploymentId noteId)
    (open' : record.expiryClaim = none ∨ record.expiryClaim = some claim) :
    (record.claimed claim).facts = record.facts ∪ {claimFact deploymentId noteId claim} := by
  ext ⟨recordId, field, value⟩
  have split : (record.claimed claim).known field =
      if field = .expiryClaim then some (.claim claim) else record.known field := by
    cases field <;> rfl
  constructor
  · rintro ⟨isKey, knows⟩
    rw [split] at knows
    split at knows
    · next isClaim =>
        have value_eq := Option.some.inj knows
        have record_eq : recordId = recordIdOf deploymentId noteId := isKey.symm.trans key
        dsimp only at isClaim value_eq
        subst isClaim value_eq record_eq
        exact .inr rfl
    · exact .inl ⟨isKey, knows⟩
  · rintro (⟨isKey, knows⟩ | same)
    · refine ⟨isKey, ?_⟩
      rw [split]
      split
      · next isClaim =>
          dsimp only at isClaim knows
          subst isClaim
          rcases open' with unset | known
          · rw [Deposit.known, unset] at knows
            cases knows
          · rw [Deposit.known, known] at knows
            exact knows
      · exact knows
    · cases same
      exact ⟨key, rfl⟩

/-- One claim that is not refused. -/
theorem recordClaim_spec {deploymentId : String} {stored : Rows} {state after : Rows × Rows}
    {claim : Option ClaimInput} (loop : Loop deploymentId stored state)
    (ok : recordClaim parse deploymentId state claim = .ok after) :
    Loop deploymentId stored after ∧
      Recorded parse deploymentId [claim] (written stored state.2) (written stored after.2) := by
  rw [recordClaim] at ok
  split at ok
  · cases ok
  next input noteId note =>
  have savedHistory : Saved state.1 := loop.history ▸ loop.saved.filter _
  -- A claim that finds no row with an expiry changes nothing.
  have skipped (misses : ¬ Finds (written stored state.2) deploymentId noteId) :
      Recorded parse deploymentId [claim] (written stored state.2) (written stored state.2) := {
    rows := rfl
    facts := by
      refine (Set.union_eq_left.mpr ?_).symm
      rintro fact ⟨other, mem, otherInput, otherNote, expiryClaim, otherNoted, -, finds, -⟩
      rw [List.mem_singleton.mp mem, note] at otherNoted
      cases otherNoted
      exact absurd finds misses
    kept := fun _ mem _ => mem
    accepted := fun other mem => by
      rw [List.mem_singleton.mp mem]
      exact ⟨input, noteId, note, fun record isRow deployment key expiry =>
        absurd ⟨record, isRow, deployment, key, expiry⟩ misses⟩ }
  split at ok
  · next absent =>
      cases ok
      refine ⟨loop, skipped ?_⟩
      rintro ⟨record, mem, deployment, key, -⟩
      have inside : record ∈ state.1 := by
        rw [loop.history]
        exact List.mem_filter.mpr ⟨mem, by simpa using deployment⟩
      exact get_eq_none.mp absent record inside key
  next record found =>
  obtain ⟨inHistory, key⟩ := (get_eq_some savedHistory).mp found
  have kept := inHistory
  rw [loop.history, List.mem_filter] at kept
  obtain ⟨mem, isDeployment⟩ := kept
  have deployment : record.deploymentId = deploymentId := by simpa using isDeployment
  have only {other : Deposit} (inside : other ∈ written stored state.2)
      (isKey : other.recordId = recordIdOf deploymentId noteId) : other = record :=
    loop.saved.eq inside mem (isKey.trans key.symm)
  split at ok
  · next unknown =>
      cases ok
      refine ⟨loop, skipped ?_⟩
      rintro ⟨other, inside, -, isKey, expiry⟩
      rw [only inside isKey] at expiry
      exact expiry unknown
  next known =>
  split at ok
  · cases ok
  next expiryClaim fits =>
  split at ok
  · cases ok
  next agrees =>
  have open' : record.expiryClaim = none ∨ record.expiryClaim = some expiryClaim := by
    cases earlier : record.expiryClaim with
    | none => exact .inl rfl
    | some first =>
        rw [earlier] at agrees
        exact .inr (congrArg some (by simpa using agrees))
  have finds : Finds (written stored state.2) deploymentId noteId :=
    ⟨record, mem, deployment, key, known⟩
  have hits : hitFacts parse deploymentId [claim] (written stored state.2) =
      {claimFact deploymentId noteId expiryClaim} := by
    ext fact
    constructor
    · rintro ⟨other, isClaim, otherInput, otherNote, otherClaim, otherNoted, stated, -, rfl⟩
      rw [List.mem_singleton.mp isClaim, note] at otherNoted
      cases otherNoted
      rw [stated_of_sanitized fits] at stated
      cases stated
      rfl
    · rintro rfl
      exact ⟨claim, List.mem_cons_self, input, noteId, expiryClaim, note, stated_of_sanitized fits,
        finds, rfl⟩
  have valid : (record.claimed expiryClaim).WellFormed := {
    loop.saved.wellFormed record mem with
    expiryClaim := fun other isClaim => by
      cases isClaim
      exact fits_of_sanitized fits }
  -- The rows of the store get the claim, also if the update was there before.
  have recorded : Recorded parse deploymentId [claim] (written stored state.2)
      ((written stored state.2).set (record.claimed expiryClaim)) := {
    rows := map_unclaimed_set loop.saved mem rfl
    facts := by
      rw [facts_set, claimed_facts key open', hits, ← Set.union_assoc]
      · congr 1
        exact Set.union_eq_left.mpr fun fact knows => ⟨record, mem, knows⟩
      · intro previous inside isKey
        rw [only inside (isKey.trans key), claimed_facts key open']
        exact Set.subset_union_left
    kept := fun other inside claimed => by
      by_cases isKey : other.recordId = record.recordId
      · have same := only inside (isKey.trans key)
        subst same
        rcases open' with unset | earlier
        · rw [unset] at claimed
          cases claimed
        · have unchanged : other.claimed expiryClaim = other := by
            rw [Deposit.claimed, ← earlier]
          exact mem_set.mpr (.inl unchanged.symm)
      · exact mem_set.mpr (.inr ⟨inside, isKey⟩)
    accepted := fun other isClaim => by
      rw [List.mem_singleton.mp isClaim]
      refine ⟨input, noteId, note, fun row inside _ isKey _ => ?_⟩
      rw [only inside isKey]
      exact ⟨expiryClaim, fits, mem_set.mpr (.inl rfl)⟩ }
  have history : Rows.set state.1 (record.claimed expiryClaim) =
      ((written stored state.2).set (record.claimed expiryClaim)).filter
        (·.deploymentId = deploymentId) := by
    rw [loop.history]
    exact (@filter_set _ loop.saved (fun row => decide (row.deploymentId = deploymentId)) _
      (record.claimed expiryClaim) mem rfl isDeployment isDeployment).symm
  cases ok
  rcases open' with unset | earlier
  · have free : ∀ other ∈ state.2, other.recordId ≠ (record.claimed expiryClaim).recordId := by
      intro other isUpdate isKey
      obtain ⟨inside, claimed⟩ := loop.updates other isUpdate
      rw [only inside (isKey.trans key), unset] at claimed
      cases claimed
    have updates : written stored (state.2 ++ [record.claimed expiryClaim]) =
        (written stored state.2).set (record.claimed expiryClaim) := List.foldl_append
    have appended : (if record.expiryClaim = none then
        Rows.set state.2 (record.claimed expiryClaim) else state.2) =
        state.2 ++ [record.claimed expiryClaim] := by
      rw [if_pos unset, set_of_free free]
    rw [show ({ record with expiryClaim := some expiryClaim } : Deposit) =
      record.claimed expiryClaim from rfl, appended]
    refine ⟨⟨?_, ?_, ?_⟩, ?_⟩
    · rw [updates]
      exact saved_set loop.saved valid
    · rw [updates]
      exact history
    · intro other isUpdate
      rw [updates]
      rcases List.mem_append.mp isUpdate with earlier | last
      · obtain ⟨inside, claimed⟩ := loop.updates other earlier
        exact ⟨mem_set.mpr (.inr ⟨inside, free other earlier⟩), claimed⟩
      · rw [List.mem_singleton.mp last]
        exact ⟨mem_set.mpr (.inl rfl), rfl⟩
    · rw [updates]
      exact recorded
  · have unchanged : record.claimed expiryClaim = record := by
      rw [Deposit.claimed, ← earlier]
    rw [unchanged, set_self loop.saved mem] at recorded
    rw [show ({ record with expiryClaim := some expiryClaim } : Deposit) = record from unchanged,
      if_neg (by simp [earlier]), set_self savedHistory inHistory]
    exact ⟨loop, recorded⟩

theorem foldlM_recordClaim_spec {deploymentId : String} {stored : Rows}
    {claims : List (Option ClaimInput)} {state after : Rows × Rows}
    (loop : Loop deploymentId stored state)
    (ok : claims.foldlM (recordClaim parse deploymentId) state = .ok after) :
    Loop deploymentId stored after ∧
      Recorded parse deploymentId claims (written stored state.2) (written stored after.2) := by
  induction claims generalizing state with
  | nil =>
      cases ok
      exact ⟨loop, Recorded.nil deploymentId _⟩
  | cons claim claims ih =>
      rw [List.foldlM_cons] at ok
      cases first : recordClaim parse deploymentId state claim with
      | error error =>
          rw [first] at ok
          cases ok
      | ok middle =>
          rw [first] at ok
          obtain ⟨between, one⟩ := recordClaim_spec loop first
          obtain ⟨last, rest⟩ := ih between ok
          exact ⟨last, one.append rest⟩

/-- One claim that is refused after others that were recorded. -/
theorem recordClaim_refused {deploymentId message : String} {stored : Rows} {state : Rows × Rows}
    {done claims : List (Option ClaimInput)} {claim : Option ClaimInput} (saved : Saved stored)
    (loop : Loop deploymentId stored state)
    (recorded : Recorded parse deploymentId done stored (written stored state.2))
    (error : recordClaim parse deploymentId state claim = .error message) :
    Refused parse deploymentId (done ++ claim :: claims) stored := by
  have mem : claim ∈ done ++ claim :: claims := by simp
  rw [recordClaim] at error
  split at error
  · next noNote => exact .identity mem noNote
  next input noteId note =>
  split at error
  · cases error
  next record found =>
  have savedHistory : Saved state.1 := loop.history ▸ loop.saved.filter _
  obtain ⟨inHistory, key⟩ := (get_eq_some savedHistory).mp found
  rw [loop.history, List.mem_filter] at inHistory
  obtain ⟨inside, isDeployment⟩ := inHistory
  have deployment : record.deploymentId = deploymentId := by simpa using isDeployment
  -- The stored row differs from the one of the loop in its claim only.
  obtain ⟨row, isRow, same⟩ := mem_of_unclaimed recorded.rows.symm inside
  have rowDeployment := (congrArg Deposit.deploymentId same).trans deployment
  have rowKey : row.recordId = recordIdOf deploymentId noteId :=
    (congrArg Deposit.recordId same).trans key
  obtain ⟨ts, amount, -⟩ := fields_of_unclaimed same
  split at error
  · cases error
  next known =>
  split at error
  · next unfit =>
      exact .unfit mem note isRow rowKey (ts ▸ known) (ts ▸ amount ▸ unfit)
  next expiryClaim fits =>
  split at error
  · next differs =>
      obtain ⟨other, isOther, apart⟩ := (Option.any_eq_true ..).mp differs
      have fact : (⟨record.recordId, .expiryClaim, .claim other⟩ : Fact) ∈
          (written stored state.2).facts := by
        refine ⟨record, inside, rfl, ?_⟩
        rw [Deposit.known, isOther]
        rfl
      rw [recorded.facts] at fact
      refine .conflicting mem note isRow rowKey (ts ▸ amount ▸ fits) ?_ (by simpa using apart)
      rcases fact with ⟨earlier, isEarlier, earlierKey, knows⟩ | hit
      · have isSame := saved.eq isEarlier isRow (earlierKey.trans (key.trans rowKey.symm))
        subst isSame
        obtain ⟨value, isValue, isClaim⟩ := Option.map_eq_some_iff.mp knows
        cases isClaim
        exact .inl isValue
      · obtain ⟨first, isFirst, firstInput, firstNote, firstClaim, noted, stated, -, isFact⟩ := hit
        obtain ⟨-, rfl⟩ := recordIdOf_inj (key.symm.trans (congrArg Fact.recordId isFact))
        cases congrArg Fact.value isFact
        obtain ⟨acceptedInput, acceptedNote, acceptedNoted, accepted⟩ :=
          recorded.accepted first isFirst
        rw [noted] at acceptedNoted
        cases acceptedNoted
        obtain ⟨fitting, firstFits, -⟩ := accepted row isRow rowDeployment rowKey (ts ▸ known)
        rw [stated_of_sanitized firstFits] at stated
        cases stated
        exact .inr ⟨first, List.mem_append_left _ isFirst, firstInput, noted, firstFits⟩
  · cases error

theorem foldlM_recordClaim_refused {deploymentId message : String} {stored : Rows}
    {done claims : List (Option ClaimInput)} {state : Rows × Rows} (saved : Saved stored)
    (loop : Loop deploymentId stored state)
    (recorded : Recorded parse deploymentId done stored (written stored state.2))
    (error : claims.foldlM (recordClaim parse deploymentId) state = .error message) :
    Refused parse deploymentId (done ++ claims) stored := by
  induction claims generalizing state done with
  | nil => cases error
  | cons claim claims ih =>
      rw [List.foldlM_cons] at error
      cases first : recordClaim parse deploymentId state claim with
      | error message => exact recordClaim_refused saved loop recorded first
      | ok middle =>
          rw [first] at error
          obtain ⟨between, one⟩ := recordClaim_spec loop first
          rw [← List.singleton_append, ← List.append_assoc]
          exact ih between (recorded.append one) error

/-- A list of claims is only refused for a claim that is invalid or in conflict. -/
theorem recordBrowserExpiryClaims_refused {deploymentId message : String}
    {claims : List (Option ClaimInput)} {stored : Rows} (saved : Saved stored)
    (error : recordBrowserExpiryClaims parse deploymentId claims stored = .error message) :
    Refused parse deploymentId claims stored := by
  rw [recordBrowserExpiryClaims] at error
  split at error
  · next blank => exact .blank blank
  · rw [depositRecordMap_saved (saved.filter _)] at error
    dsimp only at error
    have loop : Loop deploymentId stored (stored.filter (·.deploymentId = deploymentId), []) :=
      ⟨saved, rfl, fun _ mem => by cases mem⟩
    cases run : claims.foldlM (recordClaim parse deploymentId)
        (stored.filter (·.deploymentId = deploymentId), []) with
    | ok after =>
        rw [run] at error
        cases error
    | error message =>
        exact foldlM_recordClaim_refused saved loop (Recorded.nil deploymentId stored) run

/-- Claims that are not refused are all recorded. -/
theorem recordBrowserExpiryClaims_spec {deploymentId : String}
    {claims : List (Option ClaimInput)} {stored rows updates : Rows} (saved : Saved stored)
    (ok : recordBrowserExpiryClaims parse deploymentId claims stored = .ok (rows, updates)) :
    Saved rows ∧ Recorded parse deploymentId claims stored rows := by
  rw [recordBrowserExpiryClaims] at ok
  split at ok
  · cases ok
  · rw [depositRecordMap_saved (saved.filter _)] at ok
    dsimp only at ok
    have loop : Loop deploymentId stored (stored.filter (·.deploymentId = deploymentId), []) :=
      ⟨saved, rfl, fun _ mem => by cases mem⟩
    cases run : claims.foldlM (recordClaim parse deploymentId)
        (stored.filter (·.deploymentId = deploymentId), []) with
    | error error =>
        rw [run] at ok
        cases ok
    | ok after =>
        rw [run] at ok
        obtain ⟨last, recorded⟩ := foldlM_recordClaim_spec loop run
        cases ok
        exact ⟨last.saved, recorded⟩

end Loop

end ZkApi.Browser.Deposits
