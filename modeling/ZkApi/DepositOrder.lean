import ZkApi.DepositClaims

/-!
# The order of calls

The facts of the history are those of all calls.  A claim is a fact from the moment when its row
is saved with an expiry.
-/

namespace ZkApi.Browser.Deposits

open Expiry Escape

section Rows

/-- A row where an empty operation id is no operation id. -/
def Deposit.named (record : Deposit) : Deposit :=
  { record with operationId := record.operationId.filter (· ≠ "") }

def Rows.known (rows : Rows) (recordId : String) : Option Deposit :=
  (rows.get recordId).map Deposit.named

theorem agree_of_saved {rows : Rows} (saved : Saved rows) : Agree rows.facts := by
  rintro left ⟨record, mem, key, knows⟩ right ⟨other, inside, isKey, otherKnows⟩ sameId sameField
  have same : other = record :=
    saved.eq inside mem (isKey.trans (sameId.symm.trans key.symm))
  rw [same, ← sameField, knows] at otherKnows
  exact Option.some.inj otherKnows

theorem known_of_facts {rows : Rows} (saved : Saved rows) {record : Deposit} (mem : record ∈ rows)
    {field : Field} {value : Known} :
    record.known field = some value ↔ ⟨record.recordId, field, value⟩ ∈ rows.facts := by
  constructor
  · exact fun knows => ⟨record, mem, rfl, knows⟩
  · rintro ⟨other, inside, key, knows⟩
    rwa [saved.eq inside mem key] at knows

theorem named_eq {left right : Deposit} (key : left.recordId = right.recordId)
    (same : ∀ field, left.known field = right.known field) : left.named = right.named := by
  obtain ⟨deployment, note⟩ := recordIdOf_inj key
  have number {x y : Option Nat} (eq : x.map Known.number = y.map Known.number) : x = y :=
    Option.map_injective (fun _ _ => Known.number.inj) eq
  have text {x y : Option String} (eq : x.map Known.text = y.map Known.text) : x = y :=
    Option.map_injective (fun _ _ => Known.text.inj) eq
  have claim {x y : Option ExpiryClaim} (eq : x.map Known.claim = y.map Known.claim) : x = y :=
    Option.map_injective (fun _ _ => Known.claim.inj) eq
  have amount : left.amount = right.amount :=
    Known.number.inj (Option.some.inj (same .amount))
  rw [Deposit.named, Deposit.named, deployment, note, amount, number (same .createdAt),
    number (same .confirmedAt), text (same .transactionHash), text (same .operationId),
    number (same .expiryTs), claim (same .expiryClaim)]

/-- Stores with the same facts have the same rows. -/
theorem known_eq_of_facts {rows others : Rows} (saved : Saved rows) (savedOthers : Saved others)
    (facts : rows.facts = others.facts) (recordId : String) :
    rows.known recordId = others.known recordId := by
  have found {rows others : Rows} (savedOthers : Saved others) (facts : rows.facts = others.facts)
      {record : Deposit} (mem : record ∈ rows) :
      ∃ other ∈ others, other.recordId = record.recordId := by
    have known : (⟨record.recordId, .amount, .number record.amount⟩ : Fact) ∈ rows.facts :=
      ⟨record, mem, rfl, rfl⟩
    rw [facts] at known
    obtain ⟨other, inside, key, -⟩ := known
    exact ⟨other, inside, key⟩
  rw [Rows.known, Rows.known]
  cases here : rows.get recordId with
  | none =>
      cases there : others.get recordId with
      | none => rfl
      | some other =>
          obtain ⟨inside, key⟩ := (get_eq_some savedOthers).mp there
          obtain ⟨record, mem, same⟩ := found saved facts.symm inside
          exact absurd (same.trans key) (get_eq_none.mp here record mem)
  | some record =>
      obtain ⟨mem, key⟩ := (get_eq_some saved).mp here
      obtain ⟨other, inside, same⟩ := found savedOthers facts mem
      rw [(get_eq_some savedOthers).mpr ⟨inside, same.trans key⟩]
      refine congrArg some (named_eq same.symm fun field => Option.ext fun value => ?_)
      rw [known_of_facts saved mem, known_of_facts savedOthers inside,
        facts, same]

end Rows

section Runs

variable (parse : String → Option Int)

/-- The facts that a call was given. -/
def Call.facts : Call → Set Fact
  | .recordBrowserExpiryClaims deploymentId claims =>
      {fact | ∃ claim ∈ claims, ∃ input noteId expiryClaim,
        claimedNote parse deploymentId claim = some (input, noteId) ∧
        input.stated parse = some expiryClaim ∧
        fact = claimFact deploymentId noteId expiryClaim}
  | call => candidateFacts (call.candidates parse)

def runFacts (all : List Call) : Set Fact :=
  {fact | ∃ call ∈ all, fact ∈ call.facts parse}

/-- Claims are not refused, and every claim finds its row. -/
def Call.Covered (rows : Rows) : Call → Prop
  | .recordBrowserExpiryClaims deploymentId claims =>
      (∃ result, Deposits.recordBrowserExpiryClaims parse deploymentId claims rows = .ok result) ∧
        ∀ claim ∈ claims, ∀ input noteId,
          claimedNote parse deploymentId claim = some (input, noteId) →
            Finds rows deploymentId noteId
  | _ => True

def Covered (rows : Rows) : List Call → Prop
  | [] => True
  | first :: rest => first.Covered parse rows ∧ Covered (call parse rows first) rest

/-- The facts of the candidates of all calls. -/
def mergedFacts (all : List Call) : Set Fact :=
  {fact | ∃ call ∈ all, fact ∈ candidateFacts (call.candidates parse)}

/-- What the rows know after calls with these facts, of which some come from candidates. -/
structure Follows (given merged : Set Fact) (complete : Prop) (before after : Rows) : Prop where
  saved : Saved after
  kept : before.facts ⊆ after.facts
  sound : after.facts ⊆ before.facts ∪ given
  learned : merged ⊆ after.facts
  covered : complete → given ⊆ after.facts

variable {parse}

theorem merging_follows {rows : Rows} (saved : Saved rows) {candidates : List (Option Deposit)}
    (valid : ∀ candidate, some candidate ∈ candidates → candidate.WellFormed)
    (agree : Agree (rows.facts ∪ candidateFacts candidates)) (complete : Prop) :
    Follows (candidateFacts candidates) (candidateFacts candidates) complete rows
      (candidates.foldl mergeDepositRecord (depositRecordMap parse rows, rows)).2 := by
  rw [depositRecordMap_saved saved]
  obtain ⟨kept, facts⟩ := foldl_merge_spec saved valid agree
  exact {
    saved := kept
    kept := facts ▸ Set.subset_union_left
    sound := facts.le
    learned := facts ▸ Set.subset_union_right
    covered := fun _ => facts ▸ Set.subset_union_right }

/-- One call. -/
theorem call_follows {rows : Rows} (saved : Saved rows) {next : Call}
    (agree : Agree (rows.facts ∪ next.facts parse)) :
    Follows (next.facts parse) (candidateFacts (next.candidates parse)) (next.Covered parse rows)
      rows (call parse rows next) := by
  cases next with
  | readBrowserWalletSnapshot runtime records archives =>
      exact merging_follows saved (fun _ mem => candidates_wellFormed mem) agree _
  | writeBrowserWallet current value depositConfirmation =>
      exact merging_follows saved (fun _ mem => candidates_wellFormed mem) agree _
  | sanitizeBrowserWithdrawal current =>
      exact merging_follows saved (fun _ mem => candidates_wellFormed mem) agree _
  | recordBrowserExpiryClaims deploymentId claims =>
      rw [call]
      have empty (rows : Rows) : candidateFacts [] ⊆ rows.facts := by
        rintro fact ⟨candidate, mem, -⟩
        cases mem
      cases run : recordBrowserExpiryClaims parse deploymentId claims rows with
      | error error =>
          exact {
            saved
            kept := subset_rfl
            sound := Set.subset_union_left
            learned := empty rows
            covered := by
              rintro ⟨⟨result, ok⟩, -⟩
              rw [run] at ok
              cases ok }
      | ok result =>
          obtain ⟨after, updates⟩ := result
          obtain ⟨kept, recorded⟩ := recordBrowserExpiryClaims_spec saved run
          exact {
            saved := kept
            kept := recorded.facts ▸ Set.subset_union_left
            sound := by
              refine recorded.facts.le.trans (Set.union_subset_union_right _ ?_)
              rintro fact ⟨claim, mem, input, noteId, expiryClaim, note, stated, -, same⟩
              exact ⟨claim, mem, input, noteId, expiryClaim, note, stated, same⟩
            learned := empty after
            covered := by
              rintro ⟨-, finds⟩ fact ⟨claim, mem, input, noteId, expiryClaim, note, stated, same⟩
              show fact ∈ after.facts
              rw [recorded.facts]
              exact .inr ⟨claim, mem, input, noteId, expiryClaim, note, stated,
                finds claim mem input noteId note, same⟩ }

theorem runFacts_cons (first : Call) (rest : List Call) :
    runFacts parse (first :: rest) = first.facts parse ∪ runFacts parse rest := by
  ext fact
  simp [runFacts]

theorem mergedFacts_cons (first : Call) (rest : List Call) :
    mergedFacts parse (first :: rest) =
      candidateFacts (first.candidates parse) ∪ mergedFacts parse rest := by
  ext fact
  simp [mergedFacts]

/-- A whole run. -/
theorem calls_follows {rows : Rows} (saved : Saved rows) {all : List Call}
    (agree : Agree (rows.facts ∪ runFacts parse all)) :
    Follows (runFacts parse all) (mergedFacts parse all) (Covered parse rows all) rows
      (calls parse rows all) := by
  induction all generalizing rows with
  | nil =>
      have empty : runFacts parse [] = ∅ := by
        ext fact
        simp [runFacts]
      have noneMerged : mergedFacts parse [] = ∅ := by
        ext fact
        simp [mergedFacts]
      rw [empty, noneMerged]
      exact ⟨saved, subset_rfl, Set.subset_union_left, Set.empty_subset _,
        fun _ => Set.empty_subset _⟩
  | cons first all ih =>
      rw [runFacts_cons] at agree ⊢
      rw [mergedFacts_cons]
      have here := call_follows saved (agree.mono
        (Set.union_subset_union_right _ Set.subset_union_left))
      have rest := ih here.saved (agree.mono (Set.union_subset
        (here.sound.trans (Set.union_subset_union_right _ Set.subset_union_left))
        (Set.subset_union_right.trans Set.subset_union_right)))
      exact {
        saved := rest.saved
        kept := here.kept.trans rest.kept
        sound := by
          refine rest.sound.trans ?_
          rw [← Set.union_assoc]
          exact Set.union_subset_union_left _ here.sound
        learned := Set.union_subset (here.learned.trans rest.kept) rest.learned
        covered := fun complete => Set.union_subset
          ((here.covered complete.1).trans rest.kept) (rest.covered complete.2) }

/-- A fact that is no claim comes from a candidate. -/
theorem mem_mergedFacts {all : List Call} {fact : Fact} (given : fact ∈ runFacts parse all)
    (other : fact.field ≠ .expiryClaim) : fact ∈ mergedFacts parse all := by
  obtain ⟨call, mem, inside⟩ := given
  cases call with
  | recordBrowserExpiryClaims deploymentId claims =>
      obtain ⟨claim, -, input, noteId, expiryClaim, -, -, rfl⟩ := inside
      exact absurd rfl other
  | _ => exact ⟨_, mem, inside⟩

/-- Claims that are given again right away add nothing. -/
theorem call_again {rows : Rows} (saved : Saved rows) (deploymentId : String)
    (claims : List (Option ClaimInput)) :
    Saved (call parse (call parse rows (.recordBrowserExpiryClaims deploymentId claims))
        (.recordBrowserExpiryClaims deploymentId claims)) ∧
      (call parse (call parse rows (.recordBrowserExpiryClaims deploymentId claims))
        (.recordBrowserExpiryClaims deploymentId claims)).facts =
      (call parse rows (.recordBrowserExpiryClaims deploymentId claims)).facts := by
  cases first : recordBrowserExpiryClaims parse deploymentId claims rows with
  | error error =>
      have same : call parse rows (.recordBrowserExpiryClaims deploymentId claims) = rows := by
        rw [call, first]
      rw [same, same]
      exact ⟨saved, rfl⟩
  | ok result =>
      obtain ⟨after, updates⟩ := result
      have next : call parse rows (.recordBrowserExpiryClaims deploymentId claims) = after := by
        rw [call, first]
      obtain ⟨kept, recorded⟩ := recordBrowserExpiryClaims_spec saved first
      rw [next]
      cases second : recordBrowserExpiryClaims parse deploymentId claims after with
      | error error =>
          have same : call parse after (.recordBrowserExpiryClaims deploymentId claims) = after := by
            rw [call, second]
          rw [same]
          exact ⟨kept, rfl⟩
      | ok again =>
          obtain ⟨last, others⟩ := again
          have same : call parse after (.recordBrowserExpiryClaims deploymentId claims) = last := by
            rw [call, second]
          obtain ⟨keptLast, repeated⟩ := recordBrowserExpiryClaims_spec kept second
          rw [same]
          refine ⟨keptLast, ?_⟩
          rw [repeated.facts, hitFacts_of_unclaimed recorded.rows]
          exact Set.union_eq_left.mpr (recorded.facts ▸ Set.subset_union_right)

end Runs

section History

variable {parse : String → Option Int}

def Call.isMerge : Call → Bool
  | .recordBrowserExpiryClaims _ _ => false
  | _ => true

theorem facts_of_isMerge {next : Call} (merges : next.isMerge = true) :
    next.facts parse = candidateFacts (next.candidates parse) := by
  cases next with
  | recordBrowserExpiryClaims deploymentId claims => cases merges
  | _ => rfl

theorem calls_append (rows : Rows) (before after : List Call) :
    calls parse rows (before ++ after) = calls parse (calls parse rows before) after :=
  List.foldl_append

/-- A row keeps what it knows. -/
theorem row_kept {before after : Rows} (saved : Saved after) (kept : before.facts ⊆ after.facts)
    {record : Deposit} (mem : record ∈ before) :
    ∃ later ∈ after, later.recordId = record.recordId ∧
      ∀ field value, record.known field = some value → later.known field = some value := by
  have amount : (⟨record.recordId, .amount, .number record.amount⟩ : Fact) ∈ after.facts :=
    kept ⟨record, mem, rfl, rfl⟩
  obtain ⟨later, inside, key, -⟩ := amount
  refine ⟨later, inside, key, fun field value knows => ?_⟩
  rw [known_of_facts saved inside, key]
  exact kept ⟨record, mem, rfl, knows⟩

/-- Calls that merge candidates add nothing when they are repeated. -/
theorem repeat_merge {rows : Rows} (saved : Saved rows) {all : List Call}
    (agree : Agree (rows.facts ∪ runFacts parse all)) {next : Call} (mem : next ∈ all)
    (merges : next.isMerge = true) (recordId : String) :
    (call parse (calls parse rows all) next).known recordId =
      (calls parse rows all).known recordId := by
  have run := calls_follows saved agree
  have given : next.facts parse ⊆ (calls parse rows all).facts := by
    rw [facts_of_isMerge merges]
    exact fun fact inside => run.learned ⟨next, mem, inside⟩
  have again := @call_follows parse _ run.saved next
    (agree.mono ((Set.union_subset subset_rfl given).trans run.sound))
  exact known_eq_of_facts again.saved run.saved
    ((again.sound.trans (Set.union_subset subset_rfl given)).antisymm again.kept) recordId

/-- The same calls in two orders give the same facts, as far as they are no claims. -/
theorem order_facts {rows : Rows} (saved : Saved rows) {all other : List Call}
    (agree : Agree (rows.facts ∪ runFacts parse all)) (same : ∀ next, next ∈ other ↔ next ∈ all)
    {fact : Fact} (field : fact.field ≠ .expiryClaim) (known : fact ∈ (calls parse rows all).facts) :
    fact ∈ (calls parse rows other).facts := by
  have sets : runFacts parse other = runFacts parse all := by
    ext fact
    simp [runFacts, same]
  have run := calls_follows saved agree
  have others := calls_follows saved (sets ▸ agree)
  rcases run.sound known with before | given
  · exact others.kept before
  · exact others.learned (mem_mergedFacts (sets ▸ given) field)

/-- The history after any calls whose facts agree.  A row keeps what it knows, repeated evidence
changes nothing, and the order of the calls only matters for claims that are given before their
row is saved with an expiry.  Of a list of claims all are recorded, or none because one of them is
refused. -/
theorem history_exact {rows : Rows} (saved : Saved rows) {all : List Call}
    (agree : Agree (rows.facts ∪ runFacts parse all)) :
    (∀ before after, all = before ++ after → ∀ record ∈ calls parse rows before,
      ∃ later ∈ calls parse rows all, later.recordId = record.recordId ∧
        ∀ field value, record.known field = some value → later.known field = some value) ∧
    (∀ next ∈ all, next.isMerge = true ∨ all.getLast? = some next → ∀ recordId,
      (call parse (calls parse rows all) next).known recordId =
        (calls parse rows all).known recordId) ∧
    (∀ other, (∀ next, next ∈ other ↔ next ∈ all) →
      (∀ fact : Fact, fact.field ≠ .expiryClaim →
        (fact ∈ (calls parse rows other).facts ↔ fact ∈ (calls parse rows all).facts)) ∧
      (Covered parse rows all → Covered parse rows other → ∀ recordId,
        (calls parse rows other).known recordId = (calls parse rows all).known recordId)) ∧
    ∀ deploymentId claims,
      match recordBrowserExpiryClaims parse deploymentId claims (calls parse rows all) with
      | .error _ =>
          call parse (calls parse rows all) (.recordBrowserExpiryClaims deploymentId claims) =
            calls parse rows all ∧
          Refused parse deploymentId claims (calls parse rows all)
      | .ok (after, _) =>
          call parse (calls parse rows all) (.recordBrowserExpiryClaims deploymentId claims) =
            after ∧
          Recorded parse deploymentId claims (calls parse rows all) after := by
  have run := calls_follows saved agree
  refine ⟨?_, ?_, ?_, ?_⟩
  · rintro before after rfl record mem
    have facts : runFacts parse (before ++ after) = runFacts parse before ∪ runFacts parse after := by
      ext fact
      simp [runFacts, or_and_right, exists_or]
    rw [facts, ← Set.union_assoc] at agree
    have first := calls_follows saved (agree.mono Set.subset_union_left)
    have rest := calls_follows first.saved (agree.mono
      (Set.union_subset_union_left _ first.sound))
    rw [← calls_append] at rest
    exact row_kept run.saved rest.kept mem
  · intro next mem which recordId
    rcases Bool.eq_false_or_eq_true next.isMerge with merges | claims
    · exact repeat_merge saved agree mem merges recordId
    · have last : all.getLast? = some next := which.resolve_left (by simp [claims])
      obtain ⟨before, rfl⟩ := List.getLast?_eq_some_iff.mp last
      have inner : runFacts parse before ⊆ runFacts parse (before ++ [next]) := by
        rintro fact ⟨one, inside, given⟩
        exact ⟨one, List.mem_append_left [next] inside, given⟩
      have earlier := calls_follows saved (agree.mono (Set.union_subset_union_right _ inner))
      rw [calls_append]
      cases next with
      | recordBrowserExpiryClaims deploymentId list =>
          obtain ⟨kept, facts⟩ := @call_again parse _ earlier.saved deploymentId list
          rw [calls_append] at run
          exact known_eq_of_facts kept run.saved facts recordId
      | _ => cases claims
  · intro other same
    have sets : runFacts parse other = runFacts parse all := by
      ext fact
      simp [runFacts, same]
    have agreeOther : Agree (rows.facts ∪ runFacts parse other) := sets ▸ agree
    refine ⟨fun fact field => ⟨?_, ?_⟩, fun covered coveredOther recordId => ?_⟩
    · exact order_facts saved agreeOther (fun next => (same next).symm) field
    · exact order_facts saved agree same field
    · have others := calls_follows saved agreeOther
      have all' := Set.union_subset run.kept (run.covered covered)
      have other' := Set.union_subset others.kept (others.covered coveredOther)
      rw [sets] at other'
      exact known_eq_of_facts others.saved run.saved
        ((sets ▸ others.sound).trans all' |>.antisymm (run.sound.trans other')) recordId
  · intro deploymentId claims
    split
    · next error refused =>
        refine ⟨?_, recordBrowserExpiryClaims_refused run.saved refused⟩
        rw [call, refused]
    · next after updates ok =>
        refine ⟨?_, (recordBrowserExpiryClaims_spec run.saved ok).2⟩
        rw [call, ok]

/-- The state of a note with its expiry. -/
def sampleDeposit : Call :=
  .sanitizeBrowserWithdrawal
    ⟨some ⟨ofNumber (some 7), ofNumber (some 2000000), ofNumber (some 1000)⟩, some "vault"⟩

def sampleHash : String :=
  "0x1111111111111111111111111111111111111111111111111111111111111111"

/-- The claim of the note after its expiry. -/
def sampleClaims : Call :=
  .recordBrowserExpiryClaims "vault" [some {
    deploymentId := .undefined
    noteId := ofNumber (some 7)
    amount := ofNumber (some 2000000)
    transactionHash := .text sampleHash
    blockHash := .text sampleHash
    blockNumber := ofNumber (some 5)
    claimedAt := ofNumber (some 1000000) }]

def sampleRow : Deposit where
  deploymentId := "vault"
  operationId := none
  noteId := 7
  amount := 2000000
  expiryTs := some 1000
  createdAt := none
  confirmedAt := none
  transactionHash := none
  expiryClaim := some ⟨sampleHash, sampleHash, 5, 1000000, 2000000⟩

theorem sample_rows :
    calls (fun _ => none) [] [sampleDeposit, sampleClaims] = [sampleRow] ∧
      calls (fun _ => none) [] [sampleClaims, sampleDeposit] = [sampleRow.unclaimed] := by
  decide

theorem sample_agree :
    Agree (Rows.facts [] ∪ runFacts (fun _ => none) [sampleDeposit, sampleClaims]) := by
  have built : depositRecord (fun _ => none) (some sampleRow.state) (some sampleRow.deploymentId)
      sampleRow.metadata = some sampleRow := by decide
  have saved : Saved [sampleRow] := {
    wellFormed := fun record mem => by
      rw [List.mem_singleton.mp mem]
      exact depositRecord_wellFormed built
    nodup := List.nodup_singleton _ }
  have whole : sampleRow.facts = sampleRow.unclaimed.facts ∪
      {claimFact "vault" 7 ⟨sampleHash, sampleHash, 5, 1000000, 2000000⟩} :=
    @claimed_facts sampleRow.unclaimed _ "vault" 7 rfl (.inl rfl)
  have inside : sampleRow.facts ⊆ Rows.facts [sampleRow] :=
    fun fact knows => ⟨sampleRow, List.mem_cons_self, knows⟩
  refine (agree_of_saved saved).mono (Set.union_subset ?_ (subset_trans ?_ inside))
  · rintro fact ⟨record, mem, -⟩
    cases mem
  · rw [whole]
    rintro fact ⟨next, mem, given⟩
    rcases List.mem_pair.mp mem with rfl | rfl
    · have candidates : sampleDeposit.candidates (fun _ => none) = [some sampleRow.unclaimed] := by
        decide
      obtain ⟨candidate, isCandidate, knows⟩ := given
      rw [candidates] at isCandidate
      cases List.mem_singleton.mp isCandidate
      exact .inl knows
    · obtain ⟨claim, isClaim, input, noteId, expiryClaim, note, stated, rfl⟩ := given
      cases List.mem_singleton.mp isClaim
      cases note
      cases stated
      exact .inr rfl

/-- A deposit keeps what it knows when its claim is recorded. -/
theorem history_exact_sample :
    ∃ later ∈ calls (fun _ => none) [] [sampleDeposit, sampleClaims],
      later.recordId = sampleRow.unclaimed.recordId ∧
        ∀ field value, sampleRow.unclaimed.known field = some value →
          later.known field = some value :=
  (history_exact ⟨fun _ mem => (List.not_mem_nil mem).elim, List.nodup_nil⟩ sample_agree).1
    [sampleDeposit] [sampleClaims] rfl sampleRow.unclaimed (by decide)

/-- A claim that is given before its deposit is saved is not recorded. -/
theorem claim_before_deposit_skipped :
    Agree (Rows.facts [] ∪ runFacts (fun _ => none) [sampleDeposit, sampleClaims]) ∧
      [sampleClaims, sampleDeposit].Perm [sampleDeposit, sampleClaims] ∧
      (calls (fun _ => none) [] [sampleClaims, sampleDeposit]).known "vault:deposit:7" ≠
        (calls (fun _ => none) [] [sampleDeposit, sampleClaims]).known "vault:deposit:7" := by
  refine ⟨sample_agree, .swap _ _ _, ?_⟩
  rw [sample_rows.1, sample_rows.2]
  decide

end History

end ZkApi.Browser.Deposits
