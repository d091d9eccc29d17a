import ZkApi.LateReports
import ZkApi.LateTransferClaims

/-!
# Runs with late hashes

A journaled claim stays accepted as long as no list drops it, no sync resolves it before a
retry archives it, no transfer writes over it, and no archive is made of it without its
sender and its nonce.
-/

namespace ZkApi.Browser.Background

open Expiry Escape Indexer

section Readings

theorem known_savedNonce (nonce : Option Nat) : (savedNonce nonce).known = nonce := by
  cases nonce <;> rfl

/-- A transfer reads an attempt as it was written. -/
theorem attemptOf_entry (attempt : StartAttempt) : attemptOf attempt.entry = attempt := by
  rw [attemptOf, StartAttempt.entry, known_savedNonce]

variable {merge : Merge} {record : Record}

theorem late_source (merge : Merge) (record : Record) :
    LateTransfers.preparedSource merge.reads (some record.late) =
      (merge.source record).map Plan.late := by
  rw [Merge.source, LateTransfers.preparedSource, Merge.reads, Option.bind_some, Record.late]
  cases record.hasPlan <;> rfl

/-- The plan that the record goes on with is its own, or the selected one. -/
theorem source_cases {source : Plan} (found : merge.source record = some source) :
    (record.hasPlan = true ∧ source = record.preparedWithdrawal) ∨
      merge.selected = some source := by
  rw [Merge.source] at found
  split at found
  case isTrue has => exact .inl ⟨has, (Option.some.inj found).symm⟩
  case isFalse => exact .inr found

end Readings

section Transfers

variable {merge : Merge} {record next : Record} {attempt : LateTransfers.LateAttempt}
  {returned : List Submission} {journal : List JournaledClaim}

/-- The prompts of the runtime are no first prompts of the record. -/
def Merge.Foreign (merge : Merge) (returned : List Submission) : Prop :=
  ∀ submissionId ∈ merge.prompts, ∀ submission ∈ returned,
    submissionId ≠ some submission.submissionId

theorem transfer_made
    (made : transferBrowserLateWithdrawalAttempt merge record = .ok next) :
    (merge.attempt? record = none ∧ next = record) ∨ ∃ attempt,
      merge.attempt? record = some attempt ∧
      attempt ∈ merge.runtime.lateWithdrawalAttempts ∧
      next = merge.durableRecord record attempt := by
  rw [transferBrowserLateWithdrawalAttempt] at made
  split at made
  · cases made
  · cases found : merge.attempt? record with
    | none =>
      rw [found] at made
      cases made
      exact .inl ⟨rfl, rfl⟩
    | some attempt =>
      have taken := found
      rw [found] at made
      cases made
      rw [Merge.attempt?] at taken
      split at taken
      · exact .inr ⟨attempt, rfl, List.mem_of_find?_eq_some taken, rfl⟩
      · cases taken

/-- What a transfer writes of the plan: the attempts of the source, and its own one. -/
structure Merge.Plans (merge : Merge) (record : Record) (attempt : LateTransfers.LateAttempt)
    (source next : Plan) : Prop where
  slots : next.submissionId = none ∨ merge.migrates record attempt = false ∧
    next.submissionId = source.submissionId
  attempts : ∀ entry ∈ next.transactionAttempts, entry ∈ source.transactionAttempts ∨
    entry.claim.submissionId = attempt.submissionId

theorem submitted_attempts {source : Plan} {entry : LateTransfers.Entry} {hash : String}
    (mem : entry ∈ (source.late.submitted hash attempt).transactionAttempts) :
    attemptOf entry ∈ source.transactionAttempts ∨
      (attemptOf entry).claim.submissionId = attempt.submissionId := by
  rw [LateTransfers.Plan.submitted, List.mem_append, List.mem_singleton] at mem
  rcases mem with old | rfl
  · obtain ⟨kept, held, rfl⟩ := List.mem_map.mp (List.mem_of_mem_filter old)
    rw [attemptOf_entry]
    exact .inl held
  · exact .inr rfl

/-- The plan of a transfer as `LateTransfers` makes it, for the plan that the record goes on
with. -/
theorem transfer_plan (attempt : LateTransfers.LateAttempt) {source : Plan}
    (found : merge.source record = some source) :
    ∃ plan, (merge.made record attempt).preparedWithdrawal = some plan ∧
      (plan.submissionId = none ∨ merge.migrates record attempt = false ∧
        plan.submissionId = source.submissionId) ∧
      ∀ entry ∈ plan.transactionAttempts, attemptOf entry ∈ source.transactionAttempts ∨
        (attemptOf entry).claim.submissionId = attempt.submissionId := by
  have old : ∀ entry ∈ source.late.transactionAttempts,
      attemptOf entry ∈ source.transactionAttempts ∨
        (attemptOf entry).claim.submissionId = attempt.submissionId := by
    intro entry mem
    obtain ⟨kept, held, rfl⟩ := List.mem_map.mp mem
    rw [attemptOf_entry]
    exact .inl held
  rw [Merge.made, LateTransfers.durableRecord_lists.2.2, LateTransfers.Transfer.plan,
    LateTransfers.Transfer.submittedPlan, late_source, found]
  simp only [Option.map_some]
  refine ⟨_, rfl, ?_⟩
  split
  case isTrue migrates =>
    refine ⟨.inl rfl, ?_⟩
    intro entry mem
    rw [LateTransfers.Plan.withoutClaim] at mem
    dsimp only at mem
    split at mem
    · exact submitted_attempts mem
    · exact old entry mem
  case isFalse stays =>
    split
    · exact ⟨.inl rfl, fun entry mem => submitted_attempts mem⟩
    · exact ⟨.inr ⟨Bool.eq_false_of_not_eq_true stays, rfl⟩, old⟩

theorem transfer_plans {source : Plan} (found : merge.source record = some source) :
    merge.Plans record attempt source (merge.plan record attempt source) := by
  obtain ⟨plan, made, slots, attempts⟩ :=
    transfer_plan attempt found
  have kept : ∀ entry ∈ plan.transactionAttempts.map attemptOf,
      entry ∈ source.transactionAttempts ∨ entry.claim.submissionId = attempt.submissionId := by
    intro entry mem
    obtain ⟨late, held, rfl⟩ := List.mem_map.mp mem
    exact attempts late held
  rw [Merge.plan, made]
  dsimp only
  split
  · exact ⟨slots, kept⟩
  split
  · exact ⟨slots, kept⟩
  · exact ⟨slots, kept⟩

/-- The prompts of the plan that the record goes on with. -/
theorem source_claims {source : Plan} (found : merge.source record = some source)
    {entry : StartAttempt} (mem : entry ∈ source.transactionAttempts) :
    entry.claim ∈ record.listedClaims ∨ entry.claim.submissionId ∈ merge.prompts := by
  rcases source_cases found with ⟨-, rfl⟩ | selected
  · exact .inl (List.mem_append_right _ (List.mem_map_of_mem mem))
  · right
    rw [Merge.prompts, selected, Option.map_some, Option.getD_some, List.mem_append]
    exact .inr (List.mem_cons_of_mem _ (List.mem_map_of_mem mem))

theorem late_prompt (mem : attempt ∈ merge.runtime.lateWithdrawalAttempts) :
    attempt.submissionId ∈ merge.prompts := by
  rw [Merge.prompts, List.mem_append]
  exact .inl (List.mem_map_of_mem mem)

theorem related_prompt (mem : attempt ∈ merge.runtime.lateWithdrawalAttempts)
    {other : LateTransfers.LateAttempt}
    (related : other ∈ merge.transfer.related merge.reads (some record.late) attempt) :
    other.submissionId ∈ merge.prompts := by
  apply late_prompt
  rw [LateTransfers.Transfer.related] at related
  split at related
  · exact List.mem_of_mem_filter related
  · exact List.mem_singleton.mp related ▸ mem

/-- The claim of an attempt after a transfer was one of the record or of the runtime. -/
theorem transfer_entries (mem : attempt ∈ merge.runtime.lateWithdrawalAttempts)
    {entry : StartAttempt} (made : entry ∈ merge.entries record attempt) :
    entry.claim ∈ record.listedClaims ∨ entry.claim.submissionId ∈ merge.prompts := by
  obtain ⟨now, merged, rfl⟩ := List.mem_map.mp made
  rw [Merge.made, LateTransfers.durableRecord_lists.2.1, LateTransfers.mem_mergeEntries] at merged
  obtain ⟨last, found, rfl⟩ := merged
  have held := List.mem_of_mem_filter (List.mem_of_getLast? found)
  -- the hash is spelled anew, the claim stays
  show (attemptOf last).claim ∈ _ ∨ (attemptOf last).claim.submissionId ∈ _
  rw [List.mem_append, List.mem_append] at held
  rcases held with (old | planned) | related
  · obtain ⟨kept, held, rfl⟩ := List.mem_map.mp old
    rw [attemptOf_entry]
    exact .inl (List.mem_append_left _ (List.mem_append_right _ (List.mem_map_of_mem held)))
  · rw [LateTransfers.Transfer.planned] at planned
    split at planned
    case isFalse => cases planned
    cases found : merge.source record with
    | none =>
      rw [LateTransfers.Transfer.plan, LateTransfers.Transfer.submittedPlan, late_source,
        found] at planned
      cases planned
    | some source =>
      obtain ⟨plan, made, -, attempts⟩ := transfer_plan attempt found
      rw [Merge.made, LateTransfers.durableRecord_lists.2.2] at made
      rw [made, Option.map_some, Option.getD_some] at planned
      rcases attempts last planned with old | own
      · exact source_claims found old
      · exact .inr (own ▸ late_prompt mem)
  · obtain ⟨other, held, rfl⟩ := List.mem_map.mp related
    exact .inr (related_prompt mem held)

/-- The attempts of the plan after a transfer. -/
theorem transfer_planned (mem : attempt ∈ merge.runtime.lateWithdrawalAttempts)
    {entry : StartAttempt}
    (made : entry ∈ (merge.durableRecord record attempt).preparedWithdrawal.transactionAttempts) :
    entry.claim ∈ record.listedClaims ∨ entry.claim.submissionId ∈ merge.prompts := by
  rw [Merge.durableRecord] at made
  cases found : merge.source record with
  | none =>
    simp only [found, Option.map_none, Option.getD_none] at made
    exact .inl (List.mem_append_right _ (List.mem_map_of_mem made))
  | some source =>
    simp only [found, Option.map_some, Option.getD_some] at made
    rcases (transfer_plans found).attempts entry made with old | own
    · exact source_claims found old
    · exact .inr (own ▸ late_prompt mem)

theorem source_prompt {source : Plan} (selected : merge.selected = some source) :
    source.submissionId ∈ merge.prompts := by
  rw [Merge.prompts, selected, Option.map_some, Option.getD_some, List.mem_append]
  exact .inr List.mem_cons_self

/-- A first prompt that is live in the plan after a transfer was live in that of the record. -/
theorem transfer_planId (foreign : merge.Foreign returned)
    (planned : record.preparedWithdrawal.submissionId.isSome = true → record.hasPlan = true)
    {submission : Submission} (mem : submission ∈ returned)
    (live : (merge.durableRecord record attempt).preparedWithdrawal.submissionId =
      some submission.submissionId) : merge.migrates record attempt = false ∧
    record.preparedWithdrawal.submissionId = some submission.submissionId := by
  rw [Merge.durableRecord] at live
  cases found : merge.source record with
  | none =>
    simp only [found, Option.map_none, Option.getD_none] at live
    rw [Merge.source, if_pos (planned (by rw [live]; rfl))] at found
    cases found
  | some source =>
    simp only [found, Option.map_some, Option.getD_some] at live
    rcases (transfer_plans found).slots with gone | ⟨stays, same⟩
    · rw [gone] at live
      cases live
    · rw [same] at live
      rcases source_cases found with ⟨-, rfl⟩ | selected
      · exact ⟨stays, live⟩
      · exact absurd live (foreign _ (source_prompt selected) submission mem)

/-- A first prompt that is live in the record after a transfer was live before. -/
theorem transfer_startId (foreign : merge.Foreign returned)
    {submission : Submission} (mem : submission ∈ returned)
    (live : (merge.durableRecord record attempt).startSubmissionId =
      some submission.submissionId) : record.Names submission.submissionId := by
  rw [Merge.durableRecord, Merge.made, LateTransfers.Transfer.durableRecord,
    LateTransfers.Transfer.claimed] at live
  dsimp only at live
  split at live
  · cases live
  · rcases Option.or_eq_some_iff.mp live with plan | ⟨-, old⟩
    · right
      obtain ⟨after, planned, named⟩ := Option.bind_eq_some_iff.mp plan
      rw [LateTransfers.Transfer.planned] at planned
      split at planned
      case isFalse => cases planned
      cases found : merge.source record with
      | none =>
        rw [LateTransfers.Transfer.plan, LateTransfers.Transfer.submittedPlan, late_source,
          found] at planned
        cases planned
      | some source =>
        obtain ⟨plan, made, slots, -⟩ := transfer_plan attempt found
        rw [Merge.made, LateTransfers.durableRecord_lists.2.2, planned] at made
        obtain rfl := Option.some.inj made
        rcases slots with gone | ⟨-, same⟩
        · rw [gone] at named
          cases named
        · rw [same] at named
          rcases source_cases found with ⟨-, rfl⟩ | selected
          · exact named
          · exact absurd named (foreign _ (source_prompt selected) submission mem)
    · exact .inl old

/-- A journaled claim that is live is carried through a transfer of another prompt. -/
theorem transfer_carries {claim : JournaledClaim} (carries : record.Carries claim)
    (hasPlan : record.hasPlan = true) (digits : hasDigits 40 claim.sender = true)
    (other : attempt.submissionId ≠ some claim.submission.submissionId) :
    (merge.durableRecord record attempt).Carries claim := by
  have resolves : merge.resolves record attempt = false := by
    rw [Merge.resolves, LateTransfers.resolvesStartClaim, Option.getD_some]
    have different : ((some claim.submission.submissionId : Option String) ==
        attempt.submissionId) = false := by
      simpa using fun same => other same.symm
    simp only [Record.late, carries.id, different, Bool.and_false, Bool.false_and]
  have found : merge.source record = some record.preparedWithdrawal := by
    rw [Merge.source, if_pos hasPlan]
  have source := late_source merge record
  rw [found, Option.map_some] at source
  have submitted : merge.transfer.submittedPlan merge.reads (some record.late) attempt =
      some record.preparedWithdrawal.late := by
    rw [Merge.resolves] at resolves
    rw [LateTransfers.Transfer.submittedPlan, source, resolves]
    rfl
  have migrates : merge.migrates record attempt = false := by
    have ready : record.preparedWithdrawal.late.isBeforeNonce = false := by
      simp [LateTransfers.Plan.isBeforeNonce, Plan.late, carries.planFrom, carries.planNonce,
        digits, savedNonce, LateTransfers.SavedNonce.coerced, LateTransfers.SavedNonce.known]
    rw [Merge.migrates, LateTransfers.Transfer.migrates, submitted, Option.any_some, ready,
      Bool.and_false]
  have kept : merge.transfer.plan merge.reads (some record.late) attempt =
      some record.preparedWithdrawal.late := by
    rw [Merge.migrates] at migrates
    rw [LateTransfers.Transfer.plan, submitted, migrates]
    rfl
  have plan : (merge.durableRecord record attempt).preparedWithdrawal =
      merge.plan record attempt record.preparedWithdrawal := by
    rw [Merge.durableRecord]
    simp only [found, Option.map_some, Option.getD_some]
  have slots : (merge.durableRecord record attempt).preparedWithdrawal.submissionId =
        some claim.submission.submissionId ∧
      (merge.durableRecord record attempt).preparedWithdrawal.operationId =
        claim.submission.operationId ∧
      (merge.durableRecord record attempt).preparedWithdrawal.submissionFrom =
        some claim.sender ∧
      (merge.durableRecord record attempt).preparedWithdrawal.submissionNonce =
        some claim.nonce := by
    rw [plan, Merge.plan, Merge.made, LateTransfers.durableRecord_lists.2.2, kept]
    simp only [migrates, resolves, Bool.false_and, Bool.false_eq_true, if_false, Plan.late,
      known_savedNonce]
    exact ⟨carries.planId, carries.planOperation, carries.planFrom, carries.planNonce⟩
  -- the record takes the claim from its plan, which has the same one, or keeps its own
  have live : (merge.durableRecord record attempt).startSubmissionId =
        some claim.submission.submissionId ∧
      (merge.durableRecord record attempt).startOperationId = claim.submission.operationId ∧
      (merge.durableRecord record attempt).startSubmissionFrom = some claim.sender ∧
      (merge.durableRecord record attempt).startSubmissionNonce = some claim.nonce := by
    have planned : merge.transfer.planned merge.reads (some record.late) attempt = none ∨
        merge.transfer.planned merge.reads (some record.late) attempt =
          some record.preparedWithdrawal.late := by
      rw [LateTransfers.Transfer.planned, kept]
      split
      · exact .inr rfl
      · exact .inl rfl
    rw [Merge.resolves] at resolves
    rw [Merge.durableRecord, Merge.made, LateTransfers.Transfer.durableRecord,
      LateTransfers.Transfer.claimed, resolves]
    rcases planned with none | own
    · simp only [none]
      simp [Record.late, carries.id, carries.operation, carries.sender, carries.nonce,
        savedNonce, LateTransfers.SavedNonce.orElse, LateTransfers.SavedNonce.known]
    · simp only [own]
      simp [Plan.late, Record.late, carries.planId, carries.planOperation,
        carries.planFrom, carries.planNonce, carries.operation, savedNonce,
        LateTransfers.SavedNonce.orElse, LateTransfers.SavedNonce.known]
  exact ⟨live.1, live.2.1, live.2.2.1, live.2.2.2, slots.1, slots.2.1, slots.2.2.1, slots.2.2.2⟩

/-- What a transfer writes down: claims of the runtime, and the claim that it puts away. -/
theorem transfer_listed (mem : attempt ∈ merge.runtime.lateWithdrawalAttempts)
    {past : PastClaim} (listed : past ∈ (merge.durableRecord record attempt).listedClaims) :
    past ∈ record.listedClaims ∨ past.submissionId ∈ merge.prompts ∨
      (merge.migrates record attempt = true ∧ past.sender = none ∧ past.nonce = none) := by
  rw [Record.listedClaims, List.mem_append] at listed
  rcases listed with prior | planned
  · simp only [Record.priorClaims, List.mem_append] at prior
    rcases prior with ((dismissed | superseded) | ambiguous) | entry
    · rw [Merge.durableRecord] at dismissed
      dsimp only at dismissed
      split at dismissed
      case isTrue migrates =>
        rcases List.mem_append.mp (List.mem_of_mem_drop dismissed) with old | new
        · left
          simp only [Record.listedClaims, Record.priorClaims, List.mem_append]
          exact .inl (.inl (.inl (.inl old)))
        · obtain ⟨source, -, rfl⟩ := Option.map_eq_some_iff.mp (Option.mem_toList.mp new)
          exact .inr (.inr ⟨migrates, rfl, rfl⟩)
      case isFalse =>
        left
        simp only [Record.listedClaims, Record.priorClaims, List.mem_append]
        exact .inl (.inl (.inl (.inl dismissed)))
    · left
      simp only [Record.listedClaims, Record.priorClaims, List.mem_append]
      exact .inl (.inl (.inl (.inr superseded)))
    · left
      simp only [Record.listedClaims, Record.priorClaims, List.mem_append]
      exact .inl (.inl (.inr ambiguous))
    · obtain ⟨attempt', held, rfl⟩ := List.mem_map.mp entry
      exact (transfer_entries mem held).imp_right .inl
  · obtain ⟨attempt', held, rfl⟩ := List.mem_map.mp planned
    exact (transfer_planned mem held).imp_right .inl

theorem transfer_holds (attempt : LateTransfers.LateAttempt) {submission : Submission}
    (found : merge.attempt? record = some attempt)
    (kept : (record.trimmed (.merges merge)).holds submission = true)
    (active : record.isActive submission = true →
      (merge.durableRecord record attempt).isActive submission = true) :
    (merge.durableRecord record attempt).holds submission = true := by
  simp only [Record.trimmed, found] at kept
  apply Record.holds_of kept
  · intro live
    exact Record.holds_iff.mpr (.inl (active live))
  · intro past mem
    simp only [Record.priorClaims, Record.archivedClaims, List.mem_append,
      Merge.durableRecord] at mem ⊢
    rcases mem with (((dismissed | superseded) | ambiguous) | entry) | archived
    · refine .inl (.inl (.inl (.inl ?_)))
      split at dismissed
      case isTrue migrates =>
        rw [if_pos migrates]
        cases (merge.source record).map fun plan : Plan =>
            (⟨plan.submissionId, plan.operationId, none, none⟩ : PastClaim) with
        | none =>
          rw [Option.toList_none, List.append_nil, lastEight]
          exact (List.drop_sublist_drop_left _ (by omega)).subset dismissed
        | some pushed =>
          rw [Option.toList_some, lastEight_append]
          exact List.mem_append_left _ dismissed
      case isFalse stays =>
        rw [if_neg stays]
        exact dismissed
    · exact .inl (.inl (.inl (.inr superseded)))
    · exact .inl (.inl (.inr ambiguous))
    · exact .inl (.inr entry)
    · exact .inr archived

/-- A transfer of another prompt keeps what is saved of the claims. -/
theorem merge_sound (sound : record.Sound returned journal)
    (digits : ∀ claim ∈ journal, hasDigits 40 claim.sender = true)
    (known : ∀ claim ∈ journal, claim.submission ∈ returned)
    (foreign : merge.Foreign returned)
    (kept : ∀ claim ∈ journal, (record.trimmed (.merges merge)).holds claim.submission = true)
    (made : transferBrowserLateWithdrawalAttempt merge record = .ok next) :
    next.Sound returned journal := by
  rcases transfer_made made with ⟨-, rfl⟩ | ⟨attempt, found, mem, rfl⟩
  · exact sound
  have other : ∀ submission ∈ returned, attempt.submissionId ≠ some submission.submissionId :=
    foreign _ (late_prompt mem)
  let pushed := (merge.durableRecord record attempt).listedClaims.filter fun past =>
    past ∉ record.listedClaims
  have pushes : ∀ past ∈ pushed, past.submissionId ∈ merge.prompts ∨
      (merge.migrates record attempt = true ∧ past.sender = none ∧ past.nonce = none) := by
    intro past mem'
    obtain ⟨listed, new⟩ := List.mem_filter.mp mem'
    exact (transfer_listed mem listed).resolve_left (of_decide_eq_true new)
  have writes : record.Writes (merge.durableRecord record attempt) pushed [] := by
    refine ⟨fun past listed => ?_, (List.append_nil _).symm⟩
    by_cases old : past ∈ record.listedClaims
    · exact .inl old
    · exact .inr (List.mem_filter.mpr ⟨listed, decide_eq_true old⟩)
  have carries : ∀ claim ∈ journal, record.Names claim.submission.submissionId →
      (merge.durableRecord record attempt).Carries claim := by
    intro claim mem' named
    have carried := (sound.fits claim mem').live named
    have hasPlan := sound.planned (by rw [carried.planId]; rfl)
    exact transfer_carries carried hasPlan (digits claim mem') (other _ (known claim mem'))
  refine ⟨fun live => ?_, fun submission mem' => ?_, fun claim mem' => ?_⟩
  · rw [Merge.durableRecord] at live ⊢
    cases source : merge.source record with
    | some plan => rfl
    | none =>
      simp only [source, Option.map_none, Option.getD_none] at live
      rw [Merge.source, if_pos (sound.planned live)] at source
      cases source
  · apply writes.apart (sound.apart submission mem')
    intro live
    obtain ⟨stays, before⟩ := transfer_planId foreign sound.planned mem' live
    refine ⟨before, fun past new => ?_⟩
    rw [List.append_nil] at new
    rcases pushes past new with prompt | ⟨migrates, -⟩
    · exact foreign _ prompt submission mem'
    · rw [stays] at migrates
      cases migrates
  · apply writes.fits (sound.fits claim mem') _ _ (.none record claim)
    · apply transfer_holds attempt found (kept claim mem')
      intro active
      have carried := carries claim mem' (.inl (Record.isActive_iff.mp active).1)
      exact Record.isActive_iff.mpr ⟨carried.id, carried.operation⟩
    · intro named
      have before : record.Names claim.submission.submissionId := by
        rcases named with start | plan
        · exact transfer_startId foreign (known claim mem') start
        · exact .inr (transfer_planId foreign sound.planned (known claim mem') plan).2
      exact ⟨before, fun _ => carries claim mem' before⟩
    · intro past new named
      rcases pushes past new with prompt | ⟨-, sender, nonce⟩
      · exact absurd (PastClaim.isOf_iff.mp named).1
          (foreign _ prompt claim.submission (known claim mem'))
      · rw [PastClaim.fits, sender, nonce]
        rfl

end Transfers

namespace Ledger

section Steps

variable {ledger later : Ledger}

theorem Valid.commit (valid : ledger.Valid) {made : Except String Record}
    (kept : ∀ record, made = .ok record → record.Sound ledger.returned ledger.journal) :
    (ledger.commit made).Valid := by
  cases made with
  | error message => exact valid
  | ok record => exact ⟨kept record rfl, valid.operations, valid.known, valid.digits⟩

theorem hasReturned_of_mem {submission : Submission} (mem : submission ∈ ledger.returned) :
    ledger.hasReturned (some submission.submissionId) = true :=
  List.any_eq_true.mpr ⟨submission, mem, beq_self_eq_true _⟩

/-- An identifier that is drawn for a claim is nowhere yet. -/
theorem isFresh_apart {submissionId : String} (fresh : ledger.isFresh submissionId = true) :
    (∀ submission ∈ ledger.returned, submissionId ≠ submission.submissionId) ∧
      ∀ past ∈ ledger.record.listedClaims ++ ledger.record.archivedClaims,
        past.submissionId ≠ some submissionId := by
  rw [isFresh, Bool.and_eq_true, Bool.and_eq_true, Bool.not_eq_true', List.all_eq_true] at fresh
  refine ⟨fun submission mem same => ?_, fun past mem => bne_iff_ne.mp (fresh.2 past mem)⟩
  rw [same, hasReturned_of_mem mem] at fresh
  cases fresh.1.1

theorem isForeign_apart {merge : Merge} (foreign : ledger.isForeign merge = true) :
    merge.Foreign ledger.returned := by
  intro submissionId prompt submission mem same
  have none := List.all_eq_true.mp foreign submissionId prompt
  rw [same, hasReturned_of_mem mem] at none
  cases none

/-- What the condition says of one journaled claim. -/
theorem spares_claim {event : Event} (spares : ledger.spares event = true)
    {claim : JournaledClaim} (mem : claim ∈ ledger.journal) :
    (event.reporting = some claim.submission ∨
      (ledger.record.trimmed event).holds claim.submission = true) ∧
    ledger.record.Archives event claim := by
  have both := List.all_eq_true.mp spares claim mem
  rw [Bool.and_eq_true, Bool.or_eq_true, Bool.or_eq_true, beq_iff_eq] at both
  refine ⟨both.1, fun archive made => ?_⟩
  rcases both.2 with known | complete
  · exact .inl known
  · refine .inr fun past found => ?_
    rw [made, Option.all_some, found, Option.all_some] at complete
    exact complete

/-- The journal has a claim more if it was given out as a first prompt. -/
theorem mem_journaling {claim new : JournaledClaim} (mem : claim ∈ ledger.journaling new) :
    (claim = new ∧ new.submission ∈ ledger.returned) ∨ claim ∈ ledger.journal := by
  rw [journaling] at mem
  split at mem
  case isTrue known =>
    rcases List.mem_cons.mp mem with rfl | mem
    · exact .inl ⟨rfl, known⟩
    · exact .inr mem
  · exact .inr mem

/-- A first prompt is given out. -/
theorem Valid.claims (valid : ledger.Valid) {expectedOperationId submissionId : String}
    {isFree : Bool}
    (stepped : ledger.step (.claims expectedOperationId submissionId isFree) = some later) :
    later.Valid := by
  rw [Ledger.step] at stepped
  split at stepped
  case isTrue fresh =>
    obtain ⟨new, apart⟩ := isFresh_apart fresh
    split at stepped
    case h_1 record made =>
      cases stepped
      refine ⟨?_, fun submission mem => ?_, fun claim mem => ?_, valid.digits⟩
      · exact claim_sound valid.sound apart (fun claim mem => new _ (valid.known claim mem)) made
      · rcases List.mem_cons.mp mem with rfl | old
        · rfl
        · exact valid.operations submission old
      · exact List.mem_cons_of_mem _ (valid.known claim mem)
    · cases stepped
      exact valid
  · cases stepped

/-- The metadata of a claim are saved, and journaled if it is a first prompt. -/
theorem Valid.savesMetadata (valid : ledger.Valid) {submission : Submission} {sender : String}
    {nonce : Nat} (stepped : ledger.step (.savesMetadata submission sender nonce) = some later) :
    later.Valid := by
  rw [Ledger.step] at stepped
  split at stepped
  case h_1 record made =>
    cases stepped
    obtain ⟨sound, digits, fits⟩ := metadata_sound valid.sound made
    refine ⟨⟨sound.planned, sound.apart, fun claim mem => ?_⟩, valid.operations,
      fun claim mem => ?_, fun claim mem => ?_⟩
    · rcases mem_journaling mem with ⟨rfl, known⟩ | old
      · exact fits known
      · exact sound.fits claim old
    · rcases mem_journaling mem with ⟨rfl, known⟩ | old
      · exact known
      · exact valid.known claim old
    · rcases mem_journaling mem with ⟨rfl, -⟩ | old
      · exact ⟨hasDigits_lowerCase digits, lowerCase_lowerCase sender⟩
      · exact valid.digits claim old
  · cases stepped
    exact valid

theorem Valid.step (valid : ledger.Valid) {event : Event} (spares : ledger.spares event = true)
    (stepped : ledger.step event = some later) : later.Valid := by
  have sound := valid.sound
  have complete : ∀ claim ∈ ledger.journal, ledger.record.Archives event claim :=
    fun claim mem => (spares_claim spares mem).2
  have operations : ∀ claim ∈ ledger.journal, claim.submission.operationId.isSome = true :=
    fun claim mem => valid.operations _ (valid.known claim mem)
  have dropped : event.reporting = none → ∀ claim ∈ ledger.journal,
      (ledger.record.trimmed event).holds claim.submission = true := by
    intro silent claim mem
    rcases (spares_claim spares mem).1 with reporting | held
    · rw [silent] at reporting
      cases reporting
    · exact held
  cases event with
  | claims expectedOperationId submissionId isFree => exact valid.claims stepped
  | savesMetadata submission sender nonce => exact valid.savesMetadata stepped
  | savesPlan operationId isFree =>
    cases stepped
    exact valid.commit fun record made => plan_sound sound made
  | marksAmbiguous submission =>
    cases stepped
    exact valid.commit fun record made => ambiguous_sound sound made
  | releases submission requireNoNonce isFree =>
    cases stepped
    exact valid.commit fun record made => release_sound sound (dropped rfl) made
  | replaces submissionId operationId expectedFrom =>
    rw [Ledger.step] at stepped
    split at stepped
    case isTrue fresh =>
      cases stepped
      apply valid.commit
      intro record made
      obtain ⟨sender, nonce, replaces⟩ := replacement_replaces made
      apply replaces.sound sound (isFresh_apart fresh).1 valid.known
      intro claim mem
      have held := dropped rfl claim mem
      simp only [Record.trimmed, Record.unless, made] at held
      exact replaces.holds held
    · cases stepped
  | releasesStart submission replacementNonce replacementUnknown isSame =>
    cases stepped
    apply valid.commit
    intro record made
    cases made
    exact startRelease_sound sound operations (dropped rfl)
  | remembers hash submission metadata =>
    rw [Ledger.step] at stepped
    split at stepped
    case isTrue reported =>
      cases stepped
      apply valid.commit
      intro record made
      apply remember_sound sound (fun claim mem => (valid.digits claim mem).2) _ _ made
      · intro claim mem same
        have each := List.all_eq_true.mp reported claim mem
        simpa [same] using each
      · intro claim mem
        exact (spares_claim spares mem).1.imp_left Option.some.inj
    · cases stepped
  | marksUnresolved allMissing replaceable =>
    cases stepped
    apply valid.commit
    intro record made
    cases made
    exact unresolved_sound sound allMissing replaceable
  | resolves hashesResolved consumed status block =>
    cases stepped
    apply valid.commit
    intro record made
    cases made
    exact resolve_sound sound (dropped rfl)
  | retries hashes isFinal isFree operationId =>
    cases stepped
    exact valid.commit fun record made => retry_sound sound (dropped rfl) complete made
  | updates standing sanitize =>
    rw [Ledger.step] at stepped
    split at stepped
    · cases stepped
    case isFalse guarded =>
      cases stepped
      apply valid.commit
      intro record made
      apply update_sound sound operations _ complete made
      intro sanitized
      by_contra open_
      exact guarded ⟨sanitized, open_⟩
  | merges merge =>
    rw [Ledger.step] at stepped
    split at stepped
    case isTrue foreign =>
      cases stepped
      apply valid.commit
      intro record made
      exact merge_sound sound (fun claim mem => (valid.digits claim mem).1) valid.known
        (isForeign_apart foreign) (dropped rfl) made
    · cases stepped

end Steps

section Runs

variable {ledger : Ledger} {record : Record}

def started (record : Record) : Ledger := ⟨record, [], []⟩

/-- Every journaled claim can still report its transaction. -/
def Accepts (ledger : Ledger) : Prop :=
  ∀ claim ∈ ledger.journal, ∀ hash sender : String, hasDigits 64 hash = true →
    hasDigits 40 sender = true → lowerCase sender = claim.sender →
      ∃ next, rememberBrowserBackgroundWithdrawalTransaction ledger.record hash
        claim.submission (some (sender, claim.nonce)) = .ok next ∧ next.records hash = true

theorem started_valid
    (planned : record.preparedWithdrawal.submissionId.isSome = true → record.hasPlan = true) :
    (started record).Valid where
  sound := by
    refine ⟨planned, fun submission mem => ?_, fun claim mem => ?_⟩
    · cases mem
    · cases mem
  operations submission mem := by cases mem
  known claim mem := by cases mem
  digits claim mem := by cases mem

theorem Valid.accepts (valid : ledger.Valid) : ledger.Accepts := by
  intro claim mem hash sender digits address same
  exact (valid.sound.fits claim mem).accepts (valid.digits claim mem).2 digits address same

def lateHash : String := "0x" ++ String.ofList (List.replicate 64 'a')

/-- The first prompt is journaled, and its late hash is refused. -/
def refuses (message : String) (ledger : Ledger) : Prop :=
  ledger.journal = [⟨⟨"first", some "plan"⟩, lowerCase World.sampleSender, 7⟩] ∧
    rememberBrowserBackgroundWithdrawalTransaction ledger.record lateHash
      ⟨"first", some "plan"⟩ (some (World.sampleSender, 7)) = .error message

instance (message : String) (ledger : Ledger) : Decidable (refuses message ledger) :=
  inferInstanceAs (Decidable (_ ∧ _))

/-- The sender, as it is saved. -/
def lowered : String := "0x00000000000000000000000000000000000000ab"

/-- The record with its first prompt, or with one that has taken it over. -/
def waiting (live : String) (superseded : List PastClaim) (outcome : Outcome)
    (replacementOf : Option (List String)) : Record :=
  { World.setAside with
    phase := .submittedUnconfirmed
    startRecoveryPending := true
    startOperationId := some "plan"
    startSubmissionId := some live
    startSubmissionFrom := some lowered
    startSubmissionNonce := some 7
    startSubmissionOutcome := some outcome
    supersededStartSubmissionClaims := superseded
    preparedWithdrawal := { World.setAside.preparedWithdrawal with
      phase := .awaitingWallet
      submissionId := some live
      submissionFrom := some lowered
      submissionNonce := some 7
      submissionOutcome := some outcome
      submissionNonceJournalRequired := true
      replacementOf := replacementOf } }

/-- A record that is closed. -/
def closing : Standing := ⟨.closed, .closed, false, false, true⟩

end Runs

end Ledger

end ZkApi.Browser.Background
