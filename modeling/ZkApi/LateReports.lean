import ZkApi.LateHashes

/-!
# What the operations leave of a claim

A claim leaves the live slot by a release, a takeover, a report or a resolution, and each
of them but the resolution writes it down again.  A retry and a close archive what is
listed.
-/

namespace ZkApi.Browser.Background

open Expiry Escape Indexer

section Pushes

variable {record kept next : Record} {past : PastClaim} {returned : List Submission}
  {journal : List JournaledClaim}

/-- The claim that was live is pushed onto one of the lists; `kept` is the record without
what the list drops. -/
structure Record.Pushes (record kept next : Record) (past : PastClaim) : Prop where
  listed : ∀ entry ∈ next.priorClaims, entry ∈ record.priorClaims ∨ entry = past
  rest : ∀ entry ∈ kept.priorClaims, entry ∈ next.priorClaims
  pushed : past ∈ next.priorClaims
  planned : next.preparedWithdrawal.transactionAttempts =
    record.preparedWithdrawal.transactionAttempts
  archives : next.archivedClaims = record.archivedClaims ∧
    kept.archivedClaims = record.archivedClaims
  live : kept.startSubmissionId = record.startSubmissionId ∧
    kept.startOperationId = record.startOperationId

/-- The lists besides the one that is pushed onto. -/
structure Record.Rests (record next : Record) : Prop where
  attempts : next.transactionAttempts = record.transactionAttempts
  planned : next.preparedWithdrawal.transactionAttempts =
    record.preparedWithdrawal.transactionAttempts
  history : next.resolvedStartTransactionHistory = record.resolvedStartTransactionHistory

/-- One more claim is pushed onto one of the lists, and the oldest of eight is dropped. -/
theorem Record.Rests.pushes (rests : record.Rests next) (front list back : List PastClaim)
    (before : record.priorClaims = front ++ list ++ back)
    (after : next.priorClaims = front ++ lastEight (list ++ [past]) ++ back)
    (without : kept.priorClaims = front ++ withoutOldest list ++ back)
    (history : kept.resolvedStartTransactionHistory = record.resolvedStartTransactionHistory)
    (live : kept.startSubmissionId = record.startSubmissionId ∧
      kept.startOperationId = record.startOperationId) : record.Pushes kept next past := by
  rw [lastEight_append] at after
  refine ⟨fun entry mem => ?_, fun entry mem => ?_, ?_, rests.planned, ⟨?_, ?_⟩, live⟩
  · rw [before]
    rw [after] at mem
    simp only [List.mem_append, List.mem_singleton] at mem ⊢
    rcases mem with (old | old | same) | old
    · exact .inl (.inl (.inl old))
    · exact .inl (.inl (.inr (mem_of_mem_withoutOldest old)))
    · exact .inr same
    · exact .inl (.inr old)
  · rw [after]
    rw [without] at mem
    simp only [List.mem_append] at mem ⊢
    rcases mem with (old | old) | old
    · exact .inl (.inl old)
    · exact .inl (.inr (.inl old))
    · exact .inr old
  · simp [after]
  · rw [Record.archivedClaims, Record.archivedClaims, rests.history]
  · rw [Record.archivedClaims, Record.archivedClaims, history]

theorem Record.Rests.dismisses (rests : record.Rests next)
    (dismissed : next.dismissedStartSubmissionClaims =
      lastEight (record.dismissedStartSubmissionClaims ++ [past]))
    (superseded : next.supersededStartSubmissionClaims = record.supersededStartSubmissionClaims)
    (ambiguous : next.ambiguousStartReplacements = record.ambiguousStartReplacements) :
    record.Pushes { record with
      dismissedStartSubmissionClaims := withoutOldest record.dismissedStartSubmissionClaims }
      next past := by
  apply rests.pushes [] record.dismissedStartSubmissionClaims
    (record.supersededStartSubmissionClaims ++ record.ambiguousStartReplacements ++
      record.transactionAttempts.map StartAttempt.claim)
  · simp only [Record.priorClaims, List.nil_append, List.append_assoc]
  · simp only [Record.priorClaims, dismissed, superseded, ambiguous, rests.attempts,
      List.nil_append, List.append_assoc]
  · simp only [Record.priorClaims, List.nil_append, List.append_assoc]
  · rfl
  · exact ⟨rfl, rfl⟩

theorem Record.Rests.supersedes (rests : record.Rests next)
    (dismissed : next.dismissedStartSubmissionClaims = record.dismissedStartSubmissionClaims)
    (superseded : next.supersededStartSubmissionClaims =
      lastEight (record.supersededStartSubmissionClaims ++ [past]))
    (ambiguous : next.ambiguousStartReplacements = record.ambiguousStartReplacements) :
    record.Pushes { record with
      supersededStartSubmissionClaims := withoutOldest record.supersededStartSubmissionClaims }
      next past := by
  apply rests.pushes record.dismissedStartSubmissionClaims record.supersededStartSubmissionClaims
    (record.ambiguousStartReplacements ++ record.transactionAttempts.map StartAttempt.claim)
  · simp only [Record.priorClaims, List.append_assoc]
  · simp only [Record.priorClaims, dismissed, superseded, ambiguous, rests.attempts,
      List.append_assoc]
  · simp only [Record.priorClaims, List.append_assoc]
  · rfl
  · exact ⟨rfl, rfl⟩

theorem Record.Rests.doubts (rests : record.Rests next)
    (dismissed : next.dismissedStartSubmissionClaims = record.dismissedStartSubmissionClaims)
    (superseded : next.supersededStartSubmissionClaims = record.supersededStartSubmissionClaims)
    (ambiguous : next.ambiguousStartReplacements =
      lastEight (record.ambiguousStartReplacements ++ [past])) :
    record.Pushes { record with
      ambiguousStartReplacements := withoutOldest record.ambiguousStartReplacements }
      next past := by
  apply rests.pushes
    (record.dismissedStartSubmissionClaims ++ record.supersededStartSubmissionClaims)
    record.ambiguousStartReplacements (record.transactionAttempts.map StartAttempt.claim)
  · rfl
  · simp only [Record.priorClaims, dismissed, superseded, ambiguous, rests.attempts]
  · rfl
  · rfl
  · exact ⟨rfl, rfl⟩

theorem Record.Pushes.writes (pushes : record.Pushes kept next past) :
    record.Writes next [past] [] := by
  constructor
  · intro entry mem
    rw [Record.listedClaims, pushes.planned] at mem
    rcases List.mem_append.mp mem with prior | planned
    · rcases pushes.listed entry prior with old | same
      · exact .inl (List.mem_append_left _ old)
      · exact .inr (List.mem_singleton.mpr same)
    · exact .inl (List.mem_append_right _ planned)
  · rw [pushes.archives.1, List.append_nil]

/-- The claim that was live is found where it is pushed. -/
theorem Record.Pushes.holds (pushes : record.Pushes kept next past) {submission : Submission}
    (held : kept.holds submission = true)
    (named : record.isActive submission = true → past.isOf submission = true) :
    next.holds submission = true := by
  apply Record.holds_pushed past held pushes.pushed
  · intro id operation
    rw [pushes.live.1] at id
    rw [pushes.live.2] at operation
    exact named (Record.isActive_iff.mpr ⟨id, operation⟩)
  · intro entry mem
    rw [pushes.archives.1, ← pushes.archives.2]
    rw [List.mem_append] at mem ⊢
    exact mem.imp_left (pushes.rest entry)

/-- The entry says of the claim what the record said. -/
structure Record.Leaves (record : Record) (past : PastClaim) : Prop where
  live : past.submissionId = record.startSubmissionId
  sender : ∀ sender, past.sender = some sender → record.startSubmissionFrom = some sender
  nonce : ∀ nonce, past.nonce = some nonce → record.startSubmissionNonce = some nonce

theorem Record.Leaves.agrees (leaves : record.Leaves past) (sound : record.Sound returned journal)
    {claim : JournaledClaim} (mem : claim ∈ journal) (named : past.isOf claim.submission = true) :
    past.fits claim.sender claim.nonce = true := by
  obtain ⟨id, -⟩ := PastClaim.isOf_iff.mp named
  have carried := (sound.fits claim mem).live (.inl (leaves.live.symm.trans id))
  apply PastClaim.fits_of
  · intro saved stored
    exact Option.some.inj ((leaves.sender saved stored).symm.trans carried.sender)
  · intro saved stored
    exact Option.some.inj ((leaves.nonce saved stored).symm.trans carried.nonce)

end Pushes

section Releases

variable {record next : Record} {returned : List Submission} {journal : List JournaledClaim}

theorem release_pushes {submission : Submission} {requireNoNonce isFree : Bool}
    (made : releaseBrowserBackgroundWithdrawalSubmission record submission requireNoNonce isFree =
      .ok next) : record.startOperationId = submission.operationId ∧
    record.Pushes { record with
      dismissedStartSubmissionClaims := withoutOldest record.dismissedStartSubmissionClaims } next
      ⟨some submission.submissionId, submission.operationId, record.startSubmissionFrom,
        record.startSubmissionNonce⟩ := by
  simp only [releaseBrowserBackgroundWithdrawalSubmission] at made
  split at made
  · cases made
  case isFalse claimed =>
    have owned : isClaimedBy record submission = true := by simpa using claimed
    simp only [isClaimedBy, Bool.and_eq_true, beq_iff_eq] at owned
    split at made
    · cases made
    · cases made
      refine ⟨owned.1.1.2, Record.Rests.dismisses ⟨?_, ?_, ?_⟩ ?_ ?_ ?_⟩ <;> rfl

theorem release_sound (sound : record.Sound returned journal) {submission : Submission}
    {requireNoNonce isFree : Bool}
    (kept : ∀ claim ∈ journal, (record.trimmed (.releases submission requireNoNonce
      isFree)).holds claim.submission = true)
    (made : releaseBrowserBackgroundWithdrawalSubmission record submission requireNoNonce isFree =
      .ok next) : next.Sound returned journal := by
  obtain ⟨live, drops, -⟩ := release_drops made
  obtain ⟨operation, pushes⟩ := release_pushes made
  apply pushes.writes.unnamed sound drops.submissionId drops.planId
  · intro claim mem past pushed named
    obtain rfl := List.mem_singleton.mp pushed
    exact Record.Leaves.agrees ⟨live.symm, fun _ saved => saved, fun _ saved => saved⟩ sound mem
      named
  · exact fun claim _ => .none record claim
  · intro claim mem
    have kept := kept claim mem
    simp only [Record.trimmed, Record.unless, made] at kept
    apply pushes.holds kept
    intro active
    obtain ⟨id, same⟩ := Record.isActive_iff.mp active
    exact PastClaim.isOf_iff.mpr ⟨live.symm.trans id, operation.symm.trans same⟩

end Releases

section Replacements

variable {record next : Record} {claimed sender : String} {nonce : Nat}
  {returned : List Submission} {journal : List JournaledClaim}

theorem Record.Replaces.rests' (replaces : record.Replaces next claimed sender nonce) :
    record.Rests next := by
  obtain ⟨-, -, -, attempts, planned, -, history⟩ := replaces.rests
  exact ⟨attempts, planned, history⟩

/-- The claim that is taken over, as it is pushed. -/
theorem Record.Replaces.writes (replaces : record.Replaces next claimed sender nonce) :
    record.Writes next record.supersededClaim [] := by
  obtain ⟨dismissed, ambiguous, -, attempts, planned, -, history⟩ := replaces.rests
  have pushes := replaces.pushes
  cases live : record.startSubmissionId with
  | none =>
    rw [if_neg (by simp [live])] at pushes
    constructor
    · intro past mem
      rw [Record.listedClaims, Record.priorClaims, dismissed, ambiguous, attempts, planned,
        pushes] at mem
      exact .inl mem
    · rw [Record.archivedClaims, Record.archivedClaims, history, List.append_nil]
  | some submissionId =>
    rw [if_pos (Option.isSome_iff_exists.mpr ⟨_, live⟩), Record.supersededClaim, live] at pushes
    rw [Record.supersededClaim, live]
    exact (replaces.rests'.supersedes dismissed pushes ambiguous).writes

theorem Record.Replaces.holds (replaces : record.Replaces next claimed sender nonce)
    {submission : Submission}
    (held : (if record.startSubmissionId.isSome then { record with
      supersededStartSubmissionClaims := withoutOldest record.supersededStartSubmissionClaims }
      else record).holds submission = true) : next.holds submission = true := by
  obtain ⟨dismissed, ambiguous, -, attempts, planned, -, history⟩ := replaces.rests
  have pushes := replaces.pushes
  cases live : record.startSubmissionId with
  | none =>
    rw [if_neg (by simp [live])] at pushes held
    apply Record.holds_of held
    · intro active
      rw [Record.isActive_iff, live] at active
      cases active.1
    · intro past mem
      simp only [Record.priorClaims, Record.archivedClaims, dismissed, ambiguous, attempts,
        history, pushes] at mem ⊢
      exact mem
  | some submissionId =>
    rw [if_pos (Option.isSome_iff_exists.mpr ⟨_, live⟩)] at pushes held
    rw [Record.supersededClaim, live] at pushes
    apply (replaces.rests'.supersedes dismissed pushes ambiguous).holds held
    intro active
    obtain ⟨id, operation⟩ := Record.isActive_iff.mp active
    exact PastClaim.isOf_iff.mpr ⟨live.symm.trans id, operation⟩

theorem Record.Replaces.sound (replaces : record.Replaces next claimed sender nonce)
    (sound : record.Sound returned journal)
    (fresh : ∀ submission ∈ returned, claimed ≠ submission.submissionId)
    (known : ∀ claim ∈ journal, claim.submission ∈ returned)
    (held : ∀ claim ∈ journal, next.holds claim.submission = true) :
    next.Sound returned journal where
  planned _ := replaces.hasPlan
  apart submission mem := by
    intro planned
    rw [replaces.planId] at planned
    exact absurd (Option.some.inj planned) (fresh submission mem)
  fits claim mem := by
    apply replaces.writes.fits (sound.fits claim mem) _ _ (.none record claim) (held claim mem)
    · rintro (named | named)
      · rw [replaces.submissionId] at named
        exact absurd (Option.some.inj named) (fresh _ (known claim mem))
      · rw [replaces.planId] at named
        exact absurd (Option.some.inj named) (fresh _ (known claim mem))
    · intro past pushed named
      obtain ⟨submissionId, live, rfl⟩ := List.mem_map.mp pushed
      exact Record.Leaves.agrees ⟨(Option.mem_toList.mp live).symm, fun _ saved => saved,
        fun _ saved => saved⟩ sound mem named

end Replacements

section StartReleases

variable {record : Record} {submission : Submission} {replacementNonce : Option Nat}
  {replacementUnknown isSame : Bool} {returned : List Submission} {journal : List JournaledClaim}

/-- When the claim is released. -/
def Record.Releases (record : Record) (submission : Submission) (replacementNonce : Option Nat)
    (replacementUnknown isSame : Bool) : Prop :=
  record.startSubmissionId = some submission.submissionId ∧
    record.startOperationId.or record.preparedWithdrawal.operationId = submission.operationId ∧
    isSame = true ∧ (replacementUnknown = true → replacementNonce.isSome = true ∧
      record.promptNonce = replacementNonce)

/-- The entry of a claim that is released. -/
def releasedClaim (submission : Submission) (replacementNonce : Option Nat)
    (replacementUnknown : Bool) : PastClaim :=
  ⟨some submission.submissionId, submission.operationId, none,
    if replacementUnknown then replacementNonce else none⟩

/-- What a release writes. -/
structure Record.StartReleased (record next : Record) (submission : Submission)
    (replacementNonce : Option Nat) (replacementUnknown : Bool) : Prop where
  start : next.startSubmissionId = none
  rests : record.Rests next
  dismissed : next.dismissedStartSubmissionClaims = if replacementUnknown then
    record.dismissedStartSubmissionClaims
    else lastEight (record.dismissedStartSubmissionClaims ++
      [releasedClaim submission replacementNonce replacementUnknown])
  superseded : next.supersededStartSubmissionClaims = record.supersededStartSubmissionClaims
  ambiguous : next.ambiguousStartReplacements = if replacementUnknown then
    lastEight (record.ambiguousStartReplacements ++
      [releasedClaim submission replacementNonce replacementUnknown])
    else record.ambiguousStartReplacements
  hasPlan : next.hasPlan = record.hasPlan
  plan : (record.preparedWithdrawal.submissionId = some submission.submissionId ∧
      next.preparedWithdrawal.submissionId = none) ∨
    (record.preparedWithdrawal.submissionId ≠ some submission.submissionId ∧
      next.preparedWithdrawal = record.preparedWithdrawal)

theorem startRelease_cases (record : Record) (submission : Submission)
    (replacementNonce : Option Nat) (replacementUnknown isSame : Bool) :
    releaseBrowserWithdrawalStartSubmission record submission replacementNonce
        replacementUnknown isSame = record ∨
    (record.Releases submission replacementNonce replacementUnknown isSame ∧
      record.StartReleased (releaseBrowserWithdrawalStartSubmission record submission
        replacementNonce replacementUnknown isSame) submission replacementNonce
        replacementUnknown) := by
  by_cases ready : record.Releases submission replacementNonce replacementUnknown isSame
  · refine .inr ⟨ready, ?_⟩
    rw [Record.Releases] at ready
    by_cases same : record.preparedWithdrawal.submissionId = some submission.submissionId
    · simp only [releaseBrowserWithdrawalStartSubmission, if_pos ready, if_pos same]
      refine ⟨rfl, ⟨rfl, rfl, rfl⟩, ?_, rfl, ?_, rfl, .inl ⟨same, rfl⟩⟩
      · cases replacementUnknown <;> rfl
      · cases replacementUnknown <;> rfl
    · simp only [releaseBrowserWithdrawalStartSubmission, if_pos ready, if_neg same]
      refine ⟨rfl, ⟨rfl, rfl, rfl⟩, ?_, rfl, ?_, rfl, .inr ⟨same, rfl⟩⟩
      · cases replacementUnknown <;> rfl
      · cases replacementUnknown <;> rfl
  · refine .inl ?_
    rw [Record.Releases] at ready
    simp only [releaseBrowserWithdrawalStartSubmission, if_neg ready]

/-- The prompt of a journaled claim has its nonce. -/
theorem Record.Carries.promptNonce {claim : JournaledClaim} (carries : record.Carries claim) :
    record.promptNonce = some claim.nonce := by
  rw [Record.promptNonce, if_pos (carries.planId.trans carries.id.symm), carries.planNonce,
    Option.some_or]

theorem Record.StartReleased.pushes {next : Record}
    (made : record.StartReleased next submission replacementNonce replacementUnknown) :
    record.Pushes (if replacementUnknown then { record with
        ambiguousStartReplacements := withoutOldest record.ambiguousStartReplacements }
      else { record with
        dismissedStartSubmissionClaims := withoutOldest record.dismissedStartSubmissionClaims })
      next (releasedClaim submission replacementNonce replacementUnknown) := by
  have dismissed := made.dismissed
  have ambiguous := made.ambiguous
  cases replacementUnknown with
  | false => exact made.rests.dismisses dismissed made.superseded ambiguous
  | true => exact made.rests.doubts dismissed made.superseded ambiguous

theorem startRelease_sound (sound : record.Sound returned journal)
    (known : ∀ claim ∈ journal, claim.submission.operationId.isSome = true)
    (kept : ∀ claim ∈ journal, (record.trimmed (.releasesStart submission replacementNonce
      replacementUnknown isSame)).holds claim.submission = true) :
    (releaseBrowserWithdrawalStartSubmission record submission replacementNonce
      replacementUnknown isSame).Sound returned journal := by
  rcases startRelease_cases record submission replacementNonce replacementUnknown isSame with
    idle | ⟨⟨live, operation, -, unknown⟩, made⟩
  · rw [idle]
    exact sound
  rw [Record.trimmed] at kept
  generalize releaseBrowserWithdrawalStartSubmission record submission replacementNonce
    replacementUnknown isSame = next at made kept ⊢
  have other : next ≠ record := by
    rintro rfl
    rw [made.start] at live
    cases live
  rw [if_neg other] at kept
  have writes := made.pushes.writes
  refine ⟨fun planned => ?_, fun returned mem => ?_, fun claim mem => ?_⟩
  · rcases made.plan with ⟨-, gone⟩ | ⟨-, same⟩
    · rw [gone] at planned
      cases planned
    · rw [same] at planned
      exact made.hasPlan.trans (sound.planned planned)
  · apply writes.apart (sound.apart returned mem)
    intro planned
    rcases made.plan with ⟨-, gone⟩ | ⟨different, same⟩
    · rw [gone] at planned
      cases planned
    · rw [same] at planned
      refine ⟨planned, fun past pushed named => different ?_⟩
      rw [List.append_nil] at pushed
      obtain rfl := List.mem_singleton.mp pushed
      exact planned.trans named.symm
  · apply writes.fits (sound.fits claim mem) _ _ (.none record claim)
    · apply made.pushes.holds (kept claim mem)
      intro active
      obtain ⟨id, same⟩ := Record.isActive_iff.mp active
      obtain ⟨operationId, stored⟩ := Option.isSome_iff_exists.mp (known claim mem)
      refine PastClaim.isOf_iff.mpr ⟨live.symm.trans id, ?_⟩
      rw [same, stored, Option.some_or] at operation
      exact operation.symm.trans stored.symm
    · rintro (named | named)
      · rw [made.start] at named
        cases named
      · rcases made.plan with ⟨-, gone⟩ | ⟨different, same⟩
        · rw [gone] at named
          cases named
        · rw [same] at named
          have carried := (sound.fits claim mem).live (.inr named)
          exact absurd (named.trans (carried.id.symm.trans live)) different
    · intro past pushed named
      obtain rfl := List.mem_singleton.mp pushed
      obtain ⟨id, -⟩ := PastClaim.isOf_iff.mp named
      have carried := (sound.fits claim mem).live (.inl (live.trans id))
      apply PastClaim.fits_of
      · intro saved stored
        cases stored
      · intro saved stored
        rw [releasedClaim] at stored
        split at stored
        case isTrue is =>
          rw [← (unknown is).2, carried.promptNonce] at stored
          exact (Option.some.inj stored).symm
        · cases stored

end StartReleases

section Reports

variable {record next : Record} {hash sender : String} {nonce : Nat} {submission : Submission}
  {metadata : Option (String × Nat)} {returned : List Submission} {journal : List JournaledClaim}

theorem modify_claims (archives : List Archive) (place : Nat) (hash : String) :
    (archives.modify place fun archive => archive.withLateHash hash).flatMap Archive.claims =
      archives.flatMap Archive.claims := by
  have same : ∀ archive : Archive, (archive.withLateHash hash).claims = archive.claims := by
    intro archive
    rw [Archive.withLateHash]
    split <;> rfl
  induction archives generalizing place with
  | nil => simp
  | cons archive rest ih =>
    cases place with
    | zero => simp [same]
    | succ place => simp [ih]

/-- What a report changes: the audit of an archive, or the attempts. -/
theorem remember_cases
    (made : rememberBrowserBackgroundWithdrawalTransaction record hash submission metadata =
      .ok next) :
    (∃ place, next = { record with
      resolvedStartTransactionHistory := record.resolvedStartTransactionHistory.modify place
        fun archive => archive.withLateHash (lowerCase hash) }) ∨
    (record.archivedClaims.any fun past => past.isOf submission) = false ∧
    ∃ past sender nonce, record.savedClaim submission = some past ∧
      lateIdentity past metadata = some (sender, nonce) ∧
      next = record.withHash submission hash sender nonce := by
  simp only [rememberBrowserBackgroundWithdrawalTransaction] at made
  split at made
  · cases made
  split at made
  · split at made
    · cases made
      exact .inl ⟨_, rfl⟩
    · cases made
  case h_2 found =>
    have fresh : (record.archivedClaims.any fun past => past.isOf submission) = false := by
      rw [List.any_eq_false]
      intro past mem named
      obtain ⟨archive, held, claimed⟩ := List.mem_flatMap.mp mem
      have none := List.findIdx?_eq_none_iff.mp found archive held
      rw [List.any_eq_true.mpr ⟨past, claimed, named⟩] at none
      cases none
    split at made
    · cases made
    case h_2 past saved =>
      split at made
      · cases made
      case h_2 sender nonce late =>
        split at made
        · cases made
        · cases made
          exact .inr ⟨fresh, past, sender, nonce, saved, late, rfl⟩

/-- What is saved of a claim is live or in a list. -/
theorem savedClaim_cases {past : PastClaim} (saved : record.savedClaim submission = some past) :
    (record.isActive submission = true ∧ past = ⟨some submission.submissionId,
      submission.operationId, record.startSubmissionFrom, record.startSubmissionNonce⟩) ∨
    (record.isActive submission = false ∧ past ∈ record.priorClaims ∧
      past.isOf submission = true) := by
  rw [Record.savedClaim] at saved
  split at saved
  case isTrue active => exact .inl ⟨active, (Option.some.inj saved).symm⟩
  case isFalse idle =>
    have named := List.find?_some saved
    exact .inr ⟨by simpa using idle, List.mem_of_find?_eq_some saved, named⟩

/-- The attempt that a report writes down. -/
def reportedAttempt (submission : Submission) (hash sender : String) (nonce : Nat) :
    StartAttempt :=
  ⟨lowerCase hash, some submission.submissionId, submission.operationId, some (lowerCase sender),
    some nonce⟩

/-- The attempts after a report: those with another hash, and its own. -/
theorem withHash_attempts : (record.withHash submission hash sender nonce).transactionAttempts =
    (record.transactionAttempts.filter fun attempt => attempt.hash != lowerCase hash) ++
      [reportedAttempt submission hash sender nonce] := by
  simp only [Record.withHash]
  split <;> rfl

theorem withHash_prior (record : Record) (submission : Submission) (hash sender : String)
    (nonce : Nat) : (record.withHash submission hash sender nonce).priorClaims =
    record.dismissedStartSubmissionClaims ++ record.supersededStartSubmissionClaims ++
      record.ambiguousStartReplacements ++
      (record.withHash submission hash sender nonce).transactionAttempts.map
        StartAttempt.claim := by
  simp only [Record.withHash]
  split <;> rfl

theorem withHash_archived : (record.withHash submission hash sender nonce).archivedClaims =
    record.archivedClaims := by
  simp only [Record.withHash]
  split <;> rfl

theorem withHash_planned (record : Record) (submission : Submission) (hash sender : String)
    (nonce : Nat) :
    (record.withHash submission hash sender nonce).preparedWithdrawal.transactionAttempts =
      record.preparedWithdrawal.transactionAttempts ∨
    (record.withHash submission hash sender nonce).preparedWithdrawal.transactionAttempts =
      (record.withHash submission hash sender nonce).transactionAttempts := by
  by_cases active : record.isActive submission = true
  · by_cases same : record.preparedWithdrawal.operationId = submission.operationId
    · simp only [Record.withHash, if_pos active, if_pos same, Record.withoutClaim,
        Plan.withoutClaim]
      exact .inr trivial
    · simp only [Record.withHash, if_pos active, if_neg same, Record.withoutClaim,
        Plan.withoutClaim]
      exact .inl trivial
  · by_cases same : record.preparedWithdrawal.operationId = submission.operationId
    · simp only [Record.withHash, if_neg active, if_pos same]
      exact .inr trivial
    · simp only [Record.withHash, if_neg active, if_neg same]
      exact .inl trivial

theorem withHash_writes : record.Writes (record.withHash submission hash sender nonce)
    [(reportedAttempt submission hash sender nonce).claim] [] := by
  have attempted : ∀ attempt ∈ (record.withHash submission hash sender nonce).transactionAttempts,
      attempt.claim ∈ record.listedClaims ∨
        attempt.claim = (reportedAttempt submission hash sender nonce).claim := by
    intro attempt mem
    rw [withHash_attempts, List.mem_append, List.mem_singleton] at mem
    rcases mem with old | rfl
    · exact .inl (List.mem_append_left _ (List.mem_append_right _
        (List.mem_map_of_mem (List.mem_of_mem_filter old))))
    · exact .inr rfl
  constructor
  · intro past mem
    rw [List.mem_singleton]
    rw [Record.listedClaims, withHash_prior] at mem
    rcases List.mem_append.mp mem with prior | planned
    · rcases List.mem_append.mp prior with list | mem
      · exact .inl (List.mem_append_left _ (List.mem_append_left _ list))
      · obtain ⟨attempt, held, rfl⟩ := List.mem_map.mp mem
        exact attempted attempt held
    · obtain ⟨attempt, held, rfl⟩ := List.mem_map.mp planned
      rcases withHash_planned record submission hash sender nonce with same | same
      · rw [same] at held
        exact .inl (List.mem_append_right _ (List.mem_map_of_mem held))
      · rw [same] at held
        exact attempted attempt held
  · rw [withHash_archived, List.append_nil]

/-- A report of the live claim takes it out; another one leaves it as it is. -/
theorem withHash_slots (record : Record) (submission : Submission) (hash sender : String)
    (nonce : Nat) : (record.isActive submission = true ∧
      (record.withHash submission hash sender nonce).startSubmissionId = none ∧
      (record.withHash submission hash sender nonce).preparedWithdrawal.submissionId = none) ∨
    (record.isActive submission = false ∧
      record.SameSlots (record.withHash submission hash sender nonce)) := by
  by_cases active : record.isActive submission = true
  · left
    simp only [Record.withHash, if_pos active]
    exact ⟨active, rfl, rfl⟩
  · right
    refine ⟨by simpa using active, ?_⟩
    simp only [Record.withHash, if_neg active]
    refine ⟨rfl, rfl, rfl, rfl, rfl, ?_, ?_, ?_, ?_⟩ <;>
      by_cases same : record.preparedWithdrawal.operationId = submission.operationId <;>
        simp only [same, if_true, if_false]

/-- The report of a claim carries what was journaled for it. -/
theorem Record.Fits.late {claim : JournaledClaim} (fits : record.Fits claim)
    (lower : lowerCase claim.sender = claim.sender)
    (reported : metadata.all (fun identity =>
      lowerCase identity.1 == claim.sender && identity.2 == claim.nonce) = true)
    {past : PastClaim} (saved : record.savedClaim claim.submission = some past)
    (late : lateIdentity past metadata = some (sender, nonce)) :
    lowerCase sender = claim.sender ∧ nonce = claim.nonce := by
  cases metadata with
  | some identity =>
    rw [lateIdentity, Option.some_or] at late
    obtain rfl := Option.some.inj late
    rw [Option.all_some, Bool.and_eq_true, beq_iff_eq, beq_iff_eq] at reported
    exact reported
  | none =>
    rw [lateIdentity, Option.none_or, Option.bind_eq_some_iff] at late
    obtain ⟨old, from_, pair⟩ := late
    obtain ⟨value, stored, both⟩ := Option.map_eq_some_iff.mp pair
    cases both
    rcases savedClaim_cases saved with ⟨active, rfl⟩ | ⟨-, prior, named⟩
    · have carried := fits.live (.inl (Record.isActive_iff.mp active).1)
      obtain rfl := Option.some.inj (carried.sender.symm.trans from_)
      exact ⟨lower, Option.some.inj (stored.symm.trans carried.nonce)⟩
    · have agrees := fits.listed past (List.mem_append_left _ prior) named
      simp only [PastClaim.fits, from_, stored, Option.all_some, Bool.and_eq_true,
        beq_iff_eq] at agrees
      exact ⟨agrees.1.trans lower, agrees.2⟩

theorem withHash_holds {claim : JournaledClaim}
    (kept : submission = claim.submission ∨ ({ record with
      transactionAttempts := record.transactionAttempts.filter fun attempt =>
        attempt.hash != lowerCase hash } : Record).holds claim.submission = true) :
    (record.withHash submission hash sender nonce).holds claim.submission = true := by
  have prior := withHash_prior record submission hash sender nonce
  rw [withHash_attempts, List.map_append, List.map_singleton] at prior
  have pushed : (reportedAttempt submission hash sender nonce).claim ∈
      (record.withHash submission hash sender nonce).priorClaims := by
    rw [prior]
    simp
  rcases kept with rfl | kept
  · exact Record.holds_iff.mpr (.inr ⟨_, List.mem_append_left _ pushed,
      PastClaim.isOf_iff.mpr ⟨rfl, rfl⟩⟩)
  · apply Record.holds_of kept
    · intro active
      obtain ⟨id, operation⟩ := Record.isActive_iff.mp active
      rcases withHash_slots record submission hash sender nonce with ⟨live, -⟩ | ⟨-, same⟩
      · obtain ⟨id', operation'⟩ := Record.isActive_iff.mp live
        exact Record.holds_iff.mpr (.inr ⟨_, List.mem_append_left _ pushed,
          PastClaim.isOf_iff.mpr ⟨id'.symm.trans id, operation'.symm.trans operation⟩⟩)
      · exact Record.holds_iff.mpr (.inl (Record.isActive_iff.mpr
          ⟨same.id.trans id, same.operation.trans operation⟩))
    · intro past mem
      rw [prior, withHash_archived]
      simp only [Record.priorClaims, Record.archivedClaims, List.mem_append] at mem ⊢
      rcases mem with (old | old) | old
      · exact .inl (.inl old)
      · exact .inl (.inr (.inl old))
      · exact .inr old

theorem remember_sound (sound : record.Sound returned journal)
    (lower : ∀ claim ∈ journal, lowerCase claim.sender = claim.sender)
    (reported : ∀ claim ∈ journal, submission.submissionId = claim.submission.submissionId →
      metadata.all (fun identity =>
        lowerCase identity.1 == claim.sender && identity.2 == claim.nonce) = true)
    (kept : ∀ claim ∈ journal, submission = claim.submission ∨
      (record.trimmed (.remembers hash submission metadata)).holds claim.submission = true)
    (made : rememberBrowserBackgroundWithdrawalTransaction record hash submission metadata =
      .ok next) : next.Sound returned journal := by
  have remembered := made
  rcases remember_cases made with ⟨place, rfl⟩ | ⟨fresh, past, sender, nonce, saved, late, rfl⟩
  · apply sound.quiet
    · exact ⟨rfl, rfl, rfl, rfl, rfl, rfl, rfl, rfl, rfl⟩
    · rfl
    · rfl
    · exact modify_claims _ _ _
  have agrees : ∀ claim ∈ journal,
      ∀ entry ∈ [(reportedAttempt submission hash sender nonce).claim],
        entry.isOf claim.submission = true → entry.fits claim.sender claim.nonce = true := by
    intro claim mem entry pushed named
    obtain rfl := List.mem_singleton.mp pushed
    obtain ⟨id, operation⟩ := PastClaim.isOf_iff.mp named
    have same : submission = claim.submission := by
      cases submission
      cases spelled : claim.submission
      rw [spelled] at id operation
      exact congrArg₂ Submission.mk (Option.some.inj id) operation
    obtain ⟨from_, value⟩ := (sound.fits claim mem).late (lower claim mem)
      (reported claim mem (congrArg Submission.submissionId same)) (same ▸ saved) late
    apply PastClaim.fits_of
    · intro stored is
      exact (Option.some.inj is).symm.trans from_
    · intro stored is
      exact (Option.some.inj is).symm.trans value
  have held : ∀ claim ∈ journal,
      (record.withHash submission hash sender nonce).holds claim.submission = true := by
    intro claim mem
    apply withHash_holds
    have kept := kept claim mem
    rw [Record.trimmed, remembered, Record.unless, if_neg (by rw [fresh]; exact Bool.false_ne_true)]
      at kept
    exact kept
  rcases withHash_slots record submission hash sender nonce with ⟨-, gone, planned⟩ | ⟨idle, same⟩
  · exact withHash_writes.unnamed sound gone planned agrees (fun claim _ => .none record claim) held
  · apply withHash_writes.same sound same _ agrees held
    intro other mem planned entry pushed named
    obtain rfl := List.mem_singleton.mp pushed
    rcases savedClaim_cases saved with ⟨active, -⟩ | ⟨-, prior, claimed⟩
    · rw [active] at idle
      cases idle
    · apply sound.apart other mem planned past
      · exact List.mem_append_left _ (List.mem_append_left _ prior)
      · exact (PastClaim.isOf_iff.mp claimed).1.trans named

end Reports

section Resolutions

variable {record next : Record} {returned : List Submission} {journal : List JournaledClaim}

/-- What a sync writes when it has found everything resolved. -/
structure Record.Resolves (record next : Record) : Prop where
  start : next.startSubmissionId = none
  prior : next.priorClaims = record.priorClaims
  archives : next.archivedClaims = record.archivedClaims
  hasPlan : next.hasPlan = record.hasPlan
  attempts : next.preparedWithdrawal.transactionAttempts =
    record.preparedWithdrawal.transactionAttempts
  plan : next.preparedWithdrawal.submissionId = none ∨
    (record.preparedWithdrawal.submissionId ≠ record.startSubmissionId ∧
      next.preparedWithdrawal = record.preparedWithdrawal)

theorem resolve_cases (record : Record) (hashesResolved : Bool) (consumed : String → Nat → Bool)
    (status : ChainStatus) (block : Nat) :
    resolveStarts record hashesResolved consumed status block = record ∨
      ((hashesResolved && (backgroundWithdrawalClaims record).all
          (StartClaim.isConsumed consumed)) = true ∧
        record.Resolves (resolveStarts record hashesResolved consumed status block)) := by
  simp only [resolveStarts]
  split
  case isFalse => exact .inl rfl
  case isTrue ready =>
    obtain ⟨-, hashes, final, -⟩ := ready
    refine .inr ⟨by rw [hashes, final]; rfl, rfl, rfl, rfl, rfl, ?_, ?_⟩
    · dsimp only
      split <;> rfl
    · dsimp only
      split
      case isTrue => exact .inl rfl
      case isFalse kept => exact .inr ⟨fun same => kept (.inl same), rfl⟩

theorem resolve_sound (sound : record.Sound returned journal) {hashesResolved : Bool}
    {consumed : String → Nat → Bool} {status : ChainStatus} {block : Nat}
    (kept : ∀ claim ∈ journal, (record.trimmed (.resolves hashesResolved consumed status
      block)).holds claim.submission = true) :
    (resolveStarts record hashesResolved consumed status block).Sound returned journal := by
  rcases resolve_cases record hashesResolved consumed status block with idle | ⟨ready, made⟩
  · rw [idle]
    exact sound
  generalize resolveStarts record hashesResolved consumed status block = next at made ⊢
  have writes : record.Writes next [] [] := by
    constructor
    · intro past mem
      rw [Record.listedClaims, made.prior, made.attempts] at mem
      exact .inl mem
    · rw [made.archives, List.append_nil]
  -- a claim that stays in the plan was not that of the record
  have planned : ∀ submissionId, next.preparedWithdrawal.submissionId = some submissionId →
      record.preparedWithdrawal.submissionId = some submissionId ∧
        record.startSubmissionId ≠ some submissionId := by
    intro submissionId named
    rcases made.plan with gone | ⟨different, same⟩
    · rw [gone] at named
      cases named
    · rw [same] at named
      exact ⟨named, fun start => different (named.trans start.symm)⟩
  refine ⟨fun live => ?_, fun submission mem => ?_, fun claim mem => ?_⟩
  · obtain ⟨submissionId, named⟩ := Option.isSome_iff_exists.mp live
    have before := (planned submissionId named).1
    exact made.hasPlan.trans (sound.planned (Option.isSome_iff_exists.mpr ⟨_, before⟩))
  · apply writes.apart (sound.apart submission mem)
    intro named
    refine ⟨(planned _ named).1, fun past mem => ?_⟩
    cases mem
  · apply writes.fits (sound.fits claim mem) _ _ (.none record claim)
    · have kept := kept claim mem
      rw [Record.trimmed, if_pos ready] at kept
      apply Record.holds_of kept
      · intro active
        cases (Record.isActive_iff.mp active).1
      · intro past mem
        rw [made.prior, made.archives]
        exact mem
    · rintro (named | named)
      · rw [made.start] at named
        cases named
      · obtain ⟨before, other⟩ := planned _ named
        exact absurd ((sound.fits claim mem).live (.inr before)).id other
    · intro past mem
      cases mem

/-- A retry archives what is resolved, with no claim left. -/
theorem retry_archives {hashes : List String} {isFinal isFree : Bool} {operationId : String}
    (made : resolveBrowserBackgroundWithdrawalForRetry record hashes isFinal isFree operationId =
      .ok next) : record.startSubmissionId = none ∧ next = record.archived operationId := by
  simp only [resolveBrowserBackgroundWithdrawalForRetry] at made
  split at made
  · cases made
  case isFalse ready =>
    simp only [not_or, Bool.not_eq_true, Option.isSome_eq_false_iff] at ready
    have none := Option.isNone_iff_eq_none.mp ready.2.2.2.2.2.1
    split at made
    · cases made
    split at made
    · cases made
    · cases made
      exact ⟨none, rfl⟩

/-- The condition on the archive that an event makes. -/
def Record.Archives (record : Record) (event : Event) (claim : JournaledClaim) : Prop :=
  ∀ archive, record.archiving event = some archive → record.Completes archive.claims claim

theorem retry_sound (sound : record.Sound returned journal) {hashes : List String}
    {isFinal isFree : Bool} {operationId : String}
    (kept : ∀ claim ∈ journal, (record.trimmed (.retries hashes isFinal isFree
      operationId)).holds claim.submission = true)
    (complete : ∀ claim ∈ journal, record.Archives (.retries hashes isFinal isFree operationId)
      claim)
    (made : resolveBrowserBackgroundWithdrawalForRetry record hashes isFinal isFree operationId =
      .ok next) : next.Sound returned journal := by
  obtain ⟨none, rfl⟩ := retry_archives made
  have writes : record.Writes (record.archived operationId) [] record.archive.claims := by
    constructor
    · intro past mem
      simp only [Record.listedClaims, Record.priorClaims, Record.archived, Plan.blank,
        List.map_nil, List.append_nil] at mem
      left
      simp only [Record.listedClaims, Record.priorClaims, List.mem_append]
      exact .inl (.inl (.inl (.inl mem)))
    · simp only [Record.archivedClaims, Record.archived, List.flatMap_append,
        List.flatMap_singleton]
  apply writes.unnamed sound
  · exact none
  · rfl
  · intro claim _ past mem
    cases mem
  · intro claim mem
    apply complete claim mem
    rw [Record.archiving, made]
    rfl
  · intro claim mem
    have kept := kept claim mem
    simp only [Record.trimmed, Record.unless, made] at kept
    apply Record.holds_of kept
    · intro active
      rw [Record.isActive_iff] at active
      rw [show record.startSubmissionId = _ from active.1] at none
      cases none
    · exact fun past mem => mem

end Resolutions

section Closes

variable {record next : Record} {returned : List Submission} {journal : List JournaledClaim}

theorem mem_closingClaims {past : PastClaim} {submission : Submission}
    (operation : submission.operationId.isSome = true) (named : past.isOf submission = true)
    (mem : past = ⟨record.startSubmissionId, record.startOperationId, record.startSubmissionFrom,
        record.startSubmissionNonce⟩ ∨ past ∈ record.supersededStartSubmissionClaims ∨
      past ∈ record.ambiguousStartReplacements) : past ∈ record.closingClaims := by
  obtain ⟨id, same⟩ := PastClaim.isOf_iff.mp named
  simp only [Record.closingClaims, List.mem_filter, List.mem_append, List.mem_cons]
  constructor
  · rcases mem with live | superseded | ambiguous
    · exact .inl (.inl (.inl (.inl (.inl live))))
    · exact .inl (.inr superseded)
    · exact .inr ambiguous
  · rw [id, same, operation]
    rfl

/-- A close finds every claim again in its archive. -/
theorem closed_holds {submission : Submission} (operation : submission.operationId.isSome = true)
    (held : record.holds submission = true) : record.closed.sanitized.holds submission = true := by
  have archives : record.closed.sanitized.archivedClaims =
      record.archivedClaims ++ record.closingArchive.claims := by
    simp only [Record.archivedClaims, Record.closed, Record.sanitized, List.flatMap_append,
      List.flatMap_singleton]
  have closing : ∀ past ∈ record.closingClaims, past ∈
      record.closed.sanitized.priorClaims ++ record.closed.sanitized.archivedClaims := by
    intro past mem
    rw [archives]
    exact List.mem_append_right _ (List.mem_append_right _ (List.mem_append_left _ mem))
  rw [Record.holds_iff]
  right
  rcases Record.holds_iff.mp held with active | ⟨past, mem, named⟩
  · obtain ⟨id, same⟩ := Record.isActive_iff.mp active
    have named : PastClaim.isOf ⟨record.startSubmissionId, record.startOperationId,
        record.startSubmissionFrom, record.startSubmissionNonce⟩ submission = true :=
      PastClaim.isOf_iff.mpr ⟨id, same⟩
    exact ⟨_, closing _ (mem_closingClaims operation named (.inl rfl)), named⟩
  · refine ⟨past, ?_, named⟩
    rcases List.mem_append.mp mem with prior | archived
    · rw [Record.priorClaims, List.mem_append, List.mem_append, List.mem_append] at prior
      rcases prior with ((dismissed | superseded) | ambiguous) | attempt
      · apply List.mem_append_left
        simp only [Record.priorClaims, Record.closed, Record.sanitized, List.mem_append]
        exact .inl (.inl (.inl dismissed))
      · exact closing past (mem_closingClaims operation named (.inr (.inl superseded)))
      · exact closing past (mem_closingClaims operation named (.inr (.inr ambiguous)))
      · apply List.mem_append_left
        simp only [Record.priorClaims, Record.closed, Record.sanitized, List.mem_append]
        exact .inr attempt
    · rw [archives]
      exact List.mem_append_right _ (List.mem_append_left _ archived)

theorem update_sound (sound : record.Sound returned journal)
    (known : ∀ claim ∈ journal, claim.submission.operationId.isSome = true)
    {standing : Standing} {sanitize : Bool}
    (closed : sanitize = true → standing.phase = .closed)
    (complete : ∀ claim ∈ journal, record.Archives (.updates standing sanitize) claim)
    (made : updateBrowserWithdrawal record standing sanitize = .ok next) :
    next.Sound returned journal := by
  have updated := made
  rw [updateBrowserWithdrawal] at made
  split at made
  · cases made
  · cases sanitize with
    | false =>
      cases made
      apply sound.quiet
      · exact ⟨rfl, rfl, rfl, rfl, rfl, rfl, rfl, rfl, rfl⟩
      · rfl
      · rfl
      · rfl
    | true =>
      rw [if_pos rfl, if_pos (closed rfl)] at made
      cases made
      have writes : record.Writes (record.standing standing).closed.sanitized []
          record.closingArchive.claims := by
        constructor
        · intro past mem
          simp only [Record.listedClaims, Record.priorClaims, Record.closed, Record.sanitized,
            Record.standing, Plan.blank, List.map_nil, List.append_nil] at mem
          left
          simp only [Record.listedClaims, Record.priorClaims, List.mem_append] at mem ⊢
          rcases mem with dismissed | attempt
          · exact .inl (.inl (.inl (.inl dismissed)))
          · exact .inl (.inr attempt)
        · simp only [Record.archivedClaims, Record.closed, Record.sanitized, Record.standing,
            List.flatMap_append, List.flatMap_singleton]
          rfl
      apply writes.unnamed sound
      · rfl
      · rfl
      · intro claim _ past mem
        cases mem
      · intro claim mem
        apply complete claim mem
        rw [Record.archiving, updated]
        rfl
      · intro claim mem
        exact closed_holds (known claim mem) (sound.fits claim mem).held

end Closes

section Quiet

variable {record next : Record} {returned : List Submission} {journal : List JournaledClaim}

theorem ambiguous_sound (sound : record.Sound returned journal) {submission : Submission}
    (made : markBrowserBackgroundWithdrawalAmbiguous record submission = .ok next) :
    next.Sound returned journal := by
  rw [markBrowserBackgroundWithdrawalAmbiguous] at made
  split at made
  · cases made
  · cases made
    apply sound.quiet
    · exact ⟨rfl, rfl, rfl, rfl, rfl, rfl, rfl, rfl, rfl⟩
    · rfl
    · rfl
    · rfl

theorem unresolved_sound (sound : record.Sound returned journal) (allMissing : Bool)
    (replaceable : List String) :
    (markStartsUnresolved record allMissing replaceable).Sound returned journal := by
  have same : record.SameSlots (markStartsUnresolved record allMissing replaceable) ∧
      (markStartsUnresolved record allMissing replaceable).priorClaims = record.priorClaims ∧
      (markStartsUnresolved record allMissing replaceable).preparedWithdrawal =
        record.preparedWithdrawal ∧
      (markStartsUnresolved record allMissing replaceable).archivedClaims =
        record.archivedClaims := by
    simp only [markStartsUnresolved]
    split
    · exact ⟨⟨rfl, rfl, rfl, rfl, rfl, rfl, rfl, rfl, rfl⟩, rfl, rfl, rfl⟩
    split
    · exact ⟨⟨rfl, rfl, rfl, rfl, rfl, rfl, rfl, rfl, rfl⟩, rfl, rfl, rfl⟩
    split <;> exact ⟨⟨rfl, rfl, rfl, rfl, rfl, rfl, rfl, rfl, rfl⟩, rfl, rfl, rfl⟩
  obtain ⟨slots, prior, plan, archives⟩ := same
  exact sound.quiet slots prior (congrArg Plan.transactionAttempts plan) archives

/-- Nothing is claimed while a record is available. -/
theorem isAvailable_unnamed {isFree : Bool} (available : isAvailable record isFree = true) :
    record.startSubmissionId = none ∧ record.preparedWithdrawal.submissionId = none := by
  obtain ⟨quiet, -⟩ := isAvailable_quiet available
  simp only [backgroundHasTransactions, Bool.or_eq_false_iff, Option.isSome_eq_false_iff,
    Option.isNone_iff_eq_none] at quiet
  grind

theorem plan_sound (sound : record.Sound returned journal) {operationId : String} {isFree : Bool}
    (made : saveBrowserBackgroundWithdrawalPlan record operationId isFree = .ok next) :
    next.Sound returned journal := by
  rw [saveBrowserBackgroundWithdrawalPlan] at made
  split at made
  · cases made
  case isFalse free =>
    obtain ⟨none, -⟩ := isAvailable_unnamed (Bool.eq_true_of_not_eq_false free)
    cases made
    have writes : record.Writes { record with
        phase := .parked
        independentWithdrawal := true
        hasPlan := true
        preparedWithdrawal :=
          { Plan.blank with operationId := some operationId, hasProof := true } } [] [] := by
      refine ⟨fun past mem => ?_, (List.append_nil _).symm⟩
      rw [Record.listedClaims, Plan.blank, List.map_nil, List.append_nil] at mem
      exact .inl (List.mem_append_left _ mem)
    apply writes.unnamed sound none rfl
    · intro claim _ past mem
      cases mem
    · exact fun claim _ => .none record claim
    · exact fun claim mem => (sound.fits claim mem).held

/-- A first claim is put in where there was none. -/
theorem claim_sound (sound : record.Sound returned journal)
    {expectedOperationId submissionId : String} {isFree : Bool}
    (fresh : ∀ past ∈ record.listedClaims ++ record.archivedClaims,
      past.submissionId ≠ some submissionId)
    (known : ∀ claim ∈ journal, submissionId ≠ claim.submission.submissionId)
    (made : claimBrowserBackgroundWithdrawalSubmission record expectedOperationId submissionId
      isFree = .ok next) :
    next.Sound (⟨submissionId, some expectedOperationId⟩ :: returned) journal := by
  simp only [claimBrowserBackgroundWithdrawalSubmission] at made
  split at made
  · cases made
  case isFalse free =>
    have available := Bool.eq_true_of_not_eq_false free
    obtain ⟨none, -⟩ := isAvailable_unnamed available
    have hasPlan : record.hasPlan = true := by
      simp only [isAvailable, Bool.and_eq_true] at available
      grind
    split at made
    · cases made
    · injection made with made
      have plan : next.preparedWithdrawal.submissionId = some submissionId := by
        rw [← made]
      have start : next.startSubmissionId = some submissionId := by
        rw [← made]
      have listed : next.listedClaims = record.listedClaims := by
        rw [← made]
        rfl
      have archives : next.archivedClaims = record.archivedClaims := by
        rw [← made]
        rfl
      have prior : next.priorClaims = record.priorClaims := by
        rw [← made]
        rfl
      have kept : next.hasPlan = true := by
        rw [← made]
        exact hasPlan
      have writes : record.Writes next [] [] := by
        refine ⟨fun past mem => .inl (listed ▸ mem), ?_⟩
        rw [archives, List.append_nil]
      refine ⟨fun _ => kept, fun submission mem => ?_, fun claim mem => ?_⟩
      · intro planned past mem'
        obtain same : submissionId = submission.submissionId :=
          Option.some.inj (plan.symm.trans planned)
        rw [listed, archives] at mem'
        exact same ▸ fresh past mem'
      · apply writes.fits (sound.fits claim mem) _ _ (.none record claim)
        · have held := (sound.fits claim mem).held
          rw [Record.holds_iff] at held ⊢
          rw [prior, archives]
          refine .inr (held.resolve_left fun active => ?_)
          rw [Record.isActive_iff, none] at active
          cases active.1
        · rintro (named | named)
          · exact absurd (Option.some.inj (start.symm.trans named)) (known claim mem)
          · exact absurd (Option.some.inj (plan.symm.trans named)) (known claim mem)
        · intro past mem
          cases mem

/-- The metadata of a claim are saved, and stay. -/
theorem metadata_sound (sound : record.Sound returned journal) {submission : Submission}
    {sender : String} {nonce : Nat}
    (made : rememberBrowserBackgroundWithdrawalMetadata record submission sender nonce =
      .ok next) :
    next.Sound returned journal ∧ hasDigits 40 sender = true ∧
      (submission ∈ returned → next.Fits ⟨submission, lowerCase sender, nonce⟩) := by
  rw [rememberBrowserBackgroundWithdrawalMetadata] at made
  split at made
  · cases made
  case isFalse digits =>
    split at made
    · cases made
    case isFalse claimed =>
      simp only [isClaimedBy, Bool.not_eq_false, Bool.and_eq_true, beq_iff_eq] at claimed
      obtain ⟨⟨⟨live, operation⟩, planned⟩, planOperation⟩ := claimed
      split at made
      · cases made
      case isFalse changed =>
        cases made
        have writes : record.Writes { record with
            startSubmissionFrom := some (lowerCase sender)
            startSubmissionNonce := some nonce
            preparedWithdrawal := { record.preparedWithdrawal with
              submissionFrom := some (lowerCase sender)
              submissionNonce := some nonce } } [] [] :=
          ⟨fun _ mem => .inl mem, (List.append_nil _).symm⟩
        refine ⟨⟨sound.planned, fun other mem => ?_, fun claim mem => ?_⟩, by simpa using digits,
          fun mem => ?_⟩
        · apply writes.apart (sound.apart other mem)
          intro named
          refine ⟨named, fun past mem => ?_⟩
          cases mem
        · apply writes.fits (sound.fits claim mem) _ _ (.none record claim)
          · exact (sound.fits claim mem).held
          · intro named
            refine ⟨named, fun carries => ?_⟩
            simp only [carries.sender, Option.isSome_some, true_and, not_or, not_not] at changed
            have from_ := changed.1
            have value := changed.2
            rw [carries.nonce] at value
            exact ⟨carries.id, carries.operation, from_.symm, value.symm, carries.planId,
              carries.planOperation, from_.symm, value.symm⟩
          · intro past mem
            cases mem
        · have apart := sound.apart submission mem planned
          refine ⟨fun _ => ⟨live, operation, rfl, rfl, planned, planOperation, rfl, rfl⟩,
            fun past mem named => ?_, fun past found => ?_, ?_⟩
          · exact absurd (PastClaim.isOf_iff.mp named).1
              (apart past (List.mem_append_left _ mem))
          · have named := List.find?_some found
            exact absurd (PastClaim.isOf_iff.mp named).1
              (apart past (List.mem_append_right _ (List.mem_of_find?_eq_some found)))
          · exact Record.holds_iff.mpr (.inl (Record.isActive_iff.mpr ⟨live, operation⟩))

end Quiet

end ZkApi.Browser.Background
