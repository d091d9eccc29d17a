import ZkApi.BackgroundPrompts
import ZkApi.BackgroundTransfers

/-!
# Late hashes of background prompts

A wallet may report its transaction long after its tab has lost the claim.  The hash is
accepted as long as the claim is in the record, one of its lists or an archive; each list
holds eight claims, a claim that a sync has resolved is in none of them until a retry, and
an archive may not have the sender and the nonce of a claim.
-/

namespace ZkApi.Browser.Background

open Expiry Escape Indexer

section Machine

/-- A claim with the sender and the nonce that were saved for it. -/
structure JournaledClaim where
  submission : Submission
  sender : String
  nonce : Nat
deriving DecidableEq

/-- The record, the claims that were given out as first prompts, and those of them that
were journaled. -/
structure Ledger where
  record : Record
  returned : List Submission
  journal : List JournaledClaim

inductive Event where
  | claims (expectedOperationId submissionId : String) (isFree : Bool)
  | savesPlan (operationId : String) (isFree : Bool)
  | savesMetadata (submission : Submission) (sender : String) (nonce : Nat)
  | marksAmbiguous (submission : Submission)
  | releases (submission : Submission) (requireNoNonce isFree : Bool)
  | replaces (submissionId operationId expectedFrom : String)
  | releasesStart (submission : Submission) (replacementNonce : Option Nat)
      (replacementUnknown isSame : Bool)
  | remembers (hash : String) (submission : Submission) (metadata : Option (String × Nat))
  | marksUnresolved (allMissing : Bool) (replaceable : List String)
  | resolves (hashesResolved : Bool) (consumed : String → Nat → Bool) (status : ChainStatus)
      (block : Nat)
  | retries (hashes : List String) (isFinal isFree : Bool) (operationId : String)
  | updates (standing : Standing) (sanitize : Bool)
  | merges (merge : Merge)

/-- The claims that the record and its plan list, and those of the attempts. -/
def Record.listedClaims (record : Record) : List PastClaim :=
  record.priorClaims ++ record.preparedWithdrawal.transactionAttempts.map StartAttempt.claim

def Record.archivedClaims (record : Record) : List PastClaim :=
  record.resolvedStartTransactionHistory.flatMap Archive.claims

/-- The claim is live, or in a place where a late hash looks for it. -/
def Record.holds (record : Record) (submission : Submission) : Bool :=
  record.isActive submission ||
    (record.priorClaims ++ record.archivedClaims).any fun claim => claim.isOf submission

def Ledger.hasReturned (ledger : Ledger) (submissionId : Option String) : Bool :=
  ledger.returned.any fun submission => submissionId == some submission.submissionId

def Ledger.isFresh (ledger : Ledger) (submissionId : String) : Bool :=
  !ledger.hasReturned (some submissionId) &&
    ledger.record.startSubmissionId != some submissionId &&
    (ledger.record.listedClaims ++ ledger.record.archivedClaims).all fun claim =>
      claim.submissionId != some submissionId

/-- A prompt of a journaled claim reports the sender and the nonce of the claim. -/
def Ledger.reports (ledger : Ledger) (submission : Submission)
    (metadata : Option (String × Nat)) : Bool :=
  ledger.journal.all fun claim => claim.submission.submissionId != submission.submissionId ||
    metadata.all fun identity =>
      lowerCase identity.1 == claim.sender && identity.2 == claim.nonce

/-- The prompts of the runtime: those of its late transactions and those of its plan. -/
def Merge.prompts (merge : Merge) : List (Option String) :=
  merge.runtime.lateWithdrawalAttempts.map LateTransfers.LateAttempt.submissionId ++
    (merge.selected.map fun plan => plan.submissionId ::
      plan.transactionAttempts.map fun attempt => attempt.claim.submissionId).getD []

/-- First prompts report to their record, not to the runtime. -/
def Ledger.isForeign (ledger : Ledger) (merge : Merge) : Bool :=
  merge.prompts.all fun submissionId => !ledger.hasReturned submissionId

/-- The journal with a claim, if it was given out as a first prompt. -/
def Ledger.journaling (ledger : Ledger) (claim : JournaledClaim) : List JournaledClaim :=
  if claim.submission ∈ ledger.returned then claim :: ledger.journal else ledger.journal

def Ledger.commit (ledger : Ledger) (made : Except String Record) : Ledger :=
  match made with
  | .ok record => { ledger with record := record }
  | .error _ => ledger

def Ledger.step (ledger : Ledger) : Event → Option Ledger
  | .claims expectedOperationId submissionId isFree =>
      if ledger.isFresh submissionId then
        match claimBrowserBackgroundWithdrawalSubmission ledger.record expectedOperationId
            submissionId isFree with
        | .ok record => some { ledger with
            record := record
            returned := ⟨submissionId, some expectedOperationId⟩ :: ledger.returned }
        | .error _ => some ledger
      else none
  | .savesPlan operationId isFree =>
      some (ledger.commit (saveBrowserBackgroundWithdrawalPlan ledger.record operationId isFree))
  | .savesMetadata submission sender nonce =>
      match rememberBrowserBackgroundWithdrawalMetadata ledger.record submission sender nonce with
      | .ok record => some { ledger with
          record := record
          journal := ledger.journaling ⟨submission, lowerCase sender, nonce⟩ }
      | .error _ => some ledger
  | .marksAmbiguous submission =>
      some (ledger.commit (markBrowserBackgroundWithdrawalAmbiguous ledger.record submission))
  | .releases submission requireNoNonce isFree =>
      some (ledger.commit (releaseBrowserBackgroundWithdrawalSubmission ledger.record submission
        requireNoNonce isFree))
  | .replaces submissionId operationId expectedFrom =>
      if ledger.isFresh submissionId then
        some (ledger.commit (claimBrowserWithdrawalStartReplacement ledger.record submissionId
          operationId expectedFrom))
      else none
  | .releasesStart submission replacementNonce replacementUnknown isSame =>
      some (ledger.commit (.ok (releaseBrowserWithdrawalStartSubmission ledger.record submission
        replacementNonce replacementUnknown isSame)))
  | .remembers hash submission metadata =>
      if ledger.reports submission metadata then
        some (ledger.commit (rememberBrowserBackgroundWithdrawalTransaction ledger.record hash
          submission metadata))
      else none
  | .marksUnresolved allMissing replaceable =>
      some (ledger.commit (.ok (markStartsUnresolved ledger.record allMissing replaceable)))
  | .resolves hashesResolved consumed status block =>
      some (ledger.commit (.ok (resolveStarts ledger.record hashesResolved consumed status
        block)))
  | .retries hashes isFinal isFree operationId =>
      some (ledger.commit (resolveBrowserBackgroundWithdrawalForRetry ledger.record hashes isFinal
        isFree operationId))
  | .updates standing sanitize =>
      -- only a record that is closed is sanitized
      if sanitize = true ∧ standing.phase ≠ .closed then none
      else some (ledger.commit (updateBrowserWithdrawal ledger.record standing sanitize))
  | .merges merge =>
      if ledger.isForeign merge then
        some (ledger.commit (transferBrowserLateWithdrawalAttempt merge ledger.record))
      else none

end Machine

section Conditions

/-- What a list of eight keeps of its claims when one more comes. -/
def withoutOldest (claims : List PastClaim) : List PastClaim :=
  claims.drop (claims.length + 1 - 8)

/-- The record, without what an operation drops from it unless it is refused. -/
def Record.unless (record : Record) (made : Except String Record) (trimmed : Record) : Record :=
  match made with
  | .ok _ => trimmed
  | .error _ => record

/-- The record without what the event drops from it. -/
def Record.trimmed (record : Record) : Event → Record
  | .releases submission requireNoNonce isFree =>
      record.unless (releaseBrowserBackgroundWithdrawalSubmission record submission requireNoNonce
        isFree) { record with
          dismissedStartSubmissionClaims := withoutOldest record.dismissedStartSubmissionClaims }
  | .replaces submissionId operationId expectedFrom =>
      record.unless (claimBrowserWithdrawalStartReplacement record submissionId operationId
        expectedFrom) (if record.startSubmissionId.isSome then { record with
          supersededStartSubmissionClaims := withoutOldest record.supersededStartSubmissionClaims }
        else record)
  | .releasesStart submission replacementNonce replacementUnknown isSame =>
      if releaseBrowserWithdrawalStartSubmission record submission replacementNonce
          replacementUnknown isSame = record then record
      else if replacementUnknown then { record with
        ambiguousStartReplacements := withoutOldest record.ambiguousStartReplacements }
      else { record with
        dismissedStartSubmissionClaims := withoutOldest record.dismissedStartSubmissionClaims }
  | .remembers hash submission metadata =>
      record.unless (rememberBrowserBackgroundWithdrawalTransaction record hash submission metadata)
        (if record.archivedClaims.any fun claim => claim.isOf submission then record
        else { record with
          transactionAttempts := record.transactionAttempts.filter fun attempt =>
            attempt.hash != lowerCase hash })
  | .resolves hashesResolved consumed _ _ =>
      if hashesResolved && (backgroundWithdrawalClaims record).all
          (StartClaim.isConsumed consumed) then { record with startSubmissionId := none }
      else record
  | .retries hashes isFinal isFree operationId =>
      record.unless (resolveBrowserBackgroundWithdrawalForRetry record hashes isFinal isFree
        operationId) { record with
          transactionAttempts := []
          supersededStartSubmissionClaims := []
          ambiguousStartReplacements := []
          resolvedStartTransactionHistory :=
            record.resolvedStartTransactionHistory ++ [record.archive] }
  | .merges merge => match merge.attempt? record with
      | none => record
      | some attempt => { record with
          dismissedStartSubmissionClaims := if merge.migrates record attempt then
            withoutOldest record.dismissedStartSubmissionClaims
            else record.dismissedStartSubmissionClaims
          transactionAttempts := merge.entries record attempt }
  | _ => record

/-- The archive that the event makes. -/
def Record.archiving (record : Record) : Event → Option Archive
  | .retries hashes isFinal isFree operationId =>
      (resolveBrowserBackgroundWithdrawalForRetry record hashes isFinal isFree
        operationId).toOption.map fun _ => record.archive
  | .updates standing sanitize =>
      (updateBrowserWithdrawal record standing sanitize).toOption.bind fun _ =>
        if sanitize then some record.closingArchive else none
  | _ => none

/-- A late hash of the claim is accepted if this is what is archived of it. -/
def PastClaim.isCompleteFor (past : PastClaim) (claim : JournaledClaim) : Bool :=
  past.sender.any (hasDigits 40) && past.nonce.isSome && past.fits claim.sender claim.nonce

/-- The claim of the prompt that reports is written down again. -/
def Event.reporting : Event → Option Submission
  | .remembers _ submission _ => some submission
  | _ => none

/-- No journaled claim is only in what the event drops, and none is archived for the first
time without its sender and its nonce. -/
def Ledger.spares (ledger : Ledger) (event : Event) : Bool :=
  ledger.journal.all fun claim =>
    (event.reporting == some claim.submission ||
      (ledger.record.trimmed event).holds claim.submission) &&
    (ledger.record.archivedClaims.any (fun past => past.isOf claim.submission) ||
      (ledger.record.archiving event).all fun archive =>
        (archive.claims.find? fun past => past.isOf claim.submission).all fun past =>
          past.isCompleteFor claim)

end Conditions

section Lists

theorem lastEight_append (claims : List PastClaim) (claim : PastClaim) :
    lastEight (claims ++ [claim]) = withoutOldest claims ++ [claim] := by
  rw [lastEight, withoutOldest, List.length_append, List.length_singleton]
  apply List.drop_append_of_le_length
  omega

theorem mem_of_mem_withoutOldest {claims : List PastClaim} {claim : PastClaim}
    (mem : claim ∈ withoutOldest claims) : claim ∈ claims :=
  List.mem_of_mem_drop mem

/-- What a late hash finds in the archives is the first of all archived claims. -/
theorem find?_archived {archives : List Archive} {submission : Submission} {place : Nat}
    (found : (archives.findIdx? fun archive =>
      archive.claims.any fun past => past.isOf submission) = some place) :
    ∃ archive ∈ archives, archives[place]? = some archive ∧ ∃ past,
      (archive.claims.find? fun past => past.isOf submission) = some past ∧
      ((archives.flatMap Archive.claims).find? fun past => past.isOf submission) = some past := by
  induction archives generalizing place with
  | nil => cases found
  | cons archive rest ih =>
    rw [List.findIdx?_cons] at found
    rw [List.flatMap_cons, List.find?_append]
    split at found
    case isTrue named =>
      cases found
      obtain ⟨past, first⟩ := Option.isSome_iff_exists.mp (List.find?_isSome.mpr
        (List.any_eq_true.mp named))
      refine ⟨archive, List.mem_cons_self, rfl, past, first, ?_⟩
      rw [first, Option.some_or]
    case isFalse other =>
      obtain ⟨next, later, rfl⟩ := Option.map_eq_some_iff.mp found
      obtain ⟨kept, mem, placed, past, first, same⟩ := ih later
      refine ⟨kept, List.mem_cons_of_mem _ mem, placed, past, first, ?_⟩
      have none : (archive.claims.find? fun past => past.isOf submission) = none := by
        rw [List.find?_eq_none]
        intro past held named
        exact other (List.any_eq_true.mpr ⟨past, held, named⟩)
      rw [none, Option.none_or, same]

end Lists

section Invariant

variable (record : Record)

/-- The claim is live in the record or in its plan. -/
def Record.Names (submissionId : String) : Prop :=
  record.startSubmissionId = some submissionId ∨
    record.preparedWithdrawal.submissionId = some submissionId

/-- The claim is live in the record and in its plan, with what was journaled. -/
structure Record.Carries (claim : JournaledClaim) : Prop where
  id : record.startSubmissionId = some claim.submission.submissionId
  operation : record.startOperationId = claim.submission.operationId
  sender : record.startSubmissionFrom = some claim.sender
  nonce : record.startSubmissionNonce = some claim.nonce
  planId : record.preparedWithdrawal.submissionId = some claim.submission.submissionId
  planOperation : record.preparedWithdrawal.operationId = claim.submission.operationId
  planFrom : record.preparedWithdrawal.submissionFrom = some claim.sender
  planNonce : record.preparedWithdrawal.submissionNonce = some claim.nonce

/-- What is saved of the claim, wherever it is saved. -/
structure Record.Fits (claim : JournaledClaim) : Prop where
  live : record.Names claim.submission.submissionId → record.Carries claim
  listed : ∀ past ∈ record.listedClaims, past.isOf claim.submission = true →
    past.fits claim.sender claim.nonce = true
  archived : ∀ past, (record.archivedClaims.find? fun past => past.isOf claim.submission) =
    some past → past.isCompleteFor claim = true
  held : record.holds claim.submission = true

/-- A live prompt of the plan is not over. -/
def Record.Apart (submissionId : String) : Prop :=
  record.preparedWithdrawal.submissionId = some submissionId →
    ∀ past ∈ record.listedClaims ++ record.archivedClaims, past.submissionId ≠ some submissionId

structure Record.Sound (returned : List Submission) (journal : List JournaledClaim) : Prop where
  planned : record.preparedWithdrawal.submissionId.isSome = true → record.hasPlan = true
  apart : ∀ submission ∈ returned, record.Apart submission.submissionId
  fits : ∀ claim ∈ journal, record.Fits claim

structure Ledger.Valid (ledger : Ledger) : Prop where
  sound : ledger.record.Sound ledger.returned ledger.journal
  operations : ∀ submission ∈ ledger.returned, submission.operationId.isSome = true
  known : ∀ claim ∈ ledger.journal, claim.submission ∈ ledger.returned
  digits : ∀ claim ∈ ledger.journal, hasDigits 40 claim.sender = true ∧
    lowerCase claim.sender = claim.sender

end Invariant

section Acceptance

variable {record : Record} {claim : JournaledClaim} {hash sender : String}

/-- The hash is in the record, or in an archive of it. -/
def Record.records (record : Record) (hash : String) : Bool :=
  record.transactionHashes.contains (lowerCase hash) ||
    record.resolvedStartTransactionHistory.any fun archive =>
      (archive.transactionHashes ++ archive.lateObservedHashes).contains (lowerCase hash)

theorem PastClaim.isOf_iff {past : PastClaim} {submission : Submission} :
    past.isOf submission = true ↔ past.submissionId = some submission.submissionId ∧
      past.operationId = submission.operationId := by
  rw [PastClaim.isOf, Bool.and_eq_true, beq_iff_eq, beq_iff_eq]

/-- The spelling of the sender makes no difference. -/
theorem PastClaim.fits_spelled (past : PastClaim) (nonce : Nat)
    (lower : lowerCase claim.sender = claim.sender) (same : lowerCase sender = claim.sender) :
    past.fits sender nonce = past.fits claim.sender nonce := by
  rw [PastClaim.fits, PastClaim.fits, same, lower]

theorem withLateHash_contains (archive : Archive) (hash : String) :
    ((archive.withLateHash hash).transactionHashes ++
      (archive.withLateHash hash).lateObservedHashes).contains hash = true := by
  rw [List.contains_iff_mem, Archive.withLateHash]
  split
  case isTrue mem => exact mem
  · simp

/-- What is saved of a claim that fits and is not archived. -/
theorem Record.Fits.saved (fits : record.Fits claim)
    (found : (record.resolvedStartTransactionHistory.findIdx? fun archive =>
      archive.claims.any fun past => past.isOf claim.submission) = none) :
    ∃ past, record.savedClaim claim.submission = some past ∧
      past.fits claim.sender claim.nonce = true := by
  rw [Record.savedClaim]
  by_cases active : record.isActive claim.submission = true
  · rw [if_pos active]
    refine ⟨_, rfl, ?_⟩
    rw [Record.isActive, Bool.and_eq_true, beq_iff_eq] at active
    have carried := fits.live (.inl active.1)
    simp [PastClaim.fits, carried.sender, carried.nonce]
  · rw [if_neg active]
    have held := fits.held
    rw [Record.holds, Bool.or_eq_true] at held
    obtain ⟨past, mem, named⟩ := List.any_eq_true.mp (held.resolve_left active)
    rcases List.mem_append.mp mem with prior | archived
    · have present : (record.priorClaims.find? fun past =>
          past.isOf claim.submission).isSome = true := by
        rw [List.find?_isSome]
        exact ⟨past, prior, named⟩
      obtain ⟨first, saved⟩ := Option.isSome_iff_exists.mp present
      have named := List.find?_some saved
      refine ⟨first, saved, ?_⟩
      exact fits.listed first (List.mem_append_left _ (List.mem_of_find?_eq_some saved)) named
    · rw [Record.archivedClaims, List.mem_flatMap] at archived
      obtain ⟨archive, mem, claimed⟩ := archived
      rw [List.findIdx?_eq_none_iff] at found
      have none := found archive mem
      rw [List.any_eq_true.mpr ⟨past, claimed, named⟩] at none
      cases none

theorem withHash_records (record : Record) (submission : Submission) (hash sender : String)
    (nonce : Nat) : (record.withHash submission hash sender nonce).records hash = true := by
  have mem : lowerCase hash ∈ (record.transactionHashes ++ [lowerCase hash]).eraseDups := by
    simp
  rw [Record.records, Bool.or_eq_true]
  left
  rw [List.contains_iff_mem]
  simp only [Record.withHash]
  split <;> exact mem

/-- The late hash of a claim that fits is recorded. -/
theorem Record.Fits.accepts (fits : record.Fits claim)
    (lower : lowerCase claim.sender = claim.sender)
    (valid : hasDigits 64 hash = true) (address : hasDigits 40 sender = true)
    (same : lowerCase sender = claim.sender) :
    ∃ next, rememberBrowserBackgroundWithdrawalTransaction record hash claim.submission
      (some (sender, claim.nonce)) = .ok next ∧ next.records hash = true := by
  rw [rememberBrowserBackgroundWithdrawalTransaction, if_neg (by simp [valid])]
  cases found : record.resolvedStartTransactionHistory.findIdx? fun archive =>
      archive.claims.any fun past => past.isOf claim.submission with
  | some place =>
    obtain ⟨archive, mem, placed, past, saved, first⟩ := find?_archived found
    have complete := fits.archived past first
    rw [PastClaim.isCompleteFor, ← past.fits_spelled claim.nonce lower same] at complete
    simp only [found, placed, Option.bind_some, saved, Option.any_some, Option.all_some, complete,
      if_true]
    refine ⟨_, rfl, ?_⟩
    rw [Record.records, Bool.or_eq_true]
    right
    rw [List.any_eq_true]
    refine ⟨archive.withLateHash (lowerCase hash), ?_, withLateHash_contains _ _⟩
    apply List.mem_of_getElem?
    rw [List.getElem?_modify, placed]
    simp
  | none =>
    obtain ⟨past, saved, fine⟩ := fits.saved found
    rw [← past.fits_spelled claim.nonce lower same] at fine
    simp only [found, saved, lateIdentity, Option.some_or]
    rw [if_neg (by simp [address, fine])]
    exact ⟨_, rfl, withHash_records _ _ _ _ _⟩

end Acceptance

section Moves

variable {record next kept : Record} {claim : JournaledClaim}

theorem Record.holds_iff {submission : Submission} : record.holds submission = true ↔
    record.isActive submission = true ∨
      ∃ past ∈ record.priorClaims ++ record.archivedClaims, past.isOf submission = true := by
  rw [Record.holds, Bool.or_eq_true, List.any_eq_true]

theorem Record.holds_of {submission : Submission} (held : kept.holds submission = true)
    (active : kept.isActive submission = true → next.holds submission = true)
    (sub : ∀ past ∈ kept.priorClaims ++ kept.archivedClaims,
      past ∈ next.priorClaims ++ next.archivedClaims) : next.holds submission = true := by
  rcases Record.holds_iff.mp held with live | ⟨past, mem, named⟩
  · exact active live
  · exact Record.holds_iff.mpr (.inr ⟨past, sub past mem, named⟩)

theorem Record.isActive_iff {submission : Submission} : record.isActive submission = true ↔
    record.startSubmissionId = some submission.submissionId ∧
      record.startOperationId = submission.operationId := by
  rw [Record.isActive, Bool.and_eq_true, beq_iff_eq, beq_iff_eq]

/-- A claim that leaves the live slot is found again when its entry is pushed. -/
theorem Record.holds_pushed {submission : Submission} (past : PastClaim)
    (held : kept.holds submission = true) (pushed : past ∈ next.priorClaims)
    (named : kept.startSubmissionId = some submission.submissionId →
      kept.startOperationId = submission.operationId → past.isOf submission = true)
    (sub : ∀ other ∈ kept.priorClaims ++ kept.archivedClaims,
      other ∈ next.priorClaims ++ next.archivedClaims) : next.holds submission = true := by
  apply Record.holds_of held _ sub
  intro active
  obtain ⟨id, operation⟩ := Record.isActive_iff.mp active
  exact Record.holds_iff.mpr (.inr ⟨past, List.mem_append_left _ pushed, named id operation⟩)

/-- What an operation writes down: entries in the lists, and claims in a new archive. -/
structure Record.Writes (record next : Record) (pushed archived : List PastClaim) : Prop where
  listed : ∀ past ∈ next.listedClaims, past ∈ record.listedClaims ∨ past ∈ pushed
  archives : next.archivedClaims = record.archivedClaims ++ archived

variable {pushed archived : List PastClaim} {returned : List Submission}
  {journal : List JournaledClaim}

/-- What is archived of the claim, if it is archived for the first time. -/
def Record.Completes (record : Record) (archived : List PastClaim) (claim : JournaledClaim) :
    Prop :=
  record.archivedClaims.any (fun past => past.isOf claim.submission) = true ∨
    ∀ past, (archived.find? fun past => past.isOf claim.submission) = some past →
      past.isCompleteFor claim = true

theorem Record.Completes.none (record : Record) (claim : JournaledClaim) :
    record.Completes [] claim := by
  refine .inr fun past found => ?_
  cases found

theorem Record.Writes.fits (writes : record.Writes next pushed archived) (fits : record.Fits claim)
    (live : next.Names claim.submission.submissionId →
      record.Names claim.submission.submissionId ∧ (record.Carries claim → next.Carries claim))
    (agrees : ∀ past ∈ pushed, past.isOf claim.submission = true →
      past.fits claim.sender claim.nonce = true)
    (complete : record.Completes archived claim)
    (held : next.holds claim.submission = true) : next.Fits claim where
  live named := by
    obtain ⟨before, carries⟩ := live named
    exact carries (fits.live before)
  listed past mem named := by
    rcases writes.listed past mem with old | new
    · exact fits.listed past old named
    · exact agrees past new named
  archived past found := by
    rw [writes.archives, List.find?_append, Option.or_eq_some_iff] at found
    rcases found with old | ⟨none, new⟩
    · exact fits.archived past old
    · rcases complete with known | complete
      · obtain ⟨other, mem, named⟩ := List.any_eq_true.mp known
        exact absurd named (List.find?_eq_none.mp none other mem)
      · exact complete past new
  held := held

theorem Record.Writes.apart {submissionId : String} (writes : record.Writes next pushed archived)
    (apart : record.Apart submissionId)
    (live : next.preparedWithdrawal.submissionId = some submissionId →
      record.preparedWithdrawal.submissionId = some submissionId ∧
        ∀ past ∈ pushed ++ archived, past.submissionId ≠ some submissionId) :
    next.Apart submissionId := by
  intro planned past mem
  obtain ⟨before, others⟩ := live planned
  have old := apart before
  rw [writes.archives, List.mem_append, List.mem_append] at mem
  rcases mem with listed | archived | new
  · rcases writes.listed past listed with kept | new
    · exact old past (List.mem_append_left _ kept)
    · exact others past (List.mem_append_left _ new)
  · exact old past (List.mem_append_right _ archived)
  · exact others past (List.mem_append_right _ new)

/-- An operation that leaves no claim live. -/
theorem Record.Writes.unnamed (writes : record.Writes next pushed archived)
    (sound : record.Sound returned journal) (start : next.startSubmissionId = none)
    (plan : next.preparedWithdrawal.submissionId = none)
    (agrees : ∀ claim ∈ journal, ∀ past ∈ pushed, past.isOf claim.submission = true →
      past.fits claim.sender claim.nonce = true)
    (complete : ∀ claim ∈ journal, record.Completes archived claim)
    (held : ∀ claim ∈ journal, next.holds claim.submission = true) :
    next.Sound returned journal where
  planned live := by
    rw [plan] at live
    cases live
  apart submission mem := by
    apply writes.apart (sound.apart submission mem)
    intro live
    rw [plan] at live
    cases live
  fits claim mem := by
    apply writes.fits (sound.fits claim mem) _ (agrees claim mem) (complete claim mem)
      (held claim mem)
    rintro (live | live)
    · rw [start] at live
      cases live
    · rw [plan] at live
      cases live

/-- The live claim of the record and that of its plan. -/
structure Record.SameSlots (record next : Record) : Prop where
  id : next.startSubmissionId = record.startSubmissionId
  operation : next.startOperationId = record.startOperationId
  sender : next.startSubmissionFrom = record.startSubmissionFrom
  nonce : next.startSubmissionNonce = record.startSubmissionNonce
  hasPlan : next.hasPlan = record.hasPlan
  planId : next.preparedWithdrawal.submissionId = record.preparedWithdrawal.submissionId
  planOperation : next.preparedWithdrawal.operationId = record.preparedWithdrawal.operationId
  planFrom : next.preparedWithdrawal.submissionFrom = record.preparedWithdrawal.submissionFrom
  planNonce : next.preparedWithdrawal.submissionNonce = record.preparedWithdrawal.submissionNonce

theorem Record.SameSlots.names (same : record.SameSlots next) {submissionId : String}
    (named : next.Names submissionId) : record.Names submissionId := by
  rw [Record.Names, same.id, same.planId] at named
  exact named

theorem Record.SameSlots.carries (same : record.SameSlots next) (carries : record.Carries claim) :
    next.Carries claim where
  id := same.id.trans carries.id
  operation := same.operation.trans carries.operation
  sender := same.sender.trans carries.sender
  nonce := same.nonce.trans carries.nonce
  planId := same.planId.trans carries.planId
  planOperation := same.planOperation.trans carries.planOperation
  planFrom := same.planFrom.trans carries.planFrom
  planNonce := same.planNonce.trans carries.planNonce

/-- An operation that leaves the live claim as it is. -/
theorem Record.Writes.same (writes : record.Writes next pushed [])
    (sound : record.Sound returned journal) (same : record.SameSlots next)
    (others : ∀ submission ∈ returned,
      record.preparedWithdrawal.submissionId = some submission.submissionId →
        ∀ past ∈ pushed, past.submissionId ≠ some submission.submissionId)
    (agrees : ∀ claim ∈ journal, ∀ past ∈ pushed, past.isOf claim.submission = true →
      past.fits claim.sender claim.nonce = true)
    (held : ∀ claim ∈ journal, next.holds claim.submission = true) :
    next.Sound returned journal where
  planned live := by
    rw [same.planId] at live
    exact same.hasPlan.trans (sound.planned live)
  apart submission mem := by
    apply writes.apart (sound.apart submission mem)
    intro live
    rw [same.planId] at live
    rw [List.append_nil]
    exact ⟨live, others submission mem live⟩
  fits claim mem :=
    writes.fits (sound.fits claim mem) (fun named => ⟨same.names named, same.carries⟩)
      (agrees claim mem) (.none record claim) (held claim mem)

/-- Nothing is written down, and the live claim stays. -/
theorem Record.Sound.quiet (sound : record.Sound returned journal) (same : record.SameSlots next)
    (listed : next.priorClaims = record.priorClaims)
    (planned : next.preparedWithdrawal.transactionAttempts =
      record.preparedWithdrawal.transactionAttempts)
    (archives : next.archivedClaims = record.archivedClaims) : next.Sound returned journal := by
  have writes : record.Writes next [] [] := by
    constructor
    · intro past mem
      rw [Record.listedClaims, listed, planned] at mem
      exact .inl mem
    · rw [archives, List.append_nil]
  apply writes.same sound same
  · intro submission _ _ past mem
    cases mem
  · intro claim _ past mem
    cases mem
  · intro claim mem
    have held := (sound.fits claim mem).held
    rw [Record.holds, Record.isActive] at held ⊢
    rw [listed, archives, same.id, same.operation]
    exact held

/-- What is saved says nothing else of the claim. -/
theorem PastClaim.fits_of {past : PastClaim}
    (sender : ∀ saved, past.sender = some saved → saved = claim.sender)
    (nonce : ∀ saved, past.nonce = some saved → saved = claim.nonce) :
    past.fits claim.sender claim.nonce = true := by
  rw [PastClaim.fits, Bool.and_eq_true]
  constructor
  · cases saved : past.sender with
    | none => rfl
    | some value => simp [sender value saved]
  · cases saved : past.nonce with
    | none => rfl
    | some value => simp [nonce value saved]

end Moves

end ZkApi.Browser.Background
