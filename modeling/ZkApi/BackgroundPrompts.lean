import ZkApi.BackgroundStarts
import ZkApi.StepRuns

/-!
# Prompts of one background withdrawal

Every prompt that can broadcast has its sender and its nonce in the record before it
does.  A cancellation finds no nonce, so its prompt never gets one; a takeover keeps the
nonce of the prompt that it takes over.
-/

namespace ZkApi.Browser.Background

open Expiry Escape

section Machine

inductive PromptState where
  | opened
  | refused
  | sent
deriving DecidableEq

/-- A wallet prompt, with the sender and the nonce that were stored for it. -/
structure Prompt where
  submission : Submission
  identity : Option (String × Nat)
  state : PromptState
deriving DecidableEq

/-- The prompt can broadcast, or has done so. -/
def Prompt.mayBroadcast (prompt : Prompt) : Bool :=
  prompt.identity.isSome && prompt.state != .refused

structure World where
  record : Record
  prompts : List Prompt
  canceled : List String
deriving DecidableEq

inductive Action where
  | claims (expectedOperationId submissionId : String) (isFree : Bool)
  | replaces (submissionId operationId expectedFrom : String)
  | savesMetadata (submission : Submission) (sender : String) (nonce : Nat)
  | marksAmbiguous (submission : Submission)
  | refuses (submissionId : String)
  | sends (submissionId : String)
  | releases (submission : Submission)
  | cancels (submission : Submission) (isFree : Bool)
  | remembers (hash : String) (submission : Submission) (metadata : Option (String × Nat))

def World.isFresh (world : World) (submissionId : String) : Bool :=
  world.prompts.all fun prompt => prompt.submission.submissionId != submissionId

/-- The prompt of the claim that the record now has. -/
def Record.prompt (record : Record) (submissionId : String) : Prompt where
  submission := ⟨submissionId, record.startOperationId⟩
  identity := record.liveIdentity
  state := .opened

def World.prompt? (world : World) (submissionId : String) : Option Prompt :=
  world.prompts.find? fun prompt => prompt.submission.submissionId == submissionId

def World.updatePrompt (world : World) (submissionId : String) (change : Prompt → Prompt) :
    List Prompt :=
  world.prompts.map fun prompt =>
    if prompt.submission.submissionId = submissionId then change prompt else prompt

/-- An operation that throws changes nothing. -/
def World.commit (world : World) (made : Except String Record)
    (prompts : Record → List Prompt) : World :=
  match made with
  | .ok record => { world with record := record, prompts := prompts record }
  | .error _ => world

/-- A step of some tab or of its wallet.  A prompt is broadcast only with the identity
that is stored for it, its own tab releases it only after the wallet has refused it, and
reports only what was sent. -/
def World.step (world : World) : Action → Option World
  | .claims expectedOperationId submissionId isFree =>
      if world.isFresh submissionId then
        some (world.commit (claimBrowserBackgroundWithdrawalSubmission world.record
          expectedOperationId submissionId isFree) fun record =>
            record.prompt submissionId :: world.prompts)
      else none
  | .replaces submissionId operationId expectedFrom =>
      if world.isFresh submissionId then
        some (world.commit (claimBrowserWithdrawalStartReplacement world.record submissionId
          operationId expectedFrom) fun record => record.prompt submissionId :: world.prompts)
      else none
  | .savesMetadata submission sender nonce =>
      some (world.commit (rememberBrowserBackgroundWithdrawalMetadata world.record submission
        sender nonce) fun record => world.updatePrompt submission.submissionId fun prompt =>
          { prompt with identity := record.liveIdentity })
  | .marksAmbiguous submission =>
      some (world.commit (markBrowserBackgroundWithdrawalAmbiguous world.record submission)
        fun _ => world.prompts)
  | .refuses submissionId =>
      if (world.prompt? submissionId).any fun prompt => prompt.state == .opened then
        some { world with prompts := world.updatePrompt submissionId fun prompt =>
          { prompt with state := .refused } }
      else none
  | .sends submissionId =>
      if (world.prompt? submissionId).any fun prompt =>
          prompt.state == .opened && prompt.identity.isSome then
        some { world with prompts := world.updatePrompt submissionId fun prompt =>
          { prompt with state := .sent } }
      else none
  | .releases submission =>
      if (world.prompt? submission.submissionId).any fun prompt => prompt.state == .refused then
        some (world.commit (releaseBrowserBackgroundWithdrawalSubmission world.record submission
          false true) fun _ => world.prompts)
      else none
  | .cancels submission isFree =>
      match releaseBrowserBackgroundWithdrawalSubmission world.record submission true isFree with
      | .ok record => some { world with
          record := record, canceled := submission.submissionId :: world.canceled }
      | .error _ => some world
  | .remembers hash submission metadata =>
      if (world.prompt? submission.submissionId).any fun prompt => prompt.state == .sent then
        some (world.commit (rememberBrowserBackgroundWithdrawalTransaction world.record hash
          submission metadata) fun _ => world.prompts)
      else none

end Machine

section Invariant

/-- A first claim finds traces of the earlier prompts. -/
def Record.isBlocked (record : Record) : Bool :=
  !record.supersededStartSubmissionClaims.isEmpty || !record.transactionHashes.isEmpty

/-- The outcome says that a new nonce may be taken from an earlier transaction. -/
def Record.isEligible (record : Record) : Bool :=
  record.startSubmissionOutcome == some .receiptMissing ||
    record.startSubmissionOutcome == some .replacementResultUnknown || record.startRetry.isSome

structure World.Valid (world : World) : Prop where
  nodup : (world.prompts.map fun prompt => prompt.submission.submissionId).Nodup
  twice : world.record.preparedWithdrawal.submissionId = world.record.startSubmissionId
  lower : world.record.startSubmissionId.isSome = true → ∀ sender,
    world.record.startSubmissionFrom = some sender → lowerCase sender = sender
  live : ∀ submissionId, world.record.startSubmissionId = some submissionId →
    ∃ prompt ∈ world.prompts, prompt.submission.submissionId = submissionId ∧
      prompt.identity = world.record.liveIdentity
  settled : world.prompts ≠ [] → world.record.isEligible = false
  blocked : ∀ prompt ∈ world.prompts, prompt.mayBroadcast = true →
    world.record.startSubmissionId = some prompt.submission.submissionId ∨
      world.record.isBlocked = true
  same : ∀ prompt ∈ world.prompts, prompt.mayBroadcast = true →
    world.record.startSubmissionId.isSome = true → world.record.liveIdentity = prompt.identity
  agree : ∀ prompt ∈ world.prompts, ∀ other ∈ world.prompts, prompt.mayBroadcast = true →
    other.mayBroadcast = true → prompt.identity = other.identity
  canceled : ∀ submissionId ∈ world.canceled,
    world.record.startSubmissionId ≠ some submissionId ∧
      ∀ prompt ∈ world.prompts, prompt.submission.submissionId = submissionId →
        prompt.identity = none
  known : ∀ submissionId ∈ world.canceled, ∃ prompt ∈ world.prompts,
    prompt.submission.submissionId = submissionId
  sent : ∀ prompt ∈ world.prompts, prompt.state = .sent → prompt.identity.isSome = true

end Invariant

section Records

variable {record next : Record}

/-- The claim stays as it is. -/
structure Record.Keeps (record next : Record) : Prop where
  submissionId : next.startSubmissionId = record.startSubmissionId
  planId : next.preparedWithdrawal.submissionId = record.preparedWithdrawal.submissionId
  sender : next.startSubmissionFrom = record.startSubmissionFrom
  nonce : next.startSubmissionNonce = record.startSubmissionNonce
  blocked : record.isBlocked = true → next.isBlocked = true
  eligible : next.isEligible = true → record.isEligible = true

/-- The claim is taken out. -/
structure Record.Drops (record next : Record) : Prop where
  submissionId : next.startSubmissionId = none
  planId : next.preparedWithdrawal.submissionId = none
  sender : next.startSubmissionFrom = none
  nonce : next.startSubmissionNonce = none
  blocked : record.isBlocked = true → next.isBlocked = true
  eligible : next.isEligible = true → record.isEligible = true

/-- A new claim is put in: the first one, one with a new nonce, or one that takes over. -/
structure Record.Takes (record next : Record) (claimed : String) : Prop where
  submissionId : next.startSubmissionId = some claimed
  planId : next.preparedWithdrawal.submissionId = some claimed
  lower : ∀ sender, next.startSubmissionFrom = some sender → lowerCase sender = sender
  eligible : next.isEligible = false
  fits : (record.startSubmissionId = none ∧ record.isBlocked = false) ∨ record.isEligible = true ∨
    (next.isBlocked = true ∧ record.startSubmissionId.isSome = true ∧
      record.liveIdentity.isSome = true ∧
      ((∀ sender, record.startSubmissionFrom = some sender → lowerCase sender = sender) →
        next.liveIdentity = record.liveIdentity))

theorem Record.Keeps.identity (keeps : record.Keeps next) :
    next.liveIdentity = record.liveIdentity := by
  rw [Record.liveIdentity, Record.liveIdentity, keeps.sender, keeps.nonce]

theorem isAvailable_quiet {isFree : Bool} (available : isAvailable record isFree = true) :
    backgroundHasTransactions record = false ∧ hasSubmissionEvidence record = false := by
  simp only [isAvailable, Bool.and_eq_true, Bool.not_eq_true'] at available
  obtain ⟨⟨⟨⟨⟨⟨⟨-, quiet⟩, -⟩, -⟩, -⟩, -⟩, evidence⟩, -⟩ := available
  exact ⟨quiet, evidence⟩

theorem claim_takes {expectedOperationId submissionId : String} {isFree : Bool}
    (made : claimBrowserBackgroundWithdrawalSubmission record expectedOperationId submissionId
      isFree = .ok next) : record.Takes next submissionId := by
  simp only [claimBrowserBackgroundWithdrawalSubmission] at made
  split at made
  · cases made
  case isFalse free =>
    obtain ⟨quiet, evidence⟩ := isAvailable_quiet (Bool.eq_true_of_not_eq_false free)
    simp only [backgroundHasTransactions, Bool.or_eq_false_iff, Bool.not_eq_eq_eq_not,
      Bool.not_false] at quiet
    simp only [hasSubmissionEvidence, Bool.or_eq_false_iff] at evidence
    split at made
    · cases made
    · cases made
      refine ⟨rfl, rfl, ?_, ?_, .inl ⟨?_, ?_⟩⟩
      · intro sender saved
        have none : record.startSubmissionFrom.isSome = false := by grind
        rw [show record.startSubmissionFrom = some sender from saved] at none
        cases none
      · have none : record.startRetry.isSome = false := by grind
        simp [Record.isEligible, none]
      · have none : record.startSubmissionId.isSome = false := by grind
        exact Option.isNone_iff_eq_none.mp (by simpa using none)
      · rw [Record.isBlocked]
        grind

theorem isClaimedBy_live {submission : Submission}
    (claimed : ¬ isClaimedBy record submission = false) :
    record.startSubmissionId = some submission.submissionId := by
  rw [Bool.not_eq_false, isClaimedBy] at claimed
  simp only [Bool.and_eq_true, beq_iff_eq] at claimed
  exact claimed.1.1.1

theorem ambiguous_keeps {submission : Submission}
    (made : markBrowserBackgroundWithdrawalAmbiguous record submission = .ok next) :
    record.Keeps next := by
  rw [markBrowserBackgroundWithdrawalAmbiguous] at made
  split at made
  · cases made
  · cases made
    refine ⟨rfl, rfl, rfl, rfl, fun blocked => blocked, fun eligible => ?_⟩
    simp only [Record.isEligible] at eligible ⊢
    simp at eligible
    simp [eligible]

theorem release_drops {submission : Submission} {requireNoNonce isFree : Bool}
    (made : releaseBrowserBackgroundWithdrawalSubmission record submission requireNoNonce isFree =
      .ok next) : record.startSubmissionId = some submission.submissionId ∧ record.Drops next ∧
      (requireNoNonce = true → record.liveIdentity = none) := by
  simp only [releaseBrowserBackgroundWithdrawalSubmission] at made
  split at made
  · cases made
  case isFalse claimed =>
    split at made
    · cases made
    case isFalse cancelable =>
      cases made
      refine ⟨isClaimedBy_live claimed, ⟨rfl, rfl, rfl, rfl, fun blocked => blocked,
        fun eligible => ?_⟩, fun required => ?_⟩
      · simp only [Record.isEligible] at eligible ⊢
        simp at eligible
        simp [Record.withoutClaim] at eligible
        simp [eligible]
      · have may : isPreparationCancelable record isFree = true := by
          by_contra not
          exact cancelable ⟨required, Bool.eq_false_of_not_eq_true not⟩
        simp only [isPreparationCancelable, Bool.and_eq_true] at may
        have absent := Option.isNone_iff_eq_none.mp may.1.1.1.2
        rw [Record.liveIdentity, absent]
        rfl

/-- Metadata for the live claim: what is stored before stays. -/
theorem metadata_saves {submission : Submission} {sender : String} {nonce : Nat}
    (made : rememberBrowserBackgroundWithdrawalMetadata record submission sender nonce =
      .ok next) : record.startSubmissionId = some submission.submissionId ∧
      next.startSubmissionId = record.startSubmissionId ∧
      next.preparedWithdrawal.submissionId = record.preparedWithdrawal.submissionId ∧
      (next.isBlocked = record.isBlocked ∧ next.isEligible = record.isEligible) ∧
      (∀ saved, next.startSubmissionFrom = some saved → lowerCase saved = saved) ∧
      (record.liveIdentity.isSome = true → next.liveIdentity = record.liveIdentity) := by
  rw [rememberBrowserBackgroundWithdrawalMetadata] at made
  split at made
  · cases made
  · split at made
    · cases made
    case isFalse claimed =>
      split at made
      · cases made
      case isFalse changed =>
        cases made
        refine ⟨isClaimedBy_live claimed, rfl, rfl, ⟨rfl, rfl⟩, ?_, fun saved => ?_⟩
        · intro saved stored
          obtain rfl : lowerCase sender = saved := Option.some.inj stored
          exact lowerCase_lowerCase sender
        · rw [Record.liveIdentity] at saved
          cases from_ : record.startSubmissionFrom with
          | none =>
            rw [from_] at saved
            cases saved
          | some old =>
            rw [from_] at changed
            simp only [Option.isSome_some, true_and, not_or, not_not] at changed
            rw [Record.liveIdentity, Record.liveIdentity, from_, changed.1, changed.2]

theorem lastEight_append_ne_nil {α : Type} (list : List α) (last : α) :
    (lastEight (list ++ [last])).isEmpty = false := by
  rw [lastEight, List.isEmpty_eq_false_iff]
  intro empty
  have length := congrArg List.length empty
  simp at length
  omega

theorem replacementIdentities_of_claimIdentity {identity : String × Nat}
    (live : claimIdentity record = some identity) :
    replacementIdentities record = [identity] := by
  rw [replacementIdentities, live]

theorem mem_replacementIdentities_lower {identity : String × Nat}
    (mem : identity ∈ replacementIdentities record) : lowerCase identity.1 = identity.1 := by
  rw [replacementIdentities] at mem
  split at mem
  case h_1 found live =>
    rw [List.mem_singleton] at mem
    subst mem
    rw [claimIdentity] at live
    split at live
    · obtain ⟨old, -, rfl⟩ := Option.map_eq_some_iff.mp live
      exact lowerCase_lowerCase old.1
    · obtain ⟨retry, -, rfl⟩ := Option.map_eq_some_iff.mp live
      exact lowerCase_lowerCase retry.sender
  · rw [List.mem_eraseDups, List.mem_map] at mem
    obtain ⟨attempt, -, rfl⟩ := mem
    exact lowerCase_lowerCase _

/-- A takeover keeps what is stored, for a sender that is written in lower case. -/
theorem claimIdentity_live {identity : String × Nat}
    (live : record.startSubmissionId.isSome = true) (found : claimIdentity record = some identity) :
    record.liveIdentity.isSome = true ∧
      ((∀ sender, record.startSubmissionFrom = some sender → lowerCase sender = sender) →
        record.liveIdentity = some identity) := by
  rw [claimIdentity, if_pos live] at found
  obtain ⟨old, kept, rfl⟩ := Option.map_eq_some_iff.mp found
  have saved := (Option.filter_eq_some_iff.mp kept).1
  refine ⟨by rw [saved]; rfl, fun lower => ?_⟩
  have from_ : record.startSubmissionFrom = some old.1 := by
    rw [Record.liveIdentity, Option.bind_eq_some_iff] at saved
    obtain ⟨sender, stored, pair⟩ := saved
    obtain ⟨nonce, -, rfl⟩ := Option.map_eq_some_iff.mp pair
    exact stored
  rw [saved, lower old.1 from_]

/-- What a replacement that goes through finds and stores. -/
structure Record.Replaces (record next : Record) (claimed sender : String) (nonce : Nat) : Prop
    where
  found : replacementIdentities record = [(sender, nonce)]
  open_ : record.isEligible = true ∨ claimIdentity record ≠ none
  submissionId : next.startSubmissionId = some claimed
  planId : next.preparedWithdrawal.submissionId = some claimed
  from_ : next.startSubmissionFrom = some sender
  nonce_ : next.startSubmissionNonce = some nonce
  eligible : next.isEligible = false
  superseded : record.startSubmissionId.isSome = true → next.isBlocked = true
  hasPlan : next.hasPlan = true
  plan : next.preparedWithdrawal.submissionFrom = next.startSubmissionFrom ∧
    next.preparedWithdrawal.submissionNonce = next.startSubmissionNonce
  pushes : next.supersededStartSubmissionClaims = if record.startSubmissionId.isSome then
    lastEight (record.supersededStartSubmissionClaims ++ record.supersededClaim)
    else record.supersededStartSubmissionClaims
  rests : next.dismissedStartSubmissionClaims = record.dismissedStartSubmissionClaims ∧
    next.ambiguousStartReplacements = record.ambiguousStartReplacements ∧
    next.preparedWithdrawal.ambiguousReplacements =
      record.preparedWithdrawal.ambiguousReplacements ∧
    next.transactionAttempts = record.transactionAttempts ∧
    next.preparedWithdrawal.transactionAttempts =
      record.preparedWithdrawal.transactionAttempts ∧
    next.resolvedStartClaims = record.resolvedStartClaims ∧
    next.resolvedStartTransactionHistory = record.resolvedStartTransactionHistory

theorem replacement_replaces {submissionId operationId expectedFrom : String}
    (made : claimBrowserWithdrawalStartReplacement record submissionId operationId expectedFrom =
      .ok next) : ∃ sender nonce, record.Replaces next submissionId sender nonce := by
  simp only [claimBrowserWithdrawalStartReplacement] at made
  split at made
  · cases made
  case isFalse ready =>
    split at made
    · cases made
    split at made
    · cases made
    split at made
    · cases made
    split at made
    · cases made
    split at made
    case h_2 => cases made
    case h_3 => cases made
    case h_1 sender nonce found =>
      split at made
      · cases made
      · injection made with made
        subst made
        refine ⟨sender, nonce, found, ?_, rfl, rfl, rfl, rfl, rfl, fun live => ?_, ?_,
          ⟨rfl, rfl⟩, rfl, ⟨rfl, rfl, rfl, rfl, rfl, rfl, rfl⟩⟩
        · simp only [not_or, not_and, not_not] at ready
          by_cases none : claimIdentity record = none
          · left
            rw [Record.isEligible]
            grind
          · exact .inr none
        · obtain ⟨old, saved⟩ := Option.isSome_iff_exists.mp live
          simp [Record.isBlocked, Record.supersededClaim, saved, lastEight_append_ne_nil]
        · simp only [not_or, Bool.not_eq_false] at ready
          exact ready.2.1

theorem Record.Replaces.takes {claimed sender : String} {nonce : Nat}
    (replaces : record.Replaces next claimed sender nonce) : record.Takes next claimed where
  submissionId := replaces.submissionId
  planId := replaces.planId
  lower saved stored := by
    rw [replaces.from_] at stored
    obtain rfl := Option.some.inj stored
    have mem : (sender, nonce) ∈ replacementIdentities record := by simp [replaces.found]
    have lowered := mem_replacementIdentities_lower mem
    exact lowered
  eligible := replaces.eligible
  fits := by
    by_cases eligible : record.isEligible = true
    · exact .inr (.inl eligible)
    have retry : record.startRetry = none := by
      simp only [Record.isEligible, Bool.or_eq_true, not_or] at eligible
      simpa using eligible.2
    obtain ⟨identity, found⟩ := Option.ne_none_iff_exists'.mp
      (replaces.open_.resolve_left eligible)
    have live : record.startSubmissionId.isSome = true := by
      by_contra none
      rw [claimIdentity, if_neg none, retry] at found
      cases found
    obtain ⟨saved, same⟩ := claimIdentity_live live found
    have taken : [identity] = [(sender, nonce)] := by
      rw [← replacementIdentities_of_claimIdentity found]
      exact replaces.found
    refine .inr (.inr ⟨replaces.superseded live, live, saved, fun lower => ?_⟩)
    rw [same lower, List.singleton_inj.mp taken, Record.liveIdentity, replaces.from_,
      replaces.nonce_]
    rfl

theorem replacement_takes {submissionId operationId expectedFrom : String}
    (made : claimBrowserWithdrawalStartReplacement record submissionId operationId expectedFrom =
      .ok next) : record.Takes next submissionId := by
  obtain ⟨sender, nonce, replaces⟩ := replacement_replaces made
  exact replaces.takes

theorem eraseDups_append_ne_nil {α : Type} [BEq α] [LawfulBEq α] (list : List α) (last : α) :
    (list ++ [last]).eraseDups.isEmpty = false := by
  rw [List.isEmpty_eq_false_iff]
  have mem : last ∈ (list ++ [last]).eraseDups := by simp
  exact List.ne_nil_of_mem mem

/-- A hash of the live claim closes it; a hash of another one leaves it as it is. -/
theorem withHash_follows (record : Record) (submission : Submission) (hash sender : String)
    (nonce : Nat) :
    (record.withHash submission hash sender nonce).isBlocked = true ∧
      (record.Keeps (record.withHash submission hash sender nonce) ∨
        record.Drops (record.withHash submission hash sender nonce)) := by
  have hashes := eraseDups_append_ne_nil record.transactionHashes (lowerCase hash)
  simp only [Record.withHash]
  by_cases active : record.isActive submission = true
  · rw [if_pos active]
    refine ⟨?_, .inr ⟨rfl, ?_, rfl, rfl, ?_, ?_⟩⟩
    · simp [Record.isBlocked, Record.withoutClaim, hashes]
    · split <;> rfl
    · intro blocked
      simp [Record.isBlocked, Record.withoutClaim, hashes]
    · intro eligible
      simp [Record.isEligible, Record.withoutClaim] at eligible
      simp [Record.isEligible, eligible]
  · rw [if_neg active]
    refine ⟨?_, .inl ⟨rfl, ?_, rfl, rfl, ?_, fun eligible => eligible⟩⟩
    · simp [Record.isBlocked, hashes]
    · show (ite _ _ _ : Plan).submissionId = _
      split <;> rfl
    · intro blocked
      simp [Record.isBlocked, hashes]

theorem remember_follows {hash : String} {submission : Submission}
    {metadata : Option (String × Nat)}
    (made : rememberBrowserBackgroundWithdrawalTransaction record hash submission metadata =
      .ok next) : record.Keeps next ∨ (record.Drops next ∧ next.isBlocked = true) := by
  simp only [rememberBrowserBackgroundWithdrawalTransaction] at made
  split at made
  · cases made
  split at made
  · split at made
    · cases made
      exact .inl ⟨rfl, rfl, rfl, rfl, fun blocked => blocked, fun eligible => eligible⟩
    · cases made
  split at made
  · cases made
  split at made
  · cases made
  split at made
  · cases made
  · cases made
    obtain ⟨blocked, keeps | drops⟩ := withHash_follows record _ _ _ _
    · exact .inl keeps
    · exact .inr ⟨drops, blocked⟩

end Records

namespace World

section Prompts

variable {world : World}

theorem Valid.unique (valid : world.Valid) {prompt other : Prompt} (mem : prompt ∈ world.prompts)
    (mem' : other ∈ world.prompts)
    (same : prompt.submission.submissionId = other.submission.submissionId) : prompt = other :=
  List.inj_on_of_nodup_map valid.nodup mem mem' same

theorem prompt?_eq_some {submissionId : String} {prompt : Prompt}
    (found : world.prompt? submissionId = some prompt) :
    prompt ∈ world.prompts ∧ prompt.submission.submissionId = submissionId := by
  have mem := List.mem_of_find?_eq_some found
  have named := List.find?_some found
  exact ⟨mem, beq_iff_eq.mp named⟩

theorem mem_updatePrompt {submissionId : String} {change : Prompt → Prompt} {prompt : Prompt}
    (mem : prompt ∈ world.updatePrompt submissionId change) :
    ∃ old ∈ world.prompts, (old.submission.submissionId = submissionId ∧ prompt = change old) ∨
      (old.submission.submissionId ≠ submissionId ∧ prompt = old) := by
  rw [updatePrompt, List.mem_map] at mem
  obtain ⟨old, held, rfl⟩ := mem
  by_cases named : old.submission.submissionId = submissionId
  · exact ⟨old, held, .inl ⟨named, if_pos named⟩⟩
  · exact ⟨old, held, .inr ⟨named, if_neg named⟩⟩

theorem updatePrompt_nodup {submissionId : String} {change : Prompt → Prompt}
    (nodup : (world.prompts.map fun prompt => prompt.submission.submissionId).Nodup)
    (kept : ∀ prompt, (change prompt).submission = prompt.submission) :
    ((world.updatePrompt submissionId change).map fun prompt =>
      prompt.submission.submissionId).Nodup := by
  have ids : (world.updatePrompt submissionId change).map (fun prompt =>
      prompt.submission.submissionId) =
      world.prompts.map fun prompt => prompt.submission.submissionId := by
    rw [updatePrompt, List.map_map]
    apply List.map_congr_left
    intro prompt _
    by_cases named : prompt.submission.submissionId = submissionId
    · simp [named, kept]
    · simp [named]
  rw [ids]
  exact nodup

theorem updatePrompt_ne_nil {submissionId : String} {change : Prompt → Prompt}
    (some : world.updatePrompt submissionId change ≠ []) : world.prompts ≠ [] := by
  intro none
  apply some
  rw [updatePrompt, none, List.map_nil]

theorem updatePrompt_mem {submissionId : String} {change : Prompt → Prompt} {prompt : Prompt}
    (mem : prompt ∈ world.prompts) :
    (if prompt.submission.submissionId = submissionId then change prompt else prompt) ∈
      world.updatePrompt submissionId change := by
  rw [updatePrompt]
  exact List.mem_map_of_mem mem

/-- Every prompt is still there, changed or not. -/
theorem exists_updatePrompt (submissionId : String) (change : Prompt → Prompt) {old : Prompt}
    (kept : ∀ prompt, (change prompt).submission = prompt.submission)
    (mem : old ∈ world.prompts) : ∃ prompt ∈ world.updatePrompt submissionId change,
      prompt.submission = old.submission ∧
        (old.submission.submissionId = submissionId → prompt = change old) ∧
        (prompt = change old ∨ prompt = old) := by
  refine ⟨_, updatePrompt_mem mem, ?_⟩
  by_cases named : old.submission.submissionId = submissionId
  · rw [if_pos named]
    exact ⟨kept old, fun _ => rfl, .inl rfl⟩
  · rw [if_neg named]
    exact ⟨rfl, fun same => absurd same named, .inr rfl⟩

/-- What is known of a canceled prompt does not depend on its state. -/
theorem Valid.known_update (valid : world.Valid) {submissionId : String}
    {change : Prompt → Prompt}
    (kept : ∀ prompt, (change prompt).submission = prompt.submission) :
    ∀ other ∈ world.canceled, ∃ prompt ∈ world.updatePrompt submissionId change,
      prompt.submission.submissionId = other := by
  intro other mem
  obtain ⟨old, held, named⟩ := valid.known other mem
  obtain ⟨prompt, mem, same, -⟩ := exists_updatePrompt submissionId change kept held
  exact ⟨prompt, mem, by rw [same, named]⟩

end Prompts

section Steps

variable {world : World} {next : Record}

theorem Valid.keeps (valid : world.Valid) (keeps : world.record.Keeps next) :
    ({ world with record := next } : World).Valid where
  nodup := valid.nodup
  twice := by
    show next.preparedWithdrawal.submissionId = next.startSubmissionId
    rw [keeps.planId, keeps.submissionId, valid.twice]
  lower := by
    show next.startSubmissionId.isSome = true → ∀ sender, next.startSubmissionFrom = some sender →
      lowerCase sender = sender
    rw [keeps.submissionId, keeps.sender]
    exact valid.lower
  live := by
    show ∀ submissionId, next.startSubmissionId = some submissionId → ∃ prompt ∈ world.prompts,
      prompt.submission.submissionId = submissionId ∧ prompt.identity = next.liveIdentity
    rw [keeps.submissionId, keeps.identity]
    exact valid.live
  settled some := by
    have none := valid.settled some
    by_contra eligible
    rw [keeps.eligible (Bool.eq_true_of_not_eq_false eligible)] at none
    cases none
  blocked prompt mem able := by
    show next.startSubmissionId = _ ∨ _
    rw [keeps.submissionId]
    exact (valid.blocked prompt mem able).imp id keeps.blocked
  same := by
    show ∀ prompt ∈ world.prompts, _ → next.startSubmissionId.isSome = true →
      next.liveIdentity = prompt.identity
    rw [keeps.submissionId, keeps.identity]
    exact valid.same
  agree := valid.agree
  canceled := by
    show ∀ submissionId ∈ world.canceled, next.startSubmissionId ≠ _ ∧ _
    rw [keeps.submissionId]
    exact valid.canceled
  known := valid.known
  sent := valid.sent

/-- A claim may be taken out when every other prompt that can broadcast leaves a trace. -/
theorem Valid.drops (valid : world.Valid) (drops : world.record.Drops next)
    (traced : ∀ prompt ∈ world.prompts, prompt.mayBroadcast = true →
      next.isBlocked = true) : ({ world with record := next } : World).Valid where
  nodup := valid.nodup
  twice := drops.planId.trans drops.submissionId.symm
  lower live := by
    rw [show next.startSubmissionId = none from drops.submissionId] at live
    cases live
  live submissionId live := by
    rw [show next.startSubmissionId = none from drops.submissionId] at live
    cases live
  settled some := by
    have none := valid.settled some
    by_contra eligible
    rw [drops.eligible (Bool.eq_true_of_not_eq_false eligible)] at none
    cases none
  blocked prompt mem able := .inr (traced prompt mem able)
  same prompt mem able live := by
    rw [show next.startSubmissionId = none from drops.submissionId] at live
    cases live
  agree := valid.agree
  canceled submissionId mem := by
    refine ⟨?_, (valid.canceled submissionId mem).2⟩
    rw [show next.startSubmissionId = none from drops.submissionId]
    exact (Option.some_ne_none _).symm
  known := valid.known
  sent := valid.sent

/-- A cancellation finds no nonce, so its prompt has none. -/
theorem Valid.cancels (valid : world.Valid) {submissionId : String}
    (gone : world.record.startSubmissionId = none)
    (named : ∃ prompt ∈ world.prompts, prompt.submission.submissionId = submissionId ∧
      prompt.identity = none) :
    ({ world with canceled := submissionId :: world.canceled } : World).Valid where
  nodup := valid.nodup
  twice := valid.twice
  lower := valid.lower
  live := valid.live
  settled := valid.settled
  blocked := valid.blocked
  same := valid.same
  agree := valid.agree
  canceled other mem := by
    refine ⟨by rw [gone]; exact (Option.some_ne_none _).symm, fun prompt held id => ?_⟩
    rcases List.mem_cons.mp mem with rfl | mem
    · obtain ⟨canceled, mem, named, none⟩ := named
      rw [valid.unique held mem (id.trans named.symm)]
      exact none
    · exact (valid.canceled other mem).2 prompt held id
  known other mem := by
    rcases List.mem_cons.mp mem with rfl | mem
    · obtain ⟨prompt, mem, named, -⟩ := named
      exact ⟨prompt, mem, named⟩
    · exact valid.known other mem
  sent := valid.sent

theorem isFresh_ne {submissionId : String} (fresh : world.isFresh submissionId = true)
    {prompt : Prompt} (mem : prompt ∈ world.prompts) :
    prompt.submission.submissionId ≠ submissionId := by
  have each := List.all_eq_true.mp fresh prompt mem
  exact bne_iff_ne.mp each

/-- What a new prompt shares with those that can broadcast. -/
theorem Valid.takes_same (valid : world.Valid) {submissionId : String}
    (takes : world.record.Takes next submissionId) {prompt : Prompt}
    (mem : prompt ∈ world.prompts) (able : prompt.mayBroadcast = true) :
    next.isBlocked = true ∧ next.liveIdentity = prompt.identity := by
  rcases takes.fits with ⟨none, free⟩ | eligible | ⟨blocked, live, -, taken⟩
  · have known := valid.blocked prompt mem able
    rw [none, free] at known
    simp at known
  · rw [valid.settled (List.ne_nil_of_mem mem)] at eligible
    cases eligible
  · refine ⟨blocked, ?_⟩
    rw [taken (valid.lower live), valid.same prompt mem able live]

theorem Valid.takes (valid : world.Valid) {submissionId : String}
    (fresh : world.isFresh submissionId = true)
    (takes : world.record.Takes next submissionId) :
    ({ world with record := next, prompts := next.prompt submissionId :: world.prompts } :
      World).Valid where
  nodup := by
    show (submissionId :: world.prompts.map fun prompt => prompt.submission.submissionId).Nodup
    rw [List.nodup_cons, List.mem_map]
    refine ⟨?_, valid.nodup⟩
    rintro ⟨prompt, mem, named⟩
    exact isFresh_ne fresh mem named
  twice := takes.planId.trans takes.submissionId.symm
  lower _ := takes.lower
  live other live := by
    have same := Option.some.inj (live.symm.trans takes.submissionId)
    exact ⟨next.prompt submissionId, List.mem_cons_self, same.symm, rfl⟩
  settled _ := takes.eligible
  blocked prompt mem able := by
    rcases List.mem_cons.mp mem with rfl | mem
    · exact .inl takes.submissionId
    · exact .inr (valid.takes_same takes mem able).1
  same prompt mem able _ := by
    rcases List.mem_cons.mp mem with rfl | mem
    · rfl
    · exact (valid.takes_same takes mem able).2
  agree prompt mem other mem' able able' := by
    rcases List.mem_cons.mp mem with rfl | mem
    · rcases List.mem_cons.mp mem' with rfl | mem'
      · rfl
      · exact (valid.takes_same takes mem' able').2
    · rcases List.mem_cons.mp mem' with rfl | mem'
      · exact (valid.takes_same takes mem able).2.symm
      · exact valid.agree prompt mem other mem' able able'
  canceled other mem := by
    obtain ⟨known, held, named⟩ := valid.known other mem
    have differs : submissionId ≠ other := by
      rw [← named]
      exact (isFresh_ne fresh held).symm
    refine ⟨?_, fun prompt mem' id => ?_⟩
    · rw [show next.startSubmissionId = some submissionId from takes.submissionId]
      simpa using differs
    · rcases List.mem_cons.mp mem' with rfl | mem'
      · exact absurd id differs
      · exact (valid.canceled other mem).2 prompt mem' id
  known other mem := by
    obtain ⟨known, held, named⟩ := valid.known other mem
    exact ⟨known, List.mem_cons_of_mem _ held, named⟩
  sent prompt mem sent := by
    rcases List.mem_cons.mp mem with rfl | mem
    · cases sent
    · exact valid.sent prompt mem sent

/-- A change of the state of a prompt that lets it broadcast no more than before. -/
theorem Valid.changes (valid : world.Valid) {submissionId : String} {state : PromptState}
    (able : ∀ prompt ∈ world.prompts, prompt.submission.submissionId = submissionId →
      state ≠ .refused → prompt.mayBroadcast = true) :
    ({ world with prompts := world.updatePrompt submissionId fun prompt =>
      { prompt with state := state } } : World).Valid := by
  have before : ∀ prompt ∈ world.updatePrompt submissionId fun prompt =>
      { prompt with state := state }, ∃ old ∈ world.prompts,
        prompt.submission = old.submission ∧ prompt.identity = old.identity ∧
        (prompt.mayBroadcast = true → old.mayBroadcast = true) ∧
        (prompt.state = .sent → old.identity.isSome = true) := by
    intro prompt mem
    obtain ⟨old, held, ⟨named, rfl⟩ | ⟨other, rfl⟩⟩ := mem_updatePrompt mem
    · refine ⟨old, held, rfl, rfl, fun may => ?_, fun sent => ?_⟩
      · simp only [Prompt.mayBroadcast, Bool.and_eq_true, bne_iff_ne] at may
        exact able old held named may.2
      · have may := able old held named (by rw [show state = .sent from sent]; decide)
        simp only [Prompt.mayBroadcast, Bool.and_eq_true] at may
        exact may.1
    · exact ⟨prompt, held, rfl, rfl, id, valid.sent prompt held⟩
  refine ⟨?_, valid.twice, valid.lower, fun other live => ?_, fun some => ?_,
    fun prompt mem may => ?_, fun prompt mem may => ?_, fun prompt mem other mem' may may' => ?_,
    fun other mem => ⟨(valid.canceled other mem).1, fun prompt held named => ?_⟩,
    valid.known_update fun _ => rfl, fun prompt mem sent => ?_⟩
  · apply updatePrompt_nodup valid.nodup
    intro _
    rfl
  · obtain ⟨old, held, named, same⟩ := valid.live other live
    obtain ⟨prompt, mem, -, -, changed⟩ := exists_updatePrompt submissionId
      (fun prompt => { prompt with state := state }) (fun _ => rfl) held
    rcases changed with rfl | rfl
    · exact ⟨_, mem, named, same⟩
    · exact ⟨prompt, mem, named, same⟩
  · exact valid.settled (updatePrompt_ne_nil some)
  · obtain ⟨old, held, kept, -, able, -⟩ := before prompt mem
    rw [kept]
    exact valid.blocked old held (able may)
  · obtain ⟨old, held, -, kept, able, -⟩ := before prompt mem
    rw [kept]
    exact valid.same old held (able may)
  · obtain ⟨old, held, -, kept, able, -⟩ := before prompt mem
    obtain ⟨old', held', -, kept', able', -⟩ := before other mem'
    rw [kept, kept']
    exact valid.agree old held old' held' (able may) (able' may')
  · obtain ⟨old, held, kept, kept', -, -⟩ := before prompt held
    rw [kept] at named
    exact kept'.trans ((valid.canceled other mem).2 old held named)
  · obtain ⟨old, held, -, kept, -, sends⟩ := before prompt mem
    rw [kept]
    exact sends sent

/-- The metadata of the live claim are stored for its prompt too. -/
theorem Valid.saves (valid : world.Valid) {submissionId : String}
    (live : world.record.startSubmissionId = some submissionId)
    (kept : next.startSubmissionId = world.record.startSubmissionId)
    (plan : next.preparedWithdrawal.submissionId = world.record.preparedWithdrawal.submissionId)
    (flags : next.isBlocked = world.record.isBlocked ∧
      next.isEligible = world.record.isEligible)
    (lower : ∀ sender, next.startSubmissionFrom = some sender → lowerCase sender = sender)
    (stays : world.record.liveIdentity.isSome = true →
      next.liveIdentity = world.record.liveIdentity) :
    ({ world with record := next, prompts := world.updatePrompt submissionId fun prompt =>
      { prompt with identity := next.liveIdentity } } : World).Valid := by
  have claimed : world.record.startSubmissionId.isSome = true := by
    rw [live]
    rfl
  have shared : ∀ old ∈ world.prompts, old.mayBroadcast = true →
      next.liveIdentity = old.identity := by
    intro old held may
    have same := valid.same old held may claimed
    rw [← same]
    apply stays
    rw [same]
    simp only [Prompt.mayBroadcast, Bool.and_eq_true] at may
    exact may.1
  have before : ∀ prompt ∈ world.updatePrompt submissionId fun prompt =>
      { prompt with identity := next.liveIdentity },
      (prompt.mayBroadcast = true → next.liveIdentity = prompt.identity) ∧
      (prompt.submission.submissionId = submissionId ∨ prompt ∈ world.prompts) ∧
      (prompt.state = .sent → prompt.identity.isSome = true) := by
    intro prompt mem
    obtain ⟨old, held, ⟨named, rfl⟩ | ⟨other, rfl⟩⟩ := mem_updatePrompt mem
    · refine ⟨fun _ => rfl, .inl named, fun sent => ?_⟩
      have stored := valid.sent old held sent
      have may : old.mayBroadcast = true := by
        rw [Prompt.mayBroadcast, stored, show old.state = .sent from sent]
        rfl
      show next.liveIdentity.isSome = true
      rw [shared old held may, stored]
    · exact ⟨shared prompt held, .inr held, valid.sent prompt held⟩
  refine ⟨?_, ?_, fun _ => lower, fun other found => ?_, fun some => ?_,
    fun prompt mem may => ?_, fun prompt mem may _ => (before prompt mem).1 may,
    fun prompt mem other mem' may may' => ?_,
    fun other mem => ⟨?_, fun prompt held named => ?_⟩, valid.known_update fun _ => rfl,
    fun prompt mem => (before prompt mem).2.2⟩
  · apply updatePrompt_nodup valid.nodup
    intro _
    rfl
  · show next.preparedWithdrawal.submissionId = next.startSubmissionId
    rw [plan, kept, valid.twice]
  · have same : submissionId = other := by
      rw [show next.startSubmissionId = some other from found, live] at kept
      exact (Option.some.inj kept).symm
    subst same
    obtain ⟨old, held, named, -⟩ := valid.live submissionId live
    obtain ⟨prompt, mem, id, identity, -⟩ := exists_updatePrompt submissionId
      (fun prompt => { prompt with identity := next.liveIdentity }) (fun _ => rfl) held
    exact ⟨prompt, mem, by rw [id, named], by rw [identity named]⟩
  · show next.isEligible = false
    rw [flags.2]
    exact valid.settled (updatePrompt_ne_nil some)
  · show next.startSubmissionId = _ ∨ next.isBlocked = true
    rw [kept, flags.1]
    rcases (before prompt mem).2.1 with named | held
    · rw [named]
      exact .inl live
    · exact valid.blocked prompt held may
  · rw [← (before prompt mem).1 may, ← (before other mem').1 may']
  · show next.startSubmissionId ≠ some other
    rw [kept]
    exact (valid.canceled other mem).1
  · rcases (before prompt held).2.1 with id | old
    · exact absurd (named ▸ id ▸ live) (valid.canceled other mem).1
    · exact (valid.canceled other mem).2 prompt old named

theorem Valid.commit (valid : world.Valid) {made : Except String Record}
    {prompts : Record → List Prompt}
    (kept : ∀ record, made = .ok record →
      ({ world with record := record, prompts := prompts record } : World).Valid) :
    (world.commit made prompts).Valid := by
  cases made with
  | ok record => exact kept record rfl
  | error message => exact valid

/-- Only the live prompt may still lack a trace. -/
theorem Valid.traces (valid : world.Valid) (drops : world.record.Drops next)
    {prompt : Prompt} (mem : prompt ∈ world.prompts)
    (live : world.record.startSubmissionId = some prompt.submission.submissionId)
    (unable : ¬ prompt.mayBroadcast = true) :
    ({ world with record := next } : World).Valid := by
  apply valid.drops drops
  intro other held may
  rcases valid.blocked other held may with same | blocked
  · rw [live] at same
    have equal := valid.unique mem held (Option.some.inj same)
    exact absurd (equal ▸ may) unable
  · exact drops.blocked blocked

theorem Valid.step (valid : world.Valid) {action : Action} {later : World}
    (stepped : world.step action = some later) : later.Valid := by
  cases action with
  | claims expectedOperationId submissionId isFree =>
    rw [World.step] at stepped
    split at stepped
    case isTrue fresh =>
      cases stepped
      exact valid.commit fun record made => valid.takes fresh (claim_takes made)
    · cases stepped
  | replaces submissionId operationId expectedFrom =>
    rw [World.step] at stepped
    split at stepped
    case isTrue fresh =>
      cases stepped
      exact valid.commit fun record made => valid.takes fresh (replacement_takes made)
    · cases stepped
  | savesMetadata submission sender nonce =>
    cases stepped
    apply valid.commit
    intro record made
    obtain ⟨live, kept, plan, flags, lower, stays⟩ := metadata_saves made
    exact valid.saves live kept plan flags lower stays
  | marksAmbiguous submission =>
    cases stepped
    exact valid.commit fun record made => valid.keeps (ambiguous_keeps made)
  | refuses submissionId =>
    rw [World.step] at stepped
    split at stepped
    · cases stepped
      apply valid.changes
      intro prompt mem named differs
      exact absurd rfl differs
    · cases stepped
  | sends submissionId =>
    rw [World.step] at stepped
    split at stepped
    case isTrue ready =>
      cases stepped
      obtain ⟨prompt, found, able⟩ := (Option.any_eq_true _ _).mp ready
      obtain ⟨mem, named⟩ := prompt?_eq_some found
      apply valid.changes
      intro other held id _
      rw [valid.unique held mem (id.trans named.symm)]
      simp only [Bool.and_eq_true, beq_iff_eq] at able
      rw [Prompt.mayBroadcast, able.2, able.1]
      rfl
    · cases stepped
  | releases submission =>
    rw [World.step] at stepped
    split at stepped
    case isTrue ready =>
      cases stepped
      obtain ⟨prompt, found, refused⟩ := (Option.any_eq_true _ _).mp ready
      obtain ⟨mem, named⟩ := prompt?_eq_some found
      apply valid.commit
      intro record made
      obtain ⟨live, drops, -⟩ := release_drops made
      apply valid.traces drops mem (named ▸ live)
      rw [Prompt.mayBroadcast, eq_of_beq refused]
      simp
    · cases stepped
  | cancels submission isFree =>
    rw [World.step] at stepped
    split at stepped
    case h_1 record made =>
      cases stepped
      obtain ⟨live, drops, required⟩ := release_drops made
      obtain ⟨prompt, mem, named, identity⟩ := valid.live submission.submissionId live
      have none : prompt.identity = none := identity.trans (required rfl)
      have dropped : ({ world with record := record } : World).Valid := by
        apply valid.traces drops mem (named ▸ live)
        rw [Prompt.mayBroadcast, none]
        simp
      exact dropped.cancels drops.submissionId ⟨prompt, mem, named, none⟩
    · cases stepped
      exact valid
  | remembers hash submission metadata =>
    rw [World.step] at stepped
    split at stepped
    · cases stepped
      apply valid.commit
      intro record made
      rcases remember_follows made with keeps | ⟨drops, blocked⟩
      · exact valid.keeps keeps
      · exact valid.drops drops fun _ _ _ => blocked
    · cases stepped

end Steps

section Cancellations

variable {world later : World}

theorem commit_canceled (made : Except String Record) (prompts : Record → List Prompt) :
    (world.commit made prompts).canceled = world.canceled := by
  cases made with
  | ok record => rfl
  | error message => rfl

theorem step_canceled {action : Action} (stepped : world.step action = some later)
    {submissionId : String} (mem : submissionId ∈ world.canceled) :
    submissionId ∈ later.canceled := by
  cases action with
  | savesMetadata submission sender nonce =>
    cases stepped
    rw [commit_canceled]
    exact mem
  | marksAmbiguous submission =>
    cases stepped
    rw [commit_canceled]
    exact mem
  | cancels submission isFree =>
    rw [World.step] at stepped
    split at stepped
    · cases stepped
      exact List.mem_cons_of_mem _ mem
    · cases stepped
      exact mem
  | refuses submissionId =>
    rw [World.step] at stepped
    split at stepped
    · cases stepped
      exact mem
    · cases stepped
  | sends submissionId =>
    rw [World.step] at stepped
    split at stepped
    · cases stepped
      exact mem
    · cases stepped
  | claims | replaces | releases | remembers =>
    rw [World.step] at stepped
    split at stepped
    · cases stepped
      rw [commit_canceled]
      exact mem
    · cases stepped

end Cancellations

section Runs

/-- A record without a claim, before its first prompt. -/
def started (record : Record) : World := ⟨record, [], []⟩

/-- The claim of the prompt is in the record or in its plan. -/
def isLive (world : World) (prompt : Prompt) : Bool :=
  world.record.startSubmissionId == some prompt.submission.submissionId ||
    world.record.preparedWithdrawal.submissionId == some prompt.submission.submissionId

/-- One claim is live, and of the prompts that can broadcast at most one can execute, since
an account executes one transaction for each nonce. -/
structure Safe (world : World) : Prop where
  single : ∀ prompt ∈ world.prompts, ∀ other ∈ world.prompts, world.isLive prompt = true →
    world.isLive other = true → prompt = other
  agree : ∀ prompt ∈ world.prompts, ∀ other ∈ world.prompts, prompt.mayBroadcast = true →
    other.mayBroadcast = true → prompt.identity = other.identity
  once : ∀ executed : List Prompt,
    (∀ prompt ∈ executed, prompt ∈ world.prompts ∧ prompt.mayBroadcast = true) →
    (executed.map Prompt.identity).Nodup → executed.length ≤ 1

variable {record : Record} {world later : World} {allowed : World → Action → Prop}

theorem started_valid (free : record.startSubmissionId = none)
    (plan : record.preparedWithdrawal.submissionId = none) : (started record).Valid where
  nodup := List.nodup_nil
  twice := plan.trans free.symm
  lower live := by
    rw [show (started record).record.startSubmissionId = none from free] at live
    cases live
  live submissionId live := by
    rw [show (started record).record.startSubmissionId = none from free] at live
    cases live
  settled some := absurd rfl some
  blocked prompt mem := by cases mem
  same prompt mem := by cases mem
  agree prompt mem := by cases mem
  canceled submissionId mem := by cases mem
  known submissionId mem := by cases mem
  sent prompt mem := by cases mem

theorem Valid.safe (valid : world.Valid) : world.Safe where
  single prompt mem other mem' live live' := by
    have named : ∀ prompt : Prompt, world.isLive prompt = true →
        world.record.startSubmissionId = some prompt.submission.submissionId := by
      intro prompt live
      rw [isLive, valid.twice, Bool.or_self] at live
      exact eq_of_beq live
    have same := (named prompt live).symm.trans (named other live')
    exact valid.unique mem mem' (Option.some.inj same)
  agree := valid.agree
  once executed able distinct := by
    match executed with
    | [] => exact Nat.zero_le 1
    | [prompt] => exact Nat.le_refl 1
    | prompt :: other :: rest =>
      have first := able prompt (by simp)
      have second := able other (by simp)
      have same := valid.agree prompt first.1 other second.1 first.2 second.2
      simp [same] at distinct

theorem background_prompts_safe (free : record.startSubmissionId = none)
    (plan : record.preparedWithdrawal.submissionId = none)
    (run : StepRun step allowed (started record) world)
    (after : StepRun step allowed world later) :
    later.Safe ∧ ∀ submissionId ∈ world.canceled, ∀ prompt ∈ later.prompts,
      prompt.submission.submissionId = submissionId →
        prompt.mayBroadcast = false ∧ prompt.state ≠ .sent := by
  have valid : world.Valid := by
    apply run.invariant Valid (started_valid free plan)
    intro world action next valid _ stepped
    exact valid.step stepped
  have kept : later.Valid ∧ ∀ submissionId ∈ world.canceled, submissionId ∈ later.canceled := by
    apply after.invariant (fun later => later.Valid ∧
      ∀ submissionId ∈ world.canceled, submissionId ∈ later.canceled) ⟨valid, fun _ mem => mem⟩
    intro middle action next holds _ stepped
    exact ⟨holds.1.step stepped, fun submissionId mem =>
      step_canceled stepped (holds.2 submissionId mem)⟩
  refine ⟨kept.1.safe, fun submissionId mem prompt held named => ?_⟩
  have none := (kept.1.canceled submissionId (kept.2 submissionId mem)).2 prompt held named
  refine ⟨by simp [Prompt.mayBroadcast, none], fun sent => ?_⟩
  have some := kept.1.sent prompt held sent
  rw [none] at some
  cases some

/-- A balance that is set aside, with its proof. -/
def setAside : Record where
  noteId := some 7
  hasPlan := true
  isMutual := true
  hasFinalization := false
  hasBlocks := false
  independentWithdrawal := true
  phase := .parked
  chainStatus := .active
  startRecoveryPending := false
  startOperationId := none
  startSubmissionId := none
  startSubmissionFrom := none
  startSubmissionNonce := none
  startSubmissionOutcome := none
  startRetry := none
  startResolutionBlock := 0
  transactionHashes := []
  transactionAttempts := []
  startReplacementTransactionHashes := []
  dismissedStartSubmissionClaims := []
  supersededStartSubmissionClaims := []
  ambiguousStartReplacements := []
  resolvedStartClaims := []
  resolvedStartTransactionHistory := []
  preparedWithdrawal :=
    { phase := .prepared
      operationId := some "plan"
      hasProof := true
      submissionId := none
      submissionFrom := none
      submissionNonce := none
      submissionOutcome := none
      submissionNonceJournalRequired := false
      transactionHashes := []
      transactionAttempts := []
      ambiguousReplacements := []
      replacementOf := none }

def sampleSender : String := "0x00000000000000000000000000000000000000Ab"

/-- A preparation is canceled; the next prompt is sent, and another tab takes it over. -/
theorem background_prompts_safe_sample : ∃ world : World,
    world.prompts.map (fun prompt => (prompt.submission.submissionId, prompt.mayBroadcast)) =
      [("third", true), ("second", true), ("first", false)] ∧
    world.canceled = ["first"] ∧ world.Safe ∧ ∀ submissionId ∈ world.canceled,
      ∀ prompt ∈ world.prompts, prompt.submission.submissionId = submissionId →
        prompt.mayBroadcast = false ∧ prompt.state ≠ .sent := by
  obtain ⟨world, run, reached⟩ := exists_stepRun step (fun _ _ => true) (started setAside)
    [.claims "plan" "first" true, .cancels ⟨"first", some "plan"⟩ true,
      .claims "plan" "second" true, .savesMetadata ⟨"second", some "plan"⟩ sampleSender 7,
      .sends "second", .replaces "third" "other" sampleSender]
    (fun world => decide (world.prompts.map (fun prompt =>
      (prompt.submission.submissionId, prompt.mayBroadcast)) =
        [("third", true), ("second", true), ("first", false)] ∧
      world.canceled = ["first"])) (by decide)
  obtain ⟨prompts, canceled⟩ := of_decide_eq_true reached
  exact ⟨world, prompts, canceled, background_prompts_safe rfl rfl run .refl⟩

end Runs

end World

end ZkApi.Browser.Background
