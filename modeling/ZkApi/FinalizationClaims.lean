import ZkApi.EscapeFinalization

/-!
# What the finalization claims of an escape guarantee

Whatever the tabs do in whatever order, a tab is given a claim only while no other is live, a
new claim has a greater generation, a claim leaves with its own reference, and a hash stays
until it is released.
-/

namespace ZkApi.Browser.Escape

open Expiry

section Claims

/-- A wallet prompt that the record still waits for. -/
structure Claim where
  submissionId : String
  operationId : Option String
  generation : Nat
deriving DecidableEq

def Record.liveClaim (record : Record) : Option Claim :=
  record.finalizeSubmissionId.map fun submissionId =>
    ⟨submissionId, record.finalizeOperationId, record.finalizeGeneration⟩

/-- The claim that a tab was given. -/
def Reference.claim (reference : Reference) : Claim :=
  ⟨reference.submissionId, some reference.operationId, reference.generation⟩

def Record.savedHashes (record : Record) : List String :=
  record.finalizeTransactionHashes.getD []

def Action.submission : Action → Option Reference
  | .savesMetadata submission _ | .remembers _ submission _ | .releases submission _
  | .releasesReplacement submission _ _ | .resolvesChallenged submission _ _
  | .marksAmbiguous submission _ => submission
  | _ => none

/-- The operation names exactly this claim. -/
def Action.carries (action : Action) (claim : Claim) : Bool :=
  action.submission.any fun reference => reference.submissionId == claim.submissionId &&
    some reference.operationId == claim.operationId && reference.generation == claim.generation

def Action.sanitizes : Action → Bool
  | .closes .. => true
  | _ => false

/-- The operations that may end this claim. -/
def Action.mayRemove (action : Action) (record : Record) (claim : Claim) : Bool :=
  action.carries claim || decide (action = .authorizesRetry ∧ record.phase = .ambiguous) ||
    action.sanitizes

/-- The operations that may drop this hash. -/
def Action.mayDrop (action : Action) (hash : String) : Bool :=
  action.sanitizes ||
    match action with
    | .releases _ (some other) => lowerCase other == hash
    | _ => false

/-- A claim of this step is the first of a prompt, not its replacement. -/
def Action.isFirstClaim : Action → Bool
  | .claims .. => true
  | _ => false

/-- A claim is the only operation that gives its tab something. -/
def Action.isClaim : Action → Bool
  | .claims .. | .claimsReplacement .. => true
  | _ => false

/-- A closed record waits for no prompt. -/
def Record.Valid (record : Record) : Prop :=
  record.phase = .closed → record.finalizeSubmissionId = none

/-- What a step of the record guarantees. -/
structure Sound (record : Record) (action : Action) (next : Record) : Prop where
  grows : record.finalizeGeneration ≤ next.finalizeGeneration
  issued : ∀ claim, next.liveClaim = some claim → record.liveClaim ≠ some claim →
    record.liveClaim = none ∧ record.finalizeGeneration < claim.generation ∧
      claim.generation = next.finalizeGeneration ∧
      (action.isFirstClaim = true → record.hashes = []) ∧
      ∃ reference, action.answer record = some (.claimed reference) ∧ reference.claim = claim
  answered : ∀ reference, action.answer record = some (.claimed reference) →
    record.liveClaim = none ∧ next.liveClaim = some reference.claim ∧
      reference.identity = record.identity
  removed : ∀ claim, record.liveClaim = some claim → next.liveClaim ≠ some claim →
    action.mayRemove record claim = true
  kept : ∀ hash ∈ record.savedHashes, lowerCase hash = hash →
    hash ∈ next.savedHashes ∨ action.mayDrop hash = true
  closed : record.phase = .closed → next.phase = .closed
  sealed : record.Valid → action.isFinal = true → next.Valid

variable {record next : Record} {action : Action}

theorem Record.liveClaim_none : record.liveClaim = none ↔ record.finalizeSubmissionId = none := by
  rw [Record.liveClaim, Option.map_eq_none_iff]

/-- The claim of the record is the one that the operation names. -/
theorem liveClaim_of_matches {submission : Option Reference}
    (same : matchesFinalizationClaim record submission = true) :
    ∃ reference, submission = some reference ∧ record.liveClaim =
      some ⟨reference.submissionId, some reference.operationId, reference.generation⟩ := by
  cases submission with
  | none => cases same
  | some reference =>
    refine ⟨reference, rfl, ?_⟩
    simp only [matchesFinalizationClaim, Option.any_some, Bool.and_eq_true, beq_iff_eq] at same
    obtain ⟨⟨⟨⟨-, live⟩, operation⟩, generation⟩, -⟩ := same
    rw [Record.liveClaim, live, operation, generation]
    rfl

theorem carries_of_matches {submission : Option Reference} (named : action.submission = submission)
    (same : matchesFinalizationClaim record submission = true) {claim : Claim}
    (live : record.liveClaim = some claim) : action.mayRemove record claim = true := by
  obtain ⟨reference, rfl, found⟩ := liveClaim_of_matches same
  rw [found, Option.some.injEq] at live
  subst live
  simp [Action.mayRemove, Action.carries, named]

theorem Action.answer_ne (plain : action.isClaim = false) (reference : Reference) :
    action.answer record ≠ some (.claimed reference) := by
  have nothing (made : Except String Record) :
      (made.map fun next => (next, (none : Option Claimed))).toOption.bind Prod.snd = none := by
    cases made <;> rfl
  cases action with
  | claims => cases plain
  | claimsReplacement => cases plain
  | _ => simp [Action.answer, Action.apply, nothing]

/-- An operation that leaves the claim. -/
theorem Sound.quiet (silent : ∀ reference, action.answer record ≠ some (.claimed reference))
    (claim : next.liveClaim = record.liveClaim)
    (generation : next.finalizeGeneration = record.finalizeGeneration)
    (kept : ∀ hash ∈ record.savedHashes, lowerCase hash = hash →
      hash ∈ next.savedHashes ∨ action.mayDrop hash = true)
    (closed : record.phase = .closed → next.phase = .closed)
    (opened : action.isFinal = true → next.phase = .closed → record.phase = .closed) :
    Sound record action next where
  grows := generation.ge
  issued _ live fresh := absurd (claim ▸ live) fresh
  answered reference told := absurd told (silent reference)
  removed _ live gone := absurd (claim.trans live) gone
  kept := kept
  closed := closed
  sealed valid final later := by
    rw [← Record.liveClaim_none, claim, Record.liveClaim_none]
    exact valid (opened final later)

/-- An operation that takes the claim out. -/
theorem Sound.ends (silent : ∀ reference, action.answer record ≠ some (.claimed reference))
    (gone : next.finalizeSubmissionId = none)
    (generation : next.finalizeGeneration = record.finalizeGeneration)
    (may : ∀ claim, record.liveClaim = some claim → action.mayRemove record claim = true)
    (kept : ∀ hash ∈ record.savedHashes, lowerCase hash = hash →
      hash ∈ next.savedHashes ∨ action.mayDrop hash = true)
    (closed : record.phase = .closed → next.phase = .closed) : Sound record action next where
  grows := generation.ge
  issued other live := by
    rw [Record.liveClaim_none.mpr gone] at live
    cases live
  answered reference told := absurd told (silent reference)
  removed other live _ := may other live
  kept := kept
  closed := closed
  sealed _ _ _ := gone

/-- An operation that puts a claim in and gives it to its tab. -/
theorem Sound.issues {submissionId operationId : String}
    (free : record.finalizeSubmissionId = none)
    (told : action.answer record = some (.claimed (record.reference submissionId operationId)))
    (live : next.liveClaim = some (record.reference submissionId operationId).claim)
    (generation : next.finalizeGeneration = record.finalizeGeneration + 1)
    (hashes : next.savedHashes = record.savedHashes) (open' : record.phase ≠ .closed)
    (waits : next.phase ≠ .closed) (first : action.isFirstClaim = true → record.hashes = []) :
    Sound record action next where
  grows := by omega
  issued claim found _ := by
    rw [live, Option.some.injEq] at found
    subst found
    exact ⟨Record.liveClaim_none.mpr free, Nat.lt_succ_self _, generation.symm, first, _, told, rfl⟩
  answered reference given := by
    rw [told, Option.some.injEq, Claimed.claimed.injEq] at given
    subst given
    exact ⟨Record.liveClaim_none.mpr free, live, rfl⟩
  removed claim found := by
    rw [Record.liveClaim_none.mpr free] at found
    cases found
  kept hash member _ := .inl (hashes ▸ member)
  closed closed := absurd closed open'
  sealed _ _ later := absurd later waits

theorem Sound.refl (silent : ∀ reference, action.answer record ≠ some (.claimed reference)) :
    Sound record action record :=
  Sound.quiet silent rfl rfl (fun _ member _ => .inl member) id fun _ closed => closed

end Claims

section Steps

variable {record next : Record}

theorem claims_sound {ownerId submissionId operationId : String} {claimed : Claimed}
    (made : claimBrowserWithdrawalFinalization record ownerId submissionId operationId =
      .ok (next, claimed)) :
    Sound record (.claims ownerId submissionId operationId) next := by
  have told : (Action.claims ownerId submissionId operationId).answer record = some claimed := by
    rw [Action.answer, Action.apply, made]
    rfl
  rw [claimBrowserWithdrawalFinalization] at made
  split at made
  · cases made
  case isFalse phase =>
    split at made
    · cases made
    · split at made
      · cases made
        exact Sound.refl fun reference given => by
          rw [told] at given
          cases given
      case h_2 empty =>
        split at made
        · cases made
        · split at made
          · cases made
          case isFalse free =>
            cases made
            have open' : record.phase ≠ .closed := by
              rintro closed
              simp [closed] at phase
            exact Sound.issues (Option.not_isSome_iff_eq_none.mp free) told rfl rfl rfl open'
              Phase.noConfusion fun _ => empty

theorem claimsReplacement_sound {ownerId submissionId operationId expectedFrom : String}
    {claimed : Claimed}
    (made : claimBrowserWithdrawalFinalizationReplacement record ownerId submissionId operationId
      expectedFrom = .ok (next, claimed)) :
    Sound record (.claimsReplacement ownerId submissionId operationId expectedFrom) next := by
  have told : (Action.claimsReplacement ownerId submissionId operationId expectedFrom).answer
      record = some claimed := by
    rw [Action.answer, Action.apply, made]
    rfl
  rw [claimBrowserWithdrawalFinalizationReplacement] at made
  split at made
  · cases made
  case isFalse available =>
    have open' : record.phase ≠ .closed := by
      intro closed
      exact available (.inl (by simp [closed]))
    split at made
    · cases made
    case isFalse free =>
      dsimp only at made
      split at made
      · split at made
        · cases made
        · split at made
          · cases made
          · cases made
            exact Sound.issues (Option.not_isSome_iff_eq_none.mp free) told rfl rfl rfl open' open'
              Bool.noConfusion
      · cases made
      · cases made

theorem savesMetadata_sound {submission : Option Reference} {metadata : Option Metadata}
    (made : rememberBrowserWithdrawalFinalizationSubmissionMetadata record submission metadata =
      .ok next) : Sound record (.savesMetadata submission metadata) next := by
  rw [rememberBrowserWithdrawalFinalizationSubmissionMetadata] at made
  split at made
  · cases made
  · split at made
    · cases made
    · split at made
      · cases made
      · cases made
        exact Sound.quiet (Action.answer_ne rfl) rfl rfl (fun _ member _ => .inl member) id fun _ closed => closed

/-- A phase that is not terminal does not become `closed` here. -/
theorem Record.closed_of_terminal {phase : Phase}
    (later : (if record.phase.isTerminal then record.phase else phase) = .closed)
    (running : phase ≠ .closed) : record.phase = .closed := by
  split at later
  · exact later
  · exact absurd later running

theorem Record.mem_hashes {hash : String} (member : hash ∈ record.savedHashes) :
    hash ∈ record.hashes := by
  cases listed : record.finalizeTransactionHashes with
  | none =>
    rw [Record.savedHashes, listed] at member
    cases member
  | some hashes =>
    rw [Record.savedHashes, listed] at member
    rwa [Record.hashes, listed]

theorem Record.mem_remaining {hash dropped : String} (member : hash ∈ record.savedHashes)
    (other : lowerCase hash ≠ lowerCase dropped) :
    hash ∈ record.hashes.filter fun saved => lowerCase saved != lowerCase dropped := by
  rw [List.mem_filter]
  exact ⟨Record.mem_hashes member, by simpa using other⟩

theorem Record.mem_hashesWith {hash transactionHash : String} (member : hash ∈ record.savedHashes)
    (lower : lowerCase hash = hash) : hash ∈ record.hashesWith transactionHash := by
  have saved := Record.mem_hashes member
  rw [Record.hashesWith, List.mem_eraseDups]
  exact List.mem_map.mpr ⟨hash, List.mem_append_left _ saved, lower⟩

theorem remembers_sound {transactionHash : String} {submission : Option Reference}
    {metadata : Option Metadata}
    (made : rememberBrowserWithdrawalFinalization record transactionHash submission metadata =
      .ok next) : Sound record (.remembers transactionHash submission metadata) next := by
  unfold rememberBrowserWithdrawalFinalization at made
  split at made
  · cases made
  · split at made
    · cases made
    · split at made
      · cases made
      · dsimp only at made
        have closed (terminal : record.phase = .closed) :
            (if record.phase.isTerminal then record.phase else .finalizing) = .closed := by
          rw [terminal]
          rfl
        split at made
        case isTrue same =>
          cases made
          exact Sound.ends (Action.answer_ne rfl) rfl rfl (fun claim live => carries_of_matches rfl same live)
            (fun hash member lower => .inl (Record.mem_hashesWith member lower)) closed
        case isFalse =>
          cases made
          exact Sound.quiet (Action.answer_ne rfl) rfl rfl
            (fun hash member lower => .inl (Record.mem_hashesWith member lower)) closed
            fun _ later => Record.closed_of_terminal later Phase.noConfusion

theorem releases_sound {submission : Option Reference} {transactionHash : Option String}
    (made : releaseBrowserWithdrawalFinalization record submission transactionHash = .ok next) :
    Sound record (.releases submission transactionHash) next := by
  cases transactionHash with
  | some hash =>
    simp only [releaseBrowserWithdrawalFinalization] at made
    split at made
    · cases made
    · cases made
      refine Sound.quiet (Action.answer_ne rfl) rfl rfl ?_ ?_ ?_
      · intro other member lower
        by_cases dropped : lowerCase hash = other
        · exact .inr (by simp [Action.mayDrop, dropped])
        · have remains := Record.mem_remaining member (lower.trans_ne (Ne.symm dropped))
          exact .inl (by rwa [Record.savedHashes, if_neg (List.ne_nil_of_mem remains)])
      · intro closed
        rw [closed]
        rfl
      · intro _ later
        apply Record.closed_of_terminal later
        split
        · exact Phase.noConfusion
        · split
          · split <;> exact Phase.noConfusion
          · exact Phase.noConfusion
  | none =>
    simp only [releaseBrowserWithdrawalFinalization] at made
    split at made
    · cases made
    case isFalse same =>
      cases made
      refine Sound.ends (Action.answer_ne rfl) rfl rfl ?_ ?_ ?_
      · intro claim live
        exact carries_of_matches rfl (Bool.eq_true_of_not_eq_false same) live
      · intro hash member _
        have saved := Record.mem_hashes member
        exact .inl (by rwa [Record.savedHashes, if_neg (List.ne_nil_of_mem saved)])
      · intro closed
        rw [closed]
        rfl

theorem missesReceipts_sound {expectedTransactionHashes : List String}
    (made : markBrowserWithdrawalFinalizationMissingReceipts record expectedTransactionHashes =
      .ok next) : Sound record (.missesReceipts expectedTransactionHashes) next := by
  rw [markBrowserWithdrawalFinalizationMissingReceipts] at made
  split at made
  · cases made
    exact Sound.refl (Action.answer_ne rfl)
  case isFalse running =>
    split at made
    · cases made
    · split at made
      · cases made
        exact Sound.refl (Action.answer_ne rfl)
      · cases made
        refine Sound.quiet (Action.answer_ne rfl) rfl rfl (fun _ member _ => .inl member) ?_ fun _ => Phase.noConfusion
        intro closed
        exact absurd (by rw [closed]; rfl) running

theorem releasesReplacement_sound {submission : Option Reference} {replacementNonce : Option Nat}
    {message : Option String}
    (made : releaseBrowserWithdrawalFinalizationReplacementClaim record submission
      replacementNonce message = .ok next) :
    Sound record (.releasesReplacement submission replacementNonce message) next := by
  unfold releaseBrowserWithdrawalFinalizationReplacementClaim at made
  split at made
  · split at made
    · cases made
    case isFalse same =>
      cases made
      refine Sound.ends (Action.answer_ne rfl) rfl rfl ?_ ?_ ?_
      · intro claim live
        exact carries_of_matches rfl (Bool.eq_true_of_not_eq_false same) live
      · exact fun _ member _ => .inl member
      · intro closed
        rw [closed]
        rfl
  · cases made

theorem resolvesChallenged_sound (valid : record.Valid) {submission : Option Reference}
    {expectedRevision observedBlock : Option Nat}
    (made : resolveBrowserChallengedFinalization record submission expectedRevision observedBlock =
      .ok next) :
    Sound record (.resolvesChallenged submission expectedRevision observedBlock) next := by
  unfold resolveBrowserChallengedFinalization at made
  split at made
  · split at made
    · cases made
    case isFalse checked =>
      simp only [not_or, Bool.not_eq_false] at checked
      obtain ⟨-, -, -, -, same⟩ := checked
      cases made
      refine Sound.ends (Action.answer_ne rfl) rfl rfl ?_ ?_ ?_
      · exact fun claim live => carries_of_matches rfl same live
      · exact fun _ member _ => .inl member
      · intro closed
        -- a closed record waits for no prompt, so there is none to resolve
        obtain ⟨reference, -, live⟩ := liveClaim_of_matches same
        rw [Record.liveClaim_none.mpr (valid closed)] at live
        cases live
  · cases made

theorem marksAmbiguous_sound {submission : Option Reference} {message : Option String}
    (made : markBrowserWithdrawalFinalizationAmbiguous record submission message = .ok next) :
    Sound record (.marksAmbiguous submission message) next := by
  rw [markBrowserWithdrawalFinalizationAmbiguous] at made
  split at made
  · cases made
  case isFalse running =>
    cases made
    refine Sound.quiet (Action.answer_ne rfl) rfl rfl (fun _ member _ => .inl member) ?_ fun _ => Phase.noConfusion
    intro closed
    exact absurd (by rw [closed]; rfl) running

theorem authorizesRetry_sound
    (made : authorizeBrowserWithdrawalFinalizationRetry record = .ok next) :
    Sound record .authorizesRetry next := by
  unfold authorizeBrowserWithdrawalFinalizationRetry at made
  split at made
  · cases made
  · split at made
    · cases made
    case isFalse checked =>
      simp only [not_or, not_not] at checked
      cases made
      refine Sound.ends (Action.answer_ne rfl) rfl rfl ?_ ?_ ?_
      · intro claim _
        simp [Action.mayRemove, checked.1]
      · exact fun _ member _ => .inl member
      · intro closed
        rw [checked.1] at closed
        cases closed

theorem closes_sound {lastObservedBlock : Nat} {expectedRevision : Option Nat}
    (made : updateBrowserWithdrawal record (some .closed) .closed lastObservedBlock true
      expectedRevision = .ok next) :
    Sound record (.closes lastObservedBlock expectedRevision) next := by
  rw [updateBrowserWithdrawal] at made
  split at made
  · cases made
  · split at made
    · cases made
    · cases made
      refine Sound.ends (Action.answer_ne rfl) rfl rfl ?_ ?_ ?_
      · intro claim _
        simp [Action.mayRemove, Action.sanitizes]
      · exact fun _ _ _ => .inr rfl
      · exact fun _ => rfl

theorem observes_sound {phase : Option Phase} {chainStatus : ChainStatus}
    {lastObservedBlock : Nat} {expectedRevision : Option Nat}
    (made : updateBrowserWithdrawal record phase chainStatus lastObservedBlock false
      expectedRevision = .ok next) :
    Sound record (.observes phase chainStatus lastObservedBlock expectedRevision) next := by
  rw [updateBrowserWithdrawal] at made
  split at made
  · cases made
  · split at made
    · cases made
    case isFalse forward =>
      cases made
      refine Sound.quiet (Action.answer_ne rfl) rfl rfl (fun _ member _ => .inl member) ?_ ?_
      · intro closed
        cases phase with
        | none => exact closed
        | some phase =>
          by_contra moved
          exact forward ⟨closed, by simpa using moved⟩
      · intro final later
        cases phase with
        | none => exact later
        | some phase =>
          obtain rfl : phase = .closed := later
          cases final

end Steps

section Runs

variable {start record next later : Record} {action : Action}

/-- What an operation of the store gives the machine. -/
theorem map_eq_ok {α : Type} {answer : α → Record × Option Claimed} {made : Except String α}
    {result : Record × Option Claimed} (applied : made.map answer = .ok result) :
    ∃ value, made = .ok value ∧ (answer value).1 = result.1 := by
  cases made with
  | error message => cases applied
  | ok value => exact ⟨value, rfl, congrArg Prod.fst (Except.ok.inj applied)⟩

theorem Record.Valid.sound (valid : record.Valid)
    (taken : record.step action = some next) : Sound record action next := by
  obtain rfl := Option.some.inj taken
  cases applied : action.apply record with
  | error message =>
    refine Sound.refl fun reference told => ?_
    rw [Action.answer, applied] at told
    cases told
  | ok result =>
    show Sound record action result.1
    cases action with
    | claims ownerId submissionId operationId =>
      obtain ⟨_, made, same⟩ := map_eq_ok applied
      exact same ▸ claims_sound made
    | claimsReplacement ownerId submissionId operationId expectedFrom =>
      obtain ⟨_, made, same⟩ := map_eq_ok applied
      exact same ▸ claimsReplacement_sound made
    | savesMetadata submission metadata =>
      obtain ⟨_, made, same⟩ := map_eq_ok applied
      exact same ▸ savesMetadata_sound made
    | remembers transactionHash submission metadata =>
      obtain ⟨_, made, same⟩ := map_eq_ok applied
      exact same ▸ remembers_sound made
    | releases submission transactionHash =>
      obtain ⟨_, made, same⟩ := map_eq_ok applied
      exact same ▸ releases_sound made
    | missesReceipts expectedTransactionHashes =>
      obtain ⟨_, made, same⟩ := map_eq_ok applied
      exact same ▸ missesReceipts_sound made
    | releasesReplacement submission replacementNonce message =>
      obtain ⟨_, made, same⟩ := map_eq_ok applied
      exact same ▸ releasesReplacement_sound made
    | resolvesChallenged submission expectedRevision observedBlock =>
      obtain ⟨_, made, same⟩ := map_eq_ok applied
      exact same ▸ resolvesChallenged_sound valid made
    | marksAmbiguous submission message =>
      obtain ⟨_, made, same⟩ := map_eq_ok applied
      exact same ▸ marksAmbiguous_sound made
    | authorizesRetry =>
      obtain ⟨_, made, same⟩ := map_eq_ok applied
      exact same ▸ authorizesRetry_sound made
    | closes lastObservedBlock expectedRevision =>
      obtain ⟨_, made, same⟩ := map_eq_ok applied
      exact same ▸ closes_sound made
    | observes phase chainStatus lastObservedBlock expectedRevision =>
      obtain ⟨_, made, same⟩ := map_eq_ok applied
      exact same ▸ observes_sound made

/-- The operations of the tabs in some order. -/
def Record.Follows (start record : Record) : Prop :=
  StepRun Record.step (fun _ action => action.isFinal = true) start record

theorem Record.Follows.valid (follows : start.Follows record) (valid : start.Valid) :
    record.Valid := by
  apply StepRun.invariant follows Record.Valid valid
  intro record action next valid final taken
  exact (valid.sound taken).sealed valid final

theorem Record.Follows.trans (first : start.Follows record) (second : record.Follows later) :
    start.Follows later := by
  induction second with
  | refl => exact first
  | step action _ final taken ih => exact ih.step action final taken

/-- What every later run of the record guarantees. -/
structure Record.Guarded (record : Record) : Prop where
  sound : ∀ action next, record.step action = some next → Sound record action next
  grows : ∀ later, record.Follows later → record.finalizeGeneration ≤ later.finalizeGeneration
  closed : ∀ later, record.Follows later → record.phase = .closed → later.phase = .closed
  live : ∀ claim later, record.liveClaim = some claim →
    StepRun Record.step (fun record action => action.isFinal = true ∧
      action.mayRemove record claim = false) record later → later.liveClaim = some claim
  alone : ∀ claim later (action : Action) reference, record.liveClaim = some claim →
    StepRun Record.step (fun record action => action.isFinal = true ∧
      action.mayRemove record claim = false) record later →
    action.answer later ≠ some (.claimed reference)
  kept : ∀ hash later, hash ∈ record.savedHashes → lowerCase hash = hash →
    StepRun Record.step (fun _ action => action.isFinal = true ∧
      action.mayDrop hash = false) record later → hash ∈ later.savedHashes
  remembered : ∀ transactionHash submission metadata next,
    rememberBrowserWithdrawalFinalization record transactionHash submission metadata = .ok next →
    lowerCase transactionHash ∈ next.savedHashes

theorem Record.Valid.follows_grows (valid : record.Valid) (follows : record.Follows later) :
    record.finalizeGeneration ≤ later.finalizeGeneration ∧
      (record.phase = .closed → later.phase = .closed) := by
  induction follows with
  | refl => exact ⟨le_rfl, id⟩
  | step action follows final taken ih =>
    have sound := (Record.Follows.valid follows valid).sound taken
    exact ⟨ih.1.trans sound.grows, fun closed => sound.closed (ih.2 closed)⟩

theorem Record.Valid.stays_live (valid : record.Valid) {claim : Claim}
    (live : record.liveClaim = some claim)
    (run : StepRun Record.step (fun record action => action.isFinal = true ∧
      action.mayRemove record claim = false) record later) :
    later.Valid ∧ later.liveClaim = some claim := by
  apply StepRun.invariant run (fun record => record.Valid ∧ record.liveClaim = some claim)
  · exact ⟨valid, live⟩
  · rintro record action next ⟨valid, live⟩ ⟨final, spared⟩ taken
    have sound := valid.sound taken
    refine ⟨sound.sealed valid final, ?_⟩
    by_contra gone
    rw [sound.removed claim live gone] at spared
    cases spared

theorem Record.Valid.stays_saved (valid : record.Valid) {hash : String}
    (member : hash ∈ record.savedHashes) (lower : lowerCase hash = hash)
    (run : StepRun Record.step (fun _ action => action.isFinal = true ∧
      action.mayDrop hash = false) record later) :
    later.Valid ∧ hash ∈ later.savedHashes := by
  apply StepRun.invariant run (fun record => record.Valid ∧ hash ∈ record.savedHashes)
  · exact ⟨valid, member⟩
  · rintro record action next ⟨valid, member⟩ ⟨final, spared⟩ taken
    have sound := valid.sound taken
    refine ⟨sound.sealed valid final, ?_⟩
    rcases sound.kept hash member lower with stays | dropped
    · exact stays
    · rw [spared] at dropped
      cases dropped

theorem mem_savedHashes_of_remember {transactionHash : String} {submission : Option Reference}
    {metadata : Option Metadata}
    (made : rememberBrowserWithdrawalFinalization record transactionHash submission metadata =
      .ok next) : lowerCase transactionHash ∈ next.savedHashes := by
  have listed : lowerCase transactionHash ∈ record.hashesWith transactionHash := by
    rw [Record.hashesWith, List.mem_eraseDups, List.map_append]
    exact List.mem_append_right _ (List.mem_singleton.mpr rfl)
  unfold rememberBrowserWithdrawalFinalization at made
  split at made
  · cases made
  · split at made
    · cases made
    · split at made
      · cases made
      · dsimp only at made
        split at made <;>
          (cases made
           exact listed)

/-- Every state of a record that was open at its start guards its finalization claims. -/
theorem Record.finalization_guarded (open' : start.phase ≠ .closed)
    (follows : start.Follows record) : record.Guarded where
  sound _ _ taken := (follows.valid fun closed => absurd closed open').sound taken
  grows _ further := ((follows.valid fun closed => absurd closed open').follows_grows further).1
  closed _ further := ((follows.valid fun closed => absurd closed open').follows_grows further).2
  live _ _ live run := ((follows.valid fun closed => absurd closed open').stays_live live run).2
  alone claim later action reference live run told := by
    obtain ⟨valid, stays⟩ :=
      (follows.valid fun closed => absurd closed open').stays_live live run
    obtain ⟨free, -⟩ := (valid.sound rfl).answered reference told
    rw [stays] at free
    cases free
  kept _ _ member lower run :=
    ((follows.valid fun closed => absurd closed open').stays_saved member lower run).2
  remembered _ _ _ _ made := mem_savedHashes_of_remember made

/-- An escape that nobody has finalized. -/
def pendingEscape : Record where
  identity := ⟨"zkapi:1:0xab:7", "zkapi", 1, "0xAB", 7, "0xCD"⟩
  phase := .pending
  chainStatus := .pendingWithdrawal
  startBlockNumber := 10
  lastObservedBlock := 12
  clearanceReserved := false
  planReserved := false
  finalizeTransactionHash := none
  finalizeTransactionHashes := none
  finalizeAttempts := []
  finalizeOperationId := none
  finalizeGeneration := 0
  finalizeSubmissionId := none
  finalizeSubmissionOwner := none
  finalizeSubmissionFrom := none
  finalizeSubmissionNonce := none
  finalizeSubmissionError := none
  finalizeSubmissionOutcome := none
  finalizeReplacementOf := []
  concurrentFinalizationObserved := false
  ambiguousFinalizationReplacements := []
  ambiguousFinalizationSubmissions := []
  dismissedFinalizationClaims := []
  revision := 1

/-- A prompt that becomes ambiguous, the retry that the user allows and the second claim. -/
theorem Record.finalization_guarded_sample : ∃ record : Record,
    record.liveClaim = some ⟨"second", some "operation", 2⟩ ∧ record.Guarded := by
  obtain ⟨record, run, live⟩ := exists_stepRun Record.step (fun _ action => action.isFinal)
    pendingEscape
    [.claims "tab" "first" "operation",
      .marksAmbiguous (some ⟨⟨"zkapi:1:0xab:7", "zkapi", 1, "0xab", 7, "0xcd"⟩, "first",
        "operation", 1⟩) none, .authorizesRetry, .claims "other" "second" "unused"]
    (fun record => decide (record.liveClaim = some ⟨"second", some "operation", 2⟩))
    (by decide)
  exact ⟨record, of_decide_eq_true live, Record.finalization_guarded Phase.noConfusion run⟩

end Runs

end ZkApi.Browser.Escape
