import ZkApi.BrowserDeposits

/-!
# Wallet prompts of deposits

A prompt that a tab has claimed may be broadcast at any time until it is resolved.  As
long as no release empties a plan that an older prompt may still fund, the wallet keeps
the slot, the secret and the amount of every unresolved prompt.
-/

namespace ZkApi.Browser.Deposits

section Machine

/-- The wallet, the prompts that were claimed, those that were rejected or reverted or
whose nonce was used up, and the slots that are finally taken. -/
structure World where
  wallet : Wallet
  prompts : List Submission
  resolved : List String
  taken : List (Nat × Nat × Felt252)
deriving DecidableEq

inductive Action where
  | prepares (amount : Nat) (generated : Option Generated)
  | refreshes (amount noteId : Nat)
  | claims (submissionId : String)
  | claimsReplacement (expectedFrom submissionId : String)
  | remembersMetadata (submission : Submission) (sender : String) (nonce : Nat)
  | remembersTransaction (transactionHash : String) (submission : Submission)
      (metadata : Option (String × Nat))
  | retryable (expectedTransactionHash : Option String) (submission : Option Submission)
  | missesReceipts (expectedTransactionHashes : List String)
  | releasesReplacement (submission : Submission)
  | marksAmbiguous (submission : Submission)
  | marksUnknown
  | authorizesRetry
  | resolvesConflict (expected : Expected)
  | confirms (operationId : String) (note : ConfirmedNote) (commitment : Option Felt252)
  | resolves (submissionId : String)
  | takes (slot amount : Nat) (commitment : Felt252)
deriving DecidableEq

/-- A call that throws leaves the wallet. -/
def World.commit (world : World) (made : Except BrowserError Wallet) : World :=
  match made with
  | .ok wallet => { world with wallet := wallet }
  | .error _ => world

def World.prompt (world : World) (made : Except BrowserError (Wallet × Option Submission)) :
    World :=
  match made with
  | .ok (wallet, claimed) => { world with
      wallet := wallet, prompts := claimed.toList ++ world.prompts }
  | .error _ => world

def World.step (world : World) : Action → World
  | .prepares amount generated => world.commit (prepareDeposit world.wallet amount generated)
  | .refreshes amount noteId => world.commit (refreshPendingDeposit world.wallet amount noteId)
  | .claims submissionId => world.prompt (claimPendingDepositSubmission world.wallet submissionId)
  | .claimsReplacement expectedFrom submissionId =>
      world.prompt (claimPendingDepositReplacement world.wallet expectedFrom submissionId)
  | .remembersMetadata submission sender nonce =>
      world.commit (rememberPendingDepositSubmissionMetadata world.wallet submission sender nonce)
  | .remembersTransaction transactionHash submission metadata =>
      world.commit (rememberPendingDepositTransaction world.wallet transactionHash submission
        metadata)
  | .retryable expectedTransactionHash submission =>
      world.commit (markPendingDepositRetryable world.wallet expectedTransactionHash submission)
  | .missesReceipts expectedTransactionHashes =>
      world.commit (markPendingDepositMissingReceipts world.wallet expectedTransactionHashes)
  | .releasesReplacement submission =>
      world.commit (releasePendingDepositReplacementClaim world.wallet submission)
  | .marksAmbiguous submission => world.commit (markPendingDepositAmbiguous world.wallet submission)
  | .marksUnknown => world.commit (markPendingDepositUnknown world.wallet)
  | .authorizesRetry => world.commit (authorizePendingDepositRetry world.wallet)
  | .resolvesConflict expected =>
      world.commit (resolvePendingDepositSlotConflict world.wallet expected)
  | .confirms operationId note commitment =>
      world.commit (confirmDeposit world.wallet operationId note commitment)
  | .resolves submissionId => { world with resolved := submissionId :: world.resolved }
  | .takes slot amount commitment =>
      { world with taken := (slot, amount, commitment) :: world.taken }

/-- The prompt can no longer fund its slot. -/
def World.isResolved (world : World) (prompt : Submission) : Bool :=
  world.resolved.contains prompt.submissionId ||
    world.taken.any fun (slot, amount, commitment) => slot == prompt.noteId &&
      (amount != prompt.amount || commitment != prompt.commitment)

/-- The client only gives up a slot that another deposit has finally taken. -/
def World.isFinal (world : World) : Action → Bool
  | .resolvesConflict expected => world.taken.any fun (slot, amount, commitment) =>
      slot == expected.noteId && (amount != expected.amount || commitment != expected.commitment)
  | _ => true

/-- Prompts have fresh identifiers, and the client only gives up a hash or a claim that is
resolved. -/
def World.isHonest (world : World) : Action → Bool
  | .claims submissionId | .claimsReplacement _ submissionId =>
      world.prompts.all (·.submissionId != submissionId)
  | .retryable (some hash) _ => world.wallet.pendingDeposit.all fun pending =>
      pending.transactionAttempts.all fun attempt =>
        attempt.hash != hash || world.resolved.contains attempt.submissionId
  | .retryable none (some submission) => world.resolved.contains submission.submissionId
  | action => world.isFinal action

/-- A release that empties the plan finds no other prompt unresolved. -/
def World.isSteady (world : World) : Action → Bool
  | .retryable expectedTransactionHash submission => world.wallet.pendingDeposit.all fun pending =>
      !pending.isEmptiedBy expectedTransactionHash submission ||
        world.prompts.all world.isResolved
  | _ => true

def World.isLegal (world : World) (action : Action) : Bool :=
  world.isFinal action && world.isSteady action

/-- A wallet that was never used. -/
def World.started : World :=
  ⟨⟨none, [], none⟩, [], [], []⟩

inductive World.Reaches (legal : World → Action → Bool) : World → Prop where
  | refl : World.Reaches legal .started
  | step {world : World} (action : Action) (reached : World.Reaches legal world)
      (allowed : legal world action = true) : World.Reaches legal (world.step action)

/-- Take these actions one after the other, if each is legal. -/
def World.follow (legal : World → Action → Bool) (world : World) : List Action → Option World
  | [] => some world
  | action :: rest => if legal world action then (world.step action).follow legal rest else none

theorem World.Reaches.follow {legal : World → Action → Bool} {world next : World}
    {actions : List Action} (reached : World.Reaches legal world)
    (followed : world.follow legal actions = some next) : World.Reaches legal next := by
  induction actions generalizing world with
  | nil => exact Option.some.inj followed ▸ reached
  | cons action rest ih =>
    rw [World.follow] at followed
    split at followed
    case isTrue allowed => exact ih (reached.step action allowed) followed
    · cases followed

end Machine

section Prompts

/-- The plan funds the slot of this prompt. -/
structure Plan.Funds (plan : Plan) (prompt : Submission) : Prop where
  slot : plan.nextNoteId = prompt.noteId
  amount : plan.amount = prompt.amount
  secret : plan.secret = prompt.secret
  commitment : plan.commitment = prompt.commitment

structure ConfirmedNote.Funds (note : ConfirmedNote) (prompt : Submission) : Prop where
  slot : note.noteId = prompt.noteId
  amount : note.amount = prompt.amount
  secret : note.secret = prompt.secret

/-- The wallet can recover what this prompt deposits. -/
def Wallet.Holds (wallet : Wallet) (prompt : Submission) : Prop :=
  (∃ plan, wallet.pendingDeposit = some plan ∧ plan.Funds prompt) ∨
  (∃ attempt ∈ wallet.lateDepositAttempts, attempt.submission.noteId = prompt.noteId ∧
    attempt.submission.amount = prompt.amount ∧ attempt.submission.secret = prompt.secret) ∨
  ∃ note, wallet.state = some note ∧ note.Funds prompt

structure World.Kept (world : World) : Prop where
  held : ∀ prompt ∈ world.prompts, world.isResolved prompt = false →
    (∃ plan, world.wallet.pendingDeposit = some plan ∧ plan.Funds prompt) ∨
      ∃ note, world.wallet.state = some note ∧ note.Funds prompt
  unfunded : ∀ plan, world.wallet.pendingDeposit = some plan → world.wallet.state = none
  prepared : ∀ plan, world.wallet.pendingDeposit = some plan → plan.phase = .prepared →
    ∀ prompt ∈ world.prompts, world.isResolved prompt = true

variable {world : World} {wallet : Wallet}

/-- A change of a plan that keeps what it funds. -/
structure Plan.Keeps (plan next : Plan) : Prop where
  slot : next.nextNoteId = plan.nextNoteId
  amount : next.amount = plan.amount
  secret : next.secret = plan.secret
  commitment : next.commitment = plan.commitment

theorem Plan.Keeps.refl (plan : Plan) : plan.Keeps plan :=
  ⟨rfl, rfl, rfl, rfl⟩

theorem Plan.Keeps.funds {plan next : Plan} (keeps : plan.Keeps next) {prompt : Submission}
    (funds : plan.Funds prompt) : next.Funds prompt :=
  ⟨keeps.slot.trans funds.slot, keeps.amount.trans funds.amount,
    keeps.secret.trans funds.secret, keeps.commitment.trans funds.commitment⟩

/-- The plan is rewritten; it is prepared only if it was or if every prompt is resolved. -/
theorem World.Kept.rewrites (kept : world.Kept) {plan next : Plan} (wallet : Wallet)
    (pending : wallet.pendingDeposit = some next) (state : wallet.state = world.wallet.state)
    (stored : world.wallet.pendingDeposit = some plan) (keeps : plan.Keeps next)
    (prepared : next.phase = .prepared → plan.phase = .prepared ∨
      ∀ prompt ∈ world.prompts, world.isResolved prompt = true) :
    World.Kept { world with wallet := wallet } where
  held prompt member open' := by
    rcases kept.held prompt member open' with ⟨other, same, funds⟩ | ⟨note, confirmed, funds⟩
    · rw [stored, Option.some.injEq] at same
      subst same
      exact .inl ⟨next, pending, keeps.funds funds⟩
    · exact .inr ⟨note, state.trans confirmed, funds⟩
  unfunded _ _ := state.trans (kept.unfunded plan stored)
  prepared other same phase := by
    have equal : next = other := Option.some.inj (pending.symm.trans same)
    subst equal
    rcases prepared phase with before | all
    · exact kept.prepared plan stored before
    · exact all

theorem World.Kept.commit (kept : world.Kept) {made : Except BrowserError Wallet}
    (made_kept : ∀ wallet, made = .ok wallet → World.Kept { world with wallet := wallet }) :
    (world.commit made).Kept := by
  cases made with
  | ok wallet => exact made_kept wallet rfl
  | error error => exact kept

/-- Without a plan and without a note every prompt is resolved. -/
theorem World.Kept.all_resolved (kept : world.Kept)
    (empty : world.wallet.pendingDeposit = none) (unfunded : world.wallet.state = none) :
    ∀ prompt ∈ world.prompts, world.isResolved prompt = true := by
  intro prompt member
  cases resolved : world.isResolved prompt with
  | true => rfl
  | false =>
    rcases kept.held prompt member resolved with ⟨plan, pending, _⟩ | ⟨note, confirmed, _⟩
    · rw [empty] at pending
      cases pending
    · rw [unfunded] at confirmed
      cases confirmed

/-- Once every prompt is resolved the plan may be replaced or dropped. -/
theorem World.Kept.replaces (all : ∀ prompt ∈ world.prompts, world.isResolved prompt = true)
    (wallet : Wallet) (unfunded : wallet.state = none) :
    World.Kept { world with wallet := wallet } where
  held prompt member open' := by
    have resolved := all prompt member
    have same : World.isResolved { world with wallet := wallet } prompt =
        world.isResolved prompt := rfl
    rw [same, resolved] at open'
    cases open'
  unfunded _ _ := unfunded
  prepared _ _ _ := all

theorem World.Kept.prepares (kept : world.Kept) {amount : Nat} {generated : Option Generated}
    (made : prepareDeposit world.wallet amount generated = .ok wallet) :
    World.Kept { world with wallet := wallet } := by
  rw [prepareDeposit] at made
  split at made
  · cases made
  case isFalse free =>
    have unfunded : world.wallet.state = none := Option.not_isSome_iff_eq_none.mp free
    split at made
    case h_1 empty =>
      exact Except.ok.inj made ▸ .replaces (kept.all_resolved empty unfunded) _ unfunded
    case h_2 pending stored =>
      split at made
      · exact Except.ok.inj made ▸ kept
      split at made
      · cases made
      case isFalse untouched =>
        simp only [Bool.not_eq_false, Plan.isUntouched, Bool.and_eq_true, beq_iff_eq] at untouched
        have all := kept.prepared pending stored untouched.1.1
        exact Except.ok.inj made ▸ .replaces all _ unfunded

theorem World.Kept.refreshes (kept : world.Kept) {amount noteId : Nat}
    (made : refreshPendingDeposit world.wallet amount noteId = .ok wallet) :
    World.Kept { world with wallet := wallet } := by
  rw [refreshPendingDeposit] at made
  split at made
  · cases made
  case isFalse free =>
    have unfunded : world.wallet.state = none := Option.not_isSome_iff_eq_none.mp free
    split at made
    · cases made
    case h_2 pending stored =>
      split at made
      · cases made
      split at made
      · cases made
      case isFalse untouched =>
        simp only [Bool.not_eq_false, Plan.isUntouched, Bool.and_eq_true, beq_iff_eq] at untouched
        have all := kept.prepared pending stored untouched.1.1
        exact Except.ok.inj made ▸ .replaces all _ unfunded

/-- A new prompt funds the slot of its plan. -/
theorem World.Kept.claims (kept : world.Kept) {plan next : Plan} {submission : Submission}
    (wallet : Wallet) (pending : wallet.pendingDeposit = some next)
    (state : wallet.state = world.wallet.state) (stored : world.wallet.pendingDeposit = some plan)
    (keeps : plan.Keeps next) (waiting : next.phase = .awaitingWallet)
    (funds : plan.Funds submission) : World.Kept { world with wallet := wallet, prompts := submission :: world.prompts } := by
  have rewritten : World.Kept { world with wallet := wallet } := by
    apply kept.rewrites wallet pending state stored keeps
    intro prepared
    rw [waiting] at prepared
    cases prepared
  constructor
  · intro prompt member open'
    rcases List.mem_cons.mp member with rfl | before
    · exact .inl ⟨next, pending, keeps.funds funds⟩
    · exact rewritten.held prompt before open'
  · exact rewritten.unfunded
  · intro other same phase
    have equal : next = other := Option.some.inj (pending.symm.trans same)
    subst equal
    rw [waiting] at phase
    cases phase

theorem World.Kept.prompts (kept : world.Kept)
    {made : Except BrowserError (Wallet × Option Submission)}
    (untouched : ∀ wallet, made = .ok (wallet, none) → wallet = world.wallet)
    (claimed : ∀ wallet submission, made = .ok (wallet, some submission) →
      World.Kept { world with wallet := wallet, prompts := submission :: world.prompts }) :
    (world.prompt made).Kept := by
  rcases made with error | ⟨wallet, _ | submission⟩
  · exact kept
  · have same := untouched wallet rfl
    subst same
    exact kept
  · exact claimed wallet submission rfl

theorem World.Kept.claimsSubmission (kept : world.Kept) (submissionId : String) :
    (world.prompt (claimPendingDepositSubmission world.wallet submissionId)).Kept := by
  apply kept.prompts
  · intro wallet made
    rw [claimPendingDepositSubmission] at made
    split at made
    · cases made
    split at made
    · exact (Prod.mk.inj (Except.ok.inj made)).1.symm
    split at made
    · cases made
    split at made
    · cases made
    split at made
    · cases made
    · cases made
  · intro wallet submission made
    rw [claimPendingDepositSubmission] at made
    split at made
    · cases made
    case h_2 pending stored =>
      split at made
      · cases made
      split at made
      · cases made
      split at made
      · cases made
      split at made
      · cases made
      · obtain ⟨same, claimed⟩ := Prod.mk.inj (Except.ok.inj made)
        rw [← same, ← Option.some.inj claimed]
        exact kept.claims _ rfl rfl stored ⟨rfl, rfl, rfl, rfl⟩ rfl ⟨rfl, rfl, rfl, rfl⟩

theorem World.Kept.claimsReplacement (kept : world.Kept) (expectedFrom submissionId : String) :
    (world.prompt (claimPendingDepositReplacement world.wallet expectedFrom submissionId)).Kept := by
  apply kept.prompts
  · intro wallet made
    rw [claimPendingDepositReplacement] at made
    split at made
    · cases made
    split at made
    · cases made
    split at made
    · split at made <;> cases made
    · cases made
    · cases made
  · intro wallet submission made
    rw [claimPendingDepositReplacement] at made
    split at made
    · cases made
    case h_2 pending found =>
      obtain ⟨stored, _⟩ := Option.filter_eq_some_iff.mp found
      split at made
      · cases made
      split at made
      · split at made
        · cases made
        · obtain ⟨same, claimed⟩ := Prod.mk.inj (Except.ok.inj made)
          rw [← same, ← Option.some.inj claimed]
          exact kept.claims _ rfl rfl stored ⟨rfl, rfl, rfl, rfl⟩ rfl ⟨rfl, rfl, rfl, rfl⟩
      · cases made
      · cases made

/-- The operations that rewrite the plan of a prompt and never prepare it again. -/
theorem World.Kept.updates (kept : world.Kept) {plan next : Plan} (wallet : Wallet)
    (pending : wallet.pendingDeposit = some next) (state : wallet.state = world.wallet.state)
    (stored : world.wallet.pendingDeposit = some plan) (keeps : plan.Keeps next)
    (busy : next.phase = .prepared → plan.phase = .prepared) :
    World.Kept { world with wallet := wallet } :=
  kept.rewrites wallet pending state stored keeps fun prepared => .inl (busy prepared)

theorem World.Kept.remembersMetadata (kept : world.Kept) {submission : Submission}
    {sender : String} {nonce : Nat}
    (made : rememberPendingDepositSubmissionMetadata world.wallet submission sender nonce =
      .ok wallet) : World.Kept { world with wallet := wallet } := by
  rw [rememberPendingDepositSubmissionMetadata] at made
  split at made
  · cases made
  case h_2 pending found =>
    obtain ⟨stored, _⟩ := Option.filter_eq_some_iff.mp found
    rw [← Except.ok.inj made]
    exact kept.updates _ rfl rfl stored ⟨rfl, rfl, rfl, rfl⟩ id

theorem World.Kept.remembersTransaction (kept : world.Kept) {hash : String}
    {submission : Submission} {metadata : Option (String × Nat)}
    (made : rememberPendingDepositTransaction world.wallet hash submission metadata = .ok wallet) :
    World.Kept { world with wallet := wallet } := by
  rw [rememberPendingDepositTransaction] at made
  split at made
  · cases made
  case h_2 pending stored =>
    split at made
    · rw [← Except.ok.inj made]
      exact kept.updates _ stored rfl stored (.refl pending) id
    · rw [← Except.ok.inj made]
      refine kept.updates _ rfl rfl stored ?_ ?_
      · split <;> exact ⟨rfl, rfl, rfl, rfl⟩
      · split <;> simp [Plan.unclaimed]

/-- A release prepares the plan again only if it empties it. -/
theorem World.Kept.retryable (kept : world.Kept) {hash : Option String}
    {submission : Option Submission} (steady : world.isSteady (.retryable hash submission) = true)
    (made : markPendingDepositRetryable world.wallet hash submission = .ok wallet) :
    World.Kept { world with wallet := wallet } := by
  rw [markPendingDepositRetryable] at made
  split at made
  · exact Except.ok.inj made ▸ kept
  case h_2 pending stored =>
    split at made
    · cases made
    split at made
    · cases made
    rw [← Except.ok.inj made]
    refine kept.rewrites _ rfl rfl stored ?_ ?_
    · split <;> exact ⟨rfl, rfl, rfl, rfl⟩
    · intro prepared
      right
      have emptied : pending.isEmptiedBy hash submission = true := by
        by_contra full
        rw [if_neg full] at prepared
        have same : ∀ plan : Plan, plan.unclaimed.phase = plan.phase := fun _ => rfl
        rw [apply_ite Plan.phase, same, ite_self] at prepared
        split at prepared
        · cases prepared
        · split at prepared <;> cases prepared
      simp only [World.isSteady, stored, Option.all_some, emptied, Bool.not_true, Bool.false_or,
        List.all_eq_true] at steady
      exact steady

theorem World.Kept.missesReceipts (kept : world.Kept) {hashes : List String}
    (made : markPendingDepositMissingReceipts world.wallet hashes = .ok wallet) :
    World.Kept { world with wallet := wallet } := by
  rw [markPendingDepositMissingReceipts] at made
  split at made
  · exact Except.ok.inj made ▸ kept
  case h_2 pending stored =>
    split at made
    · cases made
    split at made
    · exact Except.ok.inj made ▸ kept
    · rw [← Except.ok.inj made]
      exact kept.updates _ rfl rfl stored ⟨rfl, rfl, rfl, rfl⟩ (by simp)

theorem World.Kept.releasesReplacement (kept : world.Kept) {submission : Submission}
    (made : releasePendingDepositReplacementClaim world.wallet submission = .ok wallet) :
    World.Kept { world with wallet := wallet } := by
  rw [releasePendingDepositReplacementClaim] at made
  split at made
  case h_1 pending nonce found _ =>
    obtain ⟨stored, _⟩ := Option.filter_eq_some_iff.mp found
    rw [← Except.ok.inj made]
    exact kept.updates _ rfl rfl stored ⟨rfl, rfl, rfl, rfl⟩ (by simp)
  · cases made

theorem World.Kept.marksAmbiguous (kept : world.Kept) {submission : Submission}
    (made : markPendingDepositAmbiguous world.wallet submission = .ok wallet) :
    World.Kept { world with wallet := wallet } := by
  rw [markPendingDepositAmbiguous] at made
  split at made
  · cases made
  case h_2 pending found =>
    obtain ⟨stored, _⟩ := Option.filter_eq_some_iff.mp found
    rw [← Except.ok.inj made]
    exact kept.updates _ rfl rfl stored ⟨rfl, rfl, rfl, rfl⟩ (by simp)

theorem World.Kept.marksUnknown (kept : world.Kept)
    (made : markPendingDepositUnknown world.wallet = .ok wallet) :
    World.Kept { world with wallet := wallet } := by
  rw [markPendingDepositUnknown] at made
  split at made
  · cases made
  case h_2 pending found =>
    obtain ⟨stored, _⟩ := Option.filter_eq_some_iff.mp found
    rw [← Except.ok.inj made]
    exact kept.updates _ rfl rfl stored ⟨rfl, rfl, rfl, rfl⟩ (by simp)

theorem World.Kept.authorizesRetry (kept : world.Kept)
    (made : authorizePendingDepositRetry world.wallet = .ok wallet) :
    World.Kept { world with wallet := wallet } := by
  rw [authorizePendingDepositRetry] at made
  split at made
  · cases made
  case h_2 pending found =>
    obtain ⟨stored, _⟩ := Option.filter_eq_some_iff.mp found
    split at made
    · cases made
    · rw [← Except.ok.inj made]
      exact kept.updates _ rfl rfl stored ⟨rfl, rfl, rfl, rfl⟩ (by simp)

/-- The prompts of a plan are resolved once another deposit has taken its slot. -/
theorem World.Kept.resolvesConflict (kept : world.Kept) {expected : Expected}
    (final : world.isFinal (.resolvesConflict expected) = true)
    (made : resolvePendingDepositSlotConflict world.wallet expected = .ok wallet) :
    World.Kept { world with wallet := wallet } := by
  rw [resolvePendingDepositSlotConflict] at made
  split at made
  · exact Except.ok.inj made ▸ kept
  case h_2 pending stored =>
    split at made
    · cases made
    case isFalse same =>
      simp only [ne_eq, not_or, not_not] at same
      obtain ⟨_, slot, amount, commitment, _⟩ := same
      rw [← Except.ok.inj made]
      refine kept.rewrites _ rfl rfl stored ⟨rfl, rfl, rfl, rfl⟩ ?_
      intro _
      right
      intro prompt member
      by_contra open'
      rw [Bool.not_eq_true] at open'
      rcases kept.held prompt member open' with ⟨plan, other, funds⟩ | ⟨note, confirmed, _⟩
      · rw [stored, Option.some.injEq] at other
        subst other
        simp only [World.isFinal, slot.symm, amount.symm, commitment.symm, funds.slot,
          funds.amount, funds.commitment] at final
        rw [World.isResolved, final, Bool.or_true] at open'
        cases open'
      · rw [kept.unfunded pending stored] at confirmed
        cases confirmed

theorem World.Kept.confirms (kept : world.Kept) {operationId : String} {note : ConfirmedNote}
    {commitment : Option Felt252}
    (made : confirmDeposit world.wallet operationId note commitment = .ok wallet) :
    World.Kept { world with wallet := wallet } := by
  rw [confirmDeposit] at made
  split at made
  · cases made
  case isFalse free =>
    split at made
    · cases made
    case h_2 pending found =>
      obtain ⟨stored, matches'⟩ := Option.filter_eq_some_iff.mp found
      simp only [Bool.and_eq_true, beq_iff_eq] at matches'
      obtain ⟨⟨⟨⟨secret, _⟩, slot⟩, amount⟩, _⟩ := matches'
      rw [← Except.ok.inj made]
      constructor
      · intro prompt member open'
        rcases kept.held prompt member open' with ⟨plan, other, funds⟩ | ⟨held, confirmed, _⟩
        · rw [stored, Option.some.injEq] at other
          subst other
          exact .inr ⟨note, rfl, slot.symm.trans funds.slot, amount.symm.trans funds.amount,
            secret.symm.trans funds.secret⟩
        · rw [kept.unfunded pending stored] at confirmed
          cases confirmed
      · intro plan none
        cases none
      · intro plan none
        cases none

/-- More prompts are resolved, and the wallet stays as it is. -/
theorem World.Kept.resolves (kept : world.Kept) (next : World)
    (wallet : next.wallet = world.wallet) (prompts : next.prompts = world.prompts)
    (more : ∀ prompt, world.isResolved prompt = true → next.isResolved prompt = true) :
    next.Kept where
  held prompt member open' := by
    rw [wallet]
    rw [prompts] at member
    apply kept.held prompt member
    by_contra resolved
    rw [more prompt (Bool.eq_true_of_not_eq_false resolved)] at open'
    cases open'
  unfunded plan pending := by
    rw [wallet] at pending ⊢
    exact kept.unfunded plan pending
  prepared plan pending phase prompt member := by
    rw [wallet] at pending
    rw [prompts] at member
    exact more prompt (kept.prepared plan pending phase prompt member)

theorem World.Kept.step (kept : world.Kept) {action : Action}
    (legal : world.isLegal action = true) : (world.step action).Kept := by
  rw [World.isLegal, Bool.and_eq_true] at legal
  obtain ⟨final, steady⟩ := legal
  cases action with
  | prepares amount generated => exact kept.commit fun _ => kept.prepares
  | refreshes amount noteId => exact kept.commit fun _ => kept.refreshes
  | claims submissionId => exact kept.claimsSubmission submissionId
  | claimsReplacement expectedFrom submissionId =>
    exact kept.claimsReplacement expectedFrom submissionId
  | remembersMetadata submission sender nonce => exact kept.commit fun _ => kept.remembersMetadata
  | remembersTransaction hash submission metadata =>
    exact kept.commit fun _ => kept.remembersTransaction
  | retryable hash submission => exact kept.commit fun _ => kept.retryable steady
  | missesReceipts hashes => exact kept.commit fun _ => kept.missesReceipts
  | releasesReplacement submission => exact kept.commit fun _ => kept.releasesReplacement
  | marksAmbiguous submission => exact kept.commit fun _ => kept.marksAmbiguous
  | marksUnknown => exact kept.commit fun _ => kept.marksUnknown
  | authorizesRetry => exact kept.commit fun _ => kept.authorizesRetry
  | resolvesConflict expected => exact kept.commit fun _ => kept.resolvesConflict final
  | confirms operationId note commitment => exact kept.commit fun _ => kept.confirms
  | resolves submissionId =>
    apply kept.resolves (world.step (.resolves submissionId)) rfl rfl
    intro prompt resolved
    simp only [World.step, World.isResolved, List.contains_cons, Bool.or_eq_true] at resolved ⊢
    rcases resolved with before | taken
    · exact .inl (.inr before)
    · exact .inr taken
  | takes slot amount commitment =>
    apply kept.resolves (world.step (.takes slot amount commitment)) rfl rfl
    intro prompt resolved
    simp only [World.step, World.isResolved, List.any_cons, Bool.or_eq_true] at resolved ⊢
    rcases resolved with before | taken
    · exact .inl before
    · exact .inr (.inr taken)

theorem World.Reaches.kept (reaches : World.Reaches World.isLegal world) : world.Kept := by
  induction reaches with
  | refl =>
    constructor
    · exact fun _ member => absurd member List.not_mem_nil
    · intro plan pending
      cases pending
    · intro plan pending
      cases pending
  | step action _ allowed kept => exact kept.step allowed

/-- The wallet keeps the slot, the secret and the amount of every unresolved prompt, as
long as no release empties a plan with another unresolved prompt. -/
theorem deposit_prompts_held (reaches : World.Reaches World.isLegal world) :
    ∀ prompt ∈ world.prompts, world.isResolved prompt = true ∨ world.wallet.Holds prompt := by
  intro prompt member
  cases resolved : world.isResolved prompt with
  | true => exact .inl rfl
  | false =>
    right
    rcases reaches.kept.held prompt member resolved with pending | confirmed
    · exact .inl pending
    · exact .inr (.inr confirmed)

/-- A plan whose first prompt got lost, and whose second one is open. -/
def retried : List Action :=
  [.prepares 50 (some ⟨"o", ⟨1⟩, ⟨2⟩, 7⟩), .claims "p", .marksUnknown, .authorizesRetry,
    .claims "q"]

/-- The two prompts of a retried plan are held. -/
theorem deposit_prompts_held_retried : ∃ world : World, world.prompts.length = 2 ∧
    ∀ prompt ∈ world.prompts, world.isResolved prompt = true ∨ world.wallet.Holds prompt := by
  cases followed : World.started.follow World.isLegal retried with
  | none => exact absurd followed (by decide)
  | some world =>
    have two : (World.started.follow World.isLegal retried).any
        (·.prompts.length == 2) = true := by decide
    rw [followed] at two
    exact ⟨world, beq_iff_eq.mp two,
      deposit_prompts_held (World.Reaches.refl.follow followed)⟩

/-- The second prompt is rejected, which prepares the plan again, and a deposit of another
amount drops it while the first prompt is still open. -/
theorem released_retry_forgets : ¬ ∀ world : World, World.Reaches World.isHonest world →
    ∀ prompt ∈ world.prompts, world.isResolved prompt = true ∨ world.wallet.Holds prompt := by
  intro every
  let first : Submission := ⟨"o", "p", 7, 50, ⟨2⟩, ⟨1⟩, none⟩
  let actions := retried ++ [.resolves "q",
    .retryable none (some ⟨"o", "q", 7, 50, ⟨2⟩, ⟨1⟩, none⟩),
    .prepares 60 (some ⟨"o'", ⟨3⟩, ⟨4⟩, 8⟩)]
  cases followed : World.started.follow World.isHonest actions with
  | none => exact absurd followed (by decide)
  | some world =>
    have lost : (World.started.follow World.isHonest actions).any (fun world =>
        world.prompts.contains first && !world.isResolved first &&
          world.wallet.pendingDeposit.all (·.secret != ⟨1⟩) &&
          world.wallet.lateDepositAttempts.isEmpty && world.wallet.state.isNone) = true := by
      decide
    rw [followed] at lost
    simp only [Option.any_some, Bool.and_eq_true, List.contains_iff_mem, Bool.not_eq_true',
      List.isEmpty_iff, Option.isNone_iff_eq_none] at lost
    obtain ⟨⟨⟨⟨member, open'⟩, other⟩, late⟩, unfunded⟩ := lost
    rcases every world (World.Reaches.refl.follow followed) first member with resolved | held
    · rw [open'] at resolved
      cases resolved
    · rcases held with ⟨plan, pending, funds⟩ | ⟨attempt, inside, _⟩ | ⟨note, confirmed, _⟩
      · rw [pending, Option.all_some, funds.secret] at other
        simp [first] at other
      · rw [late] at inside
        cases inside
      · rw [unfunded] at confirmed
        cases confirmed

end Prompts

end ZkApi.Browser.Deposits
