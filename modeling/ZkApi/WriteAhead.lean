import ZkApi.BrowserReference
import ZkApi.WalletSteps

/-!
# The write-ahead journal of the browser wallet

Whatever is sent to the lease endpoints was stored before, and a state for which a
clearance was asked for is never used for a request again.
-/

namespace ZkApi.Browser

open Clientd

section Requests

variable {config : LeaseConfig} {clock : Nat} {world : World}

/-- A body that is sent is the stored request, and two bodies are only sent for one
state after a stale root. -/
theorem posted_requests
    (reaches : World.Reaches config World.Orderly (.started clock) world)
    {entry : Entry} {earlier : List Entry} (sent : entry :: earlier <:+ world.log) :
    (∀ body state stored, (entry = .issuePosted body state stored ∨
      ∃ checkedOut, entry = .retirementPosted body state stored checkedOut) →
        stored.map RequestJournal.preparedRequest = some body) ∧
    ∀ body state, entry.posts = some (body, some state) → ∀ other, Posted earlier other state →
      other = body ∨ .staleRoot other ∈ earlier := by
  have follows := reaches.valid.sound.order entry earlier sent
  constructor
  · intro body state stored posts
    have post : PostFollows earlier body state stored := by
      rcases posts with rfl | ⟨flag, rfl⟩ <;> exact follows
    obtain ⟨_, journal, _, rfl, request, _⟩ := post
    exact congrArg some request
  · intro body state posts
    have post : ∃ stored, PostFollows earlier body (some state) stored := by
      cases entry <;> simp only [Entry.posts, Option.some.injEq, Prod.mk.injEq, reduceCtorEq]
        at posts
      case issuePosted =>
        obtain ⟨rfl, rfl⟩ := posts
        exact ⟨_, follows⟩
      case retirementPosted =>
        obtain ⟨rfl, rfl⟩ := posts
        exact ⟨_, follows⟩
    obtain ⟨stored, selected, _, same, _, _, _, _, once⟩ := post
    rw [Option.some.inj same]
    exact once

open ZkApi.Browser.Reference in
/-- The root of the first request was stale, and another one has been sent for the same state. -/
theorem posted_requests_sent : ∃ world : World, ∃ entry earlier body state other,
    entry :: earlier <:+ world.log ∧ entry.posts = some (body, some state) ∧
    Posted earlier other state ∧ other ≠ body ∧
    (∀ body state stored, (entry = .issuePosted body state stored ∨
      ∃ checkedOut, entry = .retirementPosted body state stored checkedOut) →
        stored.map RequestJournal.preparedRequest = some body) ∧
    .staleRoot other ∈ earlier := by
  obtain ⟨world, reaches, last⟩ := World.exists_reached leaseConfig World.isOrderly
    (.started 0) (funds ++ asks 0 0 ++ proves 0 "r" ++ [.replies (.throws staleRoot)] ++
      asks 0 0 ++ proves 0 "r'")
    (fun world => world.log.head?.any (fun entry => entry.posts ==
        some ((journal "r'").preparedRequest, some Clientd.Reference.note)) &&
      world.log.tail.any (fun entry => entry.posts ==
        some ((journal "r").preparedRequest, some Clientd.Reference.note))) (by decide)
  simp only [Bool.and_eq_true, List.any_eq_true, beq_iff_eq] at last
  obtain ⟨now, before, member, posted⟩ := last
  cases log : world.log with
  | nil =>
    rw [log] at now
    cases now
  | cons entry earlier =>
    rw [log] at now member
    have posts : entry.posts = some _ := beq_iff_eq.mp now
    have sent : entry :: earlier <:+ world.log := log ▸ List.suffix_rfl
    obtain ⟨stored, apart⟩ := posted_requests reaches sent
    have earlierPosted : Posted earlier _ _ := ⟨before, member, posted⟩
    have differs : (journal "r").preparedRequest ≠ (journal "r'").preparedRequest := by decide
    exact ⟨world, entry, earlier, _, _, _, sent, posts, earlierPosted, differs, stored,
      (apart _ _ posts _ earlierPosted).resolve_left differs⟩

/-- Once a clearance was asked for, no request is proved or sent for that state, and
wherever it is kept it can only be withdrawn, as long as nobody clears its plan by force. -/
theorem clearance_irreversible
    (reaches : World.Reaches config World.Orderly (.started clock) world) :
    (∀ entry earlier, entry :: earlier <:+ world.log → ∀ state,
      .clearancePosted state ∈ earlier → (∀ journal, entry ≠ .proved state journal) ∧
        ∀ body, entry.posts ≠ some (body, some state)) ∧
    ∀ state, .clearancePosted state ∈ world.log →
      (world.store.runtime.state = some state →
        ∃ plan, world.store.runtime.preparedWithdrawal = some plan ∧
          plan.clearanceReserved = true) ∧
      ∀ record ∈ world.store.withdrawals, record.state = some state →
        record.mode = .mutual ∨ record.clearanceReserved = true := by
  have sound := reaches.valid.sound
  constructor
  · intro entry earlier suffix state cleared
    have follows := sound.order entry earlier suffix
    have unposted : ∀ body stored, ¬ PostFollows earlier body (some state) stored := by
      intro body stored post
      obtain ⟨selected, _, same, _, _, _, uncleared, _⟩ := post
      rw [← Option.some.inj same] at uncleared
      exact uncleared cleared
    constructor
    · intro journal proved
      rw [proved] at follows
      exact follows cleared
    · intro body posts
      cases entry <;> simp only [Entry.posts, Option.some.injEq, Prod.mk.injEq, reduceCtorEq]
        at posts
      case issuePosted =>
        obtain ⟨rfl, rfl⟩ := posts
        exact unposted _ _ follows
      case retirementPosted =>
        obtain ⟨rfl, rfl⟩ := posts
        exact unposted _ _ follows
  · intro state cleared
    have withdrawn := (sound.cleared state cleared).2
    constructor
    · intro selected
      have reserved := (withdrawn.selected selected).2
      cases planned : world.store.runtime.preparedWithdrawal with
      | none =>
        rw [planned] at reserved
        cases reserved
      | some plan =>
        rw [planned] at reserved
        exact ⟨plan, rfl, reserved⟩
    · intro record member held
      exact .inr (withdrawn.recorded record member held)

open ZkApi.Browser.Reference in
/-- A mutual withdrawal has asked for its clearance. -/
theorem clearance_irreversible_withdrawn : ∃ world : World, ∃ state,
    .clearancePosted state ∈ world.log ∧ world.store.runtime.state = some state ∧
    (∀ entry earlier, entry :: earlier <:+ world.log → ∀ state,
      .clearancePosted state ∈ earlier → (∀ journal, entry ≠ .proved state journal) ∧
        ∀ body, entry.posts ≠ some (body, some state)) ∧
    ∃ plan, world.store.runtime.preparedWithdrawal = some plan ∧
      plan.clearanceReserved = true := by
  obtain ⟨world, reaches, asked⟩ := World.exists_reached leaseConfig World.isOrderly
    (.started 0) (funds ++ [.enters 0 (.withdraws .mutual "d"), .replies (.path true)])
    (fun world => world.log.contains (.clearancePosted Clientd.Reference.note) &&
      world.store.runtime.state == some Clientd.Reference.note) (by decide)
  simp only [Bool.and_eq_true, List.contains_iff_mem, beq_iff_eq] at asked
  have whole := clearance_irreversible reaches
  exact ⟨world, _, asked.1, asked.2, whole.1, (whole.2 _ asked.1).1 asked.2⟩

open ZkApi.Browser.Reference in
/-- The plan of a reserved clearance is cleared by force, and a request is sent for its state. -/
theorem forced_clear_respends : ¬ ∀ world : World,
    World.Reaches leaseConfig World.Fresh (.started 0) world →
    ∀ entry earlier, entry :: earlier <:+ world.log → ∀ state,
      .clearancePosted state ∈ earlier → ∀ body, entry.posts ≠ some (body, some state) := by
  intro every
  obtain ⟨world, reaches, sent⟩ := World.exists_reached leaseConfig World.isFresh
    (.started 0) (funds ++ [.enters 0 (.withdraws .mutual "d"), .replies (.path true),
      .replies .plain, .replies .plain, .changes 0 (.clears true none none) false false] ++
      asks 0 0 ++ proves 0 "r")
    (fun world => world.log.head?.any (fun entry => entry.posts ==
        some ((journal "r").preparedRequest, some Clientd.Reference.note)) &&
      world.log.tail.contains (.clearancePosted Clientd.Reference.note)) (by decide)
  simp only [Bool.and_eq_true, List.contains_iff_mem] at sent
  cases log : world.log with
  | nil =>
    rw [log] at sent
    cases sent.1
  | cons entry earlier =>
    rw [log] at sent
    exact every world reaches entry earlier (log ▸ List.suffix_rfl) _ sent.2 _
      (beq_iff_eq.mp sent.1)

end Requests

end ZkApi.Browser
