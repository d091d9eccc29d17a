import ZkApi.BrowserLeases
import ZkApi.NotePlaces

/-!
# Runs of the browser wallet

What the tabs and their network do is written down in a log.  The invariant relates
the log to the store: where the latest state of each note is, which request was
proved and posted for it, and which states a clearance was asked for.
-/

namespace ZkApi.Browser

open Clientd

section Logs

/-- The private state that a note gets. -/
def Entry.state? : Entry → Option NoteState
  | .confirmed state => some state
  | .installed state => some state
  | _ => none

def Entry.noteId? : Entry → Option UInt32
  | .confirmed state => some state.noteId
  | .installed state => some state.noteId
  | .sanitized record _ => some record.noteId
  | _ => none

def Entry.sanitizes (noteId : UInt32) : Entry → Bool
  | .sanitized record _ => record.noteId == noteId
  | _ => false

/-- The identifier of a request that is proved. -/
def Entry.proves? : Entry → Option String
  | .proved _ journal => some journal.preparedRequest.clientRequestId
  | _ => none

/-- A request that is sent, and the state of the wallet that sends it. -/
def Entry.posts : Entry → Option (ApiRequestV2 × Option NoteState)
  | .issuePosted body state _ => some (body, state)
  | .retirementPosted body state _ _ => some (body, state)
  | _ => none

/-- An entry that says nothing about notes and their requests. -/
def Entry.isNeutral : Entry → Bool
  | .granted _ _ | .staleRoot _ | .sawFinalized _ _ | .vaultRead _ _ _ _ _ | .checkedOut _ _ _ _
  | .threw _ => true
  | _ => false

/-- The latest private state of a note. -/
def latest (log : List Entry) (noteId : UInt32) : Option NoteState :=
  (log.filterMap Entry.state?).find? fun state => state.noteId == noteId

/-- The states that are stored of a note: the latest one, until it is sanitized. -/
def kept (log : List Entry) (noteId : UInt32) : List NoteState :=
  if log.any (Entry.sanitizes noteId) then [] else (latest log noteId).toList

def Known (log : List Entry) (state : NoteState) : Prop :=
  ∃ entry ∈ log, entry.state? = some state

def Posted (log : List Entry) (body : ApiRequestV2) (state : NoteState) : Prop :=
  ∃ entry ∈ log, entry.posts = some (body, some state)

/-- A request that is sent is the one of the stored journal, which was proved for the
selected state.  No other one was sent for that state, unless the server found its root
stale, and no clearance was asked for. -/
def PostFollows (earlier : List Entry) (body : ApiRequestV2) (state : Option NoteState)
    (stored : Option RequestJournal) : Prop :=
  ∃ selected journal, state = some selected ∧ stored = some journal ∧
    journal.preparedRequest = body ∧ .proved selected journal ∈ earlier ∧
    .clearancePosted selected ∉ earlier ∧
    ∀ other, Posted earlier other selected → other = body ∨ .staleRoot other ∈ earlier

/-- The vault was read at a finalized block, or far enough below the head. -/
def ReadFinal (earlier : List Entry) (noteId : UInt32) (block : Nat) (status : String) : Prop :=
  ∃ finalizedBlock head, .vaultRead noteId block status finalizedBlock head ∈ earlier ∧
    (finalizedBlock = some block ∨
      finalizedBlock = none ∧ block = head - closeFinalityFallbackBlocks)

/-- What has to be written down before an entry. -/
def Entry.Follows (earlier : List Entry) : Entry → Prop
  | .proved state _ => .clearancePosted state ∉ earlier
  | .issuePosted body state stored => PostFollows earlier body state stored
  | .retirementPosted body state stored _ => PostFollows earlier body state stored
  | .sanitized record closeBlockNumber => record.closeBlockNumber ≤ closeBlockNumber ∧
      ∃ block, closeBlockNumber ≤ block ∧ ReadFinal earlier record.noteId block "closed"
  | _ => True

def Ordered (log : List Entry) : Prop :=
  ∀ entry earlier, entry :: earlier <:+ log → entry.Follows earlier

end Logs

section Invariant

structure World.Sound (world : World) : Prop where
  tidy : world.store.Tidy
  places : ∀ noteId, world.store.places noteId = kept world.log noteId
  emptied : ∀ record ∈ world.store.withdrawals, record.state = none →
    world.log.any (Entry.sanitizes record.noteId) = true
  proved : ∀ journal, world.store.runtime.journal = some journal →
    ∃ state, world.store.runtime.state = some state ∧ .proved state journal ∈ world.log
  cleared : ∀ state, .clearancePosted state ∈ world.log →
    Known world.log state ∧ world.store.Withdrawn state
  clears : ∀ id state, .clears state ∈ (world.tabs id).pending →
    Known world.log state ∧ world.store.Withdrawn state
  posted : ∀ body state, Posted world.log body state → Known world.log state ∧
    (.staleRoot body ∈ world.log ∨ world.store.Withdrawn state ∨
      world.store.runtime.state = some state ∧
        world.store.runtime.journal.map RequestJournal.preparedRequest = some body)
  order : Ordered world.log

/-- What nobody rewrites outside of the lock. -/
def PreparedWithdrawal.core (plan : PreparedWithdrawal) : PreparedWithdrawal :=
  { plan with phase := "", submissionId := none, transactionHashes := [] }

/-- The holder of the lock remembers what is in the store. -/
structure World.Ready (world : World) (id : Nat) : Prop where
  state : (world.tabs id).runtime.state = world.store.runtime.state
  journal : (world.tabs id).runtime.journal = world.store.runtime.journal
  plan : (world.tabs id).runtime.preparedWithdrawal.map PreparedWithdrawal.core =
    world.store.runtime.preparedWithdrawal.map PreparedWithdrawal.core

/-- The request that the holder of the lock works on. -/
def Stage.request? : Stage → Option ApiRequestV2
  | .asksStatus request | .asksNullifier request _ | .asksResponse _ request
  | .completes _ request | .sends _ request _ _ | .rests _ request _ _ _
  | .verifies _ request _ => some request
  | .asksPath _ | .proves _ | .asksWithdrawalPath | .asksClearance | .provesWithdrawal => none

def Stage.isUnplanned : Stage → Bool
  | .asksPath _ | .proves _ => true
  | _ => false

structure Stage.Fits (stage : Stage) (runtime : Runtime) : Prop where
  request : ∀ request, stage.request? = some request →
    runtime.journal.map RequestJournal.preparedRequest = some request
  idle : stage.request? = none → runtime.journal = none ∧ runtime.state.isSome
  unplanned : stage.isUnplanned = true → runtime.preparedWithdrawal = none

structure World.Valid (world : World) : Prop where
  sound : world.Sound
  ready : ∀ critical, world.critical = some critical → world.Ready critical.tab
  stage : ∀ critical, world.critical = some critical →
    critical.stage.Fits world.store.runtime

/-- The worker proves requests with fresh identifiers, it answers with a fresh successor
of the same note, and the vault registers a note once. -/
def World.isFresh (world : World) : Action → Bool
  | .replies (.prepared journal) => world.log.all fun entry =>
      entry.proves? != some journal.preparedRequest.clientRequestId
  | .replies (.completed state) =>
      world.store.runtime.state.map NoteState.noteId == some state.noteId &&
        world.log.all fun entry => entry.state? != some state
  | .changes _ (.confirms state) _ _ => world.log.all fun entry => entry.noteId? != some state.noteId
  | _ => true

abbrev World.Fresh (world : World) (action : Action) : Prop :=
  world.isFresh action = true

/-- A plan that has to stay withdrawal-only is cleared by force. -/
def World.isForced (world : World) : Action → Bool
  | .changes _ (.clears force _ _) _ _ =>
      force && world.store.runtime.preparedWithdrawal.any PreparedWithdrawal.isWithdrawalOnly
  | _ => false

/-- What the worker and the vault do is fresh, and nobody forces a plan to be cleared that has
to stay withdrawal-only. -/
def World.isOrderly (world : World) (action : Action) : Bool :=
  world.isFresh action && !world.isForced action

abbrev World.Orderly (world : World) (action : Action) : Prop :=
  world.isOrderly action = true

theorem World.Orderly.fresh {world : World} {action : Action} (orderly : world.Orderly action) :
    world.Fresh action :=
  (Bool.and_eq_true_iff.mp orderly).1

theorem World.Fresh.completed {world : World} {state : NoteState}
    (fresh : world.Fresh (.replies (.completed state))) :
    world.store.runtime.state.map NoteState.noteId = some state.noteId ∧
      ¬ Known world.log state := by
  simp only [World.Fresh, World.isFresh, Bool.and_eq_true, List.all_eq_true, beq_iff_eq,
    bne_iff_ne] at fresh
  refine ⟨fresh.1, ?_⟩
  rintro ⟨entry, inside, named⟩
  exact fresh.2 entry inside named

theorem World.Fresh.confirms {world : World} {id : Nat} {state : NoteState}
    {aborts statusThrows : Bool}
    (fresh : world.Fresh (.changes id (.confirms state) aborts statusThrows)) :
    ∀ entry ∈ world.log, entry.noteId? ≠ some state.noteId := by
  simpa only [World.Fresh, World.isFresh, List.all_eq_true, bne_iff_ne] using fresh

end Invariant

section Entries

variable {log : List Entry} {entry : Entry}

theorem latest_cons_none (silent : entry.state? = none) (noteId : UInt32) :
    latest (entry :: log) noteId = latest log noteId := by
  rw [latest, List.filterMap_cons_none silent, latest]

theorem latest_cons_some {state : NoteState} (named : entry.state? = some state)
    (noteId : UInt32) :
    latest (entry :: log) noteId =
      if state.noteId = noteId then some state else latest log noteId := by
  rw [latest, List.filterMap_cons_some named, List.find?_cons, latest]
  by_cases same : state.noteId = noteId
  · rw [if_pos same, beq_iff_eq.mpr same]
  · rw [if_neg same, beq_eq_false_iff_ne.mpr same]

theorem kept_cons_none (silent : entry.state? = none) {noteId : UInt32}
    (keeps : entry.sanitizes noteId = false) : kept (entry :: log) noteId = kept log noteId := by
  rw [kept, kept, List.any_cons, keeps, Bool.false_or, latest_cons_none silent]

theorem mem_kept {noteId : UInt32} {state : NoteState} (member : state ∈ kept log noteId) :
    Known log state ∧ latest log noteId = some state ∧
      log.any (Entry.sanitizes noteId) = false := by
  rw [kept] at member
  split at member
  · cases member
  case isFalse unsanitized =>
    have found : latest log noteId = some state := by simpa using member
    obtain ⟨entry, inside, named⟩ := List.mem_filterMap.mp (List.mem_of_find?_eq_some found)
    exact ⟨⟨entry, inside, named⟩, found, Bool.eq_false_of_not_eq_true unsanitized⟩

theorem kept_length (noteId : UInt32) : (kept log noteId).length ≤ 1 := by
  rw [kept]
  split
  · exact Nat.zero_le 1
  · cases latest log noteId <;> simp

theorem Known.cons {state : NoteState} (known : Known log state) : Known (entry :: log) state := by
  obtain ⟨old, inside, named⟩ := known
  exact ⟨old, List.mem_cons_of_mem entry inside, named⟩

theorem Posted.of_cons {body : ApiRequestV2} {state : NoteState}
    (posted : Posted (entry :: log) body state) :
    entry.posts = some (body, some state) ∨ Posted log body state := by
  obtain ⟨old, inside, posts⟩ := posted
  cases List.mem_cons.mp inside with
  | inl same => exact .inl (same ▸ posts)
  | inr older => exact .inr ⟨old, older, posts⟩

theorem Ordered.cons (order : Ordered log) (follows : entry.Follows log) :
    Ordered (entry :: log) := by
  intro last earlier suffix
  rw [List.suffix_cons_iff] at suffix
  cases suffix with
  | inl same =>
    rw [List.cons.injEq] at same
    rw [same.1, same.2]
    exact follows
  | inr older => exact order last earlier older

theorem Entry.isNeutral_facts (neutral : entry.isNeutral = true) :
    entry.state? = none ∧ (∀ noteId, entry.sanitizes noteId = false) ∧ entry.posts = none ∧
      (∀ log, entry.Follows log) ∧ (∀ state, entry ≠ .clearancePosted state) := by
  cases entry <;> simp_all [Entry.isNeutral, Entry.state?, Entry.sanitizes, Entry.posts,
    Entry.Follows]

end Entries

section Sound

variable {world : World}

theorem World.Sound.single (sound : world.Sound) : world.store.Single := by
  intro noteId
  rw [sound.places]
  exact kept_length noteId

theorem World.Sound.selected (sound : world.Sound) {state : NoteState}
    (selected : world.store.runtime.state = some state) :
    Known world.log state ∧ latest world.log state.noteId = some state ∧
      world.log.any (Entry.sanitizes state.noteId) = false := by
  apply mem_kept
  rw [← sound.places, Store.places, selected, ofNote_some, if_pos rfl]
  simp

theorem World.Sound.recorded (sound : world.Sound) {record : WithdrawalRecord}
    {state : NoteState} (member : record ∈ world.store.withdrawals)
    (held : record.state = some state) : Known world.log state := by
  have found : state ∈ kept world.log state.noteId := by
    rw [← sound.places, Store.places, List.mem_append, List.mem_append]
    exact .inl (.inr (mem_ofNote.mpr ⟨List.mem_filterMap.mpr ⟨record, member, held⟩, rfl⟩))
  exact (mem_kept found).1

/-- The selected note is in no record. -/
theorem World.Sound.withdrawn_selected (sound : world.Sound) {state : NoteState}
    (selected : world.store.runtime.state = some state) {record : WithdrawalRecord}
    (member : record ∈ world.store.withdrawals) : record.state ≠ some state := by
  intro held
  exact sound.single.apart selected member held rfl

theorem World.Sound.congr (sound : world.Sound) (next : World)
    (store : next.store = world.store) (log : next.log = world.log)
    (clears : ∀ id state, .clears state ∈ (next.tabs id).pending →
      ∃ old, .clears state ∈ (world.tabs old).pending) : next.Sound where
  tidy := store ▸ sound.tidy
  places := by rw [store, log]; exact sound.places
  emptied := by rw [store, log]; exact sound.emptied
  proved := by rw [store, log]; exact sound.proved
  cleared := by rw [store, log]; exact sound.cleared
  clears id state pending := by
    obtain ⟨old, waiting⟩ := clears id state pending
    rw [store, log]
    exact sound.clears old state waiting
  posted := by rw [store, log]; exact sound.posted
  order := log ▸ sound.order

/-- A change of a tab that asks for no further clearance. -/
theorem World.Sound.setTab (sound : world.Sound) (id : Nat) {tab : Tab}
    (clears : ∀ state, .clears state ∈ tab.pending →
      .clears state ∈ (world.tabs id).pending) : (world.setTab id tab).Sound := by
  apply sound.congr (world.setTab id tab) rfl rfl
  intro other state pending
  by_cases same : other = id
  · subst same
    rw [World.setTab_self] at pending
    exact ⟨other, clears state pending⟩
  · rw [World.setTab_other _ _ same] at pending
    exact ⟨other, pending⟩

theorem World.Sound.wait (sound : world.Sound) (id : Nat) (purpose : Purpose) (stage : Stage) :
    (world.wait id purpose stage).Sound :=
  sound.congr _ rfl rfl fun id _ pending => ⟨id, pending⟩

theorem World.Sound.reload (sound : world.Sound) (id : Nat) : (world.reload id).Sound :=
  sound.setTab id fun _ pending => pending

theorem World.Sound.keeps (sound : world.Sound) {store : Store}
    (keeps : world.store.Keeps store) : World.Sound { world with store := store } where
  tidy := keeps.tidy
  places noteId := (keeps.places noteId).trans (sound.places noteId)
  emptied record member gone := by
    obtain ⟨old, inside, same, empty⟩ := keeps.emptied record member gone
    exact same ▸ sound.emptied old inside empty
  proved journal stored := by
    have same := keeps.journal (stored ▸ rfl)
    obtain ⟨state, selected, proved⟩ := sound.proved journal (same.2.symm.trans stored)
    exact ⟨state, same.1.trans selected, proved⟩
  cleared state posted := (sound.cleared state posted).imp_right (keeps.withdrawn state)
  clears id state pending := (sound.clears id state pending).imp_right (keeps.withdrawn state)
  posted body state posted := by
    obtain ⟨known, stale | withdrawn | ⟨selected, journal⟩⟩ := sound.posted body state posted
    · exact ⟨known, .inl stale⟩
    · exact ⟨known, .inr (.inl (keeps.withdrawn state withdrawn))⟩
    · have asked : world.store.runtime.journal.isSome := by
        cases stored : world.store.runtime.journal with
        | none => simp [stored] at journal
        | some _ => rfl
      rcases keeps.requested state selected asked with same | withdrawn
      · exact ⟨known, .inr (.inr ⟨same.1, (congrArg _ same.2).trans journal⟩)⟩
      · exact ⟨known, .inr (.inl withdrawn)⟩
  order := sound.order

/-- An entry that moves no note. -/
theorem World.Sound.cons (sound : world.Sound) {entry : Entry} (silent : entry.state? = none)
    (keeps : ∀ noteId, entry.sanitizes noteId = false)
    (clears : ∀ state, entry = .clearancePosted state →
      Known world.log state ∧ world.store.Withdrawn state)
    (posts : ∀ body state, entry.posts = some (body, some state) → Known world.log state ∧
      world.store.runtime.state = some state ∧
        world.store.runtime.journal.map RequestJournal.preparedRequest = some body)
    (follows : entry.Follows world.log) : (world.note entry).Sound where
  tidy := sound.tidy
  places noteId := (sound.places noteId).trans (kept_cons_none silent (keeps noteId)).symm
  emptied record member gone :=
    List.any_cons.trans (Bool.or_eq_true_iff.mpr (.inr (sound.emptied record member gone)))
  proved journal stored := by
    obtain ⟨state, selected, proved⟩ := sound.proved journal stored
    exact ⟨state, selected, List.mem_cons_of_mem entry proved⟩
  cleared state posted := by
    cases List.mem_cons.mp posted with
    | inl same => exact (clears state same.symm).imp_left Known.cons
    | inr older => exact (sound.cleared state older).imp_left Known.cons
  clears id state pending := (sound.clears id state pending).imp_left Known.cons
  posted body state posted := by
    rcases Posted.of_cons posted with now | before
    · obtain ⟨known, current⟩ := posts body state now
      exact ⟨known.cons, .inr (.inr current)⟩
    · obtain ⟨known, stale | rest⟩ := sound.posted body state before
      · exact ⟨known.cons, .inl (List.mem_cons_of_mem entry stale)⟩
      · exact ⟨known.cons, .inr rest⟩
  order := sound.order.cons follows

theorem World.Sound.note (sound : world.Sound) {entry : Entry}
    (neutral : entry.isNeutral = true) : (world.note entry).Sound := by
  obtain ⟨silent, keeps, unposted, follows, uncleared⟩ := Entry.isNeutral_facts neutral
  apply sound.cons silent keeps
  · intro state same
    exact absurd same (uncleared state)
  · intro body state posts
    rw [unposted] at posts
    cases posts
  · exact follows world.log

/-- A clearance is asked for a state that no request can be made for. -/
theorem World.Sound.clear (sound : world.Sound) {state : NoteState}
    (known : Known world.log state) (withdrawn : world.store.Withdrawn state) :
    (world.note (.clearancePosted state)).Sound := by
  apply sound.cons rfl fun _ => rfl
  · intro other same
    rw [Entry.clearancePosted.injEq] at same
    exact same ▸ ⟨known, withdrawn⟩
  · intro body other posts
    cases posts
  · trivial

/-- The request of the stored journal is sent. -/
theorem World.Sound.post (sound : world.Sound) {entry : Entry} {body : ApiRequestV2}
    (journal : world.store.runtime.journal.map RequestJournal.preparedRequest = some body)
    (sends : entry = .issuePosted body world.store.runtime.state world.store.runtime.journal ∨
      ∃ flag, entry = .retirementPosted body world.store.runtime.state
        world.store.runtime.journal flag) : (world.note entry).Sound := by
  obtain ⟨stored, held, request⟩ := Option.map_eq_some_iff.mp journal
  obtain ⟨state, selected, proved⟩ := sound.proved stored held
  have known := (sound.selected selected).1
  have requested : ¬ world.store.Withdrawn state := by
    intro withdrawn
    have dropped := (withdrawn.selected selected).1
    rw [held] at dropped
    cases dropped
  have follows : PostFollows world.log body world.store.runtime.state
      world.store.runtime.journal := by
    refine ⟨state, stored, selected, held, request, proved, ?_, ?_⟩
    · intro cleared
      exact requested (sound.cleared state cleared).2
    · intro other posted
      obtain ⟨_, stale | withdrawn | ⟨_, same⟩⟩ := sound.posted other state posted
      · exact .inr stale
      · exact absurd withdrawn requested
      · exact .inl (Option.some.inj (same.symm.trans journal))
  have facts : entry.state? = none ∧ (∀ noteId, entry.sanitizes noteId = false) ∧
      entry.posts = some (body, some state) ∧ entry.Follows world.log ∧
      (∀ state, entry ≠ .clearancePosted state) := by
    rcases sends with rfl | ⟨flag, rfl⟩ <;>
      exact ⟨rfl, fun _ => rfl, selected ▸ rfl, follows, (by simp)⟩
  obtain ⟨silent, keeps, posts, ordered, uncleared⟩ := facts
  apply sound.cons silent keeps
  · intro state same
    exact absurd same (uncleared state)
  · intro other asked now
    rw [posts] at now
    simp only [Option.some.injEq, Prod.mk.injEq] at now
    obtain ⟨rfl, rfl⟩ := now
    exact ⟨known, selected, journal⟩
  · exact ordered

/-- A request is proved for the selected state, which has neither a journal nor a plan. -/
theorem World.Sound.prove (sound : world.Sound) {state : NoteState} {journal : RequestJournal}
    (selected : world.store.runtime.state = some state)
    (idle : world.store.runtime.journal = none)
    (unplanned : world.store.runtime.preparedWithdrawal = none) {runtime : Runtime}
    (same : runtime.state = world.store.runtime.state) (stored : runtime.journal = some journal)
    (plan : runtime.preparedWithdrawal = none) :
    World.Sound { world.note (.proved state journal) with
      store := { world.store with runtime := runtime } } := by
  have open' : ∀ other, world.store.Withdrawn other → world.store.runtime.state ≠ some other := by
    intro other withdrawn holds
    have reserved := (withdrawn.selected holds).2
    rw [unplanned] at reserved
    cases reserved
  have withdrawn : ∀ other, world.store.Withdrawn other →
      Store.Withdrawn { world.store with runtime := runtime } other := fun other marked =>
    ⟨fun holds => absurd (same.symm.trans holds) (open' other marked), marked.recorded⟩
  constructor
  · constructor
    · exact sound.tidy.ids
    · exact sound.tidy.own
    · exact sound.tidy.erased
    · intro _ held planned
      rw [plan] at planned
      cases planned
  · intro noteId
    have before := sound.places noteId
    simp only [Store.places] at before ⊢
    rw [same, before]
    exact (kept_cons_none rfl rfl).symm
  · exact sound.emptied
  · intro other held
    rw [stored] at held
    exact ⟨state, same.trans selected, Option.some.inj held ▸ List.mem_cons_self⟩
  · intro other posted
    have older := (List.mem_cons.mp posted).resolve_left (by simp)
    obtain ⟨known, marked⟩ := sound.cleared other older
    exact ⟨known.cons, withdrawn other marked⟩
  · intro id other pending
    obtain ⟨known, marked⟩ := sound.clears id other pending
    exact ⟨known.cons, withdrawn other marked⟩
  · intro body other posted
    rcases Posted.of_cons posted with now | before
    · cases now
    · obtain ⟨known, stale | marked | ⟨_, asked⟩⟩ := sound.posted body other before
      · exact ⟨known.cons, .inl (List.mem_cons_of_mem _ stale)⟩
      · exact ⟨known.cons, .inr (.inl (withdrawn other marked))⟩
      · rw [idle] at asked
        cases asked
  · apply sound.order.cons
    intro cleared
    exact open' state (sound.cleared state cleared).2 selected

/-- The journal is dropped once its root is stale, or with a reserved plan in its
place. -/
theorem World.Sound.drop (sound : world.Sound) {runtime : Runtime}
    (same : runtime.state = world.store.runtime.state) (dropped : runtime.journal = none)
    (reserved : world.store.runtime.preparedWithdrawal.any
      PreparedWithdrawal.clearanceReserved = true →
        runtime.preparedWithdrawal.any PreparedWithdrawal.clearanceReserved = true)
    (why : (∀ body, world.store.runtime.journal.map RequestJournal.preparedRequest = some body →
      .staleRoot body ∈ world.log) ∨
        runtime.preparedWithdrawal.any PreparedWithdrawal.clearanceReserved = true) :
    World.Sound { world with store := { world.store with runtime := runtime } } := by
  have withdrawn : ∀ other, world.store.Withdrawn other →
      Store.Withdrawn { world.store with runtime := runtime } other := fun other marked =>
    ⟨fun holds => ⟨dropped, reserved (marked.selected (same.symm.trans holds)).2⟩,
      marked.recorded⟩
  constructor
  · constructor
    · exact sound.tidy.ids
    · exact sound.tidy.own
    · exact sound.tidy.erased
    · intro held
      rw [dropped] at held
      cases held
  · intro noteId
    have before := sound.places noteId
    simp only [Store.places] at before ⊢
    rw [same, before]
  · exact sound.emptied
  · intro journal held
    rw [dropped] at held
    cases held
  · intro other posted
    exact (sound.cleared other posted).imp_right (withdrawn other)
  · intro id other pending
    exact (sound.clears id other pending).imp_right (withdrawn other)
  · intro body other posted
    obtain ⟨known, stale | marked | ⟨selected, asked⟩⟩ := sound.posted body other posted
    · exact ⟨known, .inl stale⟩
    · exact ⟨known, .inr (.inl (withdrawn other marked))⟩
    · cases why with
      | inl stale => exact ⟨known, .inl (stale body asked)⟩
      | inr only =>
        refine ⟨known, .inr (.inl ⟨fun _ => ⟨dropped, only⟩, ?_⟩)⟩
        intro record member held
        exact absurd held (sound.withdrawn_selected selected member)
  · exact sound.order

/-- The successor of the selected state is installed. -/
theorem World.Sound.install (sound : world.Sound) {old state : NoteState}
    (selected : world.store.runtime.state = some old) (id : state.noteId = old.noteId)
    (fresh : ¬ Known world.log state) {runtime : Runtime} (same : runtime.state = some state)
    (dropped : runtime.journal = none) :
    World.Sound { world.note (.installed state) with
      store := { world.store with runtime := runtime } } := by
  have withdrawn : ∀ other, Known world.log other →
      (world.store.runtime.state = some other ∨ world.store.Withdrawn other) →
      Store.Withdrawn { world.store with runtime := runtime } other := by
    intro other known before
    constructor
    · intro holds
      exact absurd (Option.some.inj (same.symm.trans holds) ▸ known) fresh
    · intro record member held
      cases before with
      | inl was => exact absurd held (sound.withdrawn_selected was member)
      | inr marked => exact marked.recorded record member held
  constructor
  · constructor
    · exact sound.tidy.ids
    · exact sound.tidy.own
    · exact sound.tidy.erased
    · intro held
      rw [dropped] at held
      cases held
  · intro noteId
    have before := sound.places noteId
    have unsanitized := (sound.selected selected).2.2
    have found := (sound.selected selected).2.1
    have cons : kept (.installed state :: world.log) noteId =
        if state.noteId = noteId then [state] else kept world.log noteId := by
      rw [kept, List.any_cons, latest_cons_some rfl]
      by_cases here : state.noteId = noteId
      · rw [← here, id, unsanitized, if_pos rfl, if_pos rfl]
        rfl
      · rw [if_neg here, if_neg here]
        rfl
    refine Eq.trans ?_ cons.symm
    simp only [Store.places, selected, same, ofNote_some, id] at before ⊢
    by_cases here : old.noteId = noteId
    · rw [if_pos here] at before ⊢
      rw [if_pos here]
      have one : kept world.log noteId = [old] := by
        rw [← here, kept, unsanitized, found]
        rfl
      rw [one, List.append_assoc, List.singleton_append, List.cons.injEq] at before
      rw [List.append_assoc, before.2]
      rfl
    · rw [if_neg here] at before ⊢
      rw [if_neg here]
      exact before
  · exact sound.emptied
  · intro journal held
    rw [dropped] at held
    cases held
  · intro other posted
    have older := (List.mem_cons.mp posted).resolve_left (by simp)
    obtain ⟨known, marked⟩ := sound.cleared other older
    exact ⟨known.cons, withdrawn other known (.inr marked)⟩
  · intro id other pending
    obtain ⟨known, marked⟩ := sound.clears id other pending
    exact ⟨known.cons, withdrawn other known (.inr marked)⟩
  · intro body other posted
    rcases Posted.of_cons posted with now | before
    · cases now
    · obtain ⟨known, stale | marked | ⟨was, _⟩⟩ := sound.posted body other before
      · exact ⟨known.cons, .inl (List.mem_cons_of_mem _ stale)⟩
      · exact ⟨known.cons, .inr (.inl (withdrawn other known (.inr marked)))⟩
      · exact ⟨known.cons, .inr (.inl (withdrawn other known (.inl was)))⟩
  · exact sound.order.cons trivial

/-- A note is confirmed in the empty slot. -/
theorem World.Sound.confirm (sound : world.Sound) {store : Store} {state : NoteState}
    (taken : confirmDeposit world.store state = some store)
    (fresh : ∀ entry ∈ world.log, entry.noteId? ≠ some state.noteId) :
    World.Sound { world.note (.confirmed state) with store := store } := by
  obtain ⟨tidy, selected, idle, unselected, records, places⟩ :=
    confirmDeposit_places sound.tidy taken
  have unknown : ∀ other, Known world.log other → other ≠ state := by
    intro other known same
    obtain ⟨entry, inside, named⟩ := known
    apply fresh entry inside
    cases entry <;> simp_all [Entry.state?, Entry.noteId?]
  have unsanitized : world.log.any (Entry.sanitizes state.noteId) = false := by
    rw [List.any_eq_false]
    intro entry inside sanitizes
    apply fresh entry inside
    cases entry <;> simp_all [Entry.sanitizes, Entry.noteId?]
  have unheard : latest world.log state.noteId = none := by
    cases found : latest world.log state.noteId with
    | none => rfl
    | some other =>
      obtain ⟨entry, inside, named⟩ := List.mem_filterMap.mp (List.mem_of_find?_eq_some found)
      have same := List.find?_some found
      exfalso
      apply fresh entry inside
      cases entry <;> simp_all [Entry.state?, Entry.noteId?]
  have withdrawn : ∀ other, Known world.log other → world.store.Withdrawn other →
      store.Withdrawn other := by
    intro other known marked
    constructor
    · intro holds
      exact absurd (Option.some.inj (holds.symm.trans selected)) (unknown other known)
    · rw [records]
      exact marked.recorded
  constructor
  · exact tidy
  · intro noteId
    rw [places noteId, sound.places noteId]
    have cons : kept (.confirmed state :: world.log) noteId =
        if state.noteId = noteId then
          (if world.log.any (Entry.sanitizes noteId) then [] else [state])
        else kept world.log noteId := by
      rw [kept, List.any_cons, latest_cons_some rfl]
      by_cases here : state.noteId = noteId
      · rw [if_pos here, if_pos here]
        rfl
      · rw [if_neg here, if_neg here]
        rfl
    refine Eq.trans ?_ cons.symm
    by_cases here : state.noteId = noteId
    · rw [if_pos here, if_pos here, ← here, unsanitized, kept, unsanitized, unheard]
      rfl
    · rw [if_neg here, if_neg here]
      rfl
  · rw [records]
    exact sound.emptied
  · intro journal held
    rw [idle] at held
    cases held
  · intro other posted
    have older := (List.mem_cons.mp posted).resolve_left (by simp)
    obtain ⟨known, marked⟩ := sound.cleared other older
    exact ⟨known.cons, withdrawn other known marked⟩
  · intro id other pending
    obtain ⟨known, marked⟩ := sound.clears id other pending
    exact ⟨known.cons, withdrawn other known marked⟩
  · intro body other posted
    rcases Posted.of_cons posted with now | before
    · cases now
    · obtain ⟨known, stale | marked | ⟨was, _⟩⟩ := sound.posted body other before
      · exact ⟨known.cons, .inl (List.mem_cons_of_mem _ stale)⟩
      · exact ⟨known.cons, .inr (.inl (withdrawn other known marked))⟩
      · rw [unselected] at was
        cases was
  · exact sound.order.cons trivial

/-- A record is sanitized once the vault has reported its note closed. -/
theorem World.Sound.sanitize (sound : world.Sound) {store : Store} {record : WithdrawalRecord}
    {changes : RecordChanges} {closeBlockNumber block : Nat} {revision : Option Nat}
    (taken : updateBrowserWithdrawal world.store record.noteId changes true revision = some store)
    (recorded : record.closeBlockNumber ≤ closeBlockNumber) (final : closeBlockNumber ≤ block)
    (read : ReadFinal world.log record.noteId block "closed") :
    World.Sound { world.note (.sanitized record closeBlockNumber) with store := store } := by
  obtain ⟨tidy, runtime, withdrawn, emptied, ⟨old, inside, id, first, last, before, after⟩,
    others⟩ := sanitize_places sound.tidy taken
  constructor
  · exact tidy
  · intro noteId
    by_cases same : record.noteId = noteId
    · have cons : kept (.sanitized record closeBlockNumber :: world.log) noteId = [] := by
        rw [kept, List.any_cons, Entry.sanitizes, beq_iff_eq.mpr same]
        rfl
      have bound : (first ++ old.state.toList ++ last).length ≤ 1 := before ▸ sound.single _
      have all := sound.places record.noteId
      have empty : first = [] ∧ last = [] := by
        cases held : old.state with
        | none =>
          have sanitized := sound.emptied old inside held
          rw [id] at sanitized
          rw [before, held, kept, sanitized] at all
          simpa using all
        | some state =>
          simp only [held, List.length_append, Option.toList_some, List.length_singleton] at bound
          exact ⟨List.length_eq_zero_iff.mp (by omega), List.length_eq_zero_iff.mp (by omega)⟩
      rw [empty.1, empty.2] at after
      exact (same ▸ after).trans cons.symm
    · rw [others noteId fun here => same here.symm, sound.places noteId]
      have apart : Entry.sanitizes noteId (.sanitized record closeBlockNumber) = false :=
        beq_eq_false_iff_ne.mpr same
      exact (kept_cons_none rfl apart).symm
  · intro other member gone
    simp only [World.note, List.any_cons, Bool.or_eq_true]
    rcases emptied other member gone with here | ⟨was, found, same, none⟩
    · exact .inl (beq_iff_eq.mpr here.symm)
    · exact .inr (same ▸ sound.emptied was found none)
  · rw [show ({ world.note (.sanitized record closeBlockNumber) with store := store } : World
      ).store.runtime = world.store.runtime from runtime]
    intro journal held
    obtain ⟨state, selected, proved⟩ := sound.proved journal held
    exact ⟨state, selected, List.mem_cons_of_mem _ proved⟩
  · intro other posted
    have older := (List.mem_cons.mp posted).resolve_left (by simp)
    obtain ⟨known, marked⟩ := sound.cleared other older
    exact ⟨known.cons, withdrawn other marked⟩
  · intro id other pending
    obtain ⟨known, marked⟩ := sound.clears id other pending
    exact ⟨known.cons, withdrawn other marked⟩
  · intro body other posted
    rcases Posted.of_cons posted with now | before
    · cases now
    · obtain ⟨known, stale | marked | current⟩ := sound.posted body other before
      · exact ⟨known.cons, .inl (List.mem_cons_of_mem _ stale)⟩
      · exact ⟨known.cons, .inr (.inl (withdrawn other marked))⟩
      · rw [← runtime] at current
        exact ⟨known.cons, .inr (.inr current)⟩
  · exact sound.order.cons ⟨recorded, block, final, read⟩

end Sound

end ZkApi.Browser
