import ZkApi.BrowserReference
import ZkApi.WalletSteps

/-!
# Conservation of the notes of the browser wallet

The latest private state of a confirmed note is in exactly one place until its record
is sanitized, and no transaction that throws changes the store.
-/

namespace ZkApi.Browser

open Clientd

section Conservation

variable {config : LeaseConfig} {clock : Nat} {world : World}

/-- An error was the last thing that a step has led to. -/
def World.Threw (world next : World) : Prop :=
  next.log ≠ world.log ∧ ∃ error, next.log.head? = some (.threw error)

theorem World.noteChange_committed {next : World} {id : Nat} {change : StoreChange}
    {statusThrows keeps : Bool} {store : Store} (applied : change.apply world.store = some store)
    (called : world.call id (World.keepLease
      { world.noteChange change statusThrows with store := store } id keeps) = some next)
    (threw : world.Threw next) : statusThrows = true ∧
      ∃ state, change = .confirms state ∧ next.store.runtime.state = some state := by
  rw [World.call_eq called] at threw ⊢
  cases change with
  | confirms state =>
    cases statusThrows with
    | true =>
      refine ⟨rfl, state, rfl, ?_⟩
      rw [StoreChange.apply, confirmDeposit] at applied
      split at applied
      · cases applied
      split at applied
      · cases applied
      · exact Option.some.inj applied ▸ rfl
    | false =>
      obtain ⟨error, last⟩ := threw.2
      cases last
  | archives reason noteId claimed | detaches noteId phase destination
  | detachesClosed noteId mode destination closeBlockNumber reserved | parks
  | restores noteId revision | transfers attempt phase mode reserved
  | clears force expectedNoteId hashes
  | challenges attempt | challengesPrepared noteId | remembers attempts | deposits pending =>
    exact absurd rfl threw.1

/-- Every note is in one place with its latest state until it is sanitized, which it
only is after a final read of its close; a transaction that throws changes nothing,
and `confirmDeposit` can only throw later with the note in its place. -/
theorem notes_conserved
    (reaches : World.Reaches config World.Orderly (.started clock) world) :
    (∀ noteId, world.store.places noteId = kept world.log noteId) ∧
    (∀ record closeBlockNumber earlier,
      .sanitized record closeBlockNumber :: earlier <:+ world.log →
        record.closeBlockNumber ≤ closeBlockNumber ∧
          ∃ block, closeBlockNumber ≤ block ∧ ReadFinal earlier record.noteId block "closed") ∧
    (∀ id change aborts statusThrows next,
      world.step config (.changes id change aborts statusThrows) = some next →
        world.Threw next → next.store = world.store ∨ statusThrows = true ∧
          ∃ state, change = .confirms state ∧ next.store.runtime.state = some state) ∧
    ∀ change aborts next, world.step config (.rewrites change aborts) = some next →
      world.Threw next → next.store = world.store := by
  have sound := reaches.valid.sound
  refine ⟨sound.places, ?_, ?_, ?_⟩
  · intro record closeBlockNumber earlier suffix
    exact sound.order _ _ suffix
  · intro id change aborts statusThrows next taken threw
    rw [World.step] at taken
    split at taken
    · cases taken
    split at taken
    · exact .inl (World.call_eq taken ▸ rfl)
    split at taken
    · exact .inl (World.call_eq taken ▸ rfl)
    case h_2 store applied =>
      exact .inr (World.noteChange_committed (Option.filter_eq_some_iff.mp applied).1 taken threw)
  · intro change aborts next taken threw
    rw [World.step] at taken
    split at taken
    · exact Option.some.inj taken ▸ rfl
    · rw [← Option.some.inj taken] at threw
      exact absurd rfl threw.1

def Entry.isThrown : Entry → Bool
  | .threw _ => true
  | _ => false

/-- The record of a note whose withdrawal was seen in block 100. -/
def closedRecord : WithdrawalRecord where
  noteId := 7
  mode := .escape
  phase := "closed_unconfirmed"
  destination := some "d"
  clearanceReserved := false
  state := some Clientd.Reference.note
  preparedWithdrawal := none
  startPending := false
  finalizePending := false
  closeBlockNumber := 100
  revision := 1

open ZkApi.Browser.Reference in
/-- A run in which a note is withdrawn, closed and sanitized. -/
theorem notes_conserved_sanitized : ∃ world : World,
    world.log.any (Entry.sanitizes 7) = true ∧
      ∀ noteId, world.store.places noteId = kept world.log noteId := by
  obtain ⟨world, reaches, sanitized⟩ := World.exists_reached leaseConfig World.isOrderly (.started 0)
    (funds ++ [.changes 0 (.detachesClosed 7 .escape (some "d") 100 false) false false,
      .syncs 0 7, .observesClosed 0 closedRecord [] 150 ⟨some 120, none, fun _ => some "closed"⟩])
    (fun world => world.log.any (Entry.sanitizes 7)) (by decide)
  exact ⟨world, sanitized, (notes_conserved reaches).1⟩

open ZkApi.Browser.Reference in
/-- `confirmDeposit` throws after its commit when the worker fails. -/
theorem confirmDeposit_threw :
    ¬ ∀ world : World, World.Reaches leaseConfig World.Orderly (.started 0) world →
      ∀ id change aborts statusThrows next,
        world.step leaseConfig (.changes id change aborts statusThrows) = some next →
          world.Threw next → next.store = world.store := by
  intro every
  obtain ⟨world, reaches, waits⟩ := World.exists_reached leaseConfig World.isOrderly (.started 0)
    (funds.take 3) (fun world => world.step leaseConfig (.changes 0
      (.confirms Clientd.Reference.note) false true) |>.any fun next =>
        next.store != world.store && next.log.length != world.log.length &&
          next.log.head?.any Entry.isThrown) (by decide)
  cases taken : world.step leaseConfig (.changes 0 (.confirms Clientd.Reference.note) false true)
    with
  | none => simp [taken] at waits
  | some next =>
    simp only [taken, Option.any_some, Bool.and_eq_true, bne_iff_ne] at waits
    obtain ⟨⟨changed, longer⟩, last⟩ := waits
    apply changed
    apply every world reaches 0 _ false true next taken
    refine ⟨fun same => longer (congrArg List.length same), ?_⟩
    cases head : next.log.head? with
    | none => simp [head] at last
    | some entry =>
      cases entry <;> simp [head, Entry.isThrown] at last
      exact ⟨_, rfl⟩

end Conservation

end ZkApi.Browser
