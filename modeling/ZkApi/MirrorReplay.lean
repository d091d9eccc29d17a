import ZkApi.LeafMirror

/-!
# Replayed events and restored mirrors

Every vault event is absorbed by the mirror, so a batch of events may be
started again after any part of it.  A mirror built from events comes back
unchanged from its own snapshot whenever the snapshot is accepted.
-/

namespace ZkApi.Indexer

open EventReplay

namespace TreeMirror

variable {H : TreeFunctions} {mirror other : TreeMirror H.leafwise}

theorem ext_leaves (leaves : ∀ noteId, mirror.getLeaf noteId = other.getLeaf noteId)
    (next : mirror.nextNoteId = other.nextNoteId)
    (originals : ∀ noteId : UInt32, mirror.originalLeaves[noteId]? = other.originalLeaves[noteId]?) :
    mirror = other := by
  cases mirror
  cases other
  congr
  · exact funext leaves
  · exact Std.ExtTreeMap.ext_getElem? fun {noteId} => originals noteId

@[simp]
theorem getLeaf_setLeaf (noteId leafId : UInt32) (leaf : Felt252) :
    (mirror.setLeaf noteId leaf).getLeaf leafId =
      if leafId = noteId then leaf else mirror.getLeaf leafId :=
  Function.update_apply mirror.tree noteId leaf leafId

@[simp]
theorem setLeaf_nextNoteId (noteId : UInt32) (leaf : Felt252) :
    (mirror.setLeaf noteId leaf).nextNoteId = mirror.nextNoteId :=
  rfl

@[simp]
theorem setLeaf_originalLeaves (noteId : UInt32) (leaf : Felt252) :
    (mirror.setLeaf noteId leaf).originalLeaves = mirror.originalLeaves :=
  rfl

theorem toNat_max (first second : UInt32) :
    (max first second).toNat = max first.toNat second.toNat := by
  change (if first ≤ second then second else first).toNat = _
  split
  · rename_i below
    have below := UInt32.le_iff_toNat_le.mp below
    omega
  · rename_i above
    have above := mt UInt32.le_iff_toNat_le.mpr above
    omega

/-- What an event writes: the leaf of one note, or nothing. -/
inductive Change where
  | deposited (noteId : UInt32) (leaf : Felt252)
  | zeroed (noteId : UInt32)
  | restored (noteId : UInt32)
  | nothing

def Change.of (H : TreeFunctions) : VaultEvent → Change
  | .noteDeposited noteId commitment amount expiryTs _ =>
      .deposited noteId (H.computeNoteLeaf noteId commitment amount expiryTs)
  | .mutualClose noteId _ _ => .zeroed noteId
  | .escapeWithdrawalInitiated noteId _ _ _ _ => .zeroed noteId
  | .escapeWithdrawalChallenged noteId _ _ => .restored noteId
  | .escapeWithdrawalFinalized _ _ _ => .nothing
  | .expiredClaimed noteId _ _ => .zeroed noteId

/-- The leaf of a note after a change. -/
def leafAfter (mirror : TreeMirror H.leafwise) (change : Change) (leafId : UInt32) : Felt252 :=
  match change with
  | .deposited noteId leaf => if leafId = noteId then leaf else mirror.getLeaf leafId
  | .zeroed noteId => if leafId = noteId then Felt252.zero else mirror.getLeaf leafId
  | .restored noteId =>
      if leafId = noteId then mirror.originalLeaves[noteId]?.getD (mirror.getLeaf leafId)
      else mirror.getLeaf leafId
  | .nothing => mirror.getLeaf leafId

def nextAfter (mirror : TreeMirror H.leafwise) : Change → UInt32
  | .deposited noteId _ => max mirror.nextNoteId (saturatingSucc noteId)
  | .zeroed _ => mirror.nextNoteId
  | .restored _ => mirror.nextNoteId
  | .nothing => mirror.nextNoteId

def originalAfter (mirror : TreeMirror H.leafwise) (change : Change) (leafId : UInt32) : Option Felt252 :=
  match change with
  | .deposited noteId leaf => if leafId = noteId then some leaf else mirror.originalLeaves[leafId]?
  | .zeroed _ => mirror.originalLeaves[leafId]?
  | .restored _ => mirror.originalLeaves[leafId]?
  | .nothing => mirror.originalLeaves[leafId]?

theorem getLeaf_processEvent (event : VaultEvent) (leafId : UInt32) :
    (mirror.processEvent event).getLeaf leafId = mirror.leafAfter (.of H event) leafId := by
  cases event with
  | noteDeposited noteId commitment amount expiryTs newRoot =>
      exact Function.update_apply mirror.tree noteId _ leafId
  | escapeWithdrawalChallenged noteId nullifier restoredRoot =>
      simp only [processEvent, Change.of, leafAfter]
      split
      · rename_i original found
        simp [found]
      · rename_i found
        simp [found]
  | escapeWithdrawalFinalized noteId nullifier finalBalance => rfl
  | _ => simp [processEvent, Change.of, leafAfter]

theorem nextNoteId_processEvent (event : VaultEvent) :
    (mirror.processEvent event).nextNoteId = mirror.nextAfter (.of H event) := by
  cases event with
  | escapeWithdrawalChallenged noteId nullifier restoredRoot =>
      simp only [processEvent, Change.of, nextAfter]
      split <;> rfl
  | _ => rfl

theorem originalLeaves_processEvent (event : VaultEvent) (leafId : UInt32) :
    (mirror.processEvent event).originalLeaves[leafId]? =
      mirror.originalAfter (.of H event) leafId := by
  cases event with
  | noteDeposited noteId commitment amount expiryTs newRoot =>
      simp only [processEvent, Change.of, originalAfter, Std.ExtTreeMap.getElem?_insert,
        Std.compare_eq_iff_eq]
      by_cases same : noteId = leafId
      · rw [if_pos same, if_pos same.symm]
      · rw [if_neg same, if_neg (Ne.symm same)]
  | escapeWithdrawalChallenged noteId nullifier restoredRoot =>
      simp only [processEvent, Change.of, originalAfter]
      split <;> rfl
  | _ => rfl

/-- The two mirrors differ at most in the leaf of one note. -/
structure LeafAhead (noteId : UInt32) (first second : TreeMirror H.leafwise) : Prop where
  leaves : ∀ leafId, leafId ≠ noteId → first.getLeaf leafId = second.getLeaf leafId
  next : first.nextNoteId = second.nextNoteId
  originals : ∀ leafId : UInt32, first.originalLeaves[leafId]? = second.originalLeaves[leafId]?

/-- The two mirrors differ at most in what a deposit of one note writes. -/
structure DepositAhead (noteId : UInt32) (first second : TreeMirror H.leafwise) : Prop where
  leaves : ∀ leafId, leafId ≠ noteId → first.getLeaf leafId = second.getLeaf leafId
  next : max first.nextNoteId.toNat (saturatingSucc noteId).toNat =
    max second.nextNoteId.toNat (saturatingSucc noteId).toNat
  originals : ∀ leafId : UInt32, leafId ≠ noteId →
    first.originalLeaves[leafId]? = second.originalLeaves[leafId]?

theorem LeafAhead.processEvent {noteId : UInt32} (ahead : LeafAhead noteId mirror other)
    (event : VaultEvent) :
    LeafAhead noteId (mirror.processEvent event) (other.processEvent event) where
  leaves leafId different := by
    have leaf := ahead.leaves leafId different
    rw [getLeaf_processEvent, getLeaf_processEvent]
    cases Change.of H event with
    | restored restoredId =>
        simp only [leafAfter, ahead.originals restoredId, leaf]
    | _ => simp only [leafAfter, leaf]
  next := by
    rw [nextNoteId_processEvent, nextNoteId_processEvent]
    cases Change.of H event <;> simp only [nextAfter, ahead.next]
  originals leafId := by
    rw [originalLeaves_processEvent, originalLeaves_processEvent]
    cases Change.of H event <;> simp only [originalAfter, ahead.originals leafId]

theorem DepositAhead.processEvent {noteId : UInt32} (ahead : DepositAhead noteId mirror other)
    (event : VaultEvent) :
    DepositAhead noteId (mirror.processEvent event) (other.processEvent event) where
  leaves leafId different := by
    have leaf := ahead.leaves leafId different
    have original := ahead.originals leafId different
    rw [getLeaf_processEvent, getLeaf_processEvent]
    cases Change.of H event with
    | restored restoredId =>
        by_cases same : leafId = restoredId
        · subst same
          simp only [leafAfter, if_true, original, leaf]
        · simp only [leafAfter, if_neg same, leaf]
    | _ => simp only [leafAfter, leaf]
  next := by
    have next := ahead.next
    rw [nextNoteId_processEvent, nextNoteId_processEvent]
    cases Change.of H event with
    | deposited depositedId leaf =>
        simp only [nextAfter, toNat_max]
        omega
    | _ => exact next
  originals leafId different := by
    have original := ahead.originals leafId different
    rw [originalLeaves_processEvent, originalLeaves_processEvent]
    cases Change.of H event <;> simp only [originalAfter, original]

private theorem deposit_ahead {event : VaultEvent} {noteId : UInt32} {leaf : Felt252}
    (change : Change.of H event = .deposited noteId leaf) (mirror : TreeMirror H.leafwise) :
    DepositAhead noteId mirror (mirror.processEvent event) where
  leaves leafId different := by
    rw [getLeaf_processEvent, change, leafAfter, if_neg different]
  next := by
    rw [nextNoteId_processEvent, change, nextAfter, toNat_max]
    omega
  originals leafId different := by
    rw [originalLeaves_processEvent, change, originalAfter, if_neg different]

private theorem leaf_ahead {event : VaultEvent} {noteId : UInt32}
    (change : Change.of H event = .zeroed noteId ∨ Change.of H event = .restored noteId)
    (mirror : TreeMirror H.leafwise) : LeafAhead noteId mirror (mirror.processEvent event) where
  leaves leafId different := by
    rw [getLeaf_processEvent]
    rcases change with change | change <;> rw [change, leafAfter, if_neg different]
  next := by
    rw [nextNoteId_processEvent]
    rcases change with change | change <;> rw [change, nextAfter]
  originals leafId := by
    rw [originalLeaves_processEvent]
    rcases change with change | change <;> rw [change, originalAfter]

/-- The original leaf of a note stays recorded. -/
theorem originalLeaves_kept (event : VaultEvent) {noteId : UInt32}
    (recorded : mirror.originalLeaves[noteId]? ≠ none) :
    (mirror.processEvent event).originalLeaves[noteId]? ≠ none := by
  rw [originalLeaves_processEvent]
  cases Change.of H event with
  | deposited depositedId leaf =>
      rw [originalAfter]
      split
      · simp
      · exact recorded
  | _ => exact recorded

private theorem deposit_absorbed {event : VaultEvent} {noteId : UInt32} {leaf : Felt252}
    (change : Change.of H event = .deposited noteId leaf) : Absorbed (processEvent (H := H.leafwise)) event := by
  refine ⟨DepositAhead noteId, deposit_ahead change,
    fun _ _ other ahead => ahead.processEvent other, ?_⟩
  intro first second ahead
  apply ext_leaves
  · intro leafId
    rw [getLeaf_processEvent, getLeaf_processEvent, change, leafAfter, leafAfter]
    by_cases same : leafId = noteId
    · rw [if_pos same, if_pos same]
    · rw [if_neg same, if_neg same, ahead.leaves leafId same]
  · rw [nextNoteId_processEvent, nextNoteId_processEvent, change, nextAfter, nextAfter]
    apply UInt32.toNat_inj.mp
    rw [toNat_max, toNat_max, ahead.next]
  · intro leafId
    rw [originalLeaves_processEvent, originalLeaves_processEvent, change, originalAfter,
      originalAfter]
    by_cases same : leafId = noteId
    · rw [if_pos same, if_pos same]
    · rw [if_neg same, if_neg same, ahead.originals leafId same]

private theorem zeroed_absorbed {event : VaultEvent} {noteId : UInt32}
    (change : Change.of H event = .zeroed noteId) : Absorbed (processEvent (H := H.leafwise)) event := by
  refine ⟨LeafAhead noteId, leaf_ahead (Or.inl change),
    fun _ _ other ahead => ahead.processEvent other, ?_⟩
  intro first second ahead
  apply ext_leaves
  · intro leafId
    rw [getLeaf_processEvent, getLeaf_processEvent, change, leafAfter, leafAfter]
    by_cases same : leafId = noteId
    · rw [if_pos same, if_pos same]
    · rw [if_neg same, if_neg same, ahead.leaves leafId same]
  · rw [nextNoteId_processEvent, nextNoteId_processEvent, change, nextAfter, nextAfter, ahead.next]
  · intro leafId
    rw [originalLeaves_processEvent, originalLeaves_processEvent, change, originalAfter,
      originalAfter, ahead.originals]

/-- A challenge does nothing to a note without an original leaf; otherwise it
sets the leaf again whatever it was. -/
private theorem restored_absorbed {event : VaultEvent} {noteId : UInt32}
    (change : Change.of H event = .restored noteId) : Absorbed (processEvent (H := H.leafwise)) event := by
  refine ⟨fun first second => first = second ∨
    (first.originalLeaves[noteId]? ≠ none ∧ LeafAhead noteId first second), ?_, ?_, ?_⟩
  · intro mirror
    by_cases recorded : mirror.originalLeaves[noteId]? = none
    · left
      apply ext_leaves
      · intro leafId
        rw [getLeaf_processEvent, change, leafAfter]
        split
        · simp [recorded]
        · rfl
      · rw [nextNoteId_processEvent, change, nextAfter]
      · intro leafId
        rw [originalLeaves_processEvent, change, originalAfter]
    · right
      exact ⟨recorded, leaf_ahead (Or.inr change) mirror⟩
  · intro first second other ahead
    rcases ahead with rfl | ⟨recorded, ahead⟩
    · exact Or.inl rfl
    · exact Or.inr ⟨originalLeaves_kept other recorded, ahead.processEvent other⟩
  · intro first second ahead
    rcases ahead with rfl | ⟨recorded, ahead⟩
    · rfl
    obtain ⟨original, found⟩ := Option.ne_none_iff_exists'.mp recorded
    apply ext_leaves
    · intro leafId
      rw [getLeaf_processEvent, getLeaf_processEvent, change, leafAfter, leafAfter]
      by_cases same : leafId = noteId
      · rw [if_pos same, if_pos same, ← ahead.originals noteId, found]
        rfl
      · rw [if_neg same, if_neg same, ahead.leaves leafId same]
    · rw [nextNoteId_processEvent, nextNoteId_processEvent, change, nextAfter, nextAfter,
        ahead.next]
    · intro leafId
      rw [originalLeaves_processEvent, originalLeaves_processEvent, change, originalAfter,
        originalAfter, ahead.originals]

private theorem nothing_absorbed {event : VaultEvent}
    (change : Change.of H event = .nothing) : Absorbed (processEvent (H := H.leafwise)) event := by
  refine ⟨Eq, ?_, fun _ _ other same => by rw [same], fun _ _ same => by rw [same]⟩
  intro mirror
  apply ext_leaves
  · intro leafId
    rw [getLeaf_processEvent, change, leafAfter]
  · rw [nextNoteId_processEvent, change, nextAfter]
  · intro leafId
    rw [originalLeaves_processEvent, change, originalAfter]

/-- The mirror absorbs every event. -/
theorem absorbed (event : VaultEvent) : Absorbed (processEvent (H := H.leafwise)) event := by
  cases change : Change.of H event with
  | deposited noteId leaf => exact deposit_absorbed change
  | zeroed noteId => exact zeroed_absorbed change
  | restored noteId => exact restored_absorbed change
  | nothing => exact nothing_absorbed change

/-- Events of a batch may have been applied before it. -/
theorem processEvents_of_subset {applied events : List VaultEvent} (subset : applied ⊆ events)
    (mirror : TreeMirror H.leafwise) :
    mirror.processEvents (applied ++ events) = mirror.processEvents events :=
  foldl_append_of_subset (fun event _ => absorbed event) subset mirror

section Snapshots

/-- Every nonzero leaf belongs to a note whose original leaf is recorded. -/
def LeavesRecorded (mirror : TreeMirror H.leafwise) : Prop :=
  ∀ noteId, mirror.getLeaf noteId ≠ Felt252.zero → mirror.originalLeaves[noteId]? ≠ none

theorem leavesRecorded_new : LeavesRecorded (new : TreeMirror H.leafwise) :=
  fun _ nonzero => (nonzero rfl).elim

theorem LeavesRecorded.processEvent (recorded : mirror.LeavesRecorded) (event : VaultEvent) :
    (mirror.processEvent event).LeavesRecorded := by
  intro noteId nonzero
  rw [getLeaf_processEvent] at nonzero
  rw [originalLeaves_processEvent]
  cases change : Change.of H event with
  | deposited depositedId leaf =>
      rw [change, leafAfter] at nonzero
      rw [originalAfter]
      by_cases same : noteId = depositedId
      · simp [same]
      · rw [if_neg same] at nonzero ⊢
        exact recorded noteId nonzero
  | zeroed zeroedId =>
      rw [change, leafAfter] at nonzero
      split at nonzero
      · exact (nonzero rfl).elim
      · exact recorded noteId nonzero
  | restored restoredId =>
      rw [change, leafAfter] at nonzero
      split at nonzero
      · rename_i same
        subst same
        intro missing
        rw [originalAfter] at missing
        rw [missing] at nonzero
        exact recorded noteId nonzero missing
      · exact recorded noteId nonzero
  | nothing =>
      rw [change, leafAfter] at nonzero
      exact recorded noteId nonzero

theorem LeavesRecorded.processEvents (recorded : mirror.LeavesRecorded)
    (events : List VaultEvent) : (mirror.processEvents events).LeavesRecorded := by
  induction events generalizing mirror with
  | nil => exact recorded
  | cons event events ih => exact ih (recorded.processEvent event)

/-- The original leaves lie below the next free note id, or at the last id of
all, where this id can grow no further. -/
def OriginalsBelow (mirror : TreeMirror H.leafwise) : Prop :=
  ∀ noteId : UInt32, mirror.originalLeaves[noteId]? ≠ none →
    noteId.toNat < mirror.nextNoteId.toNat ∨ noteId.toNat = 2 ^ 32 - 1

theorem originalsBelow_new : OriginalsBelow (new : TreeMirror H.leafwise) :=
  fun _ recorded => (recorded rfl).elim

theorem OriginalsBelow.processEvent (below : mirror.OriginalsBelow) (event : VaultEvent) :
    (mirror.processEvent event).OriginalsBelow := by
  intro noteId recorded
  rw [originalLeaves_processEvent] at recorded
  rw [nextNoteId_processEvent]
  cases change : Change.of H event with
  | deposited depositedId leaf =>
      rw [change, originalAfter] at recorded
      rw [nextAfter, toNat_max]
      by_cases same : noteId = depositedId
      · subst same
        have small := noteId.toNat_lt
        by_cases last : noteId.toNat + 1 < 2 ^ 32
        · have next : (saturatingSucc noteId).toNat = noteId.toNat + 1 := by
            rw [saturatingSucc, if_pos last, UInt32.toNat_add]
            exact Nat.mod_eq_of_lt last
          omega
        · omega
      · rw [if_neg same] at recorded
        have earlier := below noteId recorded
        omega
  | zeroed zeroedId | restored restoredId =>
      rw [change, originalAfter] at recorded
      rw [nextAfter]
      exact below noteId recorded
  | nothing =>
      rw [change, originalAfter] at recorded
      rw [nextAfter]
      exact below noteId recorded

/-- What the mirror keeps about its notes. -/
structure WellFormed (mirror : TreeMirror H.leafwise) : Prop where
  recorded : mirror.LeavesRecorded
  below : mirror.OriginalsBelow

theorem wellFormed_new : WellFormed (new : TreeMirror H.leafwise) :=
  ⟨leavesRecorded_new, originalsBelow_new⟩

theorem WellFormed.processEvent (wellFormed : mirror.WellFormed) (event : VaultEvent) :
    (mirror.processEvent event).WellFormed :=
  ⟨wellFormed.recorded.processEvent event, wellFormed.below.processEvent event⟩

/-- Nonzero leaves set one after the other above all earlier ones. -/
theorem getLeaf_setLeaves (leaves : List Felt252) {index : Nat} {tree : UInt32 → Felt252}
    (fits : index + leaves.length ≤ 2 ^ 32)
    (above : ∀ noteId : UInt32, index ≤ noteId.toNat → tree noteId = Felt252.zero)
    (noteId : UInt32) :
    setLeaves (H := H.leafwise) index leaves tree noteId =
      if noteId.toNat < index then tree noteId
      else leaves.getD (noteId.toNat - index) Felt252.zero := by
  induction leaves generalizing index tree with
  | nil =>
      by_cases below : noteId.toNat < index
      · simp [setLeaves, below]
      · simp [setLeaves, below, above noteId (by omega)]
  | cons leaf leaves ih =>
      have length : index + 1 + leaves.length ≤ 2 ^ 32 := by
        simp only [List.length_cons] at fits
        omega
      have small : index < 2 ^ 32 := by omega
      have position : (UInt32.ofNat index).toNat = index := UInt32.toNat_ofNat_of_lt' small
      have written : ∀ leafId : UInt32,
          (if leaf = Felt252.zero then tree else Function.update tree (UInt32.ofNat index) leaf)
            leafId = if leafId.toNat = index then leaf else tree leafId := by
        intro leafId
        have same : leafId = UInt32.ofNat index ↔ leafId.toNat = index := by
          rw [← UInt32.toNat_inj, position]
        by_cases zero : leaf = Felt252.zero
        · rw [if_pos zero]
          by_cases own : leafId.toNat = index
          · rw [if_pos own, above leafId (by omega), zero]
          · rw [if_neg own]
        · rw [if_neg zero, Function.update_apply]
          simp only [same]
      have later : ∀ leafId : UInt32, index + 1 ≤ leafId.toNat →
          (if leaf = Felt252.zero then tree else Function.update tree (UInt32.ofNat index) leaf)
            leafId = Felt252.zero := by
        intro leafId later
        rw [written, if_neg (by omega), above leafId (by omega)]
      have rest := ih length later
      rw [setLeaves, rest, written]
      by_cases below : noteId.toNat < index
      · rw [if_pos (by omega), if_neg (by omega), if_pos below]
      · rw [if_neg below]
        by_cases own : noteId.toNat = index
        · rw [if_pos (by omega), if_pos own, own, Nat.sub_self]
          rfl
        · rw [if_neg (by omega)]
          have shifted : noteId.toNat - index = noteId.toNat - (index + 1) + 1 := by omega
          rw [shifted]
          rfl

/-- Restoring its own snapshot gives a mirror back, if it is accepted. -/
theorem fromSnapshot_snapshot (recorded : mirror.LeavesRecorded) {restored : TreeMirror H.leafwise}
    (accepted : fromSnapshot mirror.snapshot = .ok restored) : restored = mirror := by
  unfold fromSnapshot at accepted
  split at accepted
  · cases accepted
  split at accepted
  · cases accepted
  rename_i lengths inside
  cases accepted
  have below : ∀ noteId leaf, mirror.originalLeaves[noteId]? = some leaf →
      noteId < mirror.nextNoteId := by
    intro noteId leaf found
    by_contra beyond
    apply inside
    rw [List.any_eq_true]
    refine ⟨(noteId, leaf), Std.ExtTreeMap.mem_toList_iff_getElem?_eq_some.mpr found, ?_⟩
    exact decide_eq_true (UInt32.not_lt.mp beyond)
  have length : mirror.currentLeaves.length = mirror.nextNoteId.toNat := by
    simp [currentLeaves]
  apply ext_leaves
  · intro noteId
    have limit := mirror.nextNoteId.toNat_lt
    have fits : 0 + mirror.currentLeaves.length ≤ 2 ^ 32 := by omega
    have zeros : ∀ other : UInt32, 0 ≤ other.toNat → H.leafwise.new other = Felt252.zero :=
      fun _ _ => rfl
    change setLeaves (H := H.leafwise) 0 mirror.currentLeaves H.leafwise.new noteId = _
    rw [getLeaf_setLeaves mirror.currentLeaves fits zeros, if_neg (Nat.not_lt_zero _),
      Nat.sub_zero, List.getD_eq_getElem?_getD]
    by_cases inRange : noteId.toNat < mirror.nextNoteId.toNat
    · simp [currentLeaves, inRange, getLeaf]
    · have unset : mirror.getLeaf noteId = Felt252.zero := by
        by_contra nonzero
        obtain ⟨leaf, found⟩ := Option.ne_none_iff_exists'.mp (recorded noteId nonzero)
        exact inRange (UInt32.lt_iff_toNat_lt.mp (below noteId leaf found))
      rw [unset, List.getElem?_eq_none (by omega), Option.getD_none]
  · rfl
  · intro noteId
    change (Std.ExtTreeMap.ofList mirror.originalLeaves.toList)[noteId]? = _
    cases found : mirror.originalLeaves[noteId]? with
    | some leaf =>
        exact Std.ExtTreeMap.getElem?_ofList_of_mem Std.ReflCmp.compare_self
          Std.ExtTreeMap.distinct_keys_toList
          (Std.ExtTreeMap.mem_toList_iff_getElem?_eq_some.mpr found)
    | none =>
        apply Std.ExtTreeMap.getElem?_ofList_of_contains_eq_false
        rw [List.contains_eq_mem, decide_eq_false_iff_not]
        intro member
        obtain ⟨entry, listed, rfl⟩ := List.mem_map.mp member
        have some := Std.ExtTreeMap.mem_toList_iff_getElem?_eq_some.mp listed
        rw [found] at some
        cases some

end Snapshots

end TreeMirror

end ZkApi.Indexer
