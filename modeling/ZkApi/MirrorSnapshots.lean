import ZkApi.IndexerMachine
import ZkApi.MirrorReplay

/-!
# Snapshots of the mirror

A mirror that consumed events is restored from its snapshot, and the leaves of the snapshot
rebuild its tree, unless a note has been deposited into the last slot of the tree.
-/

namespace ZkApi.Indexer

/-- The note of an event. -/
def VaultEvent.noteId : VaultEvent → UInt32
  | .noteDeposited noteId _ _ _ _ => noteId
  | .mutualClose noteId _ _ => noteId
  | .escapeWithdrawalInitiated noteId _ _ _ _ => noteId
  | .escapeWithdrawalChallenged noteId _ _ => noteId
  | .escapeWithdrawalFinalized noteId _ _ => noteId
  | .expiredClaimed noteId _ _ => noteId

def VaultEvent.isDeposit : VaultEvent → Bool
  | .noteDeposited _ _ _ _ _ => true
  | _ => false

namespace TreeMirror

variable {H : TreeFunctions}

section Snapshots

/-- `get_snapshot`. -/
def getSnapshot (mirror : TreeMirror H) : TreeSnapshotResponse :=
  ⟨mirror.root, mirror.nextNoteId, mirror.currentLeaves⟩

/-- Insert every leaf of a list at its position, as a reader of the snapshot does. -/
def insertLeaves : Nat → List Felt252 → H.MerkleTree → H.MerkleTree
  | _, [], tree => tree
  | index, leaf :: leaves, tree =>
      insertLeaves (index + 1) leaves (H.setLeaf tree (UInt32.ofNat index) leaf)

/-- What a snapshot of a mirror promises: it is accepted, it gives an equal mirror that stays
equal, and its leaves give the tree. -/
structure RoundTrips (mirror : TreeMirror H) : Prop where
  restores : ∃ restored, fromSnapshot mirror.snapshot = .ok restored ∧ restored.Same mirror ∧
    ∀ later, (restored.processEvents later).Same (mirror.processEvents later)
  rebuilds : H.root (insertLeaves 0 mirror.getSnapshot.leaves H.new) = mirror.getSnapshot.root

theorem leafwise_insertLeaves (lawful : H.Lawful) (leaves : List Felt252) (index : Nat)
    (tree : H.MerkleTree) :
    H.getLeaf (insertLeaves index leaves tree) =
      insertLeaves (H := H.leafwise) index leaves (H.getLeaf tree) := by
  induction leaves generalizing index tree with
  | nil => rfl
  | cons leaf leaves ih =>
      rw [insertLeaves, insertLeaves, ih]
      congr 1
      funext other
      rw [lawful.getLeaf_setLeaf]
      exact (Function.update_apply ..).symm

section Leaves

variable {mirror : TreeMirror H.leafwise}

/-- Every note with an original leaf lies below the next free note id. -/
def OriginalsInside (mirror : TreeMirror H) : Prop :=
  ∀ noteId : UInt32, mirror.originalLeaves[noteId]? ≠ none → noteId < mirror.nextNoteId

/-- Leaves of zero change nothing where no leaf has been set. -/
theorem insertLeaves_eq_setLeaves (leaves : List Felt252) {index : Nat} {tree : UInt32 → Felt252}
    (fits : index + leaves.length ≤ 2 ^ 32)
    (above : ∀ noteId : UInt32, index ≤ noteId.toNat → tree noteId = Felt252.zero) :
    insertLeaves (H := H.leafwise) index leaves tree = setLeaves index leaves tree := by
  induction leaves generalizing index tree with
  | nil => rfl
  | cons leaf leaves ih =>
      rw [List.length_cons] at fits
      have position : (UInt32.ofNat index).toNat = index :=
        UInt32.toNat_ofNat_of_lt' (show index < 2 ^ 32 by omega)
      have same : (if leaf = Felt252.zero then tree
          else Function.update tree (UInt32.ofNat index) leaf) =
            Function.update tree (UInt32.ofNat index) leaf := by
        split
        · rename_i zero
          funext noteId
          rw [Function.update_apply]
          split
          · rename_i own
            rw [own, above _ position.ge, zero]
          · rfl
        · rfl
      rw [insertLeaves, setLeaves, same]
      apply ih (by omega)
      intro noteId later
      have other : noteId ≠ UInt32.ofNat index := by
        rintro rfl
        omega
      exact (Function.update_of_ne other ..).trans (above noteId (by omega))

theorem fromSnapshot_inside (recorded : mirror.LeavesRecorded) (inside : mirror.OriginalsInside) :
    fromSnapshot mirror.snapshot = .ok mirror := by
  have length : mirror.snapshot.currentLeaves.length = mirror.snapshot.nextNoteId.toNat := by
    simp [snapshot, currentLeaves]
  have below : ¬ (mirror.snapshot.originalLeaves.any
      fun entry => mirror.snapshot.nextNoteId ≤ entry.1) = true := by
    intro beyond
    obtain ⟨entry, listed, late⟩ := List.any_eq_true.mp beyond
    have found := Std.ExtTreeMap.mem_toList_iff_getElem?_eq_some.mp listed
    have early := inside entry.1 (by rw [found]; simp)
    exact absurd early (UInt32.not_lt.mpr (of_decide_eq_true late))
  have accepted : ∃ restored : TreeMirror H.leafwise, fromSnapshot mirror.snapshot = .ok restored :=
    ⟨_, by rw [fromSnapshot, if_neg (not_not.mpr length), if_neg below]⟩
  obtain ⟨restored, same⟩ := accepted
  rw [same, fromSnapshot_snapshot recorded same]

theorem rebuild_inside (recorded : mirror.LeavesRecorded) (inside : mirror.OriginalsInside) :
    insertLeaves 0 mirror.currentLeaves H.leafwise.new = mirror.tree := by
  have length : mirror.currentLeaves.length = mirror.nextNoteId.toNat := by simp [currentLeaves]
  have limit := mirror.nextNoteId.toNat_lt
  have accepted := fromSnapshot_inside recorded inside
  rw [insertLeaves_eq_setLeaves _ (by omega) fun _ _ => rfl]
  unfold fromSnapshot at accepted
  split at accepted
  · cases accepted
  split at accepted
  · cases accepted
  exact congrArg TreeMirror.tree (Except.ok.inj accepted)

end Leaves

theorem not_accepted_of_outside {mirror : TreeMirror H} {noteId : UInt32}
    (recorded : mirror.originalLeaves[noteId]? ≠ none) (outside : ¬ noteId < mirror.nextNoteId)
    (restored : TreeMirror H) :
    fromSnapshot mirror.snapshot ≠ .ok restored := by
  intro accepted
  unfold fromSnapshot at accepted
  split at accepted
  · cases accepted
  split at accepted
  · cases accepted
  rename_i lengths inside
  apply inside
  obtain ⟨leaf, found⟩ := Option.ne_none_iff_exists'.mp recorded
  rw [List.any_eq_true]
  exact ⟨(noteId, leaf), Std.ExtTreeMap.mem_toList_iff_getElem?_eq_some.mpr found,
    decide_eq_true (UInt32.not_lt.mp outside)⟩

/-- A snapshot round-trips exactly if all original leaves lie inside it. -/
theorem roundTrips_iff (lawful : H.Lawful) {mirror : TreeMirror H}
    (recorded : mirror.leafwise.LeavesRecorded) : mirror.RoundTrips ↔ mirror.OriginalsInside := by
  constructor
  · intro trips noteId found
    by_contra outside
    obtain ⟨restored, accepted, -⟩ := trips.restores
    exact not_accepted_of_outside found outside restored accepted
  · intro inside
    have whole : (fromSnapshot mirror.snapshot).map leafwise = .ok mirror.leafwise :=
      (leafwise_fromSnapshot lawful _).trans (fromSnapshot_inside recorded inside)
    constructor
    · cases accepted : fromSnapshot (H := H) mirror.snapshot with
      | error message =>
          rw [accepted] at whole
          cases whole
      | ok restored =>
          rw [accepted] at whole
          have same : restored.leafwise = mirror.leafwise := Except.ok.inj whole
          refine ⟨restored, rfl, same_of_leafwise lawful same, fun later => ?_⟩
          apply same_of_leafwise lawful
          rw [leafwise_processEvents lawful, leafwise_processEvents lawful, same]
    · apply lawful.root_congr
      intro noteId
      have zero : H.getLeaf H.new = H.leafwise.new := funext lawful.getLeaf_new
      change H.getLeaf (insertLeaves 0 mirror.currentLeaves H.new) noteId = _
      rw [leafwise_insertLeaves lawful, zero]
      exact congrFun (rebuild_inside recorded inside) noteId

end Snapshots

section Deposits

variable {mirror : TreeMirror H.leafwise}

/-- A note has an original leaf once it has been deposited. -/
theorem originalLeaves_processEvents (events : List VaultEvent) (noteId : UInt32) :
    (mirror.processEvents events).originalLeaves[noteId]? ≠ none ↔
      mirror.originalLeaves[noteId]? ≠ none ∨
        ∃ event ∈ events, event.isDeposit = true ∧ event.noteId = noteId := by
  induction events generalizing mirror with
  | nil => simp
  | cons event events ih =>
      have step : (mirror.processEvent event).originalLeaves[noteId]? ≠ none ↔
          mirror.originalLeaves[noteId]? ≠ none ∨
            event.isDeposit = true ∧ event.noteId = noteId := by
        rw [originalLeaves_processEvent]
        cases event with
        | noteDeposited depositedId commitment amount expiryTs newRoot =>
            by_cases same : noteId = depositedId
            · simp [Change.of, originalAfter, VaultEvent.isDeposit, VaultEvent.noteId, same]
            · simp [Change.of, originalAfter, VaultEvent.isDeposit, VaultEvent.noteId, same,
                Ne.symm same]
        | _ => simp [Change.of, originalAfter, VaultEvent.isDeposit]
      have rest := @ih (mirror.processEvent event)
      rw [step] at rest
      refine Iff.trans rest ?_
      simp only [List.mem_cons, exists_eq_or_imp, or_assoc]

theorem OriginalsBelow.processEvents (below : mirror.OriginalsBelow) (events : List VaultEvent) :
    (mirror.processEvents events).OriginalsBelow := by
  induction events generalizing mirror with
  | nil => exact below
  | cons event events ih => exact ih (below.processEvent event)

/-- The snapshot of a mirror that consumed events round-trips exactly if none of them deposited
the last note id of all. -/
theorem snapshot_roundTrips_iff {H : TreeFunctions} (lawful : H.Lawful) (events : List VaultEvent) :
    (new.processEvents events : TreeMirror H).RoundTrips ↔
      ∀ event ∈ events, ¬ (event.isDeposit = true ∧ event.noteId.toNat = 2 ^ 32 - 1) := by
  have leaves : (new.processEvents events : TreeMirror H).leafwise = new.processEvents events := by
    rw [leafwise_processEvents lawful, leafwise_new lawful]
  have recorded : (new.processEvents events : TreeMirror H).leafwise.LeavesRecorded := by
    rw [leaves]
    exact leavesRecorded_new.processEvents events
  have inside : (new.processEvents events : TreeMirror H).OriginalsInside ↔
      (new.processEvents events : TreeMirror H.leafwise).OriginalsInside := by
    rw [← leaves]
    rfl
  rw [roundTrips_iff lawful recorded, inside]
  have below := (originalsBelow_new (H := H)).processEvents events
  constructor
  · rintro inside event member ⟨deposit, last⟩
    have recorded := (@originalLeaves_processEvents H new events event.noteId).mpr
      (Or.inr ⟨event, member, deposit, rfl⟩)
    have early := UInt32.lt_iff_toNat_lt.mp (inside event.noteId recorded)
    have limit := (new.processEvents events : TreeMirror H.leafwise).nextNoteId.toNat_lt
    omega
  · intro none noteId recorded
    rcases below noteId recorded with early | last
    · exact UInt32.lt_iff_toNat_lt.mpr early
    · rcases (originalLeaves_processEvents events noteId).mp recorded with initially | deposited
      · exact absurd rfl initially
      · obtain ⟨event, member, deposit, rfl⟩ := deposited
        exact absurd ⟨deposit, last⟩ (none event member)

/-- Hashes that keep nothing apart, over a tree of leaves. -/
@[reducible]
def constantTree : TreeFunctions :=
  .ofHash (fun _ _ _ _ => ⟨1⟩) fun left _ => left

theorem snapshot_roundTrips_iff_deposits :
    (new.processEvents [.noteDeposited 7 ⟨5⟩ 1000 1700000000 ⟨0⟩, .mutualClose 7 ⟨9⟩ 900] :
      TreeMirror constantTree).RoundTrips :=
  (snapshot_roundTrips_iff (TreeFunctions.ofHash_lawful _ _) _).mpr (by decide)

/-- After a deposit into the last slot of the tree the snapshot is refused. -/
theorem snapshot_of_last_note_refused :
    ¬ (new.processEvents [.noteDeposited 0xffffffff ⟨5⟩ 1000 1700000000 ⟨0⟩] :
      TreeMirror constantTree).RoundTrips := by
  intro trips
  obtain ⟨restored, accepted, -⟩ := trips.restores
  have recorded := (@originalLeaves_processEvents constantTree new
    [.noteDeposited 0xffffffff ⟨5⟩ 1000 1700000000 ⟨0⟩] 0xffffffff).mpr
      (Or.inr ⟨_, List.mem_singleton_self _, rfl, rfl⟩)
  exact not_accepted_of_outside recorded (by decide) restored accepted

end Deposits

end TreeMirror

end ZkApi.Indexer
