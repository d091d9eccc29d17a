import ZkApi.TreeMirror

/-!
# The mirror by its leaves

Nothing but the leaves of a tree can be seen from outside.  The mirror over leaf functions has
the same operations as the mirror over the tree of the protocol crate, and every operation of
the one is that operation of the other.
-/

namespace ZkApi.Indexer

/-- The same hashes, with the leaves in the place of the tree. -/
@[reducible]
def TreeFunctions.leafwise (H : TreeFunctions) : TreeFunctions :=
  .ofHash H.computeNoteLeaf H.hashPair

namespace TreeMirror

variable {H : TreeFunctions} {mirror other : TreeMirror H}

/-- Apply events in order. -/
def processEvents (mirror : TreeMirror H) (events : List VaultEvent) : TreeMirror H :=
  events.foldl processEvent mirror

@[simp]
theorem processEvents_nil (mirror : TreeMirror H) : mirror.processEvents [] = mirror :=
  rfl

theorem processEvents_append (mirror : TreeMirror H) (first second : List VaultEvent) :
    mirror.processEvents (first ++ second) =
      (mirror.processEvents first).processEvents second :=
  List.foldl_append

/-- What can be seen of a mirror. -/
def leafwise (mirror : TreeMirror H) : TreeMirror H.leafwise :=
  ⟨H.getLeaf mirror.tree, mirror.nextNoteId, mirror.originalLeaves⟩

/-- Two mirrors that cannot be told apart: every leaf, every original leaf and the next note id
are the same, and with them the root and every path. -/
structure Same (first second : TreeMirror H) : Prop where
  leaf : ∀ noteId, first.getLeaf noteId = second.getLeaf noteId
  original : ∀ noteId : UInt32, first.originalLeaves[noteId]? = second.originalLeaves[noteId]?
  next : first.nextNoteId = second.nextNoteId
  root : first.root = second.root
  path : ∀ noteId, first.getPath noteId = second.getPath noteId

theorem same_of_leafwise (lawful : H.Lawful) (equal : mirror.leafwise = other.leafwise) :
    mirror.Same other := by
  have leaves : ∀ noteId, mirror.getLeaf noteId = other.getLeaf noteId :=
    congrFun (congrArg tree equal)
  exact {
    leaf := leaves
    original := fun noteId =>
      congrArg (fun mirror : TreeMirror H.leafwise => mirror.originalLeaves[noteId]?) equal
    next := congrArg (fun mirror : TreeMirror H.leafwise => mirror.nextNoteId) equal
    root := lawful.root_congr leaves
    path := lawful.getSiblings_congr leaves }

section Operations

variable (lawful : H.Lawful)
include lawful

theorem leafwise_new : (new : TreeMirror H).leafwise = new := by
  have leaves : H.getLeaf H.new = fun _ => Felt252.zero := funext lawful.getLeaf_new
  rw [leafwise, new, new, leaves]

theorem leafwise_setLeaf (mirror : TreeMirror H) (noteId : UInt32) (leaf : Felt252) :
    (mirror.setLeaf noteId leaf).leafwise = mirror.leafwise.setLeaf noteId leaf := by
  have leaves : H.getLeaf (H.setLeaf mirror.tree noteId leaf) =
      Function.update (H.getLeaf mirror.tree) noteId leaf := by
    funext other
    rw [lawful.getLeaf_setLeaf, Function.update_apply]
  rw [leafwise, setLeaf, leaves]
  rfl

theorem leafwise_processEvent (mirror : TreeMirror H) (event : VaultEvent) :
    (mirror.processEvent event).leafwise = mirror.leafwise.processEvent event := by
  cases event with
  | noteDeposited noteId commitment amount expiryTs newRoot =>
      have leaves : H.getLeaf (H.setLeaf mirror.tree noteId
          (H.computeNoteLeaf noteId commitment amount expiryTs)) =
          Function.update (H.getLeaf mirror.tree) noteId
            (H.computeNoteLeaf noteId commitment amount expiryTs) := by
        funext other
        rw [lawful.getLeaf_setLeaf, Function.update_apply]
      rw [leafwise, processEvent, leaves]
      rfl
  | escapeWithdrawalChallenged noteId nullifier restoredRoot =>
      have same : mirror.leafwise.originalLeaves[noteId]? = mirror.originalLeaves[noteId]? := rfl
      cases found : mirror.originalLeaves[noteId]? with
      | none => simp only [processEvent, same, found]
      | some original =>
          simp only [processEvent, same, found]
          exact leafwise_setLeaf lawful mirror noteId original
  | escapeWithdrawalFinalized noteId nullifier finalBalance => rfl
  | mutualClose noteId nullifier finalBalance => exact leafwise_setLeaf lawful mirror noteId _
  | escapeWithdrawalInitiated noteId nullifier finalBalance challengeDeadline newRoot =>
      exact leafwise_setLeaf lawful mirror noteId _
  | expiredClaimed noteId depositAmount newRoot => exact leafwise_setLeaf lawful mirror noteId _

theorem leafwise_processEvents (mirror : TreeMirror H) (events : List VaultEvent) :
    (mirror.processEvents events).leafwise = mirror.leafwise.processEvents events := by
  induction events generalizing mirror with
  | nil => rfl
  | cons event events ih =>
      change ((mirror.processEvent event).processEvents events).leafwise =
        (mirror.leafwise.processEvent event).processEvents events
      rw [ih, leafwise_processEvent lawful]

theorem leafwise_setLeaves (leaves : List Felt252) (index : Nat) (tree : H.MerkleTree) :
    H.getLeaf (setLeaves index leaves tree) =
      setLeaves (H := H.leafwise) index leaves (H.getLeaf tree) := by
  induction leaves generalizing index tree with
  | nil => rfl
  | cons leaf leaves ih =>
      rw [setLeaves, setLeaves, ih]
      congr 1
      split
      · rfl
      · funext other
        rw [lawful.getLeaf_setLeaf]
        exact (Function.update_apply ..).symm

theorem leafwise_fromSnapshot (snapshot : TreeMirrorSnapshot) :
    (fromSnapshot snapshot : Except String (TreeMirror H)).map leafwise =
      fromSnapshot snapshot := by
  unfold fromSnapshot
  split
  · rfl
  split
  · rfl
  · have leaves : H.getLeaf (setLeaves 0 snapshot.currentLeaves H.new) =
        setLeaves (H := H.leafwise) 0 snapshot.currentLeaves H.leafwise.new := by
      have zero : H.getLeaf H.new = H.leafwise.new := funext lawful.getLeaf_new
      rw [leafwise_setLeaves lawful, zero]
    simp only [Except.map, leafwise, leaves]

end Operations

end TreeMirror

end ZkApi.Indexer
