import ZkApi.EventReplay
import ZkApi.MerkleTree
import ZkApi.ProtocolTypes
import Std.Data.ExtTreeMap

/-!
# The indexer's mirror of the note tree

The mirror consumes vault events.  It keeps the current leaf of every note, the
leaf that a challenged withdrawal restores, and the next free note id.  A
snapshot holds the same data for the checkpoint file.
-/

namespace ZkApi.Indexer

/-- Events of the vault that affect the tree. -/
inductive VaultEvent where
  | noteDeposited (noteId : UInt32) (commitment : Felt252) (amount : Nat) (expiryTs : UInt64)
      (newRoot : Felt252)
  | mutualClose (noteId : UInt32) (nullifier : Felt252) (finalBalance : Nat)
  | escapeWithdrawalInitiated (noteId : UInt32) (nullifier : Felt252) (finalBalance : Nat)
      (challengeDeadline : UInt64) (newRoot : Felt252)
  | escapeWithdrawalChallenged (noteId : UInt32) (nullifier : Felt252) (restoredRoot : Felt252)
  | escapeWithdrawalFinalized (noteId : UInt32) (nullifier : Felt252) (finalBalance : Nat)
  | expiredClaimed (noteId : UInt32) (depositAmount : Nat) (newRoot : Felt252)
deriving DecidableEq

def merkleDepth : Nat := 32

/-- What the mirror takes from the protocol crate: the leaf of a note, the hash of two nodes and
the sparse Merkle tree. -/
structure TreeFunctions where
  computeNoteLeaf : UInt32 → Felt252 → Nat → UInt64 → Felt252
  hashPair : Felt252 → Felt252 → Felt252
  MerkleTree : Type
  new : MerkleTree
  root : MerkleTree → Felt252
  getLeaf : MerkleTree → UInt32 → Felt252
  setLeaf : MerkleTree → UInt32 → Felt252 → MerkleTree
  getSiblings : MerkleTree → UInt32 → List Felt252

/-- The leaves of a tree by their position. -/
def TreeFunctions.leafAt (H : TreeFunctions) (tree : H.MerkleTree) (index : Nat) : Felt252 :=
  H.getLeaf tree (UInt32.ofNat index)

/-- The tree is the binary tree over its leaves: a leaf is zero until it is set, and root and
siblings are the nodes over the leaves. -/
structure TreeFunctions.Lawful (H : TreeFunctions) : Prop where
  getLeaf_new : ∀ noteId, H.getLeaf H.new noteId = Felt252.zero
  getLeaf_setLeaf : ∀ tree noteId leaf other, H.getLeaf (H.setLeaf tree noteId leaf) other =
    if other = noteId then leaf else H.getLeaf tree other
  root_eq : ∀ tree, H.root tree = Merkle.node H.hashPair (H.leafAt tree) merkleDepth 0
  getSiblings_eq : ∀ tree noteId, H.getSiblings tree noteId =
    Merkle.siblings H.hashPair (H.leafAt tree) 0 merkleDepth noteId.toNat

namespace TreeFunctions

/-- Functions that keep nothing of a tree but its leaves. -/
@[reducible]
def ofHash (computeNoteLeaf : UInt32 → Felt252 → Nat → UInt64 → Felt252)
    (hashPair : Felt252 → Felt252 → Felt252) : TreeFunctions where
  computeNoteLeaf := computeNoteLeaf
  hashPair := hashPair
  MerkleTree := UInt32 → Felt252
  new _ := Felt252.zero
  root leaves := Merkle.node hashPair (fun index => leaves (UInt32.ofNat index)) merkleDepth 0
  getLeaf leaves noteId := leaves noteId
  setLeaf leaves noteId leaf := Function.update leaves noteId leaf
  getSiblings leaves noteId :=
    Merkle.siblings hashPair (fun index => leaves (UInt32.ofNat index)) 0 merkleDepth noteId.toNat

theorem ofHash_lawful (computeNoteLeaf : UInt32 → Felt252 → Nat → UInt64 → Felt252)
    (hashPair : Felt252 → Felt252 → Felt252) : (ofHash computeNoteLeaf hashPair).Lawful where
  getLeaf_new _ := rfl
  getLeaf_setLeaf leaves noteId leaf other := Function.update_apply leaves noteId leaf other
  root_eq _ := rfl
  getSiblings_eq _ _ := rfl

/-- The hash of two children has no collision. -/
def CollisionFree (H : TreeFunctions) : Prop :=
  Function.Injective2 H.hashPair

section Laws

variable {H : TreeFunctions} {tree other : H.MerkleTree}

theorem leafAt_toNat (noteId : UInt32) : H.leafAt tree noteId.toNat = H.getLeaf tree noteId := by
  rw [leafAt, UInt32.ofNat_toNat]

/-- The leaves of a tree determine its root. -/
theorem Lawful.root_congr (lawful : H.Lawful)
    (same : ∀ noteId, H.getLeaf tree noteId = H.getLeaf other noteId) :
    H.root tree = H.root other := by
  have leaves : H.leafAt tree = H.leafAt other := funext fun index => same (UInt32.ofNat index)
  rw [lawful.root_eq, lawful.root_eq, leaves]

theorem Lawful.getSiblings_congr (lawful : H.Lawful)
    (same : ∀ noteId, H.getLeaf tree noteId = H.getLeaf other noteId) (noteId : UInt32) :
    H.getSiblings tree noteId = H.getSiblings other noteId := by
  have leaves : H.leafAt tree = H.leafAt other := funext fun index => same (UInt32.ofNat index)
  rw [lawful.getSiblings_eq, lawful.getSiblings_eq, leaves]

/-- A leaf folded with the path of its note gives the root of the tree with that leaf in its
place. -/
theorem Lawful.foldPath_getSiblings (lawful : H.Lawful) (tree : H.MerkleTree) (noteId : UInt32)
    (leaf : Felt252) :
    Merkle.foldPath H.hashPair noteId.toNat leaf (H.getSiblings tree noteId) =
      H.root (H.setLeaf tree noteId leaf) := by
  have within : noteId.toNat < 2 ^ merkleDepth := noteId.toNat_lt
  have placed : H.root (H.setLeaf tree noteId leaf) =
      Merkle.node H.hashPair (Function.update (H.leafAt tree) noteId.toNat leaf)
        merkleDepth 0 := by
    rw [lawful.root_eq]
    apply Merkle.node_congr
    intro index under
    have small : index < 2 ^ 32 := by
      have positive : 0 < 2 ^ merkleDepth := Nat.two_pow_pos _
      rcases Nat.div_eq_zero_iff.mp under with zero | small
      · omega
      · exact small
    rw [leafAt, lawful.getLeaf_setLeaf]
    by_cases same : index = noteId.toNat
    · subst same
      simp
    · have different : UInt32.ofNat index ≠ noteId := by
        intro equal
        apply same
        rw [← equal, UInt32.toNat_ofNat_of_lt' small]
      rw [if_neg different, Function.update_of_ne same, leafAt]
  rw [lawful.getSiblings_eq, Merkle.foldPath_update _ _ _ within, placed]

/-- Trees with the same root have the same leaves, as far as the hash has no collision. -/
theorem Lawful.leaves_of_root (lawful : H.Lawful) (collisionFree : H.CollisionFree)
    (same : H.root tree = H.root other) (noteId : UInt32) :
    H.getLeaf tree noteId = H.getLeaf other noteId := by
  rw [lawful.root_eq, lawful.root_eq] at same
  have leaf := (Merkle.root_eq_iff collisionFree merkleDepth).mp same noteId.toNat noteId.toNat_lt
  rwa [leafAt_toNat, leafAt_toNat] at leaf

end Laws

end TreeFunctions

/-- The state behind the tree endpoints, as the checkpoint stores it. -/
structure TreeMirrorSnapshot where
  nextNoteId : UInt32
  currentLeaves : List Felt252
  originalLeaves : List (UInt32 × Felt252)
deriving DecidableEq

/-- The contract's tree, rebuilt from its events. -/
structure TreeMirror (H : TreeFunctions) where
  tree : H.MerkleTree
  nextNoteId : UInt32
  originalLeaves : Std.ExtTreeMap UInt32 Felt252

/-- Addition of one that stops at the largest 32-bit value. -/
def saturatingSucc (noteId : UInt32) : UInt32 :=
  if noteId.toNat + 1 < 2 ^ 32 then noteId + 1 else noteId

namespace TreeMirror

variable {H : TreeFunctions}

def new : TreeMirror H :=
  ⟨H.new, 0, ∅⟩

def root (mirror : TreeMirror H) : Felt252 :=
  H.root mirror.tree

/-- All current leaves below the next free note id. -/
def currentLeaves (mirror : TreeMirror H) : List Felt252 :=
  (List.range mirror.nextNoteId.toNat).map fun index => H.getLeaf mirror.tree (UInt32.ofNat index)

def snapshot (mirror : TreeMirror H) : TreeMirrorSnapshot :=
  ⟨mirror.nextNoteId, mirror.currentLeaves, mirror.originalLeaves.toList⟩

/-- Set every nonzero leaf of a list at its position. -/
def setLeaves : Nat → List Felt252 → H.MerkleTree → H.MerkleTree
  | _, [], tree => tree
  | index, leaf :: leaves, tree =>
      setLeaves (index + 1) leaves
        (if leaf = Felt252.zero then tree else H.setLeaf tree (UInt32.ofNat index) leaf)

def fromSnapshot (snapshot : TreeMirrorSnapshot) : Except String (TreeMirror H) :=
  if snapshot.currentLeaves.length ≠ snapshot.nextNoteId.toNat then
    .error (s!"snapshot has {snapshot.currentLeaves.length} leaves but next_note_id is " ++
      s!"{snapshot.nextNoteId}")
  else if snapshot.originalLeaves.any fun entry => snapshot.nextNoteId ≤ entry.1 then
    .error "snapshot contains an original leaf beyond next_note_id"
  else
    .ok ⟨setLeaves 0 snapshot.currentLeaves H.new, snapshot.nextNoteId,
      .ofList snapshot.originalLeaves⟩

def getPath (mirror : TreeMirror H) (noteId : UInt32) : List Felt252 :=
  H.getSiblings mirror.tree noteId

def getZeroPath (mirror : TreeMirror H) (noteId : UInt32) : List Felt252 :=
  H.getSiblings mirror.tree noteId

def getLeaf (mirror : TreeMirror H) (noteId : UInt32) : Felt252 :=
  H.getLeaf mirror.tree noteId

/-- Set the current leaf of a note. -/
def setLeaf (mirror : TreeMirror H) (noteId : UInt32) (leaf : Felt252) : TreeMirror H :=
  { mirror with tree := H.setLeaf mirror.tree noteId leaf }

/-- Process a contract event. -/
def processEvent (mirror : TreeMirror H) : VaultEvent → TreeMirror H
  | .noteDeposited noteId commitment amount expiryTs _ =>
      let leaf := H.computeNoteLeaf noteId commitment amount expiryTs
      { tree := H.setLeaf mirror.tree noteId leaf
        originalLeaves := mirror.originalLeaves.insert noteId leaf
        nextNoteId := max mirror.nextNoteId (saturatingSucc noteId) }
  | .mutualClose noteId _ _ => mirror.setLeaf noteId Felt252.zero
  | .escapeWithdrawalInitiated noteId _ _ _ _ => mirror.setLeaf noteId Felt252.zero
  | .escapeWithdrawalChallenged noteId _ _ =>
      match mirror.originalLeaves[noteId]? with
      | some original => mirror.setLeaf noteId original
      | none => mirror
  | .escapeWithdrawalFinalized _ _ _ => mirror
  | .expiredClaimed noteId _ _ => mirror.setLeaf noteId Felt252.zero

end TreeMirror

end ZkApi.Indexer
