import Mathlib.Logic.Function.Basic
import Mathlib.Data.List.Basic
import Mathlib.Tactic.Ring

/-!
# Binary Merkle trees

The tree over a function from indices to leaves, with any hash of two children.
The node at a level and an index covers the leaves whose index it is after that
many halvings.  A sibling path recomputes the root of the tree that holds the
given leaf, and with an injective hash equal nodes cover equal leaves.
-/

namespace Merkle

variable {α : Type*} (hash : α → α → α)

/-- The node at a level and an index of the tree over `leaves`. -/
def node (leaves : Nat → α) : Nat → Nat → α
  | 0, index => leaves index
  | level + 1, index =>
      hash (node leaves level (2 * index)) (node leaves level (2 * index + 1))

/-- The other child of the parent of a node. -/
def siblingIndex (index : Nat) : Nat :=
  if index % 2 = 0 then index + 1 else index - 1

/-- The siblings on the way from a node to the one `levels` above it. -/
def siblings (leaves : Nat → α) (level : Nat) : Nat → Nat → List α
  | 0, _ => []
  | levels + 1, index =>
      node hash leaves level (siblingIndex index) ::
        siblings leaves (level + 1) levels (index / 2)

/-- Hash a value with its siblings up the tree. -/
def foldPath : Nat → α → List α → α
  | _, value, [] => value
  | index, value, sibling :: rest =>
      foldPath (index / 2)
        (if index % 2 = 0 then hash value sibling else hash sibling value) rest

section Nodes

variable {hash} {leaves others : Nat → α}

theorem node_congr (level index : Nat)
    (agree : ∀ leaf, leaf / 2 ^ level = index → leaves leaf = others leaf) :
    node hash leaves level index = node hash others level index := by
  induction level generalizing index with
  | zero => exact agree index (by simp)
  | succ level ih =>
      have below : ∀ child, child / 2 = index →
          node hash leaves level child = node hash others level child := by
        intro child parent
        apply ih
        intro leaf under
        apply agree
        rw [pow_succ, ← Nat.div_div_eq_div_mul, under, parent]
      rw [node, node, below (2 * index) (by omega), below (2 * index + 1) (by omega)]

/-- Equal nodes cover equal leaves. -/
theorem leaves_of_node (injective : Function.Injective2 hash) {level index : Nat}
    (same : node hash leaves level index = node hash others level index) (leaf : Nat)
    (under : leaf / 2 ^ level = index) : leaves leaf = others leaf := by
  induction level generalizing index with
  | zero =>
      have position : leaf = index := by simpa using under
      subst position
      exact same
  | succ level ih =>
      obtain ⟨left, right⟩ := injective same
      have child : leaf / 2 ^ level / 2 = index := by
        rw [Nat.div_div_eq_div_mul, ← pow_succ, under]
      have parity : leaf / 2 ^ level = 2 * index ∨ leaf / 2 ^ level = 2 * index + 1 := by
        omega
      rcases parity with even | odd
      · exact ih left even
      · exact ih right odd

/-- The path of a node recomputes the node `levels` above it. -/
theorem foldPath_siblings (level levels index : Nat) :
    foldPath hash index (node hash leaves level index)
        (siblings hash leaves level levels index) =
      node hash leaves (level + levels) (index / 2 ^ levels) := by
  induction levels generalizing level index with
  | zero => simp [siblings, foldPath]
  | succ levels ih =>
      have parent : (if index % 2 = 0
          then hash (node hash leaves level index)
            (node hash leaves level (siblingIndex index))
          else hash (node hash leaves level (siblingIndex index))
            (node hash leaves level index)) =
          node hash leaves (level + 1) (index / 2) := by
        rw [node]
        by_cases even : index % 2 = 0
        · have left : 2 * (index / 2) = index := by omega
          rw [if_pos even, siblingIndex, if_pos even, left]
        · have left : 2 * (index / 2) = index - 1 := by omega
          have right : 2 * (index / 2) + 1 = index := by omega
          rw [if_neg even, siblingIndex, if_neg even, right, left]
      have position : index / 2 / 2 ^ levels = index / 2 ^ (levels + 1) := by
        rw [Nat.div_div_eq_div_mul, pow_succ']
      rw [siblings, foldPath, parent, ih, position]
      congr 1
      omega

private theorem sibling_div_ne (index : Nat) : siblingIndex index ≠ index := by
  unfold siblingIndex
  split <;> omega

/-- A path does not depend on the leaves below its own node. -/
theorem siblings_congr (level levels index : Nat)
    (agree : ∀ leaf, leaf / 2 ^ level ≠ index → leaves leaf = others leaf) :
    siblings hash leaves level levels index = siblings hash others level levels index := by
  induction levels generalizing level index with
  | zero => rfl
  | succ levels ih =>
      have first : node hash leaves level (siblingIndex index) =
          node hash others level (siblingIndex index) := by
        apply node_congr
        intro leaf under
        apply agree
        rw [under]
        exact sibling_div_ne index
      have rest : siblings hash leaves (level + 1) levels (index / 2) =
          siblings hash others (level + 1) levels (index / 2) := by
        apply ih
        intro leaf outside
        apply agree
        intro under
        apply outside
        rw [pow_succ, ← Nat.div_div_eq_div_mul, under]
      rw [siblings, siblings, first, rest]

/-- A path with some leaf value recomputes the root of the tree with that
value in the place of the leaf. -/
theorem foldPath_update (levels index : Nat) (value : α) (within : index < 2 ^ levels) :
    foldPath hash index value (siblings hash leaves 0 levels index) =
      node hash (Function.update leaves index value) levels 0 := by
  have own : node hash (Function.update leaves index value) 0 index = value := by
    simp [node]
  have others : siblings hash leaves 0 levels index =
      siblings hash (Function.update leaves index value) 0 levels index := by
    apply siblings_congr
    intro leaf outside
    have different : leaf ≠ index := by simpa using outside
    rw [Function.update_of_ne different]
  have folded : foldPath hash index
      (node hash (Function.update leaves index value) 0 index)
        (siblings hash (Function.update leaves index value) 0 levels index) =
      node hash (Function.update leaves index value) (0 + levels) (index / 2 ^ levels) :=
    foldPath_siblings 0 levels index
  rw [own, ← others] at folded
  rw [folded, Nat.zero_add, Nat.div_eq_of_lt within]

/-- Roots of trees of the same height are equal exactly when their leaves are. -/
theorem root_eq_iff (injective : Function.Injective2 hash) (levels : Nat) :
    node hash leaves levels 0 = node hash others levels 0 ↔
      ∀ leaf < 2 ^ levels, leaves leaf = others leaf := by
  constructor
  · intro same leaf within
    exact leaves_of_node injective same leaf (Nat.div_eq_of_lt within)
  · intro agree
    apply node_congr
    intro leaf under
    apply agree
    have positive : 0 < 2 ^ levels := Nat.two_pow_pos levels
    rcases Nat.div_eq_zero_iff.mp under with zero | small
    · omega
    · exact small

end Nodes

end Merkle
