import Mathlib.Data.List.Pairwise

/-!
# Tables with uniqueness constraints

A table is a list of rows in insertion order, no two of which clash.  `Clash`
is the disjunction of the uniqueness constraints of a schema.  A statement
that would produce clashing rows is refused and changes nothing.
-/

namespace ConstrainedTable

/-- Rows in insertion order, pairwise free of clashes. -/
structure Table {Row : Type} (Clash : Row → Row → Prop) where
  rows : List Row
  consistent : rows.Pairwise fun first second => ¬ Clash first second

namespace Table

variable {Row : Type} {Clash : Row → Row → Prop}

def empty : Table Clash := ⟨[], List.Pairwise.nil⟩

instance : Membership Row (Table Clash) where
  mem table row := row ∈ table.rows

theorem mem_rows {table : Table Clash} {row : Row} :
    row ∈ table.rows ↔ row ∈ table :=
  Iff.rfl

@[simp]
theorem not_mem_empty (row : Row) : row ∉ (empty : Table Clash) :=
  List.not_mem_nil

/-- The first row in insertion order that satisfies the condition. -/
def first (table : Table Clash) (condition : Row → Bool) : Option Row :=
  table.rows.find? condition

def select (table : Table Clash) (condition : Row → Bool) : List Row :=
  table.rows.filter condition

/-- The number of rows a statement with this condition affects. -/
def affected (table : Table Clash) (condition : Row → Bool) : Nat :=
  (table.select condition).length

def insert [DecidableRel Clash] (table : Table Clash) (row : Row) :
    Option (Table Clash) :=
  if free : ∀ other ∈ table.rows, ¬ Clash other row then
    some ⟨table.rows ++ [row], by
      refine List.pairwise_append.mpr ⟨table.consistent, List.pairwise_singleton _ _, ?_⟩
      intro other member added addedMember
      cases List.mem_singleton.mp addedMember
      exact free other member⟩
  else
    none

/-- The rows after an update that the constraints have not checked yet. -/
def updatedRow (condition : Row → Bool) (change : Row → Row) (row : Row) : Row :=
  if condition row then change row else row

def update [DecidableRel Clash] (table : Table Clash)
    (condition : Row → Bool) (change : Row → Row) : Option (Table Clash) :=
  if consistent : (table.rows.map (updatedRow condition change)).Pairwise
      fun first second => ¬ Clash first second then
    some ⟨_, consistent⟩
  else
    none

def delete (table : Table Clash) (condition : Row → Bool) : Table Clash :=
  ⟨table.rows.filter fun row => !condition row, table.consistent.filter _⟩

theorem eq_of_clash (symmetric : ∀ first second, Clash first second → Clash second first)
    {table : Table Clash} {first second : Row}
    (firstMember : first ∈ table) (secondMember : second ∈ table)
    (clash : Clash first second) : first = second := by
  rcases table with ⟨rows, consistent⟩
  change first ∈ rows at firstMember
  change second ∈ rows at secondMember
  induction consistent with
  | nil => cases firstMember
  | @cons row rows apart _ ih =>
      rcases List.mem_cons.mp firstMember with rfl | firstLater
      · rcases List.mem_cons.mp secondMember with rfl | secondLater
        · rfl
        · exact (apart second secondLater clash).elim
      · rcases List.mem_cons.mp secondMember with rfl | secondLater
        · exact (apart first firstLater (symmetric _ _ clash)).elim
        · exact ih firstLater secondLater

theorem first_eq_some {table : Table Clash} {condition : Row → Bool} {row : Row}
    (found : table.first condition = some row) :
    row ∈ table ∧ condition row = true :=
  ⟨List.mem_of_find?_eq_some found, List.find?_some found⟩

theorem first_eq_none {table : Table Clash} {condition : Row → Bool}
    (missing : table.first condition = none) {row : Row} (member : row ∈ table) :
    condition row = false := by
  simpa using List.find?_eq_none.mp missing row member

/-- A condition that only clashing rows share finds its row wherever it is. -/
theorem first_of_mem (symmetric : ∀ first second, Clash first second → Clash second first)
    {table : Table Clash} {condition : Row → Bool} {row : Row}
    (member : row ∈ table) (satisfied : condition row = true)
    (unique : ∀ other, condition other = true → Clash other row) :
    table.first condition = some row := by
  cases found : table.first condition with
  | none =>
      have := first_eq_none found member
      simp [satisfied] at this
  | some other =>
      obtain ⟨otherMember, otherSatisfied⟩ := first_eq_some found
      rw [eq_of_clash symmetric otherMember member (unique other otherSatisfied)]

theorem mem_select {table : Table Clash} {condition : Row → Bool} {row : Row} :
    row ∈ table.select condition ↔ row ∈ table ∧ condition row = true :=
  List.mem_filter

theorem exists_of_affected {table : Table Clash} {condition : Row → Bool}
    (positive : table.affected condition ≠ 0) :
    ∃ row ∈ table, condition row = true := by
  obtain ⟨row, member⟩ := List.exists_mem_of_length_pos (Nat.pos_of_ne_zero positive)
  exact ⟨row, mem_select.mp member⟩

theorem affected_ne_zero {table : Table Clash} {condition : Row → Bool} {row : Row}
    (member : row ∈ table) (satisfied : condition row = true) :
    table.affected condition ≠ 0 :=
  Nat.ne_of_gt (List.length_pos_of_mem (mem_select.mpr ⟨member, satisfied⟩))

/-- A condition that only clashing rows share affects at most one row. -/
theorem affected_le_one {table : Table Clash} {condition : Row → Bool}
    (unique : ∀ first second, condition first = true → condition second = true →
      Clash first second) : table.affected condition ≤ 1 := by
  have apart := table.consistent.filter condition
  change (table.rows.filter condition).length ≤ 1
  match listed : table.rows.filter condition with
  | [] => simp
  | [row] => simp
  | first :: second :: rest =>
      rw [listed] at apart
      have satisfied : ∀ row ∈ first :: second :: rest, condition row = true := by
        intro row member
        rw [← listed] at member
        exact (List.mem_filter.mp member).2
      have clash := unique first second (satisfied first (by simp))
        (satisfied second (by simp))
      exact ((List.pairwise_cons.mp apart).1 second (by simp) clash).elim

theorem mem_delete {table : Table Clash} {condition : Row → Bool} {row : Row} :
    row ∈ table.delete condition ↔ row ∈ table ∧ condition row = false := by
  change row ∈ table.rows.filter _ ↔ _
  simp [mem_rows]

section Statements

variable [DecidableRel Clash]

theorem mem_insert {table after : Table Clash} {added row : Row}
    (inserted : table.insert added = some after) :
    row ∈ after ↔ row ∈ table ∨ row = added := by
  unfold insert at inserted
  split at inserted
  · cases inserted
    change row ∈ table.rows ++ [added] ↔ _
    simp [mem_rows]
  · cases inserted

theorem not_clash_of_insert {table after : Table Clash} {added row : Row}
    (inserted : table.insert added = some after) (member : row ∈ table) :
    ¬ Clash row added := by
  unfold insert at inserted
  split at inserted
  · rename_i free
    exact free row member
  · cases inserted

theorem mem_update {table after : Table Clash} {condition : Row → Bool}
    {change : Row → Row} (updated : table.update condition change = some after)
    {row : Row} :
    row ∈ after ↔ ∃ old ∈ table, updatedRow condition change old = row := by
  unfold update at updated
  split at updated
  · cases updated
    change row ∈ table.rows.map _ ↔ _
    simp [mem_rows]
  · cases updated

/-- An update that affects no row changes nothing. -/
theorem update_of_affected_eq_zero {table after : Table Clash} {condition : Row → Bool}
    {change : Row → Row} (updated : table.update condition change = some after)
    (unaffected : table.affected condition = 0) : after = table := by
  have same : table.rows.map (updatedRow condition change) = table.rows := by
    refine List.map_congr_left (fun row member => ?_) |>.trans (List.map_id _)
    refine if_neg fun satisfied => ?_
    exact affected_ne_zero member satisfied unaffected
  unfold update at updated
  split at updated
  · cases updated
    rcases table with ⟨rows, consistent⟩
    simpa using same
  · cases updated

/-- An update that keeps what a search looks at finds the changed row. -/
theorem first_update {table after : Table Clash} {condition key : Row → Bool}
    {change : Row → Row} (updated : table.update condition change = some after)
    (keeps : ∀ row, key (updatedRow condition change row) = key row) :
    after.first key = (table.first key).map (updatedRow condition change) := by
  unfold update at updated
  split at updated
  · cases updated
    change (table.rows.map _).find? key = (table.rows.find? key).map _
    have same : key ∘ updatedRow condition change = key := funext keeps
    rw [List.find?_map, same]
  · cases updated

/-- An update that creates no clash is never refused. -/
theorem update_isSome {table : Table Clash} {condition : Row → Bool}
    {change : Row → Row}
    (harmless : ∀ first ∈ table, ∀ second ∈ table,
      Clash (updatedRow condition change first) (updatedRow condition change second) →
        Clash first second) :
    ∃ after, table.update condition change = some after := by
  have consistent : (table.rows.map (updatedRow condition change)).Pairwise
      fun first second => ¬ Clash first second := by
    refine List.pairwise_map.mpr (table.consistent.imp_of_mem ?_)
    intro first second firstMember secondMember apart clash
    exact apart (harmless first firstMember second secondMember clash)
  exact ⟨_, dif_pos consistent⟩

end Statements

end Table

end ConstrainedTable
