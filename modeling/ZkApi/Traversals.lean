import Mathlib.Data.List.Forall2

/-!
# Lists that are read item by item

A list is mapped by a function that may fail.  If nothing fails then the result has the value of
every item in its place.
-/

namespace ZkApi.Traversal

section Options

variable {α β : Type} {read : α → Option β} {items : List α} {values : List β}

theorem mapM_eq_some_iff :
    items.mapM read = some values ↔
      List.Forall₂ (fun item value => read item = some value) items values := by
  induction items generalizing values with
  | nil =>
      rw [List.forall₂_nil_left_iff, List.mapM_nil]
      exact ⟨fun done => (Option.some.inj done).symm, fun empty => congrArg some empty.symm⟩
  | cons item items ih =>
      rw [List.mapM_cons]
      constructor
      · intro done
        obtain ⟨first, head, rest⟩ := Option.bind_eq_some_iff.mp done
        obtain ⟨others, tail, last⟩ := Option.bind_eq_some_iff.mp rest
        cases last
        exact .cons head (ih.mp tail)
      · rintro (_ | ⟨head, tail⟩)
        rw [head, ih.mpr tail]
        rfl

theorem length_of_mapM (mapped : items.mapM read = some values) :
    values.length = items.length :=
  (mapM_eq_some_iff.mp mapped).length_eq.symm

theorem getElem?_of_mapM (mapped : items.mapM read = some values) {index : Nat} {item : α}
    (found : items[index]? = some item) : values[index]? = read item := by
  have all := mapM_eq_some_iff.mp mapped
  clear mapped
  induction all generalizing index with
  | nil => cases found
  | cons head tail ih =>
      cases index with
      | zero =>
          cases found
          exact head.symm
      | succ index => exact ih found

theorem isSome_of_mapM (mapped : items.mapM read = some values) {item : α}
    (member : item ∈ items) : (read item).isSome = true := by
  obtain ⟨index, bound, rfl⟩ := List.getElem_of_mem member
  rw [← getElem?_of_mapM mapped (List.getElem?_eq_getElem bound), List.getElem?_eq_getElem
    ((length_of_mapM mapped).symm ▸ bound)]
  rfl

theorem mapM_of_all (all : ∀ item ∈ items, (read item).isSome = true) :
    ∃ values, items.mapM read = some values := by
  induction items with
  | nil => exact ⟨[], rfl⟩
  | cons item items ih =>
      obtain ⟨first, found⟩ := Option.isSome_iff_exists.mp (all item List.mem_cons_self)
      obtain ⟨rest, more⟩ := ih fun other member => all other (List.mem_cons_of_mem _ member)
      exact ⟨first :: rest, mapM_eq_some_iff.mpr (.cons found (mapM_eq_some_iff.mp more))⟩

end Options

section Results

variable {α β ε : Type} {read : α → Except ε β} {items : List α} {values : List β}

theorem mapM_eq_ok_iff :
    items.mapM read = .ok values ↔
      List.Forall₂ (fun item value => read item = .ok value) items values := by
  induction items generalizing values with
  | nil =>
      rw [List.forall₂_nil_left_iff, List.mapM_nil]
      exact ⟨fun done => (Except.ok.inj done).symm, fun empty => congrArg Except.ok empty.symm⟩
  | cons item items ih =>
      rw [List.mapM_cons]
      constructor
      · intro done
        cases first : read item with
        | error error =>
            rw [first] at done
            cases done
        | ok value =>
            rw [first] at done
            cases rest : items.mapM read with
            | error error =>
                rw [rest] at done
                cases done
            | ok others =>
                rw [rest] at done
                cases Except.ok.inj done
                exact .cons first (ih.mp rest)
      · rintro (_ | ⟨head, tail⟩)
        rw [head, ih.mpr tail]
        rfl

/-- The results are those of the items. -/
theorem mem_of_mapM (mapped : items.mapM read = .ok values) {value : β} :
    value ∈ values ↔ ∃ item ∈ items, read item = .ok value := by
  have all := mapM_eq_ok_iff.mp mapped
  clear mapped
  induction all with
  | nil => simp
  | cons head tail ih => simp [ih, head, eq_comm]

end Results

end ZkApi.Traversal
