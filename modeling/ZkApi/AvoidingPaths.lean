import Mathlib.Logic.Relation

/-!
# Searching with a worklist and a set of visited nodes

A search keeps a queue of nodes and marks the nodes whose successors it has queued.
Whether a goal is still ahead is a matter of the paths that start in the queue and
do not leave a marked node.
-/

namespace AvoidingPaths

variable {α : Type*} {next other : α → α → Prop} {avoided fewer goal : α → Prop}
  {node first last : α} {queue more nodes : List α}

section Paths

/-- A path that leaves no avoided node. -/
inductive Path (next : α → α → Prop) (avoided : α → Prop) : α → α → Prop where
  | refl (node : α) : Path next avoided node node
  | step {node following last : α} (free : ¬ avoided node) (edge : next node following)
      (rest : Path next avoided following last) : Path next avoided node last

theorem Path.mono (path : Path next avoided first last) (less : ∀ node, fewer node → avoided node) :
    Path next fewer first last := by
  induction path with
  | refl node => exact .refl node
  | step free edge _ ih => exact .step (fun marked => free (less _ marked)) edge ih

/-- A path either avoids a node too, or it can be followed from the last time it leaves it. -/
theorem Path.visit (node : α) (path : Path next avoided first last) :
    Path next (fun other => other = node ∨ avoided other) first last ∨
      ∃ following, next node following ∧
        Path next (fun other => other = node ∨ avoided other) following last := by
  induction path with
  | refl last => exact .inl (.refl last)
  | @step current following last free edge _ ih =>
      rcases ih with path | later
      · by_cases same : current = node
        · exact .inr ⟨following, same ▸ edge, path⟩
        · exact .inl (.step (fun marked => marked.elim same free) edge path)
      · exact .inr later

/-- Only the edges inside a closed set matter to a path that starts there. -/
theorem Path.congr (inside : α → Prop) (path : Path next avoided first last) (start : inside first)
    (closed : ∀ node following, inside node → next node following →
      inside following ∧ other node following) : Path other avoided first last := by
  induction path with
  | refl node => exact .refl node
  | step free edge _ ih =>
      obtain ⟨start, same⟩ := closed _ _ start edge
      exact .step free same (ih start)

theorem path_iff_reflTransGen (never : ∀ node, ¬ avoided node) :
    Path next avoided first last ↔ Relation.ReflTransGen next first last := by
  constructor
  · intro path
    induction path with
    | refl node => exact .refl
    | step _ edge _ ih => exact .head edge ih
  · intro path
    induction path using Relation.ReflTransGen.head_induction_on with
    | refl => exact .refl last
    | head edge _ ih => exact .step (never _) edge ih

end Paths

section Queues

/-- A goal is ahead of the queue. -/
def GoalAhead (next : α → α → Prop) (avoided goal : α → Prop) (queue : List α) : Prop :=
  ∃ node ∈ queue, ∃ last, goal last ∧ Path next avoided node last

theorem not_goalAhead_nil : ¬ GoalAhead next avoided goal [] := by
  rintro ⟨node, member, -⟩
  cases member

theorem goalAhead_cons : GoalAhead next avoided goal (node :: queue) ↔
    (∃ last, goal last ∧ Path next avoided node last) ∨ GoalAhead next avoided goal queue := by
  simp only [GoalAhead, List.mem_cons, or_and_right, exists_or, exists_eq_left]

theorem goalAhead_append : GoalAhead next avoided goal (queue ++ more) ↔
    GoalAhead next avoided goal queue ∨ GoalAhead next avoided goal more := by
  simp only [GoalAhead, List.mem_append, or_and_right, exists_or]

theorem goalAhead_singleton : GoalAhead next avoided goal [node] ↔
    ∃ last, goal last ∧ Path next avoided node last := by
  rw [goalAhead_cons, or_iff_left not_goalAhead_nil]

theorem goalAhead_of_goal (reached : goal node) : GoalAhead next avoided goal (node :: queue) :=
  goalAhead_cons.mpr (.inl ⟨node, reached, .refl node⟩)

/-- From a node that cannot be left, only the node itself can be a goal. -/
theorem goalAhead_stuck (stuck : ∀ following, next node following → avoided node) :
    GoalAhead next avoided goal (node :: queue) ↔
      goal node ∨ GoalAhead next avoided goal queue := by
  rw [goalAhead_cons]
  refine or_congr_left ⟨?_, fun reached => ⟨node, reached, .refl node⟩⟩
  rintro ⟨last, reached, path⟩
  cases path with
  | refl => exact reached
  | step free edge _ => exact absurd (stuck _ edge) free

/-- Queueing the successors of a node and marking it loses no goal but the node. -/
theorem goalAhead_visit (free : ¬ avoided node) (miss : ¬ goal node)
    (successors : ∀ following, next node following ↔ following ∈ nodes) :
    GoalAhead next avoided goal (node :: queue) ↔
      GoalAhead next (fun other => other = node ∨ avoided other) goal (queue ++ nodes) := by
  constructor
  · rintro ⟨first, member, last, reached, path⟩
    rcases path.visit node with path | ⟨following, edge, path⟩
    · rcases List.mem_cons.mp member with rfl | member
      · -- A path out of the node itself leaves it or ends there at once.
        cases path with
        | refl => exact absurd reached miss
        | step unmarked _ _ => exact absurd (.inl rfl) unmarked
      · exact ⟨first, List.mem_append_left _ member, last, reached, path⟩
    · exact ⟨following, List.mem_append_right _ ((successors following).mp edge), last, reached,
        path⟩
  · rintro ⟨first, member, last, reached, path⟩
    have path : Path next avoided first last := path.mono fun _ marked => .inr marked
    rcases List.mem_append.mp member with member | member
    · exact ⟨first, List.mem_cons_of_mem _ member, last, reached, path⟩
    · exact ⟨node, List.mem_cons_self, last, reached,
        .step free ((successors first).mpr member) path⟩

/-- Edges outside a closed set that holds the queue do not matter. -/
theorem GoalAhead.congr (inside : α → Prop) (ahead : GoalAhead next avoided goal queue)
    (start : ∀ node ∈ queue, inside node)
    (closed : ∀ node following, inside node → next node following →
      inside following ∧ other node following) : GoalAhead other avoided goal queue := by
  obtain ⟨node, member, last, reached, path⟩ := ahead
  exact ⟨node, member, last, reached, path.congr inside (start node member) closed⟩

end Queues

end AvoidingPaths
