import Mathlib.Algebra.BigOperators.Group.List.Basic
import Mathlib.Data.List.Infix

/-!
# Chains with a settled part

A chain is a list of blocks of transactions, and every transaction carries the number of those
that its sender has sent before.  A node follows a chain whose newest blocks may still be
replaced, but not the blocks up to a settled one.  What is read of the settled part is true of
every chain that the node follows later.
-/

namespace Chains

section Orders

/-- A transaction by its place in the order of its sender. -/
structure Sent (Account Effect : Type) where
  sender : Account
  nonce : Nat
  effect : Effect
deriving DecidableEq

variable {Account Effect : Type} [DecidableEq Account]

/-- How many transactions an account has sent. -/
def sentBy (account : Account) (sents : List (Sent Account Effect)) : Nat :=
  sents.countP fun sent => sent.sender = account

/-- Every transaction carries the number of those that its sender has sent before. -/
def Ordered (sents : List (Sent Account Effect)) : Prop :=
  ∀ before sent after, sents = before ++ sent :: after → sent.nonce = sentBy sent.sender before

variable {sents : List (Sent Account Effect)}

@[simp]
theorem sentBy_append (account : Account) (before after : List (Sent Account Effect)) :
    sentBy account (before ++ after) = sentBy account before + sentBy account after :=
  List.countP_append

theorem sentBy_cons_self (sent : Sent Account Effect) (after : List (Sent Account Effect)) :
    sentBy sent.sender (sent :: after) = sentBy sent.sender after + 1 :=
  List.countP_cons_of_pos (by simp)

theorem Ordered.front {front : List (Sent Account Effect)} (ordered : Ordered sents)
    (initial : front <+: sents) : Ordered front := by
  obtain ⟨rest, rfl⟩ := initial
  intro before sent after split
  exact ordered before sent (after ++ rest) (by rw [split, List.append_assoc]; rfl)

/-- A transaction of an account with a nonce below its count is among those sent. -/
theorem Ordered.exists_of_lt {account : Account} {nonce : Nat} (ordered : Ordered sents)
    (less : nonce < sentBy account sents) :
    ∃ before sent after, sents = before ++ sent :: after ∧ sent.sender = account ∧
      sent.nonce = nonce := by
  induction sents using List.reverseRecOn with
  | nil => cases less
  | append_singleton front last ih =>
      by_cases earlier : nonce < sentBy account front
      · obtain ⟨before, sent, after, split, same, place⟩ :=
          ih (ordered.front (List.prefix_append _ _)) earlier
        exact ⟨before, sent, after ++ [last], by rw [split, List.append_assoc]; rfl, same, place⟩
      · have own : last.sender = account := by
          by_contra other
          rw [sentBy_append] at less
          simp [sentBy, other] at less earlier
          omega
        refine ⟨front, last, [], rfl, own, ?_⟩
        rw [ordered front last [] rfl, own]
        rw [sentBy_append, ← own, sentBy_cons_self, own] at less
        simp only [sentBy, List.countP_nil, Nat.zero_add] at less earlier ⊢
        omega

open List in
/-- A transaction whose nonce is below the count of a front part is in that part. -/
theorem Ordered.before_of_lt {front before after : List (Sent Account Effect)}
    {sent : Sent Account Effect} (ordered : Ordered sents) (initial : front <+: sents)
    (split : sents = before ++ sent :: after) (less : sent.nonce < sentBy sent.sender front) :
    before ++ [sent] <+: front := by
  have whole : before ++ [sent] <+: sents := ⟨after, by rw [split, List.append_assoc]; rfl⟩
  rcases prefix_or_prefix_of_prefix initial whole with short | inside
  · rcases List.prefix_concat_iff.mp short with rfl | ⟨rest, rfl⟩
    · exact List.prefix_refl _
    · rw [ordered _ sent after split, sentBy_append] at less
      omega
  · exact inside

/-- A later transaction of the same sender has a larger nonce. -/
theorem Ordered.nonce_lt {before after front rest : List (Sent Account Effect)}
    {sent other : Sent Account Effect} (ordered : Ordered sents)
    (split : sents = before ++ sent :: after) (otherSplit : sents = front ++ other :: rest)
    (own : other.sender = sent.sender) (later : before ++ [sent] <+: front) :
    sent.nonce < other.nonce := by
  obtain ⟨between, rfl⟩ := later
  have counted := sentBy_cons_self sent between
  rw [ordered before sent after split, ordered _ other rest otherSplit, own, List.append_assoc,
    sentBy_append, List.singleton_append]
  omega

open List in
/-- No two transactions of a sender have the same nonce. -/
theorem Ordered.unique {before after front rest : List (Sent Account Effect)}
    {sent other : Sent Account Effect} (ordered : Ordered sents)
    (split : sents = before ++ sent :: after) (otherSplit : sents = front ++ other :: rest)
    (own : other.sender = sent.sender) (nonce : other.nonce = sent.nonce) : front = before := by
  have first : before ++ [sent] <+: sents := ⟨after, by rw [split, List.append_assoc]; rfl⟩
  have second : front ++ [other] <+: sents := ⟨rest, by rw [otherSplit, List.append_assoc]; rfl⟩
  rcases prefix_or_prefix_of_prefix first second with short | short
  · rcases List.prefix_concat_iff.mp short with same | short
    · exact (List.append_inj_left' same rfl).symm
    · have less := ordered.nonce_lt split otherSplit own short
      omega
  · rcases List.prefix_concat_iff.mp short with same | short
    · exact List.append_inj_left' same rfl
    · have less := ordered.nonce_lt otherSplit split own.symm short
      omega

end Orders

section Timelines

/-- The transactions of the first blocks of a chain. -/
def upTo {Account Effect : Type} (chain : List (List (Sent Account Effect))) (block : Nat) :
    List (Sent Account Effect) :=
  (chain.take block).flatten

theorem upTo_prefix {Account Effect : Type} (chain : List (List (Sent Account Effect)))
    (block : Nat) : upTo chain block <+: chain.flatten := by
  refine ⟨(chain.drop block).flatten, ?_⟩
  rw [upTo, ← List.flatten_append, List.take_append_drop]

theorem upTo_mono {Account Effect : Type} (chain : List (List (Sent Account Effect)))
    {block more : Nat} (le : block ≤ more) : upTo chain block <+: upTo chain more := by
  have again : upTo chain block = upTo (chain.take more) block := by
    rw [upTo, upTo, List.take_take, Nat.min_eq_left le]
  rw [again]
  exact upTo_prefix (chain.take more) block

/-- The chain that a node follows at every moment, and the block up to which it will not change
any more. -/
structure Timeline (Account Effect : Type) [DecidableEq Account] where
  chain : Nat → List (List (Sent Account Effect))
  settled : Nat → Nat
  stays : ∀ {time later}, time ≤ later →
    (chain later).take (settled time) = (chain time).take (settled time)
  ordered : ∀ time, Ordered (chain time).flatten

variable {Account Effect State : Type} [DecidableEq Account]

namespace Timeline

variable (timeline : Timeline Account Effect) {time read later block : Nat}

/-- The settled part is the same at every later moment. -/
theorem upTo_eq (settled : block ≤ timeline.settled time) (le : time ≤ later) :
    upTo (timeline.chain later) block = upTo (timeline.chain time) block := by
  have short : ∀ chain : List (List (Sent Account Effect)),
      chain.take block = (chain.take (timeline.settled time)).take block := by
    intro chain
    rw [List.take_take, Nat.min_eq_left settled]
  rw [upTo, upTo, short, timeline.stays le, ← short]

/-- What was read of a settled block is true at every later moment. -/
theorem upTo_read (settled : block ≤ timeline.settled time) (waits : time ≤ read)
    (le : time ≤ later) :
    upTo (timeline.chain later) block = upTo (timeline.chain read) block := by
  rw [timeline.upTo_eq settled le, timeline.upTo_eq settled waits]

/-- Once a settled block has counted past a nonce, the transaction with that nonce is among the
settled ones, for good. -/
theorem consumed {account : Account} {nonce : Nat} (settled : block ≤ timeline.settled time)
    (waits : time ≤ read) (le : time ≤ later)
    (counted : nonce < sentBy account (upTo (timeline.chain read) block)) :
    (∃ before sent after, upTo (timeline.chain later) block = before ++ sent :: after ∧
      sent.sender = account ∧ sent.nonce = nonce) ∧
    ∀ before sent after, (timeline.chain later).flatten = before ++ sent :: after →
      sent.sender = account → sent.nonce = nonce →
      before ++ [sent] <+: upTo (timeline.chain later) block := by
  have same := timeline.upTo_read settled waits le
  have initial := upTo_prefix (timeline.chain later) block
  have counted : nonce < sentBy account (upTo (timeline.chain later) block) := by
    rw [same]
    exact counted
  refine ⟨((timeline.ordered later).front initial).exists_of_lt counted, ?_⟩
  rintro before sent after split rfl rfl
  exact (timeline.ordered later).before_of_lt initial split counted

end Timeline

/-- The state after some transactions. -/
def stateAfter (apply : State → Sent Account Effect → State) (initial : State)
    (sents : List (Sent Account Effect)) : State :=
  sents.foldl apply initial

/-- A transaction does not take the property of a state away. -/
def Keeps (apply : State → Sent Account Effect → State) (property : State → Prop) : Prop :=
  ∀ state sent, property state → property (apply state sent)

omit [DecidableEq Account] in
/-- What no transaction takes away is still there after more transactions. -/
theorem Keeps.later {apply : State → Sent Account Effect → State} {property : State → Prop}
    (keeps : Keeps apply property) {initial : State} {front sents : List (Sent Account Effect)}
    (early : front <+: sents) (holds : property (stateAfter apply initial front)) :
    property (stateAfter apply initial sents) := by
  obtain ⟨rest, rfl⟩ := early
  rw [stateAfter, List.foldl_append]
  change property (rest.foldl apply (stateAfter apply initial front))
  generalize stateAfter apply initial front = state at holds
  induction rest generalizing state with
  | nil => exact holds
  | cons sent rest ih => exact ih (apply state sent) (keeps state sent holds)

end Timelines

end Chains
