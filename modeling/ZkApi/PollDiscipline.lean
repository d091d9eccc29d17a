import ZkApi.IndexerMachine

/-!
# What the indexer's tasks do

A poll takes the poller, observes the chain, reads one batch of logs, applies
the events of that batch in order, advances the cursor and writes the
checkpoint.  A tree request only reads.
-/

namespace ZkApi.Indexer

open Interleaving MachineIntegers

/-- How far a poll has come. -/
inductive Phase where
  | outside
  | taken (nextFromBlock : UInt64)
  | observed (nextFromBlock latestBlock : UInt64) (applied : List VaultEvent)
  | settled (toBlock : UInt64)

def phase : History Resp → Phase
  | [] => .outside
  | ⟨.takePoller, nextFromBlock⟩ :: _ => .taken nextFromBlock
  | ⟨.ethBlockNumber, .ok latestBlock⟩ :: history =>
      match phase history with
      | .taken nextFromBlock => .observed nextFromBlock latestBlock []
      | other => other
  | ⟨.processEvent event, _⟩ :: history =>
      match phase history with
      | .observed nextFromBlock latestBlock applied =>
          .observed nextFromBlock latestBlock (applied ++ [event])
      | other => other
  | ⟨.advanceTo _, _⟩ :: history =>
      match phase history with
      | .observed nextFromBlock latestBlock _ => .settled (batchEnd nextFromBlock latestBlock)
      | other => other
  | _ :: history => phase history

/-- The logs of a reply that are read: those up to the first that does not
decode. -/
def readable (P : Protocol) (logs : List RpcLog) : List RpcLog :=
  logs.takeWhile fun log => (decodeLog P log).toOption.isSome

/-- The batch that a poll has received. -/
def Received (history : History Resp) (nextFromBlock latestBlock : UInt64)
    (logs : List RpcLog) : Prop :=
  Saw history (.ethGetLogs nextFromBlock (batchEnd nextFromBlock latestBlock)) (.ok logs)

def PollAllowed (P : Protocol) (history : History Resp) : Op → Prop
  | .takePoller => history = []
  | .ethBlockNumber => ∃ nextFromBlock, phase history = .taken nextFromBlock
  | .ethGetLogs fromBlock toBlock =>
      ∃ latestBlock, phase history = .observed fromBlock latestBlock [] ∧
        ¬ latestBlock < fromBlock ∧ toBlock = batchEnd fromBlock latestBlock
  | .processEvent event =>
      ∃ nextFromBlock latestBlock applied logs,
        phase history = .observed nextFromBlock latestBlock applied ∧
          ¬ latestBlock < nextFromBlock ∧ Received history nextFromBlock latestBlock logs ∧
          event ∈ eventsOf P (readable P logs)
  | .advanceTo next =>
      ∃ nextFromBlock latestBlock logs,
        phase history = .observed nextFromBlock latestBlock (eventsOf P logs) ∧
          ¬ latestBlock < nextFromBlock ∧ Received history nextFromBlock latestBlock logs ∧
          readable P logs = logs ∧
          next = saturatingAdd (batchEnd nextFromBlock latestBlock) 1
  | .persistCheckpoint lastProcessedBlock => phase history = .settled lastProcessedBlock
  | .getRoot => True
  | .markReady => True
  | _ => False

def Allowed (P : Protocol) (call : Call) (history : History Resp) (op : Op) : Prop :=
  match call with
  | .newPoller => op = .newPoller
  | .pollOnce => PollAllowed P history op
  | .root => op = .isReady ∨ op = .getRoot
  | .nextNoteId => op = .isReady ∨ op = .getNextNoteId
  | .snapshot => op = .isReady ∨ op = .getSnapshot
  | .notePath noteId =>
      (history = [] ∧ op = .isReady) ∨
        (history = [⟨.isReady, true⟩] ∧ op = .getLeaf noteId) ∨
        ∃ leaf, history = [⟨.getLeaf noteId, leaf⟩, ⟨.isReady, true⟩] ∧ op = .getNotePath noteId
  | .zeroPath noteId => op = .isReady ∨ op = .getZeroPath noteId

/-- The block after the last one that a poll has asked for.  A poll that finds
no new block asks for none and ends where it started. -/
def endOf : History Resp → Option Nat
  | [] => none
  | ⟨.ethGetLogs _ toBlock, _⟩ :: _ => some (toBlock.toNat + 1)
  | ⟨.takePoller, nextFromBlock⟩ :: _ => some nextFromBlock.toNat
  | _ :: history => endOf history

/-- How a poll that succeeds has ended. -/
def PollEnds (history : History Resp) : Prop :=
  (∃ nextFromBlock latestBlock, phase history = .observed nextFromBlock latestBlock [] ∧
    latestBlock < nextFromBlock ∧ endOf history = some nextFromBlock.toNat) ∨
  ∃ toBlock, phase history = .settled toBlock ∧ endOf history = some (toBlock.toNat + 1)

def Returns : (call : Call) → History Resp → Except Failure (Result call) → Prop
  | .pollOnce, history, .ok _ => PollEnds history
  | .snapshot, history, .ok response =>
      history = [⟨.getSnapshot, response⟩, ⟨.isReady, true⟩]
  | .notePath noteId, history, .ok response =>
      history = [⟨.getNotePath noteId, response.siblings⟩, ⟨.getLeaf noteId, response.leaf⟩,
        ⟨.isReady, true⟩] ∧ response.noteId = noteId
  | _, _, _ => True

section Programs

variable {P : Protocol} {α : Type} {history : History Resp}
  {allowed : History Resp → Op → Prop} {fails : History Resp → Failure → Prop}

@[simp]
theorem follows_checked (result : Except String α) {returns : History Resp → α → Prop} :
    Program.Follows allowed returns fails history (checked result) ↔
      (∀ value, result = .ok value → returns history value) ∧
        ∀ message, result = .error message → fails history (.poll message) := by
  cases result <;> simp [checked]

private theorem eventsOf_cons (log : RpcLog) (logs : List RpcLog) :
    eventsOf P (log :: logs) = (eventOf P log).toList ++ eventsOf P logs := by
  unfold eventsOf
  rw [List.filterMap_cons]
  cases eventOf P log <;> rfl

private theorem readable_cons {log : RpcLog} {logs : List RpcLog}
    {decoded : Option (VaultEvent × Option Felt252)} (decodes : decodeLog P log = .ok decoded) :
    readable P (log :: logs) = log :: readable P logs := by
  unfold readable
  rw [List.takeWhile_cons, decodes]
  rfl

/-- What the rest of a batch finds: the logs before it are readable and their
events have been applied. -/
structure Midway (P : Protocol) (nextFromBlock latestBlock : UInt64)
    (before rest : List RpcLog) (history : History Resp) : Prop where
  applied : phase history = .observed nextFromBlock latestBlock (eventsOf P before)
  pending : ¬ latestBlock < nextFromBlock
  received : Received history nextFromBlock latestBlock (before ++ rest)
  readable : readable P (before ++ rest) = before ++ readable P rest
  ended : endOf history = some ((batchEnd nextFromBlock latestBlock).toNat + 1)

theorem eventsOf_append (first second : List RpcLog) :
    eventsOf P (first ++ second) = eventsOf P first ++ eventsOf P second :=
  List.filterMap_append

theorem eventsOf_subset {first second : List RpcLog} (subset : first ⊆ second) :
    eventsOf P first ⊆ eventsOf P second := by
  intro event member
  obtain ⟨log, listed, decodes⟩ := List.mem_filterMap.mp member
  exact List.mem_filterMap.mpr ⟨log, subset listed, decodes⟩

/-- One log is behind: its event, if it has one, has been applied. -/
private theorem Midway.next {nextFromBlock latestBlock : UInt64} {before rest : List RpcLog}
    {log : RpcLog} {decoded : Option (VaultEvent × Option Felt252)}
    (midway : Midway P nextFromBlock latestBlock before (log :: rest) history)
    (decodes : decodeLog P log = .ok decoded) {reached : History Resp}
    (applied : phase reached =
      .observed nextFromBlock latestBlock (eventsOf P before ++ (eventOf P log).toList))
    (ended : endOf reached = endOf history) (grows : history <:+ reached) :
    Midway P nextFromBlock latestBlock (before ++ [log]) rest reached where
  applied := by
    rw [applied, eventsOf_append, eventsOf_cons]
    simp [eventsOf]
  pending := midway.pending
  received := by
    rw [List.append_assoc]
    exact midway.received.mono grows
  readable := by
    have split := midway.readable
    rw [readable_cons decodes] at split
    rw [List.append_assoc, List.append_assoc]
    exact split
  ended := by
    rw [ended]
    exact midway.ended

private theorem eventOf_ok {log : RpcLog} {event : VaultEvent} {expectedRoot : Option Felt252}
    (decodes : decodeLog P log = .ok (some (event, expectedRoot))) :
    eventOf P log = some event := by
  rw [eventOf, decodes]

private theorem eventOf_skipped {log : RpcLog} (decodes : decodeLog P log = .ok none) :
    eventOf P log = none := by
  rw [eventOf, decodes]

theorem applyLogs_follows {nextFromBlock latestBlock : UInt64} (rest before : List RpcLog)
    (applied : Nat) (midway : Midway P nextFromBlock latestBlock before rest history) :
    (applyLogs P rest applied).Follows (PollAllowed P)
      (fun reached _ => ∃ logs, Midway P nextFromBlock latestBlock logs [] reached)
      (fun _ _ => True) history := by
  induction rest generalizing history before applied with
  | nil => exact ⟨before, midway⟩
  | cons log rest ih =>
      unfold applyLogs
      cases decodes : decodeLog P log with
      | error message => trivial
      | ok decoded =>
          cases decoded with
          | none =>
              apply ih (before ++ [log])
              apply midway.next decodes
              · rw [midway.applied, eventOf_skipped decodes]
                simp
              · rfl
              · exact List.suffix_refl _
          | some decodedEvent =>
              obtain ⟨event, expectedRoot⟩ := decodedEvent
              have listed : event ∈ eventsOf P (readable P (before ++ log :: rest)) := by
                rw [midway.readable, readable_cons decodes, eventsOf_append, eventsOf_cons,
                  eventOf_ok decodes]
                simp
              have processed : phase (⟨.processEvent event, ()⟩ :: history) =
                  .observed nextFromBlock latestBlock
                    (eventsOf P before ++ (eventOf P log).toList) := by
                rw [eventOf_ok decodes]
                simp only [phase, midway.applied]
                rfl
              rw [Program.follows_bind]
              refine (Program.follows_call _).mpr ⟨⟨_, _, _, _, midway.applied, midway.pending, midway.received, listed⟩, ?_⟩
              intro _
              split
              · rw [Program.follows_bind]
                refine (Program.follows_call _).mpr ⟨trivial, fun root => ?_⟩
                apply ih (before ++ [log])
                have compared : phase (⟨.getRoot, root⟩ :: ⟨.processEvent event, ()⟩ :: history) =
                    .observed nextFromBlock latestBlock
                      (eventsOf P before ++ (eventOf P log).toList) := processed
                apply midway.next decodes compared rfl
                exact (List.suffix_cons _ _).trans (List.suffix_cons _ _)
              · apply ih (before ++ [log])
                exact midway.next decodes processed rfl (List.suffix_cons _ _)

theorem pollOnce_follows :
    (pollOnce P).Follows (PollAllowed P) (fun reached _ => PollEnds reached)
      (fun _ _ => True) [] := by
  unfold pollOnce
  rw [Program.follows_bind]
  refine (Program.follows_call _).mpr ⟨rfl, fun nextFromBlock => ?_⟩
  rw [Program.follows_bind]
  refine (Program.follows_call _).mpr ⟨⟨nextFromBlock, rfl⟩, fun latest => ?_⟩
  rw [Program.follows_bind, follows_checked]
  refine ⟨?_, fun _ _ => trivial⟩
  rintro latestBlock rfl
  split
  · rename_i behind
    rw [Program.follows_bind]
    refine (Program.follows_call _).mpr ⟨trivial, fun _ => ?_⟩
    exact Or.inl ⟨nextFromBlock, latestBlock, rfl, behind, rfl⟩
  rename_i pending
  rw [Program.follows_bind]
  refine (Program.follows_call _).mpr ⟨⟨latestBlock, rfl, pending, rfl⟩, fun received => ?_⟩
  rw [Program.follows_bind, follows_checked]
  refine ⟨?_, fun _ _ => trivial⟩
  rintro logs rfl
  rw [Program.follows_bind]
  have midway : Midway P nextFromBlock latestBlock [] logs
      [⟨.ethGetLogs nextFromBlock (batchEnd nextFromBlock latestBlock), .ok logs⟩,
        ⟨.ethBlockNumber, .ok latestBlock⟩, ⟨.takePoller, nextFromBlock⟩] :=
    { applied := rfl
      pending := pending
      received := by simp [Received]
      readable := rfl
      ended := rfl }
  apply (applyLogs_follows logs [] 0 midway).weaken
  · rintro reached applied _ ⟨all, midway⟩
    have received := midway.received
    have readable := midway.readable
    rw [List.append_nil] at received readable
    have decodable : Indexer.readable P all = all := by
      rw [readable]
      simp [Indexer.readable]
    rw [Program.follows_bind]
    refine (Program.follows_call _).mpr ⟨⟨_, _, _, midway.applied, pending, received, decodable, rfl⟩, fun _ => ?_⟩
    have settled : phase (⟨.advanceTo (saturatingAdd (batchEnd nextFromBlock latestBlock) 1), ()⟩ ::
        reached) = .settled (batchEnd nextFromBlock latestBlock) := by
      simp only [phase, midway.applied]
    rw [Program.follows_bind]
    refine (Program.follows_call _).mpr ⟨settled, fun stored => ?_⟩
    rw [Program.follows_bind, follows_checked]
    refine ⟨?_, fun _ _ => trivial⟩
    rintro _ rfl
    split
    · refine ⟨trivial, fun _ => ?_⟩
      exact Or.inr ⟨_, settled, midway.ended⟩
    · exact Or.inr ⟨_, settled, midway.ended⟩
  · intro _ _ _ _
    trivial

theorem handler_follows (call : Call) :
    (handler P call).Follows (Allowed P call)
      (fun reached value => Returns call reached (.ok value))
      (fun reached failure => Returns call reached (.error failure)) [] := by
  cases call with
  | newPoller =>
      refine ⟨rfl, fun opened => ?_⟩
      cases opened with
      | ok value => trivial
      | error message => trivial
  | pollOnce => exact pollOnce_follows
  | root =>
      refine ⟨Or.inl rfl, fun ready => ?_⟩
      cases ready with
      | false => trivial
      | true => exact ⟨Or.inr rfl, fun _ => trivial⟩
  | nextNoteId =>
      refine ⟨Or.inl rfl, fun ready => ?_⟩
      cases ready with
      | false => trivial
      | true => exact ⟨Or.inr rfl, fun _ => trivial⟩
  | snapshot =>
      refine ⟨Or.inl rfl, fun ready => ?_⟩
      cases ready with
      | false => trivial
      | true => exact ⟨Or.inr rfl, fun _ => rfl⟩
  | notePath noteId =>
      refine ⟨Or.inl ⟨rfl, rfl⟩, fun ready => ?_⟩
      cases ready with
      | false => trivial
      | true =>
          refine ⟨Or.inr (Or.inl ⟨rfl, rfl⟩), fun leaf => ?_⟩
          exact ⟨Or.inr (Or.inr ⟨leaf, rfl, rfl⟩), fun siblings => ⟨rfl, rfl⟩⟩
  | zeroPath noteId =>
      refine ⟨Or.inl rfl, fun ready => ?_⟩
      cases ready with
      | false => trivial
      | true => exact ⟨Or.inr rfl, fun _ => trivial⟩

end Programs

/-- What the handlers promise about their steps. -/
def discipline (P : Protocol) (H : TreeFunctions) : Discipline (indexer P H) where
  allowed _ := Allowed P
  returns _ := Returns
  follows _ call := handler_follows call
  execute_setting _ := rfl
  finish_setting _ _ := rfl
  environment_setting _ := rfl

end ZkApi.Indexer
