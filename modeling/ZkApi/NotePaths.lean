import ZkApi.PolledMirror
import ZkApi.RunStates
import ZkApi.TraceEvidence

/-!
# Answers about the tree

A path request reads the leaf of its note and then the siblings, each under a
lock of its own, while the poller applies events.  A snapshot is read under one
lock.
-/

namespace ZkApi.Indexer

open Interleaving MachineIntegers

variable {P : Protocol} {H : TreeFunctions}

section Reads

/-- In this state of the run the task performs this operation next. -/
def Performs (states : List (State (indexer P H))) (task : Nat) (op : Op)
    (state : State (indexer P H)) : Prop :=
  ∃ response, ∃ after ∈ states, (∃ action, state.step action = some after) ∧
    .performed task op response ∉ state.trace ∧ .performed task op response ∈ after.trace

/-- What a tree request receives is read in one of the states of its run. -/
private theorem read_during {world : World H} {first opened last : State (indexer P H)}
    {call : Call} {during : List (State (indexer P H))}
    (reached : (State.initial (indexer P H) world).Reaches first)
    (starts : first.step (.start call) = some opened)
    (started : opened.trace = .started first.next call :: first.trace)
    (run : State.IsRun (opened :: during ++ [last])) {op : Op} {response : Resp op}
    (received : .performed first.next op response ∈ last.trace) :
    ∃ state ∈ opened :: during,
      Performs (opened :: during ++ [last]) first.next op state ∧
        ∃ answer world, execute P H first.next op answer state.world = some (response, world) := by
  have valid : (discipline P H).Valid first := Discipline.valid_of_reaches reached
  have fresh : .performed first.next op response ∉ opened.trace := by
    rw [started]
    intro member
    rcases List.mem_cons.mp member with equal | earlier
    · cases equal
    · exact valid.fresh first.next le_rfl _ earlier rfl
  obtain ⟨state, inside, after, later, stepped, old, new, executed⟩ :=
    valid.executed_during starts run fresh received
  exact ⟨state, inside, ⟨response, after, later, stepped, old, new⟩, executed⟩

private theorem last_reached {world : World H} {first opened last : State (indexer P H)}
    {call : Call} {during : List (State (indexer P H))}
    (reached : (State.initial (indexer P H) world).Reaches first)
    (starts : first.step (.start call) = some opened)
    (run : State.IsRun (opened :: during ++ [last])) :
    (State.initial (indexer P H) world).Reaches last := by
  have openedReached := reached.trans (Relation.ReflTransGen.single ⟨_, starts⟩)
  exact openedReached.trans (Discipline.reaches_of_isRun run last (by simp))

/-- What a task that has just returned promises about its history. -/
private theorem returned_promise {world : World H} {state : State (indexer P H)} {task : Nat}
    {call : Call} {result : Except Failure (Result call)} {rest : List (Event (indexer P H))}
    (reached : (State.initial (indexer P H) world).Reaches state)
    (returned : state.trace = .returned task call result :: rest) :
    Returns call (historyOf task rest) result := by
  have occurred := ((discipline P H).inductive_true).occurred_holds trivial reached
  have suffix : .returned task call result :: rest <:+ state.trace := by
    rw [returned]
  obtain ⟨_, _, _, promise, _⟩ := occurred _ _ suffix
  exact promise

/-- A path request returns the leaf of its note in one state of the request and
the siblings in another. -/
theorem notePath_reads {world : World H} {noteId : UInt32} {response : TreePathResponse}
    {first opened last : State (indexer P H)} {during : List (State (indexer P H))}
    {rest : List (Event (indexer P H))}
    (reached : (State.initial (indexer P H) world).Reaches first)
    (starts : first.step (.start (.notePath noteId)) = some opened)
    (run : State.IsRun (opened :: during ++ [last]))
    (returned : last.trace = .returned first.next (.notePath noteId) (.ok response) :: rest) :
    ∃ leafRead ∈ opened :: during, ∃ pathRead ∈ opened :: during,
      Performs (opened :: during ++ [last]) first.next (.getLeaf noteId) leafRead ∧
      Performs (opened :: during ++ [last]) first.next (.getNotePath noteId) pathRead ∧
      response.leaf = leafRead.world.mirror.getLeaf noteId ∧
      response.siblings = pathRead.world.mirror.getPath noteId := by
  have started : opened.trace = .started first.next (.notePath noteId) :: first.trace := by
    cases Option.some.inj starts
    rfl
  have promise := returned_promise (last_reached reached starts run) returned
  obtain ⟨history, _⟩ := promise
  have inTrace : ∀ {op : Op} {answer : Resp op}, Saw (historyOf first.next rest) op answer →
      .performed first.next op answer ∈ last.trace := by
    intro op answer saw
    rw [returned]
    exact List.mem_cons_of_mem _ (saw_historyOf_iff.mp saw)
  have leafSaw : Saw (historyOf first.next rest) (.getLeaf noteId) response.leaf := by
    rw [history]
    simp
  have pathSaw : Saw (historyOf first.next rest) (.getNotePath noteId) response.siblings := by
    rw [history]
    simp
  obtain ⟨leafRead, leafInside, leafPerforms, leafAnswer, leafAfter, leafExecuted⟩ :=
    read_during reached starts started run (inTrace leafSaw)
  obtain ⟨pathRead, pathInside, pathPerforms, pathAnswer, pathAfter, pathExecuted⟩ :=
    read_during reached starts started run (inTrace pathSaw)
  refine ⟨leafRead, leafInside, pathRead, pathInside, leafPerforms, pathPerforms, ?_, ?_⟩
  · generalize response.leaf = leaf at leafExecuted
    cases leafAnswer <;> cases leafExecuted
    rfl
  · generalize response.siblings = siblings at pathExecuted
    cases pathAnswer <;> cases pathExecuted
    rfl

/-- A path request reads the siblings in its last step. -/
theorem notePath_last {world : World H} {task : Nat} {noteId : UInt32} {response : TreePathResponse}
    {late last : State (indexer P H)} {action : Action (indexer P H)}
    {rest : List (Event (indexer P H))}
    (reached : (State.initial (indexer P H) world).Reaches late)
    (stepped : late.step action = some last)
    (returned : last.trace = .returned task (.notePath noteId) (.ok response) :: rest) :
    response.siblings = late.world.mirror.getPath noteId ∧
      historyOf task late.trace = [⟨.getLeaf noteId, response.leaf⟩, ⟨.isReady, true⟩] := by
  have valid : (discipline P H).Valid late := Discipline.valid_of_reaches reached
  rcases (valid.step_case stepped).of_returned returned with
    returns | ⟨op, answer, received, after, _, _, _, _, _, executed, returns⟩
  · cases returns.1
  · have history : (⟨op, received⟩ : (op : Op) × Resp op) :: historyOf task late.trace =
        [⟨.getNotePath noteId, response.siblings⟩, ⟨.getLeaf noteId, response.leaf⟩,
          ⟨.isReady, true⟩] := returns.1
    obtain ⟨newest, older⟩ := List.cons.inj history
    refine ⟨?_, older⟩
    cases newest
    generalize response.siblings = siblings at executed
    cases answer <;> cases executed
    rfl

/-- A snapshot is the state of the mirror in one state of the request. -/
theorem snapshot_reads {world : World H} {response : TreeSnapshotResponse}
    {first opened last : State (indexer P H)} {during : List (State (indexer P H))}
    {rest : List (Event (indexer P H))}
    (reached : (State.initial (indexer P H) world).Reaches first)
    (starts : first.step (.start .snapshot) = some opened)
    (run : State.IsRun (opened :: during ++ [last]))
    (returned : last.trace = .returned first.next .snapshot (.ok response) :: rest) :
    ∃ read ∈ opened :: during, Performs (opened :: during ++ [last]) first.next .getSnapshot read ∧
      response = ⟨read.world.mirror.root, read.world.mirror.nextNoteId,
        read.world.mirror.currentLeaves⟩ := by
  have started : opened.trace = .started first.next .snapshot :: first.trace := by
    cases Option.some.inj starts
    rfl
  have history : historyOf first.next rest = [⟨.getSnapshot, response⟩, ⟨.isReady, true⟩] :=
    returned_promise (last_reached reached starts run) returned
  have received : .performed first.next .getSnapshot response ∈ last.trace := by
    rw [returned]
    apply List.mem_cons_of_mem
    apply saw_historyOf_iff.mp
    rw [history]
    simp
  obtain ⟨read, inside, performs, answer, after, executed⟩ :=
    read_during reached starts started run received
  refine ⟨read, inside, performs, ?_⟩
  cases answer <;> cases executed
  rfl

end Reads

section Forms

/-- The mirror, and the mirror that the checkpoint file holds, are well formed. -/
def FormInv (world : World H) (_ : List (Event (indexer P H))) : Prop :=
  world.mirror.leafwise.WellFormed ∧ ∀ checkpoint, world.file = .checkpoint checkpoint →
    ∃ mirror : TreeMirror H.leafwise, mirror.WellFormed ∧ checkpoint.mirror = mirror.snapshot

theorem openPoller_wellFormed (lawful : H.Lawful) {config : PollerConfig} {file : CursorFile}
    {mirror : TreeMirror H} (wellFormed : mirror.leafwise.WellFormed)
    (stored : ∀ checkpoint, file = .checkpoint checkpoint →
      ∃ mirror : TreeMirror H.leafwise, mirror.WellFormed ∧
        checkpoint.mirror = mirror.snapshot) :
    (openPoller config file mirror).1.leafwise.WellFormed := by
  unfold openPoller
  split
  · split
    · exact wellFormed
    · rename_i checkpoint _ _
      obtain ⟨source, sourceFormed, snapshot⟩ := stored checkpoint rfl
      split
      · exact wellFormed
      · rename_i restored accepted
        rw [snapshot] at accepted
        have same : restored.leafwise = source := by
          apply TreeMirror.fromSnapshot_snapshot sourceFormed.recorded
          rw [← TreeMirror.leafwise_fromSnapshot lawful, accepted]
          rfl
        change restored.leafwise.WellFormed
        rw [same]
        exact sourceFormed
  · exact wellFormed

theorem formInv_preserved (lawful : H.Lawful) : (discipline P H).Inductive FormInv where
  started _ _ _ _ held := held
  performed := by
    intro world trace task call op answer response after _ _ _ executed _ held
    have executed : execute P H task op answer world = some (response, after) := executed
    cases op with
    | newPoller =>
        cases answer with
        | plain =>
            obtain ⟨_, equal⟩ := Option.ite_none_left_eq_some.mp executed
            cases Option.some.inj equal
            exact ⟨openPoller_wellFormed lawful held.1 held.2, held.2⟩
        | fails message =>
            obtain ⟨_, equal⟩ := Option.ite_none_left_eq_some.mp executed
            cases Option.some.inj equal
            exact held
        | logs reply => cases executed
    | takePoller =>
        cases answer with
        | plain =>
            rw [execute] at executed
            split at executed <;> cases executed
            exact held
        | fails message | logs reply => cases executed
    | ethGetLogs fromBlock toBlock =>
        cases answer with
        | plain => cases executed
        | fails message =>
            cases executed
            exact held
        | logs reply =>
            obtain ⟨_, equal⟩ := Option.ite_none_right_eq_some.mp executed
            cases Option.some.inj equal
            exact held
    | processEvent event =>
        cases answer <;> cases executed
        refine ⟨?_, held.2⟩
        rw [TreeMirror.leafwise_processEvent lawful]
        exact held.1.processEvent event
    | persistCheckpoint last =>
        cases answer with
        | plain =>
            cases executed
            unfold persistCheckpoint
            split
            · exact held
            · refine ⟨held.1, fun checkpoint written => ?_⟩
              cases written
              exact ⟨world.mirror.leafwise, held.1, rfl⟩
        | fails message =>
            obtain ⟨_, equal⟩ := Option.ite_none_right_eq_some.mp executed
            cases Option.some.inj equal
            exact held
        | logs reply => cases executed
    | ethBlockNumber =>
        cases answer <;> cases executed <;> exact held
    | _ =>
        cases answer <;> cases executed
        exact held
  returned := by
    intro world trace task call result _ _ _ _ _ held
    change FormInv (release task world) _
    unfold release
    split <;> exact held
  aborted := by
    intro world trace task _ _ held
    change FormInv (release task world) _
    unfold release
    split <;> exact held
  moved := by
    intro world trace change after moved _ held
    have moved : mine change world = some after := moved
    obtain ⟨_, equal⟩ := Option.ite_none_right_eq_some.mp moved
    cases Option.some.inj equal
    exact held
  restarted := by
    intro world trace change after restarted _ held
    have restarted : some (restart world) = some after := restarted
    cases Option.some.inj restarted
    refine ⟨?_, held.2⟩
    change (TreeMirror.new : TreeMirror H).leafwise.WellFormed
    rw [TreeMirror.leafwise_new lawful]
    exact TreeMirror.wellFormed_new

theorem wellFormed_of_reaches (lawful : H.Lawful) {config : PollerConfig} {chain : Nat → List RpcLog}
    {head : UInt64} {cursor : Option UInt64} {state : State (indexer P H)}
    (run : (State.initial (indexer P H) (World.initial config chain head cursor)).Reaches state) :
    state.world.mirror.leafwise.WellFormed := by
  have initially : FormInv (P := P) (H := H) (World.initial config chain head cursor) [] := by
    constructor
    · change (TreeMirror.new : TreeMirror H).leafwise.WellFormed
      rw [TreeMirror.leafwise_new lawful]
      exact TreeMirror.wellFormed_new
    · intro checkpoint holds
      cases cursor <;> cases holds
  exact ((formInv_preserved lawful).holds initially run).1

/-- The tree holds exactly these leaves and is zero elsewhere. -/
def TreeFunctions.Holds (H : TreeFunctions) (tree : H.MerkleTree) (leaves : List Felt252) : Prop :=
  ∀ noteId, H.getLeaf tree noteId = leaves.getD noteId.toNat Felt252.zero

/-- The current leaves of a mirror determine its root unless the last note id of
all has been used. -/
theorem root_holding_iff (lawful : H.Lawful) (collisionFree : H.CollisionFree)
    {mirror : TreeMirror H} (wellFormed : mirror.leafwise.WellFormed) {tree : H.MerkleTree}
    (holds : H.Holds tree mirror.currentLeaves) :
    mirror.root = H.root tree ↔ mirror.getLeaf (UInt32.ofNat (2 ^ 32 - 1)) = Felt252.zero := by
  have held : ∀ noteId, H.getLeaf tree noteId =
      if noteId.toNat < mirror.nextNoteId.toNat then mirror.getLeaf noteId else Felt252.zero := by
    intro noteId
    rw [holds noteId, List.getD_eq_getElem?_getD]
    by_cases inside : noteId.toNat < mirror.nextNoteId.toNat
    · simp [TreeMirror.currentLeaves, TreeMirror.getLeaf, inside]
    · simp [TreeMirror.currentLeaves, inside]
  have last : (UInt32.ofNat (2 ^ 32 - 1)).toNat = 2 ^ 32 - 1 := rfl
  have limit := mirror.nextNoteId.toNat_lt
  constructor
  · intro same
    have leaf : mirror.getLeaf (UInt32.ofNat (2 ^ 32 - 1)) =
        H.getLeaf tree (UInt32.ofNat (2 ^ 32 - 1)) :=
      lawful.leaves_of_root collisionFree same _
    rw [leaf, held, if_neg (by omega)]
  · intro zero
    apply lawful.root_congr
    intro noteId
    rw [held]
    split
    · rfl
    · rename_i outside
      by_contra nonzero
      rcases wellFormed.below noteId (wellFormed.recorded noteId nonzero) with inside | atEnd
      · exact outside inside
      · have same : noteId = UInt32.ofNat (2 ^ 32 - 1) :=
          UInt32.toNat_inj.mp (atEnd.trans last.symm)
        rw [same] at nonzero
        exact nonzero zero

/-- The path of a note from one mirror, folded with another leaf of it, is no root of a mirror
that does not hold this leaf together with the other leaves of the first. -/
theorem foldPath_ne_root (lawful : H.Lawful) (collisionFree : H.CollisionFree)
    {mirror instant : TreeMirror H} {noteId : UInt32} {leaf : Felt252}
    (apart : instant.getLeaf noteId = leaf →
      ∃ other ≠ noteId, instant.getLeaf other ≠ mirror.getLeaf other) :
    Merkle.foldPath H.hashPair noteId.toNat leaf (mirror.getPath noteId) ≠ instant.root := by
  intro same
  rw [TreeMirror.getPath, lawful.foldPath_getSiblings] at same
  have leaves : ∀ other, instant.getLeaf other =
      if other = noteId then leaf else mirror.getLeaf other := fun other =>
    (lawful.leaves_of_root collisionFree same other).symm.trans (lawful.getLeaf_setLeaf ..)
  obtain ⟨other, different, unequal⟩ := apart ((leaves noteId).trans (if_pos rfl))
  exact unequal ((leaves other).trans (if_neg different))

end Forms

section Samples

namespace Reference

theorem treeFunctions_collisionFree : treeFunctions.CollisionFree := by
  intro left right other another same
  have paired := congrArg Felt252.value same
  obtain ⟨lefts, rights⟩ := Nat.pair_eq_pair.mp paired
  exact ⟨congrArg Felt252.mk lefts, congrArg Felt252.mk rights⟩

/-- Two deposits in the second block. -/
def laterDeposits : Nat → List RpcLog
  | 1 => depositChain 0
  | _ => []

/-- The first block is polled, and the second block is mined. -/
noncomputable def firstPolled : List (Action (indexer ZkApi.Reference.protocol treeFunctions)) :=
  [.start .newPoller, .advance 0 .plain,
    .start .pollOnce, .advance 1 .plain, .advance 1 .plain, .advance 1 (.logs []),
    .advance 1 .plain, .advance 1 .plain, .advance 1 .plain, .move 1]

/-- A path request has read its leaf when a poll applies both deposits. -/
noncomputable def depositsBetween : List (Action (indexer ZkApi.Reference.protocol treeFunctions)) :=
  [.advance 2 .plain, .advance 2 .plain,
    .start .pollOnce, .advance 3 .plain, .advance 3 .plain, .advance 3 (.logs (depositChain 0)),
    .advance 3 .plain, .advance 3 .plain, .advance 3 .plain]

end Reference

/-- The task has just returned an answer to a request for the path of the note. -/
def isPathOf (task : Nat) (noteId : UInt32) : List (Event (indexer P H)) → Bool
  | .returned id (.notePath note) (.ok _) :: _ => id = task ∧ note = noteId
  | _ => false

theorem isPathOf_iff (task : Nat) (noteId : UInt32) (trace : List (Event (indexer P H))) :
    isPathOf task noteId trace = true ↔
      ∃ response rest, trace = .returned task (.notePath noteId) (.ok response) :: rest := by
  constructor
  · intro answered
    unfold isPathOf at answered
    split at answered
    · obtain ⟨rfl, rfl⟩ := of_decide_eq_true answered
      exact ⟨_, _, rfl⟩
    · cases answered
  · rintro ⟨response, rest, rfl⟩
    simp [isPathOf]

/-- The leaf that the last operation has read. -/
def leafRead : History Resp → Option Felt252
  | ⟨.getLeaf _, leaf⟩ :: _ => some leaf
  | _ => none

/-- Both deposits fall between the two reads of a request for the first path: no
instant had the leaf that the request saw together with the other leaf. -/
theorem deposits_between :
    ∃ (first opened : State (indexer ZkApi.Reference.protocol Reference.treeFunctions))
      (during : List (State (indexer ZkApi.Reference.protocol Reference.treeFunctions)))
      (late last : State (indexer ZkApi.Reference.protocol Reference.treeFunctions)),
      (State.initial (indexer ZkApi.Reference.protocol Reference.treeFunctions)
        (World.initial Reference.pollerConfig Reference.laterDeposits 0 none)).Reaches first ∧
      first.step (.start (.notePath 0)) = some opened ∧
      State.IsRun (opened :: during ++ [last]) ∧
      (opened :: during).getLast? = some late ∧
      late.step (.advance 2 .plain) = some last ∧
      isPathOf first.next 0 last.trace = true ∧
      ∀ instant ∈ opened :: during ++ [last],
        some (instant.world.mirror.getLeaf 0) = leafRead (historyOf first.next late.trace) →
          instant.world.mirror.getLeaf 1 ≠ late.world.mirror.getLeaf 1 :=
  State.passes_of_decide Reference.firstPolled (Call.notePath 0) Reference.depositsBetween
    (.advance 2 .plain)
    (fun first states late last => isPathOf first.next 0 last.trace = true ∧
      ∀ instant ∈ states ++ [last],
        some (instant.world.mirror.getLeaf 0) = leafRead (historyOf first.next late.trace) →
          instant.world.mirror.getLeaf 1 ≠ late.world.mirror.getLeaf 1)
    (by set_option maxRecDepth 20000 in decide)

end Samples

/-- The answer to a path request folds to a root that the mirror had during the
request exactly when at some instant of the request the tree held the note's
leaf as the first lock showed it together with all other leaves as the second
lock showed them.  A snapshot's root is the root of the mirror in one instant,
and that of the tree of its leaves exactly when the last note id is unused. -/
theorem tree_answers_rooted_iff (lawful : H.Lawful) (collisionFree : H.CollisionFree)
    (config : PollerConfig) (chain : Nat → List RpcLog) (head : UInt64) (cursor : Option UInt64)
    {first opened last : State (indexer P H)} {during : List (State (indexer P H))}
    {rest : List (Event (indexer P H))}
    (reached : (State.initial (indexer P H)
      (World.initial config chain head cursor)).Reaches first)
    (run : State.IsRun (opened :: during ++ [last])) :
    (∀ noteId response, first.step (.start (.notePath noteId)) = some opened →
      last.trace = .returned first.next (.notePath noteId) (.ok response) :: rest →
      ∃ leafRead ∈ opened :: during, ∃ pathRead ∈ opened :: during,
        Performs (opened :: during ++ [last]) first.next (.getLeaf noteId) leafRead ∧
        Performs (opened :: during ++ [last]) first.next (.getNotePath noteId) pathRead ∧
        ((∃ instant ∈ opened :: during ++ [last],
            Merkle.foldPath H.hashPair noteId.toNat response.leaf response.siblings =
              instant.world.mirror.root) ↔
          ∃ instant ∈ opened :: during ++ [last],
            instant.world.mirror.getLeaf noteId = leafRead.world.mirror.getLeaf noteId ∧
              ∀ other ≠ noteId,
                instant.world.mirror.getLeaf other = pathRead.world.mirror.getLeaf other)) ∧
    ∀ response, first.step (.start .snapshot) = some opened →
      last.trace = .returned first.next .snapshot (.ok response) :: rest →
      ∃ read ∈ opened :: during,
        Performs (opened :: during ++ [last]) first.next .getSnapshot read ∧
        response.root = read.world.mirror.root ∧
        ∀ tree, H.Holds tree response.leaves → (response.root = H.root tree ↔
          read.world.mirror.getLeaf (UInt32.ofNat (2 ^ 32 - 1)) = Felt252.zero) := by
  constructor
  · intro noteId response starts returned
    obtain ⟨leafRead, leafInside, pathRead, pathInside, leafPerforms, pathPerforms, leaf,
      siblings⟩ := notePath_reads reached starts run returned
    refine ⟨leafRead, leafInside, pathRead, pathInside, leafPerforms, pathPerforms, ?_⟩
    have folded : Merkle.foldPath H.hashPair noteId.toNat response.leaf response.siblings =
        (pathRead.world.mirror.setLeaf noteId (leafRead.world.mirror.getLeaf noteId)).root := by
      rw [leaf, siblings]
      exact lawful.foldPath_getSiblings _ noteId _
    have placed : ∀ other, (pathRead.world.mirror.setLeaf noteId
        (leafRead.world.mirror.getLeaf noteId)).getLeaf other =
          if other = noteId then leafRead.world.mirror.getLeaf noteId
          else pathRead.world.mirror.getLeaf other :=
      fun other => lawful.getLeaf_setLeaf _ noteId _ other
    rw [folded]
    constructor
    · rintro ⟨instant, inside, same⟩
      have leaves : ∀ other, instant.world.mirror.getLeaf other =
          (pathRead.world.mirror.setLeaf noteId
            (leafRead.world.mirror.getLeaf noteId)).getLeaf other :=
        fun other => (lawful.leaves_of_root collisionFree same other).symm
      refine ⟨instant, inside, ?_, ?_⟩
      · rw [leaves, placed, if_pos rfl]
      · intro other different
        rw [leaves, placed, if_neg different]
    · rintro ⟨instant, inside, own, others⟩
      refine ⟨instant, inside, lawful.root_congr fun other => ?_⟩
      change (pathRead.world.mirror.setLeaf noteId
        (leafRead.world.mirror.getLeaf noteId)).getLeaf other =
          instant.world.mirror.getLeaf other
      rw [placed]
      split
      · rename_i same
        rw [same, own]
      · rename_i different
        rw [others other different]
  · intro response starts returned
    obtain ⟨read, inside, performs, same⟩ := snapshot_reads reached starts run returned
    have readReached : (State.initial (indexer P H)
        (World.initial config chain head cursor)).Reaches read := by
      have openedReached := reached.trans (Relation.ReflTransGen.single ⟨_, starts⟩)
      exact openedReached.trans
        (Discipline.reaches_of_isRun run read (List.mem_append_left _ inside))
    refine ⟨read, inside, performs, by rw [same], fun tree holds => ?_⟩
    rw [same] at holds ⊢
    exact root_holding_iff lawful collisionFree (wellFormed_of_reaches lawful readReached) holds

theorem tree_answers_rooted_iff_betweenReads :
    ∃ (first opened last : State (indexer ZkApi.Reference.protocol Reference.treeFunctions))
      (during : List (State (indexer ZkApi.Reference.protocol Reference.treeFunctions)))
      (response : TreePathResponse),
      ∃ leafRead ∈ opened :: during, ∃ pathRead ∈ opened :: during,
        Performs (opened :: during ++ [last]) first.next (.getLeaf 0) leafRead ∧
        Performs (opened :: during ++ [last]) first.next (.getNotePath 0) pathRead ∧
        ((∃ instant ∈ opened :: during ++ [last],
            Merkle.foldPath Reference.treeFunctions.hashPair 0 response.leaf response.siblings =
              instant.world.mirror.root) ↔
          ∃ instant ∈ opened :: during ++ [last],
            instant.world.mirror.getLeaf 0 = leafRead.world.mirror.getLeaf 0 ∧
              ∀ other ≠ 0,
                instant.world.mirror.getLeaf other = pathRead.world.mirror.getLeaf other) := by
  obtain ⟨first, opened, during, late, last, reached, starts, run, _, _, answered, _⟩ :=
    deposits_between
  obtain ⟨response, rest, returned⟩ := (isPathOf_iff _ _ _).mp answered
  exact ⟨first, opened, last, during, response,
    (tree_answers_rooted_iff (TreeFunctions.ofHash_lawful _ _)
      Reference.treeFunctions_collisionFree _ _ _ _ reached run).1 0 response
      starts returned⟩

theorem split_answer_rootless :
    ∃ (first opened last : State (indexer ZkApi.Reference.protocol Reference.treeFunctions))
      (during : List (State (indexer ZkApi.Reference.protocol Reference.treeFunctions)))
      (response : TreePathResponse)
      (rest : List (Event (indexer ZkApi.Reference.protocol Reference.treeFunctions))),
      (State.initial (indexer ZkApi.Reference.protocol Reference.treeFunctions)
        (World.initial Reference.pollerConfig Reference.laterDeposits 0 none)).Reaches first ∧
      first.step (.start (.notePath 0)) = some opened ∧
      State.IsRun (opened :: during ++ [last]) ∧
      last.trace = .returned first.next (.notePath 0) (.ok response) :: rest ∧
      ∀ instant ∈ opened :: during ++ [last],
        Merkle.foldPath Reference.treeFunctions.hashPair 0 response.leaf response.siblings ≠
          instant.world.mirror.root := by
  obtain ⟨first, opened, during, late, last, reached, starts, run, ends, stepped, answered,
    apart⟩ := deposits_between
  obtain ⟨response, rest, returned⟩ := (isPathOf_iff _ _ _).mp answered
  refine ⟨first, opened, last, during, response, rest, reached, starts, run, returned, ?_⟩
  intro instant inside same
  have openedReached := reached.trans (Relation.ReflTransGen.single ⟨_, starts⟩)
  have lateReached := openedReached.trans (Discipline.reaches_of_isRun run late
    (List.mem_append_left _ (List.mem_of_getLast? ends)))
  obtain ⟨siblings, history⟩ := notePath_last lateReached stepped returned
  rw [siblings] at same
  have unequal : instant.world.mirror.getLeaf 0 = response.leaf →
      ∃ other ≠ 0, instant.world.mirror.getLeaf other ≠ late.world.mirror.getLeaf other := by
    intro own
    refine ⟨1, by decide, apart instant inside ?_⟩
    rw [history, own]
    rfl
  exact foldPath_ne_root (TreeFunctions.ofHash_lawful _ _) Reference.treeFunctions_collisionFree
    unequal same

end ZkApi.Indexer
