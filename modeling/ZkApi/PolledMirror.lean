import ZkApi.PollDiscipline
import ZkApi.ReferenceProtocol

/-!
# The polled mirror

Whatever fails and whenever the process stops, the mirror is the fold of the
events of all blocks below the cursor, each applied once in order, and then of
some events of the next batch.  The batch absorbs those when it is started
again, and the checkpoint file always holds the mirror of the blocks it names.
-/

namespace ZkApi.Indexer

open EventReplay Interleaving MachineIntegers

variable {P : Protocol} {H : TreeFunctions} {config : PollerConfig} {chain : Nat → List RpcLog}
  {world : World H} {trace : List (Event (indexer P H))}

section Blocks

/-- The mirror of all blocks from the first one to poll, below `bound`. -/
def mirrorBefore (P : Protocol) (H : TreeFunctions) (config : PollerConfig)
    (chain : Nat → List RpcLog) (bound : Nat) : TreeMirror H.leafwise :=
  TreeMirror.new.processEvents
    (eventsOf P (blockLogs chain config.fromBlock.toNat (bound - config.fromBlock.toNat)))

theorem blockLogs_add (chain : Nat → List RpcLog) (first count more : Nat) :
    blockLogs chain first (count + more) =
      blockLogs chain first count ++ blockLogs chain (first + count) more := by
  unfold blockLogs
  rw [← List.flatMap_append, List.range'_append_1]

theorem mirrorBefore_next {start bound : Nat} (first : config.fromBlock.toNat ≤ start)
    (next : start ≤ bound) :
    mirrorBefore P H config chain bound =
      (mirrorBefore P H config chain start).processEvents
        (eventsOf P (blockLogs chain start (bound - start))) := by
  have count : bound - config.fromBlock.toNat =
      (start - config.fromBlock.toNat) + (bound - start) := by omega
  have reached : config.fromBlock.toNat + (start - config.fromBlock.toNat) = start := by omega
  unfold mirrorBefore
  rw [count, blockLogs_add, eventsOf_append, TreeMirror.processEvents_append, reached]

theorem mirrorBefore_recorded (bound : Nat) :
    (mirrorBefore P H config chain bound).LeavesRecorded :=
  TreeMirror.leavesRecorded_new.processEvents _

theorem toNat_batchEnd (nextFromBlock latestBlock : UInt64) :
    (batchEnd nextFromBlock latestBlock).toNat =
      min latestBlock.toNat (min (nextFromBlock.toNat + 999) (2 ^ 64 - 1)) := by
  have range : (saturatingAdd nextFromBlock (saturatingSub maxBlockRange 1)).toNat =
      min (nextFromBlock.toNat + 999) (2 ^ 64 - 1) := by
    rw [toNat_saturatingAdd]
    rfl
  rw [← range]
  change (if _ then _ else _ : UInt64).toNat = _
  split
  · rename_i below
    have below := UInt64.le_iff_toNat_le.mp below
    omega
  · rename_i above
    have above := mt UInt64.le_iff_toNat_le.mpr above
    omega

/-- A batch that is not past the head starts at its first block. -/
theorem le_batchEnd {nextFromBlock latestBlock : UInt64} (pending : ¬ latestBlock < nextFromBlock) :
    nextFromBlock.toNat ≤ (batchEnd nextFromBlock latestBlock).toNat := by
  have pending := mt UInt64.lt_iff_toNat_lt.mpr pending
  have small := nextFromBlock.toNat_lt
  rw [toNat_batchEnd]
  omega

/-- The events of the batch that starts at a block, once the chain has grown to
another. -/
def batchEvents (P : Protocol) (chain : Nat → List RpcLog) (nextFromBlock latestBlock : UInt64) :
    List VaultEvent :=
  eventsOf P (logsBetween chain nextFromBlock.toNat (batchEnd nextFromBlock latestBlock).toNat)

theorem batchEvents_mono {nextFromBlock earlier later : UInt64} (grows : earlier ≤ later) :
    batchEvents P chain nextFromBlock earlier ⊆ batchEvents P chain nextFromBlock later := by
  have grows := UInt64.le_iff_toNat_le.mp grows
  apply eventsOf_subset
  unfold logsBetween
  have ends : (batchEnd nextFromBlock earlier).toNat ≤ (batchEnd nextFromBlock later).toNat := by
    rw [toNat_batchEnd, toNat_batchEnd]
    omega
  obtain ⟨more, count⟩ := Nat.exists_eq_add_of_le
    (Nat.sub_le_sub_right (Nat.succ_le_succ ends) nextFromBlock.toNat)
  intro log member
  rw [Nat.succ_eq_add_one, Nat.succ_eq_add_one] at count
  rw [count, blockLogs_add]
  exact List.mem_append_left _ member

theorem batchEvents_past {nextFromBlock latestBlock : UInt64}
    (past : latestBlock < nextFromBlock) : batchEvents P chain nextFromBlock latestBlock = [] := by
  have past := UInt64.lt_iff_toNat_lt.mp past
  have none : (batchEnd nextFromBlock latestBlock).toNat + 1 - nextFromBlock.toNat = 0 := by
    rw [toNat_batchEnd]
    omega
  unfold batchEvents logsBetween
  rw [none]
  rfl

end Blocks

section Replies

theorem decodes_of_some {log : RpcLog} (readable : (decodeLog P log).toOption.isNone = false) :
    (decodeLog P log).toOption.isSome = true := by
  rw [← Option.not_isNone, readable]
  rfl

/-- What is read of a truthful reply is the beginning of the logs. -/
theorem readable_beginning {reply logs : List RpcLog} (truth : truthful P reply logs = true) :
    readable P reply <+: logs := by
  induction reply generalizing logs with
  | nil => exact List.nil_prefix
  | cons log reply ih =>
      cases unread : (decodeLog P log).toOption.isNone with
      | true =>
          have stops : readable P (log :: reply) = [] := by
            rw [readable, List.takeWhile_cons, if_neg]
            rw [← Option.not_isNone, unread]
            simp
          rw [stops]
          exact List.nil_prefix
      | false =>
          cases logs with
          | nil =>
              rw [truthful, unread] at truth
              cases truth
          | cons logged logs =>
              rw [truthful, unread, Bool.false_or, Bool.and_eq_true, beq_iff_eq] at truth
              have goes : readable P (log :: reply) = log :: readable P reply := by
                rw [readable, List.takeWhile_cons, if_pos (decodes_of_some unread)]
                rfl
              rw [goes, ← truth.1]
              exact List.cons_prefix_cons.mpr ⟨rfl, ih truth.2⟩

/-- A truthful reply that is read to its end is complete. -/
theorem eq_of_readable {reply logs : List RpcLog} (truth : truthful P reply logs = true)
    (all : readable P reply = reply) : reply = logs := by
  induction reply generalizing logs with
  | nil =>
      cases logs with
      | nil => rfl
      | cons logged logs => cases truth
  | cons log reply ih =>
      have decodes : (decodeLog P log).toOption.isSome = true := by
        by_contra unread
        rw [readable, List.takeWhile_cons, if_neg unread] at all
        cases all
      have rest : readable P reply = reply := by
        rw [readable, List.takeWhile_cons, if_pos decodes] at all
        exact List.tail_eq_of_cons_eq all
      have unread : (decodeLog P log).toOption.isNone = false := by
        rw [← Option.not_isSome, decodes]
        rfl
      cases logs with
      | nil =>
          rw [truthful, unread] at truth
          cases truth
      | cons logged logs =>
          rw [truthful, unread, Bool.false_or, Bool.and_eq_true, beq_iff_eq] at truth
          rw [truth.1, ih truth.2 rest]

end Replies

section Invariant

/-- Every block from the first one to poll, below `bound`, has been asked for
in a request that was answered. -/
def Covered (config : PollerConfig) (trace : List (Event (indexer P H))) (bound : Nat) : Prop :=
  ∀ block, config.fromBlock.toNat ≤ block → block < bound →
    ∃ task fromBlock toBlock logs,
      .performed task (.ethGetLogs fromBlock toBlock) (.ok logs) ∈ trace ∧
        fromBlock.toNat ≤ block ∧ block ≤ toBlock.toNat

theorem Covered.mono {bound : Nat} (covered : Covered config trace bound)
    {later : List (Event (indexer P H))} (grows : trace <:+ later) :
    Covered config later bound := by
  intro block first below
  obtain ⟨task, fromBlock, toBlock, logs, member, from_, to_⟩ := covered block first below
  exact ⟨task, fromBlock, toBlock, logs, grows.subset member, from_, to_⟩

/-- The mirror is that of the blocks below the cursor, and then of some events
of the next batch. -/
def Behind (P : Protocol) (H : TreeFunctions) (config : PollerConfig) (chain : Nat → List RpcLog)
    (mirror : TreeMirror H.leafwise) (nextFromBlock latestBlock : UInt64)
    (applied : List VaultEvent) : Prop :=
  ∃ before, before ⊆ batchEvents P chain nextFromBlock latestBlock ∧
    mirror = (mirrorBefore P H config chain nextFromBlock.toNat).processEvents
      (before ++ applied)

/-- The blocks below the cursor have been read, and the mirror is at most some
events ahead of them. -/
structure CursorSound (config : PollerConfig) (chain : Nat → List RpcLog) (world : World H)
    (trace : List (Event (indexer P H))) (nextFromBlock : UInt64) : Prop where
  first : config.fromBlock.toNat ≤ nextFromBlock.toNat
  covered : Covered config trace nextFromBlock.toNat
  behind : Behind P H config chain world.mirror.leafwise nextFromBlock world.head []

/-- The blocks through `toBlock` have been read, and `mirror` is their fold. -/
structure Settled (config : PollerConfig) (chain : Nat → List RpcLog) (head : UInt64)
    (trace : List (Event (indexer P H))) (mirror : TreeMirror H.leafwise) (toBlock : UInt64) :
    Prop where
  first : config.fromBlock.toNat ≤ toBlock.toNat
  mined : toBlock ≤ head
  covered : Covered config trace (toBlock.toNat + 1)
  folded : mirror = mirrorBefore P H config chain (toBlock.toNat + 1)

/-- A mirror that is settled through a block is sound for the next cursor, even
where the cursor can grow no further. -/
theorem Settled.cursorSound {toBlock : UInt64}
    (settled : Settled config chain world.head trace world.mirror.leafwise toBlock) :
    CursorSound config chain world trace (saturatingAdd toBlock 1) := by
  have next : (saturatingAdd toBlock 1).toNat = min (toBlock.toNat + 1) (2 ^ 64 - 1) := by
    rw [toNat_saturatingAdd]
    rfl
  have small := toBlock.toNat_lt
  have mined := UInt64.le_iff_toNat_le.mp settled.mined
  have headSmall := world.head.toNat_lt
  refine ⟨?_, ?_, ?_⟩
  · have first := settled.first
    omega
  · intro block first below
    exact settled.covered block first (by omega)
  · by_cases last : toBlock.toNat = 2 ^ 64 - 1
    · have cursor : (saturatingAdd toBlock 1).toNat = toBlock.toNat := by omega
      refine ⟨eventsOf P (blockLogs chain toBlock.toNat 1), ?_, ?_⟩
      · unfold batchEvents logsBetween
        have count : (batchEnd (saturatingAdd toBlock 1) world.head).toNat + 1 -
            (saturatingAdd toBlock 1).toNat = 1 := by
          rw [toNat_batchEnd]
          omega
        rw [count, cursor]
        exact List.Subset.refl _
      · rw [List.append_nil, cursor, settled.folded,
          mirrorBefore_next settled.first (Nat.le_succ _), Nat.succ_eq_add_one,
          Nat.add_sub_cancel_left]
    · have cursor : (saturatingAdd toBlock 1).toNat = toBlock.toNat + 1 := by omega
      refine ⟨[], List.nil_subset _, ?_⟩
      rw [cursor]
      exact settled.folded

theorem CursorSound.grow {nextFromBlock : UInt64}
    (sound : CursorSound config chain world trace nextFromBlock) {after : World H}
    {later : List (Event (indexer P H))} (grows : trace <:+ later)
    (mirror : after.mirror = world.mirror) (head : world.head ≤ after.head) :
    CursorSound config chain after later nextFromBlock where
  first := sound.first
  covered := sound.covered.mono grows
  behind := by
    obtain ⟨before, subset, folded⟩ := sound.behind
    exact ⟨before, List.Subset.trans subset (batchEvents_mono head),
      (congrArg TreeMirror.leafwise mirror).trans folded⟩

theorem Settled.grow {head : UInt64} {mirror : TreeMirror H.leafwise} {toBlock : UInt64}
    (settled : Settled config chain head trace mirror toBlock) {after : UInt64}
    {later : List (Event (indexer P H))} (grows : trace <:+ later) (mined : head ≤ after) :
    Settled config chain after later mirror toBlock where
  first := settled.first
  mined := UInt64.le_trans settled.mined mined
  covered := settled.covered.mono grows
  folded := settled.folded

/-- What a poll has done so far shows in the world. -/
def Progress (config : PollerConfig) (chain : Nat → List RpcLog) (world : World H)
    (trace : List (Event (indexer P H))) : Phase → Prop
  | .outside => True
  | .taken nextFromBlock => world.nextFromBlock = some nextFromBlock
  | .observed nextFromBlock latestBlock applied =>
      world.nextFromBlock = some nextFromBlock ∧ latestBlock ≤ world.head ∧
        Behind P H config chain world.mirror.leafwise nextFromBlock latestBlock applied
  | .settled toBlock =>
      world.nextFromBlock = some (saturatingAdd toBlock 1) ∧
        Settled config chain world.head trace world.mirror.leafwise toBlock

/-- The checkpoint file holds the mirror of the blocks it names. -/
def FileSound (config : PollerConfig) (chain : Nat → List RpcLog) (world : World H)
    (trace : List (Event (indexer P H))) : Prop :=
  ∀ checkpoint, world.file = .checkpoint checkpoint →
    ∃ mirror : TreeMirror H.leafwise, checkpoint.mirror = mirror.snapshot ∧
      Settled config chain world.head trace mirror checkpoint.lastProcessedBlock

/-- Everything that holds between any two steps of the indexer. -/
structure PollInv (P : Protocol) (H : TreeFunctions) (config : PollerConfig)
    (chain : Nat → List RpcLog) (world : World H) (trace : List (Event (indexer P H))) : Prop where
  config_eq : world.config = config
  chain_eq : world.chain = chain
  spawned : ∀ nextFromBlock, world.nextFromBlock = some nextFromBlock → world.spawned = true
  unspawned : world.spawned = false → world.mirror = TreeMirror.new
  file : FileSound config chain world trace
  cursor : ∀ nextFromBlock, world.nextFromBlock = some nextFromBlock →
    CursorSound config chain world trace nextFromBlock
  owned : ∀ task, Running task trace → phase (historyOf task trace) ≠ .outside →
    world.owner = some task
  progress : ∀ task, world.owner = some task →
    Progress config chain world trace (phase (historyOf task trace))
  replied : ∀ task fromBlock toBlock logs,
    .performed task (.ethGetLogs fromBlock toBlock) (.ok logs) ∈ trace →
      truthful P logs (logsBetween chain fromBlock.toNat toBlock.toNat) = true

theorem PollInv.next_of_phase (inv : PollInv P H config chain world trace) {task : Nat}
    (running : Running task trace) (taken : phase (historyOf task trace) ≠ .outside) :
    Progress config chain world trace (phase (historyOf task trace)) :=
  inv.progress task (inv.owned task running taken)

theorem Progress.grow {reached : Phase} (progress : Progress config chain world trace reached)
    {after : World H} {later : List (Event (indexer P H))} (grows : trace <:+ later)
    (mirror : after.mirror = world.mirror) (cursor : after.nextFromBlock = world.nextFromBlock)
    (head : world.head ≤ after.head) : Progress config chain after later reached := by
  cases reached with
  | outside => trivial
  | taken nextFromBlock => exact cursor.trans progress
  | observed nextFromBlock latestBlock applied =>
      obtain ⟨next, mined, behind⟩ := progress
      refine ⟨cursor.trans next, UInt64.le_trans mined head, ?_⟩
      rw [mirror]
      exact behind
  | settled toBlock =>
      obtain ⟨next, settled⟩ := progress
      refine ⟨cursor.trans next, ?_⟩
      rw [mirror]
      exact settled.grow grows head

/-- An event after which the mirror, the cursor and the file are the same, and
no poll has come further. -/
theorem PollInv.quiet (inv : PollInv P H config chain world trace)
    {event : Event (indexer P H)} {after : World H}
    (same : after = { world with head := after.head, ready := after.ready, owner := after.owner })
    (head : world.head ≤ after.head)
    (phases : ∀ task, phase (historyOf task (event :: trace)) = phase (historyOf task trace))
    (owned : ∀ task, Running task (event :: trace) → phase (historyOf task trace) ≠ .outside →
      Running task trace ∧ after.owner = world.owner)
    (owner : ∀ task, after.owner = some task → world.owner = some task)
    (replied : ∀ task fromBlock toBlock logs,
      event = .performed task (.ethGetLogs fromBlock toBlock) (.ok logs) →
        truthful P logs (logsBetween chain fromBlock.toNat toBlock.toNat) = true) :
    PollInv P H config chain after (event :: trace) := by
  have grows : trace <:+ event :: trace := List.suffix_cons _ _
  have mirror : after.mirror = world.mirror := by rw [same]
  have cursor : after.nextFromBlock = world.nextFromBlock := by rw [same]
  have file : after.file = world.file := by rw [same]
  have spawned : after.spawned = world.spawned := by rw [same]
  refine ⟨?_, ?_, ?_, ?_, ?_, ?_, ?_, ?_, ?_⟩
  · rw [same]
    exact inv.config_eq
  · rw [same]
    exact inv.chain_eq
  · intro next some
    rw [spawned]
    exact inv.spawned next (cursor.symm.trans some)
  · intro unspawned
    rw [mirror]
    exact inv.unspawned (spawned.symm.trans unspawned)
  · intro checkpoint holds
    obtain ⟨stored, snapshot, settled⟩ := inv.file checkpoint (file.symm.trans holds)
    exact ⟨stored, snapshot, settled.grow grows head⟩
  · intro next some
    exact (inv.cursor next (cursor.symm.trans some)).grow grows mirror head
  · intro task running taken
    rw [phases] at taken
    obtain ⟨running, owner⟩ := owned task running taken
    exact owner.trans (inv.owned task running taken)
  · intro task owns
    rw [phases]
    exact (inv.progress task (owner task owns)).grow grows mirror cursor head
  · intro task fromBlock toBlock logs member
    rcases List.mem_cons.mp member with new | member
    · exact replied task fromBlock toBlock logs new.symm
    · exact inv.replied task fromBlock toBlock logs member

end Invariant

section Steps

variable {task : Nat} {call : Call} {op : Op} {answer : Answer} {response : Resp op}
  {after : World H}

/-- The operations that read and change nothing but readiness. -/
def Op.reads : Op → Prop
  | .getRoot | .markReady | .isReady | .getNextNoteId | .getSnapshot => True
  | .getLeaf _ | .getNotePath _ | .getZeroPath _ => True
  | _ => False

theorem execute_reads (reads : op.reads)
    (executed : execute P H task op answer world = some (response, after)) :
    after = { world with ready := after.ready } ∧
      ∀ history : History Resp, phase (⟨op, response⟩ :: history) = phase history := by
  cases op with
  | getRoot | markReady | isReady | getNextNoteId | getSnapshot | getLeaf noteId
  | getNotePath noteId | getZeroPath noteId =>
      cases answer <;> cases executed
      exact ⟨rfl, fun _ => rfl⟩
  | _ => exact reads.elim

/-- An operation of one task leaves the phase of the others alone. -/
theorem phase_performed (response : Resp op)
    (own : phase (⟨op, response⟩ :: historyOf task trace) = phase (historyOf task trace))
    (other : Nat) :
    phase (historyOf other (.performed task op response :: trace)) =
      phase (historyOf other trace) := by
  rw [historyOf]
  split
  · rename_i same
    subst same
    exact own
  · rfl

theorem PollInv.reads (inv : PollInv P H config chain world trace) (reads : op.reads)
    (executed : execute P H task op answer world = some (response, after)) :
    PollInv P H config chain after (.performed task op response :: trace) := by
  obtain ⟨same, phases⟩ := execute_reads reads executed
  apply inv.quiet
  · rw [same]
  · rw [same]
    exact UInt64.le_refl _
  · exact phase_performed response (phases _)
  · intro other running _
    refine ⟨running, ?_⟩
    rw [same]
  · intro other owns
    rw [same] at owns
    exact owns
  · intro other fromBlock toBlock logs equal
    cases equal
    exact reads.elim

/-- A new poller starts from the first block, or from what its checkpoint
names. -/
theorem openPoller_sound (lawful : H.Lawful) (inv : PollInv P H config chain world trace)
    (unspawned : world.spawned = false) {mirror : TreeMirror H} {nextFromBlock : UInt64}
    (opened : openPoller world.config world.file world.mirror = (mirror, .ok nextFromBlock))
    {later : List (Event (indexer P H))} (grows : trace <:+ later) {after : World H}
    (afterMirror : after.mirror = mirror) (head : world.head = after.head) :
    CursorSound config chain after later nextFromBlock := by
  have fresh : ∀ next, (normalizeAddress world.config.contractAddress).map (fun _ => next) =
      .ok nextFromBlock → next = nextFromBlock := by
    intro next normalized
    cases address : normalizeAddress world.config.contractAddress with
    | error message =>
        rw [address] at normalized
        cases normalized
    | ok value =>
        rw [address] at normalized
        exact Except.ok.inj normalized
  have start : world.mirror = mirror → world.config.fromBlock = nextFromBlock →
      CursorSound config chain after later nextFromBlock := by
    intro same first
    rw [inv.config_eq] at first
    rw [← first]
    refine ⟨le_rfl, ?_, [], List.nil_subset _, ?_⟩
    · intro block reached below
      exact (Nat.not_lt.mpr reached below).elim
    · rw [afterMirror, ← same, inv.unspawned unspawned, TreeMirror.leafwise_new lawful,
        mirrorBefore, Nat.sub_self]
      rfl
  unfold openPoller at opened
  split at opened
  · rename_i checkpoint configured stored
    split at opened
    · cases opened
    obtain ⟨settledMirror, snapshot, settled⟩ := inv.file checkpoint stored
    split at opened
    · cases opened
    · rename_i restored accepted
      have recorded : settledMirror.LeavesRecorded := by
        rw [settled.folded]
        exact mirrorBefore_recorded _
      rw [snapshot] at accepted
      have same : restored.leafwise = settledMirror := by
        apply TreeMirror.fromSnapshot_snapshot recorded
        rw [← TreeMirror.leafwise_fromSnapshot lawful, accepted]
        rfl
      obtain ⟨sameMirror, normalized⟩ := Prod.mk.inj opened
      rw [← fresh _ normalized]
      have reached : Settled config chain after.head later after.mirror.leafwise
          checkpoint.lastProcessedBlock := by
        rw [afterMirror, ← sameMirror, same, ← head]
        exact settled.grow grows (UInt64.le_refl _)
      exact reached.cursorSound
  · obtain ⟨sameMirror, normalized⟩ := Prod.mk.inj opened
    exact start sameMirror (fresh _ normalized)

/-- Before there is a cursor no poll has begun. -/
theorem PollInv.outside (inv : PollInv P H config chain world trace)
    (none : world.nextFromBlock = none) {owner : Nat} (owns : world.owner = some owner) :
    phase (historyOf owner trace) = .outside := by
  have progress := inv.progress owner owns
  cases reached : phase (historyOf owner trace) with
  | outside => rfl
  | taken next =>
      rw [reached] at progress
      cases none.symm.trans progress
  | observed next latest applied =>
      rw [reached] at progress
      cases none.symm.trans progress.1
  | settled toBlock =>
      rw [reached] at progress
      cases none.symm.trans progress.1

theorem PollInv.newPoller (lawful : H.Lawful) (inv : PollInv P H config chain world trace)
    {response : Resp .newPoller}
    (executed : execute P H task .newPoller answer world = some (response, after)) :
    PollInv P H config chain after (.performed task .newPoller response :: trace) := by
  have grows : trace <:+ .performed task .newPoller response :: trace := List.suffix_cons _ _
  have phases : ∀ other, phase (historyOf (M := indexer P H) other
      (.performed task .newPoller response :: trace)) = phase (historyOf other trace) :=
    phase_performed response rfl
  have unspawned : world.spawned = false := by
    cases answer with
    | plain | fails message =>
        by_contra spawned
        rw [execute, if_pos (by simpa using spawned)] at executed
        cases executed
    | logs reply => cases executed
  have none : world.nextFromBlock = none := by
    cases cursor : world.nextFromBlock with
    | none => rfl
    | some next =>
        have spawned := inv.spawned next cursor
        rw [unspawned] at spawned
        cases spawned
  have shape : after.config = world.config ∧ after.chain = world.chain ∧
      after.head = world.head ∧ after.file = world.file ∧ after.owner = world.owner ∧
      after.spawned = true ∧ ∀ next, after.nextFromBlock = some next →
        openPoller world.config world.file world.mirror = (after.mirror, .ok next) := by
    cases answer with
    | plain =>
        rw [execute, if_neg (by simp [unspawned])] at executed
        cases executed
        refine ⟨rfl, rfl, rfl, rfl, rfl, rfl, fun next opened => ?_⟩
        have opened : (openPoller world.config world.file world.mirror).2.toOption =
          some next := opened
        cases result : (openPoller world.config world.file world.mirror).2 with
        | error message =>
            rw [result] at opened
            cases opened
        | ok value =>
            rw [result] at opened
            cases opened
            exact Prod.ext rfl result
    | fails message =>
        rw [execute, if_neg (by simp [unspawned])] at executed
        cases executed
        refine ⟨rfl, rfl, rfl, rfl, rfl, rfl, fun next opened => ?_⟩
        cases none.symm.trans opened
    | logs reply => cases executed
  obtain ⟨sameConfig, sameChain, sameHead, sameFile, sameOwner, spawned, opened⟩ := shape
  refine ⟨sameConfig.trans inv.config_eq, sameChain.trans inv.chain_eq, fun _ _ => spawned,
    ?_, ?_, ?_, ?_, ?_, ?_⟩
  · intro unspawned
    rw [spawned] at unspawned
    cases unspawned
  · intro checkpoint holds
    obtain ⟨stored, snapshot, settled⟩ := inv.file checkpoint (sameFile.symm.trans holds)
    refine ⟨stored, snapshot, ?_⟩
    rw [sameHead]
    exact settled.grow grows (UInt64.le_refl _)
  · intro next some
    exact openPoller_sound lawful inv unspawned (opened next some) grows rfl sameHead.symm
  · intro other running taken
    rw [phases] at taken
    rw [sameOwner]
    exact inv.owned other running taken
  · intro other owns
    rw [phases, inv.outside none (sameOwner.symm.trans owns)]
    trivial
  · intro other fromBlock toBlock logs member
    rcases List.mem_cons.mp member with new | member
    · cases new
    · exact inv.replied other fromBlock toBlock logs member

/-- The operations that only a poll performs. -/
def Op.polls : Op → Prop
  | .takePoller | .ethBlockNumber | .ethGetLogs _ _ => True
  | .processEvent _ | .advanceTo _ | .persistCheckpoint _ => True
  | _ => False

theorem Allowed.polls {history : History Resp} (allowed : Allowed P call history op)
    (polls : op.polls) : PollAllowed P history op := by
  cases call with
  | pollOnce => exact allowed
  | newPoller =>
      rw [show op = .newPoller from allowed] at polls
      exact polls.elim
  | root | nextNoteId | snapshot | zeroPath noteId =>
      rcases (allowed : _ ∨ _) with rfl | rfl <;> exact polls.elim
  | notePath noteId =>
      rcases allowed with ⟨_, rfl⟩ | ⟨_, rfl⟩ | ⟨_, _, rfl⟩ <;> exact polls.elim

/-- A step of the poll that owns the poller: what it leaves the same, and how
far it brings the poll. -/
theorem PollInv.advance (inv : PollInv P H config chain world trace) (owns : world.owner = some task)
    (kept : after = { world with
      mirror := after.mirror, nextFromBlock := after.nextFromBlock, file := after.file })
    (spawned : world.spawned = true)
    (file : FileSound config chain after (.performed task op response :: trace))
    (cursor : ∀ next, after.nextFromBlock = some next →
      CursorSound config chain after (.performed task op response :: trace) next)
    (progress : Progress config chain after (.performed task op response :: trace)
      (phase (⟨op, response⟩ :: historyOf task trace)))
    (replied : ∀ fromBlock toBlock logs, (⟨op, response⟩ : (op : Op) × Resp op) =
      ⟨.ethGetLogs fromBlock toBlock, .ok logs⟩ →
        truthful P logs (logsBetween chain fromBlock.toNat toBlock.toNat) = true) :
    PollInv P H config chain after (.performed task op response :: trace) := by
  have owner : after.owner = some task := by
    rw [kept]
    exact owns
  refine ⟨?_, ?_, ?_, ?_, file, cursor, ?_, ?_, ?_⟩
  · rw [kept]
    exact inv.config_eq
  · rw [kept]
    exact inv.chain_eq
  · intro _ _
    rw [kept]
    exact spawned
  · intro unspawned
    rw [kept] at unspawned
    cases spawned.symm.trans unspawned
  · intro other otherRunning taken
    by_cases same : task = other
    · rw [← same]
      exact owner
    · rw [historyOf, if_neg same] at taken
      have otherOwns := inv.owned other otherRunning taken
      exact (same (Option.some.inj (owns.symm.trans otherOwns))).elim
  · intro other otherOwns
    have same : task = other := Option.some.inj (owner.symm.trans otherOwns)
    rw [← same, historyOf, if_pos rfl]
    exact progress
  · intro other fromBlock toBlock logs member
    rcases List.mem_cons.mp member with new | member
    · cases new
      exact replied fromBlock toBlock logs rfl
    · exact inv.replied other fromBlock toBlock logs member

theorem PollInv.takePoller (inv : PollInv P H config chain world trace)
    {response : Resp .takePoller}
    (executed : execute P H task .takePoller answer world = some (response, after)) :
    PollInv P H config chain after (.performed task .takePoller response :: trace) := by
  have grows : trace <:+ .performed task .takePoller response :: trace := List.suffix_cons _ _
  cases answer with
  | fails message | logs reply => cases executed
  | plain =>
      rw [execute] at executed
      split at executed
      · rename_i next free cursor
        cases executed
        refine ⟨inv.config_eq, inv.chain_eq, inv.spawned, inv.unspawned, ?_, ?_, ?_, ?_, ?_⟩
        · intro checkpoint holds
          obtain ⟨stored, snapshot, settled⟩ := inv.file checkpoint holds
          exact ⟨stored, snapshot, settled.grow grows (UInt64.le_refl _)⟩
        · intro next some
          exact (inv.cursor next some).grow grows rfl (UInt64.le_refl _)
        · intro other running taken
          by_cases same : task = other
          · rw [same]
          · rw [historyOf, if_neg same] at taken
            cases free.symm.trans (inv.owned other running taken)
        · intro other owns
          have same : task = other := Option.some.inj owns
          rw [← same, historyOf, if_pos rfl]
          exact cursor
        · intro other fromBlock toBlock logs member
          rcases List.mem_cons.mp member with new | member
          · cases new
          · exact inv.replied other fromBlock toBlock logs member
      · cases executed

theorem PollInv.ethBlockNumber (inv : PollInv P H config chain world trace)
    {response : Resp .ethBlockNumber} (running : Running task trace)
    (allowed : ∃ nextFromBlock, phase (historyOf task trace) = .taken nextFromBlock)
    (executed : execute P H task .ethBlockNumber answer world = some (response, after)) :
    PollInv P H config chain after (.performed task .ethBlockNumber response :: trace) := by
  have grows : trace <:+ .performed task .ethBlockNumber response :: trace :=
    List.suffix_cons _ _
  obtain ⟨next, taken⟩ := allowed
  have owns : world.owner = some task := inv.owned task running (by simp [taken])
  have cursor := inv.progress task owns
  rw [taken] at cursor
  have sound := inv.cursor next cursor
  have same : after = world := by
    cases answer <;> cases executed <;> rfl
  subst same
  apply inv.advance owns rfl (inv.spawned next cursor)
  · intro checkpoint holds
    obtain ⟨stored, snapshot, settled⟩ := inv.file checkpoint holds
    exact ⟨stored, snapshot, settled.grow grows (UInt64.le_refl _)⟩
  · intro other some
    exact (inv.cursor other some).grow grows rfl (UInt64.le_refl _)
  · cases answer with
    | plain =>
        cases executed
        simp only [phase, taken]
        exact ⟨cursor, UInt64.le_refl _, sound.behind⟩
    | fails message =>
        cases executed
        change Progress _ _ _ _ (phase (historyOf task trace))
        rw [taken]
        exact cursor
    | logs reply => cases executed
  · intro fromBlock toBlock logs equal
    cases equal

theorem PollInv.ethGetLogs (inv : PollInv P H config chain world trace)
    {fromBlock toBlock : UInt64} {response : Resp (.ethGetLogs fromBlock toBlock)}
    (executed : execute P H task (.ethGetLogs fromBlock toBlock) answer world =
      some (response, after)) :
    PollInv P H config chain after
      (.performed task (.ethGetLogs fromBlock toBlock) response :: trace) := by
  have same : after = world ∧ ∀ logs, response = .ok logs →
      truthful P logs (logsBetween chain fromBlock.toNat toBlock.toNat) = true := by
    cases answer with
    | plain => cases executed
    | fails message =>
        cases executed
        exact ⟨rfl, fun _ equal => by cases equal⟩
    | logs reply =>
        obtain ⟨truth, equal⟩ := Option.ite_none_right_eq_some.mp executed
        cases Option.some.inj equal
        refine ⟨rfl, fun logs equal => ?_⟩
        cases equal
        rw [← inv.chain_eq]
        exact truth
  obtain ⟨rfl, truth⟩ := same
  apply inv.quiet rfl (UInt64.le_refl _)
  · exact phase_performed response rfl
  · intro other running _
    exact ⟨running, rfl⟩
  · intro other owns
    exact owns
  · intro other otherFrom otherTo logs equal
    cases equal
    exact truth logs rfl

theorem PollInv.processEvent (lawful : H.Lawful) (inv : PollInv P H config chain world trace)
    {event : VaultEvent} {response : Resp (.processEvent event)} (running : Running task trace)
    (allowed : PollAllowed P (historyOf task trace) (.processEvent event))
    (executed : execute P H task (.processEvent event) answer world = some (response, after)) :
    PollInv P H config chain after
      (.performed task (.processEvent event) response :: trace) := by
  have grows : trace <:+ .performed task (.processEvent event) response :: trace :=
    List.suffix_cons _ _
  obtain ⟨next, latest, applied, logs, observed, _, received, listed⟩ := allowed
  have owns : world.owner = some task := inv.owned task running (by simp [observed])
  have progress := inv.progress task owns
  rw [observed] at progress
  obtain ⟨cursor, mined, before, subset, folded⟩ := progress
  have sound := inv.cursor next cursor
  obtain ⟨ahead, aheadSubset, aheadFolded⟩ := sound.behind
  have truth := inv.replied task _ _ logs (saw_historyOf_iff.mp received)
  have inBatch : event ∈ batchEvents P chain next latest :=
    eventsOf_subset (readable_beginning truth).subset listed
  have same : after = { world with mirror := world.mirror.processEvent event } := by
    cases answer <;> cases executed
    rfl
  subst same
  have mirrorAfter : ∀ events : List VaultEvent,
      world.mirror.leafwise = (mirrorBefore P H config chain next.toNat).processEvents events →
        (world.mirror.processEvent event).leafwise =
          (mirrorBefore P H config chain next.toNat).processEvents (events ++ [event]) := by
    intro events equal
    rw [TreeMirror.processEvents_append, ← equal, TreeMirror.leafwise_processEvent lawful]
    rfl
  apply inv.advance owns rfl (inv.spawned next cursor)
  · intro checkpoint holds
    obtain ⟨stored, snapshot, settled⟩ := inv.file checkpoint holds
    exact ⟨stored, snapshot, settled.grow grows (UInt64.le_refl _)⟩
  · intro other some
    have sameNext : next = other := Option.some.inj (cursor.symm.trans some)
    subst sameNext
    refine ⟨sound.first, sound.covered.mono grows, ahead ++ [event], ?_, ?_⟩
    · intro member listed
      rcases List.mem_append.mp listed with earlier | new
      · exact aheadSubset earlier
      · rw [List.mem_singleton.mp new]
        exact batchEvents_mono mined inBatch
    · rw [List.append_nil] at aheadFolded ⊢
      exact mirrorAfter ahead aheadFolded
  · simp only [phase, observed]
    refine ⟨cursor, mined, before, subset, ?_⟩
    rw [← List.append_assoc]
    exact mirrorAfter _ folded
  · intro fromBlock toBlock logs equal
    cases equal

/-- When every event of the batch has been applied, the mirror is the fold of
all blocks through the end of the batch. -/
theorem Behind.settled {mirror : TreeMirror H.leafwise} {nextFromBlock latestBlock : UInt64}
    (first : config.fromBlock.toNat ≤ nextFromBlock.toNat)
    (pending : ¬ latestBlock < nextFromBlock)
    (behind : Behind P H config chain mirror nextFromBlock latestBlock
      (batchEvents P chain nextFromBlock latestBlock)) :
    mirror = mirrorBefore P H config chain
      ((batchEnd nextFromBlock latestBlock).toNat + 1) := by
  obtain ⟨before, subset, folded⟩ := behind
  have ends := le_batchEnd pending
  rw [folded, TreeMirror.processEvents_of_subset subset,
    mirrorBefore_next first (show nextFromBlock.toNat ≤
      (batchEnd nextFromBlock latestBlock).toNat + 1 by omega)]
  rfl

theorem PollInv.advanceTo (inv : PollInv P H config chain world trace)
    {next : UInt64} {response : Resp (.advanceTo next)} (running : Running task trace)
    (allowed : PollAllowed P (historyOf task trace) (.advanceTo next))
    (executed : execute P H task (.advanceTo next) answer world = some (response, after)) :
    PollInv P H config chain after (.performed task (.advanceTo next) response :: trace) := by
  have grows : trace <:+ .performed task (.advanceTo next) response :: trace :=
    List.suffix_cons _ _
  obtain ⟨start, latest, logs, observed, pending, received, all, rfl⟩ := allowed
  have owns : world.owner = some task := inv.owned task running (by simp [observed])
  have progress := inv.progress task owns
  rw [observed] at progress
  obtain ⟨cursor, mined, behind⟩ := progress
  have sound := inv.cursor start cursor
  have performed := saw_historyOf_iff.mp received
  have complete := eq_of_readable (inv.replied task _ _ logs performed) all
  rw [complete] at behind
  have folded := behind.settled sound.first pending
  have starts := le_batchEnd pending
  have same : after = { world with
      nextFromBlock := some (saturatingAdd (batchEnd start latest) 1) } := by
    cases answer <;> cases executed
    rfl
  subst same
  have settled : Settled config chain world.head
      (.performed task (.advanceTo (saturatingAdd (batchEnd start latest) 1)) response :: trace)
      world.mirror.leafwise (batchEnd start latest) := by
    refine ⟨?_, ?_, ?_, folded⟩
    · have first := sound.first
      omega
    · have mined := UInt64.le_iff_toNat_le.mp mined
      rw [UInt64.le_iff_toNat_le, toNat_batchEnd]
      omega
    · intro block first below
      by_cases earlier : block < start.toNat
      · exact sound.covered.mono grows block first earlier
      · refine ⟨task, start, batchEnd start latest, logs, ?_, by omega, by omega⟩
        exact List.mem_cons_of_mem _ performed
  apply inv.advance owns rfl (inv.spawned start cursor)
  · intro checkpoint holds
    obtain ⟨stored, snapshot, settled⟩ := inv.file checkpoint holds
    exact ⟨stored, snapshot, settled.grow grows (UInt64.le_refl _)⟩
  · intro other some
    cases Option.some.inj some
    have reached : CursorSound config chain world _ _ := settled.cursorSound
    exact ⟨reached.first, reached.covered, reached.behind⟩
  · simp only [phase, observed]
    exact ⟨rfl, settled⟩
  · intro fromBlock toBlock logs equal
    cases equal

theorem PollInv.persistCheckpoint (inv : PollInv P H config chain world trace)
    {last : UInt64} {response : Resp (.persistCheckpoint last)} (running : Running task trace)
    (allowed : phase (historyOf task trace) = .settled last)
    (executed : execute P H task (.persistCheckpoint last) answer world =
      some (response, after)) :
    PollInv P H config chain after
      (.performed task (.persistCheckpoint last) response :: trace) := by
  have grows : trace <:+ .performed task (.persistCheckpoint last) response :: trace :=
    List.suffix_cons _ _
  have owns : world.owner = some task := inv.owned task running (by simp [allowed])
  have progress := inv.progress task owns
  rw [allowed] at progress
  obtain ⟨cursor, settled⟩ := progress
  have shape : after = { world with file := after.file } ∧
      (after.file = world.file ∨
        after.file = .checkpoint ⟨checkpointVersion, last, world.mirror.snapshot⟩) := by
    cases answer with
    | plain =>
        cases executed
        unfold Indexer.persistCheckpoint
        split
        · exact ⟨rfl, Or.inl rfl⟩
        · exact ⟨rfl, Or.inr rfl⟩
    | fails message =>
        obtain ⟨_, equal⟩ := Option.ite_none_right_eq_some.mp executed
        cases Option.some.inj equal
        exact ⟨rfl, Or.inl rfl⟩
    | logs reply => cases executed
  obtain ⟨kept, file⟩ := shape
  have head : after.head = world.head := by rw [kept]
  have grown : world.head ≤ after.head := by
    rw [head]
    exact UInt64.le_refl _
  have mirror : after.mirror = world.mirror := by rw [kept]
  have next : after.nextFromBlock = world.nextFromBlock := by rw [kept]
  apply inv.advance owns (by rw [kept]) (inv.spawned _ cursor)
  · intro checkpoint holds
    rw [head]
    rcases file with same | written
    · obtain ⟨stored, snapshot, settled⟩ := inv.file checkpoint (same.symm.trans holds)
      exact ⟨stored, snapshot, settled.grow grows (UInt64.le_refl _)⟩
    · cases written.symm.trans holds
      exact ⟨world.mirror.leafwise, rfl, settled.grow grows (UInt64.le_refl _)⟩
  · intro other some
    rw [next] at some
    exact (inv.cursor other some).grow grows mirror grown
  · change Progress _ _ _ _ (phase (historyOf task trace))
    rw [allowed]
    have before : Progress config chain world trace (.settled last) := ⟨cursor, settled⟩
    exact before.grow grows mirror next grown
  · intro fromBlock toBlock logs equal
    cases equal

end Steps

section Runs

/-- A poll that has just succeeded leaves the fold of all blocks it ended at. -/
def JustPolled (config : PollerConfig) (chain : Nat → List RpcLog) (world : World H)
    (trace : List (Event (indexer P H))) : Prop :=
  ∀ task applied rest, trace = .returned task .pollOnce (.ok applied) :: rest →
    ∃ bound, endOf (historyOf task rest) = some bound ∧
      world.mirror.leafwise = mirrorBefore P H config chain bound ∧ Covered config rest bound

theorem PollInv.justPolled (inv : PollInv P H config chain world trace) {task : Nat}
    (running : Running task trace) (ends : PollEnds (historyOf task trace)) :
    ∃ bound, endOf (historyOf task trace) = some bound ∧
      world.mirror.leafwise = mirrorBefore P H config chain bound ∧ Covered config trace bound := by
  rcases ends with ⟨next, latest, observed, past, ended⟩ | ⟨toBlock, settled, ended⟩
  · have progress := inv.next_of_phase running (by simp [observed])
    rw [observed] at progress
    obtain ⟨cursor, _, before, subset, folded⟩ := progress
    rw [batchEvents_past past] at subset
    rw [List.subset_nil.mp subset] at folded
    exact ⟨next.toNat, ended, folded, (inv.cursor next cursor).covered⟩
  · have progress := inv.next_of_phase running (by simp [settled])
    rw [settled] at progress
    exact ⟨toBlock.toNat + 1, ended, progress.2.folded, progress.2.covered⟩

/-- The initial state of an indexer keeps everything. -/
theorem pollInv_initial (head : UInt64) (cursor : Option UInt64) :
    PollInv P H config chain (World.initial config chain head cursor) [] where
  config_eq := rfl
  chain_eq := rfl
  spawned := nofun
  unspawned _ := rfl
  file := by
    intro checkpoint holds
    cases cursor <;> cases holds
  cursor := nofun
  owned _ running := running.elim
  progress := nofun
  replied := nofun

theorem PollInv.release (inv : PollInv P H config chain world trace) {task : Nat}
    {event : Event (indexer P H)}
    (histories : ∀ other, historyOf other (event :: trace) = historyOf other trace)
    (runs : ∀ other, Running other (event :: trace) → task ≠ other ∧ Running other trace)
    (performs : ∀ other op (response : Resp op), event ≠ .performed other op response) :
    PollInv P H config chain (Indexer.release task world) (event :: trace) := by
  have owner : ∀ other, task ≠ other → world.owner = some other →
      (Indexer.release task world).owner = some other := by
    intro other different owns
    have foreign : world.owner ≠ some task := by
      intro own
      exact different (Option.some.inj (own.symm.trans owns))
    rw [Indexer.release, if_neg foreign]
    exact owns
  have same : Indexer.release task world =
      { world with head := world.head, ready := world.ready,
                   owner := (Indexer.release task world).owner } := by
    unfold Indexer.release
    split <;> rfl
  have head : (Indexer.release task world).head = world.head := by rw [same]
  have owned := inv.owned
  have quieted : PollInv P H config chain
        { world with owner := (Indexer.release task world).owner } (event :: trace) := by
    have grows : trace <:+ event :: trace := List.suffix_cons _ _
    refine ⟨inv.config_eq, inv.chain_eq, inv.spawned, inv.unspawned, ?_, ?_, ?_, ?_, ?_⟩
    · intro checkpoint holds
      obtain ⟨stored, snapshot, settled⟩ := inv.file checkpoint holds
      exact ⟨stored, snapshot, settled.grow grows (UInt64.le_refl _)⟩
    · intro next some
      exact (inv.cursor next some).grow grows rfl (UInt64.le_refl _)
    · intro other running taken
      rw [histories] at taken
      obtain ⟨different, running⟩ := runs other running
      exact owner other different (inv.owned other running taken)
    · intro other owns
      have owns : (Indexer.release task world).owner = some other := owns
      have held : world.owner = some other := by
        unfold Indexer.release at owns
        split at owns
        · cases owns
        · exact owns
      rw [histories]
      exact (inv.progress other held).grow grows rfl rfl (UInt64.le_refl _)
    · intro other fromBlock toBlock logs member
      rcases List.mem_cons.mp member with new | member
      · exact (performs _ _ _ new.symm).elim
      · exact inv.replied other fromBlock toBlock logs member
  rw [same]
  exact quieted

theorem pollInv_preserved (lawful : H.Lawful) :
    (discipline P H).Inductive fun world trace =>
      PollInv P H config chain world trace ∧ JustPolled config chain world trace where
  started := by
    intro world trace task call fresh _ held
    refine ⟨?_, nofun⟩
    apply held.1.quiet rfl (UInt64.le_refl _)
    · intro other
      rfl
    · intro other running taken
      rcases running with rfl | running
      · rw [fresh.historyOf_eq_nil] at taken
        exact (taken rfl).elim
      · exact ⟨running, rfl⟩
    · intro other owns
      exact owns
    · intro other fromBlock toBlock logs equal
      cases equal
  performed := by
    intro world trace task call op answer response after running started allowed executed _ held
    have allowed : Allowed P call (historyOf task trace) op := allowed
    have executed : execute P H task op answer world = some (response, after) := executed
    refine ⟨?_, nofun⟩
    cases op with
    | newPoller => exact held.1.newPoller lawful executed
    | takePoller => exact held.1.takePoller executed
    | ethBlockNumber => exact held.1.ethBlockNumber running (allowed.polls trivial) executed
    | ethGetLogs fromBlock toBlock => exact held.1.ethGetLogs executed
    | processEvent event =>
        exact held.1.processEvent lawful running (allowed.polls trivial) executed
    | advanceTo next => exact held.1.advanceTo running (allowed.polls trivial) executed
    | persistCheckpoint last =>
        exact held.1.persistCheckpoint running (allowed.polls trivial) executed
    | getRoot | markReady | isReady | getNextNoteId | getSnapshot | getLeaf noteId
    | getNotePath noteId | getZeroPath noteId => exact held.1.reads trivial executed
  returned := by
    intro world trace task call result running started newest returns _ held
    refine ⟨?_, ?_⟩
    · apply held.1.release
      · intro other
        rfl
      · intro other otherRunning
        exact otherRunning
      · intro other op response equal
        cases equal
    · intro other applied rest equal
      cases equal
      obtain ⟨bound, ended, folded, covered⟩ := held.1.justPolled running returns
      have mirror : (release task world).mirror = world.mirror := by
        unfold Indexer.release
        split <;> rfl
      exact ⟨bound, ended, (congrArg TreeMirror.leafwise mirror).trans folded, covered⟩
  aborted := by
    intro world trace task running _ held
    refine ⟨?_, nofun⟩
    apply held.1.release
    · intro other
      rfl
    · intro other otherRunning
      exact otherRunning
    · intro other op response equal
      cases equal
  moved := by
    intro world trace change after moved _ held
    have moved : mine change world = some after := moved
    obtain ⟨grows, equal⟩ := Option.ite_none_right_eq_some.mp moved
    cases Option.some.inj equal
    refine ⟨?_, nofun⟩
    apply held.1.quiet rfl grows
    · intro other
      rfl
    · intro other running _
      exact ⟨running, rfl⟩
    · intro other owns
      exact owns
    · intro other fromBlock toBlock logs equal
      cases equal
  restarted := by
    intro world trace change after restarted _ held
    have restarted : some (restart world) = some after := restarted
    cases Option.some.inj restarted
    have grows : trace <:+ .restarted change :: trace := List.suffix_cons _ _
    refine ⟨⟨held.1.config_eq, held.1.chain_eq, nofun, fun _ => rfl, ?_, nofun, ?_, nofun, ?_⟩,
      nofun⟩
    · intro checkpoint holds
      obtain ⟨stored, snapshot, settled⟩ := held.1.file checkpoint holds
      exact ⟨stored, snapshot, settled.grow grows (UInt64.le_refl _)⟩
    · intro other running
      exact running.elim
    · intro other fromBlock toBlock logs member
      rcases List.mem_cons.mp member with new | member
      · cases new
      · exact held.1.replied other fromBlock toBlock logs member

end Runs

section Samples

namespace Reference

open ZkApi.Reference

/-- A hash of two children that has no collision. -/
@[reducible]
def treeFunctions : TreeFunctions :=
  .ofHash (fun noteId commitment amount expiryTs =>
      ⟨noteId.toNat + commitment.value + amount + expiryTs.toNat + 1⟩)
    fun left right => ⟨Nat.pair left.value right.value⟩

def pollerConfig : PollerConfig where
  contractAddress := "0xdead"
  fromBlock := 0
  cursorPath := some "zkapi-indexer.cursor"

/-- The log of a deposit, its words in the order amount, expiry and root. -/
def depositLog (noteId commitment : String) : RpcLog where
  blockNumber := "0x0"
  data := "0x" ++ String.ofList (List.replicate 192 '1')
  topics := ["0xNoteDeposited(uint32,bytes32,uint128,uint64,uint256)", noteId, commitment]

/-- A log that breaks off in the middle of a word. -/
def brokenLog : RpcLog :=
  { depositLog "0x0" "0x1" with data := "0x11" }

/-- Two deposits in the first block. -/
def depositChain : Nat → List RpcLog
  | 0 => [depositLog "0x0" "0x1", depositLog "0x1" "0x2"]
  | _ => []

/-- The poll of the first block breaks off after one event and is repeated; the
process stops, starts again from its checkpoint and polls once more. -/
noncomputable def brokenPolls : List (Action (indexer protocol treeFunctions)) :=
  [.start .newPoller, .advance 0 .plain,
    .start .pollOnce, .advance 1 .plain, .advance 1 .plain,
    .advance 1 (.logs [depositLog "0x0" "0x1", brokenLog]), .advance 1 .plain, .advance 1 .plain,
    .start .pollOnce, .advance 2 .plain, .advance 2 .plain, .advance 2 (.logs (depositChain 0)),
    .advance 2 .plain, .advance 2 .plain, .advance 2 .plain, .advance 2 .plain, .advance 2 .plain,
    .advance 2 .plain, .restart (),
    .start .newPoller, .advance 3 .plain,
    .start .pollOnce, .advance 4 .plain, .advance 4 .plain, .advance 4 .plain]

end Reference

/-- The last event is the successful end of a poll. -/
def isPolled : List (Event (indexer P H)) → Bool
  | .returned _ .pollOnce (.ok _) :: _ => true
  | _ => false

theorem isPolled_iff (trace : List (Event (indexer P H))) : isPolled trace = true ↔
    ∃ task applied rest, trace = .returned task .pollOnce (.ok applied) :: rest := by
  constructor
  · intro polled
    unfold isPolled at polled
    split at polled
    · exact ⟨_, _, _, rfl⟩
    · cases polled
  · rintro ⟨task, applied, rest, rfl⟩
    rfl

end Samples

/-- Whenever a poll succeeds, the mirror is the fold of the events of all blocks
up to where the poll ended, each applied exactly once in order, and every one of
these blocks has been asked for.  Starting a batch again after a part of it
gives the same mirror as applying it once. -/
theorem polled_mirror (P : Protocol) {H : TreeFunctions} (lawful : H.Lawful)
    (config : PollerConfig) (chain : Nat → List RpcLog) (head : UInt64) (cursor : Option UInt64)
    (state : State (indexer P H))
    (run : (State.initial (indexer P H) (World.initial config chain head cursor)).Reaches state) :
    (∀ task applied rest, state.trace = .returned task .pollOnce (.ok applied) :: rest →
      ∃ bound, endOf (historyOf task rest) = some bound ∧
        state.world.mirror.Same (TreeMirror.new.processEvents
          (eventsOf P (blockLogs chain config.fromBlock.toNat
            (bound - config.fromBlock.toNat)))) ∧
        Covered config rest bound) ∧
    ∀ (mirror : TreeMirror H) (part batch : List VaultEvent), part <+: batch →
      ((mirror.processEvents part).processEvents batch).Same (mirror.processEvents batch) := by
  have inv := (pollInv_preserved lawful).holds ⟨pollInv_initial head cursor, nofun⟩ run
  constructor
  · intro task applied rest polled
    obtain ⟨bound, ended, folded, covered⟩ := inv.2 task applied rest polled
    refine ⟨bound, ended, TreeMirror.same_of_leafwise lawful ?_, covered⟩
    rw [folded, mirrorBefore, TreeMirror.leafwise_processEvents lawful,
      TreeMirror.leafwise_new lawful]
  · intro mirror part batch restarted
    apply TreeMirror.same_of_leafwise lawful
    simp only [TreeMirror.leafwise_processEvents lawful]
    exact foldl_restarted (fun event _ => TreeMirror.absorbed event) part restarted _

theorem polled_mirror_afterCrash :
    ∃ state task applied rest,
      (State.initial (indexer ZkApi.Reference.protocol Reference.treeFunctions)
        (World.initial Reference.pollerConfig Reference.depositChain 0 none)).Reaches state ∧
      state.trace = .returned task .pollOnce (.ok applied) :: rest ∧
      state.world.mirror.nextNoteId = 2 ∧
      ∃ bound, endOf (historyOf task rest) = some bound ∧
        state.world.mirror.Same (TreeMirror.new.processEvents
          (eventsOf ZkApi.Reference.protocol (blockLogs Reference.depositChain 0 (bound - 0)))) ∧
        Covered Reference.pollerConfig rest bound := by
  obtain ⟨state, run, polled, deposits⟩ : ∃ state,
      (State.initial (indexer ZkApi.Reference.protocol Reference.treeFunctions)
        (World.initial Reference.pollerConfig Reference.depositChain 0 none)).Reaches state ∧
        isPolled state.trace = true ∧ state.world.mirror.nextNoteId = 2 :=
    State.reaches_of_decide Reference.brokenPolls
      (by set_option maxRecDepth 20000 in decide)
  obtain ⟨task, applied, rest, shape⟩ := (isPolled_iff _).mp polled
  have folded := (polled_mirror _ (TreeFunctions.ofHash_lawful _ _) _ _ _ _ state run).1 task applied rest shape
  exact ⟨state, task, applied, rest, run, shape, deposits, folded⟩

end ZkApi.Indexer
