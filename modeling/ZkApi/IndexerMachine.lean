import ZkApi.MachineIntegers
import ZkApi.MirrorReplay
import ZkApi.TaskDiscipline
import ZkApi.VaultLogs

/-!
# The indexer as a machine of interleaved tasks

One task at a time polls the chain and applies events to the mirror; any number
of tree requests read the mirror, each read under a lock of its own.  The chain
grows, every remote call and every checkpoint write may fail, and the process
may stop anywhere and start again from its checkpoint file.
-/

namespace ZkApi.Indexer

open Interleaving MachineIntegers

structure PollerConfig where
  contractAddress : String
  fromBlock : UInt64
  cursorPath : Option String
deriving DecidableEq

structure IndexerCheckpoint where
  version : UInt32
  lastProcessedBlock : UInt64
  mirror : TreeMirrorSnapshot
deriving DecidableEq

/-- What the cursor path holds. -/
inductive CursorFile where
  | missing
  | legacy (cursor : UInt64)
  | checkpoint (checkpoint : IndexerCheckpoint)
deriving DecidableEq

def checkpointVersion : UInt32 := 1

def maxBlockRange : UInt64 := 1000

structure TreePathResponse where
  noteId : UInt32
  leaf : Felt252
  siblings : List Felt252
deriving DecidableEq

structure TreeSnapshotResponse where
  root : Felt252
  nextNoteId : UInt32
  leaves : List Felt252
deriving DecidableEq

inductive Failure where
  | poll (message : String)
  | serviceUnavailable
deriving DecidableEq

/-- The steps of the indexer that other tasks and crashes can come between. -/
inductive Op where
  | newPoller
  | takePoller
  | ethBlockNumber
  | ethGetLogs (fromBlock toBlock : UInt64)
  | processEvent (event : VaultEvent)
  | getRoot
  | advanceTo (nextFromBlock : UInt64)
  | persistCheckpoint (lastProcessedBlock : UInt64)
  | markReady
  | isReady
  | getNextNoteId
  | getSnapshot
  | getLeaf (noteId : UInt32)
  | getNotePath (noteId : UInt32)
  | getZeroPath (noteId : UInt32)
deriving DecidableEq

@[reducible]
def Resp : Op → Type
  | .newPoller => Except String Unit
  | .takePoller => UInt64
  | .ethBlockNumber => Except String UInt64
  | .ethGetLogs _ _ => Except String (List RpcLog)
  | .processEvent _ => Unit
  | .getRoot => Felt252
  | .advanceTo _ => Unit
  | .persistCheckpoint _ => Except String Unit
  | .markReady => Unit
  | .isReady => Bool
  | .getNextNoteId => UInt32
  | .getSnapshot => TreeSnapshotResponse
  | .getLeaf _ => Felt252
  | .getNotePath _ => List Felt252
  | .getZeroPath _ => List Felt252

abbrev Handler (α : Type) := Program Op Resp Failure α

abbrev call (op : Op) : Handler (Resp op) :=
  Program.call op

section Handlers

variable (P : Protocol)

/-- Fail with the message of a step that failed. -/
def checked {α : Type} : Except String α → Handler α
  | .ok value => .ret value
  | .error message => .fail (.poll message)

/-- Apply the events of a batch in order; a log that does not decode ends it. -/
def applyLogs : List RpcLog → Nat → Handler Nat
  | [], applied => return applied
  | log :: logs, applied => do
      match decodeLog P log with
      | .error message => .fail (.poll message)
      | .ok none => applyLogs logs applied
      | .ok (some (event, expectedRoot)) =>
          call (.processEvent event)
          if expectedRoot.isSome then
            let _ ← call .getRoot
          applyLogs logs (applied + 1)

/-- The last block of the next batch. -/
def batchEnd (nextFromBlock latestBlock : UInt64) : UInt64 :=
  min latestBlock (saturatingAdd nextFromBlock (saturatingSub maxBlockRange 1))

def pollOnce : Handler Nat := do
  let nextFromBlock ← call .takePoller
  let latestBlock ← checked (← call .ethBlockNumber)
  if latestBlock < nextFromBlock then
    call .markReady
    return 0
  else
    let toBlock := batchEnd nextFromBlock latestBlock
    let logs ← checked (← call (.ethGetLogs nextFromBlock toBlock))
    let applied ← applyLogs P logs 0
    call (.advanceTo (saturatingAdd toBlock 1))
    checked (← call (.persistCheckpoint toBlock))
    if toBlock = latestBlock then
      call .markReady
    return applied

def newPoller : Handler Unit := do
  checked (← call .newPoller)

def ensureReady : Handler Unit := do
  let ready ← call .isReady
  Program.require ready .serviceUnavailable

def handleRoot : Handler Felt252 := do
  ensureReady
  call .getRoot

def handleNextNoteId : Handler UInt32 := do
  ensureReady
  call .getNextNoteId

def handleSnapshot : Handler TreeSnapshotResponse := do
  ensureReady
  call .getSnapshot

def handleNotePath (noteId : UInt32) : Handler TreePathResponse := do
  ensureReady
  let leaf ← call (.getLeaf noteId)
  let siblings ← call (.getNotePath noteId)
  return ⟨noteId, leaf, siblings⟩

def handleZeroPath (noteId : UInt32) : Handler TreePathResponse := do
  ensureReady
  let siblings ← call (.getZeroPath noteId)
  return ⟨noteId, Felt252.zero, siblings⟩

end Handlers

inductive Call where
  | newPoller
  | pollOnce
  | root
  | nextNoteId
  | snapshot
  | notePath (noteId : UInt32)
  | zeroPath (noteId : UInt32)
deriving DecidableEq

@[reducible]
def Result : Call → Type
  | .newPoller => Unit
  | .pollOnce => Nat
  | .root => Felt252
  | .nextNoteId => UInt32
  | .snapshot => TreeSnapshotResponse
  | .notePath _ => TreePathResponse
  | .zeroPath _ => TreePathResponse

def handler (P : Protocol) : (call : Call) → Handler (Result call)
  | .newPoller => newPoller
  | .pollOnce => pollOnce P
  | .root => handleRoot
  | .nextNoteId => handleNextNoteId
  | .snapshot => handleSnapshot
  | .notePath noteId => handleNotePath noteId
  | .zeroPath noteId => handleZeroPath noteId

/-- The process and its surroundings.  `chain` lists the logs of the contract
by block, up to `head` the chain has been mined. -/
structure World (H : TreeFunctions) where
  config : PollerConfig
  chain : Nat → List RpcLog
  head : UInt64
  mirror : TreeMirror H
  ready : Bool
  spawned : Bool
  nextFromBlock : Option UInt64
  owner : Option Nat
  file : CursorFile

/-- What the environment chooses when a step asks it. -/
inductive Answer where
  | plain
  | fails (message : String)
  | logs (reply : List RpcLog)

variable {H : TreeFunctions}

/-- The logs of the blocks from `first` on, `count` of them. -/
def blockLogs (chain : Nat → List RpcLog) (first count : Nat) : List RpcLog :=
  (List.range' first count).flatMap chain

/-- The logs of the blocks from `first` through `last`. -/
def logsBetween (chain : Nat → List RpcLog) (first last : Nat) : List RpcLog :=
  blockLogs chain first (last + 1 - first)

def normalizeAddress (address : String) : Except String String :=
  let raw := stripHexPrefix (trim address.toList)
  if raw.isEmpty || 40 < (String.ofList raw).utf8ByteSize then
    .error "contract address must be 20-byte hex"
  else if raw.all fun char => (hexDigit char).isSome then
    .ok ("0x" ++ String.ofList (List.replicate (40 - raw.length) '0' ++ raw.map Char.toLower))
  else .error "contract address is not valid hex"

/-- The mirror that a new poller starts from, and its first block. -/
def openPoller (config : PollerConfig) (file : CursorFile) (mirror : TreeMirror H) :
    TreeMirror H × Except String UInt64 :=
  let opened (mirror : TreeMirror H) (nextFromBlock : UInt64) :=
    (mirror, (normalizeAddress config.contractAddress).map fun _ => nextFromBlock)
  match config.cursorPath, file with
  | some _, .checkpoint checkpoint =>
      if checkpoint.version ≠ checkpointVersion then
        (mirror, .error s!"unsupported indexer checkpoint version {checkpoint.version}")
      else
        match TreeMirror.fromSnapshot checkpoint.mirror with
        | .error message => (mirror, .error ("invalid indexer checkpoint: " ++ message))
        | .ok restored => opened restored (saturatingAdd checkpoint.lastProcessedBlock 1)
  | _, _ => opened mirror config.fromBlock

/-- Write the checkpoint next to its file and put it in the place of the file. -/
def persistCheckpoint (world : World H) (lastProcessedBlock : UInt64) : World H :=
  match world.config.cursorPath with
  | none => world
  | some _ =>
      { world with
        file := .checkpoint ⟨checkpointVersion, lastProcessedBlock, world.mirror.snapshot⟩ }

def execute (P : Protocol) (H : TreeFunctions) (task : Nat) (op : Op) (answer : Answer)
    (world : World H) : Option (Resp op × World H) :=
  match op, answer with
  | .newPoller, .plain =>
      if world.spawned then none
      else
        let (mirror, opened) := openPoller world.config world.file world.mirror
        some (opened.map fun _ => (), { world with
          spawned := true
          mirror := mirror
          nextFromBlock := opened.toOption })
  | .newPoller, .fails message =>
      if world.spawned then none else some (.error message, { world with spawned := true })
  | .takePoller, .plain =>
      match world.owner, world.nextFromBlock with
      | none, some nextFromBlock => some (nextFromBlock, { world with owner := some task })
      | _, _ => none
  | .ethBlockNumber, .plain => some (.ok world.head, world)
  | .ethBlockNumber, .fails message => some (.error message, world)
  | .ethGetLogs fromBlock toBlock, .logs reply =>
      if truthful P reply (logsBetween world.chain fromBlock.toNat toBlock.toNat) then
        some (.ok reply, world)
      else none
  | .ethGetLogs _ _, .fails message => some (.error message, world)
  | .processEvent event, .plain =>
      some ((), { world with mirror := world.mirror.processEvent event })
  | .getRoot, .plain => some (world.mirror.root, world)
  | .advanceTo nextFromBlock, .plain =>
      some ((), { world with nextFromBlock := some nextFromBlock })
  | .persistCheckpoint lastProcessedBlock, .plain =>
      some (.ok (), persistCheckpoint world lastProcessedBlock)
  | .persistCheckpoint _, .fails message =>
      if world.config.cursorPath.isSome then some (.error message, world) else none
  | .markReady, .plain => some ((), { world with ready := true })
  | .isReady, .plain => some (world.ready, world)
  | .getNextNoteId, .plain => some (world.mirror.nextNoteId, world)
  | .getSnapshot, .plain =>
      some (⟨world.mirror.root, world.mirror.nextNoteId, world.mirror.currentLeaves⟩, world)
  | .getLeaf noteId, .plain => some (world.mirror.getLeaf noteId, world)
  | .getNotePath noteId, .plain => some (world.mirror.getPath noteId, world)
  | .getZeroPath noteId, .plain => some (world.mirror.getZeroPath noteId, world)
  | _, _ => none

/-- The poller is free again once the poll that took it ends. -/
def release (task : Nat) (world : World H) : World H :=
  if world.owner = some task then { world with owner := none } else world

/-- The chain grows. -/
def mine (head : UInt64) (world : World H) : Option (World H) :=
  if world.head ≤ head then some { world with head := head } else none

/-- The process stops and starts again. -/
def restart (world : World H) : World H :=
  { world with
    mirror := TreeMirror.new
    ready := false
    spawned := false
    nextFromBlock := none
    owner := none }

@[reducible]
def indexer (P : Protocol) (H : TreeFunctions) : Machine where
  Op := Op
  Resp := Resp
  Err := Failure
  Setting := Unit
  Call := Call
  Result := Result
  World := World H
  Answer := Answer
  Environment := UInt64
  Restart := Unit
  setting _ := ()
  program _ := handler P
  execute := execute P H
  finish := release
  environment := mine
  restart _ world := some (restart world)

/-- An indexer that has not run yet, with at most a legacy cursor file. -/
def World.initial (config : PollerConfig) (chain : Nat → List RpcLog) (head : UInt64)
    (cursor : Option UInt64) : World H where
  config := config
  chain := chain
  head := head
  mirror := TreeMirror.new
  ready := false
  spawned := false
  nextFromBlock := none
  owner := none
  file := cursor.elim .missing .legacy

end ZkApi.Indexer
