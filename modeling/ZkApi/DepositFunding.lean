import Mathlib.Data.Nat.Pairing
import ZkApi.MerkleTree
import ZkApi.ReferenceWallet

/-!
# Funding a wallet from the command line

A funding run generates the secret of a note, sends the deposit of its
commitment, waits until the indexer shows the note, reads its expiry and only
then lets the wallet keep the secret.  The vault takes the deposits of other
users and closes notes meanwhile, and the process may stop at any step.
-/

namespace Merkle

variable {α : Type*} {hash : α → α → α} {leaves others : Nat → α}

/-- Equal nodes of two trees cover the same leaves in the same order. -/
theorem leaf_of_node_eq (injective : Function.Injective2 hash) {level first second : Nat}
    (same : node hash leaves level first = node hash others level second) (offset : Nat)
    (within : offset < 2 ^ level) :
    leaves (first * 2 ^ level + offset) = others (second * 2 ^ level + offset) := by
  induction level generalizing first second offset with
  | zero =>
      have start : offset = 0 := by simpa using within
      subst start
      simpa [node] using same
  | succ level ih =>
      obtain ⟨left, right⟩ := injective same
      rw [pow_succ] at within ⊢
      by_cases half : offset < 2 ^ level
      · have found := ih left offset half
        have firstStart : 2 * first * 2 ^ level = first * (2 ^ level * 2) := by ring
        have secondStart : 2 * second * 2 ^ level = second * (2 ^ level * 2) := by ring
        rwa [firstStart, secondStart] at found
      · have found := ih right (offset - 2 ^ level) (by omega)
        have split (index : Nat) : (2 * index + 1) * 2 ^ level + (offset - 2 ^ level) =
            index * (2 ^ level * 2) + offset := by
          have start : (2 * index + 1) * 2 ^ level = index * (2 ^ level * 2) + 2 ^ level := by
            ring
          omega
        rwa [split, split] at found

/-- Where the paths of two slots are equal, each holds the node of the other. -/
theorem node_of_siblings_eq {level levels first second : Nat}
    (same : siblings hash leaves level levels first = siblings hash others level levels second)
    (different : first ≠ second) (joined : first / 2 ^ levels = second / 2 ^ levels) :
    ∃ rise, first / 2 ^ rise ≠ second / 2 ^ rise ∧
      node hash leaves (level + rise) (second / 2 ^ rise) =
        node hash others (level + rise) (first / 2 ^ rise) := by
  induction levels generalizing level first second with
  | zero =>
      rw [pow_zero, Nat.div_one, Nat.div_one] at joined
      exact absurd joined different
  | succ levels ih =>
      rw [siblings, siblings, List.cons.injEq] at same
      obtain ⟨beside, above⟩ := same
      by_cases meet : first / 2 = second / 2
      · have left : siblingIndex first = second := by
          unfold siblingIndex
          split <;> omega
        have right : siblingIndex second = first := by
          unfold siblingIndex
          split <;> omega
        rw [left, right] at beside
        exact ⟨0, by simpa using different, by simpa using beside⟩
      · have parents : first / 2 / 2 ^ levels = second / 2 / 2 ^ levels := by
          rw [Nat.div_div_eq_div_mul, Nat.div_div_eq_div_mul, ← pow_succ', joined]
        obtain ⟨rise, apart, nodes⟩ := ih above meet parents
        have halved (index : Nat) : index / 2 / 2 ^ rise = index / 2 ^ (rise + 1) := by
          rw [Nat.div_div_eq_div_mul, ← pow_succ']
        rw [halved, halved] at apart nodes
        rw [show level + 1 + rise = level + (rise + 1) by omega] at nodes
        exact ⟨rise + 1, apart, nodes⟩

/-- A path to a slot, taken while the slots from a later one on were empty, is not
the path to that later slot once all slots between them are taken. -/
theorem siblings_ne_of_filled (injective : Function.Injective2 hash) {empty : α}
    {levels first second : Nat} (before : first < second) (within : second < 2 ^ levels)
    (vacant : ∀ slot, second ≤ slot → leaves slot = empty)
    (taken : ∀ slot, first ≤ slot → slot < second → others slot ≠ empty) :
    siblings hash leaves 0 levels first ≠ siblings hash others 0 levels second := by
  intro same
  have joined : first / 2 ^ levels = second / 2 ^ levels := by
    rw [Nat.div_eq_of_lt within, Nat.div_eq_of_lt (by omega)]
  obtain ⟨rise, apart, nodes⟩ := node_of_siblings_eq same (by omega) joined
  rw [Nat.zero_add] at nodes
  have positive : 0 < 2 ^ rise := Nat.two_pow_pos rise
  have lower : first / 2 ^ rise < second / 2 ^ rise :=
    lt_of_le_of_ne (Nat.div_le_div_right before.le) apart
  have firstSplit := Nat.div_add_mod' first (2 ^ rise)
  have secondSplit := Nat.div_add_mod' second (2 ^ rise)
  have firstOffset : first % 2 ^ rise < 2 ^ rise := Nat.mod_lt _ positive
  have secondOffset : second % 2 ^ rise < 2 ^ rise := Nat.mod_lt _ positive
  have gap : first / 2 ^ rise * 2 ^ rise + 2 ^ rise ≤ second / 2 ^ rise * 2 ^ rise := by
    rw [← Nat.succ_mul]
    exact Nat.mul_le_mul_right _ lower
  by_cases order : first % 2 ^ rise ≤ second % 2 ^ rise
  · have found := leaf_of_node_eq injective nodes _ secondOffset
    rw [secondSplit, vacant second le_rfl] at found
    exact taken _ (by omega) (by omega) found.symm
  · have found := leaf_of_node_eq injective nodes _ firstOffset
    rw [firstSplit, vacant _ (by omega)] at found
    exact taken first le_rfl before found.symm

theorem node_const (empty : α) (level first second : Nat) :
    node hash (fun _ => empty) level first = node hash (fun _ => empty) level second := by
  induction level generalizing first second with
  | zero => rfl
  | succ level ih =>
      rw [node, node, ih (2 * first) (2 * second), ih (2 * first + 1) (2 * second + 1)]

/-- In an empty tree all slots have the same path. -/
theorem siblings_const (empty : α) (level levels first second : Nat) :
    siblings hash (fun _ => empty) level levels first =
      siblings hash (fun _ => empty) level levels second := by
  induction levels generalizing level first second with
  | zero => rfl
  | succ levels ih =>
      rw [siblings, siblings, ih (level + 1) (first / 2) (second / 2),
        node_const empty level (siblingIndex first) (siblingIndex second)]

end Merkle

namespace ZkApi.Cli

open Clientd

section Vaults

/-- What a funding run relies on: the hash of the tree, the commitment of a secret,
the leaf of a deposited note and the functions of the wallet. -/
structure FundingFunctions where
  hash : Felt252 → Felt252 → Felt252
  commitment : Felt252 → Felt252
  noteLeaf : Felt252 → Nat → Felt252
  wallet : WalletFunctions

structure FundingFunctions.Sound (F : FundingFunctions) : Prop where
  collisionFree : Function.Injective2 F.hash
  confirms : ∀ request, ∃ state, F.wallet.confirmDeposit none request = .ok state
  keeps : ∀ note request state, F.wallet.confirmDeposit note request = .ok state →
    state.secret = request.secret ∧ state.noteId = request.noteId

/-- The height of the tree of notes. -/
def merkleDepth : Nat := 32

structure Vault where
  nextNoteId : Nat
  commitments : Nat → Option Felt252
  leaves : Nat → Felt252

def Vault.zeroPath (F : FundingFunctions) (vault : Vault) (slot : Nat) : List Felt252 :=
  Merkle.siblings F.hash vault.leaves 0 merkleDepth slot

/-- The id that the indexer answers, which cannot exceed the largest one. -/
def Vault.nextNoteIdResponse (vault : Vault) : UInt32 :=
  UInt32.ofNat (min vault.nextNoteId (2 ^ 32 - 1))

structure DepositCall where
  commitment : Felt252
  amount : Nat
  siblings : List Felt252
deriving DecidableEq

/-- Give the next free note id to a deposit. -/
def Vault.append (F : FundingFunctions) (vault : Vault) (commitment : Felt252) (amount : Nat) :
    Option Vault :=
  if vault.nextNoteId < 2 ^ merkleDepth then
    some {
      nextNoteId := vault.nextNoteId + 1
      commitments := Function.update vault.commitments vault.nextNoteId (some commitment)
      leaves := Function.update vault.leaves vault.nextNoteId (F.noteLeaf commitment amount) }
  else none

/-- The leaf of a closed note is zero. -/
def Vault.close (vault : Vault) (slot : Nat) : Option Vault :=
  if slot < vault.nextNoteId then
    some { vault with leaves := Function.update vault.leaves slot .zero }
  else none

/-- A deposit is taken only with the path of the next free slot. -/
def Vault.deposit (F : FundingFunctions) (vault : Vault) (call : DepositCall) : Option Vault :=
  if call.siblings = vault.zeroPath F vault.nextNoteId then
    vault.append F call.commitment call.amount
  else none

end Vaults

section Runs

/-- The arguments of a funding run and what it reads of the deployment. -/
structure FundingOptions where
  deploymentId : String
  requestChargeCap : Nat
  billingToken : Option String
  demoMintEnabled : Bool
  requestedAddress : Option String
  amount : Nat
  skipMint : Bool
deriving DecidableEq

def minimumInitialCredits (requestChargeCap : Nat) : Except String Nat :=
  if requestChargeCap = 0 then .error "deployment request charge cap must be greater than zero"
  else if requestChargeCap * 2 < 2 ^ 128 then .ok (requestChargeCap * 2)
  else .error s!"deployment request charge cap {requestChargeCap} is too large"

structure DepositPlan where
  amount : Nat
  secret : Felt252
  commitment : Felt252
  nextNoteId : UInt32
  activeRoot : Felt252
  zeroPath : List Felt252
deriving DecidableEq

def DepositPlan.call (plan : DepositPlan) : DepositCall :=
  ⟨plan.commitment, plan.amount, plan.zeroPath⟩

/-- Why a run fails: its own check or an external command, or the wallet service. -/
inductive FundingError where
  | message (text : String)
  | auth (error : AuthError)
deriving DecidableEq

/-- What a run does next, with what it has in memory. -/
inductive Stage where
  | createsSigner
  | loadsWallet (address : String)
  | readsNextNote (address : String)
  | readsRoot (address : String) (noteId : UInt32)
  | readsPath (address : String) (noteId : UInt32) (activeRoot : Felt252)
  | mints (address : String) (plan : DepositPlan)
  | readsDecimals (address : String) (plan : DepositPlan)
  | readsBalance (address : String) (plan : DepositPlan)
  | approves (plan : DepositPlan)
  | deposits (plan : DepositPlan)
  | polls (plan : DepositPlan) (polled : Nat)
  | readsExpiry (plan : DepositPlan)
  | confirms (plan : DepositPlan) (expiryTs : UInt64)
  | finished
  | failed (error : FundingError)
  | stopped
deriving DecidableEq

def Stage.isOver : Stage → Bool
  | .finished | .failed _ | .stopped => true
  | _ => false

/-- What an external step answers to the run. -/
inductive Answer where
  | fails (error : FundingError)
  | plain
  | address (address : String)
  | root (activeRoot : Felt252)
  | secret (secret : Felt252)
  | number (value : Nat)
  | noReply
  | note (fields : List (Option UInt64))
deriving DecidableEq

/-- The deposit of a run: not sent yet, one that may still be mined, or mined. -/
inductive Transaction where
  | unsent
  | sent (call : DepositCall)
  | mined (call : DepositCall) (slot : Nat)
deriving DecidableEq

/-- The indexer shows the vault as it was at some earlier time. -/
structure World where
  stage : Stage
  vault : Vault
  indexed : Vault
  wallet : Option NoteState
  transaction : Transaction

variable (F : FundingFunctions) (options : FundingOptions)

def World.enter (world : World) (stage : Stage) : World :=
  { world with stage := stage }

/-- Start the run with the checks before the first external step. -/
def firstStage : Stage :=
  match minimumInitialCredits options.requestChargeCap with
  | .error message => .failed (.message message)
  | .ok minimum =>
      if options.amount < minimum then
        .failed (.message <| s!"initial credits {options.amount} leave no safe balance after one maximum-cost " ++
          s!"request; choose --initial-credits at least {minimum} (twice this deployment's " ++
          s!"{options.requestChargeCap}-credit per-request proof bound)")
      else if options.billingToken.isNone then
        .failed (.message <| s!"deployment {options.deploymentId} has no billing token. Native ETH funding " ++
          "requires a separate native-asset vault deployment; this v2 vault accepts its " ++
          "configured ERC-20 token.")
      else .createsSigner

/-- Mint from the faucet, if the deployment has one and the caller wants it. -/
def mintStage (address : String) (plan : DepositPlan) : Stage :=
  if !options.skipMint && options.demoMintEnabled then .mints address plan
  else .readsDecimals address plan

/-- Look at one answer of the indexer, of the forty that are asked for. -/
def pollStage (plan : DepositPlan) (polled : Nat) (shown : Bool) : Stage :=
  if shown then .readsExpiry plan
  else if polled + 1 < 40 then .polls plan (polled + 1)
  else .failed
    (.message s!"timed out waiting for the public indexer to observe note {plan.nextNoteId}")

/-- The indexer shows the note of a plan; the target is a saturating sum. -/
def World.shows (world : World) (plan : DepositPlan) : Bool :=
  min (plan.nextNoteId.toNat + 1) (2 ^ 32 - 1) ≤ world.indexed.nextNoteIdResponse.toNat

def World.confirmDeposit (world : World) (request : ConfirmDepositRequest) : World :=
  match F.wallet.confirmDeposit world.wallet request with
  | .error error => world.enter (.failed (.auth error))
  | .ok state => { world with stage := .finished, wallet := some state }

/-- Go on with the run after the answer to its external step. -/
def World.advance (world : World) : Answer → Option World
  | .fails error => if world.stage.isOver then none else some (world.enter (.failed error))
  | answer =>
      match world.stage, answer with
      | .createsSigner, .address address =>
          match options.requestedAddress with
          | some requested =>
              if address = requested then some (world.enter (.loadsWallet address))
              else some (world.enter (.failed (.message <| s!"--address {requested} does not match the " ++
                s!"private key's address {address}")))
          | none => some (world.enter (.loadsWallet address))
      | .loadsWallet address, .plain =>
          if world.wallet.isSome then
            some (world.enter (.failed (.auth (.invalidInput "wallet already has an active note"))))
          else some (world.enter (.readsNextNote address))
      | .readsNextNote address, .plain =>
          some (world.enter (.readsRoot address world.indexed.nextNoteIdResponse))
      | .readsRoot address noteId, .root activeRoot =>
          some (world.enter (.readsPath address noteId activeRoot))
      | .readsPath address noteId activeRoot, .secret secret =>
          let plan : DepositPlan :=
            ⟨options.amount, secret, F.commitment secret, noteId, activeRoot,
              world.indexed.zeroPath F noteId.toNat⟩
          some (world.enter (mintStage options address plan))
      | .mints address plan, .plain => some (world.enter (.readsDecimals address plan))
      | .readsDecimals address plan, .number decimals =>
          if decimals = 6 then some (world.enter (.readsBalance address plan))
          else
            let token := options.billingToken.getD ""
            some (world.enter (.failed (.message <| s!"billing token {token} reports " ++
              s!"{decimals} decimals; zkAPI credits require a 6-decimal billing token")))
      | .readsBalance address plan, .number balance =>
          if balance < plan.amount then
            some (world.enter (.failed (.message <| s!"address {address} has {balance} " ++
              s!"billing-token base units but this deposit needs {plan.amount}; fund it with " ++
              s!"at least {plan.amount - balance} more before retrying")))
          else some (world.enter (.approves plan))
      | .approves plan, .plain =>
          some { world with stage := .deposits plan, transaction := .sent plan.call }
      | .deposits plan, .plain =>
          match world.transaction with
          | .mined _ _ => some (world.enter (.polls plan 0))
          | _ => none
      | .polls plan polled, .plain =>
          some (world.enter (pollStage plan polled (world.shows plan)))
      | .polls plan polled, .noReply => some (world.enter (pollStage plan polled false))
      | .readsExpiry plan, .note fields =>
          match fields[2]?.join with
          | some expiryTs => some (world.enter (.confirms plan expiryTs))
          | none => some (world.enter (.failed
              (.message "vault note getter returned no expiry timestamp")))
      | .confirms plan expiryTs, .plain =>
          some (world.confirmDeposit F ⟨plan.secret, plan.nextNoteId, plan.amount, expiryTs⟩)
      | _, _ => none

/-- A step of the run, of the vault, of the indexer, or the end of the process. -/
inductive Action where
  | answers (answer : Answer)
  | stops
  | mines
  | deposits (commitment : Felt252) (amount : Nat)
  | closes (slot : Nat)
  | indexes
deriving DecidableEq

def World.step (world : World) : Action → Option World
  | .answers answer => world.advance F options answer
  | .stops => if world.stage.isOver then none else some (world.enter .stopped)
  | .mines =>
      match world.transaction with
      | .sent call => (world.vault.deposit F call).map fun vault =>
          { world with vault := vault, transaction := .mined call world.vault.nextNoteId }
      | _ => none
  | .deposits commitment amount =>
      (world.vault.append F commitment amount).map fun vault => { world with vault := vault }
  | .closes slot => (world.vault.close slot).map fun vault => { world with vault := vault }
  | .indexes => some { world with indexed := world.vault }

/-- The worlds that allowed steps lead to. -/
inductive World.Reaches (allowed : World → Action → Prop) (start : World) : World → Prop
  | start : World.Reaches allowed start start
  | step {world after : World} (action : Action) : World.Reaches allowed start world →
      allowed world action → world.step F options action = some after →
        World.Reaches allowed start after

/-- A run starts with an indexer that may lack the latest deposits and closings. -/
structure World.Starts (world : World) : Prop where
  first : world.stage = firstStage options
  unsent : world.transaction = .unsent
  behind : world.indexed.nextNoteId ≤ world.vault.nextNoteId
  within : world.vault.nextNoteId ≤ 2 ^ merkleDepth
  vacant : ∀ slot, world.vault.nextNoteId ≤ slot → world.vault.leaves slot = .zero
  unseen : ∀ slot, world.indexed.nextNoteId ≤ slot → world.indexed.leaves slot = .zero

end Runs

section Slots

variable {F : FundingFunctions} {vault after : Vault}

theorem Vault.append_eq {commitment : Felt252} {amount : Nat}
    (appended : vault.append F commitment amount = some after) :
    vault.nextNoteId < 2 ^ merkleDepth ∧ after.nextNoteId = vault.nextNoteId + 1 ∧
      after.commitments = Function.update vault.commitments vault.nextNoteId (some commitment) ∧
      after.leaves = Function.update vault.leaves vault.nextNoteId (F.noteLeaf commitment amount) := by
  unfold Vault.append at appended
  split at appended
  · rename_i room
    cases appended
    exact ⟨room, rfl, rfl, rfl⟩
  · cases appended

/-- A note that is taken stays the note of its slot. -/
structure Vault.Grows (vault after : Vault) : Prop where
  next : vault.nextNoteId ≤ after.nextNoteId
  commitments : ∀ slot < vault.nextNoteId, after.commitments slot = vault.commitments slot

theorem Vault.Grows.append {commitment : Felt252} {amount : Nat}
    (appended : vault.append F commitment amount = some after) : vault.Grows after := by
  obtain ⟨_, next, commitments, _⟩ := Vault.append_eq appended
  refine ⟨by omega, fun slot taken => ?_⟩
  rw [commitments, Function.update_of_ne (Nat.ne_of_lt taken)]

theorem Vault.close_eq {slot : Nat} (closed : vault.close slot = some after) :
    slot < vault.nextNoteId ∧
      after = { vault with leaves := Function.update vault.leaves slot .zero } := by
  unfold Vault.close at closed
  split at closed
  · rename_i taken
    cases closed
    exact ⟨taken, rfl⟩
  · cases closed

theorem Vault.Grows.close {slot : Nat} (closed : vault.close slot = some after) :
    vault.Grows after := by
  obtain ⟨_, rfl⟩ := Vault.close_eq closed
  exact ⟨le_rfl, fun _ _ => rfl⟩

/-- The path of a slot that was read while the slots from the next one on were empty. -/
structure Vault.LeadsTo (F : FundingFunctions) (vault : Vault) (slot : Nat)
    (path : List Felt252) : Prop where
  reached : slot ≤ vault.nextNoteId
  read : ∃ leaves, path = Merkle.siblings F.hash leaves 0 merkleDepth slot ∧
    ∀ other, vault.nextNoteId ≤ other → leaves other = Felt252.zero

theorem Vault.LeadsTo.grows {slot : Nat} {path : List Felt252} (leads : vault.LeadsTo F slot path)
    (grows : vault.Grows after) : after.LeadsTo F slot path := by
  obtain ⟨leaves, isPath, vacant⟩ := leads.read
  exact ⟨leads.reached.trans grows.next, leaves, isPath, fun other from_ =>
    vacant other (grows.next.trans from_)⟩

/-- Every note from a slot on is open. -/
def Vault.OpenFrom (vault : Vault) (slot : Nat) : Prop :=
  ∀ other, slot ≤ other → other < vault.nextNoteId → vault.leaves other ≠ .zero

/-- The path of a slot is that of the next free slot only if they are the same slot, or a note
between them is closed. -/
theorem Vault.LeadsTo.nextNoteId_eq (sound : F.Sound) {slot : Nat} {path : List Felt252}
    (leads : vault.LeadsTo F slot path) (taken : vault.OpenFrom slot)
    (room : vault.nextNoteId < 2 ^ merkleDepth)
    (accepted : path = vault.zeroPath F vault.nextNoteId) : vault.nextNoteId = slot := by
  have before := leads.reached
  obtain ⟨leaves, isPath, vacant⟩ := leads.read
  by_contra other
  have different := Merkle.siblings_ne_of_filled sound.collisionFree
    (show slot < vault.nextNoteId by omega) room vacant taken
  exact different (isPath.symm.trans accepted)

end Slots

section Invariant

-- Whether each deposit is mined while the notes since its prediction are open.
variable (F : FundingFunctions) (placed : Prop)

/-- A plan with the path that the run has read for the predicted slot. -/
structure DepositPlan.Ready (plan : DepositPlan) (world : World) : Prop where
  opens : plan.commitment = F.commitment plan.secret
  leads : world.vault.LeadsTo F plan.nextNoteId.toNat plan.zeroPath

/-- A plan whose deposit the vault has taken. -/
structure DepositPlan.Settled (plan : DepositPlan) (world : World) : Prop where
  opens : plan.commitment = F.commitment plan.secret
  mined : ∃ slot, world.transaction = .mined plan.call slot
  recorded : placed → world.vault.commitments plan.nextNoteId.toNat = some plan.commitment
  taken : plan.nextNoteId.toNat < world.vault.nextNoteId

/-- What holds of the world at a stage of the run. -/
def Stage.Fits (world : World) : Stage → Prop
  | .createsSigner | .loadsWallet _ => world.transaction = .unsent
  | .readsNextNote _ => world.transaction = .unsent ∧ world.wallet = none
  | .readsRoot _ noteId | .readsPath _ noteId _ =>
      world.transaction = .unsent ∧ world.wallet = none ∧ noteId.toNat ≤ world.vault.nextNoteId
  | .mints _ plan | .readsDecimals _ plan | .readsBalance _ plan | .approves plan =>
      world.transaction = .unsent ∧ world.wallet = none ∧ plan.Ready F world
  | .deposits plan => world.wallet = none ∧
      (world.transaction = .sent plan.call ∧ plan.Ready F world ∨ plan.Settled F placed world)
  | .polls plan polled => world.wallet = none ∧ polled < 40 ∧ plan.Settled F placed world
  | .readsExpiry plan | .confirms plan _ => world.wallet = none ∧ plan.Settled F placed world
  | .finished => ∃ (plan : DepositPlan) (state : NoteState), world.wallet = some state ∧ state.secret = plan.secret ∧
      state.noteId = plan.nextNoteId ∧ plan.Settled F placed world
  | .failed _ | .stopped => True

/-- The trees of the vault and of the indexer, and the stage of the run. -/
structure World.Valid (world : World) : Prop where
  behind : world.indexed.nextNoteId ≤ world.vault.nextNoteId
  within : world.vault.nextNoteId ≤ 2 ^ merkleDepth
  vacant : ∀ slot, world.vault.nextNoteId ≤ slot → world.vault.leaves slot = .zero
  unseen : ∀ slot, world.indexed.nextNoteId ≤ slot → world.indexed.leaves slot = .zero
  fits : world.stage.Fits F placed world

variable {F placed} {options : FundingOptions} {world after : World}

theorem World.Starts.valid (starts : world.Starts options) : world.Valid F placed := by
  refine ⟨starts.behind, starts.within, starts.vacant, starts.unseen, ?_⟩
  rw [starts.first]
  unfold firstStage
  split
  · trivial
  · split
    · trivial
    · split
      · trivial
      · exact starts.unsent

/-- The vault has given away every id before the one that the indexer answers. -/
theorem World.Valid.predicts (valid : world.Valid F placed) :
    world.indexed.nextNoteIdResponse.toNat ≤ world.vault.nextNoteId := by
  have behind := valid.behind
  unfold Vault.nextNoteIdResponse
  rw [UInt32.toNat_ofNat']
  omega

theorem World.Valid.leadsTo (valid : world.Valid F placed) {slot : Nat}
    (reached : slot ≤ world.vault.nextNoteId) :
    world.vault.LeadsTo F slot (world.indexed.zeroPath F slot) := by
  have behind := valid.behind
  refine ⟨reached, world.indexed.leaves, rfl, ?_⟩
  intro other from_
  exact valid.unseen other (by omega)

theorem confirmDeposit_fits (sound : F.Sound) {plan : DepositPlan} {expiryTs : UInt64}
    (empty : world.wallet = none) :
    ∃ state, world.confirmDeposit F ⟨plan.secret, plan.nextNoteId, plan.amount, expiryTs⟩ =
        { world with stage := .finished, wallet := some state } ∧
      state.secret = plan.secret ∧ state.noteId = plan.nextNoteId := by
  obtain ⟨state, confirmed⟩ :=
    sound.confirms ⟨plan.secret, plan.nextNoteId, plan.amount, expiryTs⟩
  obtain ⟨secret, noteId⟩ := sound.keeps _ _ _ confirmed
  refine ⟨state, ?_, secret, noteId⟩
  unfold World.confirmDeposit
  rw [empty, confirmed]

/-- The answers that end a run which waits for its mined deposit. -/
def Answer.Ends (world : World) : Answer → Prop
  | .fails _ => True
  | .note fields => fields[2]?.join = none
  | .plain => ∃ plan, world.stage = .polls plan 39 ∧ world.shows plan = false
  | .noReply => ∃ plan, world.stage = .polls plan 39
  | _ => False

theorem DepositPlan.Ready.of_vault {plan : DepositPlan} (ready : plan.Ready F world)
    (vault : after.vault = world.vault) : plan.Ready F after :=
  ⟨ready.opens, vault ▸ ready.leads⟩

theorem DepositPlan.Settled.of_vault {plan : DepositPlan} (settled : plan.Settled F placed world)
    (transaction : after.transaction = world.transaction) (vault : after.vault = world.vault) :
    plan.Settled F placed after :=
  ⟨settled.opens, transaction ▸ settled.mined, fun apart => vault ▸ settled.recorded apart,
    vault ▸ settled.taken⟩

/-- What an answer leaves of the world: the vault, the indexer, what holds at the
stage, and why a run with a sent deposit has failed. -/
structure Advanced (F : FundingFunctions) (placed : Prop) (world : World) (answer : Answer) (after : World) :
    Prop where
  vault : after.vault = world.vault
  indexed : after.indexed = world.indexed
  fits : after.stage.Fits F placed after
  ends : after.stage.isOver = true → after.stage ≠ .finished →
    after.transaction = world.transaction ∧ (world.transaction = .unsent ∨ answer.Ends world)

theorem Advanced.enter {answer : Answer} {stage : Stage}
    (fits : stage.Fits F placed (world.enter stage)) (runs : stage.isOver = false) :
    Advanced F placed world answer (world.enter stage) := by
  refine ⟨rfl, rfl, fits, ?_⟩
  intro isEnd
  rw [World.enter, runs] at isEnd
  cases isEnd

theorem Advanced.fail {answer : Answer} {error : FundingError}
    (ends : world.transaction = .unsent ∨ answer.Ends world) :
    Advanced F placed world answer (world.enter (.failed error)) :=
  ⟨rfl, rfl, trivial, fun _ _ => ⟨rfl, ends⟩⟩

theorem pollStage_advanced {answer : Answer} {plan : DepositPlan} {polled : Nat} {shown : Bool}
    (stage : world.stage = .polls plan polled) (fits : world.stage.Fits F placed world)
    (ends : polled = 39 → shown = false → answer.Ends world) :
    Advanced F placed world answer (world.enter (pollStage plan polled shown)) := by
  rw [stage] at fits
  obtain ⟨empty, few, settled⟩ := fits
  unfold pollStage
  cases shown with
  | true => exact .enter ⟨empty, settled.of_vault rfl rfl⟩ rfl
  | false =>
      by_cases more : polled + 1 < 40
      · rw [if_neg Bool.false_ne_true, if_pos more]
        exact .enter ⟨empty, more, settled.of_vault rfl rfl⟩ rfl
      · rw [if_neg Bool.false_ne_true, if_neg more]
        exact .fail (Or.inr (ends (by omega) rfl))

/-- An answer keeps what holds at the stages, and fails a run with a sent deposit
only if it ends it. -/
theorem advance_advanced (sound : F.Sound) (valid : world.Valid F placed) {answer : Answer}
    (advanced : world.advance F options answer = some after) :
    Advanced F placed world answer after := by
  by_cases fails : ∃ error, answer = .fails error
  · obtain ⟨error, rfl⟩ := fails
    rw [World.advance] at advanced
    split at advanced
    · cases advanced
    · cases advanced
      exact .fail (Or.inr trivial)
  have fits := valid.fits
  unfold World.advance at advanced
  cases stage : world.stage <;> cases answer <;>
    simp only [stage, reduceCtorEq, Option.some.injEq] at advanced <;> rw [stage] at fits <;>
    first
    | exact absurd ⟨_, rfl⟩ fails
    | skip
  case createsSigner.address address =>
    split at advanced
    · split at advanced
      · cases advanced
        exact .enter fits rfl
      · cases advanced
        exact .fail (Or.inl fits)
    · cases advanced
      exact .enter fits rfl
  case loadsWallet.plain address =>
    split at advanced
    · cases advanced
      exact .fail (Or.inl fits)
    · rename_i empty
      cases advanced
      exact .enter ⟨fits, Option.not_isSome_iff_eq_none.mp empty⟩ rfl
  case readsNextNote.plain address =>
    subst advanced
    exact .enter ⟨fits.1, fits.2, valid.predicts⟩ rfl
  case readsRoot.root address noteId activeRoot =>
    subst advanced
    exact .enter fits rfl
  case readsPath.secret address noteId activeRoot secret =>
    subst advanced
    obtain ⟨unsent, empty, reached⟩ := fits
    unfold mintStage
    split
    · exact .enter ⟨unsent, empty, ⟨rfl, valid.leadsTo reached⟩⟩ rfl
    · exact .enter ⟨unsent, empty, ⟨rfl, valid.leadsTo reached⟩⟩ rfl
  case mints.plain address plan =>
    subst advanced
    exact .enter ⟨fits.1, fits.2.1, fits.2.2.of_vault rfl⟩ rfl
  case readsDecimals.number address plan decimals =>
    split at advanced
    · cases advanced
      exact .enter ⟨fits.1, fits.2.1, fits.2.2.of_vault rfl⟩ rfl
    · cases advanced
      exact .fail (Or.inl fits.1)
  case readsBalance.number address plan balance =>
    split at advanced
    · cases advanced
      exact .fail (Or.inl fits.1)
    · cases advanced
      exact .enter ⟨fits.1, fits.2.1, fits.2.2.of_vault rfl⟩ rfl
  case approves.plain plan =>
    subst advanced
    exact ⟨rfl, rfl, ⟨fits.2.1, Or.inl ⟨rfl, fits.2.2.of_vault rfl⟩⟩, nofun⟩
  case deposits.plain plan =>
    split at advanced
    · rename_i call slot mined
      cases advanced
      obtain ⟨empty, ⟨sent, _⟩ | settled⟩ := fits
      · rw [sent] at mined
        cases mined
      · exact .enter ⟨empty, by omega, settled.of_vault rfl rfl⟩ rfl
    · cases advanced
  case polls.plain plan polled =>
    subst advanced
    apply pollStage_advanced stage valid.fits
    intro last hidden
    exact ⟨plan, by rw [stage, last], hidden⟩
  case polls.noReply plan polled =>
    subst advanced
    apply pollStage_advanced stage valid.fits
    intro last _
    exact ⟨plan, by rw [stage, last]⟩
  case readsExpiry.note plan fields =>
    split at advanced
    · cases advanced
      exact .enter ⟨fits.1, fits.2.of_vault rfl rfl⟩ rfl
    · rename_i missing
      cases advanced
      exact .fail (Or.inr missing)
  case confirms.plain plan expiryTs =>
    subst advanced
    obtain ⟨empty, settled⟩ := fits
    obtain ⟨state, confirmed, secret, noteId⟩ := confirmDeposit_fits sound empty
    rw [confirmed]
    exact ⟨rfl, rfl, ⟨plan, state, rfl, secret, noteId, settled.of_vault rfl rfl⟩,
      fun _ other => absurd rfl other⟩

theorem DepositPlan.Settled.grows {plan : DepositPlan} (settled : plan.Settled F placed world)
    (grows : world.vault.Grows after.vault) (transaction : after.transaction = world.transaction) :
    plan.Settled F placed after :=
  ⟨settled.opens, transaction ▸ settled.mined, fun apart => by
    rw [grows.commitments _ settled.taken, settled.recorded apart],
    Nat.lt_of_lt_of_le settled.taken grows.next⟩

theorem Stage.Fits.index {indexed : Vault} {stage : Stage} (fits : stage.Fits F placed world) :
    stage.Fits F placed { world with indexed := indexed } := by
  cases stage with
  | createsSigner | loadsWallet | readsNextNote | readsRoot | readsPath => exact fits
  | mints | readsDecimals | readsBalance | approves => exact ⟨fits.1, fits.2.1, fits.2.2.of_vault rfl⟩
  | deposits =>
      obtain ⟨empty, ⟨sent, waits⟩ | mined⟩ := fits
      · exact ⟨empty, Or.inl ⟨sent, waits.of_vault rfl⟩⟩
      · exact ⟨empty, Or.inr (mined.of_vault rfl rfl)⟩
  | polls => exact ⟨fits.1, fits.2.1, fits.2.2.of_vault rfl rfl⟩
  | readsExpiry | confirms => exact ⟨fits.1, fits.2.of_vault rfl rfl⟩
  | finished =>
      obtain ⟨plan, state, held, secret, noteId, mined⟩ := fits
      exact ⟨plan, state, held, secret, noteId, mined.of_vault rfl rfl⟩
  | failed | stopped => trivial

/-- What other users do keeps what holds at the stages. -/
theorem Stage.Fits.grows {vault : Vault} (grows : world.vault.Grows vault) {stage : Stage}
    (fits : stage.Fits F placed world) : stage.Fits F placed { world with vault := vault } := by
  have ready {plan : DepositPlan} (ready : plan.Ready F world) :
      plan.Ready F { world with vault := vault } := ⟨ready.opens, ready.leads.grows grows⟩
  have settled {plan : DepositPlan} (settled : plan.Settled F placed world) :
      plan.Settled F placed { world with vault := vault } := settled.grows grows rfl
  cases stage with
  | createsSigner | loadsWallet | readsNextNote => exact fits
  | readsRoot | readsPath => exact ⟨fits.1, fits.2.1, fits.2.2.trans grows.next⟩
  | mints | readsDecimals | readsBalance | approves => exact ⟨fits.1, fits.2.1, ready fits.2.2⟩
  | deposits =>
      obtain ⟨empty, ⟨sent, waits⟩ | mined⟩ := fits
      · exact ⟨empty, Or.inl ⟨sent, ready waits⟩⟩
      · exact ⟨empty, Or.inr (settled mined)⟩
  | polls => exact ⟨fits.1, fits.2.1, settled fits.2.2⟩
  | readsExpiry | confirms => exact ⟨fits.1, settled fits.2⟩
  | finished =>
      obtain ⟨plan, state, held, secret, noteId, mined⟩ := fits
      exact ⟨plan, state, held, secret, noteId, settled mined⟩
  | failed | stopped => trivial

/-- The notes from the predicted one on are open when the deposit of the run is mined. -/
def Placed (world : World) (action : Action) : Prop :=
  action = .mines → ∀ plan, world.stage = .deposits plan →
    world.vault.OpenFrom plan.nextNoteId.toNat

/-- A sent deposit is mined, and at the slot that its plan predicted if the notes from there on
are open. -/
theorem Stage.Fits.mine (sound : F.Sound) {call : DepositCall} {vault : Vault}
    (sent : world.transaction = .sent call) (deposited : world.vault.deposit F call = some vault)
    {stage : Stage} (legal : placed → ∀ plan, stage = .deposits plan →
      world.vault.OpenFrom plan.nextNoteId.toNat)
    (fits : stage.Fits F placed world) :
    stage.Fits F placed
      { world with vault := vault, transaction := .mined call world.vault.nextNoteId } := by
  have moved {plan : DepositPlan} (settled : plan.Settled F placed world) : False := by
    obtain ⟨slot, mined⟩ := settled.mined
    rw [sent] at mined
    cases mined
  have early (unsent : world.transaction = .unsent) : False := by
    rw [sent] at unsent
    cases unsent
  cases stage with
  | createsSigner | loadsWallet => exact (early fits).elim
  | readsNextNote | readsRoot | readsPath | mints | readsDecimals | readsBalance | approves =>
      exact (early fits.1).elim
  | deposits plan =>
      obtain ⟨empty, ⟨sentPlan, ready⟩ | settled⟩ := fits
      · rw [sent] at sentPlan
        cases sentPlan
        unfold Vault.deposit at deposited
        split at deposited
        · rename_i accepted
          obtain ⟨room, next, commitments, _⟩ := Vault.append_eq deposited
          have reached := ready.leads.reached
          refine ⟨empty, Or.inr ⟨ready.opens, ⟨_, rfl⟩, fun apart => ?_, ?_⟩⟩
          · have slot := ready.leads.nextNoteId_eq sound (legal apart plan rfl) room accepted
            change vault.commitments _ = _
            rw [commitments, ← slot, Function.update_self]
            rfl
          · change _ < vault.nextNoteId
            omega
        · cases deposited
      · exact (moved settled).elim
  | polls => exact (moved fits.2.2).elim
  | readsExpiry | confirms => exact (moved fits.2).elim
  | finished =>
      obtain ⟨_, _, _, _, _, settled⟩ := fits
      exact (moved settled).elim
  | failed | stopped => trivial

theorem mines_of_deposit {call : DepositCall} {vault : Vault}
    (sent : world.transaction = .sent call) (deposited : world.vault.deposit F call = some vault) :
    world.step F options .mines = some
      { world with vault := vault, transaction := .mined call world.vault.nextNoteId } := by
  unfold World.step
  simp only [sent, deposited, Option.map_some]

theorem World.Valid.append (valid : world.Valid F placed) {commitment : Felt252}
    {amount : Nat} {vault : Vault} (appended : world.vault.append F commitment amount = some vault)
    {transaction : Transaction}
    (fits : world.stage.Fits F placed { world with vault := vault, transaction := transaction }) :
    ({ world with vault := vault, transaction := transaction } : World).Valid F placed := by
  obtain ⟨room, next, _, leaves⟩ := Vault.append_eq appended
  have behind := valid.behind
  refine ⟨?_, ?_, ?_, valid.unseen, fits⟩
  · change world.indexed.nextNoteId ≤ vault.nextNoteId
    omega
  · change vault.nextNoteId ≤ _
    omega
  · intro slot from_
    change vault.nextNoteId ≤ slot at from_
    change vault.leaves slot = _
    rw [leaves, Function.update_of_ne (by omega)]
    exact valid.vacant slot (by omega)

theorem World.Valid.close (valid : world.Valid F placed) {slot : Nat} {vault : Vault}
    (closed : world.vault.close slot = some vault) :
    ({ world with vault := vault } : World).Valid F placed := by
  have fits := valid.fits.grows (.close closed)
  obtain ⟨taken, rfl⟩ := Vault.close_eq closed
  refine ⟨valid.behind, valid.within, fun other from_ => ?_, valid.unseen, fits⟩
  change Function.update world.vault.leaves slot _ other = _
  change world.vault.nextNoteId ≤ other at from_
  rw [Function.update_of_ne (by omega)]
  exact valid.vacant other from_

theorem World.Valid.step (sound : F.Sound) (valid : world.Valid F placed) {action : Action}
    (legal : placed → Placed world action) (stepped : world.step F options action = some after) :
    after.Valid F placed := by
  cases action with
  | answers answer =>
      have advanced := advance_advanced sound valid stepped
      refine ⟨?_, ?_, ?_, ?_, advanced.fits⟩
      · rw [advanced.vault, advanced.indexed]
        exact valid.behind
      · rw [advanced.vault]
        exact valid.within
      · rw [advanced.vault]
        exact valid.vacant
      · rw [advanced.indexed]
        exact valid.unseen
  | stops =>
      rw [World.step] at stepped
      split at stepped
      · cases stepped
      · cases stepped
        exact { valid with fits := trivial }
  | mines =>
      rw [World.step] at stepped
      split at stepped
      · rename_i call sent
        obtain ⟨vault, deposited, rfl⟩ := Option.map_eq_some_iff.mp stepped
        have fits := valid.fits.mine sound sent deposited fun apart => legal apart rfl
        unfold Vault.deposit at deposited
        split at deposited
        · exact valid.append deposited fits
        · cases deposited
      · cases stepped
  | deposits commitment amount =>
      obtain ⟨vault, appended, rfl⟩ := Option.map_eq_some_iff.mp stepped
      exact valid.append appended (valid.fits.grows (.append appended))
  | closes slot =>
      obtain ⟨vault, closed, rfl⟩ := Option.map_eq_some_iff.mp stepped
      exact valid.close closed
  | indexes =>
      cases stepped
      exact ⟨le_rfl, valid.within, valid.vacant, valid.vacant, valid.fits.index⟩

theorem World.Reaches.valid (sound : F.Sound) {allowed : World → Action → Prop} {start : World}
    (starts : start.Starts options)
    (legal : placed → ∀ world action, allowed world action → Placed world action)
    (reaches : start.Reaches F options allowed world) : world.Valid F placed := by
  induction reaches with
  | start => exact starts.valid
  | step _ _ steady stepped ih =>
      exact ih.step sound (fun apart => legal apart _ _ steady) stepped

end Invariant

section Finishing

variable (F : FundingFunctions) (options : FundingOptions)

def World.AbleToFinish (world : World) : Prop :=
  ∃ after, world.Reaches F options (fun _ _ => True) after ∧ after.stage = .finished

/-- Where the deposit of the run is mined, the run can still finish or the wallet
holds the secret of its commitment. -/
def World.Recoverable (world : World) : Prop :=
  ∀ call slot, world.transaction = .mined call slot →
    world.AbleToFinish F options ∨
      ∃ state, world.wallet = some state ∧ F.commitment state.secret = call.commitment

/-- The note that a finished run stores has the commitment of its secret. -/
def World.Matches (world : World) : Prop :=
  world.stage = .finished → ∃ state, world.wallet = some state ∧
    world.vault.commitments state.noteId.toNat = some (F.commitment state.secret)

/-- While a deposit is mined, no external step of its run fails or answers nothing
that can be used, the indexer shows the note in time and the process is not
stopped; and no deposit is mined after its run has ended. -/
def Steady (world : World) (action : Action) : Prop :=
  (∀ call slot, world.transaction = .mined call slot →
    action ≠ .stops ∧ ∀ answer, action = .answers answer → ¬ answer.Ends world) ∧
  (action = .mines → world.stage.isOver = false)

variable {F options} {placed : Prop} {world after : World}

theorem World.Reaches.prepend {action : Action}
    (stepped : world.step F options action = some after) {last : World}
    (reaches : after.Reaches F options (fun _ _ => True) last) :
    world.Reaches F options (fun _ _ => True) last := by
  induction reaches with
  | start => exact .step _ .start trivial stepped
  | step _ _ _ next ih => exact .step _ ih trivial next

theorem World.AbleToFinish.prepend {action : Action} (able : after.AbleToFinish F options)
    (stepped : world.step F options action = some after) : world.AbleToFinish F options := by
  obtain ⟨last, reaches, finished⟩ := able
  exact ⟨last, reaches.prepend stepped, finished⟩

theorem confirms_ableToFinish (sound : F.Sound) {plan : DepositPlan} {expiryTs : UInt64}
    (stage : world.stage = .confirms plan expiryTs) (empty : world.wallet = none) :
    world.AbleToFinish F options := by
  obtain ⟨state, confirmed, _⟩ : ∃ state,
      world.confirmDeposit F ⟨plan.secret, plan.nextNoteId, plan.amount, expiryTs⟩ = _ ∧ _ :=
    confirmDeposit_fits sound empty
  have stepped : world.step F options (.answers .plain) =
      some { world with stage := .finished, wallet := some state } := by
    unfold World.step World.advance
    simp only [stage, confirmed]
  exact ⟨_, .step _ .start trivial stepped, rfl⟩

theorem readsExpiry_ableToFinish (sound : F.Sound) {plan : DepositPlan}
    (stage : world.stage = .readsExpiry plan) (empty : world.wallet = none) :
    world.AbleToFinish F options := by
  have stepped : world.step F options (.answers (.note [none, none, some 0])) =
      some (world.enter (.confirms plan 0)) := by
    unfold World.step World.advance
    simp only [stage]
    rfl
  have able : (world.enter (.confirms plan 0)).AbleToFinish F options :=
    confirms_ableToFinish sound rfl empty
  exact able.prepend stepped

/-- Once the indexer has caught up, it shows the mined note. -/
theorem polls_ableToFinish (sound : F.Sound) {plan : DepositPlan} {polled : Nat}
    (stage : world.stage = .polls plan polled) (empty : world.wallet = none)
    (settled : plan.Settled F placed world) : world.AbleToFinish F options := by
  have caught : world.step F options .indexes = some { world with indexed := world.vault } := rfl
  have shown : ({ world with indexed := world.vault } : World).shows plan = true := by
    have taken := settled.taken
    have small := plan.nextNoteId.toNat_lt
    simp only [World.shows, Vault.nextNoteIdResponse, UInt32.toNat_ofNat', decide_eq_true_iff]
    omega
  have stepped : World.step F options { world with indexed := world.vault } (.answers .plain) =
      some { world with indexed := world.vault, stage := .readsExpiry plan } := by
    rw [stage] at shown
    unfold World.step World.advance
    simp only [stage, shown]
    rfl
  have able : World.AbleToFinish F options
      { world with indexed := world.vault, stage := .readsExpiry plan } :=
    readsExpiry_ableToFinish sound rfl empty
  exact (able.prepend stepped).prepend caught

theorem deposits_ableToFinish (sound : F.Sound) {plan : DepositPlan}
    (stage : world.stage = .deposits plan) (empty : world.wallet = none)
    (settled : plan.Settled F placed world) : world.AbleToFinish F options := by
  have stepped : world.step F options (.answers .plain) = some (world.enter (.polls plan 0)) := by
    obtain ⟨slot, mined⟩ := settled.mined
    unfold World.step World.advance
    simp only [stage, mined]
  have able : (world.enter (.polls plan 0)).AbleToFinish F options :=
    polls_ableToFinish sound rfl empty (settled.of_vault rfl rfl)
  exact able.prepend stepped

/-- A steady run whose deposit is mined has not ended without finishing. -/
theorem World.Reaches.unended (sound : F.Sound) {start : World} (starts : start.Starts options)
    (reaches : start.Reaches F options Steady world) (isEnd : world.stage.isOver = true)
    (unfinished : world.stage ≠ .finished) (call : DepositCall) (slot : Nat) :
    world.transaction ≠ .mined call slot := by
  induction reaches with
  | start =>
      rw [starts.unsent]
      nofun
  | step action reached steady stepped ih =>
      cases action with
      | answers answer =>
          have valid : World.Valid F False _ := reached.valid sound starts nofun
          have advanced := advance_advanced sound valid stepped
          obtain ⟨kept, unsent | ends⟩ := advanced.ends isEnd unfinished
          · rw [kept, unsent]
            nofun
          · intro mined
            rw [kept] at mined
            exact (steady.1 call slot mined).2 answer rfl ends
      | stops =>
          rw [World.step] at stepped
          split at stepped
          · cases stepped
          · cases stepped
            intro mined
            exact (steady.1 call slot mined).1 rfl
      | mines =>
          have running := steady.2 rfl
          rw [World.step] at stepped
          split at stepped
          · obtain ⟨vault, _, rfl⟩ := Option.map_eq_some_iff.mp stepped
            rw [running] at isEnd
            cases isEnd
          · cases stepped
      | deposits commitment amount =>
          obtain ⟨vault, _, rfl⟩ := Option.map_eq_some_iff.mp stepped
          exact ih isEnd unfinished
      | closes slot =>
          obtain ⟨vault, _, rfl⟩ := Option.map_eq_some_iff.mp stepped
          exact ih isEnd unfinished
      | indexes =>
          cases stepped
          exact ih isEnd unfinished

end Finishing

namespace Reference

/-- Pairing for a hash, and a commitment that hides nothing. -/
def fundingFunctions : FundingFunctions where
  hash left right := ⟨Nat.pair left.value right.value⟩
  commitment secret := secret
  noteLeaf commitment _ := ⟨commitment.value + 1⟩
  wallet := Clientd.Reference.wallet

theorem fundingFunctions_sound : fundingFunctions.Sound := by
  refine ⟨?_, ?_, ?_⟩
  · intro first second left right same
    have pairs := Nat.pair_eq_pair.mp (congrArg Felt252.value same)
    exact ⟨congrArg Felt252.mk pairs.1, congrArg Felt252.mk pairs.2⟩
  · intro request
    exact ⟨_, rfl⟩
  · intro note request state confirmed
    cases note with
    | some note => cases confirmed
    | none =>
        cases confirmed
        exact ⟨rfl, rfl⟩

def emptyVault : Vault :=
  ⟨0, fun _ => none, fun _ => .zero⟩

def fundingOptions : FundingOptions where
  deploymentId := "demo"
  requestChargeCap := 10
  billingToken := some "0x01"
  demoMintEnabled := false
  requestedAddress := none
  amount := 50
  skipMint := true

def fundingStart : World :=
  ⟨.createsSigner, emptyVault, emptyVault, none, .unsent⟩

theorem fundingStart_starts : fundingStart.Starts fundingOptions :=
  ⟨by decide, rfl, le_rfl, Nat.zero_le _, fun _ _ => rfl, fun _ _ => rfl⟩

def depositPlan : DepositPlan :=
  ⟨50, ⟨7⟩, ⟨7⟩, 0, ⟨1⟩, emptyVault.zeroPath fundingFunctions 0⟩

def sentWorld : World :=
  { fundingStart with stage := .deposits depositPlan, transaction := .sent depositPlan.call }

def minedWorld : World :=
  { sentWorld with
    vault := {
      nextNoteId := 1
      commitments := Function.update emptyVault.commitments 0 (some ⟨7⟩)
      leaves := Function.update emptyVault.leaves 0 (fundingFunctions.noteLeaf ⟨7⟩ 50) }
    transaction := .mined depositPlan.call 0 }

/-- Nothing of interest happens before the deposit is sent. -/
theorem sentWorld_reached {allowed : World → Action → Prop}
    (quiet : ∀ world answer, world.transaction = .unsent → allowed world (.answers answer)) :
    fundingStart.Reaches fundingFunctions fundingOptions allowed sentWorld := by
  have signs : fundingStart.Reaches fundingFunctions fundingOptions allowed
      (fundingStart.enter (.loadsWallet "0x0a")) :=
    .step (.answers (.address "0x0a")) .start (quiet _ _ rfl) rfl
  have loads : fundingStart.Reaches fundingFunctions fundingOptions allowed
      (fundingStart.enter (.readsNextNote "0x0a")) :=
    .step (.answers .plain) signs (quiet _ _ rfl) rfl
  have plans : fundingStart.Reaches fundingFunctions fundingOptions allowed
      (fundingStart.enter (.readsPath "0x0a" 0 ⟨1⟩)) :=
    .step (.answers (.root ⟨1⟩))
      (.step (.answers .plain) loads (quiet _ _ rfl) rfl) (quiet _ _ rfl) rfl
  have approves : fundingStart.Reaches fundingFunctions fundingOptions allowed
      (fundingStart.enter (.approves depositPlan)) :=
    .step (.answers (.number 100))
      (.step (.answers (.number 6))
        (.step (.answers (.secret ⟨7⟩)) plans (quiet _ _ rfl) rfl)
        (quiet _ _ rfl) rfl) (quiet _ _ rfl) rfl
  exact .step (.answers .plain) approves (quiet _ _ rfl) rfl

theorem minedWorld_mined :
    sentWorld.step fundingFunctions fundingOptions .mines = some minedWorld := by
  have accepted : depositPlan.call.siblings =
      sentWorld.vault.zeroPath fundingFunctions sentWorld.vault.nextNoteId := rfl
  have deposited : sentWorld.vault.deposit fundingFunctions depositPlan.call =
      some minedWorld.vault := by
    rw [Vault.deposit, if_pos accepted]
    rfl
  exact mines_of_deposit rfl deposited

theorem minedWorld_reached {allowed : World → Action → Prop}
    (quiet : ∀ world answer, world.transaction = .unsent → allowed world (.answers answer))
    (mines : allowed sentWorld .mines) :
    fundingStart.Reaches fundingFunctions fundingOptions allowed minedWorld :=
  .step .mines (sentWorld_reached quiet) mines minedWorld_mined

/-- What a run that ends well leaves behind. -/
def finishedWorld (world : World) : World :=
  { world with
    stage := .finished
    indexed := world.vault
    wallet := some ⟨0, ⟨7⟩, 50, .zero⟩ }

/-- Once the deposit is mined, the run stores its secret with the first note. -/
theorem finishedWorld_reached {allowed : World → Action → Prop} {world : World}
    (stage : world.stage = .deposits depositPlan) (empty : world.wallet = none)
    {call : DepositCall} {slot : Nat} (mined : world.transaction = .mined call slot)
    (taken : 0 < world.vault.nextNoteId)
    (quiet : ∀ world action, action ≠ .mines → allowed world action)
    (reached : fundingStart.Reaches fundingFunctions fundingOptions allowed world) :
    fundingStart.Reaches fundingFunctions fundingOptions allowed (finishedWorld world) := by
  have polls : fundingStart.Reaches fundingFunctions fundingOptions allowed
      (world.enter (.polls depositPlan 0)) :=
    .step (.answers .plain) reached (quiet _ _ nofun) (by
      unfold World.step World.advance
      simp only [stage, mined])
  have indexes : fundingStart.Reaches fundingFunctions fundingOptions allowed
      { world.enter (.polls depositPlan 0) with indexed := world.vault } :=
    .step .indexes polls (quiet _ _ nofun) rfl
  have reads : fundingStart.Reaches fundingFunctions fundingOptions allowed
      { world with stage := .readsExpiry depositPlan, indexed := world.vault } := by
    refine .step (.answers .plain) indexes (quiet _ _ nofun) ?_
    have shown : World.shows { world.enter (.polls depositPlan 0) with indexed := world.vault }
        depositPlan = true := by
      simp only [World.shows, Vault.nextNoteIdResponse, UInt32.toNat_ofNat', decide_eq_true_iff]
      simp only [depositPlan, UInt32.toNat_zero]
      omega
    unfold World.step World.advance
    dsimp only [World.enter] at shown ⊢
    rw [shown]
    rfl
  have confirms : fundingStart.Reaches fundingFunctions fundingOptions allowed
      { world with stage := .confirms depositPlan 0, indexed := world.vault } :=
    .step (.answers (.note [none, none, some 0])) reads (quiet _ _ nofun) rfl
  refine .step (.answers .plain) confirms (quiet _ _ nofun) ?_
  unfold World.step World.advance World.confirmDeposit
  dsimp only
  rw [empty]
  rfl

/-- Another user has taken the first slot and closed the note. -/
def closedVault : Vault where
  nextNoteId := 1
  commitments := Function.update emptyVault.commitments 0 (some ⟨9⟩)
  leaves := Function.update
    (Function.update emptyVault.leaves 0 (fundingFunctions.noteLeaf ⟨9⟩ 50)) 0 .zero

theorem closedVault_leaves : closedVault.leaves = fun _ => .zero := by
  rw [closedVault, Function.update_idem]
  exact Function.update_eq_self 0 emptyVault.leaves

/-- The deposit is mined at the second slot with the path of the first. -/
def displacedWorld : World :=
  { sentWorld with
    vault := {
      nextNoteId := 2
      commitments := Function.update closedVault.commitments 1 (some ⟨7⟩)
      leaves := Function.update closedVault.leaves 1 (fundingFunctions.noteLeaf ⟨7⟩ 50) }
    transaction := .mined depositPlan.call 1 }

theorem displacedWorld_reached :
    fundingStart.Reaches fundingFunctions fundingOptions (fun _ _ => True) displacedWorld := by
  have closed : fundingStart.Reaches fundingFunctions fundingOptions (fun _ _ => True)
      { sentWorld with vault := closedVault } :=
    .step (.closes 0) (.step (.deposits ⟨9⟩ 50) (sentWorld_reached fun _ _ _ => trivial)
      trivial rfl) trivial rfl
  have accepted : depositPlan.call.siblings = closedVault.zeroPath fundingFunctions 1 := by
    rw [Vault.zeroPath, closedVault_leaves]
    exact Merkle.siblings_const Felt252.zero 0 merkleDepth 0 1
  have deposited : closedVault.deposit fundingFunctions depositPlan.call =
      some displacedWorld.vault := by
    rw [Vault.deposit]
    exact if_pos accepted
  exact .step .mines closed trivial (mines_of_deposit rfl deposited)

end Reference

section Funded

open ZkApi.Cli.Reference

/-- A steady run never leaves a mined deposit whose secret is lost, and a run whose deposit is
mined while the notes since its prediction are open stores the secret only with the note that
has its commitment. -/
theorem funded_notes {F : FundingFunctions} {options : FundingOptions} (sound : F.Sound)
    {start : World} (starts : start.Starts options) :
    (∀ world, start.Reaches F options Steady world → world.Recoverable F options) ∧
      ∀ world, start.Reaches F options Placed world → world.Matches F := by
  constructor
  · intro world reaches call slot mined
    have valid : world.Valid F False := reaches.valid sound starts nofun
    have fits := valid.fits
    have unended := reaches.unended sound starts
    cases stage : world.stage <;> rw [stage] at fits
    case deposits plan =>
      obtain ⟨empty, ⟨sent, _⟩ | settled⟩ := fits
      · rw [sent] at mined
        cases mined
      · exact Or.inl (deposits_ableToFinish sound stage empty settled)
    case polls plan polled => exact Or.inl (polls_ableToFinish sound stage fits.1 fits.2.2)
    case readsExpiry plan => exact Or.inl (readsExpiry_ableToFinish sound stage fits.1)
    case confirms plan expiryTs => exact Or.inl (confirms_ableToFinish sound stage fits.1)
    case finished =>
      obtain ⟨plan, state, held, secret, _, settled⟩ := fits
      obtain ⟨_, same⟩ := settled.mined
      cases same.symm.trans mined
      exact Or.inr ⟨state, held, by rw [secret]; exact settled.opens.symm⟩
    case failed error => exact absurd mined (unended (by rw [stage]; rfl) (by rw [stage]; nofun) _ _)
    case stopped => exact absurd mined (unended (by rw [stage]; rfl) (by rw [stage]; nofun) _ _)
    all_goals
      have unsent : world.transaction = .unsent := by
        first
        | exact fits
        | exact fits.1
      rw [unsent] at mined
      cases mined
  · intro world reaches stage
    have valid : world.Valid F True :=
      reaches.valid sound starts fun _ _ _ placed => placed
    have fits := valid.fits
    rw [stage] at fits
    obtain ⟨plan, state, held, secret, noteId, settled⟩ := fits
    refine ⟨state, held, ?_⟩
    rw [noteId, secret, settled.recorded trivial, settled.opens]

theorem funded_notes_mined :
    minedWorld.Recoverable fundingFunctions fundingOptions ∧
      (finishedWorld minedWorld).Matches fundingFunctions := by
  have steady : fundingStart.Reaches fundingFunctions fundingOptions Steady minedWorld := by
    refine minedWorld_reached (fun world answer unsent => ⟨fun call slot mined => ?_, nofun⟩)
      ⟨nofun, fun _ => rfl⟩
    rw [unsent] at mined
    cases mined
  have placed : fundingStart.Reaches fundingFunctions fundingOptions Placed minedWorld := by
    refine minedWorld_reached (fun _ _ _ => nofun) fun _ plan stage other _ below => ?_
    exact absurd below (Nat.not_lt_zero other)
  exact ⟨(funded_notes fundingFunctions_sound fundingStart_starts).1 _ steady,
    (funded_notes fundingFunctions_sound fundingStart_starts).2 _
      (finishedWorld_reached rfl rfl rfl Nat.one_pos
        (fun _ _ other mines => absurd mines other) placed)⟩

/-- A stopped run stays where it is. -/
theorem World.Reaches.stopped {F : FundingFunctions} {options : FundingOptions}
    {allowed : World → Action → Prop} {start world : World} (stopped : start.stage = .stopped)
    (reaches : start.Reaches F options allowed world) : world.stage = .stopped := by
  induction reaches with
  | start => exact stopped
  | @step world after action _ _ stepped ih =>
      cases action with
      | answers answer =>
          cases answer <;> simp [World.step, World.advance, ih, Stage.isOver] at stepped
      | stops => simp [World.step, ih, Stage.isOver] at stepped
      | mines =>
          rw [World.step] at stepped
          split at stepped
          · obtain ⟨vault, _, rfl⟩ := Option.map_eq_some_iff.mp stepped
            exact ih
          · cases stepped
      | deposits commitment amount =>
          obtain ⟨vault, _, rfl⟩ := Option.map_eq_some_iff.mp stepped
          exact ih
      | closes slot =>
          obtain ⟨vault, _, rfl⟩ := Option.map_eq_some_iff.mp stepped
          exact ih
      | indexes =>
          cases stepped
          exact ih

/-- The secret of a deposit is lost when the process stops after it is mined. -/
theorem deposit_secret_lost :
    ¬ ∀ start : World, start.Starts fundingOptions → ∀ world,
      start.Reaches fundingFunctions fundingOptions (fun _ _ => True) world →
        world.Recoverable fundingFunctions fundingOptions := by
  intro every
  have mined : fundingStart.Reaches fundingFunctions fundingOptions (fun _ _ => True) minedWorld :=
    minedWorld_reached (fun _ _ _ => trivial) trivial
  have stopped : fundingStart.Reaches fundingFunctions fundingOptions (fun _ _ => True)
      (minedWorld.enter .stopped) := .step .stops mined trivial rfl
  rcases every fundingStart fundingStart_starts _ stopped _ _ rfl with able | held
  · obtain ⟨after, reaches, finished⟩ := able
    rw [reaches.stopped rfl] at finished
    cases finished
  · obtain ⟨state, held, _⟩ := held
    cases held

/-- The secret is stored with the note of another user when the deposit takes a later slot than
the one that was predicted, because a note in between is closed. -/
theorem secret_stored_elsewhere :
    ¬ ∀ start : World, start.Starts fundingOptions → ∀ world,
      start.Reaches fundingFunctions fundingOptions (fun _ _ => True) world →
        world.Matches fundingFunctions := by
  intro every
  have finished := finishedWorld_reached rfl rfl rfl (by decide) (fun _ _ _ => trivial)
    displacedWorld_reached
  obtain ⟨state, held, recorded⟩ := every fundingStart fundingStart_starts _ finished rfl
  cases held
  have other : (finishedWorld displacedWorld).vault.commitments 0 = some ⟨9⟩ := by decide
  have same := other.symm.trans recorded
  cases same

end Funded

end ZkApi.Cli
