import ZkApi.ExpiryHistory
import ZkApi.Traversals

/-!
# Scans of the expiry history

Whatever the RPC refuses and wherever a scan runs out of requests, the scan returns exactly
the claims in the blocks it says it has scanned.  Its requests do not depend on the deposits.
-/

namespace ZkApi.Browser.Expiry

open Interleaving Traversal

section Privacy

theorem alike_lift_bind {α β γ : Type} (first second : Except ScanError α)
    (one : α → β) (other : α → γ) :
    ((Program.lift first : Scan α) >>= fun value => pure (one value)).Alike
      ((Program.lift second : Scan α) >>= fun value => pure (other value)) := by
  cases first <;> cases second
  · exact .ended (.error _) (.error _)
  · exact .ended (.error _) (.ok _)
  · exact .ended (.ok _) (.error _)
  · exact .ended (.ok _) (.ok _)

/-- What is requested does not depend on the deposits. -/
theorem requests_same (oracle : Program.Oracle Request.Answer) (vaultAddress : String)
    (chainId : Nat) (limits : ScanLimits) (first second : List Deposit) :
    ((readFinalizedExpiryClaims vaultAddress chainId first limits).answered oracle []).2 =
      ((readFinalizedExpiryClaims vaultAddress chainId second limits).answered oracle []).2 := by
  apply Program.Alike.same_operations
  unfold readFinalizedExpiryClaims
  apply Program.Alike.bind
  intro _
  apply Program.Alike.bind
  intro chain
  apply Program.Alike.bind
  intro _
  apply Program.Alike.bind
  intro finalized
  apply Program.Alike.bind
  intro head
  apply Program.Alike.bind
  intro scanned
  apply Program.Alike.bind
  rintro ⟨canonical, cut⟩
  apply Program.Alike.bind
  intro found
  apply Program.Alike.bind
  intro checkedHead
  apply Program.Alike.bind
  intro _
  exact alike_lift_bind _ _ _ _

end Privacy

section Truth

/-- The final history of the vault: its events, the blocks, and from where it has code. -/
structure Chain where
  events : List ExpiryEvent
  hash : Nat → String
  timestamp : Nat → Nat
  hasCode : Nat → Bool
  code_stays : ∀ first second, first ≤ second → hasCode first = true → hasCode second = true
  emitted : ∀ event ∈ events, hasCode event.blockNumber = true

/-- An answer that is not a failure is complete and says what is on the chain. -/
def Chain.Truthful (chain : Chain) : (request : Request) → request.Answer → Prop
  | .block number, .ok block => ∀ decoded, validatedBlock (some number) block = .ok decoded →
      decoded.hash = chain.hash number ∧ decoded.timestamp = chain.timestamp number
  | .code _ number, .ok code => (code ≠ "0x") ↔ chain.hasCode number = true
  | .logs vaultAddress fromBlock toBlock, .ok (some logs) => ∀ event,
      (∃ log ∈ logs, parsedLog vaultAddress fromBlock toBlock log = .ok (some event)) ↔
        event ∈ chain.events ∧ fromBlock ≤ event.blockNumber ∧ event.blockNumber ≤ toBlock
  | _, _ => True

variable {chain : Chain} {vaultAddress : String}

/-- These are the events of a range of blocks, up to the last of them. -/
def Chain.Holds (chain : Chain) (first : Nat) (last : Int) (logs : List ExpiryEvent) : Prop :=
  ∀ event, event ∈ logs ↔
    event ∈ chain.events ∧ first ≤ event.blockNumber ∧ (event.blockNumber : Int) ≤ last

theorem Chain.Holds.append {first middle : Nat} {last : Int} {logs more : List ExpiryEvent}
    (holds : chain.Holds first ((middle : Int) - 1) logs) (rest : chain.Holds middle last more)
    (below : first ≤ middle) (reaches : (middle : Int) - 1 ≤ last) :
    chain.Holds first last (logs ++ more) := by
  intro event
  rw [List.mem_append, holds event, rest event]
  constructor
  · rintro (⟨member, from', to'⟩ | ⟨member, from', to'⟩)
    · exact ⟨member, from', by omega⟩
    · exact ⟨member, by omega, to'⟩
  · rintro ⟨member, from', to'⟩
    by_cases early : (event.blockNumber : Int) ≤ (middle : Int) - 1
    · exact .inl ⟨member, from', early⟩
    · exact .inr ⟨member, by omega, to'⟩

theorem ensures_send {request : Request} {returns : request.Reply → Prop}
    {fails : ScanError → Prop}
    (answers : ∀ reply, chain.Truthful request (.ok reply) → returns reply)
    (refuses : ∀ message, fails (.plain message)) :
    (send request).Ensures chain.Truthful returns fails := by
  unfold send
  rw [Program.ensures_bind, Program.ensures_call]
  intro answer admitted
  rw [Program.ensures_lift]
  cases answer with
  | ok reply =>
    exact ⟨fun value same => Except.ok.inj same ▸ answers reply admitted, by simp [Except.mapError]⟩
  | error message =>
    refine ⟨by simp [Except.mapError], fun error same => ?_⟩
    exact Except.error.inj same ▸ refuses message

/-- A range that is loaded is loaded completely. -/
theorem ensures_load {fromBlock toBlock : Nat} :
    (load vaultAddress fromBlock toBlock).Ensures chain.Truthful
      (chain.Holds fromBlock toBlock) fun _ => True := by
  unfold load
  rw [Program.ensures_bind]
  apply ensures_send
  · intro reply truthful
    cases reply with
    | none => trivial
    | some logs =>
      rw [Program.ensures_lift]
      refine ⟨fun found parsed event => ?_, fun _ _ => trivial⟩
      cases decodes : logs.mapM (parsedLog vaultAddress fromBlock toBlock) with
      | error error =>
        rw [decodes] at parsed
        cases parsed
      | ok decoded =>
        rw [decodes] at parsed
        cases Except.ok.inj parsed
        rw [List.reduceOption_mem_iff, mem_of_mapM decodes, truthful event, Nat.cast_le]
  · exact fun _ => trivial

theorem ensures_hasCode {number : Nat} :
    (hasCode vaultAddress number).Ensures chain.Truthful (· = chain.hasCode number)
      fun _ => True := by
  unfold hasCode
  rw [Program.ensures_bind]
  apply ensures_send
  · intro code truthful
    rw [Program.ensures_bind, Program.ensures_require]
    refine ⟨fun _ => ?_, fun _ => trivial⟩
    rw [Program.ensures_pure, Bool.eq_iff_iff, bne_iff_ne]
    exact truthful
  · exact fun _ => trivial

/-- No event comes before this block. -/
def Chain.Starts (chain : Chain) (block : Nat) : Prop :=
  ∀ event ∈ chain.events, block ≤ event.blockNumber

theorem ensures_searchContractBlock {low high : Nat} (starts : chain.Starts low) :
    (searchContractBlock vaultAddress low high).Ensures chain.Truthful chain.Starts
      fun _ => True := by
  induction low, high using searchContractBlock.induct with
  | case1 low high below middle first second =>
    unfold searchContractBlock
    rw [dif_pos below, Program.ensures_bind]
    apply ensures_hasCode.weaken _ fun _ _ => trivial
    intro found answer
    cases found with
    | true => exact first starts
    | false =>
      apply second
      intro event member
      by_contra early
      have code := chain.code_stays event.blockNumber middle (by omega) (chain.emitted event member)
      rw [← answer] at code
      cases code
  | case2 low high done =>
    unfold searchContractBlock
    rw [dif_neg done]
    exact starts

theorem ensures_firstContractBlock {head : Nat} :
    (firstContractBlock vaultAddress head).Ensures chain.Truthful chain.Starts
      fun _ => True := by
  unfold firstContractBlock
  rw [Program.ensures_bind]
  apply ensures_hasCode.weaken _ fun _ _ => trivial
  intro found _
  rw [Program.ensures_bind, Program.ensures_require]
  refine ⟨fun _ => ?_, fun _ => trivial⟩
  exact ensures_searchContractBlock fun _ _ => Nat.zero_le _

theorem ensures_contractBlock {head : Nat} {known : Option Nat}
    (starts : ∀ block, known = some block → chain.Starts block) :
    (contractBlock vaultAddress head known).Ensures chain.Truthful chain.Starts fun _ => True := by
  cases known with
  | some block => exact starts block rfl
  | none => exact ensures_firstContractBlock

/-- The events of all blocks up to the last one scanned, none of them after the head. -/
structure Chain.Covers (chain : Chain) (first head : Nat) (logs : List ExpiryEvent)
    (scannedTo : Int) : Prop where
  holds : chain.Holds first scannedTo logs
  bounded : ∀ event ∈ logs, event.blockNumber ≤ head

/-- Each chunk begins where the one before has ended. -/
theorem ensures_scanChunks {first head : Nat} (requests size next : Nat) (scannedTo : Int)
    (logs : List ExpiryEvent) (covers : chain.Covers first head logs scannedTo)
    (positive : 0 < size) (follows : scannedTo = (next : Int) - 1) (reached : first ≤ next) :
    (scanChunks vaultAddress head requests size next scannedTo logs).Ensures chain.Truthful
      (fun scanned => chain.Covers first head scanned.1 scanned.2 ∧ (next : Int) - 1 ≤ scanned.2)
      fun _ => True := by
  induction requests generalizing size next scannedTo logs with
  | zero => exact ⟨covers, follows.ge⟩
  | succ requests ih =>
    unfold scanChunks
    split
    case isFalse => exact ⟨covers, follows.ge⟩
    case isTrue more =>
      rw [Program.ensures_bind, Program.ensures_attempt]
      apply ensures_load.weaken
      · intro found loaded
        have ends : next ≤ min head (next + size - 1) := by omega
        have longer : chain.Covers first head (logs ++ found)
            ((min head (next + size - 1) : Nat)) := by
          constructor
          · exact (follows ▸ covers.holds).append loaded reached (by omega)
          · intro event member
            rcases List.mem_append.mp member with before | new
            · exact covers.bounded event before
            · have inside := ((loaded event).mp new).2.2
              omega
        apply (ih size _ _ _ longer positive (by omega) (by omega)).weaken _ fun _ _ => trivial
        rintro scanned ⟨more, further⟩
        exact ⟨more, by omega⟩
      · intro error _
        simp only
        split
        · trivial
        · exact ih _ _ _ _ covers (by omega) follows reached

theorem ensures_scanLogs {limits : ScanLimits} {head : Nat} (positive : 0 < limits.chunkSize)
    (starts : ∀ block, limits.deploymentBlock = some block → chain.Starts block) :
    (scanLogs vaultAddress limits head).Ensures chain.Truthful
      (fun scanned => chain.Covers limits.fromBlock head scanned.logs
          (min scanned.scannedTo head) ∧ (limits.fromBlock : Int) - 1 ≤ scanned.scannedTo ∧
        ∀ block, scanned.deploymentBlock = some block → chain.Starts block)
      fun _ => True := by
  unfold scanLogs
  split
  case isFalse beyond =>
    refine ⟨⟨fun event => ?_, by simp⟩, le_refl _, starts⟩
    simp only [List.not_mem_nil, false_iff]
    rintro ⟨_, after, before⟩
    omega
  case isTrue =>
    rw [Program.ensures_bind, Program.ensures_attempt]
    apply ensures_load.weaken
    · intro logs loaded
      refine ⟨⟨?_, fun event member => ?_⟩, (by dsimp only; omega), starts⟩
      · simpa using loaded
      · exact_mod_cast ((loaded event).mp member).2.2
    · intro error _
      simp only
      split
      · trivial
      rw [Program.ensures_bind]
      apply (ensures_contractBlock starts).weaken _ fun _ _ => trivial
      intro block starting
      rw [Program.ensures_bind]
      have nothing : chain.Covers limits.fromBlock head []
          ((max limits.fromBlock block : Nat) - 1) := by
        refine ⟨fun event => ?_, by simp⟩
        simp only [List.not_mem_nil, false_iff]
        rintro ⟨member, after, before⟩
        have start := starting event member
        omega
      apply (ensures_scanChunks _ _ _ _ [] nothing positive rfl (Nat.le_max_left _ block)).weaken _
        fun _ _ => trivial
      rintro ⟨logs, scannedTo⟩ ⟨covers, further⟩
      refine ⟨⟨fun event => ?_, covers.bounded⟩, ?_, fun found same => ?_⟩
      · rw [covers.holds event]
        constructor
        · rintro ⟨member, after, before⟩
          have inside := covers.bounded event ((covers.holds event).mpr ⟨member, after, before⟩)
          dsimp only at before ⊢
          exact ⟨member, after, by omega⟩
        · rintro ⟨member, after, before⟩
          dsimp only at before ⊢
          exact ⟨member, after, by omega⟩
      · dsimp only at further ⊢
        omega
      · exact Option.some.inj same ▸ starting

theorem validatedBlock_number {expected : Nat} {block : RpcBlock} {decoded : Block}
    (validated : validatedBlock (some expected) block = .ok decoded) :
    decoded.number = expected := by
  unfold validatedBlock at validated
  split at validated
  · split at validated
    · cases validated
    case isFalse fits =>
      cases Except.ok.inj validated
      by_contra other
      exact fits (.inl (by simpa using other))
  · cases validated

/-- The checked logs are the events before the cut, with the times of their blocks. -/
structure Chain.Checked (chain : Chain) (blocks : List Block) (logs : List ExpiryEvent)
    (canonical : List CanonicalLog) (cut : Option Int) : Prop where
  listed : ∀ log, log ∈ canonical ↔ log.event ∈ logs ∧
    (∀ last, cut = some last → (log.event.blockNumber : Int) ≤ last) ∧
    log.claimedAt = chain.timestamp log.event.blockNumber * 1000
  after : ∀ last, cut = some last → ∀ block ∈ blocks, (block.number : Int) ≤ last
  within : ∀ last, cut = some last → ∃ log ∈ logs, last = (log.blockNumber : Int) - 1

/-- One more log, whose block has been checked. -/
theorem Chain.Checked.cons {blocks : List Block} {logs : List ExpiryEvent} {log : ExpiryEvent}
    {canonical : List CanonicalLog} {cut : Option Int} {block : Block}
    (checked : chain.Checked blocks logs canonical cut) (member : block ∈ blocks)
    (number : block.number = log.blockNumber)
    (time : block.timestamp = chain.timestamp block.number) :
    chain.Checked blocks (log :: logs) (⟨log, block.timestamp * 1000⟩ :: canonical) cut where
  listed found := by
    have inside : ∀ last, cut = some last → (log.blockNumber : Int) ≤ last := by
      intro last same
      have before := checked.after last same block member
      rwa [number] at before
    rw [List.mem_cons, checked.listed found, List.mem_cons]
    constructor
    · rintro (rfl | ⟨old, before, at'⟩)
      · exact ⟨.inl rfl, inside, by rw [time, number]⟩
      · exact ⟨.inr old, before, at'⟩
    · rintro ⟨rfl | old, before, at'⟩
      · left
        rcases found with ⟨event, claimedAt⟩
        rw [time, number]
        exact congrArg _ at'
      · exact .inr ⟨old, before, at'⟩
  after := checked.after
  within last same := by
    obtain ⟨other, member, before⟩ := checked.within last same
    exact ⟨other, List.mem_cons_of_mem _ member, before⟩

theorem ensures_checkBlocks {head : Block} {maxBlockRequests : Nat} (blocks : List Block)
    (logs : List ExpiryEvent)
    (sorted : logs.Pairwise fun first second => first.blockNumber ≤ second.blockNumber)
    (times : ∀ block ∈ blocks, block.timestamp = chain.timestamp block.number)
    (earlier : ∀ block ∈ blocks, ∀ log ∈ logs, block.number ≤ log.blockNumber) :
    (checkBlocks head maxBlockRequests blocks logs).Ensures chain.Truthful
      (fun checked => chain.Checked blocks logs checked.1 checked.2) fun _ => True := by
  induction logs generalizing blocks with
  | nil => exact ⟨fun _ => by simp, by simp, by simp⟩
  | cons log logs ih =>
    obtain ⟨below, sorted⟩ := List.pairwise_cons.mp sorted
    unfold checkBlocks
    split
    case h_1 block found =>
      have member := List.mem_of_find?_eq_some found
      have number : block.number = log.blockNumber := by
        simpa using List.find?_some found
      rw [Program.ensures_bind, Program.ensures_require]
      refine ⟨fun _ => ?_, fun _ => trivial⟩
      rw [Program.ensures_bind]
      apply (ih blocks sorted times fun one inside other later =>
        earlier one inside other (List.mem_cons_of_mem _ later)).weaken _ fun _ _ => trivial
      rintro ⟨canonical, cut⟩ checked
      exact checked.cons member number (times block member)
    case h_2 missing =>
      split
      · refine ⟨fun found => ?_, fun last same block member => ?_, fun last same => ?_⟩
        · simp only [List.not_mem_nil, false_iff]
          rintro ⟨inside, before, _⟩
          have last := before _ rfl
          have least : log.blockNumber ≤ found.event.blockNumber := by
            rcases List.mem_cons.mp inside with same | later
            · exact same ▸ le_refl _
            · exact below _ later
          omega
        · have apart : block.number ≠ log.blockNumber := by
            simpa using List.find?_eq_none.mp missing block member
          have before := earlier block member log List.mem_cons_self
          cases Option.some.inj same
          omega
        · cases Option.some.inj same
          exact ⟨log, List.mem_cons_self, rfl⟩
      rw [Program.ensures_bind]
      apply ensures_send
      · intro answer truthful
        rw [Program.ensures_bind, Program.ensures_lift]
        refine ⟨fun block decoded => ?_, fun _ _ => trivial⟩
        have time := (truthful block decoded).2
        have number := validatedBlock_number decoded
        rw [Program.ensures_bind, Program.ensures_require]
        refine ⟨fun _ => ?_, fun _ => trivial⟩
        have newTimes : ∀ one ∈ blocks ++ [block], one.timestamp = chain.timestamp one.number := by
          intro one inside
          rcases List.mem_append.mp inside with old | new
          · exact times one old
          · rw [List.mem_singleton.mp new, time, number]
        have newEarlier : ∀ one ∈ blocks ++ [block], ∀ other ∈ logs,
            one.number ≤ other.blockNumber := by
          intro one inside other later
          rcases List.mem_append.mp inside with old | new
          · exact earlier one old other (List.mem_cons_of_mem _ later)
          · rw [List.mem_singleton.mp new, number]
            exact below other later
        rw [Program.ensures_bind]
        apply (ih (blocks ++ [block]) sorted newTimes newEarlier).weaken _ fun _ _ => trivial
        rintro ⟨canonical, cut⟩ checked
        have last : block ∈ blocks ++ [block] := by simp
        have more := checked.cons last number (newTimes block last)
        exact ⟨more.listed, fun found same one inside =>
          more.after found same one (List.mem_append_left _ inside), more.within⟩
      · exact fun _ => trivial

end Truth

section Claims

variable {deposits : List Deposit}

/-- Every claim of a log is collected once. -/
theorem mem_collectClaims {claims collected : List ExpiryClaim} {logs : List CanonicalLog}
    (made : collectClaims deposits claims logs = .ok collected) {claim : ExpiryClaim} :
    claim ∈ collected ↔ claim ∈ claims ∨ ∃ log ∈ logs, claimOf deposits log = some claim := by
  induction logs generalizing claims with
  | nil =>
    cases Except.ok.inj made
    simp
  | cons log logs ih =>
    unfold collectClaims at made
    split at made
    case h_1 foreign => rw [ih made]; simp [foreign]
    case h_2 added own =>
      split at made
      · rw [ih made]
        simp [own, or_assoc, eq_comm]
      case h_2 previous known =>
        split at made
        case isTrue same =>
          have member := List.mem_of_find?_eq_some known
          rw [same] at member
          rw [ih made]
          constructor
          · rintro (old | ⟨other, later, mine⟩)
            · exact .inl old
            · exact .inr ⟨other, List.mem_cons_of_mem _ later, mine⟩
          · rintro (old | ⟨other, inside, mine⟩)
            · exact .inl old
            · rcases List.mem_cons.mp inside with rfl | later
              · rw [own, Option.some.injEq] at mine
                exact .inl (mine ▸ member)
              · exact .inr ⟨other, later, mine⟩
        · cases made

/-- The event claims an owned deposit in these blocks. -/
def Chain.Claims (chain : Chain) (deposits : List Deposit) (first : Nat) (last : Int)
    (claim : ExpiryClaim) : Prop :=
  ∃ event ∈ chain.events, first ≤ event.blockNumber ∧ (event.blockNumber : Int) ≤ last ∧
    claimOf deposits ⟨event, chain.timestamp event.blockNumber * 1000⟩ = some claim

instance earlierTotal :
    Std.Total fun first second : ExpiryEvent => first.blockNumber ≤ second.blockNumber :=
  ⟨fun _ _ => Nat.le_total _ _⟩

instance earlierTrans :
    IsTrans ExpiryEvent fun first second => first.blockNumber ≤ second.blockNumber :=
  ⟨fun _ _ _ => Nat.le_trans⟩

/-- What a scan returns: the claims of the blocks it has scanned, and where to go on. -/
structure Chain.Scanned (chain : Chain) (deposits : List Deposit) (first : Nat)
    (result : ScanResult) : Prop where
  claims : ∀ claim, claim ∈ result.claims ↔ chain.Claims deposits first result.scannedTo claim
  forward : result.complete = false → (first : Int) - 1 ≤ result.scannedTo
  positive : -1 ≤ result.scannedTo
  starts : ∀ block, result.deploymentBlock = some block → chain.Starts block

/-- A scan returns the claims of the blocks that it has scanned. -/
theorem ensures_readFinalizedExpiryClaims {chain : Chain} {vaultAddress : String} {chainId : Nat}
    {limits : ScanLimits}
    (starts : ∀ block, limits.deploymentBlock = some block → chain.Starts block) :
    (readFinalizedExpiryClaims vaultAddress chainId deposits limits).Ensures chain.Truthful
      (fun result => chain.Scanned deposits limits.fromBlock result) fun _ => True := by
  unfold readFinalizedExpiryClaims
  rw [Program.ensures_bind, Program.ensures_require]
  refine ⟨fun valid => ?_, fun _ => trivial⟩
  have positive : 0 < limits.chunkSize := by
    simp only [ScanLimits.isValid, Bool.and_eq_true, bne_iff_ne] at valid
    omega
  rw [Program.ensures_bind]
  apply ensures_send _ fun _ => trivial
  intro id _
  rw [Program.ensures_bind, Program.ensures_require]
  refine ⟨fun _ => ?_, fun _ => trivial⟩
  rw [Program.ensures_bind]
  apply ensures_send _ fun _ => trivial
  intro finalized _
  rw [Program.ensures_bind, Program.ensures_lift]
  refine ⟨fun head _ => ?_, fun _ _ => trivial⟩
  rw [Program.ensures_bind]
  apply (ensures_scanLogs positive starts).weaken _ fun _ _ => trivial
  rintro scanned ⟨covers, lower, starting⟩
  rw [Program.ensures_bind]
  have sorted := scanned.logs.pairwise_insertionSort
    fun first second : ExpiryEvent => first.blockNumber ≤ second.blockNumber
  apply (ensures_checkBlocks [] _ sorted (by simp) (by simp)).weaken _ fun _ _ => trivial
  rintro ⟨canonical, cut⟩ checked
  rw [Program.ensures_bind]
  apply ensures_send _ fun _ => trivial
  intro found _
  rw [Program.ensures_bind, Program.ensures_lift]
  refine ⟨fun checkedHead _ => ?_, fun _ _ => trivial⟩
  rw [Program.ensures_bind, Program.ensures_require]
  refine ⟨fun _ => ?_, fun _ => trivial⟩
  rw [Program.ensures_bind, Program.ensures_lift]
  refine ⟨fun claims collected => ?_, fun _ _ => trivial⟩
  have reached : (limits.fromBlock : Int) - 1 ≤ cut.getD scanned.scannedTo := by
    cases cut with
    | none => exact lower
    | some stop =>
      obtain ⟨log, listed, after⟩ := checked.within stop rfl
      have inside := ((covers.holds log).mp ((List.mem_insertionSort _).mp listed)).2.1
      simp only [Option.getD_some]
      omega
  refine ⟨fun claim => ?_, fun partial' => ?_, ?_, starting⟩
  · rw [mem_collectClaims collected]
    constructor
    · rintro (old | ⟨⟨event, claimedAt⟩, member, own⟩)
      · cases old
      obtain ⟨inside, before, time⟩ := (checked.listed _).mp member
      obtain ⟨emitted, first, last⟩ := (covers.holds event).mp ((List.mem_insertionSort _).mp inside)
      refine ⟨event, emitted, first, ?_, time ▸ own⟩
      cases cut with
      | none => exact last
      | some stop =>
        have stopped : (event.blockNumber : Int) ≤ stop := before stop rfl
        simp only [Option.getD_some]
        omega
    · rintro ⟨event, emitted, first, last, own⟩
      refine .inr ⟨_, (checked.listed _).mpr ⟨(List.mem_insertionSort _).mpr ?_, ?_, rfl⟩, own⟩
      · apply (covers.holds event).mpr
        refine ⟨emitted, first, ?_⟩
        cases cut with
        | none => exact last
        | some stop =>
          obtain ⟨log, listed, after⟩ := checked.within stop rfl
          have inside := ((covers.holds log).mp ((List.mem_insertionSort _).mp listed)).2.2
          simp only [Option.getD_some] at last
          omega
      · intro stop same
        have cutAt : cut = some stop := same
        simp only [cutAt, Option.getD_some] at last
        change (event.blockNumber : Int) ≤ stop
        omega
  · have short := of_decide_eq_false partial'
    dsimp only at short ⊢
    omega
  · dsimp only
    omega

end Claims

section Resumption

/-- Scans of one wallet, each beginning where the one before has ended.  Up to `reached`
they have scanned every block.  A complete scan is followed by another one only when the head
has come to where the scans began. -/
inductive Scans (chain : Chain) (vaultAddress : String) (chainId : Nat)
    (deposits : List Deposit) (start : Nat) :
    (next reached : Nat) → (complete : Bool) → Option Nat → List ExpiryClaim → Prop
  | begin : Scans chain vaultAddress chainId deposits start start start false none []
  | resume {next reached : Nat} {complete : Bool} {deploymentBlock : Option Nat}
      {claims : List ExpiryClaim} {result : ScanResult} {requests : List Request}
      (limits : ScanLimits) (oracle : Program.Oracle Request.Answer)
      (truthful : ∀ requests request, chain.Truthful request (oracle requests request))
      (before : Scans chain vaultAddress chainId deposits start next reached complete
        deploymentBlock claims)
      (come : complete = true → start ≤ next)
      (continues : limits.fromBlock = next ∧ limits.deploymentBlock = deploymentBlock)
      (scanned : (readFinalizedExpiryClaims vaultAddress chainId deposits limits).answered
        oracle [] = (.ok result, requests)) :
      Scans chain vaultAddress chainId deposits start (result.scannedTo + 1).toNat
        (max reached (result.scannedTo + 1).toNat) result.complete result.deploymentBlock
        (claims ++ result.claims)

variable {chain : Chain} {vaultAddress : String} {chainId : Nat} {deposits : List Deposit}
  {start next reached : Nat} {complete : Bool} {deploymentBlock : Option Nat}
  {claims : List ExpiryClaim}

/-- What scans have reached. -/
structure Chain.Resumes (chain : Chain) (deposits : List Deposit) (start next reached : Nat)
    (complete : Bool) (deploymentBlock : Option Nat) (claims : List ExpiryClaim) : Prop where
  claims : ∀ claim, claim ∈ claims ↔ chain.Claims deposits start ((reached : Int) - 1) claim
  starts : ∀ block, deploymentBlock = some block → chain.Starts block
  forward : complete = false → start ≤ next
  begun : next ≤ reached

/-- The blocks of two scans that touch are the blocks of both. -/
theorem Chain.claims_union {first middle : Nat} {reached last : Int} {claim : ExpiryClaim}
    (touch : (middle : Int) - 1 ≤ reached) (forward : first ≤ middle) :
    chain.Claims deposits first (max reached last) claim ↔
      chain.Claims deposits first reached claim ∨ chain.Claims deposits middle last claim := by
  constructor
  · rintro ⟨event, member, after, before, own⟩
    by_cases early : (event.blockNumber : Int) ≤ reached
    · exact .inl ⟨event, member, after, early, own⟩
    · exact .inr ⟨event, member, by omega, by omega, own⟩
  · rintro (⟨event, member, after, before, own⟩ | ⟨event, member, after, before, own⟩)
    · exact ⟨event, member, after, by omega, own⟩
    · exact ⟨event, member, by omega, by omega, own⟩

theorem Scans.resumes
    (scans : Scans chain vaultAddress chainId deposits start next reached complete
      deploymentBlock claims) :
    chain.Resumes deposits start next reached complete deploymentBlock claims := by
  induction scans with
  | begin =>
    refine ⟨fun claim => ?_, by simp, fun _ => le_refl _, le_refl _⟩
    simp only [List.not_mem_nil, false_iff]
    rintro ⟨event, _, after, before, _⟩
    omega
  | @resume next reached complete deploymentBlock claims result requests limits oracle truthful _
      come continues scanned ih =>
    obtain ⟨from', known⟩ := continues
    have found := (ensures_readFinalizedExpiryClaims (fun block same =>
      ih.starts block (known ▸ same))).answered truthful scanned
    have forward : start ≤ next := by
      cases complete with
      | true => exact come rfl
      | false => exact ih.forward rfl
    have begun := ih.begun
    have positive := found.positive
    refine ⟨fun claim => ?_, found.starts, fun partial' => ?_, by omega⟩
    · have touch : (next : Int) - 1 ≤ (reached : Int) - 1 := by omega
      have reaches : ((max reached (result.scannedTo + 1).toNat : Nat) : Int) - 1 =
          max ((reached : Int) - 1) result.scannedTo := by omega
      rw [List.mem_append, ih.claims, found.claims, from', reaches,
        Chain.claims_union touch forward]
    · have further := found.forward partial'
      omega

/-- Every scan returns exactly the claims of the blocks it has scanned, and scans that have
reached the same block have found the same claims, whatever was refused to them. -/
theorem scans_exact
    (scans : Scans chain vaultAddress chainId deposits start next reached complete
      deploymentBlock claims) :
    (∀ (limits : ScanLimits) (oracle : Program.Oracle Request.Answer) (result : ScanResult)
      (requests : List Request),
      (∀ requests request, chain.Truthful request (oracle requests request)) →
        limits.deploymentBlock = none ∨ limits.deploymentBlock = deploymentBlock →
          (readFinalizedExpiryClaims vaultAddress chainId deposits limits).answered oracle [] =
            (.ok result, requests) →
              ∀ claim, claim ∈ result.claims ↔
                chain.Claims deposits limits.fromBlock result.scannedTo claim) ∧
    (∀ claim, claim ∈ claims ↔ chain.Claims deposits start ((reached : Int) - 1) claim) ∧
    ∀ (next' : Nat) (complete' : Bool) (deploymentBlock' : Option Nat)
      (claims' : List ExpiryClaim),
      Scans chain vaultAddress chainId deposits start next' reached complete' deploymentBlock'
        claims' → ∀ claim, claim ∈ claims ↔ claim ∈ claims' := by
  refine ⟨?_, scans.resumes.claims, ?_⟩
  · intro limits oracle result requests truthful known scanned
    have starts : ∀ block, limits.deploymentBlock = some block → chain.Starts block := by
      intro block same
      rcases known with none' | some'
      · rw [none'] at same
        cases same
      · exact scans.resumes.starts block (some' ▸ same)
    exact ((ensures_readFinalizedExpiryClaims starts).answered truthful scanned).claims
  · intro next' complete' deploymentBlock' claims' other claim
    rw [scans.resumes.claims, other.resumes.claims]

end Resumption

section Sample

def word (digit : Char) : String :=
  String.ofList ('0' :: 'x' :: List.replicate 64 digit)

def vault : String :=
  String.ofList ('0' :: 'x' :: List.replicate 40 'a')

/-- Note 1 was claimed in block 3. -/
def expiryLog : RpcLog where
  address := vault
  topics := [expiredClaimedTopic, String.ofList ('0' :: 'x' :: List.replicate 63 '0' ++ ['1'])]
  data := String.ofList ('0' :: 'x' :: List.replicate 63 '0' ++ ['7'] ++ List.replicate 64 '0')
  removed := some false
  blockNumber := "0x3"
  blockHash := word '3'
  transactionHash := word 'e'

def expiryEvent : ExpiryEvent :=
  ⟨1, 7, 3, word 'e', word '3'⟩

def deposit : Deposit :=
  ⟨"confirmed", 1, some 7, some 2⟩

def chain : Chain where
  events := [expiryEvent]
  hash number := if number = 3 then word '3' else word '5'
  timestamp number := number
  hasCode number := 3 ≤ number
  code_stays first second forward code := by
    simp only [decide_eq_true_eq] at code ⊢
    omega
  emitted := by simp [expiryEvent]

/-- Only the blocks 3 and 5 are known. -/
def blockAnswer (number : Nat) : Except String RpcBlock :=
  if number = 3 then .ok ⟨"0x3", "0x3", word '3'⟩
  else if number = 5 then .ok ⟨"0x5", "0x5", word '5'⟩
  else .error "unknown block"

/-- The whole range is refused. -/
def logsAnswer (fromBlock toBlock : Nat) : Except String (Option (List RpcLog)) :=
  if fromBlock = 3 ∧ toBlock = 5 then .ok (some [expiryLog]) else .error "range too wide"

def oracle : Program.Oracle Request.Answer
  | _, .chainId => .ok "0x1"
  | _, .finalizedBlock => .ok ⟨"0x5", "0x5", word '5'⟩
  | _, .block number => blockAnswer number
  | _, .code _ number => .ok (if 3 ≤ number then "0x60" else "0x")
  | _, .logs address fromBlock toBlock =>
      if address = vault then logsAnswer fromBlock toBlock else .error "unknown contract"

theorem blockAnswer_eq {number : Nat} {block : RpcBlock}
    (answered : blockAnswer number = .ok block) {decoded : Block}
    (validated : validatedBlock (some number) block = .ok decoded) :
    decoded.hash = chain.hash number ∧ decoded.timestamp = chain.timestamp number := by
  unfold blockAnswer at answered
  split at answered
  case isTrue three =>
    cases Except.ok.inj answered
    have known : validatedBlock (some 3) ⟨"0x3", "0x3", word '3'⟩ = .ok ⟨3, 3, word '3'⟩ := by
      decide
    rw [three] at validated ⊢
    cases Except.ok.inj (known.symm.trans validated)
    exact ⟨rfl, rfl⟩
  split at answered
  case isTrue five =>
    cases Except.ok.inj answered
    have known : validatedBlock (some 5) ⟨"0x5", "0x5", word '5'⟩ = .ok ⟨5, 5, word '5'⟩ := by
      decide
    rw [five] at validated ⊢
    cases Except.ok.inj (known.symm.trans validated)
    exact ⟨rfl, rfl⟩
  · cases answered

theorem oracle_truthful (requests : List Request) (request : Request) :
    chain.Truthful request (oracle requests request) := by
  cases request with
  | chainId => trivial
  | finalizedBlock => trivial
  | block number =>
    change chain.Truthful (.block number) (blockAnswer number)
    cases answered : blockAnswer number with
    | error message => trivial
    | ok block => exact fun decoded validated => blockAnswer_eq answered validated
  | code address number =>
    change (if 3 ≤ number then "0x60" else "0x") ≠ "0x" ↔ decide (3 ≤ number) = true
    by_cases later : 3 ≤ number <;> simp [later]
  | logs address fromBlock toBlock =>
    change chain.Truthful (.logs address fromBlock toBlock)
      (if address = vault then logsAnswer fromBlock toBlock else .error "unknown contract")
    by_cases asked : address = vault ∧ fromBlock = 3 ∧ toBlock = 5
    · obtain ⟨rfl, rfl, rfl⟩ := asked
      intro event
      have known : parsedLog vault 3 5 expiryLog = .ok (some expiryEvent) := by
        set_option maxRecDepth 20000 in decide
      simp only [List.mem_singleton, exists_eq_left, known, Except.ok.injEq, Option.some.injEq]
      constructor
      · rintro rfl
        exact ⟨List.mem_singleton_self _, by decide, by decide⟩
      · rintro ⟨member, _⟩
        exact (List.mem_singleton.mp member).symm
    · have refused : ∃ message, (if address = vault then logsAnswer fromBlock toBlock
          else .error "unknown contract") = .error message := by
        unfold logsAnswer
        split
        case isTrue same => exact ⟨_, if_neg fun range => asked ⟨same, range⟩⟩
        case isFalse => exact ⟨_, rfl⟩
      obtain ⟨message, refused⟩ := refused
      rw [refused]
      trivial

def limits : ScanLimits :=
  ⟨0, none, 3, 2, 1⟩

theorem sampled : ((readFinalizedExpiryClaims vault 1 [deposit] limits).answered oracle []).1 =
    .ok ⟨[⟨1, 7, word 'e', word '3', 3, 3000⟩], 5, some 3, true⟩ := by
  decide +kernel

/-- A scan in two requests finds what was claimed up to the head. -/
theorem scans_exact_sample :
    ((readFinalizedExpiryClaims vault 1 [deposit] limits).answered oracle []).1 =
      .ok ⟨[⟨1, 7, word 'e', word '3', 3, 3000⟩], 5, some 3, true⟩ ∧
    ∀ claim : ExpiryClaim, claim ∈ [(⟨1, 7, word 'e', word '3', 3, 3000⟩ : ExpiryClaim)] ↔
      chain.Claims [deposit] 0 5 claim := by
  refine ⟨sampled, fun claim => ?_⟩
  have scanned : (readFinalizedExpiryClaims vault 1 [deposit] limits).answered oracle [] =
      (_, ((readFinalizedExpiryClaims vault 1 [deposit] limits).answered oracle []).2) :=
    Prod.ext sampled (Eq.refl _)
  exact (scans_exact (.resume limits oracle oracle_truthful .begin (by simp) ⟨rfl, rfl⟩
    scanned)).2.1 claim

end Sample

end ZkApi.Browser.Expiry
