import ZkApi.LeaseSettlement

/-!
# Billing the usage of a key

OpenRouter counts what is spent with a key until the key is deleted or has
expired.  A settlement reads the count, writes its two records and deletes the
key last.  So it bills what was spent before the read, and a key that is used
after the read has been used for more than its lease is charged.
-/

namespace ZkApi

open ConstrainedTable Interleaving JsonText MachineIntegers

variable {P : Protocol}

section Keys

variable {world after : World}

/-- The key of this hash after every key was changed in a way that keeps
hashes. -/
private theorem key_map (world : World) (change : ChildKey → ChildKey)
    (keeps : ∀ key, (change key).hash = key.hash) (hash : String) :
    World.key { world with keys := world.keys.map change } hash =
      (world.key hash).map change := by
  have sameHash : ((fun key : ChildKey => decide (key.hash = hash)) ∘ change) =
      fun key => decide (key.hash = hash) := by
    funext key
    simp only [Function.comp, keeps key]
  simp only [World.key, List.find?_map, sameHash]

private theorem hash_of_key {hash : String} {key : ChildKey} (found : world.key hash = some key) :
    key.hash = hash := by
  have satisfied := List.find?_some found
  simpa using satisfied

private theorem usageOf_keysAfterCreate (world : World) (expiresAt : UInt64)
    (reply : Exchange CreateKeyEnvelope) (hash : String) :
    World.usageOf { world with keys := world.keysAfterCreate expiresAt reply } hash =
      world.usageOf hash := by
  unfold World.keysAfterCreate
  split
  · rename_i status retryAfter text envelope
    split
    · rename_i created
      by_cases same : envelope.data.hash = hash
      · have absent := Option.isNone_iff_eq_none.mp created.2
        rw [same] at absent
        have unused : world.usageOf hash = 0.0 := by
          rw [World.usageOf, absent]
          rfl
        rw [unused]
        simp [World.usageOf, World.key, same]
      · simp [World.usageOf, World.key, same]
    · rfl
  · rfl

private theorem usageOf_keysAfterDelete (world : World) (deleted : String)
    (reply : Exchange Unit) (hash : String) :
    World.usageOf { world with keys := world.keysAfterDelete deleted reply } hash =
      world.usageOf hash := by
  unfold World.usageOf World.keysAfterDelete
  rw [key_map world _ (fun key => by split <;> rfl), Option.map_map]
  congr 2
  funext key
  dsimp only [Function.comp]
  split <;> rfl

/-- Nothing the server does changes what has been spent with a key. -/
theorem execute_usageOf {task : Nat} {op : Op} {answer : Answer} {response : Resp op}
    (executed : execute P task op answer world = some (response, after)) (hash : String) :
    after.usageOf hash = world.usageOf hash := by
  rcases execute_cases executed with ⟨outcome, _, _, rfl⟩ | ⟨_, outside⟩
  · rfl
  · cases op with
    | lockIssue =>
        obtain ⟨_, same⟩ := Option.ite_none_right_eq_some.mp outside
        cases same
        rfl
    | lockSettlement =>
        obtain ⟨_, same⟩ := Option.ite_none_right_eq_some.mp outside
        cases same
        rfl
    | openrouterUsage read =>
        cases answer with
        | usage reply =>
            obtain ⟨_, same⟩ := Option.ite_none_right_eq_some.mp outside
            cases same
            rfl
        | _ => cases outside
    | openrouterCreate name limitUsd expiresAt =>
        cases answer with
        | created reply =>
            cases outside
            exact usageOf_keysAfterCreate world expiresAt response hash
        | _ => cases outside
    | openrouterDelete deleted =>
        cases answer with
        | deleted reply =>
            cases outside
            exact usageOf_keysAfterDelete world deleted response hash
        | _ => cases outside
    | _ => cases answer <;> cases outside <;> rfl

/-- Only the use of a key changes what has been spent with it. -/
theorem move_usageOf {change : Move} (moved : move world change = some after) (hash : String) :
    after.usageOf hash = world.usageOf hash ∨ change = .useKey hash (after.usageOf hash) := by
  cases change with
  | updateRoot root =>
      cases moved
      exact Or.inl rfl
  | setClock now =>
      cases moved
      exact Or.inl rfl
  | useKey used usage =>
      simp only [move] at moved
      split at moved
      · cases moved
      rename_i key found
      obtain ⟨_, same⟩ := Option.ite_none_right_eq_some.mp moved
      cases Option.some.inj same
      have changed := key_map world
        (fun other => if other.hash = used then { other with usage := usage } else other)
        (fun key => by split <;> rfl) hash
      by_cases sameHash : used = hash
      · right
        subst sameHash
        rw [World.usageOf, changed, found]
        simp [hash_of_key found]
      · left
        rw [World.usageOf, changed, World.usageOf, Option.map_map]
        cases other : world.key hash with
        | none => rfl
        | some key =>
            have notUsed : ¬ hash = used := fun same => sameHash same.symm
            simp [hash_of_key other, notUsed]

end Keys

section Reads

/-- The task has read this usage of the key. -/
def ReadsUsage (task : Nat) (hash : String) (usageUsd : Float) : Event (server P) → Prop
  | .performed reader (.openrouterUsage key) (.received status _ _ (.ok data)) =>
      reader = task ∧ key = hash ∧ status.isSuccess = true ∧ data.usageUsd = usageUsd
  | _ => False

theorem execute_readsUsage {task reader : Nat} {op : Op} {answer : Answer} {world after : World}
    {response : Resp op} (executed : execute P task op answer world = some (response, after))
    (truthful : world.truthful = true) {hash : String} {usageUsd : Float}
    (reads : ReadsUsage (P := P) reader hash usageUsd (.performed task op response)) :
    world.usageOf hash = usageUsd := by
  unfold ReadsUsage at reads
  split at reads
  · rename_i same
    cases same
    obtain ⟨rfl, rfl, success, rfl⟩ := reads
    cases answer with
    | usage reply =>
        obtain ⟨reported, same⟩ := Option.ite_none_right_eq_some.mp executed
        cases same
        simp only [World.reports, truthful, success, Bool.not_true, Bool.false_or] at reported
        exact (of_decide_eq_true reported).symm
    | _ => cases executed
  · exact reads.elim

/-- What a task has read of a key is what has been spent with it, unless the
key was used since. -/
def UsageRead (world : World) (trace : List (Event (server P))) : Prop :=
  ∀ task hash usageUsd, ∀ event ∈ trace, ReadsUsage task hash usageUsd event →
    world.usageOf hash = usageUsd ∨ ∃ earlier,
      .moved (.useKey hash (world.usageOf hash)) :: earlier <:+ trace ∧ event ∈ earlier

private theorem UsageRead.cons {world after : World} {trace : List (Event (server P))}
    {event : Event (server P)} (held : UsageRead world trace)
    (unchanged : ∀ hash, after.usageOf hash = world.usageOf hash)
    (read : ∀ task hash usageUsd, ReadsUsage task hash usageUsd event →
      world.usageOf hash = usageUsd) : UsageRead after (event :: trace) := by
  intro task hash usageUsd reading member reads
  rw [unchanged hash]
  rcases List.mem_cons.mp member with rfl | member
  · exact Or.inl (read task hash usageUsd reads)
  · rcases held task hash usageUsd reading member reads with same | ⟨earlier, used, before⟩
    · exact Or.inl same
    · exact Or.inr ⟨earlier, used.trans (List.suffix_cons event trace), before⟩

theorem truthful_preserved :
    (discipline P).Inductive fun world _ => world.truthful = true where
  started _ _ _ _ held := held
  performed := by
    intro world trace task call op answer response after _ _ _ executed _ held
    rcases execute_cases executed with ⟨outcome, _, _, rfl⟩ | ⟨_, outside⟩
    · exact held
    · rw [executeOutside_eq outside]
      exact held
  returned _ _ _ _ _ held := held
  aborted _ _ held := held
  moved := by
    intro world trace change after moved _ held
    have moved : move world change = some after := moved
    rw [move_eq moved]
    exact held
  restarted := by
    intro world trace change after rebooted _ held
    have rebooted : reboot P world change = some after := rebooted
    rw [(reboot_eq rebooted).1]
    exact held

theorem usageRead_preserved :
    (discipline P).Preserved (fun world _ => world.truthful = true) UsageRead where
  started _ _ _ _ held := held.cons (fun _ => rfl) fun _ _ _ => False.elim
  performed _ _ _ executed truthful held :=
    held.cons (execute_usageOf executed) fun _ _ _ reads =>
      execute_readsUsage executed truthful reads
  returned _ _ _ _ _ held := held.cons (fun _ => rfl) fun _ _ _ => False.elim
  aborted _ _ held := held.cons (fun _ => rfl) fun _ _ _ => False.elim
  moved := by
    intro world trace change after moved _ held task hash usageUsd event member reads
    have moved : move world change = some after := moved
    have past : event ∈ trace := (List.mem_cons.mp member).resolve_left fun same => by
      rw [same] at reads
      exact reads
    rcases move_usageOf moved hash with unchanged | used
    · rw [unchanged]
      rcases held task hash usageUsd event past reads with same | ⟨earlier, used, before⟩
      · exact Or.inl same
      · exact Or.inr ⟨earlier, used.trans (List.suffix_cons _ trace), before⟩
    · right
      rw [← used]
      exact ⟨trace, List.suffix_rfl, past⟩
  restarted := by
    intro world trace change after rebooted _ held
    have rebooted : reboot P world change = some after := rebooted
    have kept : after.keys = world.keys := by
      rw [(reboot_eq rebooted).1]
    refine held.cons (fun hash => ?_) fun _ _ _ => False.elim
    rw [World.usageOf, World.key, kept]
    rfl

end Reads

section Billing

/-- Every finalized lease of an OpenRouter key is charged for all that was ever
spent with the key, up to what its request has proved to cover. -/
def UsageBilled (P : Protocol) (world : World) : Prop :=
  ∀ row ∈ world.store.leases, row.status = "finalized" → row.keySource = "openrouter" →
    ∃ lease hash, Reads P lease row ∧ lease.keyHash = some hash ∧
      row.chargeApplied.map asU128 = some (min (Pricing.usdToCredits (world.usageOf hash))
        lease.apiRequest.publicInputs.solvencyBound)

/-- In this run the task settles this lease of this OpenRouter key. -/
def Settles (P : Protocol) (trace : List (Event (server P))) (task : Nat)
    (lease : OpenRouterLeaseRecord) (hash : String) : Prop :=
  SawActive (historyOf task trace) lease ∧ lease.keySource = "openrouter" ∧
    lease.keyHash = some hash ∧ ∃ transcript,
      .performed task (.finalize lease.apiRequest.nullifier transcript) (.ok ()) ∈ trace

/-- Whenever a key is used after the settlement of its lease has read its
usage, this leaves the charge as it is.  Charges fit into their column. -/
structure UsesCovered (P : Protocol) (trace : List (Event (server P))) : Prop where
  late : ∀ task lease hash, Settles P trace task lease hash → ∀ usage earlier,
    .moved (.useKey hash usage) :: earlier <:+ trace → ∀ usageUsd, ∀ event ∈ earlier,
      ReadsUsage task hash usageUsd event →
        leaseCharge lease usage = leaseCharge lease usageUsd
  fits : ∀ task lease hash, Settles P trace task lease hash → ∀ usageUsd, ∀ event ∈ trace,
    ReadsUsage task hash usageUsd event → leaseCharge lease usageUsd < 2 ^ 63

/-- In every run from an empty store in which late uses are covered, finalized
leases are charged for all that was ever spent with their keys. -/
theorem lease_usage_billed (P : Protocol) (feltHex : P.FeltHexRoundTrips)
    (roundTrips : P.RequestJsonRoundTrips) (faithful : P.JsonFaithful) (world : World)
    (empty : world.store = Store.empty) (truthful : world.truthful = true)
    {state : State (server P)} (run : (State.initial (server P) world).Reaches state)
    (covered : UsesCovered P state.trace) : UsageBilled P state.world := by
  intro row member finalized source
  obtain ⟨lease, response, usageUsd, transcript, settled⟩ :=
    run_settledLeases feltHex roundTrips faithful empty run row member finalized
  have unread : UsageRead world ([] : List (Event (server P))) :=
    fun _ _ _ _ member => absurd member List.not_mem_nil
  have read := ((truthful_preserved.and usageRead_preserved).holds ⟨truthful, unread⟩ run).2
  obtain ⟨task, event, active, billed⟩ := settled.written
  have leaseSource : lease.keySource = "openrouter" := settled.reads.keySource.symm.trans source
  cases billed with
  | oaOrg other =>
      rw [leaseSource] at other
      exact absurd other (by decide)
  | @openrouter hash status retryAfter text data _ key found success =>
      have settles : Settles P state.trace task lease hash :=
        ⟨active, leaseSource, key, transcript, event⟩
      have reading := saw_historyOf_iff.mp found
      have reads : ReadsUsage (P := P) task hash data.usageUsd (.performed task
        (.openrouterUsage hash) (.received status retryAfter text (.ok data))) :=
        ⟨rfl, rfl, success, rfl⟩
      have charge : leaseCharge lease (state.world.usageOf hash) =
          leaseCharge lease data.usageUsd := by
        rcases read task hash data.usageUsd _ reading reads with same | ⟨earlier, used, before⟩
        · rw [same]
        · exact covered.late task lease hash settles _ earlier used _ _ before reads
      have fits := covered.fits task lease hash settles _ _ reading reads
      refine ⟨lease, hash, settled.reads, key, ?_⟩
      have stored : row.chargeApplied = some (asI64 (leaseCharge lease data.usageUsd)) :=
        settled.charge
      rw [stored, Option.map_some, asU128_asI64 fits, ← charge]
      rfl

/-- The event does not read a usage that could be too much for the column. -/
def readsSmall : Event (server P) → Bool
  | .performed _ (.openrouterUsage _) (.received _ _ _ (.ok data)) =>
      Pricing.usdToCredits data.usageUsd < 2 ^ 63
  | _ => true

def isUsageRead : Event (server P) → Bool
  | .performed _ (.openrouterUsage _) _ => true
  | _ => false

def isKeyUse : Event (server P) → Bool
  | .moved (.useKey _ _) => true
  | _ => false

theorem suffix_dropWhile {event : Event (server P)} {earlier trace : List (Event (server P))}
    (suffix : event :: earlier <:+ trace) (use : isKeyUse event = true) :
    earlier <:+ trace.dropWhile fun event => !isKeyUse event := by
  induction trace with
  | nil => cases List.suffix_nil.mp suffix
  | cons newest trace ih =>
      rcases List.suffix_cons_iff.mp suffix with same | suffix
      · cases same
        simp [use]
      · rw [List.dropWhile_cons]
        split
        · exact ih suffix
        · exact (ih suffix).trans ((List.dropWhile_suffix _).trans (List.suffix_cons _ _))

/-- A run in which no key is used after a read covers all uses. -/
theorem usesCovered_of_reads {trace : List (Event (server P))}
    (unread : (trace.dropWhile fun event => !isKeyUse event).countP isUsageRead = 0)
    (small : trace.countP (fun event => !readsSmall event) = 0) : UsesCovered P trace where
  late := by
    intro task lease hash _ usage earlier suffix usageUsd event member reads
    have within := (suffix_dropWhile suffix rfl).subset member
    have notRead := List.countP_eq_zero.mp unread event within
    unfold ReadsUsage at reads
    split at reads
    · exact (notRead rfl).elim
    · exact reads.elim
  fits := by
    intro task lease hash _ usageUsd event member reads
    have isSmall := List.countP_eq_zero.mp small event member
    unfold ReadsUsage at reads
    split at reads
    · rename_i reader key status retryAfter text data
      have less : Pricing.usdToCredits data.usageUsd < 2 ^ 63 := by
        simpa [readsSmall] using isSmall
      rw [← reads.2.2.2]
      exact lt_of_le_of_lt (min_le_left _ _) less
    · exact reads.elim

theorem lease_usage_billed_retired :
    ∃ state, (State.initial (server Reference.protocol)
        (Reference.world Reference.leasingConfig)).Reaches state ∧
      (∃ row ∈ state.world.store.leases.rows, row.chargeApplied = some 500000) ∧
      UsageBilled Reference.protocol state.world := by
  have reached : ∃ state, (State.initial (server Reference.protocol)
        (Reference.world Reference.leasingConfig)).Reaches state ∧
      (∃ row ∈ state.world.store.leases.rows, row.chargeApplied = some 500000) ∧
      (state.trace.dropWhile fun event => !isKeyUse event).countP isUsageRead = 0 ∧
      state.trace.countP (fun event => !readsSmall event) = 0 :=
    State.reaches_of_decide (Reference.runs 0 (.issueOpenRouterLease Reference.leaseRequest)
        Reference.issueAnswers ++
      .move (.useKey "hash-1" 0.5) ::
      Reference.runs 1 (.retireOpenRouterLease "lease-1" Reference.leaseRequest)
        (List.replicate 3 .nothing ++ Reference.billingAnswers 0.5 ++
          [.nothing, .deleted (Reference.reply ()), .nothing]))
      (by set_option maxRecDepth 20000 in decide)
  obtain ⟨state, run, charged, unread, small⟩ := reached
  exact ⟨state, run, charged, lease_usage_billed Reference.protocol Reference.feltHexRoundTrips
    Reference.requestJsonRoundTrips Reference.jsonFaithful _ rfl rfl run
    (usesCovered_of_reads unread small)⟩

/-- The holder of a key retires its lease and spends a quarter with the key
after its usage was read. -/
theorem usage_escapes :
    ∃ state, (State.initial (server Reference.protocol)
        (Reference.world Reference.leasingConfig)).Reaches state ∧
      ¬ UsageBilled Reference.protocol state.world := by
  have reached : ∃ state, (State.initial (server Reference.protocol)
        (Reference.world Reference.leasingConfig)).Reaches state ∧
      state.world.usageOf "hash-1" = 0.75 ∧
      ∃ row ∈ state.world.store.leases.rows, row.status = "finalized" ∧
        row.keySource = "openrouter" ∧ row.keyHash = some "hash-1" ∧
        row.chargeApplied = some 500000 ∧
        row.apiRequestJson = Reference.leaseRequestJson :=
    State.reaches_of_decide (Reference.runs 0 (.issueOpenRouterLease Reference.leaseRequest)
        Reference.issueAnswers ++
      .move (.useKey "hash-1" 0.5) ::
      Reference.runs 1 (.retireOpenRouterLease "lease-1" Reference.leaseRequest)
        (List.replicate 3 .nothing ++ Reference.billingAnswers 0.5 ++ [.nothing]) ++
      [.move (.useKey "hash-1" 0.75), .advance 1 (.deleted (Reference.reply ()))])
      (by set_option maxRecDepth 20000 in decide)
  obtain ⟨state, run, spent, row, member, finalized, source, key, charge, json⟩ := reached
  refine ⟨state, run, fun billed => ?_⟩
  obtain ⟨lease, hash, reads, leaseKey, charged⟩ := billed row member finalized source
  have decoded : Reference.requestFromJson Reference.leaseRequestJson =
      some lease.apiRequest := json ▸ reads.apiRequest
  rw [Reference.requestFromJson, if_pos rfl] at decoded
  have request := (Option.some.inj decoded).symm
  have sameHash : hash = "hash-1" :=
    Option.some.inj (leaseKey.symm.trans (reads.keyHash.symm.trans key))
  rw [charge, sameHash, spent, request] at charged
  exact absurd charged (by decide)

end Billing

end ZkApi
