import ZkApi.LeaseHandlers
import ZkApi.TaskDiscipline

/-!
# The server as a machine of interleaved tasks

Any number of handler calls run at once.  Between any two operations of a task
other tasks run, the clock and the root move, keys are used, and the server
crashes and starts again, under any configuration that `try_new` accepts.
-/

namespace ZkApi

open Interleaving

/-- A call of a handler. -/
inductive Call where
  | processRequest (request : ApiRequestV2)
  | issueOpenRouterLease (request : ApiRequestV2)
  | settleDueOpenRouterLeases
  | retireOpenRouterLease (clientRequestId : String) (request : ApiRequestV2)
  | processClearance (request : ClearanceRequest)
  | recoverByClientId (clientRequestId : String)
  | recoverByNullifier (nullifier : Felt252)
  | openrouterLeaseStatus (clientRequestId : String)
deriving DecidableEq

@[reducible]
def Result : Call → Type
  | .processRequest _ => RequestResponseV2
  | .issueOpenRouterLease _ => IssuedOpenRouterLease
  | .settleDueOpenRouterLeases => Unit
  | .retireOpenRouterLease _ _ => OpenRouterLeaseStatusResponse
  | .processClearance _ => ClearanceResponseV2
  | .recoverByClientId _ => RecoveryResponseV2
  | .recoverByNullifier _ => RecoveryResponseV2
  | .openrouterLeaseStatus _ => Option OpenRouterLeaseStatusResponse

def handler (P : Protocol) (config : ServerConfig) : (call : Call) → Handler (Result call)
  | .processRequest request => processRequest P config request
  | .issueOpenRouterLease request => issueOpenRouterLease P config request
  | .settleDueOpenRouterLeases => settleDueOpenRouterLeases P config
  | .retireOpenRouterLease clientRequestId request =>
      retireOpenRouterLease P config clientRequestId request
  | .processClearance request => processClearance P config request
  | .recoverByClientId clientRequestId => recoverByClientId clientRequestId
  | .recoverByNullifier nullifier => recoverByNullifier nullifier
  | .openrouterLeaseStatus clientRequestId => openrouterLeaseStatus clientRequestId

/-- The server over the given external functions. -/
@[reducible]
def server (P : Protocol) : Machine where
  Op := Op
  Resp := Resp
  Err := Failure
  Setting := ServerConfig
  Call := Call
  Result := Result
  World := World
  Answer := Answer
  Environment := Move
  Restart := Reboot
  setting := World.config
  program := handler P
  execute := execute P
  finish := release
  environment change world := move world change
  restart change world := reboot P world change

section Equality

instance : (op : Op) → DecidableEq (Resp op)
  | .lookupByNullifier _ | .lookupByClientId _ =>
      inferInstanceAs (DecidableEq (Option TranscriptRecord))
  | .reserve _ _ | .finalize _ _ | .reserveClearance _ | .createLease _ _ _ _ _ _
  | .updateLeaseTiming _ _ _ | .activateLease _ _ | .removeFailedLease _
  | .recordLeaseError _ _ | .finalizeLease _ _ _ =>
      inferInstanceAs (DecidableEq (Except ServerError Unit))
  | .lookupLease _ => inferInstanceAs (DecidableEq (Option OpenRouterLeaseRecord))
  | .dueLeases _ => inferInstanceAs (DecidableEq (List OpenRouterLeaseRecord))
  | .currentRoot | .randomScalar | .randomField => inferInstanceAs (DecidableEq Felt252)
  | .currentTimestamp => inferInstanceAs (DecidableEq UInt64)
  | .lockIssue | .lockSettlement => inferInstanceAs (DecidableEq Unit)
  | .execute _ _ _ => inferInstanceAs (DecidableEq (Except ServerError ProviderResponse))
  | .signState _ | .signClearance _ => inferInstanceAs (DecidableEq SchnorrSignature)
  | .openrouterCreate _ _ _ => inferInstanceAs (DecidableEq (Exchange CreateKeyEnvelope))
  | .openrouterUsage _ => inferInstanceAs (DecidableEq (Exchange KeyData))
  | .openrouterDelete _ => inferInstanceAs (DecidableEq (Exchange Unit))
  | .openrouterList _ => inferInstanceAs (DecidableEq (Exchange (List KeyData)))
  | .oaRequestKey _ _ _ _ => inferInstanceAs (DecidableEq (Exchange OaOrgKeyResponse))
  | .oaKeyUsage _ _ _ => inferInstanceAs (DecidableEq (Exchange OaOrgUsageResponse))

instance : (call : Call) → DecidableEq (Result call)
  | .processRequest _ => inferInstanceAs (DecidableEq RequestResponseV2)
  | .issueOpenRouterLease _ => inferInstanceAs (DecidableEq IssuedOpenRouterLease)
  | .settleDueOpenRouterLeases => inferInstanceAs (DecidableEq Unit)
  | .retireOpenRouterLease _ _ =>
      inferInstanceAs (DecidableEq OpenRouterLeaseStatusResponse)
  | .processClearance _ => inferInstanceAs (DecidableEq ClearanceResponseV2)
  | .recoverByClientId _ | .recoverByNullifier _ =>
      inferInstanceAs (DecidableEq RecoveryResponseV2)
  | .openrouterLeaseStatus _ =>
      inferInstanceAs (DecidableEq (Option OpenRouterLeaseStatusResponse))

instance (P : Protocol) : DecidableEq (Event (server P)) :=
  instDecidableEqEvent

end Equality

section Frames

variable {P : Protocol} {task : Nat} {op : Op} {answer : Answer} {world after : World}
  {response : Resp op}

/-- The parts of the world that an operation outside the store can change. -/
theorem executeOutside_eq (executed : executeOutside task op answer world =
    some (response, after)) :
    after = { world with
      issueLock := after.issueLock
      settlementLock := after.settlementLock
      keys := after.keys } := by
  cases op with
  | currentRoot =>
      cases executed
      rfl
  | currentTimestamp =>
      cases executed
      rfl
  | lockIssue =>
      obtain ⟨_, same⟩ := Option.ite_none_right_eq_some.mp executed
      cases Option.some.inj same
      rfl
  | lockSettlement =>
      obtain ⟨_, same⟩ := Option.ite_none_right_eq_some.mp executed
      cases Option.some.inj same
      rfl
  | openrouterUsage hash =>
      cases answer with
      | usage reply =>
          obtain ⟨_, same⟩ := Option.ite_none_right_eq_some.mp executed
          cases Option.some.inj same
          rfl
      | _ => cases executed
  | _ => cases answer <;> cases executed <;> rfl

/-- An operation is a statement of the store, or leaves the store alone. -/
theorem execute_cases (executed : execute P task op answer world = some (response, after)) :
    (∃ outcome, storeStatement P world.now world.store op = some outcome ∧
      outcome.1 = response ∧ after = { world with store := outcome.2 }) ∨
    (storeStatement P world.now world.store op = none ∧
      executeOutside task op answer world = some (response, after)) := by
  unfold execute at executed
  split at executed
  · rename_i outcome found
    cases Option.some.inj executed
    exact Or.inl ⟨outcome, found, rfl, rfl⟩
  · exact Or.inr ⟨‹_›, executed⟩

theorem execute_config (executed : execute P task op answer world = some (response, after)) :
    after.config = world.config := by
  rcases execute_cases executed with ⟨outcome, _, _, rfl⟩ | ⟨_, outside⟩
  · rfl
  · rw [executeOutside_eq outside]

theorem execute_lookupByNullifier {nullifier : Felt252}
    {response : Option TranscriptRecord}
    (executed : execute P task (.lookupByNullifier nullifier) answer world =
      some (response, after)) :
    world.store.lookupByNullifier P nullifier = response ∧ after = world := by
  obtain ⟨same, rfl⟩ := Prod.mk.inj (Option.some.inj executed)
  exact ⟨same, rfl⟩

theorem execute_lookupByClientId {clientRequestId : String}
    {response : Option TranscriptRecord}
    (executed : execute P task (.lookupByClientId clientRequestId) answer world =
      some (response, after)) :
    world.store.lookupByClientId P clientRequestId = response ∧ after = world := by
  obtain ⟨same, rfl⟩ := Prod.mk.inj (Option.some.inj executed)
  exact ⟨same, rfl⟩

theorem execute_lookupLease {clientRequestId : String}
    {response : Option OpenRouterLeaseRecord}
    (executed : execute P task (.lookupLease clientRequestId) answer world =
      some (response, after)) :
    world.store.lookupOpenRouterLease P clientRequestId = response ∧ after = world := by
  obtain ⟨same, rfl⟩ := Prod.mk.inj (Option.some.inj executed)
  exact ⟨same, rfl⟩

theorem execute_dueLeases {now : UInt64} {response : List OpenRouterLeaseRecord}
    (executed : execute P task (.dueLeases now) answer world = some (response, after)) :
    world.store.dueOpenRouterLeases P now = response ∧ after = world := by
  obtain ⟨same, rfl⟩ := Prod.mk.inj (Option.some.inj executed)
  exact ⟨same, rfl⟩

/-- What a restart leaves of the world. -/
theorem reboot_eq {change : Reboot} (rebooted : reboot P world change = some after) :
    after = { world with
      config := change.config
      root := change.root
      store := world.store.backfillOpenRouterRequestBindings P
      issueLock := none
      settlementLock := none } ∧ tryNew P change.config = .ok () := by
  unfold reboot at rebooted
  split at rebooted
  · cases rebooted
  · exact ⟨(Option.some.inj rebooted).symm, ‹_›⟩

theorem move_eq {change : Move} (moved : move world change = some after) :
    after = { world with root := after.root, now := after.now, keys := after.keys } := by
  cases change with
  | updateRoot root =>
      cases moved
      rfl
  | setClock now =>
      cases moved
      rfl
  | useKey hash usage =>
      simp only [move] at moved
      split at moved
      · cases moved
      · obtain ⟨_, same⟩ := Option.ite_none_right_eq_some.mp moved
        cases Option.some.inj same
        rfl

end Frames

end ZkApi
