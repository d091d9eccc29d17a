import ZkApi.BrowserLeases
import ZkApi.ReferenceWallet

/-!
# Sample runs of the browser wallet

One note, the requests that are proved for it and the actions of tabs that use it.
-/

namespace ZkApi.Browser.Reference

open Clientd Clientd.Reference

def leaseConfig : LeaseConfig :=
  ⟨5⟩

/-- A request that is proved with the budget of the sample runs. -/
def journal (clientRequestId : String) : RequestJournal :=
  ⟨⟨100⟩, leaseRequest clientRequestId ⟨100⟩⟩

def lease (clientRequestId : String) (settleAfter : Nat) : IssuedLease :=
  ⟨clientRequestId, "active", "key", settleAfter + 300, settleAfter, 5⟩

/-- The server has another root than the request. -/
def staleRoot : BrowserError :=
  .conflict "The note root is stale." "stale_root"

/-- A tab opens with an empty wallet and deposits a note. -/
def funds : List Action :=
  [.opens "a", .enters 0 .startUp, .changes 0 (.deposits (some ⟨7, 50, ⟨100⟩⟩)) false false,
    .changes 0 (.confirms note) false false]

/-- A tab asks for a lease. -/
def asks (tab now : Nat) : List Action :=
  [.ensures tab "s" 5, .resumes tab (.ensureReloads "s" 5 now)]

/-- A tab with the lock proves a new request and sends it. -/
def proves (tab : Nat) (clientRequestId : String) : List Action :=
  [.enters tab (.issuesLease "s" 5), .replies (.path true),
    .replies (.prepared (journal clientRequestId)), .replies .plain]

/-- The lease of the request that was sent is issued. -/
def issues (clientRequestId : String) (settleAfter : Nat) : List Action :=
  [.replies (.lease (lease clientRequestId settleAfter)), .replies .plain]

end ZkApi.Browser.Reference
