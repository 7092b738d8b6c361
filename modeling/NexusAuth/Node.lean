import NexusAuth.Lib.Interaction
import NexusAuth.Protocol
import NexusAuth.Raft.StateMachine
import NexusAuth.Records

/-!
# What a node asks its surroundings

Handlers and publishing rounds run as tasks next to each other.  Each is a program
that asks one question at every point where it reads or changes something it shares
with the rest of the process (`AuthContext`, the connections, the Raft runtime) or
waits for another machine.
-/

namespace NexusAuth

open NexusAuth.Authority NexusAuth.Lib.Interaction NexusAuth.Raft

structure PublishStatus where
  lastPublishEpoch : Option Nat
  lastPublishOk : Bool
  lastPublishError : Option String
  lastPublishAt : Option Nat
deriving DecidableEq

def PublishStatus.default : PublishStatus := ⟨none, false, none, none⟩

inductive PublishRecord
  | success (epoch : Nat) (at_ : Nat)
  | failure (epoch : Option Nat) (error : String) (at_ : Nat)
deriving DecidableEq

structure AdminProposal where
  result : PolicyResult
  raftIndex : Nat
deriving DecidableEq

inductive NodeCall
  /-- `PublisherHandle::is_empty`. -/
  | isEmpty
  /-- The ids of the registered connections. -/
  | connections
  | addKey (conn : Nat) (key : String) (value : Bytes)
  | status
  | record (entry : PublishRecord)
  /-- `now_unix`. -/
  | now
  /-- The seed of the authority in memory. -/
  | authoritySeed
  /-- `admin_raft` is installed. -/
  | adminRaft
  | isLeader
  | policySnapshot
  | propose (command : PolicyCommand)
  | bumpIndexVersion
  | storeSnapshot
deriving DecidableEq

@[reducible] def NodeAnswer : NodeCall → Type
  | .isEmpty => Bool
  | .connections => List Nat
  | .addKey _ _ _ => Except SidecarError AddKeyResult
  | .status => PublishStatus
  | .record _ => Unit
  | .now => Nat
  | .authoritySeed => Option Bytes
  | .adminRaft => Bool
  | .isLeader => Bool
  | .policySnapshot => PolicyState
  | .propose _ => Except String AdminProposal
  | .bumpIndexVersion => Nat
  | .storeSnapshot => StoreSnapshot

abbrev NodeM := Prog NodeCall NodeAnswer

abbrev NodeEvent := Event NodeCall NodeAnswer

abbrev ask (question : NodeCall) : NodeM (NodeAnswer question) := request question

/-- The fixed part of `AuthContext`. -/
structure Context where
  crypto : Crypto
  network : String
  raftRequired : Bool
  expiresSecs : Nat

/-- `AuthContext::authority`: a signer made from the seed in memory. -/
def Context.authority (ctx : Context) : NodeM (Option Signer) := do
  match ← ask .authoritySeed with
  | none => pure none
  | some seed => pure (Signer.fromSeed seed ctx.network).toOption

/-! ## An instance -/

/-- A ready leader with an empty policy and no connections, whose calls fail. -/
def idle : Oracle NodeCall NodeAnswer
  | _, .isEmpty => true
  | _, .connections => []
  | _, .addKey _ _ _ => .error (.new "" "")
  | _, .status => .default
  | _, .record _ => ()
  | _, .now => 0
  | _, .authoritySeed => some []
  | _, .adminRaft => true
  | _, .isLeader => true
  | _, .policySnapshot => .new "net"
  | _, .propose _ => .error ""
  | _, .bumpIndexVersion => 0
  | _, .storeSnapshot => ⟨"net", 0, ∅, ∅⟩

def sampleContext : Context := ⟨sampleCrypto, "net", true, 60⟩

end NexusAuth
