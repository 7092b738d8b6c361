import NexusAuth.Lib.Results
import NexusAuth.Raft.Runtime
import NexusAuth.Raft.Transport

/-!
# Starting the Raft runtime

The part of `RaftRuntime::start` (`raft/mod.rs`) that fills the table of member keys, and
`raft/bootstrap.rs`, which makes the first membership.  The table gets the configured
members, this node and the members that the state machine has persisted, and is then
replaced by the membership that the metrics show.

openraft shows the persisted membership after a restart; the log has none beyond it.
-/

namespace NexusAuth.Raft

open NexusAuth.Authority NexusAuth.Lib.OrderedMap NexusAuth.Lib.Results

structure ClusterMemberConfig where
  peerId : String
  identityKey : String
deriving DecidableEq

/-- The fields of `ClusterConfig` that decide about the members. -/
structure ClusterConfig where
  clusterId : String
  bootstrap : Bool
  voters : List ClusterMemberConfig
  learners : List ClusterMemberConfig
deriving DecidableEq

inductive BootstrapError
  | raft (error : String)
  | member (error : String)
deriving DecidableEq

def BootstrapError.text : BootstrapError → String
  | .raft e => "raft bootstrap error: " ++ e
  | .member e => "bad cluster member config: " ++ e

inductive RaftInitError
  | transport (error : TransportError)
  | config (error : String)
  | bootstrap (error : String)
deriving DecidableEq

/-! ## The table of keys -/

section Table

variable (crypto : Crypto)

/-- The loop over the configured members. -/
def addConfigured (verifier : RpcVerifier) (memberIds : BTreeSet NodeId) :
    List ClusterMemberConfig → Except RaftInitError (RpcVerifier × BTreeSet NodeId)
  | [] => .ok (verifier, memberIds)
  | member :: rest => do
      ensure (.config "cluster member missing peer_id") (!member.peerId.isEmpty)
      let memberId := nodeIdFromPeerId crypto.toPrimitives member.peerId
      ensure (.config ("duplicate node_id " ++ toString memberId ++
        " derived from configured peer_id")) (!memberIds.contains memberId)
      let verifier ← (verifier.addNode crypto memberId member.identityKey).mapError .transport
      addConfigured verifier (memberIds.insert memberId) rest

/-- The loop over the persisted members. -/
def addPersisted (verifier : RpcVerifier) :
    List (NodeId × RaftNode) → Except RaftInitError RpcVerifier
  | [] => .ok verifier
  | (id, node) :: rest => do
      let verifier ← (verifier.addNode crypto id node.identityKey).mapError .transport
      addPersisted verifier rest

variable (cluster : ClusterConfig) (whoami : String) (localNode : RaftNode)

/-- The table before openraft runs. -/
def initialVerifier (persisted : List (NodeId × RaftNode)) :
    Except RaftInitError RpcVerifier := do
  let nodeId := nodeIdFromPeerId crypto.toPrimitives whoami
  let members := cluster.voters ++ cluster.learners
  let (verifier, memberIds) ← addConfigured crypto (.new cluster.clusterId nodeId) ∅ members
  ensure (.config "local node_id collides with a configured member")
    (!(memberIds.contains nodeId && !members.any fun member => member.peerId == whoami))
  let verifier ← (verifier.addNode crypto nodeId localNode.identityKey).mapError .transport
  addPersisted crypto verifier persisted

/-- `refresh_verifier_from_metrics`, when the metrics show `m`. -/
def RpcVerifier.refreshed (verifier : RpcVerifier) (m : Members) : RpcVerifier :=
  let nodes := m.nodes.toList.map fun (id, node) => (id, node.identityKey)
  if nodes.isEmpty then verifier else (verifier.replaceNodes crypto nodes).toOption.getD verifier

/-! ## The first membership -/

/-- The loop of `members_from_config`; a derived id is never 0. -/
def membersFromConfig (prim : Primitives) (map : BTreeMap NodeId RaftNode) :
    List ClusterMemberConfig → Except BootstrapError (BTreeMap NodeId RaftNode)
  | [] => .ok map
  | member :: rest => do
      ensure (.member "missing peer_id") (!member.peerId.isEmpty)
      let nodeId := nodeIdFromPeerId prim member.peerId
      ensure (.member "derived node_id must be non-zero") (nodeId ≠ 0)
      ensure (.member ("node " ++ toString nodeId ++ " missing identity_key"))
        (!member.identityKey.isEmpty)
      ensure (.member ("duplicate node_id " ++ toString nodeId ++ " derived from peer_id"))
        (!map.contains nodeId)
      membersFromConfig prim (map.insert nodeId ⟨member.peerId, member.identityKey, ""⟩) rest

/-- The voters that `bootstrap_if_enabled` initializes the cluster with. -/
def bootstrapVoters : Except BootstrapError (BTreeMap NodeId RaftNode) := do
  let voters ← membersFromConfig crypto.toPrimitives ∅ cluster.voters
  return voters.insertIfNew (nodeIdFromPeerId crypto.toPrimitives whoami) localNode

def Members.initialize (nodes : BTreeMap NodeId RaftNode) : Members where
  voters := .ofList nodes.keys compare
  nodes := nodes
  voters_known := fun id h => by
    rw [Std.ExtTreeSet.mem_ofList, List.contains_iff_mem, Std.ExtTreeMap.mem_keys] at h
    exact h

def membersAtStart (persisted : Members) : Except RaftInitError Members :=
  if cluster.bootstrap && persisted.nodes.isEmpty then
    (bootstrapVoters crypto cluster whoami localNode).map Members.initialize |>.mapError
      fun e => .bootstrap e.text
  else .ok persisted

def startRuntime (persisted : Members) : Except RaftInitError (Members × RpcVerifier) := do
  let verifier ← initialVerifier crypto cluster whoami localNode persisted.nodes.toList
  let members ← membersAtStart crypto cluster whoami localNode persisted
  return (members, verifier.refreshed crypto members)

end Table

end NexusAuth.Raft
