import NexusAuth.Store.Model

/-!
# Commands and results of the Raft control plane

The part of `raft/types.rs` that crosses the replication boundary: the commands in
the log, their results, and join tokens.
-/

namespace NexusAuth.Raft

abbrev NodeId := Nat

structure RaftNode where
  peerId : String
  identityKey : String
  x25519Key : String
deriving DecidableEq

structure JoinToken where
  v : UInt8
  jti : String
  clusterId : String
  network : String
  audience : String
  expiresAt : Nat
  maxUses : UInt32
  bindPeerId : String
  kid : String
  sig : String
deriving DecidableEq

structure StoredJoinToken where
  token : JoinToken
  uses : UInt32
deriving DecidableEq

inductive PolicyCommand
  | createService (service : String) (members : List String)
  | deleteService (service : String)
  | addMembers (service : String) (peers : List String)
  | removeMembers (service : String) (peers : List String)
  | setMembers (service : String) (peers : List String)
  | admin (requestId kid requestHash : String) (requestTs : Nat) (command : PolicyCommand)
  | renewIndex (expiresAt : Nat)
  | issueJoinToken (token : JoinToken)
  | consumeJoinToken (jti : String) (nodeId : NodeId) (peerId : String) (usedAt : Nat)
deriving DecidableEq

inductive AdminOutcome
  | applied (service : Option String) (version : Option Nat) (changed : Bool)
  | rejected (code message : String)
deriving DecidableEq

inductive PolicyResult
  | applied (service : Option String) (version : Option Nat) (policyEpoch : Nat) (changed : Bool)
  | rejected (code message : String) (policyEpoch : Nat)
  | admin (requestId : String) (policyEpoch raftIndex : Nat) (duplicate : Bool)
      (outcome : AdminOutcome)
deriving DecidableEq

end NexusAuth.Raft
