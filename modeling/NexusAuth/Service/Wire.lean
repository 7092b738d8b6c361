import NexusAuth.Legacy
import NexusAuth.Raft.Runtime
import NexusAuth.Raft.Seed
import NexusAuth.Raft.Token

/-!
# JSON on the wire

A payload is JSON.  Which bytes it has, and how `serde` reads the structures out of it,
is a parameter (`Wire`); the replies are built here with the field names of the source.
-/

namespace NexusAuth.Service

open NexusAuth.Raft

inductive Json
  | null
  | bool (b : Bool)
  | num (n : Nat)
  | str (s : String)
  | arr (items : List Json)
  | obj (fields : List (String × Json))

namespace Json

def option {α : Type} (item : α → Json) : Option α → Json
  | none => .null
  | some a => item a

def strs (items : List String) : Json := .arr (items.map .str)

def get (key : String) : Json → Option Json
  | .obj fields => (fields.find? fun field => field.1 == key).map Prod.snd
  | _ => none

def asStr : Json → Option String
  | .str s => some s
  | _ => none

/-- `Map::insert` on an object: an older value of the field is replaced. -/
def insert (key : String) (value : Json) : Json → Json
  | .obj fields => .obj ((fields.filter fun field => field.1 != key) ++ [(key, value)])
  | json => json

end Json

structure RaftJoinResponse where
  v : UInt8
  ok : Bool
  error : String
  clusterId : String
  network : String
  nodeId : NodeId
  peerId : String
  role : String
  term : Nat
  leader : Option NodeId
  policyEpoch : Nat
  members : List MemberInfo
deriving DecidableEq

/-- The codecs of `serde_json`, and `{:?}` of a result. -/
structure Wire where
  /-- `serde_json::from_slice` of a `Value`. -/
  parse : Bytes → Except String Json
  /-- The function `encode` of `service.rs`. -/
  encode : Json → Bytes
  adminRequest : Json → Except String AdminRequestV2
  raftJoin : Json → Except String RaftJoinRequest
  /-- The envelope in a `SeedDeliveryRequest`. -/
  seedDelivery : Json → Except String SeedEnvelope
  seedDrop : Json → Except String SeedDropRequest
  forwardedAdmin : Bytes → Except String ForwardedAdminEnvelope
  encodeForwarded : ForwardedAdminEnvelope → Except String Bytes
  encodeRaftJoin : RaftJoinRequest → Except String Bytes
  encodeJoinResponse : RaftJoinResponse → Except String Bytes
  encodeAck : SeedAck → Except String Bytes
  management : Json → Except String ManagementRequest
  replicate : Json → Except String ReplicateMsg
  syncRequest : Json → Except String SyncRequest
  syncResponse : SyncResponse → Json
  passwordJoin : Json → Except String PasswordJoinRequest
  passwordJoinResponse : PasswordJoinResponse → Json
  debugResult : PolicyResult → String

def memberJson (member : MemberInfo) : Json :=
  .obj [("node_id", .num member.nodeId), ("peer_id", .str member.peerId),
    ("identity_key", .str member.identityKey), ("x25519_key", .str member.x25519Key),
    ("voter", .bool member.voter)]

def statusMemberJson (member : RaftStatusMember) : Json :=
  .obj [("node_id", .num member.nodeId), ("peer_id", .str member.peerId),
    ("voter", .bool member.voter)]

def tokenJson (token : JoinToken) : Json :=
  .obj [("v", .num token.v.toNat), ("jti", .str token.jti), ("cluster_id", .str token.clusterId),
    ("network", .str token.network), ("audience", .str token.audience),
    ("expires_at", .num token.expiresAt), ("max_uses", .num token.maxUses.toNat),
    ("bind_peer_id", .str token.bindPeerId), ("kid", .str token.kid), ("sig", .str token.sig)]

end NexusAuth.Service
