import NexusAuth.Node
import NexusAuth.Publisher.Model
import NexusAuth.Service.Wire

/-!
# What a request handler asks

The questions of `service.rs`, next to those of the node itself: the Raft runtime and
the seeds, the nonces of administrators, other sidecars, the audit log, and in the
legacy mode the store and the authenticators with their nonces.
-/

namespace NexusAuth.Service

open NexusAuth.Lib.Interaction NexusAuth.Lib.Results NexusAuth.Raft

inductive LogLevel
  | preset
  | warning
deriving DecidableEq

structure AdminAudit where
  kid : String
  requestId : String
  op : String
  service : String
  result : String
  policyEpoch : Option Nat
  raftIndex : Option Nat
  leader : Option String
  edgePeer : Option String
deriving DecidableEq

inductive ServiceCall
  | node (call : NodeCall)
  /-- `ctx.raft` is installed. -/
  | runtime
  | leaderPeer
  | leaderId
  | term
  | appliedIndex
  | stale
  | statusSnapshot
  | membershipView
  | addLearnerNode (id : NodeId) (node : RaftNode)
  | promoteVoter (id : NodeId)
  | demoteVoter (id : NodeId)
  | removeMember (id : NodeId)
  | deliverSeed (target : NodeId)
  | dropRemoteSeed (target : NodeId)
  /-- `remove_seed_file` of this node. -/
  | removeSeedFile
  | clearAuthority
  | handleRpc (payload : Bytes)
  | acceptSeed (envelope : SeedEnvelope)
  | acceptSeedDrop (request : SeedDropRequest)
  /-- `check_and_insert` of the administrators' replay guard. -/
  | checkNonce (nonce : String)
  /-- `whoami` of the forwarder. -/
  | whoami
  /-- `service_request_to` the sidecar service of a peer. -/
  | serviceRequestTo (peer : String) (payload : Bytes)
  | audit (level : LogLevel) (entry : AdminAudit)
  | notifyPublish
  | uptimeSecs
  /-- A change of the legacy store, and the store after it, under one lock. -/
  | changeStore (op : Store.Op)
  /-- `spawn_broadcast`. -/
  | broadcast (update : Update)
  | verifyManagement (req : ManagementRequest) (now : Nat)
  | verifyReplicate (msg : ReplicateMsg) (now : Nat)
  | verifySyncRequest (req : SyncRequest) (now : Nat)
  | signSyncResponse (network nonce : String) (snapshot : StoreSnapshot) (ts : Nat)
  /-- `JoinServer::respond`. -/
  | respondJoin (network : String) (req : PasswordJoinRequest) (now : Nat) (seed : Bytes)
      (state : StoreSnapshot)

@[reducible] def ServiceAnswer : ServiceCall → Type
  | .node call => NodeAnswer call
  | .runtime => Bool
  | .leaderPeer => Option String
  | .leaderId => Option NodeId
  | .term => Nat
  | .appliedIndex => Option Nat
  | .stale => Bool
  | .statusSnapshot => RaftStatusSnapshot
  | .membershipView => MembershipView
  | .addLearnerNode _ _ => Except String MemberInfo
  | .promoteVoter _ => Except String Unit
  | .demoteVoter _ => Except String Unit
  | .removeMember _ => Except String Unit
  | .deliverSeed _ => Except String Unit
  | .dropRemoteSeed _ => Except String Unit
  | .removeSeedFile => Except SeedError Unit
  | .clearAuthority => Unit
  | .handleRpc _ => Except SidecarError Bytes
  | .acceptSeed _ => Except String Unit
  | .acceptSeedDrop _ => Except String Unit
  | .checkNonce _ => Except ReplayError Unit
  | .whoami => Except SidecarError String
  | .serviceRequestTo _ _ => Except SidecarError Bytes
  | .audit _ _ => Unit
  | .notifyPublish => Unit
  | .uptimeSecs => Nat
  | .changeStore _ => Except StoreError (Store.Reply × StoreSnapshot)
  | .broadcast _ => Unit
  | .verifyManagement _ _ => Except AdminError Unit
  | .verifyReplicate _ _ => Except RepError Unit
  | .verifySyncRequest _ _ => Except RepError Unit
  | .signSyncResponse _ _ _ _ => Except RepError String
  | .respondJoin _ _ _ _ _ => Except PasswordJoinError PasswordJoinResponse

abbrev ServiceM := Prog ServiceCall ServiceAnswer

abbrev ServiceEvent := Event ServiceCall ServiceAnswer

abbrev HandlerM := ExceptT SidecarError ServiceM

abbrev pose (question : ServiceCall) : ServiceM (ServiceAnswer question) := request question

abbrev consult (question : ServiceCall) : HandlerM (ServiceAnswer question) := query question

abbrev consultOr {ε α : Type} (f : ε → SidecarError) (p : ServiceM (Except ε α)) : HandlerM α :=
  attempt f p

def onNode {α : Type} : NodeM α → ServiceM α
  | .done a => .done a
  | .ask question next => .ask (.node question) fun answer => onNode (next answer)

/-- `AuthContext` and the fixed part of `RaftRuntime`. -/
structure ServiceContext extends Context where
  wire : Wire
  renewSecs : Nat
  adminKeys : AdminVerifier
  allowJoin : Bool
  clusterId : String
  nodeId : NodeId
  peerId : String
  /-- The Ed25519 seed of the node's identity. -/
  identity : Bytes

namespace ServiceContext

variable (ctx : ServiceContext)

/-- `AuthContext::authority_public_key_b64`. -/
def authorityPublicKey : HandlerM (Option String) := do
  let seed ← consult (.node .authoritySeed)
  return seed.map fun seed => ctx.crypto.base64 (ctx.crypto.edPublic seed)

/-- `AdminVerifier::verify` at the current time. -/
def verifyAdmin (req : AdminRequestV2) : ServiceM (Except AdminV2Error VerifiedAdmin) := do
  let now ← pose (.node .now)
  match ctx.adminKeys.authenticate ctx.crypto req now with
  | .error e => return .error e
  | .ok (role, signedBytes) =>
      match ← pose (.checkNonce req.nonce) with
      | .error e => return .error (AdminVerifier.replayError e)
      | .ok () =>
          return (req.requestHash ctx.crypto).map fun hash => ⟨req.kid, role, hash, signedBytes⟩

end ServiceContext

/-! ## Parts of many handlers -/

def badRequest (message : String) : SidecarError := .new "bad_request" message

/-- `serde_json::from_value`, with the text for requests that do not have the structure. -/
def parsed {α : Type} (text : String) (result : Except String α) : HandlerM α :=
  fallible (result.mapError fun e => badRequest (text ++ e))

def raftRuntime : HandlerM Unit := do
  let ready ← consult .runtime
  fallible (ensure (.new "raft_not_ready" "Raft 控制面尚未就绪") ready)

def adminRaft : HandlerM Unit := do
  let ready ← consult (.node .adminRaft)
  fallible (ensure (.new "raft_not_ready" "Raft 控制面尚未就绪，拒绝管理请求（fail-closed）") ready)

def adminV2Error (e : AdminV2Error) : SidecarError := .new e.code e.text

/-- The lower-case forms of the two texts have only ASCII letters. -/
def mapAdminApplyError (e : String) : SidecarError :=
  let lower := e.toLower.toList
  if "forwardtoleader".toList <:+: lower ∨ "not leader".toList <:+: lower then .new "not_leader" e
  else .new "apply_timeout" e

def AdminRequestV2.audit (req : AdminRequestV2) (result : String) : AdminAudit where
  kid := req.kid
  requestId := req.requestId
  op := req.op
  service := req.service
  result := result
  policyEpoch := none
  raftIndex := none
  leader := none
  edgePeer := none

def auditAdmin (level : LogLevel) (entry : AdminAudit) : HandlerM Unit :=
  consult (.audit level entry)

def auditMember (req : AdminRequestV2) (op target result : String) (policyEpoch : Nat)
    (edgePeer : Option String) : HandlerM Unit := do
  let applied ← consult .appliedIndex
  let leader ← consult .leaderPeer
  auditAdmin .preset {
    kid := req.kid
    requestId := req.requestId
    op := op
    service := target
    result := result
    policyEpoch := some policyEpoch
    raftIndex := applied
    leader := leader
    edgePeer := edgePeer }

end NexusAuth.Service
