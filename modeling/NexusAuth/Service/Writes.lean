import NexusAuth.Service.Members

/-!
# Administrators in Raft mode

`handle_admin_v2` and what it calls: a request is verified, its operation is classified
as a read or a write, reads are answered from the local state, and writes of root run on
the leader or are forwarded to it.  The leader verifies a forwarded request again.
-/

namespace NexusAuth.Service

open NexusAuth.Authority NexusAuth.Lib.Interaction NexusAuth.Lib.Results NexusAuth.Publisher
open NexusAuth.Raft

/-! ## Classification of operations -/

inductive AdminOpClass
  | read
  | write
  | unknown
deriving DecidableEq

def isMutatingOp (op : String) : Bool :=
  op == "add_members" || op == "remove_members" || op == "set_members" ||
    op == "create_service" || op == "delete_service"

def classifyAdminOp (op : String) : AdminOpClass :=
  match op with
  | "status" | "export_authority_pubkey" | "list_services" | "list_members" => .read
  | "publish_now" => .write
  | other => if isMutatingOp other then .write else .unknown

def requireServiceV2 (req : AdminRequestV2) : Except SidecarError String := do
  ensure (badRequest "缺少 'service' 字段") (!req.service.isEmpty)
  return req.service

def policyCommandFor (req : AdminRequestV2) : Except SidecarError PolicyCommand := do
  let service ← requireServiceV2 req
  let peers := canonicalPeers req.peers
  match req.op with
  | "add_members" => return .addMembers service peers
  | "remove_members" => return .removeMembers service peers
  | "set_members" => return .setMembers service peers
  | "create_service" => return .createService service peers
  | "delete_service" => return .deleteService service
  | other => .error (.new "unknown_op" ("未知写指令: " ++ other))

/-! ## Writes -/

def publishError (code : String) (error : PublishError) (policyEpoch : Nat) : SidecarError :=
  (SidecarError.new code
    ("policy_epoch=" ++ toString policyEpoch ++ " publish_error=" ++
      error.message)).withPublishError
    error.message

section Writes

variable (ctx : ServiceContext) (req : AdminRequestV2)

def publishNow (renew : Bool) : HandlerM (Except PublishError PublishOutcome) :=
  ExceptT.lift (onNode (publishOnce ctx.toContext renew))

def executePublishNow (leader edgePeer : Option String) : HandlerM Bytes := do
  let outcome ← publishNow ctx true
  let state ← consult (.node .policySnapshot)
  let applied ← consult .appliedIndex
  let entry := fun result => { AdminRequestV2.audit req result with
    policyEpoch := some state.policyEpoch, raftIndex := applied, leader := leader,
    edgePeer := edgePeer }
  match outcome with
  | .ok .notLeader =>
      fallible (.error (.new "not_leader" "本节点已不是 leader，放弃 publish_now"))
  | .ok outcome =>
      auditAdmin .preset (entry "ok")
      return ctx.wire.encode (.obj [
        ("published", .bool (match outcome with
          | .published _ => true
          | _ => false)),
        ("policy_epoch", .num state.policyEpoch), ("raft_index", .option .num applied),
        ("request_id", .str req.requestId)])
  | .error e =>
      auditAdmin .warning (entry "publish_failed")
      fallible (.error (publishError "publish_failed" e state.policyEpoch))

/-- The round after a committed change; it has to be published for the write to succeed. -/
def publishChange (entry : String → AdminAudit) (policyEpoch : Nat) : HandlerM Unit := do
  match ← publishNow ctx false with
  | .ok .notLeader =>
      auditAdmin .warning (entry "publish_not_leader")
      fallible (.error ((SidecarError.new "committed_but_publish_failed"
        "状态已提交，但发布前已失去 leadership").withPublishError "not_leader"))
  | .ok _ => return ()
  | .error e =>
      auditAdmin .warning (entry "committed_but_publish_failed")
      fallible (.error (publishError "committed_but_publish_failed" e policyEpoch))

def concludeWrite (leader edgePeer : Option String) (proposal : AdminProposal) : HandlerM Bytes :=
  match proposal.result with
  | .admin requestId policyEpoch raftIndex duplicate outcome => do
      -- a repeated request is answered with the index of the first one
      let index := if duplicate then raftIndex else proposal.raftIndex
      let entry := fun result => { AdminRequestV2.audit req result with
        policyEpoch := some policyEpoch, raftIndex := some index, leader := leader,
        edgePeer := edgePeer }
      match outcome with
      | .applied service version changed =>
          if changed then
            publishChange ctx entry policyEpoch
          auditAdmin .preset (entry "ok")
          return ctx.wire.encode (.obj [("request_id", .str requestId),
            ("service", .option .str service), ("version", .option .num version),
            ("changed", .bool changed), ("policy_epoch", .num policyEpoch),
            ("raft_index", .num index), ("duplicate", .bool duplicate)])
      | .rejected code message =>
          auditAdmin .warning (entry "rejected")
          fallible (.error (.new code message))
  | other => fallible (.error (.new "raft_unexpected_result"
      ("非管理员 apply 结果: " ++ ctx.wire.debugResult other)))

def executePolicyWrite (verified : VerifiedAdmin) (leader edgePeer : Option String) :
    HandlerM Bytes := do
  let command ← fallible (policyCommandFor req)
  let proposal ← consultOr mapAdminApplyError (pose (.node (.propose
    (.admin req.requestId req.kid verified.requestHash req.ts command))))
  concludeWrite ctx req leader edgePeer proposal

def executeRootWrite (verified : VerifiedAdmin) (edgePeer : Option String) : HandlerM Bytes := do
  let leader ← consult .leaderPeer
  if isMemberManagementOp req.op then
    executeMemberWrite ctx req edgePeer verified
  else if req.op == "publish_now" then
    executePublishNow ctx req leader edgePeer
  else
    executePolicyWrite ctx req verified leader edgePeer

/-- A node that does not lead sends the raw request on to the leader. -/
def forwardWrite (raw : Bytes) (forwarder : Bool) (edgePeer : Option String) : HandlerM Bytes := do
  match ← consult .leaderPeer with
  | none =>
      auditAdmin .warning { AdminRequestV2.audit req "no_leader" with edgePeer := edgePeer }
      fallible (.error (.new "no_leader" "当前没有已知的 Raft leader"))
  | some leader =>
      fallible (ensure (.new "not_leader" "本节点不是 leader 且没有可用的转发连接") forwarder)
      let me ← consult .whoami
      let edge := me.toOption.getD ""
      let payload ← parsed "转发信封编码失败: " (ctx.wire.encodeForwarded {
        op := forwardedAdminOp
        v := forwardedAdminVersion
        requestB64 := ctx.crypto.base64 raw
        edgePeer := edge
        edgeSig := "" })
      auditAdmin .preset { AdminRequestV2.audit req "forwarded" with
        leader := some leader, edgePeer := some edge }
      consultOr (fun e => .new e.code e.message) (pose (.serviceRequestTo leader payload))

def handleRootWrite (raw : Bytes) (verified : VerifiedAdmin) (forwarder : Bool)
    (edgePeer : Option String) : HandlerM Bytes := do
  adminRaft
  if ← consult (.node .isLeader) then
    executeRootWrite ctx req verified edgePeer
  else
    forwardWrite ctx req raw forwarder edgePeer

/-! ## Reads -/

def withRaftMeta (value : Json) (policyEpoch : Nat) (applied : Option Nat) (leader : Option String)
    (term : Nat) (stale : Bool) : Json :=
  ((((value.insert "policy_epoch" (.num policyEpoch)).insert "applied_index"
    (.option .num applied)).insert "leader" (.option .str leader)).insert "term"
    (.num term)).insert "stale" (.bool stale)

def withRaftStatus (value : Json) (policyEpoch : Nat) (snapshot : RaftStatusSnapshot) : Json :=
  [("policy_epoch", .num policyEpoch), ("cluster_id", .str snapshot.clusterId),
    ("node_id", .num snapshot.nodeId), ("leader", .option .str snapshot.leader),
    ("term", .num snapshot.term), ("state", .str snapshot.state),
    ("applied_index", .option .num snapshot.appliedIndex),
    ("last_log_index", .option .num snapshot.lastLogIndex),
    ("voters", .arr (snapshot.voters.map statusMemberJson)),
    ("learners", .arr (snapshot.learners.map statusMemberJson)), ("stale", .bool snapshot.stale),
    ("health", .str snapshot.health)].foldl (fun value field => value.insert field.1 field.2) value

def adminStatus (state : PolicyState) : HandlerM Json := do
  let publish ← consult (.node .status)
  let snapshot ← consult .statusSnapshot
  let publicKey ← ctx.authorityPublicKey
  -- each `has_authority_seed` takes the lock anew
  let hasSeed ← consult (.node .authoritySeed)
  let seedPresent ← consult (.node .authoritySeed)
  let connections ← consult (.node .connections)
  let uptime ← consult .uptimeSecs
  return withRaftStatus (.obj [("network", .str ctx.network),
    ("authority_public_key", .option .str publicKey),
    ("has_authority_seed", .bool hasSeed.isSome),
    ("authority_seed_present", .bool seedPresent.isSome),
    ("index_version", .num state.policyEpoch),
    ("services", .obj (state.services.toList.map fun (name, service) =>
      (name, .obj [("version", .num service.version), ("members", .num service.members.size)]))),
    ("expires_secs", .num ctx.expiresSecs), ("renew_secs", .num ctx.renewSecs),
    ("connections", .num connections.length), ("uptime_secs", .num uptime),
    ("last_publish_epoch", .option .num publish.lastPublishEpoch),
    ("last_publish_ok", .bool publish.lastPublishOk),
    ("last_publish_error", .option .str publish.lastPublishError),
    ("last_publish_at", .option .num publish.lastPublishAt)]) state.policyEpoch snapshot

def serviceMembers (state : PolicyState) : Except SidecarError Json := do
  let service ← requireServiceV2 req
  let entry ← okOr (.new "not_found" ("服务不存在: " ++ service)) state.services[service]?
  return .obj [("service", .str service), ("version", .num entry.version),
    ("members", .strs entry.members.toList)]

def handleAdminRead : HandlerM Bytes := do
  adminRaft
  let state ← consult (.node .policySnapshot)
  let applied ← consult .appliedIndex
  let leader ← consult .leaderPeer
  let term ← consult .term
  let stale ← consult .stale
  let described := fun value => withRaftMeta value state.policyEpoch applied leader term stale
  let finish := fun (value : Json) => do
    auditAdmin .preset { AdminRequestV2.audit req "ok" with
      policyEpoch := some state.policyEpoch, raftIndex := applied, leader := leader }
    return ctx.wire.encode value
  match req.op with
  | "status" =>
      let value ← adminStatus ctx state
      finish value
  | "export_authority_pubkey" =>
      let publicKey ← ctx.authorityPublicKey
      let publicKey ← fallible (okOr (.new "no_authority_seed" "learner 不持有 authority seed")
        publicKey)
      finish (described (.obj [("network", .str ctx.network), ("public_key", .str publicKey)]))
  | "list_services" => finish (described (.obj [("services", .strs state.services.keys)]))
  | "list_members" =>
      if req.service.isEmpty then
        -- the members of the cluster; this branch returns without an audit entry
        raftRuntime
        let view ← consult .membershipView
        return ctx.wire.encode (described (.obj [
          ("voters", .arr (view.voters.map memberJson)),
          ("learners", .arr (view.learners.map memberJson)),
          ("leader", .option .num view.leader), ("term", .num view.term),
          ("cluster_id", .str ctx.clusterId)]))
      else
        let value ← fallible (serviceMembers req state)
        finish (described value)
  | other => fallible (.error (.new "unknown_op" ("未知指令: " ++ other)))

end Writes

/-! ## Entry points -/

section Entries

variable (ctx : ServiceContext)

def forbiddenRole : SidecarError := .new "forbidden_role" "viewer 管理员不能执行写操作"

/-- The leader verifies the raw request that another sidecar has forwarded. -/
def handleForwardedAdmin (raw : Bytes) : HandlerM Bytes := do
  let envelope ← parsed "转发信封解析失败: " (ctx.wire.forwardedAdmin raw)
  fallible (ensure (badRequest "非法的 forwarded_admin 信封")
    (envelope.op = forwardedAdminOp ∧ envelope.v = forwardedAdminVersion))
  adminRaft
  let leader ← consult (.node .isLeader)
  fallible (ensure (.new "not_leader" "forwarded_admin 只能由 leader 处理") leader)
  let bytes ← fallible (okOr (badRequest "request_b64 不是合法 base64")
    (ctx.crypto.unbase64 envelope.requestB64))
  let value ← parsed "原始请求解析失败: " (ctx.wire.parse bytes)
  let req ← parsed "管理员请求解析失败: " (ctx.wire.adminRequest value)
  let verified ← consultOr adminV2Error (ctx.verifyAdmin req)
  fallible (ensure forbiddenRole (verified.role = .root))
  fallible (ensure (badRequest "forwarded_admin 只接受写操作") (classifyAdminOp req.op = .write))
  executeRootWrite ctx req verified (some envelope.edgePeer)

/-- What a verified request of this sidecar's own client may do. -/
def handleVerified (raw : Bytes) (forwarder : Bool) (req : AdminRequestV2)
    (verified : VerifiedAdmin) : HandlerM Bytes :=
  match classifyAdminOp req.op with
  | .read => handleAdminRead ctx req
  | .write => do
      if verified.role = .root then
        handleRootWrite ctx req raw verified forwarder none
      else
        auditAdmin .warning (AdminRequestV2.audit req "forbidden_role")
        fallible (.error forbiddenRole)
  | .unknown => do
      auditAdmin .warning (AdminRequestV2.audit req "unknown_op")
      fallible (.error (.new "unknown_op" ("未知指令: " ++ req.op)))

def handleAdminV2 (raw : Bytes) (value : Json) (forwarder : Bool) : HandlerM Bytes := do
  if ((value.get "op").bind Json.asStr).getD "" == forwardedAdminOp then
    handleForwardedAdmin ctx raw
  else
    let req ← parsed "管理员请求解析失败: " (ctx.wire.adminRequest value)
    match ← (ExceptT.lift (ctx.verifyAdmin req) : HandlerM _) with
    | .ok verified => handleVerified ctx raw forwarder req verified
    | .error e =>
        auditAdmin .warning (AdminRequestV2.audit req e.code)
        fallible (.error (adminV2Error e))

end Entries

end NexusAuth.Service
