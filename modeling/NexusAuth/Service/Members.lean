import NexusAuth.Service.Calls

/-!
# Members, tokens and seeds

The handlers of `service.rs` that reach the membership: the writes of root
administrators about members, the joins with a token, and the two seed messages of a
leader.
-/

namespace NexusAuth.Service

open NexusAuth.Authority NexusAuth.Lib.Interaction NexusAuth.Lib.Results NexusAuth.Raft

def isMemberManagementOp (op : String) : Bool :=
  op == "add_learner" || op == "promote_voter" || op == "demote_voter" || op == "remove_member" ||
    op == "issue_join_token"

def requireMember (req : AdminRequestV2) : Except SidecarError AdminMemberSpec :=
  okOr (badRequest "缺少 'member' 字段") req.member

def memberNodeId (prim : Primitives) (spec : AdminMemberSpec) : Except SidecarError NodeId := do
  ensure (badRequest "invalid peer_id") (isValidPeerId prim spec.peerId)
  let derived := nodeIdFromPeerId prim spec.peerId
  ensure (badRequest ("node_id " ++ toString spec.nodeId ++
    " does not match node_id_from_peer_id(" ++
    spec.peerId ++ ") = " ++ toString derived)) (spec.nodeId ≠ 0 ∧ spec.nodeId = derived)
  return derived

def nodeFromSpec (prim : Primitives) (spec : AdminMemberSpec) (requireIdentity : Bool) :
    Except SidecarError RaftNode := do
  let _ ← memberNodeId prim spec
  ensure (badRequest "identity_key is required") (!(requireIdentity && spec.identityKey.isEmpty))
  ensure (badRequest "x25519_key is required for later seed delivery")
    (!(requireIdentity && spec.x25519Key.isEmpty))
  return ⟨spec.peerId, spec.identityKey, spec.x25519Key⟩

section Writes

variable (ctx : ServiceContext) (req : AdminRequestV2) (edgePeer : Option String)

def memberTarget : HandlerM (AdminMemberSpec × NodeId) := do
  let spec ← fallible (requireMember req)
  let target ← fallible (memberNodeId ctx.crypto.toPrimitives spec)
  return (spec, target)

/-- The reply to a member operation: its own fields and where the cluster is. -/
def memberReply (fields : List (String × Json)) (policyEpoch : Nat) : HandlerM Bytes := do
  let applied ← consult .appliedIndex
  let term ← consult .term
  return ctx.wire.encode (.obj ([("request_id", .str req.requestId)] ++ fields ++
    [("policy_epoch", .num policyEpoch), ("raft_index", .option .num applied),
      ("term", .num term)]))

def addLearnerWrite : HandlerM Bytes := do
  let (spec, target) ← memberTarget ctx req
  let node ← fallible (nodeFromSpec ctx.crypto.toPrimitives spec true)
  let info ← consultOr (.new "add_learner_failed") (pose (.addLearnerNode target node))
  let state ← consult (.node .policySnapshot)
  auditMember req "add_learner" info.peerId "ok" state.policyEpoch edgePeer
  memberReply ctx req
    [("node_id", .num info.nodeId), ("peer_id", .str info.peerId), ("voter", .bool false)]
    state.policyEpoch

/-- What `promote_voter` requires of the entry of its target. -/
def promotable (target : NodeId) (view : MembershipView) : Except SidecarError MemberInfo := do
  let member ← okOr (.new "not_found" s!"node {target} is not a member") (view.find target)
  ensure (.new "already_voter" s!"node {target} is already a voter") (!member.voter)
  ensure (.new "missing_x25519_key" s!"node {target} has no X25519 exchange key")
    (!member.x25519Key.isEmpty)
  return member

/-- The seed goes to the learner before the vote; if the vote is refused it is taken back
and the outcome of that is ignored. -/
def deliverAndPromote (target : NodeId) : HandlerM Unit := do
  consultOr (.new "seed_delivery_failed") (pose (.deliverSeed target))
  match ← consult (.promoteVoter target) with
  | .ok () => return ()
  | .error e =>
      let _ ← consult (.dropRemoteSeed target)
      fallible (.error (.new "promote_voter_failed" e))

def promoteVoterWrite : HandlerM Bytes := do
  let (_, target) ← memberTarget ctx req
  let view ← consult .membershipView
  let member ← fallible (promotable target view)
  deliverAndPromote target
  let state ← consult (.node .policySnapshot)
  auditMember req "promote_voter" member.peerId "ok" state.policyEpoch edgePeer
  memberReply ctx req
    [("node_id", .num target), ("peer_id", .str member.peerId), ("voter", .bool true)]
    state.policyEpoch

/-- `remove_seed_file` and `clear_authority` of this node. -/
def dropOwnSeed : HandlerM Unit := do
  consultOr (fun e => .new "seed_remove_failed" e.text) (pose .removeSeedFile)
  consult .clearAuthority

def dropSeedOf (target : NodeId) : HandlerM Unit :=
  consultOr (.new "seed_remove_failed") (pose (.dropRemoteSeed target))

/-- The vote is taken first and the seed afterwards. -/
def demoteAndDrop (target : NodeId) : HandlerM Unit := do
  consultOr (.new "demote_voter_failed") (pose (.demoteVoter target))
  if target = ctx.nodeId then dropOwnSeed else dropSeedOf target

def demoteVoterWrite : HandlerM Bytes := do
  let (_, target) ← memberTarget ctx req
  let view ← consult .membershipView
  fallible (ensure (.new "not_voter" s!"node {target} is not a voter") (view.isVoter target))
  demoteAndDrop ctx target
  let state ← consult (.node .policySnapshot)
  let after ← consult .membershipView
  auditMember req "demote_voter" ((after.find target).elim "" MemberInfo.peerId) "ok"
    state.policyEpoch edgePeer
  memberReply ctx req [("node_id", .num target), ("voter", .bool false)] state.policyEpoch

/-- Another voter loses its seed before it is removed. -/
def dropBeforeRemoval (target : NodeId) (remoteVoter : Bool) : HandlerM Unit :=
  if remoteVoter then dropSeedOf target else return ()

/-- A voter whose removal was refused gets its seed back; the outcome is ignored. -/
def restoreSeed (target : NodeId) (remoteVoter : Bool) : HandlerM Unit :=
  if remoteVoter then do
    let _ ← consult (.deliverSeed target)
    return ()
  else return ()

def removeAndDrop (target : NodeId) (wasVoter : Bool) : HandlerM Unit := do
  let remoteVoter := wasVoter && target != ctx.nodeId
  dropBeforeRemoval target remoteVoter
  match ← consult (.removeMember target) with
  | .error e =>
      restoreSeed target remoteVoter
      fallible (.error (.new "remove_member_failed" e))
  | .ok () => if wasVoter && target == ctx.nodeId then dropOwnSeed else return ()

def removeMemberWrite : HandlerM Bytes := do
  let (spec, target) ← memberTarget ctx req
  let view ← consult .membershipView
  fallible (ensure (.new "not_found" s!"node {target} is not a member") (view.isMember target))
  removeAndDrop ctx target (view.isVoter target)
  let state ← consult (.node .policySnapshot)
  auditMember req "remove_member" spec.peerId "ok" state.policyEpoch edgePeer
  memberReply ctx req [("node_id", .num target), ("removed", .bool true)] state.policyEpoch

/-- The log index in the reply to a token that was recorded, or the refusal. -/
def issuedIndex (proposal : AdminProposal) : Except SidecarError Nat :=
  match proposal.result with
  | .admin _ _ _ _ (.rejected code message) => .error (.new code message)
  | .admin _ _ raftIndex duplicate (.applied _ _ _) =>
      .ok (if duplicate then raftIndex else proposal.raftIndex)
  | other => .error (.new "raft_unexpected_result"
      ("join token apply 结果异常: " ++ ctx.wire.debugResult other))

def issueJoinToken (verified : VerifiedAdmin) : HandlerM Bytes := do
  let spec ← fallible (okOr (badRequest "缺少 'join_token' 字段") req.joinToken)
  let token := tokenFromSpec ctx.clusterId ctx.network req.kid spec
  let now ← consult (.node .now)
  fallible ((verifyJoinToken ctx.crypto ctx.adminKeys token now ctx.clusterId ctx.network
    [ctx.peerId, token.audience]).mapError fun e => .new e.code e.text)
  let proposal ← consultOr mapAdminApplyError (pose (.node (.propose
    (.admin req.requestId req.kid verified.requestHash req.ts (.issueJoinToken token)))))
  let index ← fallible (issuedIndex ctx proposal)
  let state ← consult (.node .policySnapshot)
  auditMember req "issue_join_token" token.jti "ok" state.policyEpoch edgePeer
  let term ← consult .term
  return ctx.wire.encode (.obj [("request_id", .str req.requestId), ("token", tokenJson token),
    ("policy_epoch", .num state.policyEpoch), ("raft_index", .num index), ("term", .num term)])

def executeMemberWrite (verified : VerifiedAdmin) : HandlerM Bytes := do
  raftRuntime
  let leader ← consult (.node .isLeader)
  fallible (ensure (.new "not_leader" "成员变更必须由 leader 执行") leader)
  match req.op with
  | "issue_join_token" => issueJoinToken ctx req edgePeer verified
  | "add_learner" => addLearnerWrite ctx req edgePeer
  | "promote_voter" => promoteVoterWrite ctx req edgePeer
  | "demote_voter" => demoteVoterWrite ctx req edgePeer
  | "remove_member" => removeMemberWrite ctx req edgePeer
  | other => fallible (.error (.new "unknown_op" ("未知成员指令: " ++ other)))

end Writes

/-! ## Joins -/

section Joins

variable (ctx : ServiceContext)

/-- `raft_join::verify_request` at the current time. -/
def verifyJoin (req : RaftJoinRequest) (audiences : List String) : HandlerM Unit := do
  let now ← consult (.node .now)
  fallible ((req.verify ctx.crypto ctx.adminKeys ctx.clusterId ctx.network now audiences).mapError
    fun e => .new e.code e.text)

/-- What the leader requires of the recorded tokens. -/
def recordedToken (req : RaftJoinRequest) (state : PolicyState) : Except SidecarError Unit := do
  let stored ← okOr
    (.new "join_token_unknown" ("join token not issued through raft: " ++ req.token.jti))
    state.joinTokens[req.token.jti]?
  ensure (.new "join_token_mismatch" "join token does not match the recorded token")
    (stored.token = req.token)
  ensure (.new "join_token_replayed" ("join token already used: " ++ req.token.jti))
    (stored.uses < stored.token.maxUses)

def consumed (result : PolicyResult) : Except SidecarError Unit :=
  match result with
  | .applied _ _ _ _ => .ok ()
  | .rejected code message _ => .error (.new code message)
  | other => .error (.new "raft_unexpected_result"
      ("consume join token 结果异常: " ++ ctx.wire.debugResult other))

/-- The members in the reply; the new one is added if the metrics do not show it yet. -/
def joinMembers (view : MembershipView) (info : MemberInfo) : List MemberInfo :=
  if (view.find info.nodeId).isNone then
    view.voters ++ (view.learners ++ [info]).mergeSort fun a b => a.nodeId ≤ b.nodeId
  else view.all

def handleLeaderJoin (req : RaftJoinRequest) : HandlerM Bytes := do
  verifyJoin ctx req ([ctx.peerId] ++ if req.edgePeer.isEmpty then [] else [req.edgePeer])
  let view ← consult .membershipView
  fallible (ensure (.new "already_member"
    ("node " ++ toString req.nodeId ++ " is already a member"))
    (!view.isMember req.nodeId))
  let state ← consult (.node .policySnapshot)
  fallible (recordedToken req state)
  let usedAt ← consult (.node .now)
  let proposal ← consultOr (.new "raft_join_failed") (pose (.node (.propose
    (.consumeJoinToken req.token.jti req.nodeId req.peerId usedAt))))
  fallible (consumed ctx proposal.result)
  let info ← consultOr (.new "add_learner_failed")
    (pose (.addLearnerNode req.nodeId ⟨req.peerId, req.identityKey, req.x25519Key⟩))
  let members ← consult .membershipView
  let state ← consult (.node .policySnapshot)
  let term ← consult .term
  let leader ← consult .leaderId
  let response : RaftJoinResponse := {
    v := raftJoinVersion
    ok := true
    error := ""
    clusterId := ctx.clusterId
    network := ctx.network
    nodeId := info.nodeId
    peerId := info.peerId
    role := "learner"
    term := term
    leader := leader
    policyEpoch := state.policyEpoch
    members := joinMembers members info }
  auditMember { AdminRequestV2.default with
    op := "raft_join", requestId := req.token.jti, kid := req.token.kid }
    "raft_join" response.peerId "ok" state.policyEpoch (some req.edgePeer)
  fallible ((ctx.wire.encodeJoinResponse response).mapError fun e =>
    .new "encode_error" ("入网响应编码失败: " ++ e))

/-- A node that does not lead passes a verified join on to the leader. -/
def forwardJoin (client : Bool) (req : RaftJoinRequest) : HandlerM Bytes := do
  let leader ← consult .leaderPeer
  let leader ← fallible (okOr (.new "no_leader" "当前没有已知的 Raft leader") leader)
  fallible (ensure (.new "not_leader" "本节点不是 leader 且没有可用的转发连接") client)
  let payload ← parsed "入网转发编码失败: "
    (ctx.wire.encodeRaftJoin { req with edgePeer := ctx.peerId })
  consultOr (fun e => .new e.code e.message) (pose (.serviceRequestTo leader payload))

def handleRaftJoin (client : Bool) (value : Json) : HandlerM Bytes := do
  raftRuntime
  fallible (ensure (.new "join_not_allowed" "allow_join = false，拒绝入网") ctx.allowJoin)
  let req ← parsed "入网请求解析失败: " (ctx.wire.raftJoin value)
  verifyJoin ctx req [ctx.peerId]
  if ← consult (.node .isLeader) then
    handleLeaderJoin ctx req
  else
    forwardJoin ctx client req

/-! ## Seeds -/

/-- The signed acknowledgement of what was done with a seed message. -/
def acknowledged (receiver : NodeId) (result : Except String Unit) : HandlerM Bytes := do
  let error := match result with
    | .ok () => ""
    | .error e => e
  let ack ← fallible
    ((signAck ctx.crypto ctx.identity ctx.nodeId receiver result.isOk error).mapError
      fun e => .new "seed_encode_error" e.text)
  fallible ((ctx.wire.encodeAck ack).mapError fun e =>
    .new "encode_error" ("seed 回执编码失败: " ++ e))

def handleSeedDelivery (value : Json) : HandlerM Bytes := do
  raftRuntime
  let envelope ← parsed "seed 请求解析失败: " (ctx.wire.seedDelivery value)
  let result ← consult (.acceptSeed envelope)
  acknowledged ctx envelope.fromNode result

def handleSeedDrop (value : Json) : HandlerM Bytes := do
  raftRuntime
  let req ← parsed "seed 清除请求解析失败: " (ctx.wire.seedDrop value)
  let result ← consult (.acceptSeedDrop req)
  acknowledged ctx req.fromNode result

end Joins

end NexusAuth.Service
