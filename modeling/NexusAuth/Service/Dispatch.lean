import NexusAuth.Service.Writes

/-!
# The entry point for inbound requests

`handle_service_request`: a request is told apart by its `op`.  Raft messages, joins
and seeds have their own authentication; everything else is a request of an
administrator, with a signature in Raft mode and with an HMAC in the legacy mode.
-/

namespace NexusAuth.Service

open NexusAuth.Authority NexusAuth.Lib.Interaction NexusAuth.Lib.Results NexusAuth.Raft

section Legacy

variable (ctx : ServiceContext)

def storeError (e : StoreError) : SidecarError := .new e.code e.text

def repError (e : RepError) : SidecarError := .new e.code e.text

def requireService (req : ManagementRequest) : Except SidecarError String := do
  ensure (badRequest "缺少 'service' 字段") (!req.service.isEmpty)
  return req.service

def status : HandlerM Json := do
  let store ← consult (.node .storeSnapshot)
  let publicKey ← ctx.authorityPublicKey
  let seed ← consult (.node .authoritySeed)
  let connections ← consult (.node .connections)
  let uptime ← consult .uptimeSecs
  return .obj [("network", .str ctx.network), ("authority_public_key", .option .str publicKey),
    ("has_authority_seed", .bool seed.isSome), ("index_version", .num store.indexVersion),
    ("services", .obj (store.services.toList.map fun (name, service) =>
      (name, .obj [("version", .num service.version), ("members", .num service.members.size)]))),
    ("expires_secs", .num ctx.expiresSecs), ("renew_secs", .num ctx.renewSecs),
    ("connections", .num connections.length), ("uptime_secs", .num uptime)]

/-- The broadcast is disabled in Raft mode. -/
def afterChange (client : Bool) (update : Update) : HandlerM Unit := do
  consult .notifyPublish
  if !ctx.raftRequired && client then
    consult (.broadcast update)

def changeReply (service : String) (version : Nat) : HandlerM Json := do
  let store ← consult (.node .storeSnapshot)
  return .obj [("service", .str service), ("version", .num version),
    ("members", .num (store.services[service]?.elim 0 fun state => state.members.size)),
    ("index_version", .num store.indexVersion)]

def replyVersion : Store.Reply → Nat
  | .version version => version
  | .changed _ => 0

def membersOf (store : StoreSnapshot) (service : String) : List String :=
  store.services[service]?.elim [] fun state => state.members.toList

/-- `add_members`, `remove_members`, `set_members` and `create_service`. -/
def changeMembers (client : Bool) (req : ManagementRequest)
    (op : String → List String → Store.Op) : HandlerM Bytes := do
  let service ← fallible (requireService req)
  let (reply, store) ← consultOr storeError (pose (.changeStore (op service req.peers)))
  let version := replyVersion reply
  afterChange ctx client
    ⟨service, version, membersOf store service, store.indexVersion, false⟩
  let value ← changeReply service version
  return ctx.wire.encode value

def deleteService (client : Bool) (req : ManagementRequest) : HandlerM Bytes := do
  let service ← fallible (requireService req)
  let (reply, store) ← consultOr storeError (pose (.changeStore (.deleteService service)))
  afterChange ctx client ⟨service, replyVersion reply, [], store.indexVersion, true⟩
  return ctx.wire.encode
    (.obj [("service", .str service), ("index_version", .num store.indexVersion)])

/-- `list_members` of the legacy store. -/
def listMembers (req : ManagementRequest) : HandlerM Bytes := do
  let service ← fallible (requireService req)
  let store ← consult (.node .storeSnapshot)
  let state ← fallible (okOr (.new "not_found" ("服务不存在: " ++ service)) store.services[service]?)
  return ctx.wire.encode (.obj [("service", .str service), ("version", .num state.version),
    ("members", .strs state.members.toList)])

def handleManagement (client : Bool) (req : ManagementRequest) : HandlerM Bytes :=
  match req.op with
  | "status" => do
      let value ← status ctx
      return ctx.wire.encode value
  | "export_authority_pubkey" => do
      let publicKey ← ctx.authorityPublicKey
      return ctx.wire.encode (.obj [("network", .str ctx.network),
        ("public_key", .str (publicKey.getD ""))])
  | "list_services" => do
      let store ← consult (.node .storeSnapshot)
      return ctx.wire.encode (.obj [("services", .strs store.services.keys)])
  | "list_members" => listMembers ctx req
  | "add_members" => changeMembers ctx client req .addMembers
  | "remove_members" => changeMembers ctx client req .removeMembers
  | "set_members" => changeMembers ctx client req .setMembers
  | "create_service" => changeMembers ctx client req .createService
  | "delete_service" => deleteService ctx client req
  | "publish_now" => do
      consult .notifyPublish
      return ctx.wire.encode (.obj [("scheduled", .bool true)])
  | other => fallible (.error (.new "unknown_op" ("未知指令: " ++ other)))

def replyChanged : Store.Reply → Bool
  | .version _ => true
  | .changed changed => changed

def handleReplicate (value : Json) : HandlerM Bytes := do
  let msg ← parsed "复制请求解析失败: " (ctx.wire.replicate value)
  let now ← consult (.node .now)
  consultOr repError (pose (.verifyReplicate msg now))
  let (reply, _) ← consultOr storeError (pose (.changeStore (.applyReplicated
    ⟨msg.service, msg.version, msg.members, msg.indexVersion, msg.deleted⟩)))
  if replyChanged reply then
    consult .notifyPublish
  return ctx.wire.encode (.obj [("applied", .bool (replyChanged reply)),
    ("service", .str msg.service), ("version", .num msg.version)])

def handleSyncRequest (value : Json) : HandlerM Bytes := do
  let req ← parsed "同步请求解析失败: " (ctx.wire.syncRequest value)
  let now ← consult (.node .now)
  consultOr repError (pose (.verifySyncRequest req now))
  let snapshot ← consult (.node .storeSnapshot)
  let ts ← consult (.node .now)
  let mac ← consultOr repError (pose (.signSyncResponse ctx.network req.nonce snapshot ts))
  return ctx.wire.encode (ctx.wire.syncResponse ⟨opSyncResponse, req.nonce, snapshot, ts, mac⟩)

def handleJoin (value : Json) : HandlerM Bytes := do
  let req ← parsed "入网请求解析失败: " (ctx.wire.passwordJoin value)
  let authority ← ExceptT.lift (onNode ctx.authority)
  let signer ← fallible (okOr (.new "no_authority_seed" "本节点不持有 authority seed") authority)
  let state ← consult (.node .storeSnapshot)
  let now ← consult (.node .now)
  let response ← consultOr (fun e => .new e.code e.text)
    (pose (.respondJoin ctx.network req now signer.seed state))
  return ctx.wire.encode (ctx.wire.passwordJoinResponse response)

end Legacy

section Entry

variable (ctx : ServiceContext)

/-- A legacy message is refused in Raft mode. -/
def legacyOnly (code message : String) (handler : HandlerM Bytes) : HandlerM Bytes := do
  fallible (ensure (.new code message) (!ctx.raftRequired))
  handler

/-- `raft_rpc`: the runtime verifies the signature of the sending node itself. -/
def handleRaftRpc (payload : Bytes) : HandlerM Bytes := do
  let ready ← consult .runtime
  fallible (ensure (.new "raft_disabled" "Raft 控制面未启用") ready)
  consultOr id (pose (.handleRpc payload))

def handleServiceRequest (client forwarder : Bool) (payload : Bytes) : HandlerM Bytes := do
  let value ← parsed "请求解析失败: " (ctx.wire.parse payload)
  let op ← fallible (okOr (badRequest "缺少 'op' 字段") ((value.get "op").bind Json.asStr))
  if op == raftRpcOp then handleRaftRpc payload
  else if op == raftJoinOp then handleRaftJoin ctx client value
  else if op == seedDeliveryOp then handleSeedDelivery ctx value
  else if op == seedDropOp then handleSeedDrop ctx value
  else if op == opJoinRequest then
    legacyOnly ctx "join_disabled" "Raft 模式下旧密码入网已禁用；请使用 join token" (handleJoin ctx value)
  else if op == opReplicate then
    legacyOnly ctx "replicate_disabled" "Raft 模式下禁用旧 replicate 写入" (handleReplicate ctx value)
  else if op == opSyncRequest then
    legacyOnly ctx "sync_disabled" "Raft 模式下禁用旧 sync_request 反熵" (handleSyncRequest ctx value)
  else if ctx.raftRequired then handleAdminV2 ctx payload value forwarder
  else
    let req ← parsed "请求解析失败: " (ctx.wire.management value)
    let now ← consult (.node .now)
    consultOr (fun (e : AdminError) => .new e.code e.text) (pose (.verifyManagement req now))
    handleManagement ctx client req

end Entry

/-! ## An instance -/

/-- The payloads of one administrator's request and one join request: `[0]` is an envelope
around the first, `[1]` is the second, and any other payload is the first itself. -/
def sampleWire (req : AdminRequestV2) (join : RaftJoinRequest) : Wire where
  parse bytes := .ok (.obj [("op", .str (match bytes with
    | [0] => forwardedAdminOp
    | [1] => raftJoinOp
    | _ => req.op))])
  encode _ := []
  adminRequest _ := .ok req
  raftJoin _ := .ok join
  seedDelivery _ := .error ""
  seedDrop _ := .error ""
  forwardedAdmin _ := .ok ⟨forwardedAdminOp, forwardedAdminVersion, "", "edge", ""⟩
  encodeForwarded _ := .ok [0]
  encodeRaftJoin _ := .ok [1]
  encodeJoinResponse _ := .ok []
  encodeAck _ := .ok []
  management _ := .error ""
  replicate _ := .error ""
  syncRequest _ := .error ""
  syncResponse _ := .null
  passwordJoin _ := .error ""
  passwordJoinResponse _ := .null
  debugResult _ := ""

def rootKey : Bytes := [7]

def sampleAdminKeys : AdminVerifier :=
  ⟨(∅ : Lib.OrderedMap.BTreeMap String (Bytes × AdminRole)).insert "root" (rootKey, .root)⟩

def signedByRoot (req : AdminRequestV2) : AdminRequestV2 :=
  let named :=
    { req with v := adminRequestVersion, kid := "root", requestId := "r", nonce := "n", ts := 0 }
  { named with sig := sampleText (rootKey ++ named.signed.sample) }

def sampleToken (audience : String) : JoinToken :=
  let token : JoinToken := ⟨joinTokenVersion, "t", "cluster", "net", audience, 9, 1, "", "root", ""⟩
  { token with sig := sampleText (rootKey ++ (Cbor.map token.signedFields).sample) }

def sampleNodeKey : Bytes := List.replicate 32 5

/-- A request of `peerB` to join with a token, signed by that node. -/
def sampleJoin (token : JoinToken) : RaftJoinRequest :=
  let req : RaftJoinRequest := ⟨raftJoinOp, raftJoinVersion, "cluster", "net", token,
    nodeIdFromPeerId samplePrimitives peerB, peerB, sampleText sampleNodeKey,
    sampleText sampleNodeKey, "n", 0, "", ""⟩
  { req with sig := sampleText (sampleNodeKey ++ (req.signingBytes sampleCrypto).toOption.getD []) }

def sampleService (req : AdminRequestV2) (join : RaftJoinRequest) : ServiceContext where
  toContext := sampleContext
  wire := sampleWire (signedByRoot req) join
  renewSecs := 20
  adminKeys := sampleAdminKeys
  allowJoin := true
  clusterId := "cluster"
  nodeId := 1
  peerId := peerA
  identity := []

/-- A node around `idle` whose other calls fail, and for which every nonce is new. -/
def idleService : Oracle ServiceCall ServiceAnswer
  | _, .node call => idle [] call
  | _, .runtime => true
  | _, .leaderPeer => none
  | _, .leaderId => none
  | _, .term => 0
  | _, .appliedIndex => none
  | _, .stale => false
  | _, .statusSnapshot => ⟨"cluster", 0, none, 0, "", none, none, [], [], false⟩
  | _, .membershipView => ⟨[], [], none, 0⟩
  | _, .addLearnerNode _ _ => .error ""
  | _, .promoteVoter _ => .error ""
  | _, .demoteVoter _ => .error ""
  | _, .removeMember _ => .error ""
  | _, .deliverSeed _ => .error ""
  | _, .dropRemoteSeed _ => .error ""
  | _, .removeSeedFile => .ok ()
  | _, .clearAuthority => ()
  | _, .handleRpc _ => .error (.new "" "")
  | _, .acceptSeed _ => .error ""
  | _, .acceptSeedDrop _ => .error ""
  | _, .checkNonce _ => .ok ()
  | _, .whoami => .error (.new "" "")
  | _, .serviceRequestTo _ _ => .error (.new "" "")
  | _, .audit _ _ => ()
  | _, .notifyPublish => ()
  | _, .uptimeSecs => 0
  | _, .changeStore _ => .error (.notFound "")
  | _, .broadcast _ => ()
  | _, .verifyManagement _ _ => .error .badMac
  | _, .verifyReplicate _ _ => .error .badMac
  | _, .verifySyncRequest _ _ => .error .badMac
  | _, .signSyncResponse _ _ _ _ => .error .badMac
  | _, .respondJoin _ _ _ _ _ => .error .auth

end NexusAuth.Service
