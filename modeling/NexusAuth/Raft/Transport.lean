import NexusAuth.Crypto
import NexusAuth.Protocol
import NexusAuth.Raft.Storage

/-!
# Signed messages between cluster nodes

`raft/transport.rs`, the RPC envelopes of `raft/types.rs`, and the two ends of a Raft
RPC: `NetworkConnection::send` and `RaftRuntime::handle_rpc`.  A request is signed
over its domain, cluster, sender, receiver and body; a reply over its domain,
cluster, sender, receiver, flag, body and error text.

JSON is left out: an envelope on the wire is the value it decodes to.  The bodies
are opaque to this layer, and `RpcCodec` is the CBOR encoding of openraft's types.
-/

namespace NexusAuth.Raft

open NexusAuth.Authority NexusAuth.Lib.OrderedMap

def raftRpcOp : String := "raft_rpc"

inductive TransportError
  | invalidKey
  | badBase64
  | badSignature
  | wrongCluster
  | wrongTarget
  | wrongSender
  | unknownNode (node : NodeId)
  | decode (error : String)
deriving DecidableEq

def TransportError.text : TransportError → String
  | .invalidKey => "invalid sidecar identity key"
  | .badBase64 => "invalid base64 in raft rpc"
  | .badSignature => "invalid raft rpc signature"
  | .wrongCluster => "raft rpc cluster mismatch"
  | .wrongTarget => "raft rpc target mismatch"
  | .wrongSender => "raft rpc sender mismatch"
  | .unknownNode node => "raft rpc from unknown node " ++ toString node
  | .decode error => "raft rpc decode error: " ++ error

/-! ## Requests and replies of openraft -/

structure Vote where
  leaderId : LeaderId
  committed : Bool
deriving DecidableEq

inductive RaftRpcBody
  | vote (vote : Vote) (lastLogId : Option LogId)
  | appendEntries (vote : Vote) (prevLogId : Option LogId) (entries : List Entry)
      (leaderCommit : Option LogId)
  | installSnapshot (vote : Vote) (info : SnapshotMeta) (offset : Nat) (data : Bytes)
      (complete : Bool)
  | elect
deriving DecidableEq

inductive RaftResponse
  | vote (vote : Vote) (voteGranted : Bool) (lastLogId : Option LogId)
  | appendSuccess
  | appendPartial (matching : Option LogId)
  | appendConflict
  | appendHigherVote (vote : Vote)
  | installSnapshot (vote : Vote)
  | elected
deriving DecidableEq

structure RpcCodec where
  /-- `RaftRpcBody::encode` and `RaftRpcBody::decode`. -/
  encodeBody : RaftRpcBody → Except String Bytes
  decodeBody : Bytes → Except String RaftRpcBody
  /-- `encode_cbor` of a response of openraft. -/
  encodeResponse : RaftResponse → Except String Bytes

def RpcCodec.Lossless (codec : RpcCodec) : Prop :=
  ∀ body bytes, codec.encodeBody body = .ok bytes → codec.decodeBody bytes = .ok body

/-! ## Envelopes -/

structure RaftRpcEnvelope where
  op : String
  clusterId : String
  sender : NodeId
  receiver : NodeId
  body : String
  signature : String
deriving DecidableEq

structure RaftRpcReply where
  op : String
  clusterId : String
  sender : NodeId
  receiver : NodeId
  ok : Bool
  body : String
  error : String
  signature : String
deriving DecidableEq

def requestInput (clusterId : String) (sender receiver : NodeId) (body : Bytes) : Bytes :=
  utf8Bytes "nexusauth/raft/rpc" ++ [0] ++ utf8Bytes clusterId ++ [0] ++ beBytes sender ++ [0] ++
    beBytes receiver ++ [0] ++ body

def responseInput (clusterId : String) (sender receiver : NodeId) (ok : Bool) (body : Bytes)
    (error : String) : Bytes :=
  utf8Bytes "nexusauth/raft/resp" ++ [0] ++ utf8Bytes clusterId ++ [0] ++ beBytes sender ++ [0] ++
    beBytes receiver ++ [0] ++ [if ok then 1 else 0] ++ [0] ++ body ++ [0] ++ utf8Bytes error

def signB64 (crypto : Crypto) (identity message : Bytes) : String :=
  crypto.base64Url (crypto.edSign identity message)

def encodeRequest (crypto : Crypto) (codec : RpcCodec) (identity : Bytes) (clusterId : String)
    (sender receiver : NodeId) (body : RaftRpcBody) : Except TransportError RaftRpcEnvelope := do
  let bodyBytes ← (codec.encodeBody body).mapError .decode
  return {
    op := raftRpcOp
    clusterId := clusterId
    sender := sender
    receiver := receiver
    body := crypto.base64Url bodyBytes
    signature := signB64 crypto identity (requestInput clusterId sender receiver bodyBytes) }

def encodeReply (crypto : Crypto) (identity : Bytes) (clusterId : String) (sender receiver : NodeId)
    (ok : Bool) (body : Bytes) (error : String) : RaftRpcReply where
  op := raftRpcOp
  clusterId := clusterId
  sender := sender
  receiver := receiver
  ok := ok
  body := crypto.base64Url body
  error := error
  signature := signB64 crypto identity (responseInput clusterId sender receiver ok body error)

/-! ## The table of member keys -/

structure RpcVerifier where
  clusterId : String
  localId : NodeId
  keys : BTreeMap NodeId Bytes

def parseVerifyingKey (crypto : Crypto) (identityKey : String) : Except TransportError Bytes :=
  match crypto.unbase64 identityKey with
  | none => .error .invalidKey
  | some raw => if raw.length = 32 ∧ crypto.edParses raw then .ok raw else .error .invalidKey

namespace RpcVerifier

def new (clusterId : String) (localId : NodeId) : RpcVerifier := ⟨clusterId, localId, ∅⟩

def addNode (crypto : Crypto) (verifier : RpcVerifier) (node : NodeId) (identityKey : String) :
    Except TransportError RpcVerifier := do
  let key ← parseVerifyingKey crypto identityKey
  return { verifier with keys := verifier.keys.insert node key }

/-- The loop of `replace_nodes`; the first key that does not parse ends it. -/
def parseNodes (crypto : Crypto) (parsed : BTreeMap NodeId Bytes) :
    List (NodeId × String) → Except TransportError (BTreeMap NodeId Bytes)
  | [] => .ok parsed
  | (node, identityKey) :: rest => do
      let key ← parseVerifyingKey crypto identityKey
      parseNodes crypto (parsed.insert node key) rest

def replaceNodes (crypto : Crypto) (verifier : RpcVerifier) (nodes : List (NodeId × String)) :
    Except TransportError RpcVerifier := do
  let parsed ← parseNodes crypto ∅ nodes
  return { verifier with keys := parsed }

def verifyNodeSignature (crypto : Crypto) (verifier : RpcVerifier) (node : NodeId)
    (message : Bytes) (signature : String) : Except TransportError Unit :=
  match verifier.keys[node]? with
  | none => .error (.unknownNode node)
  | some key =>
      match crypto.unbase64Url signature with
      | none => .error .badSignature
      | some sig => if crypto.edVerify key message sig then .ok () else .error .badSignature

def verifyRequest (crypto : Crypto) (codec : RpcCodec) (verifier : RpcVerifier)
    (envelope : RaftRpcEnvelope) : Except TransportError (NodeId × RaftRpcBody) :=
  if envelope.op ≠ raftRpcOp then .error (.decode "unexpected op")
  else if envelope.clusterId ≠ verifier.clusterId then .error .wrongCluster
  else if envelope.receiver ≠ verifier.localId then .error .wrongTarget
  else
    match verifier.keys[envelope.sender]?, crypto.unbase64Url envelope.body,
      crypto.unbase64Url envelope.signature with
    | none, _, _ => .error (.unknownNode envelope.sender)
    | some _, none, _ => .error .badBase64
    | some _, some _, none => .error .badBase64
    | some key, some body, some sig =>
        if crypto.edVerify key
            (requestInput envelope.clusterId envelope.sender envelope.receiver body) sig then
          match codec.decodeBody body with
          | .error e => .error (.decode e)
          | .ok body => .ok (envelope.sender, body)
        else .error .badSignature

def verifyReply (crypto : Crypto) (verifier : RpcVerifier) (expectedFrom : NodeId)
    (reply : RaftRpcReply) : Except TransportError Bytes :=
  if reply.op ≠ raftRpcOp then .error (.decode "unexpected op")
  else if reply.clusterId ≠ verifier.clusterId then .error .wrongCluster
  else if reply.sender ≠ expectedFrom then .error .wrongSender
  else if reply.receiver ≠ verifier.localId then .error .wrongTarget
  else
    match verifier.keys[expectedFrom]?, crypto.unbase64Url reply.body,
      crypto.unbase64Url reply.signature with
    | none, _, _ => .error (.unknownNode expectedFrom)
    | some _, none, _ => .error .badBase64
    | some _, some _, none => .error .badBase64
    | some key, some body, some sig =>
        if crypto.edVerify key (responseInput reply.clusterId reply.sender reply.receiver reply.ok
            body reply.error) sig then
          if reply.ok then .ok body else .error (.decode reply.error)
        else .error .badSignature

end RpcVerifier

/-- `node_id_from_peer_id`: the first eight bytes of the hash, and 1 for 0. -/
def nodeIdFromPeerId (prim : Primitives) (peerId : String) : NodeId :=
  let id := ((prim.sha256 (utf8Bytes peerId)).take 8).foldl (fun n b => n * 256 + b.toNat) 0
  if id = 0 then 1 else id

/-! ## The two ends of an RPC -/

structure RpcNode where
  /-- The Ed25519 seed of its identity. -/
  identity : Bytes
  verifier : RpcVerifier

/-- What `NetworkConnection::send` puts on the wire. -/
def RpcNode.sendRequest (crypto : Crypto) (codec : RpcCodec) (node : RpcNode) (target : NodeId)
    (body : RaftRpcBody) : Except String RaftRpcEnvelope :=
  (encodeRequest crypto codec node.identity node.verifier.clusterId node.verifier.localId target
    body).mapError TransportError.text

/-- What `NetworkConnection::send` returns for the reply it is given. -/
def RpcNode.receiveReply (crypto : Crypto) (node : RpcNode) (target : NodeId)
    (reply : RaftRpcReply) : Except String Bytes :=
  (node.verifier.verifyReply crypto target reply).mapError TransportError.text

/-- The encoded answer of openraft; nothing is encoded for `Elect`. -/
def encodeOutcome (codec : RpcCodec) : Except String RaftResponse → Except String Bytes
  | .error e => .error e
  | .ok .elected => .ok []
  | .ok response => codec.encodeResponse response

def rpcAuthError (e : TransportError) : SidecarError := .new "raft_auth_failed" e.text

structure RpcHandled where
  sender : NodeId
  body : RaftRpcBody
  outcome : Except String Bytes
deriving DecidableEq

def RpcNode.signedReply (crypto : Crypto) (node : RpcNode) (receiver : NodeId) :
    Except String Bytes → RaftRpcReply
  | .ok body => encodeReply crypto node.identity node.verifier.clusterId node.verifier.localId
      receiver true body ""
  | .error e => encodeReply crypto node.identity node.verifier.clusterId node.verifier.localId
      receiver false [] e

/-- `RaftRuntime::handle_rpc`, when openraft answers the body with `raft`. -/
def RpcNode.handleRpc (crypto : Crypto) (codec : RpcCodec) (node : RpcNode)
    (raft : RaftRpcBody → Except String RaftResponse) (envelope : RaftRpcEnvelope) :
    Except SidecarError (RpcHandled × RaftRpcReply) :=
  if envelope.op ≠ raftRpcOp then .error (.new "raft_bad_request" "非 raft_rpc 请求")
  else
    match node.verifier.verifyRequest crypto codec envelope with
    | .error e => .error (rpcAuthError e)
    | .ok (sender, body) =>
        let outcome := encodeOutcome codec (raft body)
        .ok (⟨sender, body, outcome⟩, node.signedReply crypto sender outcome)

end NexusAuth.Raft
