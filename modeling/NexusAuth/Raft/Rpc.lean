import NexusAuth.Lib.Network
import NexusAuth.Lib.Runs
import NexusAuth.Raft.Transport

/-!
# Remote calls over a network that replays

All nodes of a cluster call each other.  A call sends its signed request and later
is handed some reply; a node handles any request that the network delivers to it.
What openraft answers is a parameter of each event, and so is the table of keys that
the node's verifier has at that moment, since the membership may change in between.
A call that times out is one that is never handed a reply.
-/

namespace NexusAuth.Raft

open NexusAuth.Lib NexusAuth.Lib.Network NexusAuth.Lib.OrderedMap

structure RpcSetting where
  crypto : Crypto
  codec : RpcCodec
  clusterId : String
  /-- The Ed25519 seed of each node. -/
  identity : NodeId → Bytes

/-- A table of keys in which every node is listed with its own key. -/
structure KeyTable (setting : RpcSetting) where
  keys : BTreeMap NodeId Bytes
  honest : ∀ node key, keys[node]? = some key →
    key = setting.crypto.edPublic (setting.identity node)

def RpcSetting.node (setting : RpcSetting) (id : NodeId) (table : KeyTable setting) : RpcNode where
  identity := setting.identity id
  verifier := ⟨setting.clusterId, id, table.keys⟩

structure RpcCall where
  caller : NodeId
  target : NodeId
  body : RaftRpcBody
deriving DecidableEq

structure RpcWorld where
  /-- Everything that was put on the wire. -/
  requests : List RaftRpcEnvelope
  replies : List RaftRpcReply
  /-- The calls that wait for a reply. -/
  calls : List RpcCall
  /-- What each node did for the requests it accepted. -/
  handled : List (NodeId × RpcHandled)

def RpcWorld.start : RpcWorld := ⟨[], [], [], []⟩

inductive RpcEvent (setting : RpcSetting)
  | send (call : RpcCall) (table : KeyTable setting)
  | handle (node : NodeId) (table : KeyTable setting) (answer : Except String RaftResponse)
      (delivery : Delivery RaftRpcEnvelope)
  | finish (call : Nat) (table : KeyTable setting) (delivery : Delivery RaftRpcReply)

def RaftRpcEnvelope.verifies (crypto : Crypto) (key : Bytes) (envelope : RaftRpcEnvelope) : Bool :=
  match crypto.unbase64Url envelope.body, crypto.unbase64Url envelope.signature with
  | some body, some sig =>
      crypto.edVerify key
        (requestInput envelope.clusterId envelope.sender envelope.receiver body) sig
  | _, _ => false

def RaftRpcReply.verifies (crypto : Crypto) (key : Bytes) (reply : RaftRpcReply) : Bool :=
  match crypto.unbase64Url reply.body, crypto.unbase64Url reply.signature with
  | some body, some sig =>
      crypto.edVerify key
        (responseInput reply.clusterId reply.sender reply.receiver reply.ok body reply.error) sig
  | _, _ => false

namespace RpcSetting

def signedRequest (setting : RpcSetting) (envelope : RaftRpcEnvelope) : Bool :=
  envelope.verifies setting.crypto (setting.crypto.edPublic (setting.identity envelope.sender))

def signedReply (setting : RpcSetting) (reply : RaftRpcReply) : Bool :=
  reply.verifies setting.crypto (setting.crypto.edPublic (setting.identity reply.sender))

end RpcSetting

namespace RpcWorld

def Answered (w : RpcWorld) (target caller : NodeId) (body : RaftRpcBody) (bytes : Bytes) : Prop :=
  (target, ⟨caller, body, .ok bytes⟩) ∈ w.handled

instance decidableAnswered (w : RpcWorld) (target caller : NodeId) (body : RaftRpcBody)
    (bytes : Bytes) : Decidable (w.Answered target caller body bytes) :=
  inferInstanceAs (Decidable (_ ∈ _))

def returned (setting : RpcSetting) (w : RpcWorld) :
    RpcEvent setting → Option (RpcCall × Except String Bytes)
  | .finish index table delivery =>
      match w.calls[index]?, delivery.message setting.signedReply w.replies with
      | some call, some reply =>
          some (call, (setting.node call.caller table).receiveReply setting.crypto
            call.target reply)
      | _, _ => none
  | _ => none

def step (setting : RpcSetting) (w : RpcWorld) : RpcEvent setting → RpcWorld
  | .send call table =>
      match (setting.node call.caller table).sendRequest setting.crypto setting.codec call.target
          call.body with
      | .error _ => w
      | .ok envelope => { w with requests := w.requests ++ [envelope], calls := w.calls ++ [call] }
  | .handle node table answer delivery =>
      match delivery.message setting.signedRequest w.requests with
      | none => w
      | some envelope =>
          match (setting.node node table).handleRpc setting.crypto setting.codec (fun _ => answer)
              envelope with
          | .error _ => w
          | .ok (handled, reply) =>
              { w with
                replies := w.replies ++ [reply]
                handled := w.handled ++ [(node, handled)] }
  | .finish index table delivery =>
      match w.returned setting (.finish index table delivery) with
      | none => w
      | some _ => { w with calls := w.calls.eraseIdx index }

def after (setting : RpcSetting) (events : List (RpcEvent setting)) (k : Nat) : RpcWorld :=
  Runs.stateAt (step setting) start events k

end RpcWorld

end NexusAuth.Raft
