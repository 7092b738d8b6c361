import NexusAuth.Lib.Results
import NexusAuth.Raft.Transport

/-!
# Distribution of the authority seed

`raft/seed.rs` and the seed methods of `RaftRuntime`: the leader seals the seed for a
node and signs the envelope, the node opens it and signs an acknowledgement, and a
signed request makes a node drop the seed again.  A node holds the seed in a file and
in memory; what the file system answers and what the random generator gives are
parameters.
-/

namespace NexusAuth.Raft

open NexusAuth.Authority NexusAuth.Lib.Results

def seedLen : Nat := 32

def x25519KeyLen : Nat := 32

def seedEnvelopeVersion : UInt8 := 1

def seedDeliveryOp : String := "raft_seed_delivery"

def seedDropOp : String := "raft_seed_drop"

inductive SeedError
  | io (error : String)
  | invalidKey
  | invalidSeed
  | badSignature
  | wrongCluster
  | wrongNode
  | encrypt
  | decrypt
  | encode (error : String)
deriving DecidableEq

def SeedError.text : SeedError → String
  | .io e => "seed io error: " ++ e
  | .invalidKey => "invalid X25519 key"
  | .invalidSeed => "invalid authority seed"
  | .badSignature => "invalid seed delivery signature"
  | .wrongCluster => "seed delivery cluster mismatch"
  | .wrongNode => "seed delivery addressed to a different node"
  | .encrypt => "seed encryption failed"
  | .decrypt => "seed decryption failed"
  | .encode e => "seed encode error: " ++ e

/-! ## Envelopes -/

structure SeedBinding where
  network : String
  clusterId : String
  nodeId : NodeId
  peerId : String
  identityKey : String
  ephemeralKey : String

structure SeedEnvelope where
  v : UInt8
  fromNode : NodeId
  clusterId : String
  network : String
  nodeId : NodeId
  peerId : String
  identityKey : String
  ephemeralKey : String
  aeadNonce : String
  ciphertext : String
  sig : String
deriving DecidableEq

def encodeCbor (crypto : Crypto) (item : Cbor) : Except SeedError Bytes :=
  (crypto.cbor item).mapError .encode

def bindingBytes (crypto : Crypto) (binding : SeedBinding) : Except SeedError Bytes :=
  encodeCbor crypto <| .map
    [("network", .text binding.network), ("cluster_id", .text binding.clusterId),
      ("node_id", .uint binding.nodeId), ("peer_id", .text binding.peerId),
      ("identity_key", .text binding.identityKey), ("ephemeral_key", .text binding.ephemeralKey)]

def deriveKey (crypto : Crypto) (shared : Bytes) (clusterId : String) (binding : SeedBinding) :
    Except SeedError Bytes := do
  let bytes ← bindingBytes crypto binding
  okOr .encrypt
    (crypto.hkdf (utf8Bytes clusterId) shared (utf8Bytes "nexusauth/seed/v1" ++ [0] ++ bytes))

def envelopeSigningBytes (crypto : Crypto) (envelope : SeedEnvelope) : Except SeedError Bytes :=
  encodeCbor crypto <| .map
    [("v", .uint envelope.v.toNat), ("from_node", .uint envelope.fromNode),
      ("cluster_id", .text envelope.clusterId), ("network", .text envelope.network),
      ("node_id", .uint envelope.nodeId), ("peer_id", .text envelope.peerId),
      ("identity_key", .text envelope.identityKey), ("ephemeral_key", .text envelope.ephemeralKey),
      ("aead_nonce", .text envelope.aeadNonce), ("ciphertext", .text envelope.ciphertext)]

def parseX25519 (crypto : Crypto) (text : String) : Except SeedError Bytes :=
  match crypto.unbase64 text with
  | none => .error .invalidKey
  | some raw => if raw.length = x25519KeyLen then .ok raw else .error .invalidKey

/-- What `OsRng` gives to one `seal_seed`. -/
structure SealRandom where
  ephemeral : Bytes
  ephemeral_length : ephemeral.length = x25519KeyLen
  nonce : Bytes
  nonce_length : nonce.length = 12

def sealSeed (crypto : Crypto) (leaderIdentity : Bytes) (leaderNode : NodeId)
    (clusterId network : String) (targetNode : NodeId) (target : RaftNode) (seed : Bytes)
    (random : SealRandom) : Except SeedError SeedEnvelope := do
  let targetPublic ← parseX25519 crypto target.x25519Key
  let shared := crypto.xShared random.ephemeral targetPublic
  let ephemeralKey := crypto.base64 (crypto.xPublic random.ephemeral)
  let key ← deriveKey crypto shared clusterId
    ⟨network, clusterId, targetNode, target.peerId, target.identityKey, ephemeralKey⟩
  let ciphertext ← okOr .encrypt (crypto.aeadEncrypt key random.nonce seed)
  let envelope : SeedEnvelope := {
    v := seedEnvelopeVersion
    fromNode := leaderNode
    clusterId := clusterId
    network := network
    nodeId := targetNode
    peerId := target.peerId
    identityKey := target.identityKey
    ephemeralKey := ephemeralKey
    aeadNonce := crypto.base64 random.nonce
    ciphertext := crypto.base64 ciphertext
    sig := "" }
  let bytes ← envelopeSigningBytes crypto envelope
  return { envelope with sig := signB64 crypto leaderIdentity bytes }

/-- The decryption part of `open_seed`, after all checks. -/
def decryptSeed (crypto : Crypto) (localKey : Bytes) (envelope : SeedEnvelope) :
    Except SeedError Bytes := do
  let ephemeral ← parseX25519 crypto envelope.ephemeralKey
  let key ← (deriveKey crypto (crypto.xShared localKey ephemeral) envelope.clusterId
    ⟨envelope.network, envelope.clusterId, envelope.nodeId, envelope.peerId, envelope.identityKey,
      envelope.ephemeralKey⟩).mapError fun _ => .decrypt
  let nonce ← okOr .decrypt (crypto.unbase64 envelope.aeadNonce)
  let ciphertext ← okOr .decrypt (crypto.unbase64 envelope.ciphertext)
  if nonce.length = 12 then
    let plaintext ← okOr .decrypt (crypto.aeadDecrypt key nonce ciphertext)
    if plaintext.length = seedLen then .ok plaintext else .error .invalidSeed
  else .error .decrypt

/-- `RaftRuntime` as the seed methods read it. -/
structure SeedNode where
  /-- The Ed25519 seed of its identity. -/
  identity : Bytes
  /-- The X25519 secret. -/
  x25519 : Bytes
  verifier : RpcVerifier
  clusterId : String
  network : String
  nodeId : NodeId
  peerId : String

def SeedNode.identityKey (crypto : Crypto) (node : SeedNode) : String :=
  crypto.base64 (crypto.edPublic node.identity)

/-- Only a known leader is compared with the sender. -/
def fromOther (expectedLeader : Option NodeId) (fromNode : NodeId) : Bool :=
  match expectedLeader with
  | none => false
  | some leader => fromNode ≠ leader

/-- `verify_node_signature` of encoded bytes, as the messages of this module use it. -/
def verifySigned (crypto : Crypto) (verifier : RpcVerifier) (node : NodeId)
    (bytes : Except SeedError Bytes) (sig : String) : Except SeedError Unit := do
  let bytes ← bytes
  (verifier.verifyNodeSignature crypto node bytes sig).mapError fun _ => .badSignature

def openSeed (crypto : Crypto) (node : SeedNode) (expectedLeader : Option NodeId)
    (envelope : SeedEnvelope) : Except SeedError Bytes :=
  if envelope.v ≠ seedEnvelopeVersion then .error .decrypt
  else if envelope.clusterId ≠ node.clusterId ∨ envelope.network ≠ node.network then
    .error .wrongCluster
  else if envelope.nodeId ≠ node.nodeId ∨ envelope.peerId ≠ node.peerId ∨
      envelope.identityKey ≠ node.identityKey crypto then .error .wrongNode
  else if fromOther expectedLeader envelope.fromNode then .error .wrongNode
  else do
    verifySigned crypto node.verifier envelope.fromNode (envelopeSigningBytes crypto envelope)
      envelope.sig
    decryptSeed crypto node.x25519 envelope

/-! ## Acknowledgements -/

structure SeedAck where
  v : UInt8
  sender : NodeId
  receiver : NodeId
  ok : Bool
  error : String
  sig : String
deriving DecidableEq

def ackSigningBytes (crypto : Crypto) (ack : SeedAck) : Except SeedError Bytes :=
  encodeCbor crypto <| .map
    [("v", .uint ack.v.toNat), ("from", .uint ack.sender), ("to", .uint ack.receiver),
      ("ok", .bool ack.ok), ("error", .text ack.error)]

def signAck (crypto : Crypto) (identity : Bytes) (sender receiver : NodeId) (ok : Bool)
    (error : String) : Except SeedError SeedAck := do
  let ack : SeedAck := ⟨seedEnvelopeVersion, sender, receiver, ok, error, ""⟩
  let bytes ← ackSigningBytes crypto ack
  return { ack with sig := signB64 crypto identity bytes }

def verifyAck (crypto : Crypto) (verifier : RpcVerifier) (expectedFrom : NodeId) (ack : SeedAck) :
    Except SeedError Unit :=
  if ack.v ≠ seedEnvelopeVersion ∨ ack.sender ≠ expectedFrom then .error .badSignature
  else do
    verifySigned crypto verifier ack.sender (ackSigningBytes crypto ack) ack.sig
    if ack.ok then .ok () else .error .decrypt

/-! ## Requests to drop the seed -/

structure SeedDropRequest where
  op : String
  v : UInt8
  clusterId : String
  fromNode : NodeId
  nodeId : NodeId
  peerId : String
  sig : String
deriving DecidableEq

def dropSigningBytes (crypto : Crypto) (request : SeedDropRequest) : Except SeedError Bytes :=
  encodeCbor crypto <| .map
    [("v", .uint request.v.toNat), ("cluster_id", .text request.clusterId),
      ("from_node", .uint request.fromNode), ("node_id", .uint request.nodeId),
      ("peer_id", .text request.peerId)]

def signDropRequest (crypto : Crypto) (identity : Bytes) (leaderNode : NodeId)
    (clusterId : String) (targetNode : NodeId) (target : RaftNode) :
    Except SeedError SeedDropRequest := do
  let request : SeedDropRequest :=
    ⟨seedDropOp, seedEnvelopeVersion, clusterId, leaderNode, targetNode, target.peerId, ""⟩
  let bytes ← dropSigningBytes crypto request
  return { request with sig := signB64 crypto identity bytes }

def verifyDropRequest (crypto : Crypto) (node : SeedNode) (expectedLeader : Option NodeId)
    (request : SeedDropRequest) : Except SeedError Unit :=
  if request.op ≠ seedDropOp ∨ request.v ≠ seedEnvelopeVersion ∨
      request.clusterId ≠ node.clusterId ∨ request.nodeId ≠ node.nodeId ∨
      request.peerId ≠ node.peerId then .error .wrongNode
  else if fromOther expectedLeader request.fromNode then .error .wrongNode
  else
    verifySigned crypto node.verifier request.fromNode (dropSigningBytes crypto request) request.sig

/-! ## The holder of a seed -/

structure SeedHolder where
  /-- The contents of the authority key file. -/
  file : Option Bytes
  /-- The seed of the authority in memory. -/
  memory : Option Bytes
deriving DecidableEq

def SeedHolder.empty : SeedHolder := ⟨none, none⟩

def SeedHolder.holding (seed : Bytes) : SeedHolder := ⟨some seed, some seed⟩

/-- `write_seed_file`: the file is replaced atomically, or `io` is the error. -/
def writeSeedFile (holder : SeedHolder) (seed : Bytes) (io : Option String) :
    Except SeedError SeedHolder :=
  match io with
  | some e => .error (.io e)
  | none => .ok { holder with file := some seed }

/-- `remove_seed_file`; a file that does not exist is no error. -/
def removeSeedFile (holder : SeedHolder) (io : Option String) : Except SeedError SeedHolder :=
  match io with
  | some e => .error (.io e)
  | none => .ok { holder with file := none }

/-- `accept_seed`: the error, or the new copies. -/
def acceptSeed (crypto : Crypto) (node : SeedNode) (leader : Option NodeId) (io : Option String)
    (holder : SeedHolder) (envelope : SeedEnvelope) : Except String SeedHolder :=
  match openSeed crypto node leader envelope with
  | .error e => .error e.text
  | .ok seed =>
      if isValidNetworkName node.network then
        match writeSeedFile holder seed io with
        | .error e => .error e.text
        | .ok written => .ok { written with memory := some seed }
      else .error "invalid network or service name"

def acceptSeedDrop (crypto : Crypto) (node : SeedNode) (leader : Option NodeId)
    (io : Option String) (holder : SeedHolder) (request : SeedDropRequest) :
    Except String SeedHolder :=
  match verifyDropRequest crypto node leader request with
  | .error e => .error e.text
  | .ok () =>
      match removeSeedFile holder io with
      | .error e => .error e.text
      | .ok removed => .ok { removed with memory := none }

/-! ## The two ends of an instruction -/

/-- `deliver_seed` up to the message that is sent, when the leader's authority and the
target's entry in the membership are given. -/
def prepareDelivery (crypto : Crypto) (leader : SeedNode) (authority : Option Bytes)
    (target : NodeId) (node : Option RaftNode) (random : SealRandom) :
    Except String SeedEnvelope :=
  match authority, node with
  | none, _ => .error "leader has no authority seed"
  | some _, none => .error ("unknown target node " ++ toString target)
  | some seed, some node =>
      (sealSeed crypto leader.identity leader.nodeId leader.clusterId leader.network target node
        seed random).mapError SeedError.text

/-- `drop_remote_seed` up to the message that is sent. -/
def prepareDrop (crypto : Crypto) (leader : SeedNode) (target : NodeId) (node : Option RaftNode) :
    Except String SeedDropRequest :=
  match node with
  | none => .error ("unknown target node " ++ toString target)
  | some node =>
      (signDropRequest crypto leader.identity leader.nodeId leader.clusterId target node).mapError
        SeedError.text

/-- What `deliver_seed` and `drop_remote_seed` return for the acknowledgement they get. -/
def concludeInstruction (crypto : Crypto) (leader : SeedNode) (target : NodeId) (ack : SeedAck) :
    Except String Unit :=
  (verifyAck crypto leader.verifier target ack).mapError SeedError.text

/-- The handlers' acknowledgement of a result; the handlers of both messages build it alike. -/
def acknowledge (crypto : Crypto) (node : SeedNode) (sender : NodeId)
    (result : Except String SeedHolder) : Except SidecarError SeedAck :=
  let error := match result with
    | .ok _ => ""
    | .error e => e
  (signAck crypto node.identity node.nodeId sender result.isOk error).mapError fun e =>
    .new "seed_encode_error" e.text

end NexusAuth.Raft
