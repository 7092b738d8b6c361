import NexusAuth.Admin
import NexusAuth.Raft.Transport

/-!
# Join tokens and join requests

`raft/token.rs` and `raft/join.rs`: a token is signed by a root key and names the
cluster, the entry points that may accept it and how often it can be used.  A joining
node signs its request with its own identity key.  The field `edge_peer`, which a
forwarding node fills in, is not covered by that signature.
-/

namespace NexusAuth.Raft

open NexusAuth.Authority NexusAuth.Lib.Results NexusAuth.Lib.Words

def joinTokenVersion : UInt8 := 1

def raftJoinOp : String := "raft_join"

def raftJoinVersion : UInt8 := 1

def raftJoinMaxTsSkewSecs : Nat := 300

inductive JoinTokenError
  | badVersion
  | emptyJti
  | unknownKey
  | notRoot
  | badSignature
  | expired
  | wrongCluster
  | wrongNetwork
  | wrongAudience
  | wrongPeer
  | exhausted
  | badRequest (message : String)
deriving DecidableEq

def JoinTokenError.code : JoinTokenError → String
  | .badVersion => "join_token_bad_version"
  | .emptyJti => "join_token_bad_jti"
  | .unknownKey => "unknown_admin_key"
  | .notRoot => "forbidden_role"
  | .badSignature => "bad_signature"
  | .expired => "join_token_expired"
  | .wrongCluster => "join_token_wrong_cluster"
  | .wrongNetwork => "join_token_wrong_network"
  | .wrongAudience => "join_token_wrong_audience"
  | .wrongPeer => "join_token_wrong_peer"
  | .exhausted => "join_token_replayed"
  | .badRequest _ => "bad_request"

def JoinTokenError.text : JoinTokenError → String
  | .badVersion => "unsupported join token version"
  | .emptyJti => "join token jti is empty"
  | .unknownKey => "unknown admin key"
  | .notRoot => "join token must be signed by a root key"
  | .badSignature => "invalid join token signature"
  | .expired => "join token expired"
  | .wrongCluster => "join token cluster mismatch"
  | .wrongNetwork => "join token network mismatch"
  | .wrongAudience => "join token audience mismatch"
  | .wrongPeer => "join token bound to a different peer"
  | .exhausted => "join token already used"
  | .badRequest message => "bad join token: " ++ message

/-! ## Tokens -/

/-- The fields of `JoinTokenSigned`, all but the signature. -/
def JoinToken.signedFields (token : JoinToken) : List (String × Cbor) :=
  [("v", .uint token.v.toNat), ("jti", .text token.jti), ("cluster_id", .text token.clusterId),
    ("network", .text token.network), ("audience", .text token.audience),
    ("expires_at", .uint token.expiresAt), ("max_uses", .uint token.maxUses.toNat),
    ("bind_peer_id", .text token.bindPeerId), ("kid", .text token.kid)]

def tokenSigningBytes (crypto : Crypto) (token : JoinToken) : Except JoinTokenError Bytes :=
  (crypto.cbor (.map token.signedFields)).mapError .badRequest

def tokenFromSpec (clusterId network kid : String) (spec : AdminJoinTokenSpec) : JoinToken where
  v := joinTokenVersion
  jti := spec.jti
  clusterId := clusterId
  network := network
  audience := spec.audience
  expiresAt := spec.expiresAt
  maxUses := if spec.maxUses = 0 then 1 else spec.maxUses
  bindPeerId := spec.bindPeerId
  kid := kid
  sig := spec.sig

def mapAdminError : AdminV2Error → JoinTokenError
  | .unknownKey => .unknownKey
  | .badSignature => .badSignature
  | other => .badRequest other.text

/-- `auth` is any entry point, and other audiences are peer ids. -/
def audienceAllowed (token : JoinToken) (allowed : List String) : Bool :=
  token.audience == "auth" ||
    allowed.any fun candidate => !candidate.isEmpty && candidate == token.audience

def verifyJoinToken (crypto : Crypto) (verifier : AdminVerifier) (token : JoinToken) (now : Nat)
    (clusterId network : String) (allowed : List String) : Except JoinTokenError Unit := do
  ensure .badVersion (token.v = joinTokenVersion)
  ensure .emptyJti (!trimIsEmpty token.jti)
  ensure .wrongCluster (token.clusterId = clusterId)
  ensure .wrongNetwork (token.network = network)
  ensure .expired (token.expiresAt ≠ 0 ∧ now ≤ token.expiresAt)
  ensure .exhausted (token.maxUses ≠ 0)
  ensure .wrongAudience (audienceAllowed token allowed)
  let bytes ← tokenSigningBytes crypto token
  let role ← (verifier.verifySignature crypto token.kid bytes token.sig).mapError mapAdminError
  ensure .notRoot (role = .root)

/-! ## Join requests -/

inductive JoinError
  | badRequest (message : String)
  | auth
  | token (error : JoinTokenError)
  | expiredTimestamp
deriving DecidableEq

def JoinError.code : JoinError → String
  | .badRequest _ => "bad_request"
  | .auth => "join_auth_failed"
  | .token e => e.code
  | .expiredTimestamp => "expired_timestamp"

def JoinError.text : JoinError → String
  | .badRequest message => "bad join request: " ++ message
  | .auth => "join request signature invalid"
  | .token e => e.text
  | .expiredTimestamp => "join timestamp out of range"

structure RaftJoinRequest where
  op : String
  v : UInt8
  clusterId : String
  network : String
  token : JoinToken
  nodeId : NodeId
  peerId : String
  identityKey : String
  x25519Key : String
  nonce : String
  ts : Nat
  edgePeer : String
  sig : String
deriving DecidableEq

def JoinToken.cbor (token : JoinToken) : Cbor :=
  .map (token.signedFields ++ [("sig", .text token.sig)])

def RaftJoinRequest.signingBytes (crypto : Crypto) (req : RaftJoinRequest) :
    Except JoinError Bytes :=
  (crypto.cbor <| .map
    [("v", .uint req.v.toNat), ("cluster_id", .text req.clusterId), ("network", .text req.network),
      ("token", req.token.cbor), ("node_id", .uint req.nodeId), ("peer_id", .text req.peerId),
      ("identity_key", .text req.identityKey), ("x25519_key", .text req.x25519Key),
      ("nonce", .text req.nonce), ("ts", .uint req.ts)]).mapError .badRequest

def parseIdentity (crypto : Crypto) (identityKey : String) : Except JoinError Bytes := do
  let raw ← okOr .auth (crypto.unbase64 identityKey)
  ensure .auth (raw.length = 32 ∧ crypto.edParses raw)
  return raw

/-- `parse_x25519` of a join request; the key itself is not used. -/
def checkX25519 (crypto : Crypto) (x25519Key : String) : Except JoinError Unit := do
  let raw ← okOr (.badRequest "x25519_key is not base64") (crypto.unbase64 x25519Key)
  ensure (.badRequest "x25519_key must be 32 bytes") (raw.length = 32)

def RaftJoinRequest.verify (crypto : Crypto) (verifier : AdminVerifier) (clusterId network : String)
    (now : Nat) (allowed : List String) (req : RaftJoinRequest) : Except JoinError Unit := do
  ensure (.badRequest "unsupported join request") (req.op = raftJoinOp ∧ req.v = raftJoinVersion)
  ensure (.badRequest "cluster/network mismatch")
    (req.clusterId = clusterId ∧ req.network = network)
  ensure (.badRequest "node_id must be non-zero") (req.nodeId ≠ 0)
  ensure (.badRequest "invalid peer_id") (isValidPeerId crypto.toPrimitives req.peerId)
  ensure (.badRequest "node_id does not match peer_id")
    (req.nodeId = nodeIdFromPeerId crypto.toPrimitives req.peerId)
  ensure (.badRequest "invalid nonce") (!req.nonce.isEmpty && req.nonce.utf8ByteSize ≤ 128)
  ensure .expiredTimestamp (absDiff now req.ts ≤ raftJoinMaxTsSkewSecs)
  checkX25519 crypto req.x25519Key
  let identity ← parseIdentity crypto req.identityKey
  ensure (.token .wrongPeer)
    (req.token.bindPeerId.isEmpty || req.token.bindPeerId == req.peerId)
  (verifyJoinToken crypto verifier req.token now clusterId network allowed).mapError .token
  let sig ← okOr .auth (crypto.unbase64Url req.sig)
  let bytes ← req.signingBytes crypto
  ensure .auth (crypto.edVerify identity bytes sig)

end NexusAuth.Raft
