import NexusAuth.Crypto
import NexusAuth.Lib.Results
import NexusAuth.Raft.StateMachine

/-!
# Requests of administrators

`admin_v2.rs`: a request carries the id of its key and an Ed25519 signature over all of
its fields, and the table of keys gives each one the role of a viewer or of root.  The
hash of a request leaves out its nonce and time, so that a retry has the hash of the
first attempt.

Two layouts are signed.  Requests about members and tokens append two fields to the
layout of all others.
-/

namespace NexusAuth

open NexusAuth.Authority NexusAuth.Lib.OrderedMap NexusAuth.Lib.Results NexusAuth.Lib.Words
open NexusAuth.Raft

def adminRequestVersion : UInt8 := 2

def adminMaxTsSkewSecs : Nat := 300

def adminMaxNonceLen : Nat := 64

def adminMaxRequestIdLen : Nat := 128

def forwardedAdminVersion : UInt8 := 1

def forwardedAdminOp : String := "forwarded_admin"

inductive AdminRole
  | viewer
  | root
deriving DecidableEq

structure AdminMemberSpec where
  nodeId : NodeId
  peerId : String
  identityKey : String
  x25519Key : String
deriving DecidableEq

structure AdminJoinTokenSpec where
  jti : String
  audience : String
  expiresAt : Nat
  maxUses : UInt32
  bindPeerId : String
  sig : String
deriving DecidableEq

structure AdminRequestV2 where
  v : UInt8
  op : String
  service : String
  peers : List String
  kid : String
  requestId : String
  nonce : String
  ts : Nat
  sig : String
  member : Option AdminMemberSpec
  joinToken : Option AdminJoinTokenSpec
deriving DecidableEq

def AdminRequestV2.default : AdminRequestV2 := ⟨0, "", "", [], "", "", "", 0, "", none, none⟩

def canonicalPeers (peers : List String) : List String := (collectPeers peers).toList

inductive AdminV2Error
  | badRequest (message : String)
  | unknownKey
  | badSignature
  | expiredTimestamp
  | replay
deriving DecidableEq

def AdminV2Error.code : AdminV2Error → String
  | .badRequest _ => "bad_request"
  | .unknownKey => "unknown_admin_key"
  | .badSignature => "bad_signature"
  | .expiredTimestamp => "expired_timestamp"
  | .replay => "replay"

def AdminV2Error.text : AdminV2Error → String
  | .badRequest message => "bad admin request: " ++ message
  | .unknownKey => "unknown admin key"
  | .badSignature => "invalid admin signature"
  | .expiredTimestamp => "admin timestamp out of range"
  | .replay => "admin nonce replayed"

/-! ## Signed bytes -/

def AdminMemberSpec.cbor (spec : AdminMemberSpec) : Cbor :=
  .map [("node_id", .uint spec.nodeId), ("peer_id", .text spec.peerId),
    ("identity_key", .text spec.identityKey), ("x25519_key", .text spec.x25519Key)]

def AdminJoinTokenSpec.cbor (spec : AdminJoinTokenSpec) : Cbor :=
  .map [("jti", .text spec.jti), ("audience", .text spec.audience),
    ("expires_at", .uint spec.expiresAt), ("max_uses", .uint spec.maxUses.toNat),
    ("bind_peer_id", .text spec.bindPeerId), ("sig", .text spec.sig)]

namespace AdminRequestV2

variable (req : AdminRequestV2)

/-- The fields of `AdminIdentity`, which `AdminSigned` starts with. -/
def identityFields : List (String × Cbor) :=
  [("v", .uint req.v.toNat), ("op", .text req.op), ("service", .text req.service),
    ("peers", .texts (canonicalPeers req.peers)), ("kid", .text req.kid),
    ("request_id", .text req.requestId)]

def extensionFields : List (String × Cbor) :=
  if req.member.isNone && req.joinToken.isNone then []
  else
    [("member", .option AdminMemberSpec.cbor req.member),
      ("join_token", .option AdminJoinTokenSpec.cbor req.joinToken)]

/-- `AdminSigned`, or `AdminSignedExtended`. -/
def signed : Cbor :=
  .map (req.identityFields ++ [("nonce", .text req.nonce), ("ts", .uint req.ts)] ++
    req.extensionFields)

/-- `AdminIdentity`, or `AdminIdentityExtended`. -/
def identity : Cbor := .map (req.identityFields ++ req.extensionFields)

variable (crypto : Crypto)

def encode (item : Cbor) : Except AdminV2Error Bytes :=
  (crypto.cbor item).mapError fun e => .badRequest ("CBOR encode failed: " ++ e)

def signingBytes : Except AdminV2Error Bytes := encode crypto req.signed

def requestHash : Except AdminV2Error String := do
  let bytes ← encode crypto req.identity
  return crypto.base64Url (crypto.sha256 bytes)

end AdminRequestV2

/-! ## Verification -/

structure VerifiedAdmin where
  kid : String
  role : AdminRole
  requestHash : String
  signedBytes : Bytes
deriving DecidableEq

inductive ReplayError
  | empty
  | replay
deriving DecidableEq

/-- The table of keys of an `AdminVerifier`; its nonces are kept by the node. -/
structure AdminVerifier where
  keys : BTreeMap String (Bytes × AdminRole)

namespace AdminVerifier

variable (crypto : Crypto) (verifier : AdminVerifier)

def verifySignature (kid : String) (message : Bytes) (signature : String) :
    Except AdminV2Error AdminRole := do
  let (key, role) ← okOr .unknownKey verifier.keys[kid]?
  let sig ← okOr .badSignature (crypto.unbase64Url signature)
  ensure .badSignature (crypto.edVerify key message sig)
  return role

/-- `verify` up to the question whether the nonce is new. -/
def authenticate (req : AdminRequestV2) (now : Nat) : Except AdminV2Error (AdminRole × Bytes) := do
  ensure (.badRequest ("unsupported admin request version: " ++ toString req.v))
    (req.v = adminRequestVersion)
  ensure (.badRequest "missing kid") (!trimIsEmpty req.kid)
  ensure (.badRequest "missing request_id") (!trimIsEmpty req.requestId)
  ensure (.badRequest "request_id too long") (req.requestId.utf8ByteSize ≤ adminMaxRequestIdLen)
  ensure (.badRequest "missing nonce") (!req.nonce.isEmpty)
  ensure (.badRequest "nonce too long") (req.nonce.utf8ByteSize ≤ adminMaxNonceLen)
  let (key, role) ← okOr .unknownKey verifier.keys[req.kid]?
  let signedBytes ← req.signingBytes crypto
  let sig ← okOr .badSignature (crypto.unbase64Url req.sig)
  ensure .badSignature (crypto.edVerify key signedBytes sig)
  ensure .expiredTimestamp (absDiff now req.ts ≤ adminMaxTsSkewSecs)
  return (role, signedBytes)

def replayError : ReplayError → AdminV2Error
  | .empty => .badRequest "missing nonce"
  | .replay => .replay

end AdminVerifier

/-! ## Forwarding and status -/

structure ForwardedAdminEnvelope where
  op : String
  v : UInt8
  requestB64 : String
  edgePeer : String
  edgeSig : String
deriving DecidableEq

structure RaftStatusMember where
  nodeId : NodeId
  peerId : String
  voter : Bool
deriving DecidableEq

structure RaftStatusSnapshot where
  clusterId : String
  nodeId : NodeId
  leader : Option String
  term : Nat
  state : String
  appliedIndex : Option Nat
  lastLogIndex : Option Nat
  voters : List RaftStatusMember
  learners : List RaftStatusMember
  stale : Bool
deriving DecidableEq

def RaftStatusSnapshot.health (snapshot : RaftStatusSnapshot) : String :=
  if snapshot.leader.isNone then "no_leader" else if snapshot.stale then "stale" else "ok"

end NexusAuth
