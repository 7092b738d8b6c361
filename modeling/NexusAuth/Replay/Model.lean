import NexusAuth.Admin
import NexusAuth.Legacy

/-!
# Authenticators that remember nonces

`replay.rs`, and the four places that keep a `ReplayGuard`: the management requests of
`admin.rs`, the signed requests of `admin_v2.rs`, the replication messages of
`replicate.rs` and the joins of `join.rs`.  A call returns its result next to the guard
that it leaves behind.
-/

namespace NexusAuth

open NexusAuth.Authority NexusAuth.Lib.OrderedMap NexusAuth.Lib.Results NexusAuth.Lib.Words

/-! ## The guard -/

def maxSeenNonces : Nat := 10000

structure ReplayGuard where
  /-- The `HashSet`. -/
  seen : BTreeSet String
  /-- The `VecDeque`, oldest first. -/
  order : List String
deriving DecidableEq

namespace ReplayGuard

def default : ReplayGuard := ⟨∅, []⟩

/-- The loop that forgets the oldest nonces. -/
def evict (seen : BTreeSet String) : List String → ReplayGuard
  | [] => ⟨seen, []⟩
  | old :: rest =>
      if (old :: rest).length > maxSeenNonces then evict (seen.erase old) rest
      else ⟨seen, old :: rest⟩

def checkAndInsert (guard : ReplayGuard) (nonce : String) :
    Except ReplayError Unit × ReplayGuard :=
  if nonce.isEmpty then (.error .empty, guard)
  else if guard.seen.contains nonce then (.error .replay, guard)
  else (.ok (), evict (guard.seen.insert nonce) (guard.order ++ [nonce]))

/-- The last check of every verification: the nonce is registered if all others passed. -/
def afterChecks {ε α : Type} (toError : ReplayError → ε) (guard : ReplayGuard) (nonce : String) :
    Except ε α → Except ε α × ReplayGuard
  | .error e => (.error e, guard)
  | .ok a =>
      match guard.checkAndInsert nonce with
      | (.error e, guard) => (.error (toError e), guard)
      | (.ok (), guard) => (.ok a, guard)

end ReplayGuard

/-! ## Signed requests -/

/-- `AdminVerifier::verify`; the hash is computed after the nonce was registered. -/
def AdminVerifier.verify (crypto : Crypto) (verifier : AdminVerifier) (guard : ReplayGuard)
    (req : AdminRequestV2) (now : Nat) : Except AdminV2Error VerifiedAdmin × ReplayGuard :=
  match guard.afterChecks replayError req.nonce (verifier.authenticate crypto req now) with
  | (.error e, guard) => (.error e, guard)
  | (.ok (role, signedBytes), guard) =>
      ((req.requestHash crypto).map fun hash => ⟨req.kid, role, hash, signedBytes⟩, guard)

/-! ## MACs -/

structure MacInput where
  op : String
  service : String
  peers : List String
  nonce : String
  ts : Nat
deriving DecidableEq

structure MacCrypto extends Crypto where
  /-- `Hmac<Sha256>` of a key and a message. -/
  hmac : Bytes → Bytes → Bytes
  /-- `serde_json::to_vec`. -/
  macJson : MacInput → Except String Bytes

/-- `MAX_TS_SKEW_SECS` of all three modules. -/
def maxTsSkewSecs : Nat := 300

def macLen : Nat := 32

/-- `sort_unstable` of strings. -/
def sortTexts (texts : List String) : List String := texts.mergeSort fun a b => a ≤ b

variable (crypto : MacCrypto)

/-! ## Management requests -/

structure AdminAuth where
  macKey : Bytes

namespace AdminAuth

def macInput (req : ManagementRequest) : MacInput :=
  ⟨req.op, req.service, sortTexts req.peers, req.nonce, req.ts⟩

variable (auth : AdminAuth)

/-- `verify` up to the nonce. -/
def authenticate (req : ManagementRequest) (now : Nat) : Except AdminError Unit := do
  let provided ← okOr .badMac (crypto.unbase64Url req.mac)
  ensure .badMac (provided.length = macLen)
  let bytes ← (crypto.macJson (macInput req)).mapError fun _ => .badMac
  ensure .badMac (crypto.hmac auth.macKey bytes = provided)
  ensure .expiredTimestamp (absDiff now req.ts ≤ maxTsSkewSecs)

def replayError : ReplayError → AdminError
  | .empty => .badNonce
  | .replay => .replay

def verify (guard : ReplayGuard) (req : ManagementRequest) (now : Nat) :
    Except AdminError Unit × ReplayGuard :=
  guard.afterChecks replayError req.nonce (auth.authenticate crypto req now)

end AdminAuth

/-! ## Replication messages -/

def StoreSnapshot.cbor (snapshot : StoreSnapshot) : Cbor :=
  .map [("network", .text snapshot.network), ("index_version", .uint snapshot.indexVersion),
    ("services", .map (snapshot.services.toList.map fun (name, service) =>
      (name, .map [("version", .uint service.version),
        ("members", .texts service.members.toList)]))),
    ("tombstones", .map (snapshot.tombstones.toList.map fun (name, version) =>
      (name, .uint version)))]

def replicateInput (msg : ReplicateMsg) : Bytes :=
  utf8Bytes "nexusauth/replicate" ++ [0] ++ utf8Bytes msg.service ++ [0] ++ beBytes msg.version ++
    [0] ++ beBytes msg.indexVersion ++ [0] ++ [if msg.deleted then 1 else 0] ++ [0] ++
    utf8Bytes (",".intercalate (sortTexts msg.members)) ++ [0] ++ utf8Bytes msg.nonce ++ [0] ++
    beBytes msg.ts

def syncReqInput (network nonce : String) (ts : Nat) : Bytes :=
  utf8Bytes "nexusauth/sync/req" ++ [0] ++ utf8Bytes network ++ [0] ++ utf8Bytes nonce ++ [0] ++
    beBytes ts

def syncRespInput (network nonce : String) (snapshot : StoreSnapshot) (ts : Nat) :
    Except RepError Bytes := do
  let cbor ← (crypto.cbor snapshot.cbor).mapError .decode
  return utf8Bytes "nexusauth/sync/resp" ++ [0] ++ utf8Bytes network ++ [0] ++ utf8Bytes nonce ++
    [0] ++ cbor ++ [0] ++ beBytes ts

structure RepAuth where
  key : Bytes

namespace RepAuth

def replayError : ReplayError → RepError
  | .empty => .badNonce
  | .replay => .replay

variable (auth : RepAuth)

def verifyMac (input : Bytes) (provided : String) : Except RepError Unit := do
  let provided ← okOr (.decode "base64") (crypto.unbase64Url provided)
  ensure .badMac (provided.length = macLen)
  ensure .badMac (crypto.hmac auth.key input = provided)

/-- `verify_mac`, and `check_fresh` up to the nonce. -/
def authenticate (input : Bytes) (mac : String) (ts now : Nat) : Except RepError Unit := do
  auth.verifyMac crypto input mac
  ensure .expiredTimestamp (absDiff now ts ≤ maxTsSkewSecs)

def verifyReplicate (guard : ReplayGuard) (msg : ReplicateMsg) (now : Nat) :
    Except RepError Unit × ReplayGuard :=
  guard.afterChecks replayError msg.nonce do
    ensure .badMac (msg.op = opReplicate)
    auth.authenticate crypto (replicateInput msg) msg.mac msg.ts now

def verifySyncRequest (guard : ReplayGuard) (req : SyncRequest) (now : Nat) :
    Except RepError Unit × ReplayGuard :=
  guard.afterChecks replayError req.nonce do
    ensure .badMac (req.op = opSyncRequest)
    auth.authenticate crypto (syncReqInput req.network req.nonce req.ts) req.mac req.ts now

/-- The nonce of a response is that of the request, and the guard is not asked. -/
def verifySyncResponse (network nonce : String) (resp : SyncResponse) : Except RepError Unit := do
  ensure .badMac (resp.op = opSyncResponse ∧ resp.nonce = nonce)
  let input ← syncRespInput crypto network nonce resp.snapshot resp.ts
  auth.verifyMac crypto input resp.mac

end RepAuth

/-! ## Joins with the management password -/

namespace PasswordJoin

def deriveKey (salt : String) (password : String) (info : Bytes) : Except PasswordJoinError Bytes :=
  okOr .auth (crypto.hkdf (utf8Bytes salt) (utf8Bytes password) info)

def joinMacKey (password network : String) : Except PasswordJoinError Bytes :=
  deriveKey crypto "nexusauth/join" password (utf8Bytes network)

def requestMacInput (network nonce : String) (ts : Nat) : Bytes :=
  utf8Bytes "nexusauth/join/request" ++ [0] ++ utf8Bytes network ++ [0] ++ utf8Bytes nonce ++ [0] ++
    beBytes ts

def b64Decode (text : String) : Except PasswordJoinError Bytes :=
  okOr (.decode "base64") (crypto.unbase64Url text)

/-- `verify_request` up to the nonce. -/
def authenticate (password network : String) (req : PasswordJoinRequest) (now : Nat) :
    Except PasswordJoinError Unit := do
  ensure .auth (req.op = opJoinRequest ∧ req.network = network)
  let key ← joinMacKey crypto password network
  let provided ← b64Decode crypto req.mac
  ensure .auth (crypto.hmac key (requestMacInput network req.nonce req.ts) = provided)
  ensure .auth (absDiff now req.ts ≤ maxTsSkewSecs)

def replayError : ReplayError → PasswordJoinError
  | .empty => .invalidNonce
  | .replay => .auth

def verifyRequest (guard : ReplayGuard) (password network : String) (req : PasswordJoinRequest)
    (now : Nat) : Except PasswordJoinError Unit × ReplayGuard :=
  guard.afterChecks replayError req.nonce (authenticate crypto password network req now)

end PasswordJoin

/-! ## An instance -/

def sampleMacCrypto : MacCrypto where
  toCrypto := sampleCrypto
  hmac key message := key ++ message
  macJson _ := .ok []

end NexusAuth
