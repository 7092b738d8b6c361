import NexusAuth.Lib.Interaction
import NexusAuth.Protocol
import NexusAuth.Records
import NexusAuth.Replay.Model

/-!
# Joining with the management password

`attempt` of `join.rs`, which asks the sidecars that the DHT knows for the authority key
and the state of the network and writes both to disk, and `build_initial` of `main.rs`,
which looks at the disk when the sidecar starts.

`atomic_write` writes a temporary file and renames it.  Only the renaming touches the
file itself, and the temporary files are left out.
-/

namespace NexusAuth

open NexusAuth.Authority NexusAuth.Lib NexusAuth.Lib.Interaction NexusAuth.Lib.OrderedMap
open NexusAuth.Lib.Results

/-! ## Calls -/

inductive Target
  | authorityKey (seed : Bytes)
  | state (snapshot : StoreSnapshot)

inductive FileOp
  | createDirAll
  | write
  | setPermissions
  | rename
deriving DecidableEq

inductive JoinCall
  | whoami
  | discoverProviders
  /-- `random_b64(16)`. -/
  | random
  | now
  | serviceRequestTo (peer : String) (payload : Bytes)
  /-- The `value` of what `query_key` finds. -/
  | queryKey (key : String)
  | file (op : FileOp) (target : Target)

@[reducible] def JoinAnswer : JoinCall → Type
  | .whoami => Except SidecarError String
  | .discoverProviders => Except SidecarError (List String)
  | .random => String
  | .now => Nat
  | .serviceRequestTo _ _ => Except SidecarError Bytes
  | .queryKey _ => Except SidecarError (Option Bytes)
  | .file _ _ => Except String Unit

abbrev JoinM := Prog JoinCall JoinAnswer

/-- The encodings of what is sent and stored, and the verification of a DHT record. -/
structure JoinWire where
  /-- `serde_json::to_vec` of a request and `serde_json::from_slice` of a response. -/
  encodeRequest : PasswordJoinRequest → Except String Bytes
  decodeResponse : Bytes → Except String PasswordJoinResponse
  /-- `ciborium::de::from_reader` of a `JoinSecret`. -/
  decodeSecret : Bytes → Option (Bytes × StoreSnapshot)
  /-- The error of `toml::to_string_pretty`. -/
  tomlError : StoreSnapshot → Option String
  /-- `verify_cose_sign1` of a public key, the external data and a record. -/
  coseVerifies : Bytes → Bytes → Bytes → Bool

structure JoinConfig where
  network : String
  managementPassword : String
deriving DecidableEq

def opJoinResponse : String := "join_response"

def seedLen : Nat := 32

namespace PasswordJoin

abbrev ask (call : JoinCall) : JoinM (JoinAnswer call) := request call

/-! ## Requests and responses -/

section Messages

variable (crypto : MacCrypto) (wire : JoinWire) (password network : String)

def makeRequest (nonce : String) (ts : Nat) : Except PasswordJoinError PasswordJoinRequest := do
  let key ← joinMacKey crypto password network
  return {
    op := opJoinRequest
    network := network
    nonce := nonce
    ts := ts
    mac := crypto.base64Url (crypto.hmac key (requestMacInput network nonce ts)) }

def responseMacInput (responderNonce : String) (aeadNonce ciphertext : Bytes) : Bytes :=
  utf8Bytes "nexusauth/join/response" ++ [0] ++ utf8Bytes network ++ [0] ++
    utf8Bytes responderNonce ++ [0] ++ aeadNonce ++ [0] ++ ciphertext

def encKey (joinerNonce responderNonce : String) : Except PasswordJoinError Bytes :=
  deriveKey crypto "nexusauth/join/enc" password
    (utf8Bytes network ++ [0] ++ utf8Bytes joinerNonce ++ [0] ++ utf8Bytes responderNonce)

def joinSecret (seed : Bytes) (state : StoreSnapshot) : Cbor :=
  .map [("seed", .octets seed), ("state", state.cbor)]

/-- The two nonces are random, `random_b64(16)` and `random_bytes(12)`. -/
def makeResponse (responderNonce : String) (aeadNonce : Bytes) (joinerNonce : String) (seed : Bytes)
    (state : StoreSnapshot) : Except PasswordJoinError PasswordJoinResponse := do
  let key ← encKey crypto password network joinerNonce responderNonce
  let plaintext ← (crypto.cbor (joinSecret seed state)).mapError .decode
  let ciphertext ← okOr .auth (crypto.aeadEncrypt key aeadNonce plaintext)
  let macKey ← joinMacKey crypto password network
  return {
    op := opJoinResponse
    responderNonce := responderNonce
    aeadNonce := crypto.base64Url aeadNonce
    ciphertext := crypto.base64Url ciphertext
    mac := crypto.base64Url
      (crypto.hmac macKey (responseMacInput network responderNonce aeadNonce ciphertext)) }

def openResponse (joinerNonce : String) (resp : PasswordJoinResponse) :
    Except PasswordJoinError (Bytes × StoreSnapshot) := do
  ensure .auth (resp.op = opJoinResponse)
  let aeadNonce ← b64Decode crypto resp.aeadNonce
  ensure (.decode "aead nonce length") (aeadNonce.length = 12)
  let ciphertext ← b64Decode crypto resp.ciphertext
  let macKey ← joinMacKey crypto password network
  let provided ← b64Decode crypto resp.mac
  ensure .auth (crypto.hmac macKey
    (responseMacInput network resp.responderNonce aeadNonce ciphertext) = provided)
  let key ← encKey crypto password network joinerNonce resp.responderNonce
  let plaintext ← okOr .decrypt (crypto.aeadDecrypt key aeadNonce ciphertext)
  let (seed, state) ← okOr (.decode "secret") (wire.decodeSecret plaintext)
  ensure (.decode "seed length") (seed.length = seedLen)
  return (seed, state)

end Messages

/-! ## Writing -/

def fileOp (op : FileOp) (target : Target) : ExceptT String JoinM Unit :=
  Interaction.attempt id (ask (.file op target))

/-- A path without a parent skips the first operation. -/
def atomicWrite (target : Target) : ExceptT String JoinM Unit := do
  fileOp .createDirAll target
  fileOp .write target
  fileOp .setPermissions target
  fileOp .rename target

def fromSnapshot (wire : JoinWire) (network : String) (snapshot : StoreSnapshot) :
    ExceptT StoreError JoinM Store := do
  fallible (ensure (.networkMismatch network snapshot.network) (snapshot.network = network))
  fallible (match wire.tomlError snapshot with
    | some e => .error (.parse e)
    | none => .ok ())
  Interaction.attempt .io (atomicWrite (.state snapshot)).run
  return { snapshot with file := some snapshot }

/-- The end of `attempt`: the key, and then the state. -/
def persist (wire : JoinWire) (authority : Signer) (state : StoreSnapshot) :
    ExceptT PasswordJoinError JoinM (Signer × Store) := do
  Interaction.attempt .persist (atomicWrite (.authorityKey authority.seed)).run
  let store ← Interaction.attempt (fun e => .persist e.text)
    (fromSnapshot wire authority.network state).run
  return (authority, store)

/-! ## Attempts -/

section Attempt

variable (crypto : MacCrypto) (wire : JoinWire) (config : JoinConfig)

/-- A record that is there must be signed by the fetched key. -/
def verifyAgainstDht (authority : Signer) : JoinM (Except PasswordJoinError Unit) := do
  let key := indexKey crypto.toCrypto authority.network
  match ← ask (.queryKey key) with
  | .error _ | .ok none => return .ok ()
  | .ok (some value) =>
      return ensure .keyMismatch
        (wire.coseVerifies (crypto.edPublic authority.seed) (utf8Bytes key) value)

/-- The request to one candidate: `error` ends the attempt, and `ok` says what the peer sent
or why the next one is asked. -/
def fetch (peer : String) :
    JoinM (Except PasswordJoinError (Except PasswordJoinError (Bytes × StoreSnapshot))) := do
  let nonce ← ask .random
  let ts ← ask .now
  match makeRequest crypto config.managementPassword config.network nonce ts with
  | .error e => return .error e
  | .ok req =>
      match wire.encodeRequest req with
      | .error e => return .error (.decode e)
      | .ok payload =>
          match ← ask (.serviceRequestTo peer payload) with
          | .error e =>
              return .ok (.error (.request (peer ++ ": [" ++ e.code ++ "] " ++ e.message)))
          | .ok bytes =>
              match wire.decodeResponse bytes with
              | .error e => return .ok (.error (.badResponse (peer ++ ": " ++ e)))
              | .ok resp =>
                  return .ok (openResponse crypto wire config.managementPassword config.network
                    nonce resp)

/-- The loop over the candidates.  A key that the DHT contradicts is not kept as an error. -/
def tryPeers (lastError : Option PasswordJoinError) :
    List String → JoinM (Except PasswordJoinError (Signer × Store))
  | [] => return .error (lastError.getD .noCandidates)
  | peer :: rest => do
      match ← fetch crypto wire config peer with
      | .error e => return .error e
      | .ok (.error e) => tryPeers (some e) rest
      | .ok (.ok (seed, state)) =>
          match Signer.fromSeed seed config.network with
          | .error e => return .error (.decode e.text)
          | .ok authority =>
              match ← verifyAgainstDht crypto wire authority with
              | .error _ => tryPeers lastError rest
              | .ok () => (persist wire authority state).run

/-- The providers without this node, each once and in order. -/
def candidates (me : Option String) (peers : List String) : List String :=
  sortTexts (peers.filter fun peer => some peer ≠ me).eraseDups

def attempt : JoinM (Except PasswordJoinError (Signer × Store)) := do
  let me ← ask .whoami
  let peers ← ask .discoverProviders
  let peers := candidates me.toOption (peers.toOption.getD [])
  if peers.isEmpty then
    return .error .noCandidates
  tryPeers crypto wire config none peers

end Attempt

end PasswordJoin

/-! ## Starting -/

structure Disk where
  authorityKey : Option Bytes
  state : Option StoreSnapshot
deriving DecidableEq

structure StartConfig extends JoinConfig where
  joinMode : String
  clusterEnabled : Bool
  initialMembers : BTreeMap String (List String)

/-- Failures of the file operations at start, and the random bytes of `Authority::generate`. -/
structure StartIo where
  keyRead : Option String
  stateRead : Option String
  save : SaveIo
  keyWrite : Option String
  random : Bytes

inductive StartResult
  /-- `std::process::exit(1)` after a log entry with this title. -/
  | exits (title : String)
  | ready (authority : Option Signer) (store : Store)
  /-- No key yet; the first connection joins. -/
  | waits
deriving DecidableEq

def Signer.load (io : StartIo) (bytes : Bytes) (network : String) : Option Signer :=
  if io.keyRead.isSome || bytes.length ≠ seedLen then none
  else (Signer.fromSeed bytes network).toOption

def Disk.readState (disk : Disk) (io : StartIo) : FileRead :=
  match io.stateRead, disk.state with
  | some e, _ => .failed e
  | none, none => .missing
  | none, some snapshot => .found (.ok snapshot)

section Start

variable (prim : Primitives) (config : StartConfig) (io : StartIo) (disk : Disk)

/-- `load_or_create` in each branch of `build_initial`. -/
def readyWith (authority : Option Signer) : StartResult :=
  match Store.loadOrCreate prim io.save (disk.readState io) config.network
    config.initialMembers with
  | .error _ => .exits "加载成员状态失败"
  | .ok store => .ready authority store

def buildInitial : StartResult :=
  match disk.authorityKey with
  | some bytes =>
      match Signer.load io bytes config.network with
      | none => .exits "加载权威密钥失败"
      | some authority => readyWith prim config io disk (some authority)
  | none =>
      if config.joinMode = "init" then
        match Signer.fromSeed io.random config.network with
        | .error _ => .exits "生成权威密钥失败"
        | .ok authority =>
            if io.keyWrite.isSome then .exits "写入权威密钥失败"
            else readyWith prim config io disk (some authority)
      else if config.clusterEnabled then readyWith prim config io disk none
      else .waits

end Start

end NexusAuth
