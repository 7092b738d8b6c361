import NexusAuth.Store.Model

/-!
# Messages of the legacy control plane

The requests of `admin.rs`, `replicate.rs` and `join.rs` that a sidecar without Raft
handles, and the errors of the three modules.
-/

namespace NexusAuth

def opJoinRequest : String := "join_request"

def opReplicate : String := "replicate"

def opSyncRequest : String := "sync_request"

def opSyncResponse : String := "sync_response"

structure ManagementRequest where
  op : String
  service : String
  peers : List String
  nonce : String
  ts : Nat
  mac : String
deriving DecidableEq

structure ReplicateMsg where
  op : String
  service : String
  version : Nat
  members : List String
  indexVersion : Nat
  deleted : Bool
  nonce : String
  ts : Nat
  mac : String
deriving DecidableEq

structure SyncRequest where
  op : String
  network : String
  nonce : String
  ts : Nat
  mac : String
deriving DecidableEq

structure SyncResponse where
  op : String
  nonce : String
  snapshot : StoreSnapshot
  ts : Nat
  mac : String
deriving DecidableEq

/-- `join::JoinRequest`, the join with the management password. -/
structure PasswordJoinRequest where
  op : String
  network : String
  nonce : String
  ts : Nat
  mac : String
deriving DecidableEq

structure PasswordJoinResponse where
  op : String
  responderNonce : String
  aeadNonce : String
  ciphertext : String
  mac : String
deriving DecidableEq

/-! ## Errors -/

inductive AdminError
  | emptyPassword
  | kdf
  | badMac
  | expiredTimestamp
  | replay
  | badNonce
deriving DecidableEq

def AdminError.code : AdminError → String
  | .emptyPassword => "empty_password"
  | .kdf => "kdf_error"
  | .badMac => "bad_mac"
  | .expiredTimestamp => "expired_timestamp"
  | .replay => "replay"
  | .badNonce => "bad_nonce"

def AdminError.text : AdminError → String
  | .emptyPassword => "management password is empty"
  | .kdf => "key derivation failed"
  | .badMac => "invalid management mac"
  | .expiredTimestamp => "management timestamp out of range"
  | .replay => "management nonce replayed"
  | .badNonce => "management nonce is empty"

def StoreError.code : StoreError → String
  | .notFound _ => "not_found"
  | .alreadyExists _ => "already_exists"
  | .invalidService _ => "invalid_service"
  | .invalidPeer _ => "invalid_peer"
  | .networkMismatch _ _ => "network_mismatch"
  | .parse _ => "state_error"
  | .io _ => "io_error"

def StoreError.text : StoreError → String
  | .io e => "io error: " ++ e
  | .parse e => "state parse error: " ++ e
  | .networkMismatch expected found =>
      "state network mismatch: expected '" ++ expected ++ "', found '" ++ found ++ "'"
  | .invalidService s => "invalid service name: '" ++ s ++ "'"
  | .invalidPeer p => "invalid peer id: '" ++ p ++ "'"
  | .notFound s => "service not found: '" ++ s ++ "'"
  | .alreadyExists s => "service already exists: '" ++ s ++ "'"

inductive RepError
  | emptyPassword
  | kdf
  | badMac
  | expiredTimestamp
  | replay
  | badNonce
  | decode (error : String)
  | store (error : StoreError)
deriving DecidableEq

def RepError.code : RepError → String
  | .emptyPassword => "rep_empty_password"
  | .kdf => "rep_kdf_error"
  | .badMac => "rep_bad_mac"
  | .expiredTimestamp => "rep_expired_timestamp"
  | .replay => "rep_replay"
  | .badNonce => "rep_bad_nonce"
  | .decode _ => "rep_decode_error"
  | .store _ => "rep_store_error"

def RepError.text : RepError → String
  | .emptyPassword => "management password is empty"
  | .kdf => "key derivation failed"
  | .badMac => "invalid replication mac"
  | .expiredTimestamp => "replication timestamp out of range"
  | .replay => "replication nonce replayed"
  | .badNonce => "replication nonce is empty"
  | .decode e => "replication decode error: " ++ e
  | .store e => "state merge error: " ++ e.text

/-- `join::JoinError`. -/
inductive PasswordJoinError
  | noCandidates
  | request (error : String)
  | badResponse (error : String)
  | auth
  | decrypt
  | decode (error : String)
  | keyMismatch
  | persist (error : String)
  | invalidNonce
deriving DecidableEq

def PasswordJoinError.code : PasswordJoinError → String
  | .noCandidates => "no_candidates"
  | .request _ => "request_failed"
  | .badResponse _ => "bad_response"
  | .auth => "join_auth_failed"
  | .decrypt => "join_decrypt_failed"
  | .decode _ => "join_decode_error"
  | .keyMismatch => "join_key_mismatch"
  | .persist _ => "join_persist_error"
  | .invalidNonce => "join_invalid_nonce"

def PasswordJoinError.text : PasswordJoinError → String
  | .noCandidates => "no join candidate available"
  | .request e => "join request failed: " ++ e
  | .badResponse e => "bad join response: " ++ e
  | .auth => "join authentication failed"
  | .decrypt => "join secret decryption failed"
  | .decode e => "join decode error: " ++ e
  | .keyMismatch => "fetched authority key mismatches DHT record"
  | .persist e => "persist joined state failed: " ++ e
  | .invalidNonce => "invalid join nonce"

end NexusAuth
