import NexusAuth.Replay.Model
import NexusAuth.Service.Dispatch

/-!
# Sending to other sidecars

The sending half of `replicate.rs`.  A change of the legacy store is broadcast to all
sidecars that can be discovered, and every `sync_interval` a sidecar pulls the snapshot of
one of them.  The receiving half are the handlers of `service.rs`.
-/

namespace NexusAuth

open NexusAuth.Lib.Interaction NexusAuth.Lib.Results NexusAuth.Service

namespace RepAuth

variable (crypto : MacCrypto) (auth : RepAuth)

def macB64 (input : Bytes) : String := crypto.base64Url (crypto.hmac auth.key input)

def signReplicate (msg : ReplicateMsg) : String := auth.macB64 crypto (replicateInput msg)

def signSyncRequest (network nonce : String) (ts : Nat) : String :=
  auth.macB64 crypto (syncReqInput network nonce ts)

def signSyncResponse (network nonce : String) (snapshot : StoreSnapshot) (ts : Nat) :
    Except RepError String := do
  let input ← syncRespInput crypto network nonce snapshot ts
  return auth.macB64 crypto input

end RepAuth

namespace Replicate

inductive RepCall
  /-- A question that the handlers ask as well. -/
  | service (call : ServiceCall)
  | discoverProviders (service : String)
  /-- `random_b64`. -/
  | randomB64 (len : Nat)
  /-- `OsRng.next_u32`. -/
  | nextU32
  | signReplicate (msg : ReplicateMsg)
  | signSyncRequest (network nonce : String) (ts : Nat)
  | verifySyncResponse (network nonce : String) (resp : SyncResponse)

@[reducible] def RepAnswer : RepCall → Type
  | .service call => ServiceAnswer call
  | .discoverProviders _ => Except SidecarError (List String)
  | .randomB64 _ => String
  | .nextU32 => Nat
  | .signReplicate _ => String
  | .signSyncRequest _ _ _ => String
  | .verifySyncResponse _ _ _ => Except RepError Unit

abbrev RepM := Prog RepCall RepAnswer

abbrev RepEvent := Event RepCall RepAnswer

abbrev call (question : RepCall) : RepM (RepAnswer question) := request question

abbrev SyncM := ExceptT String RepM

abbrev inquire (question : RepCall) : SyncM (RepAnswer question) := query question

def onService {α : Type} : ServiceM α → RepM α
  | .done a => .done a
  | .ask question next => .ask (.service question) fun answer => onService (next answer)

structure RepWire where
  encodeReplicate : ReplicateMsg → Except String Bytes
  encodeSyncRequest : SyncRequest → Except String Bytes
  decodeSyncResponse : Bytes → Except String SyncResponse

structure RepContext extends ServiceContext where
  repWire : RepWire
  serviceName : String

/-! ## Discovery -/

/-- The providers of the sidecar service, without this node if it knows its own id. -/
def discoverPeers (service : String) : RepM (List String) := do
  let found ← call (.discoverProviders service)
  let peers := found.toOption.getD []
  match ← call (.service .whoami) with
  | .ok me => return canonicalPeers (peers.filter fun p => p != me)
  | .error _ => return canonicalPeers peers

/-! ## Broadcasts -/

section Broadcast

variable (ctx : RepContext) (update : Update)

/-- The message for one peer; a failure is logged and the next peer is tried. -/
def broadcastTo (peer : String) : RepM Unit := do
  let nonce ← call (.randomB64 16)
  let ts ← call (.service (.node .now))
  let msg : ReplicateMsg := ⟨opReplicate, update.service, update.version, update.members,
    update.indexVersion, update.deleted, nonce, ts, ""⟩
  let mac ← call (.signReplicate msg)
  match ctx.repWire.encodeReplicate { msg with mac := mac } with
  | .error _ => return ()
  | .ok payload =>
      let _ ← call (.service (.serviceRequestTo peer payload))
      return ()

def broadcastAll : List String → RepM Unit
  | [] => return ()
  | peer :: peers => do
      broadcastTo ctx update peer
      broadcastAll peers

def broadcast : RepM Unit := do
  let peers ← discoverPeers ctx.serviceName
  broadcastAll ctx update peers

end Broadcast

/-! ## Anti-entropy -/

def swap (peers : List String) (i j : Nat) : List String :=
  match peers[i]?, peers[j]? with
  | some a, some b => (peers.set i b).set j a
  | _, _ => peers

/-- The Fisher–Yates loop, from position `i` down to 1. -/
def shuffle (peers : List String) : Nat → RepM (List String)
  | 0 => return peers
  | i + 1 => do
      let r ← call .nextU32
      shuffle (swap peers (i + 1) (r % (i + 2))) i

section Sync

variable (ctx : RepContext)

/-- A pull from one peer; the result says whether the local store has changed. -/
def syncWithPeer (peer : String) : SyncM Bool := do
  let nonce ← inquire (.randomB64 16)
  let ts ← inquire (.service (.node .now))
  let mac ← inquire (.signSyncRequest ctx.network nonce ts)
  let payload ← fallible
    (ctx.repWire.encodeSyncRequest ⟨opSyncRequest, ctx.network, nonce, ts, mac⟩)
  let bytes ← attempt (fun (e : SidecarError) => "[" ++ e.code ++ "] " ++ e.message)
    (call (.service (.serviceRequestTo peer payload)))
  let resp ← fallible (ctx.repWire.decodeSyncResponse bytes)
  attempt RepError.text (call (.verifySyncResponse ctx.network nonce resp))
  let (reply, _) ← attempt StoreError.text
    (call (.service (.changeStore (.mergeSnapshot resp.snapshot))))
  if replyChanged reply then
    inquire (.service .notifyPublish)
  return replyChanged reply

/-- The peers are tried in turn until one pull succeeds. -/
def syncFirst : List String → RepM Bool
  | [] => return false
  | peer :: peers => do
      match ← (syncWithPeer ctx peer).run with
      | .ok changed => return changed
      | .error _ => syncFirst peers

def syncOnce : RepM Bool := do
  let peers ← discoverPeers ctx.serviceName
  if peers.isEmpty then
    return false
  let peers ← shuffle peers (peers.length - 1)
  syncFirst ctx peers

end Sync

end Replicate

end NexusAuth
