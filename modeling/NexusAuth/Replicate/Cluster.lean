import NexusAuth.Ideal
import NexusAuth.Lib.Tasks
import NexusAuth.Replay.Proofs.Inputs
import NexusAuth.Replicate.Model
import NexusAuth.Store.Proofs.AntiEntropy

/-!
# Sidecars that replicate their stores

The sidecars of one network in the legacy mode.  Each keeps a store and the nonces of the
replication messages it has accepted, and runs any number of tasks at once: the handlers of
the requests it gets, broadcasts, pulls and publishing rounds.

Requests and replies have any content, so the network can lose, repeat, delay, reorder and
invent them.  What it cannot do is to make a MAC: a message is verified only if a sidecar has
given its MAC to the same input before.
-/

namespace NexusAuth.Replicate

open NexusAuth.Authority NexusAuth.Lib.Interaction NexusAuth.Lib.Tasks NexusAuth.Service

inductive Signed
  | replicate (msg : ReplicateMsg)
  | syncRequest (network nonce : String) (ts : Nat)
  | syncResponse (network nonce : String) (snapshot : StoreSnapshot) (ts : Nat)
deriving DecidableEq

def Signed.input (crypto : MacCrypto) : Signed → Except RepError Bytes
  | .replicate msg => .ok (replicateInput msg)
  | .syncRequest network nonce ts => .ok (syncReqInput network nonce ts)
  | .syncResponse network nonce snapshot ts => syncRespInput crypto network nonce snapshot ts

structure Sidecar where
  store : Store
  guard : ReplayGuard

structure Cluster (ι : Type) where
  sidecar : ι → Sidecar
  signed : List Signed
  /-- The changes that a sidecar was asked to broadcast. -/
  queued : List (ι × Update)
  /-- The management requests that a sidecar has verified. -/
  approved : List ManagementRequest

structure Setting (ι : Type) where
  crypto : MacCrypto
  auth : RepAuth
  network : String
  ctx : ι → RepContext
  network_eq : ∀ i, (ctx i).network = network
  legacy : ∀ i, (ctx i).raftRequired = false
  /-- `validate` accepts only such names. -/
  network_plain : 0 ∉ utf8Bytes network
  /-- The numbers in a message are of type `u64`. -/
  in_range : ∀ i value msg, (ctx i).wire.replicate value = .ok msg → msg.InRange

namespace Cluster

variable {ι : Type} [DecidableEq ι]

def setStore (c : Cluster ι) (i : ι) (store : Store) : Cluster ι :=
  { c with sidecar := Function.update c.sidecar i { c.sidecar i with store := store } }

def setGuard (c : Cluster ι) (i : ι) (guard : ReplayGuard) : Cluster ι :=
  { c with sidecar := Function.update c.sidecar i { c.sidecar i with guard := guard } }

def sign (c : Cluster ι) (item : Signed) : Cluster ι := { c with signed := c.signed ++ [item] }

def fresh (store : ι → Store) : Cluster ι := ⟨fun i => ⟨store i, .default⟩, [], [], []⟩

def HasMac (crypto : MacCrypto) (c : Cluster ι) (input : Bytes) : Prop :=
  ∃ item ∈ c.signed, item.input crypto = .ok input

end Cluster

variable {ι : Type} [DecidableEq ι]

/-- How a question of a sidecar can be answered.  A store operation has to be permitted, which
leaves room for assumptions on the runs; questions about the node, the network and the
authority have any answer. -/
def answers (setting : Setting ι) (permits : Store → Store.Op → Store → Prop) (c : Cluster ι)
    (i : ι) : (q : RepCall) → RepAnswer q → Cluster ι → Prop
  | .service (.node .storeSnapshot), answer, c' =>
      answer = (c.sidecar i).store.snapshot ∧ c' = c
  | .service (.node .now), answer, c' => answer < 2 ^ 64 ∧ c' = c
  -- only the Raft mode has a runtime
  | .service .runtime, answer, c' => answer = false ∧ c' = c
  | .service (.node .bumpIndexVersion), answer, c' =>
      ∃ io, let out := (c.sidecar i).store.bumpIndexVersion io
        permits (c.sidecar i).store .bumpIndexVersion out.1 ∧ answer = out.2 ∧
          c' = c.setStore i out.1
  | .service (.changeStore op), answer, c' =>
      ∃ io, let out := (c.sidecar i).store.exec setting.crypto.toPrimitives io op
        permits (c.sidecar i).store op out.1 ∧
          answer = out.2.map (fun reply => (reply, out.1.snapshot)) ∧ c' = c.setStore i out.1
  | .service (.broadcast update), _, c' => c' = { c with queued := c.queued ++ [(i, update)] }
  | .service (.verifyManagement req _), answer, c' =>
      c' = if answer.isOk then { c with approved := c.approved ++ [req] } else c
  | .service (.verifyReplicate msg now), answer, c' =>
      let out := setting.auth.verifyReplicate setting.crypto (c.sidecar i).guard msg now
      answer = out.1 ∧ c' = c.setGuard i out.2 ∧
        (answer = .ok () → c.HasMac setting.crypto (replicateInput msg))
  | .service (.verifySyncRequest req now), answer, c' =>
      let out := setting.auth.verifySyncRequest setting.crypto (c.sidecar i).guard req now
      answer = out.1 ∧ c' = c.setGuard i out.2 ∧
        (answer = .ok () → c.HasMac setting.crypto (syncReqInput req.network req.nonce req.ts))
  | .service (.signSyncResponse network nonce snapshot ts), answer, c' =>
      answer = setting.auth.signSyncResponse setting.crypto network nonce snapshot ts ∧
        c' = if answer.isOk then c.sign (.syncResponse network nonce snapshot ts) else c
  | .signReplicate msg, answer, c' =>
      answer = setting.auth.signReplicate setting.crypto msg ∧ c' = c.sign (.replicate msg)
  | .signSyncRequest network nonce ts, answer, c' =>
      answer = setting.auth.signSyncRequest setting.crypto network nonce ts ∧
        c' = c.sign (.syncRequest network nonce ts)
  | .verifySyncResponse network nonce resp, answer, c' =>
      answer = setting.auth.verifySyncResponse setting.crypto network nonce resp ∧ c' = c ∧
        (answer = .ok () → ∃ input, syncRespInput setting.crypto network nonce resp.snapshot
          resp.ts = .ok input ∧ c.HasMac setting.crypto input)
  -- base64 has no zero byte
  | .randomB64 _, answer, c' => 0 ∉ utf8Bytes answer ∧ c' = c
  | _, _, c' => c' = c

inductive Starts (setting : Setting ι) (c : Cluster ι) (i : ι) : RepM Unit → Prop
  | request (client forwarder : Bool) (payload : Bytes) :
      Starts setting c i (detached (onService (handleServiceRequest
        (setting.ctx i).toServiceContext client forwarder payload).run))
  | broadcast (update : Update) (h : (i, update) ∈ c.queued) :
      Starts setting c i (broadcast (setting.ctx i) update)
  | sync : Starts setting c i (detached (syncOnce (setting.ctx i)))
  | publish (renew : Bool) :
      Starts setting c i (detached (onService (onNode
        (Publisher.publishOnce (setting.ctx i).toContext renew))))

def rules (setting : Setting ι) (permits : Store → Store.Op → Store → Prop) :
    Rules ι (Cluster ι) RepCall RepAnswer where
  starts := Starts setting
  answers := answers setting permits

abbrev ClusterPool (ι : Type) := Pool ι (Cluster ι) RepCall RepAnswer

def start (store : ι → Store) : ClusterPool ι := ⟨.fresh store, []⟩

/-! ## An instance

Two sidecars.  A request to create a service names it in its payload; the other payloads are a
request for a snapshot and the snapshots that the two sidecars give. -/

def checksum (key message : Bytes) : UInt8 :=
  (key ++ message).foldl (fun sum byte => 31 * sum + byte) 7

def clusterCrypto : MacCrypto :=
  { idealCrypto with
    hmac := fun key message => List.replicate macLen (checksum key message)
    macJson := fun _ => .ok [] }

def clusterAuth : RepAuth := ⟨[1, 2, 3]⟩

def createdStore (service : String) : Store := Store.after [.createService service [peerA]]

def sampleName (i : Bool) : String := if i then "git" else "cmd"

def clusterWire : Wire where
  parse bytes := .ok (match bytes with
    | [0] => .obj [("op", .str "create_service"), ("service", .str "cmd")]
    | [1] => .obj [("op", .str "create_service"), ("service", .str "git")]
    | _ => .obj [("op", .str opSyncRequest)])
  encode _ := []
  adminRequest _ := .error ""
  raftJoin _ := .error ""
  seedDelivery _ := .error ""
  seedDrop _ := .error ""
  forwardedAdmin _ := .error ""
  encodeForwarded _ := .error ""
  encodeRaftJoin _ := .error ""
  encodeJoinResponse _ := .error ""
  encodeAck _ := .error ""
  management value := .ok ⟨"create_service",
    ((value.get "service").bind Json.asStr).getD "", [peerA], "n", 0, ""⟩
  replicate _ := .error ""
  syncRequest _ := .ok ⟨opSyncRequest, "myorg", "n", 0,
    clusterAuth.signSyncRequest clusterCrypto "myorg" "n" 0⟩
  syncResponse _ := .null
  passwordJoin _ := .error ""
  passwordJoinResponse _ := .null
  debugResult _ := ""

def clusterRepWire : RepWire where
  encodeReplicate _ := .ok []
  encodeSyncRequest _ := .ok []
  decodeSyncResponse bytes := do
    let snapshot := (createdStore (sampleName (bytes == [1]))).snapshot
    let mac ← (clusterAuth.signSyncResponse clusterCrypto "myorg" "n" snapshot 0).mapError
      RepError.text
    return ⟨opSyncResponse, "n", snapshot, 0, mac⟩

def clusterContext : RepContext where
  crypto := idealCrypto
  network := "myorg"
  raftRequired := false
  expiresSecs := 60
  wire := clusterWire
  renewSecs := 20
  adminKeys := sampleAdminKeys
  allowJoin := false
  clusterId := ""
  nodeId := 1
  peerId := peerA
  identity := []
  repWire := clusterRepWire
  serviceName := "auth"

def clusterSetting : Setting Bool where
  crypto := clusterCrypto
  auth := clusterAuth
  network := "myorg"
  ctx _ := clusterContext
  network_eq _ := rfl
  legacy _ := rfl
  network_plain := by decide +kernel
  in_range _ _ _ h := by cases h

/-- Answers in which the network loses nothing and every write succeeds.  A MAC is refused
unless a sidecar has made it, and so is an operation that is not permitted. -/
def sampleRespond (permitted : Store → Store.Op → Store → Bool) (i : Bool) (c : Cluster Bool) :
    (q : RepCall) → Option (RepAnswer q × Cluster Bool)
  | .service (.node .storeSnapshot) => some ((c.sidecar i).store.snapshot, c)
  | .service (.node .now) => some (0, c)
  | .service .runtime => some (false, c)
  | .service .whoami => some (.error (.new "" ""), c)
  | .service .notifyPublish => some ((), c)
  | .service (.serviceRequestTo _ _) => some (.ok (if i then [0] else [1]), c)
  | .service (.changeStore op) =>
      let out := (c.sidecar i).store.exec samplePrimitives Store.saves op
      if permitted (c.sidecar i).store op out.1 then
        some (out.2.map fun reply => (reply, out.1.snapshot), c.setStore i out.1)
      else none
  | .service (.broadcast update) => some ((), { c with queued := c.queued ++ [(i, update)] })
  | .service (.verifyManagement req _) =>
      some (.ok (), { c with approved := c.approved ++ [req] })
  | .service (.verifySyncRequest req now) =>
      let out := clusterAuth.verifySyncRequest clusterCrypto (c.sidecar i).guard req now
      if .syncRequest req.network req.nonce req.ts ∈ c.signed then
        some (out.1, c.setGuard i out.2)
      else none
  | .service (.signSyncResponse network nonce snapshot ts) =>
      let mac := clusterAuth.signSyncResponse clusterCrypto network nonce snapshot ts
      some (mac, if mac.isOk then c.sign (.syncResponse network nonce snapshot ts) else c)
  | .discoverProviders _ => some (.ok [peerA], c)
  | .randomB64 _ => some ("n", c)
  | .signSyncRequest network nonce ts =>
      some (clusterAuth.signSyncRequest clusterCrypto network nonce ts,
        c.sign (.syncRequest network nonce ts))
  | .verifySyncResponse network nonce resp =>
      if .syncResponse network nonce resp.snapshot resp.ts ∈ c.signed then
        some (clusterAuth.verifySyncResponse clusterCrypto network nonce resp, c)
      else none
  | _ => none

theorem answers_of_sampleRespond {permitted : Store → Store.Op → Store → Bool}
    {permits : Store → Store.Op → Store → Prop}
    (hpermitted : ∀ s op t, permitted s op t = true → permits s op t) (i : Bool) (c : Cluster Bool)
    (q : RepCall) (a : RepAnswer q) (c' : Cluster Bool)
    (h : sampleRespond permitted i c q = some (a, c')) :
    answers clusterSetting permits c i q a c' := by
  cases q with
  | discoverProviders service =>
      obtain ⟨-, rfl⟩ := Prod.mk.inj (Option.some.inj h)
      rfl
  | randomB64 len =>
      obtain ⟨rfl, rfl⟩ := Prod.mk.inj (Option.some.inj h)
      exact ⟨by decide +kernel, rfl⟩
  | nextU32 => cases h
  | signReplicate msg => cases h
  | signSyncRequest network nonce ts =>
      obtain ⟨rfl, rfl⟩ := Prod.mk.inj (Option.some.inj h)
      exact ⟨rfl, rfl⟩
  | verifySyncResponse network nonce resp =>
      simp only [sampleRespond] at h
      split at h
      · rename_i hsigned
        obtain ⟨rfl, rfl⟩ := Prod.mk.inj (Option.some.inj h)
        exact ⟨rfl, rfl, fun _ => ⟨_, rfl, _, hsigned, rfl⟩⟩
      · cases h
  | service q =>
      cases q with
      | node q =>
          cases q with
          | storeSnapshot =>
              obtain ⟨rfl, rfl⟩ := Prod.mk.inj (Option.some.inj h)
              exact ⟨rfl, rfl⟩
          | now =>
              obtain ⟨rfl, rfl⟩ := Prod.mk.inj (Option.some.inj h)
              exact ⟨by decide, rfl⟩
          | _ => cases h
      | runtime =>
          obtain ⟨rfl, rfl⟩ := Prod.mk.inj (Option.some.inj h)
          exact ⟨rfl, rfl⟩
      | whoami =>
          obtain ⟨-, rfl⟩ := Prod.mk.inj (Option.some.inj h)
          rfl
      | notifyPublish =>
          obtain ⟨-, rfl⟩ := Prod.mk.inj (Option.some.inj h)
          rfl
      | serviceRequestTo peer payload =>
          obtain ⟨-, rfl⟩ := Prod.mk.inj (Option.some.inj h)
          rfl
      | changeStore op =>
          simp only [sampleRespond] at h
          split at h
          · rename_i hpermit
            obtain ⟨rfl, rfl⟩ := Prod.mk.inj (Option.some.inj h)
            exact ⟨Store.saves, hpermitted _ _ _ hpermit, rfl, rfl⟩
          · cases h
      | broadcast update =>
          obtain ⟨-, rfl⟩ := Prod.mk.inj (Option.some.inj h)
          rfl
      | verifyManagement req now =>
          obtain ⟨rfl, rfl⟩ := Prod.mk.inj (Option.some.inj h)
          rfl
      | verifySyncRequest req now =>
          simp only [sampleRespond] at h
          split at h
          · rename_i hsigned
            obtain ⟨rfl, rfl⟩ := Prod.mk.inj (Option.some.inj h)
            exact ⟨rfl, rfl, fun _ => ⟨_, hsigned, rfl⟩⟩
          · cases h
      | signSyncResponse network nonce snapshot ts =>
          obtain ⟨rfl, rfl⟩ := Prod.mk.inj (Option.some.inj h)
          exact ⟨rfl, rfl⟩
      | _ => cases h

inductive SampleTask
  | request (payload : Bytes)
  | pull

def sampleProgram : Bool × SampleTask → Bool × RepM Unit
  | (i, .request payload) => (i, detached (onService
      (handleServiceRequest clusterContext.toServiceContext true false payload).run))
  | (i, .pull) => (i, detached (syncOnce clusterContext))

theorem starts_sampleProgram (c : Cluster Bool) (job : Bool × SampleTask) :
    Starts clusterSetting c (sampleProgram job).1 (sampleProgram job).2 := by
  obtain ⟨i, task⟩ := job
  cases task with
  | request payload => exact .request true false payload
  | pull => exact .sync

def sampleScript (permitted : Store → Store.Op → Store → Bool) (w : ClusterPool Bool)
    (moves : List (Pool.Move (Bool × SampleTask))) : Option (ClusterPool Bool) :=
  w.script sampleProgram (fun _ _ => true) (sampleRespond permitted) moves

theorem run_of_sampleScript {permitted : Store → Store.Op → Store → Bool}
    {permits : Store → Store.Op → Store → Prop}
    (hpermitted : ∀ s op t, permitted s op t = true → permits s op t) {w w' : ClusterPool Bool}
    {moves : List (Pool.Move (Bool × SampleTask))} (h : sampleScript permitted w moves = some w') :
    Pool.Run (rules clusterSetting permits) w w' :=
  Pool.run_of_script (fun c job _ => starts_sampleProgram c job)
    (answers_of_sampleRespond hpermitted) h

def sampleRequests : List (Pool.Move (Bool × SampleTask)) :=
  .start (false, .request [0]) :: List.replicate 6 (.answer 0) ++
    .start (true, .request [1]) :: List.replicate 6 (.answer 1)

/-- Both sidecars pull, and each of them has signed its own state before it takes the other's. -/
def samplePulls : List (Pool.Move (Bool × SampleTask)) :=
  .start (true, .pull) :: List.replicate 5 (.answer 2) ++
    .start (false, .pull) :: List.replicate 5 (.answer 3) ++
    .start (false, .request [2]) :: List.replicate 5 (.answer 4) ++
    .start (true, .request [2]) :: List.replicate 5 (.answer 5) ++
    List.replicate 3 (.answer 2) ++ List.replicate 3 (.answer 3)

end NexusAuth.Replicate
