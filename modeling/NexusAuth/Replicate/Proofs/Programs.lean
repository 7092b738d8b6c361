import NexusAuth.Publisher.Proofs.Rounds
import NexusAuth.Replicate.Cluster
import NexusAuth.Store.Proofs.Holdings

/-!
# What a sidecar asks after which answers

A task in the legacy mode changes the store only as a verified message asks for, announces
only what it has changed, and makes MACs only for what it has read itself.  This is shown for
every task alone (`guards_of_starts`); what follows for tasks that run next to each other is
the subject of the other modules.
-/

namespace NexusAuth.Replicate

open NexusAuth.Lib.Interaction NexusAuth.Lib.Results NexusAuth.Lib.Tasks NexusAuth.Service

inductive Requested (req : ManagementRequest) : Store.Op → Prop
  | add (h : req.op = "add_members") : Requested req (.addMembers req.service req.peers)
  | remove (h : req.op = "remove_members") : Requested req (.removeMembers req.service req.peers)
  | set (h : req.op = "set_members") : Requested req (.setMembers req.service req.peers)
  | create (h : req.op = "create_service") : Requested req (.createService req.service req.peers)
  | delete (h : req.op = "delete_service") : Requested req (.deleteService req.service)

section Questions

variable {ι : Type} (setting : Setting ι) (i : ι) (past : List RepEvent)

inductive Warranted : Store.Op → Prop
  | managed (req : ManagementRequest) (now : Nat) {op : Store.Op}
      (hverified : ⟨.service (.verifyManagement req now), .ok ()⟩ ∈ past)
      (hop : Requested req op) : Warranted op
  | replicated (value : Json) (msg : ReplicateMsg) (now : Nat)
      (hparse : (setting.ctx i).wire.replicate value = .ok msg)
      (hverified : ⟨.service (.verifyReplicate msg now), .ok ()⟩ ∈ past) :
      Warranted (.applyReplicated msg.update)
  | synced (nonce : String) (resp : SyncResponse) (hnonce : ⟨.randomB64 16, nonce⟩ ∈ past)
      (hverified : ⟨.verifySyncResponse setting.network nonce resp, .ok ()⟩ ∈ past) :
      Warranted (.mergeSnapshot resp.snapshot)

inductive Announced : Update → Prop
  | changed {op : Store.Op} {service : String} {reply : Store.Reply} {snap : StoreSnapshot}
      (hpast : ⟨.service (.changeStore op), .ok (reply, snap)⟩ ∈ past)
      (hop : op.service = some service) (hkept : op ≠ .deleteService service) :
      Announced ⟨service, replyVersion reply, membersOf snap service, snap.indexVersion, false⟩
  | deleted {service : String} {reply : Store.Reply} {snap : StoreSnapshot}
      (hpast : ⟨.service (.changeStore (.deleteService service)), .ok (reply, snap)⟩ ∈ past) :
      Announced ⟨service, replyVersion reply, [], snap.indexVersion, true⟩

/-- The snapshot is the task's own, and the nonce that of a verified request. -/
structure Answering (network nonce : String) (snapshot : StoreSnapshot) : Prop where
  network_eq : network = setting.network
  requested : ∃ req now, ⟨.service (.verifySyncRequest req now), .ok ()⟩ ∈ past ∧ nonce = req.nonce
  read : ⟨.service (.node .storeSnapshot), snapshot⟩ ∈ past

/-- Questions that change something rest on earlier answers. -/
def Proper (c : Cluster ι) : RepCall → Prop
  | .service (.changeStore op) => Warranted setting i past op
  | .service (.broadcast update) => Announced past update
  | .service (.signSyncResponse network nonce snapshot _) =>
      Answering setting past network nonce snapshot
  | .signReplicate msg => (i, msg.update) ∈ c.queued ∧ ⟨.service (.node .now), msg.ts⟩ ∈ past
  | .signSyncRequest network nonce _ => network = setting.network ∧ ⟨.randomB64 16, nonce⟩ ∈ past
  | _ => True

/-- With a Raft runtime a handler may ask anything; in the legacy mode there is none. -/
def Allowed (c : Cluster ι) (q : RepCall) : Prop :=
  ⟨.service .runtime, true⟩ ∈ past ∨ Proper setting i past c q

end Questions

/-! ## Handlers -/

def serviceEvent (e : ServiceEvent) : RepEvent := ⟨.service e.question, e.answer⟩

theorem guards_onService {α : Type} {G : List RepEvent → RepCall → Prop}
    {past : List ServiceEvent} {p : ServiceM α}
    (h : Guards (fun past q => G (past.map serviceEvent) (.service q)) past p) :
    Guards G (past.map serviceEvent) (onService p) := by
  induction p generalizing past with
  | done a => trivial
  | ask q next ih =>
      refine ⟨h.1, fun answer => ?_⟩
      have hnext := ih answer (h.2 answer)
      rwa [List.map_append] at hnext

section Handlers

variable {ι : Type} (setting : Setting ι) (i : ι) (c : Cluster ι) {past : List ServiceEvent}

def Permitted (past : List ServiceEvent) (q : ServiceCall) : Prop :=
  Allowed setting i (past.map serviceEvent) c (.service q)

variable {setting i c} {α : Type}

theorem mem_serviceEvents {q : ServiceCall} {a : ServiceAnswer q} (h : ⟨q, a⟩ ∈ past) :
    ⟨.service q, a⟩ ∈ past.map serviceEvent :=
  List.mem_map_of_mem (f := serviceEvent) h

def Plain : ServiceCall → Prop
  | .changeStore _ | .broadcast _ | .signSyncResponse _ _ _ _ => False
  | _ => True

def Reads : ServiceCall → Prop
  | .node .storeSnapshot | .node .now | .node .authoritySeed | .node .connections => True
  | .uptimeSecs | .respondJoin _ _ _ _ _ => True
  | _ => False

theorem plain_of_reads {q : ServiceCall} (h : Reads q) : Plain q := by
  cases q <;> trivial

theorem permitted_of_plain {q : ServiceCall} (h : Plain q) : Permitted setting i c past q := by
  refine .inr ?_
  cases q with
  | changeStore op => exact h.elim
  | broadcast update => exact h.elim
  | signSyncResponse network nonce snapshot ts => exact h.elim
  | _ => trivial

theorem guards_of_plain {p : ServiceM α} (h : Asks Plain p) :
    Guards (Permitted setting i c) past p :=
  h.guards fun _ _ => permitted_of_plain

theorem guards_of_reads {p : ServiceM α} (h : Asks Reads p) :
    Guards (Permitted setting i c) past p :=
  guards_of_plain (h.mono fun _ => plain_of_reads)

theorem guards_of_runtime {p : ServiceM α} (h : ⟨.runtime, true⟩ ∈ past) :
    Guards (Permitted setting i c) past p :=
  Guards.of_forall fun _ _ => .inl (mem_serviceEvents (List.mem_append_left _ h))

theorem guards_raftRuntime_bind {f : Unit → HandlerM α} :
    Guards (Permitted setting i c) past (raftRuntime >>= f).run := by
  refine guards_query_bind.mpr ⟨permitted_of_plain trivial, fun ready => ?_⟩
  cases ready with
  | false => trivial
  | true => exact guards_of_runtime (by simp)

theorem guards_handleRaftRpc (payload : Bytes) :
    Guards (Permitted setting i c) past (handleRaftRpc payload).run := by
  refine guards_of_plain (asks_query_bind.mpr ⟨trivial, fun ready => ?_⟩)
  exact asks_fallible_bind.mpr fun _ _ => Asks.attempt ⟨trivial, fun _ => trivial⟩

theorem asks_node {β : Type} (p : NodeM β) : Asks Plain (onNode p) := by
  induction p with
  | done a => trivial
  | ask q next ih => exact ⟨trivial, ih⟩

theorem asks_authority (ctx : ServiceContext) : Asks Reads (onNode ctx.authority) := by
  refine ⟨trivial, fun seed => ?_⟩
  cases seed <;> trivial

theorem asks_handleJoin (ctx : ServiceContext) (value : Json) :
    Asks Reads (handleJoin ctx value).run := by
  refine asks_fallible_bind.mpr fun req _ => ?_
  refine (asks_authority ctx).lift.bindExcept fun authority => ?_
  refine asks_fallible_bind.mpr fun signer _ => asks_query_bind.mpr ⟨trivial, fun state => ?_⟩
  refine asks_query_bind.mpr ⟨trivial, fun now => ?_⟩
  exact asks_attempt_bind ⟨trivial, fun _ => trivial⟩ fun _ => trivial

theorem guards_attempt_bind {Q : Type} {A : Q → Type} {ε ε' β γ : Type}
    {G : List (Event Q A) → Q → Prop} {past : List (Event Q A)} {g : ε' → ε}
    {p : Prog Q A (Except ε' β)} {f : β → ExceptT ε (Prog Q A) γ} (hp : Guards G past p)
    (hf : ∀ events b, Yields p events (.ok b) → Guards G (past ++ events) (f b).run) :
    Guards G past (attempt g p >>= f).run := by
  refine Guards.bindExcept (hp.bind fun _ _ _ => trivial) fun events b h => ?_
  exact hf events b (yields_attempt.mp h)

/-! ### The legacy messages -/

theorem guards_handleReplicate (value : Json) :
    Guards (Permitted setting i c) past
      (handleReplicate (setting.ctx i).toServiceContext value).run := by
  refine guards_fallible_bind.mpr fun msg hparse => ?_
  refine guards_query_bind.mpr ⟨permitted_of_plain trivial, fun now => ?_⟩
  refine guards_attempt_bind ⟨permitted_of_plain trivial, fun _ => trivial⟩ ?_
  rintro _ u ⟨_, _, rfl, rfl, rfl⟩
  refine guards_attempt_bind ⟨.inr ?_, fun _ => trivial⟩ ?_
  · exact .replicated value msg now (mapError_eq_ok.mp hparse) (mem_serviceEvents (by simp))
  · rintro _ ⟨reply, store⟩ -
    apply guards_of_plain
    dsimp only
    split
    · exact asks_query_bind.mpr ⟨trivial, fun _ => trivial⟩
    · trivial

theorem guards_handleSyncRequest (value : Json) :
    Guards (Permitted setting i c) past
      (handleSyncRequest (setting.ctx i).toServiceContext value).run := by
  refine guards_fallible_bind.mpr fun req _ => ?_
  refine guards_query_bind.mpr ⟨permitted_of_plain trivial, fun now => ?_⟩
  refine guards_attempt_bind ⟨permitted_of_plain trivial, fun _ => trivial⟩ ?_
  rintro _ u ⟨_, _, rfl, rfl, rfl⟩
  refine guards_query_bind.mpr ⟨permitted_of_plain trivial, fun snapshot => ?_⟩
  refine guards_query_bind.mpr ⟨permitted_of_plain trivial, fun ts => ?_⟩
  refine guards_attempt_bind ⟨.inr ?_, fun _ => trivial⟩ fun _ _ _ => trivial
  refine ⟨setting.network_eq i, ⟨req, now, ?_, rfl⟩, ?_⟩
  · exact mem_serviceEvents (by simp)
  · exact mem_serviceEvents (by simp)

/-! ### Management requests -/

theorem guards_afterChange {client : Bool} {update : Update} {f : Unit → HandlerM Bytes}
    (hannounced : Announced (past.map serviceEvent) update) (hf : ∀ u, Asks Plain (f u).run) :
    Guards (Permitted setting i c) past
      (afterChange (setting.ctx i).toServiceContext client update >>= f).run := by
  refine Guards.bindExcept ?_ fun _ u _ => guards_of_plain (hf u)
  refine guards_query_bind.mpr ⟨permitted_of_plain trivial, fun _ => ?_⟩
  split
  · refine ⟨.inr ?_, fun _ => trivial⟩
    cases hannounced with
    | changed hpast hop hkept =>
        refine .changed ?_ hop hkept
        rw [List.map_append]
        exact List.mem_append_left _ hpast
    | deleted hpast =>
        refine .deleted ?_
        rw [List.map_append]
        exact List.mem_append_left _ hpast
  · trivial

theorem guards_changeMembers {client : Bool} {req : ManagementRequest}
    {op : String → List String → Store.Op} (now : Nat)
    (hverified : ⟨.verifyManagement req now, .ok ()⟩ ∈ past)
    (hop : Requested req (op req.service req.peers))
    (hservice : (op req.service req.peers).service = some req.service)
    (hkept : op req.service req.peers ≠ .deleteService req.service) :
    Guards (Permitted setting i c) past
      (changeMembers (setting.ctx i).toServiceContext client req op).run := by
  refine guards_fallible_bind.mpr fun service hrequire => ?_
  obtain rfl : service = req.service := by
    simp only [requireService, bind_eq_ok, pure_eq_ok] at hrequire
    obtain ⟨_, -, rfl⟩ := hrequire
    rfl
  refine guards_attempt_bind ⟨.inr (.managed req now (mem_serviceEvents hverified) hop),
    fun _ => trivial⟩ ?_
  rintro _ ⟨reply, store⟩ ⟨_, _, rfl, rfl, rfl⟩
  refine guards_afterChange (.changed (mem_serviceEvents ?_) hservice hkept) fun _ => ?_
  · exact List.mem_append_right _ (List.mem_singleton.mpr rfl)
  · exact asks_query_bind.mpr ⟨trivial, fun _ => trivial⟩

theorem guards_deleteService {client : Bool} {req : ManagementRequest} (now : Nat)
    (hverified : ⟨.verifyManagement req now, .ok ()⟩ ∈ past) (hop : req.op = "delete_service") :
    Guards (Permitted setting i c) past
      (deleteService (setting.ctx i).toServiceContext client req).run := by
  refine guards_fallible_bind.mpr fun service hrequire => ?_
  obtain rfl : service = req.service := by
    simp only [requireService, bind_eq_ok, pure_eq_ok] at hrequire
    obtain ⟨_, -, rfl⟩ := hrequire
    rfl
  refine guards_attempt_bind ⟨.inr (.managed req now (mem_serviceEvents hverified) (.delete hop)),
    fun _ => trivial⟩ ?_
  rintro _ ⟨reply, store⟩ ⟨_, _, rfl, rfl, rfl⟩
  refine guards_afterChange (.deleted (mem_serviceEvents ?_)) fun _ => trivial
  exact List.mem_append_right _ (List.mem_singleton.mpr rfl)

theorem asks_publicKey (ctx : ServiceContext) : Asks Reads ctx.authorityPublicKey.run :=
  ⟨trivial, fun _ => trivial⟩

theorem asks_status (ctx : ServiceContext) : Asks Reads (status ctx).run := by
  refine asks_query_bind.mpr ⟨trivial, fun store => ?_⟩
  refine (asks_publicKey ctx).bindExcept fun publicKey => ?_
  exact ⟨trivial, fun _ => ⟨trivial, fun _ => ⟨trivial, fun _ => trivial⟩⟩⟩

theorem asks_listMembers (ctx : ServiceContext) (req : ManagementRequest) :
    Asks Reads (listMembers ctx req).run := by
  refine asks_fallible_bind.mpr fun service _ => asks_query_bind.mpr ⟨trivial, fun store => ?_⟩
  exact asks_fallible_bind.mpr fun _ _ => trivial

theorem guards_handleManagement {client : Bool} {req : ManagementRequest} (now : Nat)
    (hverified : ⟨.verifyManagement req now, .ok ()⟩ ∈ past) :
    Guards (Permitted setting i c) past
      (handleManagement (setting.ctx i).toServiceContext client req).run := by
  unfold handleManagement
  split
  · exact guards_of_reads ((asks_status _).bindExcept fun _ => trivial)
  · exact guards_of_reads ((asks_publicKey _).bindExcept fun _ => trivial)
  · exact guards_of_plain (asks_query_bind.mpr ⟨trivial, fun _ => trivial⟩)
  · exact guards_of_reads (asks_listMembers _ req)
  · exact guards_changeMembers now hverified (.add ‹_›) rfl Store.Op.noConfusion
  · exact guards_changeMembers now hverified (.remove ‹_›) rfl Store.Op.noConfusion
  · exact guards_changeMembers now hverified (.set ‹_›) rfl Store.Op.noConfusion
  · exact guards_changeMembers now hverified (.create ‹_›) rfl Store.Op.noConfusion
  · exact guards_deleteService now hverified ‹_›
  · exact guards_of_plain (asks_query_bind.mpr ⟨trivial, fun _ => trivial⟩)
  · trivial

theorem guards_handleServiceRequest (client forwarder : Bool) (payload : Bytes) :
    Guards (Permitted setting i c) past
      (handleServiceRequest (setting.ctx i).toServiceContext client forwarder payload).run := by
  refine guards_fallible_bind.mpr fun value _ => guards_fallible_bind.mpr fun op _ => ?_
  split
  · exact guards_handleRaftRpc payload
  split
  · exact guards_raftRuntime_bind
  split
  · exact guards_raftRuntime_bind
  split
  · exact guards_raftRuntime_bind
  split
  · exact guards_fallible_bind.mpr fun _ _ => guards_of_reads (asks_handleJoin _ value)
  split
  · exact guards_fallible_bind.mpr fun _ _ => guards_handleReplicate value
  split
  · exact guards_fallible_bind.mpr fun _ _ => guards_handleSyncRequest value
  rw [setting.legacy i]
  refine guards_fallible_bind.mpr fun req _ => ?_
  refine guards_query_bind.mpr ⟨permitted_of_plain trivial, fun now => ?_⟩
  refine guards_attempt_bind ⟨permitted_of_plain trivial, fun _ => trivial⟩ ?_
  rintro _ u ⟨_, _, rfl, rfl, rfl⟩
  exact guards_handleManagement now (by simp)

end Handlers

/-! ## Broadcasts and pulls -/

section Tasks

variable {ι : Type} {setting : Setting ι} {i : ι} {c : Cluster ι} {past : List RepEvent}

theorem guards_discoverPeers_bind {α : Type} {service : String} {f : List String → RepM α}
    (h : ∀ past peers, Guards (Allowed setting i · c) past (f peers)) :
    Guards (Allowed setting i · c) past (discoverPeers service >>= f) := by
  refine ⟨.inr trivial, fun found => ⟨.inr trivial, fun me => ?_⟩⟩
  cases me with
  | ok me => exact h _ _
  | error e => exact h _ _

theorem guards_broadcastTo {ctx : RepContext} {update : Update} {peer : String}
    (h : (i, update) ∈ c.queued) :
    Guards (Allowed setting i · c) past (broadcastTo ctx update peer) := by
  refine guards_request_bind.mpr ⟨.inr trivial, fun nonce => ?_⟩
  refine guards_request_bind.mpr ⟨.inr trivial, fun ts => ?_⟩
  refine guards_request_bind.mpr ⟨.inr ⟨h, by simp⟩, fun mac => ?_⟩
  split
  · trivial
  · exact ⟨.inr trivial, fun _ => trivial⟩

theorem guards_broadcastAll {ctx : RepContext} {update : Update} (h : (i, update) ∈ c.queued)
    (peers : List String) :
    Guards (Allowed setting i · c) past (broadcastAll ctx update peers) := by
  induction peers generalizing past with
  | nil => trivial
  | cons peer peers ih => exact (guards_broadcastTo h).bind fun _ _ _ => ih

theorem guards_shuffle (n : Nat) (peers : List String) :
    Guards (Allowed setting i · c) past (shuffle peers n) := by
  induction n generalizing past peers with
  | zero => trivial
  | succ n ih => exact ⟨.inr trivial, fun r => ih _⟩

theorem guards_syncWithPeer (peer : String) :
    Guards (Allowed setting i · c) past (syncWithPeer (setting.ctx i) peer).run := by
  refine guards_query_bind.mpr ⟨.inr trivial, fun nonce => ?_⟩
  refine guards_query_bind.mpr ⟨.inr trivial, fun ts => ?_⟩
  refine guards_query_bind.mpr ⟨.inr ⟨setting.network_eq i, by simp⟩, fun mac => ?_⟩
  refine guards_fallible_bind.mpr fun payload _ => ?_
  refine guards_attempt_bind ⟨.inr trivial, fun _ => trivial⟩ ?_
  rintro _ bytes ⟨_, _, rfl, rfl, rfl⟩
  refine guards_fallible_bind.mpr fun resp _ => ?_
  refine guards_attempt_bind ⟨.inr trivial, fun _ => trivial⟩ ?_
  rintro _ u ⟨_, _, rfl, rfl, rfl⟩
  refine guards_attempt_bind ⟨.inr ?_, fun _ => trivial⟩ ?_
  · rw [setting.network_eq i]
    exact .synced nonce resp (by simp) (by simp)
  · rintro _ ⟨reply, store⟩ -
    dsimp only
    split
    · exact guards_query_bind.mpr ⟨.inr trivial, fun _ => trivial⟩
    · trivial

theorem guards_syncFirst (peers : List String) :
    Guards (Allowed setting i · c) past (syncFirst (setting.ctx i) peers) := by
  induction peers generalizing past with
  | nil => trivial
  | cons peer peers ih =>
      refine (guards_syncWithPeer peer).bind fun _ result _ => ?_
      cases result with
      | ok changed => trivial
      | error e => exact ih

theorem guards_detached_onService {α : Type} {p : ServiceM α}
    (h : Guards (Permitted setting i c) [] p) :
    Guards (Allowed setting i · c) [] (detached (onService p)) :=
  guards_detached (@guards_onService _ _ [] _ h)

theorem guards_of_starts [DecidableEq ι] {p : RepM Unit} (h : Starts setting c i p) :
    Guards (Allowed setting i · c) [] p := by
  cases h with
  | request client forwarder payload =>
      exact guards_detached_onService (guards_handleServiceRequest client forwarder payload)
  | broadcast update hqueued =>
      exact guards_discoverPeers_bind fun _ peers => guards_broadcastAll hqueued peers
  | sync =>
      refine guards_detached (guards_discoverPeers_bind fun _ peers => ?_)
      split
      · trivial
      · exact (guards_shuffle _ _).bind fun _ peers _ => guards_syncFirst peers
  | publish renew => exact guards_detached_onService (guards_of_plain (asks_node _))

end Tasks

end NexusAuth.Replicate
