import NexusAuth.Publisher.Proofs.Rounds
import NexusAuth.Service.Dispatch

/-!
# What the handlers can ask in Raft mode

Two kinds of questions matter for authorisation: those that change the legacy store and
those that change the policy or the membership of the cluster.  Most handlers ask
neither.
-/

namespace NexusAuth

open NexusAuth.Lib.Interaction NexusAuth.Raft

/-- The store of the legacy mode is changed by an operation or by a renewal. -/
def Service.ServiceCall.changesStore : Service.ServiceCall → Bool
  | .node .bumpIndexVersion => true
  | .changeStore _ => true
  | _ => false

def Service.ServiceCall.privileged : Service.ServiceCall → Bool
  | .node (.propose _) => true
  | .addLearnerNode _ _ => true
  | .promoteVoter _ => true
  | .demoteVoter _ => true
  | .removeMember _ => true
  | _ => false

namespace Service

def ServiceCall.KeepsStore (q : ServiceCall) : Prop := q.changesStore = false

def ServiceCall.Quiet (q : ServiceCall) : Prop := q.changesStore = false ∧ q.privileged = false

open ServiceCall (KeepsStore Quiet)

variable {P : ServiceCall → Prop}

/-! ## Publishing rounds -/

theorem asks_onNode {α : Type} {p : NodeM α} (hp : Asks (fun q => P (.node q)) p) :
    Asks P (onNode p) := by
  induction p with
  | done a => trivial
  | ask q next ih => exact ⟨hp.1, fun answer => ih answer (hp.2 answer)⟩

end Service

namespace Publisher

variable (ctx : Context)

def InRound (q : NodeCall) : Prop := q ≠ .bumpIndexVersion

theorem asks_publishWhitelists (services : List ServiceRow) :
    Asks InRound (publishWhitelists ctx services) :=
  asks_publishWhitelists_of NodeCall.noConfusion NodeCall.noConfusion
    fun _ _ _ _ _ _ => NodeCall.noConfusion

theorem asks_publishIndex (indexVersion expiresAt : Nat) (services : List ServiceEntry) :
    Asks InRound (publishIndex ctx indexVersion expiresAt services) :=
  asks_publishIndex_of NodeCall.noConfusion NodeCall.noConfusion
    fun _ _ _ _ _ => NodeCall.noConfusion

theorem asks_failRound (epoch : Nat) (message : String) : Asks InRound (failRound epoch message) :=
  ⟨NodeCall.noConfusion, fun _ => ⟨NodeCall.noConfusion, fun _ => trivial⟩⟩

theorem asks_publishSnapshot (state : PolicyState) : Asks InRound (publishSnapshot ctx state) := by
  refine (asks_publishWhitelists ctx _).bind fun result => ?_
  cases result with
  | error e => exact asks_failRound _ _
  | ok entries =>
      refine ⟨NodeCall.noConfusion, fun leads => ?_⟩
      cases leads with
      | false => exact asks_failRound _ _
      | true =>
          refine (asks_publishIndex ctx _ _ _).bind fun result => ?_
          cases result with
          | error e => exact asks_failRound _ _
          | ok u => exact ⟨NodeCall.noConfusion, fun _ => ⟨NodeCall.noConfusion, fun _ => trivial⟩⟩

theorem asks_publishState (state : PolicyState) : Asks InRound (publishState ctx state) := by
  refine ⟨NodeCall.noConfusion, fun leads => ?_⟩
  cases leads with
  | false => trivial
  | true =>
      refine asks_request_bind.mpr ⟨NodeCall.noConfusion, fun status => ?_⟩
      split
      · exact asks_failRound _ _
      · split
        · exact asks_failRound _ _
        · exact asks_publishSnapshot ctx state

theorem asks_publishOnceRaft (renew : Bool) : Asks InRound (publishOnceRaft ctx renew) := by
  refine ⟨NodeCall.noConfusion, fun ready => ?_⟩
  cases ready with
  | false => trivial
  | true =>
      refine ⟨NodeCall.noConfusion, fun leads => ?_⟩
      cases leads with
      | false => trivial
      | true =>
          refine asks_request_bind.mpr ⟨NodeCall.noConfusion, fun state => ?_⟩
          refine asks_request_bind.mpr ⟨NodeCall.noConfusion, fun now => ?_⟩
          split
          · refine ⟨NodeCall.noConfusion, fun result => ?_⟩
            cases result with
            | error e => exact asks_failRound _ _
            | ok proposal =>
                exact ⟨NodeCall.noConfusion, fun state => asks_publishState ctx state⟩
          · exact asks_publishState ctx state

/-- In Raft mode a round never renews the index of the legacy store. -/
theorem asks_publishOnce (hraft : ctx.raftRequired = true) (renew : Bool) :
    Asks InRound (publishOnce ctx renew) := by
  refine ⟨NodeCall.noConfusion, fun isEmpty => ?_⟩
  cases isEmpty with
  | true => trivial
  | false =>
      simp only [hraft, if_true]
      exact asks_publishOnceRaft ctx renew

end Publisher

namespace Service

open ServiceCall (KeepsStore Quiet)

variable (ctx : ServiceContext)

theorem ServiceCall.Quiet.keepsStore {q : ServiceCall} (h : Quiet q) : KeepsStore q := h.1

/-! ## Handlers that change neither store nor policy -/

theorem asks_verifyAdmin (req : AdminRequestV2) : Asks Quiet (ctx.verifyAdmin req) := by
  refine asks_request_bind.mpr ⟨⟨rfl, rfl⟩, fun now => ?_⟩
  split
  · trivial
  · refine asks_request_bind.mpr ⟨⟨rfl, rfl⟩, fun fresh => ?_⟩
    cases fresh with
    | error e => trivial
    | ok u => trivial

theorem asks_authorityPublicKey : Asks Quiet ctx.authorityPublicKey.run :=
  ⟨⟨rfl, rfl⟩, fun _ => trivial⟩

theorem asks_raftRuntime : Asks Quiet raftRuntime.run :=
  ⟨⟨rfl, rfl⟩, fun _ => trivial⟩

theorem asks_adminRaft : Asks Quiet adminRaft.run :=
  ⟨⟨rfl, rfl⟩, fun _ => trivial⟩

theorem asks_auditAdmin (level : LogLevel) (entry : AdminAudit) :
    Asks Quiet (auditAdmin level entry).run :=
  asks_query.mpr ⟨rfl, rfl⟩

theorem asks_auditMember (req : AdminRequestV2) (op target result : String) (policyEpoch : Nat)
    (edgePeer : Option String) :
    Asks Quiet (auditMember req op target result policyEpoch edgePeer).run :=
  ⟨⟨rfl, rfl⟩, fun _ => ⟨⟨rfl, rfl⟩, fun _ => asks_auditAdmin _ _⟩⟩

theorem asks_memberReply (req : AdminRequestV2) (fields : List (String × Json))
    (policyEpoch : Nat) :
    Asks Quiet (memberReply ctx req fields policyEpoch).run :=
  ⟨⟨rfl, rfl⟩, fun _ => ⟨⟨rfl, rfl⟩, fun _ => trivial⟩⟩

theorem asks_adminStatus (state : PolicyState) : Asks Quiet (adminStatus ctx state).run := by
  simp only [adminStatus, asks_query_bind]
  refine ⟨⟨rfl, rfl⟩, fun publish => ⟨⟨rfl, rfl⟩, fun snapshot => ?_⟩⟩
  refine (asks_authorityPublicKey ctx).bindExcept fun publicKey => ?_
  refine ⟨⟨rfl, rfl⟩, fun hasSeed => ⟨⟨rfl, rfl⟩, fun seedPresent => ?_⟩⟩
  exact ⟨⟨rfl, rfl⟩, fun connections => ⟨⟨rfl, rfl⟩, fun uptime => trivial⟩⟩

theorem asks_handleAdminRead (req : AdminRequestV2) : Asks Quiet (handleAdminRead ctx req).run := by
  refine asks_adminRaft.bindExcept fun _ => ?_
  simp only [asks_query_bind]
  refine ⟨⟨rfl, rfl⟩, fun state => ⟨⟨rfl, rfl⟩, fun applied => ⟨⟨rfl, rfl⟩, fun leader => ?_⟩⟩⟩
  refine ⟨⟨rfl, rfl⟩, fun term => ⟨⟨rfl, rfl⟩, fun stale => ?_⟩⟩
  split
  · refine (asks_adminStatus ctx state).bindExcept fun value => ?_
    exact (asks_auditAdmin _ _).bindExcept fun _ => trivial
  · refine (asks_authorityPublicKey ctx).bindExcept fun publicKey => ?_
    refine asks_fallible_bind.mpr fun publicKey _ => ?_
    exact (asks_auditAdmin _ _).bindExcept fun _ => trivial
  · exact (asks_auditAdmin _ _).bindExcept fun _ => trivial
  · split
    · refine asks_raftRuntime.bindExcept fun _ => ?_
      exact ⟨⟨rfl, rfl⟩, fun view => trivial⟩
    · refine asks_fallible_bind.mpr fun value _ => ?_
      exact (asks_auditAdmin _ _).bindExcept fun _ => trivial
  · trivial

theorem asks_forwardWrite (req : AdminRequestV2) (raw : Bytes) (forwarder : Bool)
    (edgePeer : Option String) :
    Asks Quiet (forwardWrite ctx req raw forwarder edgePeer).run := by
  refine asks_query_bind.mpr ⟨⟨rfl, rfl⟩, fun leader => ?_⟩
  cases leader with
  | none => exact (asks_auditAdmin _ _).bindExcept fun _ => trivial
  | some leader =>
      refine asks_fallible_bind.mpr fun _ _ => asks_query_bind.mpr ⟨⟨rfl, rfl⟩, fun me => ?_⟩
      refine asks_fallible_bind.mpr fun payload _ => ?_
      refine (asks_auditAdmin _ _).bindExcept fun _ => Asks.attempt ?_
      exact ⟨⟨rfl, rfl⟩, fun _ => trivial⟩

theorem asks_verifyJoin (req : RaftJoinRequest) (audiences : List String) :
    Asks Quiet (verifyJoin ctx req audiences).run :=
  ⟨⟨rfl, rfl⟩, fun _ => trivial⟩

theorem asks_forwardJoin (client : Bool) (req : RaftJoinRequest) :
    Asks Quiet (forwardJoin ctx client req).run := by
  refine asks_query_bind.mpr ⟨⟨rfl, rfl⟩, fun leader => ?_⟩
  refine asks_fallible_bind.mpr fun leader _ => asks_fallible_bind.mpr fun _ _ => ?_
  refine asks_fallible_bind.mpr fun payload _ => Asks.attempt ?_
  exact ⟨⟨rfl, rfl⟩, fun _ => trivial⟩

theorem asks_acknowledged (receiver : NodeId) (result : Except String Unit) :
    Asks Quiet (acknowledged ctx receiver result).run :=
  asks_fallible_bind.mpr fun _ _ => trivial

theorem asks_handleSeedDelivery (value : Json) : Asks Quiet (handleSeedDelivery ctx value).run := by
  refine asks_raftRuntime.bindExcept fun _ => asks_fallible_bind.mpr fun envelope _ => ?_
  exact asks_query_bind.mpr ⟨⟨rfl, rfl⟩, fun result => asks_acknowledged ctx _ result⟩

theorem asks_handleSeedDrop (value : Json) : Asks Quiet (handleSeedDrop ctx value).run := by
  refine asks_raftRuntime.bindExcept fun _ => asks_fallible_bind.mpr fun req _ => ?_
  exact asks_query_bind.mpr ⟨⟨rfl, rfl⟩, fun result => asks_acknowledged ctx _ result⟩

theorem asks_handleRaftRpc (payload : Bytes) : Asks Quiet (handleRaftRpc payload).run := by
  refine asks_query_bind.mpr ⟨⟨rfl, rfl⟩, fun ready => asks_fallible_bind.mpr fun _ _ => ?_⟩
  exact Asks.attempt ⟨⟨rfl, rfl⟩, fun _ => trivial⟩

theorem asks_legacyOnly (hraft : ctx.raftRequired = true) (code message : String)
    (handler : HandlerM Bytes) : Asks P (legacyOnly ctx code message handler).run := by
  refine asks_fallible_bind.mpr fun _ hensure => ?_
  simp [hraft] at hensure

/-! ## Writes keep the legacy store -/

theorem keeps_of_quiet {α : Type} {p : ServiceM α} (hp : Asks Quiet p) : Asks KeepsStore p :=
  hp.mono fun _ => ServiceCall.Quiet.keepsStore

section Writes

variable (req : AdminRequestV2) (edgePeer : Option String)

theorem keeps_auditMember (op target result : String) (policyEpoch : Nat) :
    Asks KeepsStore (auditMember req op target result policyEpoch edgePeer).run :=
  keeps_of_quiet (asks_auditMember req op target result policyEpoch edgePeer)

theorem keeps_auditAndReply (op target result : String) (policyEpoch : Nat)
    (fields : List (String × Json)) :
    Asks KeepsStore (do
      auditMember req op target result policyEpoch edgePeer
      memberReply ctx req fields policyEpoch : HandlerM Bytes).run :=
  (keeps_auditMember req edgePeer _ _ _ _).bindExcept fun _ =>
    keeps_of_quiet (asks_memberReply ctx req fields policyEpoch)

theorem keeps_memberTarget : Asks KeepsStore (memberTarget ctx req).run :=
  asks_fallible_bind.mpr fun _ _ => asks_fallible_bind.mpr fun _ _ => trivial

theorem keeps_addLearnerWrite : Asks KeepsStore (addLearnerWrite ctx req edgePeer).run := by
  refine (keeps_memberTarget ctx req).bindExcept fun (spec, target) => ?_
  refine asks_fallible_bind.mpr fun node _ => ?_
  refine asks_attempt_bind ⟨rfl, fun _ => trivial⟩ fun info => ?_
  exact asks_query_bind.mpr ⟨rfl, fun state => keeps_auditAndReply ctx req edgePeer _ _ _ _ _⟩

theorem keeps_deliverAndPromote (target : NodeId) :
    Asks KeepsStore (deliverAndPromote target).run := by
  refine asks_attempt_bind ⟨rfl, fun _ => trivial⟩ fun _ => ?_
  refine asks_query_bind.mpr ⟨rfl, fun result => ?_⟩
  cases result with
  | ok u => trivial
  | error e => exact asks_query_bind.mpr ⟨rfl, fun _ => trivial⟩

theorem keeps_promoteVoterWrite : Asks KeepsStore (promoteVoterWrite ctx req edgePeer).run := by
  refine (keeps_memberTarget ctx req).bindExcept fun (spec, target) => ?_
  refine asks_query_bind.mpr ⟨rfl, fun view => asks_fallible_bind.mpr fun member _ => ?_⟩
  refine (keeps_deliverAndPromote target).bindExcept fun _ => ?_
  exact asks_query_bind.mpr ⟨rfl, fun state => keeps_auditAndReply ctx req edgePeer _ _ _ _ _⟩

theorem keeps_dropOwnSeed : Asks KeepsStore dropOwnSeed.run :=
  asks_attempt_bind ⟨rfl, fun _ => trivial⟩ fun _ => asks_query.mpr rfl

theorem keeps_dropSeedOf (target : NodeId) : Asks KeepsStore (dropSeedOf target).run :=
  Asks.attempt ⟨rfl, fun _ => trivial⟩

theorem keeps_demoteAndDrop (target : NodeId) : Asks KeepsStore (demoteAndDrop ctx target).run := by
  refine asks_attempt_bind ⟨rfl, fun _ => trivial⟩ fun _ => ?_
  split
  · exact keeps_dropOwnSeed
  · exact keeps_dropSeedOf target

theorem keeps_demoteVoterWrite : Asks KeepsStore (demoteVoterWrite ctx req edgePeer).run := by
  refine (keeps_memberTarget ctx req).bindExcept fun (spec, target) => ?_
  refine asks_query_bind.mpr ⟨rfl, fun view => asks_fallible_bind.mpr fun _ _ => ?_⟩
  refine (keeps_demoteAndDrop ctx target).bindExcept fun _ => ?_
  refine asks_query_bind.mpr ⟨rfl, fun state => asks_query_bind.mpr ⟨rfl, fun after => ?_⟩⟩
  exact keeps_auditAndReply ctx req edgePeer _ _ _ _ _

theorem keeps_removeAndDrop (target : NodeId) (wasVoter : Bool) :
    Asks KeepsStore (removeAndDrop ctx target wasVoter).run := by
  have hdrop (remote : Bool) : Asks KeepsStore (dropBeforeRemoval target remote).run := by
    cases remote with
    | false => trivial
    | true => exact keeps_dropSeedOf target
  have hrestore (remote : Bool) : Asks KeepsStore (restoreSeed target remote).run := by
    cases remote with
    | false => trivial
    | true => exact asks_query_bind.mpr ⟨rfl, fun _ => trivial⟩
  refine (hdrop _).bindExcept fun _ => asks_query_bind.mpr ⟨rfl, fun result => ?_⟩
  cases result with
  | error e => exact (hrestore _).bindExcept fun _ => trivial
  | ok u =>
      dsimp only
      split
      · exact keeps_dropOwnSeed
      · trivial

theorem keeps_removeMemberWrite : Asks KeepsStore (removeMemberWrite ctx req edgePeer).run := by
  refine (keeps_memberTarget ctx req).bindExcept fun (spec, target) => ?_
  refine asks_query_bind.mpr ⟨rfl, fun view => asks_fallible_bind.mpr fun _ _ => ?_⟩
  refine (keeps_removeAndDrop ctx target _).bindExcept fun _ => ?_
  exact asks_query_bind.mpr ⟨rfl, fun state => keeps_auditAndReply ctx req edgePeer _ _ _ _ _⟩

theorem keeps_issueJoinToken (verified : VerifiedAdmin) :
    Asks KeepsStore (issueJoinToken ctx req edgePeer verified).run := by
  refine asks_fallible_bind.mpr fun spec _ => asks_query_bind.mpr ⟨rfl, fun now => ?_⟩
  refine asks_fallible_bind.mpr fun _ _ => ?_
  refine asks_attempt_bind ⟨rfl, fun _ => trivial⟩ fun proposal => ?_
  refine asks_fallible_bind.mpr fun index _ => asks_query_bind.mpr ⟨rfl, fun state => ?_⟩
  refine (keeps_auditMember req edgePeer _ _ _ _).bindExcept fun _ => ?_
  exact asks_query_bind.mpr ⟨rfl, fun term => trivial⟩

theorem keeps_executeMemberWrite (verified : VerifiedAdmin) :
    Asks KeepsStore (executeMemberWrite ctx req edgePeer verified).run := by
  refine (keeps_of_quiet asks_raftRuntime).bindExcept fun _ => ?_
  refine asks_query_bind.mpr ⟨rfl, fun leader => asks_fallible_bind.mpr fun _ _ => ?_⟩
  split
  · exact keeps_issueJoinToken ctx req edgePeer verified
  · exact keeps_addLearnerWrite ctx req edgePeer
  · exact keeps_promoteVoterWrite ctx req edgePeer
  · exact keeps_demoteVoterWrite ctx req edgePeer
  · exact keeps_removeMemberWrite ctx req edgePeer
  · trivial

theorem keeps_auditAdmin (level : LogLevel) (entry : AdminAudit) :
    Asks KeepsStore (auditAdmin level entry).run :=
  keeps_of_quiet (asks_auditAdmin level entry)

variable (hraft : ctx.raftRequired = true)

include hraft

theorem keeps_publishNow (renew : Bool) : Asks KeepsStore (publishNow ctx renew).run := by
  refine (asks_onNode ?_).lift
  refine (Publisher.asks_publishOnce ctx.toContext hraft renew).mono fun q hq => ?_
  cases q with
  | bumpIndexVersion => exact absurd rfl hq
  | _ => rfl

theorem keeps_executePublishNow (leader : Option String) :
    Asks KeepsStore (executePublishNow ctx req leader edgePeer).run := by
  refine (keeps_publishNow ctx hraft true).bindExcept fun outcome => ?_
  refine asks_query_bind.mpr ⟨rfl, fun state => asks_query_bind.mpr ⟨rfl, fun applied => ?_⟩⟩
  dsimp only
  split
  · trivial
  · exact (keeps_auditAdmin _ _).bindExcept fun _ => trivial
  · exact (keeps_auditAdmin _ _).bindExcept fun _ => trivial

theorem keeps_publishChange (entry : String → AdminAudit) (policyEpoch : Nat) :
    Asks KeepsStore (publishChange ctx entry policyEpoch).run := by
  refine (keeps_publishNow ctx hraft false).bindExcept fun outcome => ?_
  split
  · exact (keeps_auditAdmin _ _).bindExcept fun _ => trivial
  · trivial
  · exact (keeps_auditAdmin _ _).bindExcept fun _ => trivial

theorem keeps_concludeWrite (leader : Option String) (proposal : AdminProposal) :
    Asks KeepsStore (concludeWrite ctx req leader edgePeer proposal).run := by
  unfold concludeWrite
  split
  · dsimp only
    split
    · split
      · refine (keeps_publishChange ctx hraft _ _).bindExcept fun _ => ?_
        exact (keeps_auditAdmin _ _).bindExcept fun _ => trivial
      · exact (keeps_auditAdmin _ _).bindExcept fun _ => trivial
    · exact (keeps_auditAdmin _ _).bindExcept fun _ => trivial
  · trivial

theorem keeps_executeRootWrite (verified : VerifiedAdmin) :
    Asks KeepsStore (executeRootWrite ctx req verified edgePeer).run := by
  refine asks_query_bind.mpr ⟨rfl, fun leader => ?_⟩
  split
  · exact keeps_executeMemberWrite ctx req edgePeer verified
  · split
    · exact keeps_executePublishNow ctx req edgePeer hraft leader
    · refine asks_fallible_bind.mpr fun command _ => ?_
      refine asks_attempt_bind ⟨rfl, fun _ => trivial⟩ fun proposal => ?_
      exact keeps_concludeWrite ctx req edgePeer hraft leader proposal

theorem keeps_handleRootWrite (raw : Bytes) (verified : VerifiedAdmin) (forwarder : Bool) :
    Asks KeepsStore (handleRootWrite ctx req raw verified forwarder edgePeer).run := by
  refine (keeps_of_quiet asks_adminRaft).bindExcept fun _ => ?_
  refine asks_query_bind.mpr ⟨rfl, fun leads => ?_⟩
  cases leads with
  | true => exact keeps_executeRootWrite ctx req edgePeer hraft verified
  | false => exact keeps_of_quiet (asks_forwardWrite ctx req raw forwarder edgePeer)

end Writes

theorem keeps_verifyAdminOr (req : AdminRequestV2) :
    Asks KeepsStore (consultOr adminV2Error (ctx.verifyAdmin req)).run :=
  (keeps_of_quiet (asks_verifyAdmin ctx req)).attempt

section Requests

variable (hraft : ctx.raftRequired = true)

include hraft

theorem keeps_handleForwardedAdmin (raw : Bytes) :
    Asks KeepsStore (handleForwardedAdmin ctx raw).run := by
  refine asks_fallible_bind.mpr fun envelope _ => asks_fallible_bind.mpr fun _ _ => ?_
  refine (keeps_of_quiet asks_adminRaft).bindExcept fun _ => ?_
  refine asks_query_bind.mpr ⟨rfl, fun leader => asks_fallible_bind.mpr fun _ _ => ?_⟩
  refine asks_fallible_bind.mpr fun bytes _ => asks_fallible_bind.mpr fun value _ => ?_
  refine asks_fallible_bind.mpr fun req _ => ?_
  refine (keeps_verifyAdminOr ctx req).bindExcept fun verified => ?_
  refine asks_fallible_bind.mpr fun _ _ => asks_fallible_bind.mpr fun _ _ => ?_
  exact keeps_executeRootWrite ctx req _ hraft verified

theorem keeps_handleVerified (raw : Bytes) (forwarder : Bool) (req : AdminRequestV2)
    (verified : VerifiedAdmin) :
    Asks KeepsStore (handleVerified ctx raw forwarder req verified).run := by
  unfold handleVerified
  split
  · exact keeps_of_quiet (asks_handleAdminRead ctx req)
  · split
    · exact keeps_handleRootWrite ctx req none hraft raw verified forwarder
    · exact (keeps_auditAdmin _ _).bindExcept fun _ => trivial
  · exact (keeps_auditAdmin _ _).bindExcept fun _ => trivial

theorem keeps_handleAdminV2 (raw : Bytes) (value : Json) (forwarder : Bool) :
    Asks KeepsStore (handleAdminV2 ctx raw value forwarder).run := by
  unfold handleAdminV2
  split
  · exact keeps_handleForwardedAdmin ctx hraft raw
  · refine asks_fallible_bind.mpr fun req _ => ?_
    refine (keeps_of_quiet (asks_verifyAdmin ctx req)).lift.bindExcept fun result => ?_
    cases result with
    | ok verified => exact keeps_handleVerified ctx hraft raw forwarder req verified
    | error e => exact (keeps_auditAdmin _ _).bindExcept fun _ => trivial

omit hraft in
theorem keeps_handleRaftJoin (client : Bool) (value : Json) :
    Asks KeepsStore (handleRaftJoin ctx client value).run := by
  refine (keeps_of_quiet asks_raftRuntime).bindExcept fun _ => ?_
  refine asks_fallible_bind.mpr fun _ _ => asks_fallible_bind.mpr fun req _ => ?_
  refine (keeps_of_quiet (asks_verifyJoin ctx req _)).bindExcept fun _ => ?_
  refine asks_query_bind.mpr ⟨rfl, fun leads => ?_⟩
  cases leads with
  | false => exact keeps_of_quiet (asks_forwardJoin ctx client req)
  | true =>
      refine (keeps_of_quiet (asks_verifyJoin ctx req _)).bindExcept fun _ => ?_
      refine asks_query_bind.mpr ⟨rfl, fun view => asks_fallible_bind.mpr fun _ _ => ?_⟩
      refine asks_query_bind.mpr ⟨rfl, fun state => asks_fallible_bind.mpr fun _ _ => ?_⟩
      refine asks_query_bind.mpr ⟨rfl, fun usedAt => ?_⟩
      refine asks_attempt_bind ⟨rfl, fun _ => trivial⟩ fun proposal => ?_
      refine asks_fallible_bind.mpr fun _ _ => ?_
      refine asks_attempt_bind ⟨rfl, fun _ => trivial⟩ fun info => ?_
      refine asks_query_bind.mpr ⟨rfl, fun members => asks_query_bind.mpr ⟨rfl, fun state => ?_⟩⟩
      refine asks_query_bind.mpr ⟨rfl, fun term => asks_query_bind.mpr ⟨rfl, fun leader => ?_⟩⟩
      exact (keeps_auditMember _ _ _ _ _ _).bindExcept fun _ => trivial

/-- In Raft mode no request changes the legacy store. -/
theorem keeps_handleServiceRequest (client forwarder : Bool) (payload : Bytes) :
    Asks KeepsStore (handleServiceRequest ctx client forwarder payload).run := by
  refine asks_fallible_bind.mpr fun value _ => asks_fallible_bind.mpr fun op _ => ?_
  split
  · exact keeps_of_quiet (asks_handleRaftRpc payload)
  split
  · exact keeps_handleRaftJoin ctx client value
  split
  · exact keeps_of_quiet (asks_handleSeedDelivery ctx value)
  split
  · exact keeps_of_quiet (asks_handleSeedDrop ctx value)
  split
  · exact asks_legacyOnly ctx hraft _ _ _
  split
  · exact asks_legacyOnly ctx hraft _ _ _
  split
  · exact asks_legacyOnly ctx hraft _ _ _
  exact keeps_handleAdminV2 ctx hraft payload value forwarder

end Requests

end Service

end NexusAuth
