import NexusAuth.Raft.Proofs.Joins
import NexusAuth.Service.Proofs.Reachability

/-!
# Who can change a cluster

In Raft mode a request leads to a proposal or a change of the membership only after one
of two things was checked: the signature of a root administrator under the request, or a
join token that a root administrator signed and the cluster has recorded.  A join adds
its own node and nothing else.
-/

namespace NexusAuth.Service

open NexusAuth.Lib.Interaction NexusAuth.Lib.Results NexusAuth.Raft
open ServiceCall (KeepsStore Quiet)

variable (ctx : ServiceContext) (payload : Bytes)

/-! ## What is checked -/

/-- The payload is a request of an administrator, or an envelope around one. -/
inductive Carries (req : AdminRequestV2) : Prop
  | direct (value : Json) (hparse : ctx.wire.parse payload = .ok value)
      (hreq : ctx.wire.adminRequest value = .ok req)
  | forwarded (envelope : ForwardedAdminEnvelope) (bytes : Bytes) (value : Json)
      (henvelope : ctx.wire.forwardedAdmin payload = .ok envelope)
      (hop : envelope.op = forwardedAdminOp)
      (hbytes : ctx.crypto.unbase64 envelope.requestB64 = some bytes)
      (hparse : ctx.wire.parse bytes = .ok value) (hreq : ctx.wire.adminRequest value = .ok req)

/-- `AdminVerifier::verify` has accepted the request of the payload with the role root. -/
def RootVerified (past : List ServiceEvent) : Prop :=
  ∃ req verified checks, Carries ctx payload req ∧ checks <:+: past ∧
    Yields (ctx.verifyAdmin req) checks (.ok verified) ∧ verified.role = .root

structure JoinPayload (req : RaftJoinRequest) : Prop where
  op : ∃ value, ctx.wire.parse payload = .ok value ∧
    (value.get "op").bind Json.asStr = some raftJoinOp ∧ ctx.wire.raftJoin value = .ok req

/-- What was established about a join before it changes anything. -/
structure JoinVerified (past : List ServiceEvent) (req : RaftJoinRequest) : Prop where
  accepted : ∃ now audiences, ⟨.node .now, now⟩ ∈ past ∧
    req.verify ctx.crypto ctx.adminKeys ctx.clusterId ctx.network now audiences = .ok ()
  rootSigned : req.token.RootSigned ctx.crypto ctx.adminKeys
  recorded : ∃ (state : PolicyState) (stored : StoredJoinToken),
    ⟨.node .policySnapshot, state⟩ ∈ past ∧
    state.joinTokens[req.token.jti]? = some stored ∧ stored.token = req.token

/-- The changes that a join makes for its own node. -/
inductive OwnChange (req : RaftJoinRequest) : ServiceCall → Prop
  | consume (usedAt : Nat) : OwnChange req
      (.node (.propose (.consumeJoinToken req.token.jti req.nodeId req.peerId usedAt)))
  | add : OwnChange req (.addLearnerNode req.nodeId ⟨req.peerId, req.identityKey, req.x25519Key⟩)

variable {ctx payload} {past : List ServiceEvent}

theorem RootVerified.append (h : RootVerified ctx payload past) (events : List ServiceEvent) :
    RootVerified ctx payload (past ++ events) := by
  obtain ⟨req, verified, checks, hcarries, hchecks, hverified, hrole⟩ := h
  exact ⟨req, verified, checks, hcarries, hchecks.trans ⟨[], events, rfl⟩, hverified, hrole⟩

/-! ## Guarded handlers -/

section Guarded

variable {α : Type} {X : List ServiceEvent → ServiceCall → Prop}

/-- A privileged question needs `X`. -/
def Needs (X : List ServiceEvent → ServiceCall → Prop) (past : List ServiceEvent)
    (q : ServiceCall) : Prop := q.privileged = true → X past q

theorem needs_of_not_privileged {q : ServiceCall} (hq : q.privileged = false) : Needs X past q :=
  fun hprivileged => absurd (hq.symm.trans hprivileged) Bool.false_ne_true

theorem guards_of_quiet {p : ServiceM α} (hp : Asks Quiet p) : Guards (Needs X) past p :=
  hp.guards fun _ _ hq => needs_of_not_privileged hq.2

end Guarded

theorem guards_of_rootVerified {α : Type} {p : ServiceM α} (h : RootVerified ctx payload past) :
    Guards (Needs fun past _ => RootVerified ctx payload past) past p :=
  Guards.of_forall fun events _ _ => h.append events

theorem guards_handleForwardedAdmin :
    Guards (Needs fun past _ => RootVerified ctx payload past) past
      (handleForwardedAdmin ctx payload).run := by
  refine guards_fallible_bind.mpr fun envelope henvelope => ?_
  refine guards_fallible_bind.mpr fun _ hop => ?_
  refine (guards_of_quiet asks_adminRaft).bindExcept fun _ _ _ => ?_
  refine guards_query_bind.mpr ⟨nofun, fun leader => guards_fallible_bind.mpr fun _ _ => ?_⟩
  refine guards_fallible_bind.mpr fun bytes hbytes => ?_
  refine guards_fallible_bind.mpr fun value hparse => guards_fallible_bind.mpr fun req hreq => ?_
  refine (guards_of_quiet (asks_verifyAdmin ctx req).attempt).bindExcept ?_
  intro checks verified hverified
  refine guards_fallible_bind.mpr fun _ hrole => guards_of_rootVerified ?_
  have hcarries : Carries ctx payload req :=
    .forwarded envelope bytes value (mapError_eq_ok.mp henvelope)
      (of_decide_eq_true (ensure_eq_ok.mp hop)).1 (okOr_eq_ok.mp hbytes)
      (mapError_eq_ok.mp hparse) (mapError_eq_ok.mp hreq)
  exact ⟨req, verified, checks, hcarries, (List.suffix_append _ _).isInfix,
    yields_attempt.mp hverified, by simpa using hrole⟩

theorem guards_handleAdminV2 {value : Json} (hparse : ctx.wire.parse payload = .ok value)
    (forwarder : Bool) :
    Guards (Needs fun past _ => RootVerified ctx payload past) past
      (handleAdminV2 ctx payload value forwarder).run := by
  unfold handleAdminV2
  split
  · exact guards_handleForwardedAdmin
  · refine guards_fallible_bind.mpr fun req hreq => ?_
    refine (guards_of_quiet (asks_verifyAdmin ctx req).lift).bindExcept fun checks result h => ?_
    cases result with
    | error e => exact guards_of_quiet ((asks_auditAdmin _ _).bindExcept fun _ => trivial)
    | ok verified =>
        simp only [handleVerified]
        split
        · exact guards_of_quiet (asks_handleAdminRead ctx req)
        · split
          next hrole =>
            refine guards_of_rootVerified ⟨req, verified, checks, ?_, ?_, yields_lift.mp h, hrole⟩
            · exact .direct value hparse (mapError_eq_ok.mp hreq)
            · exact (List.suffix_append _ _).isInfix
          next => exact guards_of_quiet ((asks_auditAdmin _ _).bindExcept fun _ => trivial)
        · exact guards_of_quiet ((asks_auditAdmin _ _).bindExcept fun _ => trivial)

theorem mem_of_yields_verifyJoin {req : RaftJoinRequest} {audiences : List String}
    {events : List ServiceEvent} (h : Yields (verifyJoin ctx req audiences).run events (.ok ())) :
    ∃ now, ⟨.node .now, now⟩ ∈ events ∧
      req.verify ctx.crypto ctx.adminKeys ctx.clusterId ctx.network now audiences = .ok () := by
  obtain ⟨now, rest, rfl, hrest⟩ := yields_query_bind.mp h
  obtain ⟨-, hresult⟩ := hrest
  exact ⟨now, List.mem_cons_self, mapError_eq_ok.mp hresult.symm⟩

theorem guards_handleLeaderJoin (req : RaftJoinRequest) :
    Guards (Needs fun past q => JoinVerified ctx past req ∧ OwnChange req q) past
      (handleLeaderJoin ctx req).run := by
  refine (guards_of_quiet (asks_verifyJoin ctx req _)).bindExcept fun checks _ hchecks => ?_
  obtain ⟨now, hnow, hverify⟩ := mem_of_yields_verifyJoin hchecks
  refine guards_query_bind.mpr ⟨needs_of_not_privileged rfl,
    fun view => guards_fallible_bind.mpr fun _ _ => ?_⟩
  refine guards_query_bind.mpr ⟨needs_of_not_privileged rfl,
    fun state => guards_fallible_bind.mpr fun _ hrecorded => ?_⟩
  simp only [recordedToken, bind_eq_ok, okOr_eq_ok, ensure_eq_ok] at hrecorded
  obtain ⟨stored, hstored, _, htoken, -⟩ := hrecorded
  -- from here on the history contains both checks
  have hverified : ∀ later, JoinVerified ctx
      (past ++ checks ++ [⟨.membershipView, view⟩] ++ [⟨.node .policySnapshot, state⟩] ++ later)
      req := by
    intro later
    refine ⟨⟨now, _, ?_, hverify⟩, (RaftJoinRequest.sound_of_verify hverify).token.rootSigned,
      state, stored, ?_, hstored, of_decide_eq_true htoken⟩
    · simp [hnow]
    · simp
  refine guards_query_bind.mpr ⟨needs_of_not_privileged rfl, fun usedAt => ?_⟩
  refine Guards.bindExcept ?_ fun proposed proposal _ => ?_
  · exact ⟨fun _ => ⟨hverified _, .consume usedAt⟩, fun _ => trivial⟩
  refine guards_fallible_bind.mpr fun _ _ => ?_
  refine Guards.bindExcept ?_ fun added info _ => guards_of_quiet ?_
  · refine ⟨fun _ => ⟨?_, .add⟩, fun _ => trivial⟩
    simpa only [List.append_assoc] using hverified ([⟨.node .now, usedAt⟩] ++ proposed)
  refine asks_query_bind.mpr ⟨⟨rfl, rfl⟩, fun members => ?_⟩
  refine asks_query_bind.mpr ⟨⟨rfl, rfl⟩, fun state => ?_⟩
  refine asks_query_bind.mpr ⟨⟨rfl, rfl⟩, fun term => ?_⟩
  refine asks_query_bind.mpr ⟨⟨rfl, rfl⟩, fun leader => ?_⟩
  exact (asks_auditMember _ _ _ _ _ _).bindExcept fun _ => trivial

theorem guards_handleRaftJoin {value : Json} {req : RaftJoinRequest}
    (hreq : ctx.wire.raftJoin value = .ok req) (client : Bool) :
    Guards (Needs fun past q => JoinVerified ctx past req ∧ OwnChange req q) past
      (handleRaftJoin ctx client value).run := by
  refine (guards_of_quiet asks_raftRuntime).bindExcept fun _ _ _ => ?_
  refine guards_fallible_bind.mpr fun _ _ => guards_fallible_bind.mpr fun req' hreq' => ?_
  obtain rfl : req = req' := Except.ok.inj (hreq.symm.trans (mapError_eq_ok.mp hreq'))
  refine (guards_of_quiet (asks_verifyJoin ctx req _)).bindExcept fun _ _ _ => ?_
  refine guards_query_bind.mpr ⟨needs_of_not_privileged rfl, fun leads => ?_⟩
  cases leads with
  | true => exact guards_handleLeaderJoin req
  | false => exact guards_of_quiet (asks_forwardJoin ctx client req)

theorem asks_handleRaftJoin_of_error {value : Json} {e : String}
    (hreq : ctx.wire.raftJoin value = .error e) (client : Bool) :
    Asks Quiet (handleRaftJoin ctx client value).run := by
  refine asks_raftRuntime.bindExcept fun _ => asks_fallible_bind.mpr fun _ _ => ?_
  refine asks_fallible_bind.mpr fun req hok => ?_
  rw [hreq] at hok
  cases hok

theorem guards_handleServiceRequest (hraft : ctx.raftRequired = true) (client forwarder : Bool)
    (payload : Bytes) :
    Guards (Needs fun past _ => RootVerified ctx payload past) []
        (handleServiceRequest ctx client forwarder payload).run ∨
      ∃ req, JoinPayload ctx payload req ∧
        Guards (Needs fun past q => JoinVerified ctx past req ∧ OwnChange req q) []
          (handleServiceRequest ctx client forwarder payload).run := by
  simp only [handleServiceRequest, parsed, guards_fallible_bind, mapError_eq_ok, okOr_eq_ok]
  cases hparse : ctx.wire.parse payload with
  | error e =>
      refine .inl fun value hvalue => ?_
      cases hvalue
  | ok value =>
  cases hop : (value.get "op").bind Json.asStr with
  | none =>
      refine .inl fun value' hvalue op hop' => ?_
      obtain rfl := Except.ok.inj hvalue
      cases hop.symm.trans hop'
  | some op =>
  simp only [Except.ok.injEq, forall_eq', hop, Option.some.injEq]
  split
  · exact .inl (guards_of_quiet (asks_handleRaftRpc payload))
  split
  next hjoin =>
    obtain rfl := eq_of_beq hjoin
    cases hreq : ctx.wire.raftJoin value with
    | error e => exact .inl (guards_of_quiet (asks_handleRaftJoin_of_error hreq client))
    | ok req => exact .inr ⟨req, ⟨value, hparse, hop, hreq⟩, guards_handleRaftJoin hreq client⟩
  left
  split
  · exact guards_of_quiet (asks_handleSeedDelivery ctx value)
  split
  · exact guards_of_quiet (asks_handleSeedDrop ctx value)
  split
  · exact guards_of_quiet (asks_legacyOnly ctx hraft _ _ _)
  split
  · exact guards_of_quiet (asks_legacyOnly ctx hraft _ _ _)
  split
  · exact guards_of_quiet (asks_legacyOnly ctx hraft _ _ _)
  exact guards_handleAdminV2 hparse forwarder

/-- In Raft mode no payload changes the legacy store, and whatever changes the policy or the
membership was allowed before: by the signature of a root administrator, or for the node of a
join request by its token. -/
theorem raft_requests_authorized (ctx : ServiceContext) (hraft : ctx.raftRequired = true)
    (env : Oracle ServiceCall ServiceAnswer) (client forwarder : Bool) (payload : Bytes)
    (events : List ServiceEvent)
    (hevents : events = (play env [] (handleServiceRequest ctx client forwarder payload).run).1) :
    (∀ e ∈ events, e.question.changesStore = false) ∧
      ((∀ pre e post, events = pre ++ e :: post → e.question.privileged = true →
          RootVerified ctx payload pre) ∨
        ∃ req, JoinPayload ctx payload req ∧
          ∀ pre e post, events = pre ++ e :: post → e.question.privileged = true →
            JoinVerified ctx pre req ∧ OwnChange req e.question) := by
  obtain ⟨events', heq, hyields, -⟩ :=
    play_yields env [] (handleServiceRequest ctx client forwarder payload).run
  obtain rfl : events = events' := hevents.trans heq
  refine ⟨(keeps_handleServiceRequest ctx hraft client forwarder payload).question hyields, ?_⟩
  refine (guards_handleServiceRequest hraft client forwarder payload).imp ?_ ?_
  · intro hguards pre e post hsplit
    exact hguards.question (hsplit ▸ hyields)
  · rintro ⟨req, hjoin, hguards⟩
    exact ⟨req, hjoin, fun pre e post hsplit => hguards.question (hsplit ▸ hyields)⟩

/-- Root adds members to a service on a leader, which proposes that. -/
theorem root_write_authorized :
    let ctx := sampleService { AdminRequestV2.default with op := "add_members", service := "svc" }
      (sampleJoin (sampleToken "auth"))
    let events := (play idleService [] (handleServiceRequest ctx false false []).run).1
    events.any (fun e => e.question.privileged) = true ∧
      (∀ e ∈ events, e.question.changesStore = false) ∧
      ((∀ pre e post, events = pre ++ e :: post → e.question.privileged = true →
          RootVerified ctx [] pre) ∨
        ∃ req, JoinPayload ctx [] req ∧
          ∀ pre e post, events = pre ++ e :: post → e.question.privileged = true →
            JoinVerified ctx pre req ∧ OwnChange req e.question) := by
  intro ctx events
  refine ⟨?_, raft_requests_authorized ctx rfl idleService false false [] events rfl⟩
  set req : AdminRequestV2 := { AdminRequestV2.default with op := "add_members", service := "svc" }
  have hleader : ReadyLeader idleService := ⟨fun _ => rfl, fun _ => rfl⟩
  obtain ⟨verified, hroot, hverify⟩ :=
    play_verifyAdmin_signedByRoot req (sampleJoin (sampleToken "auth")) []
  obtain ⟨leader, hreaches⟩ : ∃ leader,
      Reaches idleService [] (handleServiceRequest ctx false false []).run
        (handlerOf ctx (signedByRoot req) verified none leader).run := by
    rw [handleServiceRequest_admin rfl rfl rfl (by decide)]
    exact direct_reaches hleader rfl rfl (by decide) hverify hroot rfl
  -- the handler starts with the proposal
  have hproposes : Reaches idleService [] (handleServiceRequest ctx false false []).run
      (.ask (.node (.propose (.admin "r" "root" verified.requestHash 0 (.addMembers "svc" []))))
        _) := hreaches
  obtain ⟨answer, hmem⟩ := hproposes.question_mem
  exact List.any_eq_true.mpr ⟨_, hmem, rfl⟩

end NexusAuth.Service
