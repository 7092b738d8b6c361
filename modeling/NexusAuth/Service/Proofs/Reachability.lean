import NexusAuth.Service.Proofs.Questions

/-!
# Which writes of root reach their handler

`execute_root_write` has handlers for eleven operations.  A request of root comes to it
through `classify_admin_op`, on both ways to the leader, and the five operations about
members are not classified as writes: they never get to their handlers.
-/

namespace NexusAuth.Service

open NexusAuth.Lib.Interaction NexusAuth.Lib.Results NexusAuth.Raft

/-! ## Operations -/

def HasHandler (op : String) : Prop :=
  isMemberManagementOp op = true ∨ op = "publish_now" ∨
    ∃ req command, req.op = op ∧ policyCommandFor req = .ok command

theorem isMutatingOp_of_policyCommandFor {req : AdminRequestV2} {command : PolicyCommand}
    (h : policyCommandFor req = .ok command) : isMutatingOp req.op = true := by
  simp only [policyCommandFor, bind_eq_ok] at h
  obtain ⟨service, -, h⟩ := h
  split at h
  next hop => simp [hop, isMutatingOp]
  next hop => simp [hop, isMutatingOp]
  next hop => simp [hop, isMutatingOp]
  next hop => simp [hop, isMutatingOp]
  next hop => simp [hop, isMutatingOp]
  next => cases h

def handledOps : List String :=
  ["add_learner", "promote_voter", "demote_voter", "remove_member", "issue_join_token",
    "publish_now", "add_members", "remove_members", "set_members", "create_service",
    "delete_service"]

theorem HasHandler.mem {op : String} (h : HasHandler op) : op ∈ handledOps := by
  obtain h | rfl | ⟨req, command, rfl, h⟩ := h
  · simp only [isMemberManagementOp, Bool.or_eq_true, beq_iff_eq] at h
    obtain (((rfl | rfl) | rfl) | rfl) | rfl := h
    · decide
    · decide
    · decide
    · decide
    · decide
  · decide
  · have hop := isMutatingOp_of_policyCommandFor h
    simp only [isMutatingOp, Bool.or_eq_true, beq_iff_eq] at hop
    obtain (((hop | hop) | hop) | hop) | hop := hop
    all_goals
      rw [hop]
      decide

/-- Only the operations about members are not classified as writes. -/
theorem classifyAdminOp_handled {op : String} (h : op ∈ handledOps) :
    classifyAdminOp op = if isMemberManagementOp op then .unknown else .write := by
  revert op
  decide

/-- The operations that `handle_service_request` looks for before those of administrators. -/
def protocolOps : List String :=
  [raftRpcOp, raftJoinOp, seedDeliveryOp, seedDropOp, opJoinRequest, opReplicate, opSyncRequest]

theorem handled_not_protocol {op : String} (h : op ∈ handledOps) :
    op ∉ protocolOps ∧ op ≠ forwardedAdminOp := by
  revert op
  decide

/-! ## Ways to the leader -/

inductive Route
  | direct
  | forwarded (edgePeer : String)

def Route.edgePeer : Route → Option String
  | .direct => none
  | .forwarded peer => some peer

/-- What a ready leader has asked when it comes to `AdminVerifier::verify`. -/
def Route.asked : Route → List ServiceEvent
  | .direct => []
  | .forwarded _ => [⟨.node .adminRaft, true⟩, ⟨.node .isLeader, true⟩]

/-- The payload brings the request to the leader, itself or in an envelope. -/
inductive Sent (ctx : ServiceContext) (payload : Bytes) (req : AdminRequestV2) : Route → Prop
  | direct (value : Json) (hparse : ctx.wire.parse payload = .ok value)
      (hop : (value.get "op").bind Json.asStr = some req.op)
      (hreq : ctx.wire.adminRequest value = .ok req) : Sent ctx payload req .direct
  | forwarded (outer : Json) (envelope : ForwardedAdminEnvelope) (bytes : Bytes) (value : Json)
      (houter : ctx.wire.parse payload = .ok outer)
      (hop : (outer.get "op").bind Json.asStr = some forwardedAdminOp)
      (henvelope : ctx.wire.forwardedAdmin payload = .ok envelope)
      (hkind : envelope.op = forwardedAdminOp ∧ envelope.v = forwardedAdminVersion)
      (hbytes : ctx.crypto.unbase64 envelope.requestB64 = some bytes)
      (hparse : ctx.wire.parse bytes = .ok value)
      (hreq : ctx.wire.adminRequest value = .ok req) :
      Sent ctx payload req (.forwarded envelope.edgePeer)

def handlerOf (ctx : ServiceContext) (req : AdminRequestV2) (verified : VerifiedAdmin)
    (edgePeer leader : Option String) : HandlerM Bytes :=
  if isMemberManagementOp req.op then executeMemberWrite ctx req edgePeer verified
  else if req.op == "publish_now" then executePublishNow ctx req leader edgePeer
  else executePolicyWrite ctx req verified leader edgePeer

variable {ctx : ServiceContext} {payload : Bytes} {req : AdminRequestV2} {verified : VerifiedAdmin}
  {route : Route} {env : Oracle ServiceCall ServiceAnswer} {past : List ServiceEvent}
  {client forwarder : Bool}

theorem executeRootWrite_eq (edgePeer : Option String) :
    executeRootWrite ctx req verified edgePeer =
      consult .leaderPeer >>= handlerOf ctx req verified edgePeer := rfl

theorem handleServiceRequest_admin (hraft : ctx.raftRequired = true) {value : Json} {op : String}
    (hparse : ctx.wire.parse payload = .ok value) (hop : (value.get "op").bind Json.asStr = some op)
    (hprotocol : op ∉ protocolOps) :
    handleServiceRequest ctx client forwarder payload =
      handleAdminV2 ctx payload value forwarder := by
  simp only [protocolOps, List.mem_cons, List.not_mem_nil, or_false, not_or] at hprotocol
  obtain ⟨h₁, h₂, h₃, h₄, h₅, h₆, h₇⟩ := hprotocol
  simp only [handleServiceRequest, parsed, hparse, Except.mapError, fallible_ok_bind, hop, okOr,
    beq_iff_eq, h₁, h₂, h₃, h₄, h₅, h₆, h₇, if_false, hraft, if_true]

theorem play_verified (hverify : (play env past (ctx.verifyAdmin req)).2 = .ok verified) :
    play env past (consultOr adminV2Error (ctx.verifyAdmin req)).run =
      ((play env past (ctx.verifyAdmin req)).1, .ok verified) := by
  rw [play_attempt, hverify]
  rfl

/-! ## Writes reach their handlers -/

structure ReadyLeader (env : Oracle ServiceCall ServiceAnswer) : Prop where
  ready : ∀ past, env past (.node .adminRaft) = true
  leads : ∀ past, env past (.node .isLeader) = true

section Ready

variable (hleader : ReadyLeader env)

theorem reaches_handlerOf (edgePeer : Option String) :
    ∃ leader, Reaches env past (executeRootWrite ctx req verified edgePeer).run
      (handlerOf ctx req verified edgePeer leader).run := by
  rw [executeRootWrite_eq]
  exact ⟨env past .leaderPeer, .query_bind (.here _ _)⟩

include hleader

theorem play_adminRaft :
    play env past adminRaft.run = (past ++ [⟨.node .adminRaft, true⟩], .ok ()) := by
  change ((past ++ [⟨.node .adminRaft, env past (.node .adminRaft)⟩],
    ensure _ (env past (.node .adminRaft))) : _ × Except SidecarError Unit) = _
  rw [hleader.ready past]
  rfl

theorem reaches_isLeader {f : Bool → HandlerM Bytes} {p' : ServiceM (Except SidecarError Bytes)}
    (h : Reaches env (past ++ [⟨.node .isLeader, true⟩]) (f true).run p') :
    Reaches env past (consult (.node .isLeader) >>= f).run p' := by
  apply Reaches.query_bind
  rw [hleader.leads past]
  exact h

theorem reaches_handleVerified (hroot : verified.role = .root)
    (hwrite : classifyAdminOp req.op = .write) :
    ∃ leader, Reaches env past (handleVerified ctx payload forwarder req verified).run
      (handlerOf ctx req verified none leader).run := by
  obtain ⟨leader, h⟩ := reaches_handlerOf none
  refine ⟨leader, ?_⟩
  simp only [handleVerified, hwrite, hroot, if_true]
  exact .bindExcept (play_adminRaft hleader) (reaches_isLeader hleader h)

theorem direct_reaches {value : Json} (hreq : ctx.wire.adminRequest value = .ok req)
    (hop : (value.get "op").bind Json.asStr = some req.op) (hforwarded : req.op ≠ forwardedAdminOp)
    (hverify : (play env [] (ctx.verifyAdmin req)).2 = .ok verified) (hroot : verified.role = .root)
    (hwrite : classifyAdminOp req.op = .write) :
    ∃ leader, Reaches env [] (handleAdminV2 ctx payload value forwarder).run
      (handlerOf ctx req verified none leader).run := by
  obtain ⟨leader, h⟩ := reaches_handleVerified hleader hroot hwrite
  refine ⟨leader, ?_⟩
  simp only [handleAdminV2, hop, Option.getD_some, beq_iff_eq, hforwarded, if_false, parsed, hreq,
    Except.mapError, fallible_ok_bind]
  refine .bindExcept play_lift ?_
  rw [hverify]
  exact h

theorem forwarded_reaches {envelope : ForwardedAdminEnvelope} {bytes : Bytes} {value : Json}
    (henvelope : ctx.wire.forwardedAdmin payload = .ok envelope)
    (hkind : envelope.op = forwardedAdminOp ∧ envelope.v = forwardedAdminVersion)
    (hbytes : ctx.crypto.unbase64 envelope.requestB64 = some bytes)
    (hparse : ctx.wire.parse bytes = .ok value) (hreq : ctx.wire.adminRequest value = .ok req)
    (hverify : (play env (Route.forwarded envelope.edgePeer).asked (ctx.verifyAdmin req)).2 =
      .ok verified)
    (hroot : verified.role = .root) (hwrite : classifyAdminOp req.op = .write) :
    ∃ leader, Reaches env [] (handleForwardedAdmin ctx payload).run
      (handlerOf ctx req verified (some envelope.edgePeer) leader).run := by
  obtain ⟨leader, h⟩ := reaches_handlerOf (some envelope.edgePeer)
  refine ⟨leader, ?_⟩
  simp only [handleForwardedAdmin, parsed, henvelope, Except.mapError, fallible_ok_bind, hkind,
    and_self, decide_true, ensure, if_true, hbytes, okOr, hparse, hreq]
  refine .bindExcept (play_adminRaft hleader) (reaches_isLeader hleader ?_)
  rw [if_pos rfl, fallible_ok_bind]
  refine .bindExcept (play_verified hverify) ?_
  simp only [hroot, hwrite, decide_true, if_true, fallible_ok_bind]
  exact h

end Ready

/-! ## Operations about members are refused -/

/-- A request that is not classified as a write asks for the runtime of the cluster on no way. -/
theorem refused_asks (client forwarder : Bool) (hop : req.op ∈ handledOps)
    (hmember : isMemberManagementOp req.op = true)
    (hraft : ctx.raftRequired = true) (hsent : Sent ctx payload req route) :
    Asks (fun q => q ≠ .runtime) (handleServiceRequest ctx client forwarder payload).run := by
  have hclass : classifyAdminOp req.op = .unknown := by
    rw [classifyAdminOp_handled hop, if_pos hmember]
  have hverify : Asks (fun q => q ≠ .runtime) (ctx.verifyAdmin req) := by
    refine asks_request_bind.mpr ⟨by simp, fun now => ?_⟩
    split
    · trivial
    · refine asks_request_bind.mpr ⟨by simp, fun fresh => ?_⟩
      cases fresh with
      | error e => trivial
      | ok u => trivial
  have haudit (entry : AdminAudit) (e : SidecarError) : Asks (fun q => q ≠ .runtime)
      (auditAdmin .warning entry >>= fun _ => fallible (.error e) : HandlerM Bytes).run :=
    ⟨by simp, fun _ => trivial⟩
  cases hsent with
  | direct value hparse hvalue hreq =>
      rw [handleServiceRequest_admin hraft hparse hvalue (handled_not_protocol hop).1]
      simp only [handleAdminV2, hvalue, Option.getD_some, beq_iff_eq, (handled_not_protocol hop).2,
        if_false, parsed, hreq, Except.mapError, fallible_ok_bind]
      refine hverify.lift.bindExcept fun result => ?_
      cases result with
      | error e => exact haudit _ _
      | ok verified =>
          simp only [handleVerified, hclass]
          exact haudit _ _
  | forwarded outer envelope bytes value houter hvalue henvelope hkind hbytes hparse hreq =>
      rw [handleServiceRequest_admin hraft houter hvalue (by decide)]
      simp only [handleAdminV2, hvalue, Option.getD_some, beq_self_eq_true, if_true,
        handleForwardedAdmin, parsed, henvelope, Except.mapError, fallible_ok_bind, hkind, and_self,
        decide_true, ensure, hbytes, okOr, hparse, hreq]
      refine Asks.bindExcept (p := adminRaft) ⟨by simp, fun _ => trivial⟩ fun _ => ?_
      refine asks_query_bind.mpr ⟨by simp, fun leads => asks_fallible_bind.mpr fun _ _ => ?_⟩
      refine hverify.attempt.bindExcept fun verified => asks_fallible_bind.mpr fun _ _ => ?_
      refine asks_fallible_bind.mpr fun _ hwrite => ?_
      simp [hclass] at hwrite

def Route.refusal (op : String) : Route → SidecarError
  | .direct => .new "unknown_op" ("未知指令: " ++ op)
  | .forwarded _ => badRequest "forwarded_admin 只接受写操作"

theorem play_member_op_refused (client forwarder : Bool) (hop : req.op ∈ handledOps)
    (hmember : isMemberManagementOp req.op = true) (hraft : ctx.raftRequired = true)
    (hleader : ReadyLeader env) (hsent : Sent ctx payload req route)
    (hverify : (play env route.asked (ctx.verifyAdmin req)).2 = .ok verified)
    (hroot : verified.role = .root) :
    (play env [] (handleServiceRequest ctx client forwarder payload).run).2 =
      .error (route.refusal req.op) := by
  have hclass : classifyAdminOp req.op = .unknown := by
    rw [classifyAdminOp_handled hop, if_pos hmember]
  cases hsent with
  | direct value hparse hvalue hreq =>
      rw [handleServiceRequest_admin hraft hparse hvalue (handled_not_protocol hop).1]
      simp only [handleAdminV2, hvalue, Option.getD_some, beq_iff_eq, (handled_not_protocol hop).2,
        if_false, parsed, hreq, Except.mapError, fallible_ok_bind]
      rw [play_bindExcept_of_ok play_lift]
      change (play env [] (ctx.verifyAdmin req)).2 = .ok verified at hverify
      rw [hverify]
      simp only [handleVerified, hclass]
      rfl
  | forwarded outer envelope bytes value houter hvalue henvelope hkind hbytes hparse hreq =>
      rw [handleServiceRequest_admin hraft houter hvalue (by decide)]
      simp only [handleAdminV2, hvalue, Option.getD_some, beq_self_eq_true, if_true,
        handleForwardedAdmin, parsed, henvelope, Except.mapError, fallible_ok_bind, hkind, and_self,
        decide_true, ensure, hbytes, okOr, hparse, hreq]
      rw [play_bindExcept_of_ok (play_adminRaft hleader), play_query_bind,
        hleader.leads, if_pos rfl,
        fallible_ok_bind]
      change (play env (Route.forwarded envelope.edgePeer).asked
        (consultOr adminV2Error (ctx.verifyAdmin req) >>= _).run).2 = _
      rw [play_bindExcept_of_ok (play_verified hverify)]
      simp only [hroot, hclass, decide_true, if_true, fallible_ok_bind]
      rfl

theorem not_asks_memberHandler (hmember : isMemberManagementOp req.op = true)
    (edgePeer leader : Option String) :
    ¬ Asks (fun q => q ≠ .runtime) (handlerOf ctx req verified edgePeer leader).run := by
  simp only [handlerOf, hmember, if_true]
  exact fun h => h.1 rfl

/-- A request of root for which `execute_root_write` has a handler, sent to a ready leader on either
way, reaches that handler exactly if it is not about members. -/
theorem root_write_reaches_handler_iff (ctx : ServiceContext) (hraft : ctx.raftRequired = true)
    (env : Oracle ServiceCall ServiceAnswer) (hleader : ReadyLeader env) (client forwarder : Bool)
    (payload : Bytes) (req : AdminRequestV2) (route : Route) (hsent : Sent ctx payload req route)
    (verified : VerifiedAdmin)
    (hverify : (play env route.asked (ctx.verifyAdmin req)).2 = .ok verified)
    (hroot : verified.role = .root) (hhandler : HasHandler req.op) :
    (∃ leader, Reaches env [] (handleServiceRequest ctx client forwarder payload).run
        (handlerOf ctx req verified route.edgePeer leader).run) ↔
      isMemberManagementOp req.op = false := by
  have hop := hhandler.mem
  constructor
  · rintro ⟨leader, hreaches⟩
    by_contra hmember
    rw [Bool.not_eq_false] at hmember
    have hasks := refused_asks client forwarder hop hmember hraft hsent
    exact not_asks_memberHandler hmember _ _ (hasks.reaches hreaches)
  · intro hmember
    have hwrite : classifyAdminOp req.op = .write := by
      rw [classifyAdminOp_handled hop, hmember]
      rfl
    cases hsent with
    | direct value hparse hvalue hreq =>
        rw [handleServiceRequest_admin hraft hparse hvalue (handled_not_protocol hop).1]
        exact direct_reaches hleader hreq hvalue (handled_not_protocol hop).2 hverify hroot hwrite
    | forwarded outer envelope bytes value houter hvalue henvelope hkind hbytes hparse hreq =>
        rw [handleServiceRequest_admin hraft houter hvalue (by decide)]
        simp only [handleAdminV2, hvalue, Option.getD_some, beq_self_eq_true, if_true]
        exact forwarded_reaches hleader henvelope hkind hbytes hparse hreq hverify hroot hwrite

theorem authenticate_signedByRoot (req : AdminRequestV2) :
    ∃ bytes, sampleAdminKeys.authenticate sampleCrypto (signedByRoot req) 0 =
      .ok (.root, bytes) := by
  simp only [AdminVerifier.authenticate, bind_eq_ok, okOr_eq_ok, ensure_eq_ok, pure_eq_ok,
    exists_const]
  have hkey : sampleAdminKeys.keys[(signedByRoot req).kid]? = some (rootKey, .root) :=
    Std.ExtTreeMap.getElem?_insert_self
  refine ⟨_, rfl, ?_, ?_, ?_, ?_, ?_, (rootKey, .root), hkey, _, rfl, _,
    sampleUntext_sampleText _, beq_self_eq_true _, ?_, rfl⟩
  · change (!trimIsEmpty "root") = true
    decide +kernel
  · change (!trimIsEmpty "r") = true
    decide +kernel
  · change decide (("r" : String).utf8ByteSize ≤ adminMaxRequestIdLen) = true
    decide +kernel
  · change (!("n" : String).isEmpty) = true
    decide +kernel
  · change decide (("n" : String).utf8ByteSize ≤ adminMaxNonceLen) = true
    decide +kernel
  · change decide (Lib.Words.absDiff 0 0 ≤ adminMaxTsSkewSecs) = true
    decide

theorem play_verifyAdmin_signedByRoot (req : AdminRequestV2) (join : RaftJoinRequest)
    (past : List ServiceEvent) :
    ∃ verified : VerifiedAdmin, verified.role = .root ∧
      (play idleService past ((sampleService req join).verifyAdmin (signedByRoot req))).2 =
        .ok verified := by
  obtain ⟨bytes, hbytes⟩ := authenticate_signedByRoot req
  obtain ⟨hash, hhash⟩ : ∃ hash, (signedByRoot req).requestHash sampleCrypto = .ok hash := ⟨_, rfl⟩
  refine ⟨⟨"root", .root, hash, bytes⟩, rfl, ?_⟩
  have hchecks : (sampleService req join).adminKeys.authenticate (sampleService req join).crypto
      (signedByRoot req) (play idleService past (pose (.node .now))).2 =
      .ok (.root, bytes) := hbytes
  rw [ServiceContext.verifyAdmin, play_bind, hchecks]
  exact congrArg (Except.map fun hash => (⟨"root", .root, hash, bytes⟩ : VerifiedAdmin)) hhash

/-- Root adds members to a service, through another sidecar. -/
theorem forwarded_add_members_reaches_handler :
    let req := { AdminRequestV2.default with op := "add_members", service := "svc" }
    let ctx := sampleService req (sampleJoin (sampleToken "auth"))
    ∃ verified, verified.role = .root ∧
      ∃ leader, Reaches idleService [] (handleServiceRequest ctx false false [0]).run
        (handlerOf ctx (signedByRoot req) verified (some "edge") leader).run := by
  intro req ctx
  have hsent : Sent ctx [0] (signedByRoot req) (.forwarded "edge") :=
    .forwarded _ ⟨forwardedAdminOp, forwardedAdminVersion, "", "edge", ""⟩ [] _ rfl rfl rfl
      ⟨rfl, rfl⟩ rfl rfl rfl
  have hleader : ReadyLeader idleService := ⟨fun _ => rfl, fun _ => rfl⟩
  have hhandler : HasHandler (signedByRoot req).op := .inr (.inr ⟨req, _, rfl, rfl⟩)
  obtain ⟨verified, hroot, hverify⟩ :=
    play_verifyAdmin_signedByRoot req (sampleJoin (sampleToken "auth"))
      (Route.forwarded "edge").asked
  exact ⟨verified, hroot, (root_write_reaches_handler_iff ctx rfl idleService hleader false false
    [0] _ _ hsent verified hverify hroot hhandler).mpr rfl⟩

/-- A leader refuses the promotion of a voter, which it has a handler for and which root has
signed: as an unknown operation when it comes directly and as a bad request when it was
forwarded. -/
theorem promotion_refused :
    let req := { AdminRequestV2.default with op := "promote_voter" }
    let ctx := sampleService req (sampleJoin (sampleToken "auth"))
    isMemberManagementOp req.op = true ∧
      (play idleService [] (ctx.verifyAdmin (signedByRoot req))).2.map VerifiedAdmin.role =
        .ok .root ∧
      (play idleService [] (handleServiceRequest ctx false false []).run).2 =
        .error (.new "unknown_op" "未知指令: promote_voter") ∧
      (play idleService [] (handleServiceRequest ctx false false [0]).run).2 =
        .error (.new "bad_request" "forwarded_admin 只接受写操作") := by
  intro req ctx
  have hleader : ReadyLeader idleService := ⟨fun _ => rfl, fun _ => rfl⟩
  have hop : (signedByRoot req).op ∈ handledOps := by
    change "promote_voter" ∈ handledOps
    decide
  have hdirect : Sent ctx [] (signedByRoot req) .direct := .direct _ rfl rfl rfl
  have hforwarded : Sent ctx [0] (signedByRoot req) (.forwarded "edge") :=
    .forwarded _ ⟨forwardedAdminOp, forwardedAdminVersion, "", "edge", ""⟩ [] _ rfl rfl rfl
      ⟨rfl, rfl⟩ rfl rfl rfl
  have hverify := play_verifyAdmin_signedByRoot req (sampleJoin (sampleToken "auth"))
  obtain ⟨verified, hroot, hverified⟩ := hverify Route.direct.asked
  obtain ⟨verified', hroot', hverified'⟩ := hverify (Route.forwarded "edge").asked
  refine ⟨rfl, map_eq_ok.mpr ⟨verified, hverified, hroot⟩, ?_, ?_⟩
  · exact play_member_op_refused false false hop rfl rfl hleader hdirect hverified hroot
  · exact play_member_op_refused false false hop rfl rfl hleader hforwarded hverified' hroot'

end NexusAuth.Service
