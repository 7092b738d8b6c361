import NexusAuth.Raft.Proofs.Joins
import NexusAuth.Service.Dispatch

/-!
# Joining through an edge and at the leader

A join request is verified by the node it reaches, for tokens whose audience is `auth` or
that node.  A node that does not lead writes its own peer id into the unsigned `edge_peer`
and passes the request on; the leader verifies it twice, first for tokens addressed to
itself and then also for those addressed to the edge.  The first of these checks makes
`edge_peer` meaningless, and it refuses what an edge has accepted for its own address.
-/

namespace NexusAuth.Service

open NexusAuth.Lib.Interaction NexusAuth.Lib.Results NexusAuth.Raft

variable {ctx : ServiceContext} {env : Oracle ServiceCall ServiceAnswer}
  {past past' : List ServiceEvent} {req : RaftJoinRequest} {client : Bool} {value : Json}

/-! ## The parts of the handler -/

theorem handleRaftJoin_of_request (hreq : ctx.wire.raftJoin value = .ok req) :
    handleRaftJoin ctx client value = (do
      raftRuntime
      fallible (ensure (.new "join_not_allowed" "allow_join = false，拒绝入网") ctx.allowJoin)
      verifyJoin ctx req [ctx.peerId]
      if ← consult (.node .isLeader) then
        handleLeaderJoin ctx req
      else
        forwardJoin ctx client req) := by
  simp only [handleRaftJoin, parsed, hreq]
  rfl

theorem play_raftRuntime_of_ready (hready : env past .runtime = true) :
    play env past raftRuntime.run = (past ++ [⟨.runtime, true⟩], .ok ()) := by
  rw [raftRuntime, play_query_bind, hready]
  rfl

theorem play_verifyJoin {audiences : List String} :
    play env past (verifyJoin ctx req audiences).run =
      (past ++ [⟨.node .now, env past (.node .now)⟩],
        (req.verify ctx.crypto ctx.adminKeys ctx.clusterId ctx.network (env past (.node .now))
          audiences).mapError fun e => .new e.code e.text) := rfl

theorem play_verifyJoin_of_ok {audiences : List String} {now : Nat}
    (hnow : env past (.node .now) = now)
    (h : req.verify ctx.crypto ctx.adminKeys ctx.clusterId ctx.network now audiences = .ok ()) :
    play env past (verifyJoin ctx req audiences).run = (past ++ [⟨.node .now, now⟩], .ok ()) := by
  rw [play_verifyJoin, hnow, h]
  rfl

theorem verify_of_play {audiences : List String} {u : Unit}
    (h : play env past (verifyJoin ctx req audiences).run = (past', .ok u)) :
    req.verify ctx.crypto ctx.adminKeys ctx.clusterId ctx.network
      (env past (.node .now)) audiences =
      .ok () := by
  rw [play_verifyJoin] at h
  exact mapError_eq_ok.mp (congrArg Prod.snd h)

theorem audience_of_verify {now : Nat} {peer : String}
    (h : req.verify ctx.crypto ctx.adminKeys ctx.clusterId ctx.network now [peer] = .ok ()) :
    audienceAllowed req.token [peer] = true :=
  (RaftJoinRequest.sound_of_verify h).token.audience

/-! ## Two requests that differ in `edge_peer` -/

/-- An event without the edge that the audit log names. -/
def withoutEdge : ServiceEvent → ServiceEvent
  | ⟨.audit level entry, u⟩ => ⟨.audit level { entry with edgePeer := none }, u⟩
  | e => e

/-- The same questions with the same answers, the audit log apart, and the same result. -/
structure SameDecision (out out' : List ServiceEvent × Except SidecarError Bytes) : Prop where
  events : out.1.map withoutEdge = out'.1.map withoutEdge
  result : out.2 = out'.2

theorem SameDecision.refl (out : List ServiceEvent × Except SidecarError Bytes) :
    SameDecision out out := ⟨rfl, rfl⟩

/-- Once the leader's own address is accepted, the second verification is the same for
every `edge_peer`. -/
theorem verifyJoin_congr {edge : String} {audiences audiences' : List String}
    (h : audienceAllowed req.token [ctx.peerId] = true) :
    verifyJoin ctx req ([ctx.peerId] ++ audiences) =
      verifyJoin ctx { req with edgePeer := edge } ([ctx.peerId] ++ audiences') := by
  have hverify : ∀ now,
      req.verify ctx.crypto ctx.adminKeys ctx.clusterId ctx.network now
          ([ctx.peerId] ++ audiences) =
        req.verify ctx.crypto ctx.adminKeys ctx.clusterId ctx.network now
          ([ctx.peerId] ++ audiences') := by
    intro now
    apply RaftJoinRequest.verify_congr
    rw [audienceAllowed_append h, audienceAllowed_append h]
  unfold verifyJoin
  simp only [hverify]
  rfl

theorem sameDecision_auditMember {admin : AdminRequestV2} {op target result : String}
    {policyEpoch : Nat} {edge edge' : Option String} {next : HandlerM Bytes}
    {encoded : Except SidecarError Bytes} (hnext : next = fallible encoded) :
    SameDecision
      (play env past (auditMember admin op target result policyEpoch edge >>= fun _ => next).run)
      (play env past (auditMember admin op target result policyEpoch edge' >>= fun _ =>
        next).run) := by
  subst hnext
  refine ⟨?_, rfl⟩
  change (past ++ [_] ++ [_] ++ [_]).map withoutEdge = (past ++ [_] ++ [_] ++ [_]).map withoutEdge
  simp only [List.map_append, List.map_cons, withoutEdge]

theorem sameDecision_handleLeaderJoin (edge : String)
    (h : audienceAllowed req.token [ctx.peerId] = true) :
    SameDecision (play env past (handleLeaderJoin ctx req).run)
      (play env past (handleLeaderJoin ctx { req with edgePeer := edge }).run) := by
  unfold handleLeaderJoin
  rw [verifyJoin_congr h]
  -- every step up to the audit entry is the same program
  iterate 13 refine relates_bindExcept .refl fun past a _ => ?_
  exact sameDecision_auditMember rfl

theorem sameDecision_handleRaftJoin {value' : Json} {edge : String}
    (hreq : ctx.wire.raftJoin value = .ok req)
    (hreq' : ctx.wire.raftJoin value' = .ok { req with edgePeer := edge }) :
    SameDecision (play env past (handleRaftJoin ctx client value).run)
      (play env past (handleRaftJoin ctx client value').run) := by
  rw [handleRaftJoin_of_request hreq, handleRaftJoin_of_request hreq']
  refine relates_bindExcept .refl fun past _ _ => ?_
  refine relates_bindExcept .refl fun past _ _ => ?_
  refine relates_bindExcept .refl fun past' _ hplay => ?_
  have haudience := audience_of_verify (verify_of_play hplay)
  refine relates_bindExcept .refl fun past leads _ => ?_
  cases leads with
  | true =>
      rw [if_pos rfl, if_pos rfl]
      exact sameDecision_handleLeaderJoin edge haudience
  | false =>
      -- the edge overwrites what the request says about it
      rw [if_neg Bool.false_ne_true, if_neg Bool.false_ne_true]
      exact .refl _

def Admission : ServiceCall → Prop
  | .node (.propose _) | .addLearnerNode _ _ => True
  | _ => False

/-- Nothing is proposed and no learner is added for a token of another audience. -/
theorem asks_handleRaftJoin_of_audience (hreq : ctx.wire.raftJoin value = .ok req)
    (h : audienceAllowed req.token [ctx.peerId] ≠ true) :
    Asks (fun q => ¬Admission q) (handleRaftJoin ctx client value).run := by
  rw [handleRaftJoin_of_request hreq]
  refine Asks.bindExcept ⟨id, fun _ => trivial⟩ fun _ => ?_
  refine Asks.bindExcept trivial fun _ => ?_
  rw [verifyJoin, bind_assoc, asks_query_bind]
  refine ⟨id, fun now => asks_fallible_bind.mpr fun u hverify => ?_⟩
  exact absurd (audience_of_verify (mapError_eq_ok.mp hverify)) h

/-- The decision about a join does not depend on `edge_peer`: on any node, in any state and
whatever else happens, two requests that differ only there lead to the same questions (the
same proposal, the same learner, the same forwarded request) and the same result; and a
token is admitted only if its audience is `auth` or this node. -/
theorem edge_peer_grants_nothing (ctx : ServiceContext) (env : Oracle ServiceCall ServiceAnswer)
    (client : Bool) {value value' : Json} {req : RaftJoinRequest} {edge : String}
    (hreq : ctx.wire.raftJoin value = .ok req)
    (hreq' : ctx.wire.raftJoin value' = .ok { req with edgePeer := edge }) :
    SameDecision (play env [] (handleRaftJoin ctx client value).run)
        (play env [] (handleRaftJoin ctx client value').run) ∧
      ((∃ e ∈ (play env [] (handleRaftJoin ctx client value).run).1, Admission e.question) →
        req.token.audience = "auth" ∨ req.token.audience = ctx.peerId) := by
  refine ⟨sameDecision_handleRaftJoin hreq hreq', fun ⟨e, he, hadmission⟩ => ?_⟩
  have haudience : audienceAllowed req.token [ctx.peerId] = true := by
    by_contra hother
    obtain ⟨events, hevents, hyields, -⟩ :=
      play_yields env [] (handleRaftJoin ctx client value).run
    rw [hevents, List.nil_append] at he
    exact (asks_handleRaftJoin_of_audience hreq hother).question hyields e he hadmission
  exact (audienceAllowed_singleton.mp haudience).imp_right fun h => h.2.symm

/-- A leader that reads the sample join from `null` and, from any other value, the same
request with an `edge_peer` of the sender's choice. -/
def spoofedService : ServiceContext :=
  let join := sampleJoin (sampleToken "edge")
  { sampleService AdminRequestV2.default join with
    wire := { sampleWire AdminRequestV2.default join with
      raftJoin := fun
        | .null => .ok join
        | _ => .ok { join with edgePeer := "edge" } } }

/-- Naming the token's audience as the edge does not help. -/
theorem edge_peer_grants_nothing_spoofed :
    (play idleService [] (handleRaftJoin spoofedService true .null).run).2 =
        (play idleService [] (handleRaftJoin spoofedService true (.bool true)).run).2 ∧
      ∀ e ∈ (play idleService [] (handleRaftJoin spoofedService true (.bool true)).run).1,
        ¬Admission e.question := by
  have hspoofed : spoofedService.wire.raftJoin (.bool true) =
      .ok { sampleJoin (sampleToken "edge") with edgePeer := "edge" } := rfl
  have hhonest : spoofedService.wire.raftJoin .null =
      .ok { sampleJoin (sampleToken "edge") with edgePeer := "" } := rfl
  obtain ⟨hsame, haudience⟩ :=
    edge_peer_grants_nothing spoofedService idleService true hspoofed hhonest
  refine ⟨hsame.result.symm, fun e he hadmission => ?_⟩
  have hother : ¬("edge" = "auth" ∨ "edge" = Authority.peerA) := by decide
  exact hother (haudience ⟨e, he, hadmission⟩)

/-! ## From the edge to the leader -/

theorem verified_of_forwarded {peer : String} {payload : Bytes}
    {answer : Except SidecarError Bytes} {now : Nat} (hreq : ctx.wire.raftJoin value = .ok req)
    (hnow : ∀ past, env past (.node .now) = now)
    (hfollows : ∀ past, env past (.node .isLeader) = false)
    (hmem : ⟨.serviceRequestTo peer payload, answer⟩ ∈
      (play env [] (handleRaftJoin ctx client value).run).1) :
    req.verify ctx.crypto ctx.adminKeys ctx.clusterId ctx.network now [ctx.peerId] = .ok () ∧
      ctx.wire.encodeRaftJoin { req with edgePeer := ctx.peerId } = .ok payload := by
  obtain ⟨events, hevents, hyields, hanswered⟩ :=
    play_yields env [] (handleRaftJoin ctx client value).run
  rw [hevents, List.nil_append] at hmem
  rw [handleRaftJoin_of_request hreq, raftRuntime, verifyJoin, bind_assoc] at hyields
  obtain ⟨ready, events, rfl, hready⟩ := yields_query_bind.mp hyields
  obtain ⟨_, -, rfl, -⟩ | ⟨_, -, hrun⟩ := yields_fallible_bind.mp hready
  · simp at hmem
  obtain ⟨_, -, rfl, -⟩ | ⟨_, -, hallowed⟩ := yields_fallible_bind.mp hrun
  · simp at hmem
  rw [bind_assoc] at hallowed
  obtain ⟨reading, events, rfl, hreading⟩ := yields_query_bind.mp hallowed
  obtain ⟨_, -, rfl, -⟩ | ⟨_, hverify, hverified⟩ := yields_fallible_bind.mp hreading
  · simp at hmem
  obtain ⟨leads, events, rfl, hleads⟩ := yields_query_bind.mp hverified
  obtain ⟨-, hclock, hrole, -⟩ := hanswered
  obtain rfl : reading = now := hclock.trans (hnow _)
  obtain rfl : leads = false := hrole.trans (hfollows _)
  rw [if_neg Bool.false_ne_true] at hleads
  obtain ⟨leader, events, rfl, hleader⟩ := yields_query_bind.mp hleads
  obtain ⟨_, -, rfl, -⟩ | ⟨leader, -, hknown⟩ := yields_fallible_bind.mp hleader
  · simp at hmem
  obtain ⟨_, -, rfl, -⟩ | ⟨_, -, hclient⟩ := yields_fallible_bind.mp hknown
  · simp at hmem
  obtain ⟨_, -, rfl, -⟩ | ⟨sent, hencode, hsent⟩ := yields_fallible_bind.mp hclient
  · simp at hmem
  obtain ⟨reply, events, rfl, rfl, -⟩ := hsent
  have hlast : (peer = leader ∧ payload = sent) ∧ answer = reply := by
    simpa using hmem
  obtain ⟨⟨rfl, rfl⟩, -⟩ := hlast
  exact ⟨mapError_eq_ok.mp hverify, mapError_eq_ok.mp hencode⟩

theorem play_handleRaftJoin_of_verified {now : Nat} (hreq : ctx.wire.raftJoin value = .ok req)
    (hallow : ctx.allowJoin = true) (hready : ∀ past, env past .runtime = true)
    (hnow : ∀ past, env past (.node .now) = now)
    (hleads : ∀ past, env past (.node .isLeader) = true)
    (hverify : req.verify ctx.crypto ctx.adminKeys ctx.clusterId ctx.network now
      [ctx.peerId] = .ok ())
    (hverify' : req.verify ctx.crypto ctx.adminKeys ctx.clusterId ctx.network now
      ([ctx.peerId] ++ if req.edgePeer.isEmpty then [] else [req.edgePeer]) = .ok ()) :
    ∃ view rest, (play env [] (handleRaftJoin ctx client value).run).1 =
      [⟨.runtime, true⟩, ⟨.node .now, now⟩, ⟨.node .isLeader, true⟩, ⟨.node .now, now⟩,
        ⟨.membershipView, view⟩] ++ rest := by
  have hpermitted : ensure (SidecarError.new "join_not_allowed" "allow_join = false，拒绝入网")
      ctx.allowJoin = .ok () := ensure_eq_ok.mpr hallow
  rw [handleRaftJoin_of_request hreq, play_bindExcept_of_ok (play_raftRuntime_of_ready (hready [])),
    hpermitted, fallible_ok_bind, play_bindExcept_of_ok (play_verifyJoin_of_ok (hnow _) hverify),
    play_query_bind, hleads, if_pos rfl, handleLeaderJoin,
    play_bindExcept_of_ok (play_verifyJoin_of_ok (hnow _) hverify'), play_query_bind]
  obtain ⟨rest, hrest, -⟩ := play_yields env _ _
  exact ⟨_, rest, hrest⟩

/-- A join that a follower has accepted and passed on is verified by the leader without
objection exactly if the token's audience is `auth` or the leader: both of its verifications
succeed, and it goes on to the membership and the recorded tokens. -/
theorem forwarded_join_passes_leader (E L : ServiceContext) (now : Nat)
    (hcrypto : E.crypto = L.crypto) (hkeys : E.adminKeys = L.adminKeys)
    (hcluster : E.clusterId = L.clusterId) (hnetwork : E.network = L.network)
    (hallow : L.allowJoin = true) {envE envL : Oracle ServiceCall ServiceAnswer}
    (hfollows : ∀ past, envE past (.node .isLeader) = false)
    (hnowE : ∀ past, envE past (.node .now) = now)
    (hready : ∀ past, envL past .runtime = true)
    (hleads : ∀ past, envL past (.node .isLeader) = true)
    (hnowL : ∀ past, envL past (.node .now) = now)
    {client client' : Bool} {value value' : Json} {req : RaftJoinRequest} {peer : String}
    {payload : Bytes} {answer : Except SidecarError Bytes}
    (hreq : E.wire.raftJoin value = .ok req)
    (hforward : ⟨.serviceRequestTo peer payload, answer⟩ ∈
      (play envE [] (handleRaftJoin E client value).run).1)
    (hdecode : E.wire.encodeRaftJoin { req with edgePeer := E.peerId } = .ok payload →
      L.wire.raftJoin value' = .ok { req with edgePeer := E.peerId }) :
    let forwarded := { req with edgePeer := E.peerId }
    (forwarded.verify L.crypto L.adminKeys L.clusterId L.network now [L.peerId] = .ok () ∧
      forwarded.verify L.crypto L.adminKeys L.clusterId L.network now [L.peerId, E.peerId] =
        .ok () ∧
      ∃ view rest, (play envL [] (handleRaftJoin L client' value').run).1 =
        [⟨.runtime, true⟩, ⟨.node .now, now⟩, ⟨.node .isLeader, true⟩, ⟨.node .now, now⟩,
          ⟨.membershipView, view⟩] ++ rest) ↔
      req.token.audience = "auth" ∨ req.token.audience = L.peerId := by
  intro forwarded
  obtain ⟨hverify, hencode⟩ := verified_of_forwarded hreq hnowE hfollows hforward
  rw [hcrypto, hkeys, hcluster, hnetwork] at hverify
  have hedge : audienceAllowed req.token [E.peerId] = true := audience_of_verify hverify
  constructor
  · rintro ⟨hfirst, -, -⟩
    exact (audienceAllowed_singleton.mp (audience_of_verify hfirst)).imp_right fun h => h.2.symm
  intro haudience
  have hleader : audienceAllowed req.token [L.peerId] = true := by
    rw [audienceAllowed_singleton] at hedge ⊢
    obtain hauth | hpeer := haudience
    · exact .inl hauth
    · -- an empty peer id is no audience, but the edge has accepted this one
      refine hedge.imp_right fun h => ⟨?_, hpeer.symm⟩
      rw [← hpeer, ← h.2]
      exact h.1
  have hfirst : forwarded.verify L.crypto L.adminKeys L.clusterId L.network now [L.peerId] =
      .ok () := by
    rw [← hverify]
    exact RaftJoinRequest.verify_congr (hleader.trans hedge.symm)
  have hsecond : ∀ more, forwarded.verify L.crypto L.adminKeys L.clusterId L.network now
      ([L.peerId] ++ more) = .ok () := by
    intro more
    rw [← hfirst]
    exact RaftJoinRequest.verify_congr ((audienceAllowed_append hleader more).trans hleader.symm)
  exact ⟨hfirst, hsecond [E.peerId], play_handleRaftJoin_of_verified (hdecode hencode)
    hallow hready hnowL hleads hfirst (hsecond _)⟩

def followerService : Oracle ServiceCall ServiceAnswer
  | _, .leaderPeer => some Authority.peerA
  | _, .node .isLeader => false
  | past, question => idleService past question

def joinService (peer : String) (join : RaftJoinRequest) : ServiceContext :=
  { sampleService AdminRequestV2.default join with peerId := peer }

def forwardedJoin (audience : String) : RaftJoinRequest :=
  { sampleJoin (sampleToken audience) with edgePeer := "edge" }

theorem verifySignature_rootKey (bytes : Bytes) :
    sampleAdminKeys.verifySignature sampleCrypto "root" bytes (sampleText (rootKey ++ bytes)) =
      .ok .root := by
  have hsig : sampleCrypto.unbase64Url (sampleText (rootKey ++ bytes)) = some (rootKey ++ bytes) :=
    sampleUntext_sampleText _
  have hverify : sampleCrypto.edVerify rootKey bytes (rootKey ++ bytes) = true := beq_self_eq_true _
  simp only [AdminVerifier.verifySignature, bind_eq_ok, okOr_eq_ok, ensure_eq_ok, pure_eq_ok]
  exact ⟨(rootKey, .root), rfl, _, hsig, (), hverify, rfl⟩

theorem verify_sampleToken {audience : String} {allowed : List String}
    (h : audienceAllowed (sampleToken audience) allowed = true) :
    verifyJoinToken sampleCrypto sampleAdminKeys (sampleToken audience) 0 "cluster" "net" allowed =
      .ok () := by
  simp only [verifyJoinToken, bind_eq_ok, mapError_eq_ok, ensure_eq_ok, decide_eq_true_eq,
    exists_const]
  have hjti : (sampleToken audience).jti = "t" := rfl
  have hexpiry : (sampleToken audience).expiresAt = 9 := rfl
  have huses : (sampleToken audience).maxUses = 1 := rfl
  rw [hjti, hexpiry, huses]
  exact ⟨rfl, by decide, rfl, rfl, by decide, by decide, h, _, rfl, .root,
    verifySignature_rootKey _, rfl⟩

theorem verify_sampleJoin {audience : String} {allowed : List String}
    (h : audienceAllowed (sampleToken audience) allowed = true) :
    (sampleJoin (sampleToken audience)).verify sampleCrypto sampleAdminKeys "cluster" "net" 0
      allowed = .ok () := by
  have hkey : sampleCrypto.unbase64 (sampleText sampleNodeKey) = some sampleNodeKey :=
    sampleUntext_sampleText _
  have hx : checkX25519 sampleCrypto (sampleText sampleNodeKey) = .ok () := by
    simp only [checkX25519, hkey]
    rfl
  have hidentity : parseIdentity sampleCrypto (sampleText sampleNodeKey) = .ok sampleNodeKey := by
    simp only [parseIdentity, hkey]
    rfl
  simp only [RaftJoinRequest.verify, bind_eq_ok, mapError_eq_ok, ensure_eq_ok, okOr_eq_ok,
    decide_eq_true_eq, exists_const]
  refine ⟨⟨rfl, rfl⟩, ⟨rfl, rfl⟩, ?_, ?_, rfl, ?_, ?_, (), hx, _, hidentity, rfl, (),
    verify_sampleToken h, _, sampleUntext_sampleText _, _, rfl, beq_self_eq_true _⟩
  · change nodeIdFromPeerId Authority.samplePrimitives Authority.peerB ≠ 0
    decide +kernel
  · change Authority.isValidPeerId Authority.samplePrimitives Authority.peerB = true
    decide +kernel
  · change (!("n" : String).isEmpty && decide (("n" : String).utf8ByteSize ≤ 128)) = true
    decide +kernel
  · change Lib.Words.absDiff 0 0 ≤ raftJoinMaxTsSkewSecs
    decide

theorem edge_forwards_sampleJoin {audience : String}
    (h : audienceAllowed (sampleToken audience) ["edge"] = true) :
    ⟨.serviceRequestTo Authority.peerA [1], .error (.new "" "")⟩ ∈ (play followerService []
      (handleRaftJoin (joinService "edge" (sampleJoin (sampleToken audience)))
        true .null).run).1 := by
  have hpermitted : ensure (SidecarError.new "join_not_allowed" "allow_join = false，拒绝入网")
      (joinService "edge" (sampleJoin (sampleToken audience))).allowJoin = .ok () := rfl
  rw [handleRaftJoin_of_request rfl, play_bindExcept_of_ok (play_raftRuntime_of_ready rfl),
    hpermitted, fallible_ok_bind,
    play_bindExcept_of_ok (play_verifyJoin_of_ok rfl (verify_sampleJoin h))]
  exact List.mem_of_getElem? (i := 4) rfl

theorem forwarded_join_passes_peerA :
    ∃ view rest, (play idleService [] (handleRaftJoin
        (joinService Authority.peerA (forwardedJoin "auth")) true .null).run).1 =
      [⟨.runtime, true⟩, ⟨.node .now, 0⟩, ⟨.node .isLeader, true⟩, ⟨.node .now, 0⟩,
        ⟨.membershipView, view⟩] ++ rest := by
  have hfollows : ∀ past, followerService past (.node .isLeader) = false := fun _ => rfl
  have hnowE : ∀ past, followerService past (.node .now) = 0 := fun _ => rfl
  have hready : ∀ past, idleService past .runtime = true := fun _ => rfl
  have hleads : ∀ past, idleService past (.node .isLeader) = true := fun _ => rfl
  have hnowL : ∀ past, idleService past (.node .now) = 0 := fun _ => rfl
  exact (forwarded_join_passes_leader (joinService "edge" (sampleJoin (sampleToken "auth")))
    (joinService Authority.peerA (forwardedJoin "auth")) 0 rfl rfl rfl rfl rfl hfollows hnowE hready
    hleads hnowL rfl (edge_forwards_sampleJoin rfl) (fun _ => rfl)).mpr (.inl rfl) |>.2.2

/-- A token for the follower `edge`: the follower accepts the join and passes it on, and the
leader refuses it at its first verification. -/
theorem forwarded_join_refused :
    (∃ answer, ⟨.serviceRequestTo Authority.peerA [1], answer⟩ ∈ (play followerService []
        (handleRaftJoin (joinService "edge" (sampleJoin (sampleToken "edge"))) true .null).run).1) ∧
      (forwardedJoin "edge").verify sampleCrypto sampleAdminKeys "cluster" "net" 0
        [Authority.peerA] = .error (.token .wrongAudience) ∧
      (play idleService [] (handleRaftJoin
        (joinService Authority.peerA (forwardedJoin "edge")) true .null).run).2 =
        .error (.new "join_token_wrong_audience" "join token audience mismatch") := by
  exact ⟨⟨_, edge_forwards_sampleJoin rfl⟩, by decide +kernel, by decide +kernel⟩

end NexusAuth.Service
