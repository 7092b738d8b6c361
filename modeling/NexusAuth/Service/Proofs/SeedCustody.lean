import NexusAuth.Raft.Proofs.Operations
import NexusAuth.Service.Dispatch

/-!
# Where the seed is after a member operation

The three operations of `execute_member_write` that move a vote also move the seed of
the authority, in several steps that can fail one by one.  A node that is no voter
afterwards must not hold the seed.

Four failures break that: a delivery that took effect although it was reported as
failed, a request to drop the seed that had no effect on a node without a vote, a local
key file that cannot be removed, and a removal that is refused after the vote was taken.
-/

namespace NexusAuth.Service

open NexusAuth.Lib.Interaction NexusAuth.Lib.OrderedMap NexusAuth.Lib.Results NexusAuth.Raft
open Std (ExtTreeMap ExtTreeSet)

/-! ## Steps and their failures -/

structure Custody where
  members : Members
  holder : SeedHolder

/-- A delivery that is acknowledged was processed; one that is not may have been. -/
def Delivered (before after : SeedHolder) : Except String Unit → Prop
  | .ok () => ∃ seed, after = .holding seed
  | .error _ => after = before ∨ ∃ seed, after = .holding seed

def Dropped (before after : SeedHolder) : Except String Unit → Prop
  | .ok () => after = .empty
  | .error _ => after = before ∨ after = .empty

/-- How the questions of a member operation can be answered, and what they do to the
membership and to the copies of the node `target`; `self` is the leader that runs it. -/
def custodyAnswers (self target : NodeId) (w : Custody) :
    (q : ServiceCall) → ServiceAnswer q → Custody → Prop
  | .membershipView, view, w' =>
      (∃ metrics : RaftMetrics,
        metrics.members = w.members ∧ view = metrics.membershipView) ∧ w' = w
  | .promoteVoter id, result, w' =>
      Executes faultyAnswers (Runtime.promoteVoter id) w.members w'.members result ∧
        w'.holder = w.holder
  | .demoteVoter id, result, w' =>
      Executes faultyAnswers (Runtime.demoteVoter self id) w.members w'.members result ∧
        w'.holder = w.holder
  | .removeMember id, result, w' =>
      Executes faultyAnswers (Runtime.removeMember self id) w.members w'.members result ∧
        w'.holder = w.holder
  | .addLearnerNode id node, result, w' =>
      Executes faultyAnswers (Runtime.addLearnerNode id node) w.members w'.members result ∧
        w'.holder = w.holder
  | .deliverSeed id, result, w' =>
      w'.members = w.members ∧
        if id = target then Delivered w.holder w'.holder result else w'.holder = w.holder
  | .dropRemoteSeed id, result, w' =>
      w'.members = w.members ∧
        if id = target then Dropped w.holder w'.holder result else w'.holder = w.holder
  | .removeSeedFile, result, w' =>
      w'.members = w.members ∧ w'.holder =
        if result.isOk ∧ target = self then { w.holder with file := none } else w.holder
  | .clearAuthority, (), w' =>
      w'.members = w.members ∧ w'.holder =
        if target = self then { w.holder with memory := none } else w.holder
  | _, _, w' => w' = w

/-- None of the four failures that leave a seed behind. -/
def Orderly (target : NodeId) (w : Custody) : (q : ServiceCall) → ServiceAnswer q → Custody → Prop
  | .deliverSeed _, .error _, w' => target ∉ w.members.voters → w'.holder = w.holder
  | .dropRemoteSeed _, .error _, w' => target ∉ w.members.voters → w'.holder = .empty
  | .removeSeedFile, result, _ => result.isOk = true
  | .removeMember _, .error _, w' => w'.members = w.members
  | _, _, _ => True

def orderlyAnswers (self target : NodeId) (w : Custody) (q : ServiceCall) (answer : ServiceAnswer q)
    (w' : Custody) : Prop :=
  custodyAnswers self target w q answer w' ∧ Orderly target w q answer w'

def OnlyVoterHolds (target : NodeId) (w : Custody) : Prop :=
  target ∈ w.members.voters ∨ w.holder = .empty

/-! ## Parts of the operations -/

section Parts

variable {ctx : ServiceContext} {target : NodeId} {w w' : Custody}

def Reports : ServiceCall → Prop
  | .node _ | .runtime | .appliedIndex | .leaderPeer | .term | .audit _ _ | .membershipView => True
  | _ => False

theorem eq_of_reports {self : NodeId} (w : Custody) (q : ServiceCall) (answer : ServiceAnswer q)
    (w' : Custody) (hq : Reports q) (h : orderlyAnswers self target w q answer w') : w' = w := by
  cases q with
  | membershipView => exact h.1.2
  | node call => exact h.1
  | runtime => exact h.1
  | appliedIndex => exact h.1
  | leaderPeer => exact h.1
  | term => exact h.1
  | audit level entry => exact h.1
  | _ => exact hq.elim

theorem reports_auditAndReply (req : AdminRequestV2) (edgePeer : Option String)
    (op peer result : String) (policyEpoch : Nat) (fields : List (String × Json)) :
    Asks Reports (do
      auditMember req op peer result policyEpoch edgePeer
      memberReply ctx req fields policyEpoch : HandlerM Bytes).run := by
  refine Asks.bindExcept ?_ fun _ => ?_
  · exact ⟨trivial, fun _ => ⟨trivial, fun _ => asks_query.mpr trivial⟩⟩
  · exact ⟨trivial, fun _ => ⟨trivial, fun _ => trivial⟩⟩

theorem executes_deliverAndPromote {result : Except SidecarError Unit}
    (hlearner : target ∉ w.members.voters) (hempty : w.holder = .empty)
    (h : Executes (orderlyAnswers ctx.nodeId target) (deliverAndPromote target).run w w' result) :
    OnlyVoterHolds target w' := by
  obtain ⟨e, hdeliver, -⟩ | ⟨mid, _, hdeliver, h⟩ := executes_attempt_bind.mp h
  · obtain ⟨-, horderly⟩ := executes_request.mp hdeliver
    exact .inr ((horderly hlearner).trans hempty)
  obtain ⟨⟨hmembers, -⟩, -⟩ := executes_request.mp hdeliver
  obtain ⟨promoted, mid', hpromoted, h⟩ := executes_query_bind.mp h
  obtain ⟨hexecutes, hholder⟩ := hpromoted.1
  obtain ⟨rfl, hpromotion⟩ | ⟨hfailed, hsame⟩ := executes_promoteVoter hexecutes
  · obtain ⟨rfl, -⟩ := h
    left
    rw [hpromotion.voters]
    exact ExtTreeSet.mem_insert_self
  cases promoted with
  | ok u => cases hfailed
  | error e =>
      obtain ⟨drop, mid'', hdrop, rfl, -⟩ := executes_query_bind.mp h
      obtain ⟨⟨-, hdropped⟩, horderly⟩ := hdrop
      rw [if_pos rfl] at hdropped
      cases drop with
      | ok u => exact .inr hdropped
      | error e =>
          refine .inr (horderly ?_)
          rw [hsame, hmembers]
          exact hlearner

theorem executes_dropOwnSeed {result : Except SidecarError Unit} (hself : target = ctx.nodeId)
    (h : Executes (orderlyAnswers ctx.nodeId target) dropOwnSeed.run w w' result) :
    w'.members = w.members ∧ w'.holder = .empty := by
  obtain ⟨e, hfile, -⟩ | ⟨mid, _, hfile, h⟩ := executes_attempt_bind.mp h
  · obtain ⟨-, hok⟩ := executes_request.mp hfile
    cases hok
  obtain ⟨⟨hmembers, hholder⟩, hok⟩ := executes_request.mp hfile
  obtain ⟨-, mid', ⟨⟨hmembers', hholder'⟩, -⟩, rfl, -⟩ := executes_query_bind.mp h
  rw [if_pos ⟨hok, hself⟩] at hholder
  rw [if_pos hself, hholder] at hholder'
  exact ⟨hmembers'.trans hmembers, hholder'⟩

theorem executes_dropSeedOf {result : Except SidecarError Unit}
    (h : Executes (orderlyAnswers ctx.nodeId target) (dropSeedOf target).run w w' result) :
    w'.members = w.members ∧
      (result = .ok () ∨ target ∉ w.members.voters → w'.holder = .empty) := by
  obtain ⟨answer, hanswer, rfl⟩ := executes_attempt.mp h
  obtain ⟨⟨hmembers, hdropped⟩, horderly⟩ := executes_request.mp hanswer
  rw [if_pos rfl] at hdropped
  refine ⟨hmembers, ?_⟩
  cases answer with
  | ok u => exact fun _ => hdropped
  | error e =>
      rintro (hok | hlearner)
      · cases hok
      · exact horderly hlearner

theorem executes_demoteAndDrop {result : Except SidecarError Unit}
    (hinv : OnlyVoterHolds target w)
    (h : Executes (orderlyAnswers ctx.nodeId target) (demoteAndDrop ctx target).run w w' result) :
    OnlyVoterHolds target w' := by
  obtain ⟨e, hdemote, -⟩ | ⟨mid, _, hdemote, h⟩ := executes_attempt_bind.mp h
  · obtain ⟨⟨hexecutes, hholder⟩, -⟩ := executes_request.mp hdemote
    obtain ⟨hok, -⟩ | ⟨-, hsame⟩ := executes_demoteVoter hexecutes
    · cases hok
    · exact hinv.imp (fun hvoter => hsame ▸ hvoter) hholder.trans
  obtain ⟨⟨hexecutes, hholder⟩, -⟩ := executes_request.mp hdemote
  obtain ⟨-, hdemoted⟩ | ⟨hfailed, -⟩ := executes_demoteVoter hexecutes
  · have hlearner : target ∉ mid.members.voters := by
      rw [hdemoted.voters]
      simp
    split at h
    next hself => exact .inr (executes_dropOwnSeed hself h).2
    next => exact .inr ((executes_dropSeedOf h).2 (.inr hlearner))
  · cases hfailed

theorem executes_dropBeforeRemoval {result : Except SidecarError Unit} {remoteVoter : Bool}
    (h : Executes (orderlyAnswers ctx.nodeId target) (dropBeforeRemoval target remoteVoter).run w w'
      result) :
    w'.members = w.members ∧
      ((remoteVoter = false ∧ result = .ok () ∧ w'.holder = w.holder) ∨
        (remoteVoter = true ∧ (result = .ok () → w'.holder = .empty))) := by
  cases remoteVoter with
  | false =>
      obtain ⟨rfl, rfl⟩ := h
      exact ⟨rfl, .inl ⟨rfl, rfl, rfl⟩⟩
  | true =>
      have hdrop : Executes (orderlyAnswers ctx.nodeId target)
          (dropSeedOf target).run w w' result := h
      obtain ⟨hmembers, hdropped⟩ := executes_dropSeedOf hdrop
      exact ⟨hmembers, .inr ⟨rfl, fun hok => hdropped (.inl hok)⟩⟩

theorem executes_restoreSeed {result : Except SidecarError Unit} {remoteVoter : Bool}
    (h : Executes (orderlyAnswers ctx.nodeId target) (restoreSeed target remoteVoter).run w w'
      result) :
    w'.members = w.members ∧ (remoteVoter = false → w'.holder = w.holder) := by
  cases remoteVoter with
  | false =>
      obtain ⟨rfl, -⟩ := h
      exact ⟨rfl, fun _ => rfl⟩
  | true =>
      obtain ⟨answer, mid, ⟨⟨hmembers, -⟩, -⟩, rfl, -⟩ := executes_query_bind.mp h
      exact ⟨hmembers, nofun⟩

theorem executes_removeAndDrop {result : Except SidecarError Unit} {wasVoter : Bool}
    (hvoter : wasVoter = true ↔ target ∈ w.members.voters) (hinv : OnlyVoterHolds target w)
    (h : Executes (orderlyAnswers ctx.nodeId target) (removeAndDrop ctx target wasVoter).run w w'
      result) : OnlyVoterHolds target w' := by
  have hempty (hlearner : wasVoter = false) : w.holder = .empty :=
    hinv.resolve_left fun hmem => by simp [hvoter.mpr hmem] at hlearner
  obtain ⟨e, hdrop, -⟩ | ⟨mid, _, hdrop, h⟩ := executes_bindExcept.mp h
  · -- the seed could not be dropped, and nothing else was done
    obtain ⟨hmembers, ⟨-, hok, -⟩ | ⟨hremote, -⟩⟩ := executes_dropBeforeRemoval hdrop
    · cases hok
    · rw [Bool.and_eq_true] at hremote
      exact .inl (hmembers ▸ hvoter.mp hremote.1)
  obtain ⟨hmembers, hholder⟩ := executes_dropBeforeRemoval hdrop
  obtain ⟨answer, mid', ⟨⟨hexecutes, hholder'⟩, horderly⟩, h⟩ := executes_query_bind.mp h
  cases answer with
  | ok u =>
      dsimp only at h
      split at h
      next hself =>
        simp only [Bool.and_eq_true, beq_iff_eq] at hself
        exact .inr (executes_dropOwnSeed hself.2 h).2
      next hself =>
        obtain ⟨rfl, -⟩ := h
        right
        obtain ⟨hlocal, -, hkept⟩ | ⟨-, hdropped⟩ := hholder
        · have hlearner : wasVoter = false := by
            cases wasVoter with
            | false => rfl
            | true => simp_all
          rw [hholder', hkept, hempty hlearner]
        · rw [hholder', hdropped rfl]
  | error e =>
      have hrestore : ∃ restored, Executes (orderlyAnswers ctx.nodeId target)
          (restoreSeed target (wasVoter && target != ctx.nodeId)).run mid' w' restored := by
        obtain ⟨e', hrestore, -⟩ | ⟨mid'', _, hrestore, rfl, -⟩ := executes_bindExcept.mp h
        · exact ⟨_, hrestore⟩
        · exact ⟨_, hrestore⟩
      obtain ⟨restored, hrestore⟩ := hrestore
      obtain ⟨hmembers'', hholder''⟩ := executes_restoreSeed hrestore
      have hsame : w'.members = w.members := hmembers''.trans (horderly.trans hmembers)
      cases wasVoter with
      | true => exact .inl (hsame ▸ hvoter.mp rfl)
      | false =>
          obtain ⟨-, -, hkept⟩ | ⟨hremote, -⟩ := hholder
          · exact .inr (by rw [hholder'' rfl, hholder', hkept, hempty rfl])
          · cases hremote

end Parts

/-! ## Operations -/

section Operations

variable {ctx : ServiceContext} {req : AdminRequestV2} {edgePeer : Option String}
  {spec : AdminMemberSpec} {target : NodeId} {w w' : Custody} {result : Except SidecarError Bytes}

theorem executes_memberTarget {f : AdminMemberSpec × NodeId → HandlerM Bytes}
    {answers : Custody → (q : ServiceCall) → ServiceAnswer q → Custody → Prop}
    (hspec : req.member = some spec)
    (htarget : target = nodeIdFromPeerId ctx.crypto.toPrimitives spec.peerId)
    (h : Executes answers (memberTarget ctx req >>= f).run w w' result) :
    w' = w ∨ Executes answers (f (spec, target)).run w w' result := by
  have hmember : requireMember req = .ok spec := by rw [requireMember, hspec]; rfl
  rw [memberTarget, hmember, fallible_ok_bind, bind_assoc] at h
  obtain ⟨e, -, rfl, -⟩ | ⟨id, hid, h⟩ := executes_fallible_bind.mp h
  · exact .inl rfl
  · right
    simp only [memberNodeId, bind_eq_ok, pure_eq_ok] at hid
    obtain ⟨-, -, -, -, rfl⟩ := hid
    rw [htarget]
    exact h

theorem executes_auditAndReply {op peer : String} {policyEpoch : Nat}
    {fields : List (String × Json)}
    (h : Executes (orderlyAnswers ctx.nodeId target) (do
      auditMember req op peer "ok" policyEpoch edgePeer
      memberReply ctx req fields policyEpoch : HandlerM Bytes).run w w' result) : w' = w :=
  h.eq_of_asks (reports_auditAndReply req edgePeer op peer "ok" policyEpoch fields) eq_of_reports

variable (hspec : req.member = some spec)
  (htarget : target = nodeIdFromPeerId ctx.crypto.toPrimitives spec.peerId)
  (hinv : OnlyVoterHolds target w)

include hspec htarget hinv

theorem promoteVoterWrite_keeps
    (h : Executes (orderlyAnswers ctx.nodeId target) (promoteVoterWrite ctx req edgePeer).run w w'
      result) : OnlyVoterHolds target w' := by
  obtain rfl | hview := executes_memberTarget hspec htarget h
  · exact hinv
  obtain ⟨view, mid, ⟨⟨⟨metrics, hmetrics, rfl⟩, rfl⟩, -⟩, hchecked⟩ := executes_query_bind.mp hview
  obtain ⟨e, -, rfl, -⟩ | ⟨member, hmember, hmoved⟩ := executes_fallible_bind.mp hchecked
  · exact hinv
  have hlearner : target ∉ mid.members.voters := by
    simp only [promotable, bind_eq_ok, okOr_eq_ok, ensure_eq_ok, find_membershipView] at hmember
    obtain ⟨info, hfind, -, hvoter, -⟩ := hmember
    obtain ⟨node, -, rfl⟩ := Option.map_eq_some_iff.mp hfind
    simpa [Members.info, hmetrics] using hvoter
  obtain ⟨e, hpromote, -⟩ | ⟨mid', _, hpromote, hread⟩ := executes_bindExcept.mp hmoved
  · exact executes_deliverAndPromote hlearner (hinv.resolve_left hlearner) hpromote
  obtain ⟨state, mid'', ⟨rfl, -⟩, hafter⟩ := executes_query_bind.mp hread
  obtain rfl := executes_auditAndReply hafter
  exact executes_deliverAndPromote hlearner (hinv.resolve_left hlearner) hpromote

theorem demoteVoterWrite_keeps
    (h : Executes (orderlyAnswers ctx.nodeId target) (demoteVoterWrite ctx req edgePeer).run w w'
      result) : OnlyVoterHolds target w' := by
  obtain rfl | hview := executes_memberTarget hspec htarget h
  · exact hinv
  obtain ⟨view, mid, ⟨⟨-, rfl⟩, -⟩, hchecked⟩ := executes_query_bind.mp hview
  obtain ⟨e, -, rfl, -⟩ | ⟨_, -, hmoved⟩ := executes_fallible_bind.mp hchecked
  · exact hinv
  obtain ⟨e, hdemote, -⟩ | ⟨mid', _, hdemote, hread⟩ := executes_bindExcept.mp hmoved
  · exact executes_demoteAndDrop hinv hdemote
  obtain ⟨state, mid'', ⟨rfl, -⟩, hafter⟩ := executes_query_bind.mp hread
  obtain ⟨after, last, ⟨⟨-, rfl⟩, -⟩, hend⟩ := executes_query_bind.mp hafter
  obtain rfl := executes_auditAndReply hend
  exact executes_demoteAndDrop hinv hdemote

theorem removeMemberWrite_keeps
    (h : Executes (orderlyAnswers ctx.nodeId target) (removeMemberWrite ctx req edgePeer).run w w'
      result) : OnlyVoterHolds target w' := by
  obtain rfl | hview := executes_memberTarget hspec htarget h
  · exact hinv
  obtain ⟨view, mid, ⟨⟨⟨metrics, hmetrics, rfl⟩, rfl⟩, -⟩, hchecked⟩ := executes_query_bind.mp hview
  obtain ⟨e, -, rfl, -⟩ | ⟨_, -, hmoved⟩ := executes_fallible_bind.mp hchecked
  · exact hinv
  have hvoter : metrics.membershipView.isVoter target = true ↔ target ∈ mid.members.voters :=
    hmetrics ▸ isVoter_membershipView
  obtain ⟨e, hremove, -⟩ | ⟨mid', _, hremove, hread⟩ := executes_bindExcept.mp hmoved
  · exact executes_removeAndDrop hvoter hinv hremove
  obtain ⟨state, mid'', ⟨rfl, -⟩, hafter⟩ := executes_query_bind.mp hread
  obtain rfl := executes_auditAndReply hafter
  exact executes_removeAndDrop hvoter hinv hremove

end Operations

def seedOps : List String := ["promote_voter", "demote_voter", "remove_member"]

/-- Unless one of the four failures happens, a member operation that starts with the seed only at
voters ends so, with whatever result it ends. -/
theorem seed_only_at_voters (ctx : ServiceContext) (req : AdminRequestV2) (spec : AdminMemberSpec)
    (target : NodeId) (edgePeer : Option String) (verified : VerifiedAdmin) (w w' : Custody)
    (result : Except SidecarError Bytes) (hop : req.op ∈ seedOps) (hspec : req.member = some spec)
    (htarget : target = nodeIdFromPeerId ctx.crypto.toPrimitives spec.peerId)
    (hinv : OnlyVoterHolds target w)
    (hrun : Executes (orderlyAnswers ctx.nodeId target)
      (executeMemberWrite ctx req edgePeer verified).run w w' result) :
    OnlyVoterHolds target w' := by
  rw [executeMemberWrite, raftRuntime, bind_assoc] at hrun
  obtain ⟨ready, mid, ⟨rfl, -⟩, hready⟩ := executes_query_bind.mp hrun
  obtain ⟨e, -, rfl, -⟩ | ⟨_, -, hinstalled⟩ := executes_fallible_bind.mp hready
  · exact hinv
  obtain ⟨leads, mid, ⟨rfl, -⟩, hasked⟩ := executes_query_bind.mp hinstalled
  obtain ⟨e, -, rfl, -⟩ | ⟨_, -, hdispatch⟩ := executes_fallible_bind.mp hasked
  · exact hinv
  simp only [seedOps, List.mem_cons, List.not_mem_nil, or_false] at hop
  obtain hop | hop | hop := hop
  · simp only [hop] at hdispatch
    exact promoteVoterWrite_keeps hspec htarget hinv hdispatch
  · simp only [hop] at hdispatch
    exact demoteVoterWrite_keeps hspec htarget hinv hdispatch
  · simp only [hop] at hdispatch
    exact removeMemberWrite_keeps hspec htarget hinv hdispatch

/-! ## Runs with failures -/

def sampleLearner : NodeId := nodeIdFromPeerId Authority.samplePrimitives Authority.peerB

def leaderAndLearner : Members where
  voters := {1}
  nodes := .ofList [(1, ⟨Authority.peerA, "k", "x"⟩), (sampleLearner, ⟨Authority.peerB, "k", "x"⟩)]
    compare
  voters_known id h := by
    obtain rfl : 1 = id := by simpa using h
    decide +kernel

def leaderMetrics : RaftMetrics := ⟨1, some 1, .leader, leaderAndLearner⟩

def sampleSpec : AdminMemberSpec := ⟨sampleLearner, Authority.peerB, "", ""⟩

def samplePromotion : AdminRequestV2 :=
  { AdminRequestV2.default with op := "promote_voter", member := some sampleSpec }

def samplePromotionService : ServiceContext :=
  sampleService samplePromotion (sampleJoin (sampleToken "auth"))

theorem executes_samplePromotion
    {answers : Custody → (q : ServiceCall) → ServiceAnswer q → Custody → Prop} {w w' : Custody}
    {e : SidecarError}
    (verified : VerifiedAdmin)
    (hruntime : answers w .runtime true w) (hleader : answers w (.node .isLeader) true w)
    (hview : answers w .membershipView leaderMetrics.membershipView w)
    (h : Executes answers (deliverAndPromote sampleLearner).run w w' (.error e)) :
    Executes answers (executeMemberWrite samplePromotionService samplePromotion none verified).run w
      w' (.error e) := by
  have htarget : memberNodeId samplePromotionService.crypto.toPrimitives sampleSpec =
      .ok sampleLearner := rfl
  have hpromotable : ∃ info, promotable sampleLearner leaderMetrics.membershipView = .ok info := by
    apply isOk_eq_true.mp
    decide +kernel
  obtain ⟨info, hinfo⟩ := hpromotable
  refine ⟨true, w, hruntime, true, w, hleader, ?_⟩
  change Executes answers (promoteVoterWrite samplePromotionService samplePromotion none).run w w' _
  simp only [promoteVoterWrite, memberTarget, requireMember, samplePromotion, okOr, htarget,
    fallible_ok_bind, pure_bind]
  refine executes_query_bind.mpr ⟨_, w, hview, ?_⟩
  rw [hinfo, fallible_ok_bind]
  exact executes_bindExcept.mpr (.inl ⟨e, h, rfl⟩)

/-- The seed reaches the learner, the acknowledgement is lost, and the learner keeps the seed. -/
theorem lost_acknowledgement_leaves_seed :
    ∃ w w' : Custody, OnlyVoterHolds sampleLearner w ∧
      Executes (custodyAnswers samplePromotionService.nodeId sampleLearner)
        (executeMemberWrite samplePromotionService samplePromotion none
          ⟨"root", .root, "", []⟩).run w w' (.error (.new "seed_delivery_failed" "timeout")) ∧
      sampleLearner ∉ w'.members.voters ∧ w'.holder = .holding [1] := by
  have hdelivery : Executes (custodyAnswers 1 sampleLearner) (deliverAndPromote sampleLearner).run
      ⟨leaderAndLearner, .empty⟩ ⟨leaderAndLearner, .holding [1]⟩
      (.error (.new "seed_delivery_failed" "timeout")) := by
    refine executes_bindExcept.mpr (.inl ⟨_, executes_attempt.mpr ⟨.error "timeout", ?_, rfl⟩, rfl⟩)
    refine executes_request.mpr ⟨rfl, ?_⟩
    rw [if_pos rfl]
    exact .inr ⟨[1], rfl⟩
  refine ⟨⟨leaderAndLearner, .empty⟩, ⟨leaderAndLearner, .holding [1]⟩, .inr rfl, ?_, ?_, rfl⟩
  · exact executes_samplePromotion _ rfl rfl ⟨⟨leaderMetrics, rfl, rfl⟩, rfl⟩ hdelivery
  · decide +kernel

/-- The promotion is refused after the seed was delivered; the seed is taken back, although the
acknowledgement of that is lost. -/
theorem refused_promotion_takes_seed_back :
    ∃ w' : Custody, OnlyVoterHolds sampleLearner w' ∧
      Executes (orderlyAnswers samplePromotionService.nodeId sampleLearner)
        (executeMemberWrite samplePromotionService samplePromotion none
          ⟨"root", .root, "", []⟩).run ⟨leaderAndLearner, .empty⟩ w'
        (.error (.new "promote_voter_failed" "refused")) := by
  have hrefused : Executes faultyAnswers (Runtime.promoteVoter sampleLearner) leaderAndLearner
      leaderAndLearner (.error "refused") := by
    have hvoter : leaderMetrics.membershipView.isVoter sampleLearner = false := by decide +kernel
    have hfind : ∃ info, leaderMetrics.membershipView.find sampleLearner = some info :=
      Option.isSome_iff_exists.mp (by decide +kernel)
    obtain ⟨info, hinfo⟩ := hfind
    rw [Runtime.promoteVoter, Runtime.membershipView_bind]
    refine executes_request_bind.mpr ⟨leaderMetrics, leaderAndLearner, ⟨rfl, rfl⟩, ?_⟩
    simp only [hvoter, hinfo, Bool.false_eq_true, if_false]
    exact ⟨.error "refused", leaderAndLearner, rfl, rfl, rfl⟩
  have hpromotion : Executes (orderlyAnswers 1 sampleLearner) (deliverAndPromote sampleLearner).run
      ⟨leaderAndLearner, .empty⟩ ⟨leaderAndLearner, .empty⟩
      (.error (.new "promote_voter_failed" "refused")) := by
    refine executes_bindExcept.mpr (.inr ⟨⟨leaderAndLearner, .holding [1]⟩, (), ?_, ?_⟩)
    · refine executes_attempt.mpr ⟨.ok (), executes_request.mpr ⟨⟨rfl, ?_⟩, trivial⟩, rfl⟩
      rw [if_pos rfl]
      exact ⟨[1], rfl⟩
    · refine ⟨.error "refused", ⟨leaderAndLearner, .holding [1]⟩, ⟨⟨hrefused, rfl⟩, trivial⟩, ?_⟩
      refine ⟨.error "timeout", ⟨leaderAndLearner, .empty⟩, ⟨⟨rfl, ?_⟩, fun _ => rfl⟩, rfl, rfl⟩
      rw [if_pos rfl]
      exact .inr rfl
  have hrun := executes_samplePromotion ⟨"root", .root, "", []⟩ ⟨rfl, trivial⟩ ⟨rfl, trivial⟩
    ⟨⟨⟨leaderMetrics, rfl, rfl⟩, rfl⟩, trivial⟩ hpromotion
  exact ⟨_, seed_only_at_voters samplePromotionService samplePromotion sampleSpec sampleLearner none
    _ _ _ _ (by decide) rfl rfl (.inr rfl) hrun, hrun⟩

end NexusAuth.Service
