import NexusAuth.Raft.Proofs.Operations

/-!
# Demoting and removing voters, the leader included

openraft changes the membership only on the leader and answers any other node with
`ForwardToLeader`.  A leader that is to lose its own vote first hands the leadership to
another voter, and then submits the change itself, which is no longer its to make.  So
every other voter can be demoted and removed, and the leader that runs the operation
cannot, however well the handover goes.
-/

namespace NexusAuth.Raft

open NexusAuth.Lib.Interaction NexusAuth.Lib.OrderedMap
open Std (ExtTreeMap ExtTreeSet)

structure Office where
  members : Members
  leader : NodeId

/-- What the node `self` is answered when every request and every election it asks for
succeeds, and nothing else moves the leadership. -/
def officeAnswers (self : NodeId) (w : Office) :
    (q : RuntimeCall) → RuntimeAnswer q → Office → Prop
  | .metrics, metrics, w' =>
      metrics.members = w.members ∧ metrics.currentLeader = some w.leader ∧
        (metrics.state = .leader ↔ w.leader = self) ∧ w' = w
  | .change change, .ok (), w' =>
      w.leader = self ∧ w.members.accept change = some w'.members ∧ w'.leader = w.leader
  -- an invalid change, or `ForwardToLeader`
  | .change change, .error _, w' =>
      (w.leader = self → w.members.accept change = none) ∧ w' = w
  | .elect _ _, answer, w' => answer = .ok () ∧ w' = w
  | .elected candidate, answer, w' => answer = true ∧ w' = { w with leader := candidate }
  | .catchUp _, answer, w' => answer = .ok () ∧ w' = w
  | .replaceNodes _, _, w' => w' = w

def officeReply (self : NodeId) (w : Office) : (q : RuntimeCall) → RuntimeAnswer q × Office
  | .metrics =>
      (⟨1, some w.leader, if w.leader = self then .leader else .follower, w.members⟩, w)
  | .change change =>
      if w.leader = self then
        match w.members.accept change with
        | some members => (.ok (), ⟨members, w.leader⟩)
        | none => (.error "invalid membership", w)
      else (.error "has to forward request", w)
  | .elect _ _ => (.ok (), w)
  | .elected candidate => (true, { w with leader := candidate })
  | .catchUp _ => (.ok (), w)
  | .replaceNodes _ => ((), w)

variable {self t : NodeId} {w w' : Office} {result : Except String Unit}

theorem officeAnswers_officeReply (self : NodeId) (w : Office) (q : RuntimeCall) :
    officeAnswers self w q (officeReply self w q).1 (officeReply self w q).2 := by
  cases q with
  | metrics =>
      refine ⟨rfl, rfl, ?_, rfl⟩
      by_cases h : w.leader = self <;> simp [officeReply, h]
  | change change =>
      by_cases hleader : w.leader = self
      · cases haccept : w.members.accept change with
        | some members =>
            simp only [officeReply, hleader, if_true, haccept]
            exact ⟨hleader, haccept, hleader.symm⟩
        | none =>
            simp only [officeReply, hleader, if_true, haccept]
            exact ⟨fun _ => haccept, rfl⟩
      · simp only [officeReply, hleader, if_false]
        exact ⟨fun h => absurd h hleader, rfl⟩
  | elect target node => exact ⟨rfl, rfl⟩
  | elected candidate => exact ⟨rfl, rfl⟩
  | catchUp id => exact ⟨rfl, rfl⟩
  | replaceNodes nodes => exact rfl

theorem exists_office_run {α : Type} (self : NodeId) (w : Office) (p : RuntimeM α) :
    ∃ w' value, Executes (officeAnswers self) p w w' value :=
  ⟨_, _, executes_perform (officeAnswers_officeReply self) p w⟩

/-! ## Steps -/

theorem office_metrics_bind {α : Type} {f : RaftMetrics → RuntimeM α} {value : α}
    (h : Executes (officeAnswers self) (Runtime.ask .metrics >>= f) w w' value) :
    ∃ metrics : RaftMetrics, metrics.members = w.members ∧
      (metrics.state = .leader ↔ w.leader = self) ∧
      Executes (officeAnswers self) (f metrics) w w' value := by
  obtain ⟨metrics, mid, ⟨hmembers, -, hstate, hmid⟩, hrest⟩ := executes_request_bind.mp h
  rw [hmid] at hrest
  exact ⟨metrics, hmembers, hstate, hrest⟩

theorem change_of_leader {change : Change} {members : Members} {answer : Except String Unit}
    (hleader : w.leader = self) (haccept : w.members.accept change = some members)
    (h : officeAnswers self w (.change change) answer w') :
    answer = .ok () ∧ w' = ⟨members, w.leader⟩ := by
  cases answer with
  | error e =>
      have hnone := h.1 hleader
      rw [haccept] at hnone
      cases hnone
  | ok value =>
      obtain ⟨-, hsome, hkept⟩ := h
      have hmembers : w'.members = members := Option.some.inj (hsome.symm.trans haccept)
      refine ⟨rfl, ?_⟩
      cases w'
      simp only at hmembers hkept
      rw [hmembers, hkept]

theorem change_of_follower {change : Change} {answer : Except String Unit}
    (hleader : w.leader ≠ self) (h : officeAnswers self w (.change change) answer w') :
    (∃ e, answer = .error e) ∧ w' = w := by
  cases answer with
  | error e => exact ⟨⟨e, rfl⟩, h.2⟩
  | ok value => exact absurd h.1 hleader

theorem office_refresh_ok
    (h : Executes (officeAnswers self)
      (do Runtime.refreshVerifierFromMetrics; return .ok ()) w w' result) :
    w' = w ∧ result = .ok () := by
  obtain ⟨mid, u, hrefresh, hdone⟩ := executes_bind.mp h
  obtain ⟨rfl, rfl⟩ := hdone
  refine ⟨?_, rfl⟩
  rw [Runtime.refreshVerifierFromMetrics] at hrefresh
  obtain ⟨metrics, -, -, hrest⟩ := office_metrics_bind hrefresh
  dsimp only at hrest
  split at hrest
  · exact hrest.1
  · obtain ⟨_, mid', hmid', hdone⟩ := hrest
    exact hdone.1.trans hmid'

theorem accept_erase {m : Members} (hother : ∃ v ∈ m.voters, v ≠ t) :
    ∃ m', m.accept (.replaceVoters (m.voters.erase t)) = some m' := by
  obtain ⟨v, hv, hne⟩ := hother
  have hmem : v ∈ m.voters.erase t := by
    rw [ExtTreeSet.mem_erase, ne_eq, compare_eq_iff_eq]
    exact ⟨fun heq => hne heq.symm, hv⟩
  have hnonempty : m.voters.erase t ≠ ∅ := by
    intro hempty
    rw [hempty] at hmem
    simp at hmem
  have hknown : ∀ id ∈ (m.voters.erase t).toList, id ∈ m.nodes := by
    intro id hid
    rw [ExtTreeSet.mem_toList, ExtTreeSet.mem_erase] at hid
    exact m.voters_known id hid.2
  exact ⟨_, by rw [Members.accept, dif_pos ⟨hnonempty, hknown⟩]⟩

theorem remainingVoters_eq_ok {metrics : RaftMetrics}
    (hother : ∃ v ∈ metrics.members.voters, v ≠ t) :
    Runtime.remainingVoters (metrics.membershipView.voters.map fun member => member.nodeId) t =
      .ok (metrics.members.voters.erase t) := by
  cases hremaining : Runtime.remainingVoters
      (metrics.membershipView.voters.map fun member => member.nodeId) t with
  | ok remaining => rw [(remainingVoters_membershipView hremaining).1]
  | error e =>
      simp only [Runtime.remainingVoters] at hremaining
      split at hremaining
      · rename_i hempty
        obtain ⟨v, hv, hne⟩ := hother
        have hmem : v ∈ (.ofList ((metrics.membershipView.voters.map fun member =>
            member.nodeId).filter fun id => id != t) compare : BTreeSet NodeId) := by
          rw [ExtTreeSet.mem_ofList, List.contains_iff_mem, List.mem_filter,
            mem_voters_membershipView]
          exact ⟨hv, by simpa using hne⟩
        rw [ExtTreeSet.isEmpty_iff.mp hempty] at hmem
        simp at hmem
      · cases hremaining

theorem view_of_voter {metrics : RaftMetrics} {m : Members} (hmembers : metrics.members = m)
    (hvoter : t ∈ m.voters) (hother : ∃ v ∈ m.voters, v ≠ t) :
    metrics.membershipView.isVoter t = true ∧ metrics.membershipView.isMember t = true ∧
      Runtime.remainingVoters (metrics.membershipView.voters.map fun member => member.nodeId) t =
        .ok (m.voters.erase t) := by
  subst hmembers
  exact ⟨isVoter_membershipView.mpr hvoter,
    isMember_membershipView.mpr (metrics.members.voters_known t hvoter),
    remainingVoters_eq_ok hother⟩

theorem stepAside_of_ne (hne : t ≠ self) : Runtime.stepAside self t = .done (.ok ()) := by
  simp only [Runtime.stepAside, if_neg hne]
  rfl

/-! ## Another voter -/

theorem office_demoteVoter (hleader : w.leader = self) (hvoter : t ∈ w.members.voters)
    (hother : ∃ v ∈ w.members.voters, v ≠ t) (hne : t ≠ self)
    (h : Executes (officeAnswers self) (Runtime.demoteVoter self t) w w' result) :
    result = .ok () ∧ w'.leader = self ∧ w.members.Demoted w'.members t := by
  rw [Runtime.demoteVoter, Runtime.membershipView_bind] at h
  obtain ⟨metrics, hmembers, -, hrest⟩ := office_metrics_bind h
  obtain ⟨hisVoter, -, hremaining⟩ := view_of_voter hmembers hvoter hother
  simp only [hisVoter, Bool.not_true, Bool.false_eq_true, if_false, hremaining,
    stepAside_of_ne hne, Prog.done_bind] at hrest
  obtain ⟨answer, mid, hchange, hrest⟩ := executes_request_bind.mp hrest
  obtain ⟨demoted, haccept⟩ := accept_erase hother
  obtain ⟨rfl, rfl⟩ := change_of_leader hleader haccept hchange
  obtain ⟨rfl, rfl⟩ := office_refresh_ok hrest
  obtain ⟨hvoters, hnodes⟩ := accept_replaceVoters haccept
  exact ⟨rfl, hleader, hvoter, hvoters, hnodes⟩

theorem office_removeMember (hleader : w.leader = self) (hvoter : t ∈ w.members.voters)
    (hother : ∃ v ∈ w.members.voters, v ≠ t) (hne : t ≠ self)
    (h : Executes (officeAnswers self) (Runtime.removeMember self t) w w' result) :
    result = .ok () ∧ w'.leader = self ∧ w.members.Removed w'.members t := by
  rw [Runtime.removeMember, Runtime.membershipView_bind] at h
  obtain ⟨metrics, hmembers, -, hrest⟩ := office_metrics_bind h
  obtain ⟨hisVoter, hisMember, hremaining⟩ := view_of_voter hmembers hvoter hother
  simp only [hisMember, Bool.not_true, Bool.false_eq_true, if_false, stepAside_of_ne hne,
    Prog.done_bind, Runtime.demoteBeforeRemoval, hisVoter, if_true, hremaining] at hrest
  obtain ⟨answer, mid, hchange, hrest⟩ := executes_request_bind.mp hrest
  obtain ⟨demoted, haccept⟩ := accept_erase hother
  obtain ⟨rfl, rfl⟩ := change_of_leader hleader haccept hchange
  obtain ⟨hvoters, hnodes⟩ := accept_replaceVoters haccept
  -- the node is looked up again, and is a learner now
  have hknown : t ∈ w.members.nodes := w.members.voters_known t hvoter
  have hlearner : t ∉ demoted.voters := by
    rw [hvoters, ExtTreeSet.mem_erase]
    simp
  obtain ⟨removed, hremove⟩ := Option.ne_none_iff_exists'.mp (accept_removeNodes_ne_none hlearner)
  obtain ⟨mid, value, hsecond, hrest⟩ := executes_bind.mp hrest
  rw [Runtime.removeLearner, Runtime.memberNode_bind] at hsecond
  obtain ⟨later, hlater, -, hsecond⟩ := office_metrics_bind hsecond
  have hnode : t ∈ later.members.nodes := by
    rw [hlater, hnodes]
    exact hknown
  split at hsecond
  · rename_i hnone
    rw [ExtTreeMap.mem_iff_isSome_getElem?, hnone] at hnode
    cases hnode
  obtain ⟨hok, hmid⟩ := change_of_leader (w := ⟨demoted, w.leader⟩) hleader hremove
    (executes_request.mp hsecond)
  subst hok hmid
  obtain ⟨rfl, rfl⟩ := office_refresh_ok hrest
  obtain ⟨-, hvoters', hnodes'⟩ := accept_removeNodes hremove
  exact ⟨rfl, hleader, hknown, hvoters'.trans hvoters, hnodes'.trans (by rw [hnodes])⟩

/-- On the leader, with another voter left, every other voter can be demoted and removed:
the operation returns, and it returns Ok with its whole effect. -/
theorem other_voters_demoted_and_removed (self t : NodeId) (w : Office) (hleader : w.leader = self)
    (hvoter : t ∈ w.members.voters) (hother : ∃ v ∈ w.members.voters, v ≠ t) (hne : t ≠ self) :
    ((∃ w' result, Executes (officeAnswers self) (Runtime.demoteVoter self t) w w' result) ∧
      ∀ w' result, Executes (officeAnswers self) (Runtime.demoteVoter self t) w w' result →
        result = .ok () ∧ t ∈ w'.members.nodes ∧ t ∉ w'.members.voters ∧
          ∀ v, v ≠ t → (v ∈ w'.members.voters ↔ v ∈ w.members.voters)) ∧
    (∃ w' result, Executes (officeAnswers self) (Runtime.removeMember self t) w w' result) ∧
      ∀ w' result, Executes (officeAnswers self) (Runtime.removeMember self t) w w' result →
        result = .ok () ∧ t ∉ w'.members.nodes := by
  refine ⟨⟨exists_office_run _ _ _, ?_⟩, exists_office_run _ _ _, ?_⟩
  · intro w' result h
    obtain ⟨hok, -, hdemoted⟩ := office_demoteVoter hleader hvoter hother hne h
    refine ⟨hok, ?_, ?_, ?_⟩
    · rw [hdemoted.nodes]
      exact w.members.voters_known t hvoter
    · rw [hdemoted.voters, ExtTreeSet.mem_erase]
      simp
    · intro v hv
      rw [hdemoted.voters, ExtTreeSet.mem_erase, ne_eq, compare_eq_iff_eq]
      exact and_iff_right (Ne.symm hv)
  · intro w' result h
    obtain ⟨hok, -, hremoved⟩ := office_removeMember hleader hvoter hother hne h
    refine ⟨hok, ?_⟩
    rw [hremoved.nodes, ExtTreeMap.mem_erase]
    simp

/-! ## The leader itself -/

theorem office_stepAside (hleader : w.leader = self) (hother : ∃ v ∈ w.members.voters, v ≠ self)
    (h : Executes (officeAnswers self) (Runtime.stepAside self self) w w' result) :
    result = .ok () ∧ w'.members = w.members ∧ w'.leader ≠ self := by
  rw [Runtime.stepAside, if_pos rfl, Runtime.isLeader_bind] at h
  obtain ⟨metrics, -, hstate, hrest⟩ := office_metrics_bind h
  simp only [hstate.mpr hleader, beq_self_eq_true, if_true] at hrest
  rw [Runtime.transferLeaderAway, Runtime.membershipView_bind] at hrest
  obtain ⟨view, hmembers, -, hrest⟩ := office_metrics_bind hrest
  split at hrest
  · rename_i hnone
    obtain ⟨v, hv, hne⟩ := hother
    have hlisted : v ∈ view.membershipView.voters.map fun member => member.nodeId :=
      mem_voters_membershipView.mpr (hmembers ▸ hv)
    have hself := List.find?_eq_none.mp hnone v hlisted
    simp [hne] at hself
  rename_i candidate hcandidate
  have hne : candidate ≠ self := by simpa using List.find?_some hcandidate
  have hknown : candidate ∈ w.members.nodes := by
    rw [← hmembers]
    exact view.members.voters_known _
      (mem_voters_membershipView.mp (List.mem_of_find?_eq_some hcandidate))
  obtain ⟨mid, sent, hsent, hrest⟩ := executes_bind.mp hrest
  have hsentOk : sent = .ok () ∧ mid = w := by
    rw [Runtime.sendElect, Runtime.memberNode_bind] at hsent
    obtain ⟨later, hlater, -, hsent⟩ := office_metrics_bind hsent
    split at hsent
    · rename_i hnone
      rw [← hlater, ExtTreeMap.mem_iff_isSome_getElem?, hnone] at hknown
      cases hknown
    · exact executes_request.mp hsent
  rw [hsentOk.1, hsentOk.2] at hrest
  obtain ⟨answer, mid, ⟨hanswer, hmid⟩, hrest⟩ := executes_request_bind.mp hrest
  simp only [hanswer, if_true] at hrest
  obtain ⟨hend, hok⟩ := hrest
  rw [hend, hmid]
  exact ⟨hok, rfl, hne⟩

theorem office_demoteVoter_self (hleader : w.leader = self) (hself : self ∈ w.members.voters)
    (hother : ∃ v ∈ w.members.voters, v ≠ self)
    (h : Executes (officeAnswers self) (Runtime.demoteVoter self self) w w' result) :
    (∃ e, result = .error e) ∧ w'.members = w.members := by
  rw [Runtime.demoteVoter, Runtime.membershipView_bind] at h
  obtain ⟨metrics, hmembers, -, hrest⟩ := office_metrics_bind h
  obtain ⟨hisVoter, -, hremaining⟩ := view_of_voter hmembers hself hother
  simp only [hisVoter, Bool.not_true, Bool.false_eq_true, if_false, hremaining] at hrest
  obtain ⟨mid, aside, haside, hrest⟩ := executes_bind.mp hrest
  obtain ⟨rfl, hsame, hoffice⟩ := office_stepAside hleader hother haside
  obtain ⟨answer, last, hchange, hrest⟩ := executes_request_bind.mp hrest
  obtain ⟨⟨e, rfl⟩, hlast⟩ := change_of_follower hoffice hchange
  obtain ⟨hend, herror⟩ := hrest
  rw [hend, hlast, hsame]
  exact ⟨⟨e, herror⟩, rfl⟩

theorem office_removeMember_self (hleader : w.leader = self) (hself : self ∈ w.members.voters)
    (hother : ∃ v ∈ w.members.voters, v ≠ self)
    (h : Executes (officeAnswers self) (Runtime.removeMember self self) w w' result) :
    (∃ e, result = .error e) ∧ w'.members = w.members := by
  rw [Runtime.removeMember, Runtime.membershipView_bind] at h
  obtain ⟨metrics, hmembers, -, hrest⟩ := office_metrics_bind h
  obtain ⟨hisVoter, hisMember, hremaining⟩ := view_of_voter hmembers hself hother
  simp only [hisMember, Bool.not_true, Bool.false_eq_true, if_false] at hrest
  obtain ⟨mid, aside, haside, hrest⟩ := executes_bind.mp hrest
  obtain ⟨rfl, hsame, hoffice⟩ := office_stepAside hleader hother haside
  simp only [Runtime.demoteBeforeRemoval, hisVoter, if_true, hremaining] at hrest
  obtain ⟨answer, last, hchange, hrest⟩ := executes_request_bind.mp hrest
  obtain ⟨⟨e, rfl⟩, hlast⟩ := change_of_follower hoffice hchange
  obtain ⟨hend, herror⟩ := hrest
  rw [hend, hlast, hsame]
  exact ⟨⟨e, herror⟩, rfl⟩

/-! ## Two voters -/

def voterNode (peerId : String) : RaftNode := ⟨peerId, "key", "x25519"⟩

def pairOfVoters : Members where
  voters := .ofList [1, 2] compare
  nodes := ((∅ : BTreeMap NodeId RaftNode).insert 1 (voterNode "a")).insert 2 (voterNode "b")
  voters_known := by
    intro id hid
    rw [ExtTreeSet.mem_ofList] at hid
    rw [ExtTreeMap.mem_insert, ExtTreeMap.mem_insert]
    simp only [compare_eq_iff_eq]
    have hcases : id = 1 ∨ id = 2 := by simpa using hid
    rcases hcases with rfl | rfl
    · exact .inr (.inl rfl)
    · exact .inl rfl

theorem other_voters_demoted_and_removed_pair :
    ∃ w', Executes (officeAnswers 1) (Runtime.demoteVoter 1 2) ⟨pairOfVoters, 1⟩ w' (.ok ()) ∧
      2 ∈ w'.members.nodes ∧ 2 ∉ w'.members.voters := by
  obtain ⟨⟨⟨w', result, hrun⟩, hall⟩, -⟩ := other_voters_demoted_and_removed 1 2
    ⟨pairOfVoters, 1⟩ rfl (by decide) ⟨1, by decide, by decide⟩ (by decide)
  obtain ⟨rfl, hmember, hlearner, -⟩ := hall w' result hrun
  exact ⟨w', hrun, hmember, hlearner⟩

/-- The leader of two voters can neither demote nor remove itself, although the request and
the election succeed. -/
theorem leader_cannot_demote_or_remove_itself :
    (∃ w' e, Executes (officeAnswers 1) (Runtime.demoteVoter 1 1) ⟨pairOfVoters, 1⟩ w' (.error e) ∧
        w'.leader = 2 ∧ w'.members = pairOfVoters) ∧
      ∃ w' e, Executes (officeAnswers 1) (Runtime.removeMember 1 1) ⟨pairOfVoters, 1⟩ w'
        (.error e) ∧ w'.leader = 2 ∧ w'.members = pairOfVoters := by
  constructor
  · have hrun := executes_perform (officeAnswers_officeReply 1) (Runtime.demoteVoter 1 1)
      ⟨pairOfVoters, 1⟩
    obtain ⟨⟨e, herror⟩, hsame⟩ := office_demoteVoter_self rfl (by decide)
      ⟨2, by decide, by decide⟩ hrun
    rw [herror] at hrun
    exact ⟨_, e, hrun, by decide +kernel, hsame⟩
  · have hrun := executes_perform (officeAnswers_officeReply 1) (Runtime.removeMember 1 1)
      ⟨pairOfVoters, 1⟩
    obtain ⟨⟨e, herror⟩, hsame⟩ := office_removeMember_self rfl (by decide)
      ⟨2, by decide, by decide⟩ hrun
    rw [herror] at hrun
    exact ⟨_, e, hrun, by decide +kernel, hsame⟩

end NexusAuth.Raft
