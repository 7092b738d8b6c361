import NexusAuth.Raft.Runtime

/-!
# What the membership operations do

One specification for each operation of the runtime, over any surroundings that report a
change exactly when it was made (`faultyAnswers`): it returns Ok and has made its whole
change, or returns an error and has changed nothing.  Only `remove_member` can fail half
way, and it does not on a leader that runs nothing else.
-/

namespace NexusAuth.Raft

open NexusAuth.Lib.Interaction NexusAuth.Lib.OrderedMap
open Std (ExtTreeMap ExtTreeSet)

variable {m m' : Members} {metrics : RaftMetrics} {id : NodeId}

/-! ## Views -/

theorem mem_infos {info : MemberInfo} :
    info ∈ m.infos ↔
      ∃ node, m.nodes[info.nodeId]? = some node ∧ info = m.info info.nodeId node := by
  simp only [Members.infos, List.mem_map, Prod.exists]
  constructor
  · rintro ⟨id, node, hmem, rfl⟩
    exact ⟨node, ExtTreeMap.mem_toList_iff_getElem?_eq_some.mp hmem, rfl⟩
  · rintro ⟨node, hnode, heq⟩
    exact ⟨_, node, ExtTreeMap.mem_toList_iff_getElem?_eq_some.mpr hnode, heq.symm⟩

theorem mem_all_membershipView {info : MemberInfo} :
    info ∈ metrics.membershipView.all ↔ info ∈ metrics.members.infos := by
  simp only [MembershipView.all, RaftMetrics.membershipView, List.mem_append, List.mem_filter]
  cases info.voter <;> simp

theorem find_membershipView (metrics : RaftMetrics) (id : NodeId) :
    metrics.membershipView.find id =
      metrics.members.nodes[id]?.map (metrics.members.info id) := by
  cases hfind : metrics.membershipView.find id with
  | some info =>
      have hmem := mem_all_membershipView.mp (List.mem_of_find?_eq_some hfind)
      have hid : info.nodeId = id := by simpa using List.find?_some hfind
      obtain ⟨node, hnode, heq⟩ := mem_infos.mp hmem
      rw [hid] at hnode heq
      rw [hnode, heq, Option.map_some]
  | none =>
      rw [eq_comm, Option.map_eq_none_iff, Option.eq_none_iff_forall_ne_some]
      intro node hnode
      have hmem : metrics.members.info id node ∈ metrics.membershipView.all :=
        mem_all_membershipView.mpr (mem_infos.mpr ⟨node, hnode, rfl⟩)
      simpa [Members.info] using List.find?_eq_none.mp hfind _ hmem

theorem isMember_membershipView :
    metrics.membershipView.isMember id = true ↔ id ∈ metrics.members.nodes := by
  rw [MembershipView.isMember, find_membershipView, Option.isSome_map,
    ExtTreeMap.mem_iff_isSome_getElem?]

theorem mem_voters_membershipView :
    id ∈ metrics.membershipView.voters.map (fun member => member.nodeId) ↔
      id ∈ metrics.members.voters := by
  simp only [RaftMetrics.membershipView, List.mem_map, List.mem_filter, mem_infos]
  constructor
  · rintro ⟨info, ⟨⟨node, _, heq⟩, hvoter⟩, rfl⟩
    rw [heq] at hvoter
    simpa [Members.info] using hvoter
  · intro hid
    have hmem := metrics.members.voters_known id hid
    rw [ExtTreeMap.mem_iff_isSome_getElem?, Option.isSome_iff_exists] at hmem
    obtain ⟨node, hnode⟩ := hmem
    exact ⟨metrics.members.info id node,
      ⟨⟨node, hnode, rfl⟩, by simpa [Members.info] using hid⟩, rfl⟩

theorem isVoter_membershipView :
    metrics.membershipView.isVoter id = true ↔ id ∈ metrics.members.voters := by
  rw [← mem_voters_membershipView]
  simp [MembershipView.isVoter]

theorem ofList_voters_membershipView (metrics : RaftMetrics) :
    (.ofList (metrics.membershipView.voters.map fun member => member.nodeId) compare :
      BTreeSet NodeId) = metrics.members.voters := by
  apply ExtTreeSet.ext_mem
  intro id
  rw [ExtTreeSet.mem_ofList, List.contains_iff_mem, mem_voters_membershipView]

theorem remainingVoters_membershipView {remaining : BTreeSet NodeId}
    (h : Runtime.remainingVoters (metrics.membershipView.voters.map fun member => member.nodeId) id
      = .ok remaining) :
    remaining = metrics.members.voters.erase id ∧ remaining ≠ ∅ := by
  simp only [Runtime.remainingVoters] at h
  split at h
  · cases h
  · rename_i hne
    obtain rfl := Except.ok.inj h
    refine ⟨?_, fun heq => hne (ExtTreeSet.isEmpty_iff.mpr heq)⟩
    apply ExtTreeSet.ext_mem
    intro voter
    rw [ExtTreeSet.mem_ofList, List.contains_iff_mem, List.mem_filter, mem_voters_membershipView,
      ExtTreeSet.mem_erase, and_comm]
    simp only [bne_iff_ne, ne_eq, compare_eq_iff_eq, and_congr_left_iff]
    exact fun _ => not_congr eq_comm

theorem erase_eq_self {voters : BTreeSet NodeId} (h : id ∉ voters) : voters.erase id = voters := by
  apply ExtTreeSet.ext_mem
  intro voter
  rw [ExtTreeSet.mem_erase]
  constructor
  · exact fun hmem => hmem.2
  · refine fun hmem => ⟨fun heq => h ?_, hmem⟩
    rwa [Std.LawfulEqCmp.eq_of_compare heq]

/-! ## Changes -/

/-- openraft does not replace the entry of a node that is already there. -/
theorem accept_addNodes_of_mem {node : RaftNode} (h : id ∈ m.nodes) :
    m.accept (.addNodes id node) = some m := by
  have hnodes : m.nodes.insertIfNew id node = m.nodes := by
    apply ExtTreeMap.ext_getElem?
    intro a
    rw [ExtTreeMap.getElem?_insertIfNew, if_neg fun hnew => hnew.2 h]
  simp only [Members.accept, hnodes]

theorem accept_addNodes {node : RaftNode} (h : m.accept (.addNodes id node) = some m') :
    m'.voters = m.voters ∧ m'.nodes = m.nodes.insertIfNew id node := by
  obtain rfl := Option.some.inj h
  exact ⟨rfl, rfl⟩

theorem accept_replaceVoters {voters : BTreeSet NodeId}
    (h : m.accept (.replaceVoters voters) = some m') :
    m'.voters = voters ∧ m'.nodes = m.nodes := by
  simp only [Members.accept] at h
  split at h
  · obtain rfl := Option.some.inj h
    exact ⟨rfl, rfl⟩
  · cases h

theorem accept_removeNodes (h : m.accept (.removeNodes id) = some m') :
    id ∉ m.voters ∧ m'.voters = m.voters ∧ m'.nodes = m.nodes.erase id := by
  simp only [Members.accept] at h
  split at h
  · cases h
  · rename_i hid
    obtain rfl := Option.some.inj h
    exact ⟨hid, rfl, rfl⟩

theorem accept_removeNodes_ne_none (h : id ∉ m.voters) : m.accept (.removeNodes id) ≠ none := by
  simp [Members.accept, h]

/-! ## Programs that only read -/

def RuntimeCall.Reads : RuntimeCall → Prop
  | .change _ => False
  | _ => True

theorem eq_of_reads (m : Members) (q : RuntimeCall) (answer : RuntimeAnswer q) (m' : Members)
    (hq : q.Reads) (h : faultyAnswers m q answer m') : m' = m := by
  cases q with
  | metrics => exact h.2
  | change change => exact hq.elim
  | _ => exact h

theorem asks_refresh : Asks RuntimeCall.Reads Runtime.refreshVerifierFromMetrics := by
  refine asks_request_bind.mpr ⟨trivial, fun metrics => ?_⟩
  dsimp only
  split
  · trivial
  · exact ⟨trivial, fun _ => trivial⟩

theorem asks_sendElect (target : NodeId) : Asks RuntimeCall.Reads (Runtime.sendElect target) := by
  rw [Runtime.sendElect, Runtime.memberNode_bind]
  refine asks_request_bind.mpr ⟨trivial, fun metrics => ?_⟩
  split
  · trivial
  · exact ⟨trivial, fun _ => trivial⟩

theorem asks_transferLeaderAway (self : NodeId) :
    Asks RuntimeCall.Reads (Runtime.transferLeaderAway self) := by
  rw [Runtime.transferLeaderAway, Runtime.membershipView_bind]
  refine asks_request_bind.mpr ⟨trivial, fun metrics => ?_⟩
  split
  · trivial
  · apply (asks_sendElect _).bind
    intro result
    cases result with
    | error e => trivial
    | ok value =>
        refine asks_request_bind.mpr ⟨trivial, fun elected => ?_⟩
        split <;> trivial

theorem asks_stepAside (self id : NodeId) : Asks RuntimeCall.Reads (Runtime.stepAside self id) := by
  rw [Runtime.stepAside]
  split
  · rw [Runtime.isLeader_bind]
    refine asks_request_bind.mpr ⟨trivial, fun metrics => ?_⟩
    split
    · exact asks_transferLeaderAway self
    · trivial
  · trivial

/-! ## Specifications -/

theorem executes_refresh {u : Unit}
    (h : Executes faultyAnswers Runtime.refreshVerifierFromMetrics m m' u) : m' = m :=
  h.eq_of_asks asks_refresh eq_of_reads

theorem executes_refresh_ok {α : Type} {value : α} {result : Except String α}
    (h : Executes faultyAnswers
      (do Runtime.refreshVerifierFromMetrics; return .ok value) m m' result) :
    m' = m ∧ result = .ok value := by
  obtain ⟨mid, u, href, hdone⟩ := executes_bind.mp h
  obtain ⟨rfl, rfl⟩ := hdone
  exact ⟨executes_refresh href, rfl⟩

theorem executes_change_refresh {change : Change} {result : Except String Unit}
    {f : Except String Unit → RuntimeM (Except String Unit)}
    (h : Executes faultyAnswers (Runtime.ask (.change change) >>= f) m m' result)
    (herror : ∀ e, f (.error e) = .done (.error e))
    (hok : f (.ok ()) = do Runtime.refreshVerifierFromMetrics; return .ok ()) :
    (result = .ok () ∧ m.accept change = some m') ∨ (result.isOk = false ∧ m' = m) := by
  obtain ⟨answer, mid, hans, h⟩ := executes_request_bind.mp h
  cases answer with
  | error e =>
      rw [herror] at h
      obtain ⟨rfl, rfl⟩ := h
      exact .inr ⟨rfl, hans⟩
  | ok value =>
      rw [hok] at h
      obtain ⟨rfl, rfl⟩ := executes_refresh_ok h
      exact .inl ⟨rfl, hans⟩

/-- A blocking `add_learner` of a member changes nothing. -/
theorem executes_addLearner_blocking {node : RaftNode} {result : Except String Unit}
    (hid : id ∈ m.nodes)
    (h : Executes faultyAnswers (Runtime.addLearner id node true) m m' result) : m' = m := by
  rw [Runtime.addLearner] at h
  obtain ⟨answer, mid, hans, hrest⟩ := executes_request_bind.mp h
  cases answer with
  | error e =>
      obtain ⟨rfl, _⟩ := hrest
      exact hans
  | ok value =>
      have hmid : mid = m := Option.some.inj (hans.symm.trans (accept_addNodes_of_mem hid))
      obtain ⟨caught, mid', hcatch, rfl, _⟩ := hrest
      exact hcatch.trans hmid

structure Members.Added (m m' : Members) (id : NodeId) (node : RaftNode) : Prop where
  fresh : id ∉ m.nodes
  voters : m'.voters = m.voters
  nodes : m'.nodes = m.nodes.insertIfNew id node

structure Members.Promoted (m m' : Members) (id : NodeId) : Prop where
  known : id ∈ m.nodes
  learner : id ∉ m.voters
  voters : m'.voters = m.voters.insert id
  nodes : m'.nodes = m.nodes

/-- `id` was a voter, not the only one, and has become a learner. -/
structure Members.Demoted (m m' : Members) (id : NodeId) : Prop where
  voter : id ∈ m.voters
  voters : m'.voters = m.voters.erase id
  nodes : m'.nodes = m.nodes

structure Members.Removed (m m' : Members) (id : NodeId) : Prop where
  known : id ∈ m.nodes
  voters : m'.voters = m.voters.erase id
  nodes : m'.nodes = m.nodes.erase id

theorem executes_addLearnerNode {node : RaftNode} {result : Except String MemberInfo}
    (h : Executes faultyAnswers (Runtime.addLearnerNode id node) m m' result) :
    (result.isOk = true ∧ m.Added m' id node) ∨ (result.isOk = false ∧ m' = m) := by
  rw [Runtime.addLearnerNode, Runtime.membershipView_bind] at h
  obtain ⟨metrics, mid, ⟨rfl, rfl⟩, h⟩ := executes_request_bind.mp h
  split at h
  · obtain ⟨rfl, rfl⟩ := h
    exact .inr ⟨rfl, rfl⟩
  rename_i hfresh
  rw [isMember_membershipView] at hfresh
  split at h
  · obtain ⟨rfl, rfl⟩ := h
    exact .inr ⟨rfl, rfl⟩
  rw [Runtime.addLearner] at h
  obtain ⟨answer, mid, hans, h⟩ := executes_request_bind.mp h
  cases answer with
  | error e =>
      obtain ⟨rfl, rfl⟩ := h
      exact .inr ⟨rfl, hans⟩
  | ok value =>
      obtain ⟨rfl, rfl⟩ := executes_refresh_ok h
      obtain ⟨hvoters, hnodes⟩ := accept_addNodes hans
      exact .inl ⟨rfl, hfresh, hvoters, hnodes⟩

theorem executes_promoteVoter {result : Except String Unit}
    (h : Executes faultyAnswers (Runtime.promoteVoter id) m m' result) :
    (result = .ok () ∧ m.Promoted m' id) ∨ (result.isOk = false ∧ m' = m) := by
  rw [Runtime.promoteVoter, Runtime.membershipView_bind] at h
  obtain ⟨metrics, mid, ⟨rfl, rfl⟩, h⟩ := executes_request_bind.mp h
  split at h
  · obtain ⟨rfl, rfl⟩ := h
    exact .inr ⟨rfl, rfl⟩
  rename_i hlearner
  rw [isVoter_membershipView] at hlearner
  split at h
  · obtain ⟨rfl, rfl⟩ := h
    exact .inr ⟨rfl, rfl⟩
  rename_i member hfind
  have hknown : id ∈ metrics.members.nodes :=
    isMember_membershipView.mp (by rw [MembershipView.isMember, hfind, Option.isSome_some])
  obtain ⟨mid, added, hadd, h⟩ := executes_bind.mp h
  obtain rfl := executes_addLearner_blocking hknown hadd
  cases added with
  | error e =>
      obtain ⟨rfl, rfl⟩ := h
      exact .inr ⟨rfl, rfl⟩
  | ok value =>
      obtain ⟨rfl, haccept⟩ | hrefused := executes_change_refresh h (fun _ => rfl) rfl
      · obtain ⟨hvoters, hnodes⟩ := accept_replaceVoters haccept
        rw [ofList_voters_membershipView] at hvoters
        exact .inl ⟨rfl, hknown, hlearner, hvoters, hnodes⟩
      · exact .inr hrefused

theorem executes_demoteVoter {self : NodeId} {result : Except String Unit}
    (h : Executes faultyAnswers (Runtime.demoteVoter self id) m m' result) :
    (result = .ok () ∧ m.Demoted m' id) ∨ (result.isOk = false ∧ m' = m) := by
  rw [Runtime.demoteVoter, Runtime.membershipView_bind] at h
  obtain ⟨metrics, mid, ⟨rfl, rfl⟩, h⟩ := executes_request_bind.mp h
  split at h
  · obtain ⟨rfl, rfl⟩ := h
    exact .inr ⟨rfl, rfl⟩
  rename_i hvoter
  rw [Bool.not_eq_true', Bool.not_eq_false, isVoter_membershipView] at hvoter
  split at h
  · obtain ⟨rfl, rfl⟩ := h
    exact .inr ⟨rfl, rfl⟩
  rename_i remaining hremaining
  obtain ⟨rfl, _⟩ := remainingVoters_membershipView hremaining
  obtain ⟨mid, aside, haside, h⟩ := executes_bind.mp h
  obtain rfl := haside.eq_of_asks (asks_stepAside _ _) eq_of_reads
  cases aside with
  | error e =>
      obtain ⟨rfl, rfl⟩ := h
      exact .inr ⟨rfl, rfl⟩
  | ok value =>
      obtain ⟨rfl, haccept⟩ | hrefused := executes_change_refresh h (fun _ => rfl) rfl
      · obtain ⟨hvoters, hnodes⟩ := accept_replaceVoters haccept
        exact .inl ⟨rfl, hvoter, hvoters, hnodes⟩
      · exact .inr hrefused

section Removal

variable {answers : Members → (q : RuntimeCall) → RuntimeAnswer q → Members → Prop}
  (hsub : ∀ m q a m', answers m q a m' → faultyAnswers m q a m')
include hsub

theorem executes_demoteBeforeRemoval {result : Except String Unit}
    (h : Executes answers (Runtime.demoteBeforeRemoval metrics.membershipView id) metrics.members m'
      result) :
    (result = .ok () ∧
      ((id ∉ metrics.members.voters ∧ m' = metrics.members) ∨ metrics.members.Demoted m' id)) ∨
    (result.isOk = false ∧ m' = metrics.members) := by
  rw [Runtime.demoteBeforeRemoval] at h
  split at h
  · rename_i hvoter
    rw [isVoter_membershipView] at hvoter
    split at h
    · obtain ⟨rfl, rfl⟩ := h
      exact .inr ⟨rfl, rfl⟩
    rename_i remaining hremaining
    obtain ⟨rfl, _⟩ := remainingVoters_membershipView hremaining
    obtain ⟨_, _, hans, rfl, rfl⟩ := h
    cases result with
    | error e => exact .inr ⟨rfl, hsub _ _ _ _ hans⟩
    | ok value =>
        obtain ⟨hvoters, hnodes⟩ := accept_replaceVoters (hsub _ _ _ _ hans)
        exact .inl ⟨rfl, .inr ⟨hvoter, hvoters, hnodes⟩⟩
  · rename_i hvoter
    rw [isVoter_membershipView] at hvoter
    obtain ⟨rfl, rfl⟩ := h
    exact .inl ⟨rfl, .inl ⟨hvoter, rfl⟩⟩

theorem executes_removeLearner {result : Except String Unit} (hknown : id ∈ m.nodes)
    (h : Executes answers (Runtime.removeLearner id) m m' result) :
    (result = .ok () ∧ m.accept (.removeNodes id) = some m') ∨
    (result.isOk = false ∧ m' = m ∧ ∃ e, answers m (.change (.removeNodes id)) (.error e) m) := by
  rw [Runtime.removeLearner, Runtime.memberNode_bind] at h
  obtain ⟨metrics, mid, hmetrics, h⟩ := executes_request_bind.mp h
  obtain ⟨rfl, rfl⟩ := hsub _ _ _ _ hmetrics
  split at h
  · rename_i hnone
    rw [ExtTreeMap.mem_iff_isSome_getElem?, hnone] at hknown
    cases hknown
  · obtain ⟨_, _, hans, rfl, rfl⟩ := h
    cases result with
    | error e =>
        obtain rfl := hsub _ _ _ _ hans
        exact .inr ⟨rfl, rfl, e, hans⟩
    | ok value => exact .inl ⟨rfl, hsub _ _ _ _ hans⟩

/-- A removal that was refused after the demotion leaves the node as a learner. -/
theorem executes_removeMember {self : NodeId} {result : Except String Unit}
    (h : Executes answers (Runtime.removeMember self id) m m' result) :
    (result = .ok () ∧ m.Removed m' id) ∨ (result.isOk = false ∧ m' = m) ∨
    (result.isOk = false ∧ m.Demoted m' id ∧
      ∃ e, answers m' (.change (.removeNodes id)) (.error e) m') := by
  rw [Runtime.removeMember, Runtime.membershipView_bind] at h
  obtain ⟨metrics, mid, hmetrics, h⟩ := executes_request_bind.mp h
  obtain ⟨rfl, rfl⟩ := hsub _ _ _ _ hmetrics
  split at h
  · obtain ⟨rfl, rfl⟩ := h
    exact .inr (.inl ⟨rfl, rfl⟩)
  rename_i hknown
  rw [Bool.not_eq_true', Bool.not_eq_false, isMember_membershipView] at hknown
  obtain ⟨mid, aside, haside, h⟩ := executes_bind.mp h
  obtain rfl := (haside.mono hsub).eq_of_asks (asks_stepAside _ _) eq_of_reads
  cases aside with
  | error e =>
      obtain ⟨rfl, rfl⟩ := h
      exact .inr (.inl ⟨rfl, rfl⟩)
  | ok value =>
  obtain ⟨mid, demoted, hdemoted, h⟩ := executes_bind.mp h
  obtain ⟨rfl, hmid⟩ | ⟨herr, rfl⟩ := executes_demoteBeforeRemoval hsub hdemoted
  swap
  · cases demoted with
    | ok value => cases herr
    | error e =>
        obtain ⟨rfl, rfl⟩ := h
        exact .inr (.inl ⟨rfl, rfl⟩)
  have hnodes : mid.nodes = metrics.members.nodes := by
    obtain ⟨_, rfl⟩ | hdem := hmid
    · rfl
    · exact hdem.nodes
  have hvoters : mid.voters = metrics.members.voters.erase id := by
    obtain ⟨hnot, rfl⟩ | hdem := hmid
    · exact (erase_eq_self hnot).symm
    · exact hdem.voters
  obtain ⟨last, removed, hremoved, h⟩ := executes_bind.mp h
  obtain ⟨rfl, haccept⟩ | ⟨herr, rfl, hrefused⟩ :=
    executes_removeLearner hsub (hnodes ▸ hknown) hremoved
  · obtain ⟨rfl, rfl⟩ := executes_refresh_ok (h.mono hsub)
    obtain ⟨_, hvoters', hnodes'⟩ := accept_removeNodes haccept
    exact .inl ⟨rfl, hknown, hvoters'.trans hvoters, hnodes'.trans (by rw [hnodes])⟩
  · cases removed with
    | ok value => cases herr
    | error e =>
        obtain ⟨rfl, rfl⟩ := h
        obtain ⟨_, rfl⟩ | hdem := hmid
        · exact .inr (.inl ⟨rfl, rfl⟩)
        · exact .inr (.inr ⟨rfl, hdem, hrefused⟩)

end Removal

/-- On a leader that runs nothing else, the second change of a removal is not refused. -/
theorem executes_removeMember_leader {self : NodeId} {result : Except String Unit}
    (h : Executes (leaderAnswers self) (Runtime.removeMember self id) m m' result) :
    (result = .ok () ∧ m.Removed m' id) ∨ (result.isOk = false ∧ m' = m) := by
  obtain hok | hsame | ⟨_, hdem, e, hrefused, _⟩ :=
    executes_removeMember (fun _ _ _ _ => faultyAnswers_of_leaderAnswers) h
  · exact .inl hok
  · exact .inr hsame
  · have hnot : id ∉ m'.voters := by
      rw [hdem.voters, ExtTreeSet.mem_erase]
      simp
    exact absurd hrefused (accept_removeNodes_ne_none hnot)

end NexusAuth.Raft
