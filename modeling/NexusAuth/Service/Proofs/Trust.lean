import NexusAuth.Raft.Proofs.Joins
import NexusAuth.Raft.Proofs.Operations
import NexusAuth.Raft.Membership
import NexusAuth.Raft.Startup
import NexusAuth.Service.Members

/-!
# The table of keys follows the membership

Every membership operation that succeeds ends by replacing the table of the `RpcVerifier`
with the membership that the metrics show.  `replace_nodes` takes all keys or none, and its
error is ignored.  As long as every identity key that enters the membership parses, the
table is therefore exactly the membership after each call, and a restart rebuilds it.
-/

namespace NexusAuth.Service

open Std (ExtTreeMap ExtTreeSet)
open NexusAuth.Authority NexusAuth.Lib.Interaction NexusAuth.Lib.OrderedMap
open NexusAuth.Lib.Results NexusAuth.Raft

/-! ## What a run is -/

abbrev TrustWorld := Members × RpcVerifier

/-- The answers of openraft, which makes no change while there are no voters, and what
`replace_nodes` does to the table. -/
def trustAnswers (crypto : Crypto) (w : TrustWorld) :
    (q : RuntimeCall) → RuntimeAnswer q → TrustWorld → Prop
  | .replaceNodes nodes, _, w' => w' = (w.1, (w.2.replaceNodes crypto nodes).toOption.getD w.2)
  | q, answer, w' =>
      faultyAnswers w.1 q answer w'.1 ∧ (w.1.voters = ∅ → w'.1 = w.1) ∧ w'.2 = w.2

inductive Succeeds (crypto : Crypto) (self : NodeId) :
    TrustWorld → List MemberOp → TrustWorld → Prop
  | nil (w : TrustWorld) : Succeeds crypto self w [] w
  | snoc {w w' w'' : TrustWorld} {ops : List MemberOp} {op : MemberOp}
      (hrun : Succeeds crypto self w ops w')
      (h : Executes (trustAnswers crypto) (op.program self) w' w'' (.ok ())) :
      Succeeds crypto self w (ops ++ [op]) w''

def KeyParses (crypto : Crypto) (identityKey : String) : Prop :=
  ∃ key, parseVerifyingKey crypto identityKey = .ok key

/-- An addition takes its node from a verified join request, or from the specification of
an administrator; in the second case nothing else has looked at the identity key. -/
inductive Vetted (crypto : Crypto) : MemberOp → Prop
  | join {req : RaftJoinRequest} {keys : AdminVerifier} {clusterId network : String} {now : Nat}
      {allowed : List String} (h : req.verify crypto keys clusterId network now allowed = .ok ()) :
      Vetted crypto (.addLearnerNode req.nodeId ⟨req.peerId, req.identityKey, req.x25519Key⟩)
  | spec {spec : AdminMemberSpec} {id : NodeId} {node : RaftNode}
      (hid : memberNodeId crypto.toPrimitives spec = .ok id)
      (hnode : nodeFromSpec crypto.toPrimitives spec true = .ok node)
      (hkey : KeyParses crypto node.identityKey) : Vetted crypto (.addLearnerNode id node)
  | promote {id : NodeId} : Vetted crypto (.promoteVoter id)
  | demote {id : NodeId} : Vetted crypto (.demoteVoter id)
  | remove {id : NodeId} : Vetted crypto (.removeMember id)

/-- The table has the keys of the members and no others. -/
structure Trusts (crypto : Crypto) (m : Members) (verifier : RpcVerifier) : Prop where
  member : ∀ (id : NodeId) (node : RaftNode), m.nodes[id]? = some node →
    ∃ key, parseVerifyingKey crypto node.identityKey = .ok key ∧ verifier.keys[id]? = some key
  other : ∀ id : NodeId, m.nodes[id]? = none → verifier.keys[id]? = none

def KeysParse (crypto : Crypto) (nodes : BTreeMap NodeId RaftNode) : Prop :=
  ∀ (id : NodeId) (node : RaftNode), nodes[id]? = some node → KeyParses crypto node.identityKey

variable {crypto : Crypto} {m m' : Members} {verifier verifier' : RpcVerifier}
  {nodes : BTreeMap NodeId RaftNode}

theorem Trusts.keys_eq (h : Trusts crypto m verifier) (h' : Trusts crypto m verifier') :
    verifier'.keys = verifier.keys := by
  apply ExtTreeMap.ext_getElem?
  intro id
  cases hid : m.nodes[id]? with
  | none => rw [h.other id hid, h'.other id hid]
  | some node =>
      obtain ⟨key, hkey, hlookup⟩ := h.member id node hid
      obtain ⟨key', hkey', hlookup'⟩ := h'.member id node hid
      rw [hlookup, hlookup', Except.ok.inj (hkey.symm.trans hkey')]

theorem KeysParse.insert {id : NodeId} {node : RaftNode} (h : KeysParse crypto nodes)
    (hnode : KeyParses crypto node.identityKey) : KeysParse crypto (nodes.insert id node) := by
  intro id' node' hid
  rw [ExtTreeMap.getElem?_insert] at hid
  split at hid
  · obtain rfl := Option.some.inj hid
    exact hnode
  · exact h id' node' hid

theorem KeysParse.insertIfNew {id : NodeId} {node : RaftNode} (h : KeysParse crypto nodes)
    (hnode : KeyParses crypto node.identityKey) : KeysParse crypto (nodes.insertIfNew id node) := by
  intro id' node' hid
  rw [ExtTreeMap.getElem?_insertIfNew] at hid
  split at hid
  · obtain rfl := Option.some.inj hid
    exact hnode
  · exact h id' node' hid

/-! ## Who is believed -/

theorem Trusts.rejects_other {codec : RpcCodec} {envelope : RaftRpcEnvelope}
    (h : Trusts crypto m verifier) (hsender : m.nodes[envelope.sender]? = none)
    (accepted : NodeId × RaftRpcBody) :
    verifier.verifyRequest crypto codec envelope ≠ .ok accepted := by
  intro hverify
  simp only [RpcVerifier.verifyRequest, h.other _ hsender] at hverify
  split at hverify
  · cases hverify
  split at hverify
  · cases hverify
  split at hverify
  all_goals cases hverify

theorem Trusts.accepts_member {codec : RpcCodec} {envelope : RaftRpcEnvelope} {id : NodeId}
    {node : RaftNode} {identity : Bytes} {body : RaftRpcBody} (hlawful : crypto.Lawful)
    (hcodec : codec.Lossless) (h : Trusts crypto m verifier) (hid : m.nodes[id]? = some node)
    (hkey : parseVerifyingKey crypto node.identityKey = .ok (crypto.edPublic identity))
    (hsent : encodeRequest crypto codec identity verifier.clusterId id verifier.localId body =
      .ok envelope) :
    verifier.verifyRequest crypto codec envelope = .ok (id, body) := by
  simp only [encodeRequest, bind_eq_ok, mapError_eq_ok, pure_eq_ok] at hsent
  obtain ⟨bytes, hbytes, rfl⟩ := hsent
  obtain ⟨key, hkey', hlookup⟩ := h.member id node hid
  obtain rfl := Except.ok.inj (hkey'.symm.trans hkey)
  simp only [RpcVerifier.verifyRequest, signB64, hlookup, hlawful.unbase64Url_base64Url,
    hlawful.edVerify_edSign, hcodec body bytes hbytes, ne_eq, not_true_eq_false, if_false, if_true]

/-! ## Replacing the table -/

/-- If `g` is the key of every listed node, the loop of `replace_nodes` writes `g`. -/
theorem parseNodes_spec {entries : List (NodeId × String)} {parsed : BTreeMap NodeId Bytes}
    {g : NodeId → Option Bytes}
    (h : ∀ entry ∈ entries, ∃ key, parseVerifyingKey crypto entry.2 = .ok key ∧
      g entry.1 = some key) :
    ∃ keys, RpcVerifier.parseNodes crypto parsed entries = .ok keys ∧
      ∀ id, keys[id]? = if id ∈ entries.map Prod.fst then g id else parsed[id]? := by
  induction entries generalizing parsed with
  | nil => exact ⟨parsed, rfl, fun id => by simp⟩
  | cons entry entries ih =>
      obtain ⟨key, hkey, hg⟩ := h entry (by simp)
      obtain ⟨keys, hkeys, hlookup⟩ :=
        @ih (parsed.insert entry.1 key) fun e he => h e (List.mem_cons_of_mem _ he)
      refine ⟨keys, ?_, fun id => ?_⟩
      · simp only [RpcVerifier.parseNodes, hkey]
        exact hkeys
      · rw [hlookup, ExtTreeMap.getElem?_insert, List.map_cons]
        by_cases hid : id = entry.1
        · subst hid
          simp [hg]
        · have hne : compare entry.1 id ≠ .eq := fun heq => hid (compare_eq_iff_eq.mp heq).symm
          simp only [List.mem_cons, hid, false_or, if_neg hne]

theorem mem_collected {id : NodeId} :
    id ∈ (nodes.toList.map fun (id, node) => (id, RaftNode.identityKey node)).map Prod.fst ↔
      id ∈ nodes := by
  rw [List.map_map, ← ExtTreeMap.mem_keys, ← ExtTreeMap.map_fst_toList_eq_keys]
  exact Iff.rfl

theorem collected_ne_nil (hvoters : m.voters ≠ ∅) : m.nodes.toList ≠ [] := by
  intro hnil
  apply hvoters
  apply ExtTreeSet.ext_mem
  intro id
  refine ⟨fun hid => ?_, fun hid => by simp at hid⟩
  have hknown := mem_collected.mpr (m.voters_known id hid)
  simp [hnil] at hknown

theorem refreshed_trusts (hkeys : KeysParse crypto m.nodes) (hvoters : m.voters ≠ ∅) :
    Trusts crypto m (verifier.refreshed crypto m) := by
  set entries := m.nodes.toList.map fun (id, node) => (id, RaftNode.identityKey node)
    with hentries
  set g : NodeId → Option Bytes := fun id => m.nodes[id]?.bind fun node =>
    (parseVerifyingKey crypto node.identityKey).toOption with hg
  have hparsed : ∀ entry ∈ entries, ∃ key, parseVerifyingKey crypto entry.2 = .ok key ∧
      g entry.1 = some key := by
    intro entry hentry
    obtain ⟨⟨id, node⟩, hmem, rfl⟩ := List.mem_map.mp hentry
    have hlookup := ExtTreeMap.mem_toList_iff_getElem?_eq_some.mp hmem
    obtain ⟨key, hkey⟩ := hkeys id node hlookup
    exact ⟨key, hkey, by simp [hg, hlookup, hkey, Except.toOption]⟩
  obtain ⟨keys, hreplaced, hlookup⟩ := @parseNodes_spec crypto entries ∅ g hparsed
  have hne : entries.isEmpty = false := by
    rw [hentries, List.isEmpty_map, List.isEmpty_eq_false_iff]
    exact collected_ne_nil hvoters
  have hrefreshed : (verifier.refreshed crypto m).keys = keys := by
    rw [RpcVerifier.refreshed, ← hentries]
    simp only [hne, RpcVerifier.replaceNodes, hreplaced]
    rfl
  refine ⟨fun id node hid => ?_, fun id hid => ?_⟩
  · obtain ⟨key, hkey⟩ := hkeys id node hid
    have hmem : id ∈ entries.map Prod.fst :=
      mem_collected.mpr (ExtTreeMap.getElem?_eq_some_iff.mp hid).fst
    refine ⟨key, hkey, ?_⟩
    rw [hrefreshed, hlookup, if_pos hmem]
    simp [hg, hid, hkey, Except.toOption]
  · have hmem : id ∉ entries.map Prod.fst := by
      rw [mem_collected, ExtTreeMap.mem_iff_isSome_getElem?, hid]
      exact Bool.false_ne_true
    rw [hrefreshed, hlookup, if_neg hmem]
    exact ExtTreeMap.getElem?_empty

/-! ## One call -/

theorem faulty_of_trustAnswers {w w' : TrustWorld} {q : RuntimeCall} {answer : RuntimeAnswer q}
    (h : trustAnswers crypto w q answer w') : faultyAnswers w.1 q answer w'.1 := by
  cases q with
  | replaceNodes entries =>
      obtain rfl : w' = _ := h
      rfl
  | _ => exact h.1

theorem same_of_no_voters {w w' : TrustWorld} {q : RuntimeCall} {answer : RuntimeAnswer q}
    (h : trustAnswers crypto w q answer w') (hvoters : w.1.voters = ∅) : w'.1 = w.1 := by
  cases q with
  | replaceNodes entries =>
      obtain rfl : w' = _ := h
      rfl
  | _ => exact h.2.1 hvoters

theorem accept_voters_ne_empty {change : Change} (h : m.accept change = some m')
    (hvoters : m.voters ≠ ∅) : m'.voters ≠ ∅ := by
  cases change with
  | addNodes id node => exact (accept_addNodes h).1 ▸ hvoters
  | removeNodes id => exact (accept_removeNodes h).2.1 ▸ hvoters
  | replaceVoters voters =>
      have hnew := h
      simp only [Members.accept] at hnew
      split at hnew
      · rename_i hvalid
        exact (accept_replaceVoters h).1 ▸ hvalid.1
      · cases hnew

theorem voters_ne_empty_of_answer {q : RuntimeCall} {answer : RuntimeAnswer q}
    (hvoters : m.voters ≠ ∅) (h : faultyAnswers m q answer m') : m'.voters ≠ ∅ := by
  cases q with
  | change change =>
      cases answer with
      | ok u => exact accept_voters_ne_empty h hvoters
      | error e => exact h ▸ hvoters
  | metrics => exact h.2 ▸ hvoters
  | _ => exact h ▸ hvoters

def Acts (m m' : Members) : MemberOp → Prop
  | .addLearnerNode id node => m.Added m' id node
  | .promoteVoter id => m.Promoted m' id
  | .demoteVoter id => m.Demoted m' id
  | .removeMember id => m.Removed m' id

theorem acts_of_executes {self : NodeId} {op : MemberOp}
    (h : Executes faultyAnswers (op.program self) m m' (.ok ())) : Acts m m' op := by
  cases op with
  | addLearnerNode id node =>
      obtain ⟨mid, result, hadd, rfl, hresult⟩ := executes_bind.mp h
      obtain ⟨_, hacts⟩ | ⟨herr, _⟩ := executes_addLearnerNode hadd
      · exact hacts
      · cases result with
        | error e => cases hresult
        | ok info => cases herr
  | promoteVoter id =>
      obtain ⟨_, hacts⟩ | ⟨herr, _⟩ := executes_promoteVoter h
      · exact hacts
      · cases herr
  | demoteVoter id =>
      obtain ⟨_, hacts⟩ | ⟨herr, _⟩ := executes_demoteVoter h
      · exact hacts
      · cases herr
  | removeMember id =>
      obtain ⟨_, hacts⟩ | ⟨herr, _⟩ | ⟨herr, _⟩ := executes_removeMember (fun _ _ _ _ h => h) h
      · exact hacts
      · cases herr
      · cases herr

theorem Acts.ne {op : MemberOp} (h : Acts m m' op) : m' ≠ m := by
  rintro rfl
  cases op with
  | addLearnerNode id node =>
      apply h.fresh
      rw [h.nodes, ExtTreeMap.mem_insertIfNew]
      exact .inl Std.ReflCmp.compare_self
  | promoteVoter id =>
      apply h.learner
      rw [h.voters, ExtTreeSet.mem_insert]
      exact .inl Std.ReflCmp.compare_self
  | demoteVoter id =>
      have hvoter := h.voter
      rw [h.voters, ExtTreeSet.mem_erase] at hvoter
      exact hvoter.1 Std.ReflCmp.compare_self
  | removeMember id =>
      have hknown := h.known
      rw [h.nodes, ExtTreeMap.mem_erase] at hknown
      exact hknown.1 Std.ReflCmp.compare_self

theorem Vetted.keyParses {id : NodeId} {node : RaftNode}
    (h : Vetted crypto (.addLearnerNode id node)) : KeyParses crypto node.identityKey := by
  cases h with
  | spec hid hnode hkey => exact hkey
  | join hverify =>
      obtain ⟨identity, _, _, hidentity, _⟩ := (RaftJoinRequest.sound_of_verify hverify).signed
      simp only [parseIdentity, bind_eq_ok, okOr_eq_ok, ensure_eq_ok, decide_eq_true_eq,
        pure_eq_ok, exists_and_left, exists_const] at hidentity
      obtain ⟨raw, hraw, hparses, rfl⟩ := hidentity
      exact ⟨raw, by simp [parseVerifyingKey, hraw, hparses]⟩

theorem Acts.keysParse {op : MemberOp} (h : Acts m m' op) (hvet : Vetted crypto op)
    (hkeys : KeysParse crypto m.nodes) : KeysParse crypto m'.nodes := by
  cases op with
  | addLearnerNode id node => exact h.nodes ▸ hkeys.insertIfNew hvet.keyParses
  | promoteVoter id => exact h.nodes ▸ hkeys
  | demoteVoter id => exact h.nodes ▸ hkeys
  | removeMember id =>
      intro id' node' hid
      rw [h.nodes, ExtTreeMap.getElem?_erase] at hid
      split at hid
      · cases hid
      · exact hkeys id' node' hid

/-! ## The last step of a call -/

/-- Whenever the program returns Ok, it has just refreshed the table. -/
def Refreshes {α : Type} (crypto : Crypto) (p : RuntimeM (Except String α)) : Prop :=
  ∀ (w w' : TrustWorld) (value : α), Executes (trustAnswers crypto) p w w' (.ok value) →
    ∃ verifier : RpcVerifier, w'.2 = verifier.refreshed crypto w'.1

section Refreshes

variable {α β : Type}

theorem refreshes_error {e : String} :
    Refreshes crypto (.done (.error e) : RuntimeM (Except String α)) := by
  rintro w w' value ⟨_, hvalue⟩
  cases hvalue

theorem Refreshes.bind {p : RuntimeM β} {f : β → RuntimeM (Except String α)}
    (hf : ∀ b, Refreshes crypto (f b)) : Refreshes crypto (p >>= f) := by
  intro w w' value h
  obtain ⟨mid, b, _, hrest⟩ := executes_bind.mp h
  exact hf b mid w' value hrest

theorem Refreshes.attempt {p : RuntimeM (Except String Unit)}
    {f : Except String Unit → RuntimeM (Except String α)}
    (herror : ∀ e, f (.error e) = .done (.error e)) (hok : Refreshes crypto (f (.ok ()))) :
    Refreshes crypto (p >>= f) := by
  refine Refreshes.bind fun result => ?_
  cases result with
  | error e => exact herror e ▸ refreshes_error
  | ok u => exact hok

theorem executes_refresh_trust {w w' : TrustWorld} {u : Unit}
    (h : Executes (trustAnswers crypto) Runtime.refreshVerifierFromMetrics w w' u) :
    w' = (w.1, w.2.refreshed crypto w.1) := by
  obtain ⟨metrics, mid, ⟨⟨hm, hmid⟩, _, hv⟩, hrest⟩ := executes_request_bind.mp h
  obtain rfl : mid = w := Prod.ext hmid hv
  rw [RpcVerifier.refreshed, ← hm]
  dsimp only at hrest
  split at hrest
  · rename_i hempty
    obtain ⟨rfl, _⟩ := hrest
    rw [if_pos hempty, hm]
  · rename_i hempty
    obtain ⟨_, _, hreplace, rfl, _⟩ := hrest
    rw [if_neg hempty, hm]
    rw [hm] at hreplace
    exact hreplace

theorem refreshes_refresh {value : α} :
    Refreshes crypto (do Runtime.refreshVerifierFromMetrics; return .ok value) := by
  intro w w' value' h
  obtain ⟨mid, u, hrefresh, rfl, _⟩ := executes_bind.mp h
  exact ⟨w.2, by rw [executes_refresh_trust hrefresh]⟩

end Refreshes

theorem refreshes_addLearnerNode {id : NodeId} {node : RaftNode} :
    Refreshes crypto (Runtime.addLearnerNode id node) := by
  rw [Runtime.addLearnerNode]
  refine Refreshes.bind fun view => ?_
  split
  · exact refreshes_error
  split
  · exact refreshes_error
  exact Refreshes.attempt (fun _ => rfl) refreshes_refresh

theorem refreshes_promoteVoter {id : NodeId} : Refreshes crypto (Runtime.promoteVoter id) := by
  rw [Runtime.promoteVoter]
  refine Refreshes.bind fun view => ?_
  split
  · exact refreshes_error
  split
  · exact refreshes_error
  refine Refreshes.attempt (fun _ => rfl) ?_
  exact Refreshes.attempt (fun _ => rfl) refreshes_refresh

theorem refreshes_demoteVoter {self id : NodeId} :
    Refreshes crypto (Runtime.demoteVoter self id) := by
  rw [Runtime.demoteVoter]
  refine Refreshes.bind fun view => ?_
  split
  · exact refreshes_error
  split
  · exact refreshes_error
  refine Refreshes.attempt (fun _ => rfl) ?_
  exact Refreshes.attempt (fun _ => rfl) refreshes_refresh

theorem refreshes_removeMember {self id : NodeId} :
    Refreshes crypto (Runtime.removeMember self id) := by
  rw [Runtime.removeMember]
  refine Refreshes.bind fun view => ?_
  split
  · exact refreshes_error
  refine Refreshes.attempt (fun _ => rfl) ?_
  refine Refreshes.attempt (fun _ => rfl) ?_
  exact Refreshes.attempt (fun _ => rfl) refreshes_refresh

theorem refreshes_program (self : NodeId) (op : MemberOp) :
    Refreshes crypto (op.program self) := by
  cases op with
  | addLearnerNode id node =>
      intro w w' value h
      obtain ⟨mid, result, hadd, rfl, hresult⟩ := executes_bind.mp h
      cases result with
      | error e => cases hresult
      | ok info => exact refreshes_addLearnerNode w w' info hadd
  | promoteVoter id => exact refreshes_promoteVoter
  | demoteVoter id => exact refreshes_demoteVoter
  | removeMember id => exact refreshes_removeMember

/-! ## Runs -/

/-- What a run keeps: the keys parse, and once a call has returned Ok there are voters and
the table is the membership. -/
structure Kept (crypto : Crypto) (called : Bool) (w : TrustWorld) : Prop where
  keys : KeysParse crypto w.1.nodes
  voters : called = true → w.1.voters ≠ ∅
  table : called = true → Trusts crypto w.1 w.2

theorem kept_call {self : NodeId} {op : MemberOp} {called : Bool} {w w' : TrustWorld}
    (hvet : Vetted crypto op) (hw : Kept crypto called w)
    (h : Executes (trustAnswers crypto) (op.program self) w w' (.ok ())) :
    Kept crypto true w' := by
  have hproj : Executes faultyAnswers (op.program self) w.1 w'.1 (.ok ()) :=
    h.project fun _ _ _ _ => faulty_of_trustAnswers
  have hacts : Acts w.1 w'.1 op := acts_of_executes hproj
  have hvoters : w.1.voters ≠ ∅ := by
    intro hempty
    have hsame : ∀ u q a u', u.1 = w.1 → trustAnswers crypto u q a u' → u'.1 = w.1 :=
      fun u q a u' hu hans => (same_of_no_voters hans (hu ▸ hempty)).trans hu
    exact hacts.ne (@Executes.invariant _ _ _ _ _ _ _ (fun u => u.1 = w.1) _ _ h hsame rfl)
  have hvoters' : w'.1.voters ≠ ∅ :=
    hproj.invariant (fun _ _ _ _ => voters_ne_empty_of_answer) hvoters
  have hkeys := hacts.keysParse hvet hw.keys
  obtain ⟨verifier, hverifier⟩ := refreshes_program self op w w' () h
  exact ⟨hkeys, fun _ => hvoters', fun _ => hverifier ▸ refreshed_trusts hkeys hvoters'⟩

theorem kept_run {self : NodeId} {ops : List MemberOp} {w w' : TrustWorld}
    (hvet : ∀ op ∈ ops, Vetted crypto op) (hw : KeysParse crypto w.1.nodes)
    (h : Succeeds crypto self w ops w') : Kept crypto (!ops.isEmpty) w' := by
  induction h with
  | nil => exact ⟨hw, fun hcalled => (Bool.false_ne_true hcalled).elim,
      fun hcalled => (Bool.false_ne_true hcalled).elim⟩
  | snoc hrun hcall ih =>
      have hbefore := ih fun op hop => hvet op (by simp [hop])
      have hkept := kept_call (hvet _ (by simp)) hbefore hcall
      rwa [show (!(_ ++ [_] : List MemberOp).isEmpty) = true by simp]

/-! ## Starting -/

variable {cluster : ClusterConfig} {whoami : String} {localNode : RaftNode}

theorem addNode_eq_ok {id : NodeId} {identityKey : String}
    (h : verifier.addNode crypto id identityKey = .ok verifier') :
    KeyParses crypto identityKey := by
  simp only [RpcVerifier.addNode, bind_eq_ok, pure_eq_ok] at h
  obtain ⟨key, hkey, _⟩ := h
  exact ⟨key, hkey⟩

theorem addConfigured_keyParses {memberIds : BTreeSet NodeId} {members : List ClusterMemberConfig}
    {result : RpcVerifier × BTreeSet NodeId}
    (h : addConfigured crypto verifier memberIds members = .ok result) :
    ∀ member ∈ members, KeyParses crypto member.identityKey := by
  induction members generalizing verifier memberIds with
  | nil => exact fun member hmember => nomatch hmember
  | cons first rest ih =>
      simp only [addConfigured, bind_eq_ok, ensure_eq_ok, mapError_eq_ok, exists_and_left,
        exists_const] at h
      obtain ⟨_, _, verifier', hadd, hrest⟩ := h
      intro member hmember
      obtain rfl | hmember := List.mem_cons.mp hmember
      · exact addNode_eq_ok hadd
      · exact ih hrest member hmember

theorem addPersisted_isOk {entries : List (NodeId × RaftNode)} :
    (∃ result, addPersisted crypto verifier entries = .ok result) ↔
      ∀ entry ∈ entries, KeyParses crypto entry.2.identityKey := by
  induction entries generalizing verifier with
  | nil => simp [addPersisted]
  | cons entry rest ih =>
      constructor
      · rintro ⟨result, h⟩
        simp only [addPersisted, bind_eq_ok, mapError_eq_ok] at h
        obtain ⟨verifier', hadd, hrest⟩ := h
        exact List.forall_mem_cons.mpr ⟨addNode_eq_ok hadd, ih.mp ⟨result, hrest⟩⟩
      · intro h
        obtain ⟨⟨key, hkey⟩, hrest⟩ := List.forall_mem_cons.mp h
        obtain ⟨result, hresult⟩ :=
          (@ih { verifier with keys := verifier.keys.insert entry.1 key }).mpr hrest
        refine ⟨result, ?_⟩
        simp only [addPersisted, RpcVerifier.addNode, hkey]
        exact hresult

theorem keysParse_iff_toList :
    KeysParse crypto nodes ↔ ∀ entry ∈ nodes.toList, KeyParses crypto entry.2.identityKey := by
  constructor
  · exact fun h entry hentry =>
      h entry.1 entry.2 (ExtTreeMap.mem_toList_iff_getElem?_eq_some.mp hentry)
  · exact fun h id node hid => h (id, node) (ExtTreeMap.mem_toList_iff_getElem?_eq_some.mpr hid)

theorem membersFromConfig_keysParse {prim : Primitives} {members : List ClusterMemberConfig}
    {result : BTreeMap NodeId RaftNode} (h : membersFromConfig prim nodes members = .ok result)
    (hnodes : KeysParse crypto nodes)
    (hmembers : ∀ member ∈ members, KeyParses crypto member.identityKey) :
    KeysParse crypto result := by
  induction members generalizing nodes with
  | nil =>
      obtain rfl := Except.ok.inj h
      exact hnodes
  | cons first rest ih =>
      simp only [membersFromConfig, bind_eq_ok, ensure_eq_ok, exists_and_left, exists_const] at h
      obtain ⟨_, _, _, _, hrest⟩ := h
      obtain ⟨hfirst, hmembers⟩ := List.forall_mem_cons.mp hmembers
      exact ih hrest (hnodes.insert hfirst) hmembers

/-- The part of the start that does not look at the persisted members. -/
structure Configured (crypto : Crypto) (cluster : ClusterConfig) (whoami : String)
    (localNode : RaftNode) : Prop where
  voters : ∀ member ∈ cluster.voters, KeyParses crypto member.identityKey
  localKey : KeyParses crypto localNode.identityKey
  table : ∃ verifier, ∀ persisted result,
    initialVerifier crypto cluster whoami localNode persisted = .ok result ↔
      addPersisted crypto verifier persisted = .ok result

theorem configured_of_initialVerifier {persisted : List (NodeId × RaftNode)}
    (h : initialVerifier crypto cluster whoami localNode persisted = .ok verifier) :
    Configured crypto cluster whoami localNode := by
  simp only [initialVerifier, bind_eq_ok, ensure_eq_ok, mapError_eq_ok, exists_and_left,
    exists_const, Prod.exists] at h
  obtain ⟨configured, memberIds, hconfigured, hcollides, table, htable, _⟩ := h
  refine ⟨fun member hmember => ?_, addNode_eq_ok htable, table, fun persisted result => ?_⟩
  · exact addConfigured_keyParses hconfigured member (List.mem_append_left _ hmember)
  · simp only [initialVerifier, bind_eq_ok, ensure_eq_ok, mapError_eq_ok, hconfigured,
      Except.ok.injEq, exists_eq_left', hcollides, htable, true_and, exists_const]

theorem keysParse_of_start {persisted : Members}
    (h : startRuntime crypto cluster whoami localNode persisted = .ok (m, verifier)) :
    Configured crypto cluster whoami localNode ∧ KeysParse crypto m.nodes := by
  simp only [startRuntime, bind_eq_ok, pure_eq_ok, Prod.mk.injEq] at h
  obtain ⟨table, htable, members, hmembers, rfl, _⟩ := h
  have hconf := configured_of_initialVerifier htable
  refine ⟨hconf, ?_⟩
  rw [membersAtStart] at hmembers
  split at hmembers
  · simp only [bootstrapVoters, mapError_eq_ok, map_eq_ok, bind_eq_ok, pure_eq_ok] at hmembers
    obtain ⟨_, ⟨voters, hvoters, rfl⟩, rfl⟩ := hmembers
    have hempty : KeysParse crypto ∅ := fun id node hid => by simp at hid
    exact (membersFromConfig_keysParse hvoters hempty hconf.voters).insertIfNew hconf.localKey
  · obtain rfl := Except.ok.inj hmembers
    obtain ⟨initial, hinitial⟩ := hconf.table
    exact keysParse_iff_toList.mpr (addPersisted_isOk.mp ⟨table, (hinitial _ _).mp htable⟩)

theorem start_of_configured (hconf : Configured crypto cluster whoami localNode)
    (hkeys : KeysParse crypto m.nodes) (hvoters : m.voters ≠ ∅) :
    ∃ verifier, startRuntime crypto cluster whoami localNode m = .ok (m, verifier) ∧
      Trusts crypto m verifier := by
  obtain ⟨initial, hinitial⟩ := hconf.table
  obtain ⟨table, htable⟩ :=
    (@addPersisted_isOk crypto initial _).mpr (keysParse_iff_toList.mp hkeys)
  have hempty : m.nodes.isEmpty = false := by
    rw [← ExtTreeMap.isEmpty_toList, List.isEmpty_eq_false_iff]
    exact collected_ne_nil hvoters
  refine ⟨table.refreshed crypto m, ?_, refreshed_trusts hkeys hvoters⟩
  have hmembers : membersAtStart crypto cluster whoami localNode m = .ok m := by
    rw [membersAtStart, hempty, Bool.and_false, if_neg Bool.false_ne_true]
  simp only [startRuntime, bind_eq_ok, hmembers, (hinitial _ _).mpr htable, Except.ok.injEq,
    exists_eq_left', pure_eq_ok]

/-- After every call of a run whose new identity keys all parse, exactly the members are
believed, and a restart from the persisted membership finds the same table. -/
theorem trust_follows_membership {persisted : Members} {ops : List MemberOp}
    (hstart : startRuntime crypto cluster whoami localNode persisted = .ok (m, verifier))
    (hvet : ∀ op ∈ ops, Vetted crypto op) (hcalled : ops ≠ [])
    (hrun : Succeeds crypto (nodeIdFromPeerId crypto.toPrimitives whoami) (m, verifier) ops
      (m', verifier')) :
    Trusts crypto m' verifier' ∧
    (∀ codec envelope accepted, m'.nodes[envelope.sender]? = none →
      verifier'.verifyRequest crypto codec envelope ≠ .ok accepted) ∧
    (∀ codec envelope id node identity body, crypto.Lawful → codec.Lossless →
      m'.nodes[id]? = some node →
      parseVerifyingKey crypto node.identityKey = .ok (crypto.edPublic identity) →
      encodeRequest crypto codec identity verifier'.clusterId id verifier'.localId body =
        .ok envelope →
      verifier'.verifyRequest crypto codec envelope = .ok (id, body)) ∧
    ∃ restarted, startRuntime crypto cluster whoami localNode m' = .ok (m', restarted) ∧
      restarted.keys = verifier'.keys := by
  obtain ⟨hconf, hkeys⟩ := keysParse_of_start hstart
  have hkept := kept_run hvet hkeys hrun
  have hops : (!ops.isEmpty) = true := by simpa using hcalled
  have htrusts := hkept.table hops
  obtain ⟨restarted, hrestart, htrusts'⟩ :=
    start_of_configured hconf hkept.keys (hkept.voters hops)
  refine ⟨htrusts, fun codec envelope accepted hsender => htrusts.rejects_other hsender accepted,
    fun codec envelope id node identity body hlawful hcodec hid hkey hsent =>
      htrusts.accepts_member hlawful hcodec hid hkey hsent, restarted, hrestart,
    htrusts.keys_eq htrusts'⟩

/-! ## A leader of two voters

The leader `a` adds a learner and removes the voter `b`. -/

def leaderResponds (crypto : Crypto) (self : NodeId) (w : TrustWorld) :
    (q : RuntimeCall) → RuntimeAnswer q × TrustWorld
  | .metrics => (⟨1, some self, .leader, w.1⟩, w)
  | .change change =>
      match (if w.1.voters.isEmpty then none else w.1.accept change) with
      | none => (.error "refused", w)
      | some members => (.ok (), (members, w.2))
  | .catchUp _ => (.ok (), w)
  | .elect _ _ => (.ok (), w)
  | .elected _ => (false, w)
  | .replaceNodes entries => ((), (w.1, (w.2.replaceNodes crypto entries).toOption.getD w.2))

theorem leaderResponds_answers (crypto : Crypto) (self : NodeId) (w : TrustWorld)
    (q : RuntimeCall) :
    trustAnswers crypto w q (leaderResponds crypto self w q).1
      (leaderResponds crypto self w q).2 := by
  cases q with
  | change change =>
      cases hchange : (if w.1.voters.isEmpty then none else w.1.accept change) with
      | none =>
          simp only [leaderResponds, hchange]
          exact ⟨rfl, fun _ => rfl, rfl⟩
      | some members =>
          simp only [leaderResponds, hchange]
          split at hchange
          · cases hchange
          · rename_i hvoters
            refine ⟨hchange, fun hempty => ?_, rfl⟩
            rw [hempty] at hvoters
            exact (hvoters ExtTreeSet.isEmpty_empty).elim
  | metrics => exact ⟨⟨rfl, rfl⟩, fun _ => rfl, rfl⟩
  | replaceNodes entries => rfl
  | _ => exact ⟨rfl, fun _ => rfl, rfl⟩

def leaderCall (crypto : Crypto) (self : NodeId) (op : MemberOp) (w : TrustWorld) :
    TrustWorld × Except String Unit :=
  perform (leaderResponds crypto self) (op.program self) w

theorem Succeeds.leaderCall {self : NodeId} {ops : List MemberOp} {op : MemberOp}
    {w w' : TrustWorld} (hrun : Succeeds crypto self w ops w')
    (h : (leaderCall crypto self op w').2 = .ok ()) :
    Succeeds crypto self w (ops ++ [op]) (leaderCall crypto self op w').1 := by
  have hexec := executes_perform (leaderResponds_answers crypto self) (op.program self) w'
  exact hrun.snoc (h ▸ hexec)

def voterKey : String := sampleText (List.replicate 32 7)

def twoVoters : ClusterConfig := ⟨"c", true, [⟨"a", voterKey⟩, ⟨"b", voterKey⟩], []⟩

def voterA : RaftNode := ⟨"a", voterKey, ""⟩

def noMembers : Members := ⟨∅, ∅, fun id h => by simp at h⟩

def twoVotersStart : Except RaftInitError TrustWorld :=
  startRuntime sampleCrypto twoVoters "a" voterA noMembers

def learnerSpec (identityKey : String) : AdminMemberSpec :=
  ⟨nodeIdFromPeerId samplePrimitives peerA, peerA, identityKey, "x"⟩

def learnerOp (identityKey : String) : MemberOp :=
  .addLearnerNode (nodeIdFromPeerId samplePrimitives peerA) ⟨peerA, identityKey, "x"⟩

/-- The world after the learner was added, and after `b` (whose id is 98) was removed. -/
def learnerAdded (identityKey : String) : TrustWorld × Except String Unit :=
  leaderCall sampleCrypto 97 (learnerOp identityKey)
    (twoVotersStart.toOption.getD (noMembers, .new "" 0))

def voterRemoved (identityKey : String) : TrustWorld × Except String Unit :=
  leaderCall sampleCrypto 97 (.removeMember 98) (learnerAdded identityKey).1

theorem twoVoters_run {identityKey : String} (hadded : (learnerAdded identityKey).2 = .ok ())
    (hremoved : (voterRemoved identityKey).2 = .ok ()) :
    Succeeds sampleCrypto 97 (twoVotersStart.toOption.getD (noMembers, .new "" 0))
      [learnerOp identityKey, .removeMember 98] (voterRemoved identityKey).1 :=
  ((Succeeds.nil _).leaderCall hadded).leaderCall hremoved

/-- With a key that parses, the removed voter is forgotten. -/
theorem trust_follows_membership_twoVoters :
    Trusts sampleCrypto (voterRemoved voterKey).1.1 (voterRemoved voterKey).1.2 ∧
      (voterRemoved voterKey).1.1.nodes[98]? = none := by
  obtain ⟨start, hstart⟩ := isOk_eq_true.mp (show twoVotersStart.isOk = true by decide +kernel)
  have hrun := twoVoters_run (show (learnerAdded voterKey).2 = .ok () by decide +kernel)
    (show (voterRemoved voterKey).2 = .ok () by decide +kernel)
  rw [hstart] at hrun
  have hspec : nodeFromSpec samplePrimitives (learnerSpec voterKey) true =
      .ok ⟨peerA, voterKey, "x"⟩ := by decide +kernel
  have hid : memberNodeId samplePrimitives (learnerSpec voterKey) =
      .ok (nodeIdFromPeerId samplePrimitives peerA) := by decide +kernel
  have hkey : KeyParses sampleCrypto voterKey :=
    ⟨List.replicate 32 7, by decide +kernel⟩
  have hvet : ∀ op ∈ [learnerOp voterKey, .removeMember 98], Vetted sampleCrypto op := by
    simp only [List.mem_cons, List.not_mem_nil, or_false, forall_eq_or_imp, forall_eq]
    exact ⟨.spec hid hspec hkey, .remove⟩
  exact ⟨(trust_follows_membership hstart hvet (by simp) hrun).1, by decide +kernel⟩

/-- The specification passes every check although its key cannot be read.  From then on the
table stays as it was: the learner is unknown, the removed voter `b` is still believed, and
the node does not start again. -/
theorem unreadable_key_freezes_table :
    twoVotersStart.isOk = true ∧
    memberNodeId samplePrimitives (learnerSpec "x") =
      .ok (nodeIdFromPeerId samplePrimitives peerA) ∧
    nodeFromSpec samplePrimitives (learnerSpec "x") true = .ok ⟨peerA, "x", "x"⟩ ∧
    Succeeds sampleCrypto 97 (twoVotersStart.toOption.getD (noMembers, .new "" 0))
      [learnerOp "x", .removeMember 98] (voterRemoved "x").1 ∧
    (voterRemoved "x").1.1.nodes[98]? = none ∧
    (voterRemoved "x").1.2.keys[98]? = some (List.replicate 32 7) ∧
    (voterRemoved "x").1.2.keys[nodeIdFromPeerId samplePrimitives peerA]? = none ∧
    (startRuntime sampleCrypto twoVoters "a" voterA (voterRemoved "x").1.1).isOk = false := by
  have hrun := twoVoters_run (show (learnerAdded "x").2 = .ok () by decide +kernel)
    (show (voterRemoved "x").2 = .ok () by decide +kernel)
  refine ⟨?_, ?_, ?_, hrun, ?_, ?_, ?_, ?_⟩ <;> decide +kernel

end NexusAuth.Service
