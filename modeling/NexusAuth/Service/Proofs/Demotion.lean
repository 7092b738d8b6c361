import NexusAuth.Raft.Seed
import NexusAuth.Service.Dispatch
import NexusAuth.Service.Proofs.Trust

/-!
# A demoted voter can be promoted again

The promotion of a learner seals the authority seed with the exchange key that stands in its
entry of the membership.  An entry is written once, when the node enters, and no operation
replaces it: joins and specifications of administrators bring an exchange key, and so does the
node that bootstraps the cluster, but `members_from_config` leaves the key of a configured voter
empty.  Such a voter can be demoted and, until it is removed and added again, not promoted.
-/

namespace NexusAuth

/-- The steps of `seal_seed` after the key of the target was read do not fail, and the empty
text is the encoding of no bytes. -/
structure Crypto.Seals (crypto : Crypto) : Prop where
  unbase64_empty : crypto.unbase64 "" = some []
  cbor : ∀ item, ∃ bytes, crypto.cbor item = .ok bytes
  hkdf : ∀ salt ikm info, ∃ key, crypto.hkdf salt ikm info = some key
  aeadEncrypt : ∀ salt ikm info key nonce plaintext, crypto.hkdf salt ikm info = some key →
    nonce.length = 12 → ∃ ciphertext, crypto.aeadEncrypt key nonce plaintext = some ciphertext

end NexusAuth

namespace NexusAuth.Service

open Std (ExtTreeMap ExtTreeSet)
open NexusAuth.Authority NexusAuth.Lib.Interaction NexusAuth.Lib.OrderedMap
open NexusAuth.Lib.Results NexusAuth.Raft

variable {crypto : Crypto} {m m' : Members} {v : NodeId}

/-! ## Exchange keys -/

def HasExchangeKey (crypto : Crypto) (node : RaftNode) : Prop :=
  ∃ key, parseX25519 crypto node.x25519Key = .ok key

theorem hasExchangeKey_of_join {req : RaftJoinRequest} {keys : AdminVerifier}
    {clusterId network : String} {now : Nat} {allowed : List String}
    (h : req.verify crypto keys clusterId network now allowed = .ok ()) :
    HasExchangeKey crypto ⟨req.peerId, req.identityKey, req.x25519Key⟩ := by
  have hchecked := (RaftJoinRequest.sound_of_verify h).x25519
  simp only [checkX25519, bind_eq_ok, okOr_eq_ok, ensure_eq_ok, decide_eq_true_eq] at hchecked
  obtain ⟨raw, hraw, hlength⟩ := hchecked
  refine ⟨raw, ?_⟩
  simp only [parseX25519, hraw]
  exact if_pos hlength

theorem HasExchangeKey.not_isEmpty {node : RaftNode} (hseals : crypto.Seals)
    (h : HasExchangeKey crypto node) : node.x25519Key.isEmpty = false := by
  rw [Bool.eq_false_iff, Ne, String.isEmpty_iff]
  intro hempty
  obtain ⟨key, hkey⟩ := h
  rw [parseX25519, hempty, hseals.unbase64_empty] at hkey
  cases hkey

theorem HasExchangeKey.prepareDelivery {node : RaftNode} (hseals : crypto.Seals)
    (h : HasExchangeKey crypto node) (leader : SeedNode) (seed : Bytes) (random : SealRandom) :
    ∃ envelope,
      prepareDelivery crypto leader (some seed) v (some node) random = .ok envelope := by
  obtain ⟨target, htarget⟩ := h
  obtain ⟨binding, hbinding⟩ := hseals.cbor <| .map
    [("network", .text leader.network), ("cluster_id", .text leader.clusterId),
      ("node_id", .uint v), ("peer_id", .text node.peerId),
      ("identity_key", .text node.identityKey),
      ("ephemeral_key", .text (crypto.base64 (crypto.xPublic random.ephemeral)))]
  obtain ⟨key, hkey⟩ := hseals.hkdf (utf8Bytes leader.clusterId)
    (crypto.xShared random.ephemeral target) (utf8Bytes "nexusauth/seed/v1" ++ [0] ++ binding)
  obtain ⟨ciphertext, hciphertext⟩ :=
    hseals.aeadEncrypt _ _ _ key random.nonce seed hkey random.nonce_length
  simp only [Raft.prepareDelivery, mapError_eq_ok, sealSeed, bind_eq_ok, htarget,
    Except.ok.injEq, exists_eq_left', deriveKey, bindingBytes, encodeCbor, hbinding, okOr_eq_ok,
    hkey, Option.some.injEq, hciphertext, envelopeSigningBytes, pure_eq_ok]
  obtain ⟨signed, hsigned⟩ := hseals.cbor _
  exact ⟨_, signed, hsigned, rfl⟩

/-! ## Runs of operations -/

/-- An addition takes its node from a verified join request, or from the specification of an
administrator; in the second case nothing else has read the exchange key. -/
inductive Admitted (crypto : Crypto) : MemberOp → Prop
  | join {req : RaftJoinRequest} {keys : AdminVerifier} {clusterId network : String} {now : Nat}
      {allowed : List String} (h : req.verify crypto keys clusterId network now allowed = .ok ()) :
      Admitted crypto (.addLearnerNode req.nodeId ⟨req.peerId, req.identityKey, req.x25519Key⟩)
  | spec {spec : AdminMemberSpec} {id : NodeId} {node : RaftNode}
      (hid : memberNodeId crypto.toPrimitives spec = .ok id)
      (hnode : nodeFromSpec crypto.toPrimitives spec true = .ok node)
      (hkey : HasExchangeKey crypto node) : Admitted crypto (.addLearnerNode id node)
  | promote {id : NodeId} : Admitted crypto (.promoteVoter id)
  | demote {id : NodeId} : Admitted crypto (.demoteVoter id)
  | remove {id : NodeId} : Admitted crypto (.removeMember id)

def Operates (crypto : Crypto) (m m' : Members) : Prop :=
  ∃ (self : NodeId) (op : MemberOp), Admitted crypto op ∧
    Executes faultyAnswers (op.program self) m m' (.ok ())

/-- If `v` is a member, the exchange key in its entry can be read. -/
def Sealable (crypto : Crypto) (v : NodeId) (m : Members) : Prop :=
  ∀ node, m.nodes[v]? = some node → HasExchangeKey crypto node

theorem Admitted.hasExchangeKey {id : NodeId} {node : RaftNode}
    (h : Admitted crypto (.addLearnerNode id node)) : HasExchangeKey crypto node := by
  cases h with
  | join hverify => exact hasExchangeKey_of_join hverify
  | spec hid hnode hkey => exact hkey

theorem sealable_of_operates (h : Operates crypto m m') (hm : Sealable crypto v m) :
    Sealable crypto v m' := by
  obtain ⟨self, op, hadmitted, hexec⟩ := h
  have hacts := acts_of_executes hexec
  intro node hnode
  cases op with
  | addLearnerNode id added =>
      rw [hacts.nodes, ExtTreeMap.getElem?_insertIfNew] at hnode
      split at hnode
      · obtain rfl := Option.some.inj hnode
        exact hadmitted.hasExchangeKey
      · exact hm node hnode
  | promoteVoter id => exact hm node (hacts.nodes ▸ hnode)
  | demoteVoter id => exact hm node (hacts.nodes ▸ hnode)
  | removeMember id =>
      rw [hacts.nodes, ExtTreeMap.getElem?_erase] at hnode
      split at hnode
      · cases hnode
      · exact hm node hnode

theorem sealable_of_run (h : Relation.ReflTransGen (Operates crypto) m m')
    (hm : Sealable crypto v m) : Sealable crypto v m' := by
  induction h with
  | refl => exact hm
  | tail _ hstep ih => exact sealable_of_operates hstep ih

/-! ## The first membership -/

theorem getElem?_membersFromConfig {prim : Primitives} {members : List ClusterMemberConfig}
    {nodes result : BTreeMap NodeId RaftNode}
    (h : membersFromConfig prim nodes members = .ok result)
    (hother : ∀ member ∈ members, nodeIdFromPeerId prim member.peerId ≠ v) :
    result[v]? = nodes[v]? := by
  induction members generalizing nodes with
  | nil =>
      obtain rfl := Except.ok.inj h
      rfl
  | cons first rest ih =>
      simp only [membersFromConfig, bind_eq_ok, ensure_eq_ok, exists_and_left, exists_const] at h
      obtain ⟨-, -, -, -, hrest⟩ := h
      obtain ⟨hfirst, hother⟩ := List.forall_mem_cons.mp hother
      rw [ih hrest hother, ExtTreeMap.getElem?_insert, if_neg]
      exact fun heq => hfirst (compare_eq_iff_eq.mp heq)

theorem sealable_start {cluster : ClusterConfig} {whoami : String} {localNode : RaftNode}
    {start : Members}
    (hstart : (bootstrapVoters crypto cluster whoami localNode).map Members.initialize = .ok start)
    (hlocal : HasExchangeKey crypto localNode)
    (hother : ∀ member ∈ cluster.voters,
      nodeIdFromPeerId crypto.toPrimitives member.peerId ≠ v) :
    Sealable crypto v start := by
  simp only [map_eq_ok, bootstrapVoters, bind_eq_ok, pure_eq_ok] at hstart
  obtain ⟨_, ⟨voters, hvoters, rfl⟩, rfl⟩ := hstart
  intro node hnode
  have hnone : voters[v]? = none := by
    rw [getElem?_membersFromConfig hvoters hother]
    exact ExtTreeMap.getElem?_empty
  change (voters.insertIfNew _ localNode)[v]? = some node at hnode
  rw [ExtTreeMap.getElem?_insertIfNew, hnone] at hnode
  split at hnode
  · obtain rfl := Option.some.inj hnode
    exact hlocal
  · cases hnode

/-! ## The following promotion -/

structure LeaderShows (env : Oracle ServiceCall ServiceAnswer) (m : Members) : Prop where
  runtime : ∀ past, env past .runtime = true
  leads : ∀ past, env past (.node .isLeader) = true
  view : ∀ past, ∃ metrics : RaftMetrics, metrics.members = m ∧
    env past .membershipView = metrics.membershipView

/-- The promotion of `v` comes to the delivery of the seed, and a leader that holds the seed
gets as far as sending the envelope. -/
structure PromotionSent (crypto : Crypto) (m : Members) (v : NodeId) : Prop where
  handler : ∀ (ctx : ServiceContext) (req : AdminRequestV2) (spec : AdminMemberSpec)
    (edgePeer : Option String) (verified : VerifiedAdmin) (env : Oracle ServiceCall ServiceAnswer),
    req.op = "promote_voter" → req.member = some spec →
    memberNodeId ctx.crypto.toPrimitives spec = .ok v → LeaderShows env m →
    ∃ next, Reaches env [] (executeMemberWrite ctx req edgePeer verified).run
      (.ask (.deliverSeed v) next)
  delivery : ∀ (leader : SeedNode) (seed : Bytes) (random : SealRandom),
    ∃ envelope, prepareDelivery crypto leader (some seed) v m.nodes[v]? random = .ok envelope

theorem promotable_of_learner {metrics : RaftMetrics} {node : RaftNode}
    (hnode : metrics.members.nodes[v]? = some node) (hlearner : v ∉ metrics.members.voters)
    (hkey : node.x25519Key.isEmpty = false) :
    promotable v metrics.membershipView = .ok (metrics.members.info v node) := by
  have hfind : metrics.membershipView.find v = some (metrics.members.info v node) := by
    rw [find_membershipView, hnode, Option.map_some]
  have hvoter : (metrics.members.info v node).voter = false := decide_eq_false hlearner
  simp only [promotable, bind_eq_ok, okOr_eq_ok, ensure_eq_ok, hfind, Option.some.injEq,
    exists_eq_left', hvoter, exists_and_left, exists_const, pure_eq_ok]
  exact ⟨rfl, by rw [Members.info, hkey]; rfl, trivial⟩

section Handler

variable {ctx : ServiceContext} {req : AdminRequestV2} {spec : AdminMemberSpec}
  {env : Oracle ServiceCall ServiceAnswer} (edgePeer : Option String)
  (hmember : req.member = some spec)
  (htarget : memberNodeId ctx.crypto.toPrimitives spec = .ok v) (hshows : LeaderShows env m)
  (hpromotable : ∀ metrics : RaftMetrics, metrics.members = m →
    ∃ info, promotable v metrics.membershipView = .ok info)

include hmember htarget hshows hpromotable

theorem reaches_promoteVoterWrite (past : List ServiceEvent) :
    ∃ next, Reaches env past (promoteVoterWrite ctx req edgePeer).run
      (.ask (.deliverSeed v) next) := by
  obtain ⟨metrics, hmembers, hview⟩ := hshows.view past
  obtain ⟨info, hinfo⟩ := hpromotable metrics hmembers
  have hdelivers : ∀ f : Unit → HandlerM Bytes,
      ∃ next, (deliverAndPromote v >>= f).run = .ask (.deliverSeed v) next :=
    fun f => ⟨_, rfl⟩
  simp only [promoteVoterWrite, memberTarget, requireMember, hmember, okOr, htarget,
    fallible_ok_bind, pure_bind]
  obtain ⟨next, hnext⟩ := hdelivers _
  refine ⟨next, .query_bind ?_⟩
  rw [hview, hinfo, fallible_ok_bind, hnext]
  exact .here _ _

theorem reaches_deliverSeed (verified : VerifiedAdmin) (hop : req.op = "promote_voter") :
    ∃ next, Reaches env [] (executeMemberWrite ctx req edgePeer verified).run
      (.ask (.deliverSeed v) next) := by
  obtain ⟨next, hnext⟩ := reaches_promoteVoterWrite edgePeer hmember htarget hshows hpromotable
    [⟨.runtime, true⟩, ⟨.node .isLeader, true⟩]
  refine ⟨next, ?_⟩
  rw [executeMemberWrite, hop]
  simp only [raftRuntime, bind_assoc]
  refine .query_bind ?_
  rw [hshows.runtime]
  refine .query_bind ?_
  rw [hshows.leads]
  exact hnext

end Handler

theorem promotionSent_of_sealable {node : RaftNode} (hseals : crypto.Seals)
    (hnode : m.nodes[v]? = some node) (hlearner : v ∉ m.voters)
    (hsealable : Sealable crypto v m) : PromotionSent crypto m v := by
  have hkey := hsealable node hnode
  constructor
  · intro ctx req spec edgePeer verified env hop hmember htarget hshows
    refine reaches_deliverSeed edgePeer hmember htarget hshows ?_ verified hop
    rintro metrics rfl
    exact ⟨_, promotable_of_learner hnode hlearner (hkey.not_isEmpty hseals)⟩
  · intro leader seed random
    rw [hnode]
    exact hkey.prepareDelivery hseals leader seed random

/-- In every run of successful operations from the first membership of a cluster, a voter that
is demoted can be promoted again, up to the seed being sent, if its id is not the id of a
configured voter or if it has been out of the membership since. -/
theorem demotion_can_be_undone {cluster : ClusterConfig} {whoami : String} {localNode : RaftNode}
    {start mid : Members} {self : NodeId} (hseals : crypto.Seals)
    (hstart : (bootstrapVoters crypto cluster whoami localNode).map Members.initialize = .ok start)
    (hlocal : HasExchangeKey crypto localNode)
    (hmid : Relation.ReflTransGen (Operates crypto) start mid)
    (hentered : v ∉ mid.nodes ∨ ∀ member ∈ cluster.voters,
      nodeIdFromPeerId crypto.toPrimitives member.peerId ≠ v)
    (hrun : Relation.ReflTransGen (Operates crypto) mid m)
    (hdemote : Executes faultyAnswers (Runtime.demoteVoter self v) m m' (.ok ())) :
    PromotionSent crypto m' v := by
  have hsealable : Sealable crypto v mid := by
    cases hentered with
    | inl habsent =>
        intro node hnode
        exact (habsent (ExtTreeMap.getElem?_eq_some_iff.mp hnode).fst).elim
    | inr hother => exact sealable_of_run hmid (sealable_start hstart hlocal hother)
  have hstep : Operates crypto m m' := ⟨self, .demoteVoter v, .demote, hdemote⟩
  have hafter := sealable_of_operates hstep (sealable_of_run hrun hsealable)
  have hdemoted : m.Demoted m' v := @acts_of_executes m m' self (.demoteVoter v) hdemote
  have hknown : v ∈ m'.nodes := hdemoted.nodes ▸ m.voters_known v hdemoted.voter
  obtain ⟨node, hnode⟩ :=
    Option.isSome_iff_exists.mp (ExtTreeMap.mem_iff_isSome_getElem?.mp hknown)
  have hlearner : v ∉ m'.voters := by
    rw [hdemoted.voters, ExtTreeSet.mem_erase]
    simp
  exact promotionSent_of_sealable hseals hnode hlearner hafter

/-! ## A cluster of two

The node `a` bootstraps a cluster with the configured voter `b`, adds `peerA`, promotes it and
demotes it. -/

theorem sampleCrypto_seals : sampleCrypto.Seals where
  unbase64_empty := rfl
  cbor _ := ⟨_, rfl⟩
  hkdf _ _ _ := ⟨_, rfl⟩
  aeadEncrypt _ _ _ _ _ _ _ _ := ⟨_, rfl⟩

theorem executes_of_leaderCall {self : NodeId} {op : MemberOp} {w : TrustWorld}
    (h : (leaderCall crypto self op w).2 = .ok ()) :
    Executes faultyAnswers (op.program self) w.1 (leaderCall crypto self op w).1.1 (.ok ()) := by
  have hexec := executes_perform (leaderResponds_answers crypto self) (op.program self) w
  have hfaulty : Executes faultyAnswers (op.program self) w.1 (leaderCall crypto self op w).1.1
      (leaderCall crypto self op w).2 :=
    hexec.project fun _ _ _ _ hanswer => faulty_of_trustAnswers hanswer
  exact h ▸ hfaulty

/-- A cluster with one configured voter besides the local node. -/
def pairCluster (peerId : String) : ClusterConfig := ⟨"c", true, [⟨peerId, voterKey⟩], []⟩

/-- The local node, whose id is 97. -/
def nodeA : RaftNode := ⟨"a", voterKey, voterKey⟩

def pairMembers (peerId : String) : Except BootstrapError Members :=
  (bootstrapVoters sampleCrypto (pairCluster peerId) "a" nodeA).map Members.initialize

def pairStart (peerId : String) : TrustWorld :=
  ((pairMembers peerId).toOption.getD noMembers, .new "c" 97)

def memberA : NodeId := nodeIdFromPeerId samplePrimitives peerA

def keyedSpec : AdminMemberSpec := ⟨memberA, peerA, voterKey, voterKey⟩

def memberAdded : TrustWorld × Except String Unit :=
  leaderCall sampleCrypto 97 (.addLearnerNode memberA ⟨peerA, voterKey, voterKey⟩) (pairStart "b")

def memberPromoted : TrustWorld × Except String Unit :=
  leaderCall sampleCrypto 97 (.promoteVoter memberA) memberAdded.1

def memberDemoted : TrustWorld × Except String Unit :=
  leaderCall sampleCrypto 97 (.demoteVoter memberA) memberPromoted.1

/-- The promotion of `peerA` passes all checks again. -/
theorem demotion_can_be_undone_added_member :
    PromotionSent sampleCrypto memberDemoted.1.1 memberA := by
  have hstart : pairMembers "b" = .ok (pairStart "b").1 := by decide +kernel
  have hkey : parseX25519 sampleCrypto voterKey = .ok (List.replicate 32 7) := by decide +kernel
  have hid : memberNodeId sampleCrypto.toPrimitives keyedSpec = .ok memberA := by decide +kernel
  have hnode : nodeFromSpec sampleCrypto.toPrimitives keyedSpec true =
      .ok ⟨peerA, voterKey, voterKey⟩ := by decide +kernel
  have hadded : Operates sampleCrypto (pairStart "b").1 memberAdded.1.1 :=
    ⟨97, _, .spec hid hnode ⟨_, hkey⟩, executes_of_leaderCall (by decide +kernel)⟩
  have hpromoted : Operates sampleCrypto memberAdded.1.1 memberPromoted.1.1 :=
    ⟨97, _, .promote, executes_of_leaderCall (by decide +kernel)⟩
  have hother : ∀ member ∈ (pairCluster "b").voters,
      nodeIdFromPeerId sampleCrypto.toPrimitives member.peerId ≠ memberA := by
    decide +kernel
  have hdemoted : Executes faultyAnswers (Runtime.demoteVoter 97 memberA) memberPromoted.1.1
      memberDemoted.1.1 (.ok ()) :=
    @executes_of_leaderCall sampleCrypto 97 (.demoteVoter memberA) memberPromoted.1
      (by decide +kernel)
  exact demotion_can_be_undone sampleCrypto_seals hstart ⟨_, hkey⟩ .refl (.inr hother)
    ((Relation.ReflTransGen.single hadded).tail hpromoted) hdemoted

/-! ## Configured voters -/

def Keyless (v : NodeId) (nodes : BTreeMap NodeId RaftNode) : Prop :=
  ∃ node, nodes[v]? = some node ∧ node.x25519Key = ""

theorem Keyless.membersFromConfig {prim : Primitives} {members : List ClusterMemberConfig}
    {nodes result : BTreeMap NodeId RaftNode}
    (h : membersFromConfig prim nodes members = .ok result) (hv : Keyless v nodes) :
    Keyless v result := by
  induction members generalizing nodes with
  | nil =>
      obtain rfl := Except.ok.inj h
      exact hv
  | cons first rest ih =>
      simp only [Raft.membersFromConfig, bind_eq_ok, ensure_eq_ok, exists_and_left,
        exists_const] at h
      obtain ⟨-, -, -, -, hrest⟩ := h
      apply ih hrest
      obtain ⟨node, hnode, hkey⟩ := hv
      rw [Keyless, ExtTreeMap.getElem?_insert]
      split
      · exact ⟨_, rfl, rfl⟩
      · exact ⟨node, hnode, hkey⟩

theorem keyless_of_configured {prim : Primitives} {members : List ClusterMemberConfig}
    {nodes result : BTreeMap NodeId RaftNode} {member : ClusterMemberConfig}
    (h : membersFromConfig prim nodes members = .ok result) (hmember : member ∈ members) :
    Keyless (nodeIdFromPeerId prim member.peerId) result := by
  induction members generalizing nodes with
  | nil => cases hmember
  | cons first rest ih =>
      simp only [membersFromConfig, bind_eq_ok, ensure_eq_ok, exists_and_left, exists_const] at h
      obtain ⟨-, -, -, -, hrest⟩ := h
      cases hmember with
      | head => exact .membersFromConfig hrest ⟨_, ExtTreeMap.getElem?_insert_self, rfl⟩
      | tail _ hmember => exact ih hrest hmember

/-- The local node has no entry of its own if it is configured. -/
theorem keyless_start {cluster : ClusterConfig} {whoami : String} {localNode : RaftNode}
    {start : Members} {member : ClusterMemberConfig}
    (hstart : (bootstrapVoters crypto cluster whoami localNode).map Members.initialize = .ok start)
    (hmember : member ∈ cluster.voters) :
    Keyless (nodeIdFromPeerId crypto.toPrimitives member.peerId) start.nodes := by
  simp only [map_eq_ok, bootstrapVoters, bind_eq_ok, pure_eq_ok] at hstart
  obtain ⟨_, ⟨voters, hvoters, rfl⟩, rfl⟩ := hstart
  obtain ⟨node, hnode, hkey⟩ := keyless_of_configured hvoters hmember
  refine ⟨node, ?_, hkey⟩
  have hknown : nodeIdFromPeerId crypto.toPrimitives member.peerId ∈ voters :=
    (ExtTreeMap.getElem?_eq_some_iff.mp hnode).fst
  change (voters.insertIfNew _ localNode)[_]? = some node
  rw [ExtTreeMap.getElem?_insertIfNew, if_neg, hnode]
  exact fun hnew => hnew.2 (compare_eq_iff_eq.mp hnew.1 ▸ hknown)

theorem Keyless.of_operates (h : Operates crypto m m') (hstays : v ∈ m'.nodes)
    (hv : Keyless v m.nodes) : Keyless v m'.nodes := by
  obtain ⟨self, op, -, hexec⟩ := h
  have hacts := acts_of_executes hexec
  obtain ⟨node, hnode, hkey⟩ := hv
  have hknown : v ∈ m.nodes := (ExtTreeMap.getElem?_eq_some_iff.mp hnode).fst
  refine ⟨node, ?_, hkey⟩
  cases op with
  | addLearnerNode id added =>
      rw [hacts.nodes, ExtTreeMap.getElem?_insertIfNew, if_neg, hnode]
      exact fun hnew => hnew.2 (compare_eq_iff_eq.mp hnew.1 ▸ hknown)
  | promoteVoter id => rw [hacts.nodes, hnode]
  | demoteVoter id => rw [hacts.nodes, hnode]
  | removeMember id =>
      rw [hacts.nodes, ExtTreeMap.mem_erase] at hstays
      rw [hacts.nodes, ExtTreeMap.getElem?_erase, if_neg hstays.1, hnode]

theorem Keyless.of_run
    (h : Relation.ReflTransGen (fun m m' => Operates crypto m m' ∧ v ∈ m'.nodes) m m')
    (hv : Keyless v m.nodes) : Keyless v m'.nodes := by
  induction h with
  | refl => exact hv
  | tail _ hstep ih => exact ih.of_operates hstep.1 hstep.2

/-- A configured voter that has been a member all the time and is a learner now cannot be
promoted. -/
theorem configured_voter_stays_demoted {cluster : ClusterConfig} {whoami : String}
    {localNode : RaftNode} {start : Members} {member : ClusterMemberConfig} {metrics : RaftMetrics}
    (hstart : (bootstrapVoters crypto cluster whoami localNode).map Members.initialize = .ok start)
    (hmember : member ∈ cluster.voters)
    (hv : nodeIdFromPeerId crypto.toPrimitives member.peerId = v)
    (hrun : Relation.ReflTransGen (fun m m' => Operates crypto m m' ∧ v ∈ m'.nodes)
      start metrics.members)
    (hlearner : v ∉ metrics.members.voters) :
    promotable v metrics.membershipView =
      .error (.new "missing_x25519_key" s!"node {v} has no X25519 exchange key") := by
  obtain ⟨node, hnode, hkey⟩ := Keyless.of_run hrun (hv ▸ keyless_start hstart hmember)
  rw [promotable, find_membershipView, hnode]
  simp only [Option.map_some, okOr, Members.info, hlearner, hkey]
  rfl

def showing (m : Members) : Oracle ServiceCall ServiceAnswer
  | _, .membershipView => (⟨1, some 97, .leader, m⟩ : RaftMetrics).membershipView
  | past, call => idleService past call

theorem showing_shows (m : Members) : LeaderShows (showing m) m :=
  ⟨fun _ => rfl, fun _ => rfl, fun _ => ⟨⟨1, some 97, .leader, m⟩, rfl, rfl⟩⟩

/-- The membership after the configured voter `peerA` was demoted. -/
def configuredDemoted : TrustWorld × Except String Unit :=
  leaderCall sampleCrypto 97 (.demoteVoter memberA) (pairStart peerA)

def promotionOfA : AdminRequestV2 :=
  { AdminRequestV2.default with op := "promote_voter", member := some keyedSpec }

/-- The configured voter `peerA` is demoted, and the promotion that follows is refused although
all keys are well formed. -/
theorem demoted_configured_voter_is_refused :
    let m := configuredDemoted.1.1
    let ctx := sampleService promotionOfA (sampleJoin (sampleToken "auth"))
    sampleCrypto.Seals ∧ HasExchangeKey sampleCrypto nodeA ∧
    (∀ member ∈ (pairCluster peerA).voters, KeyParses sampleCrypto member.identityKey) ∧
    (bootstrapVoters sampleCrypto (pairCluster peerA) "a" nodeA).map Members.initialize =
      .ok (pairStart peerA).1 ∧
    Executes faultyAnswers (Runtime.demoteVoter 97 memberA) (pairStart peerA).1 m (.ok ()) ∧
    memberNodeId ctx.crypto.toPrimitives keyedSpec = .ok memberA ∧ LeaderShows (showing m) m ∧
    (play (showing m) []
        (executeMemberWrite ctx promotionOfA none ⟨"root", .root, "", []⟩).run).2 =
      .error (.new "missing_x25519_key" s!"node {memberA} has no X25519 exchange key") := by
  intro m ctx
  have hkey : parseX25519 sampleCrypto voterKey = .ok (List.replicate 32 7) := by decide +kernel
  have hidentity : parseVerifyingKey sampleCrypto voterKey = .ok (List.replicate 32 7) := by
    decide +kernel
  have hdemoted : Executes faultyAnswers (Runtime.demoteVoter 97 memberA) (pairStart peerA).1 m
      (.ok ()) :=
    @executes_of_leaderCall sampleCrypto 97 (.demoteVoter memberA) (pairStart peerA)
      (by decide +kernel)
  refine ⟨sampleCrypto_seals, ⟨_, hkey⟩, ?_, by decide +kernel, hdemoted, by decide +kernel,
    showing_shows m, by decide +kernel⟩
  intro member hmember
  obtain rfl := List.mem_singleton.mp hmember
  exact ⟨_, hidentity⟩

end NexusAuth.Service
