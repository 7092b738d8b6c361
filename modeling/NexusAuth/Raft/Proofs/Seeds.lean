import NexusAuth.Lib.Results
import NexusAuth.Raft.Seed

/-!
# Who can change a node's seed

What a node checks before it installs or drops the seed, and what it then holds.
-/

namespace NexusAuth.Raft

open NexusAuth.Authority NexusAuth.Lib.OrderedMap NexusAuth.Lib.Results

variable {crypto : Crypto} {node : SeedNode} {view : Option NodeId} {io : Option String}
  {holder updated : SeedHolder}

/-! ## Signatures -/

/-- The encoded message has a signature of the registered key of `sender`. -/
def SignedBy (crypto : Crypto) (verifier : RpcVerifier) (sender : NodeId)
    (bytes : Except SeedError Bytes) (sig : String) : Prop :=
  ∃ message key signature, bytes = .ok message ∧ verifier.keys[sender]? = some key ∧
    crypto.unbase64Url sig = some signature ∧ crypto.edVerify key message signature = true

theorem verifyNodeSignature_eq_ok {verifier : RpcVerifier} {sender : NodeId} {message : Bytes}
    {sig : String} :
    verifier.verifyNodeSignature crypto sender message sig = .ok () ↔
      ∃ key signature, verifier.keys[sender]? = some key ∧
        crypto.unbase64Url sig = some signature ∧
        crypto.edVerify key message signature = true := by
  rw [RpcVerifier.verifyNodeSignature]
  cases verifier.keys[sender]? with
  | none => simp
  | some key =>
      cases crypto.unbase64Url sig with
      | none => simp
      | some signature => simp

theorem verifySigned_eq_ok {verifier : RpcVerifier} {sender : NodeId}
    {bytes : Except SeedError Bytes} {sig : String} :
    verifySigned crypto verifier sender bytes sig = .ok () ↔
      SignedBy crypto verifier sender bytes sig := by
  simp only [verifySigned, bind_eq_ok, mapError_eq_ok, verifyNodeSignature_eq_ok, SignedBy,
    exists_and_left]

/-! ## Accepted messages -/

theorem fromOther_eq_false {sender : NodeId} :
    fromOther view sender = false ↔ view = none ∨ view = some sender := by
  cases view with
  | none => simp [fromOther]
  | some leader =>
      simp only [fromOther, ne_eq, decide_not, Bool.not_eq_false', decide_eq_true_eq, reduceCtorEq,
        false_or, Option.some.injEq]
      exact eq_comm

structure SeedEnvelope.Addressed (crypto : Crypto) (node : SeedNode) (envelope : SeedEnvelope) :
    Prop where
  version : envelope.v = seedEnvelopeVersion
  clusterId : envelope.clusterId = node.clusterId
  network : envelope.network = node.network
  nodeId : envelope.nodeId = node.nodeId
  peerId : envelope.peerId = node.peerId
  identityKey : envelope.identityKey = node.identityKey crypto

structure SeedDropRequest.Addressed (node : SeedNode) (request : SeedDropRequest) : Prop where
  op : request.op = seedDropOp
  version : request.v = seedEnvelopeVersion
  clusterId : request.clusterId = node.clusterId
  nodeId : request.nodeId = node.nodeId
  peerId : request.peerId = node.peerId

theorem openSeed_iff {envelope : SeedEnvelope} {seed : Bytes} :
    openSeed crypto node view envelope = .ok seed ↔
      envelope.Addressed crypto node ∧ (view = none ∨ view = some envelope.fromNode) ∧
        SignedBy crypto node.verifier envelope.fromNode (envelopeSigningBytes crypto envelope)
          envelope.sig ∧
        decryptSeed crypto node.x25519 envelope = .ok seed := by
  constructor
  · intro h
    rw [openSeed] at h
    split at h
    · cases h
    rename_i hversion
    split at h
    · cases h
    rename_i hcluster
    split at h
    · cases h
    rename_i hnode
    split at h
    · cases h
    rename_i hother
    simp only [ne_eq, not_or, not_not] at hversion hcluster hnode
    obtain ⟨_, hsigned, hdecrypt⟩ := bind_eq_ok.mp h
    exact ⟨⟨hversion, hcluster.1, hcluster.2, hnode.1, hnode.2.1, hnode.2.2⟩,
      fromOther_eq_false.mp (Bool.eq_false_iff.mpr hother), verifySigned_eq_ok.mp hsigned, hdecrypt⟩
  · rintro ⟨haddress, hview, hsigned, hdecrypt⟩
    rw [openSeed, if_neg (by simp [haddress.version]),
      if_neg (by simp [haddress.clusterId, haddress.network]),
      if_neg (by simp [haddress.nodeId, haddress.peerId, haddress.identityKey]),
      if_neg (Bool.eq_false_iff.mp (fromOther_eq_false.mpr hview)), bind_eq_ok]
    exact ⟨(), verifySigned_eq_ok.mpr hsigned, hdecrypt⟩

theorem verifyDropRequest_iff {request : SeedDropRequest} :
    verifyDropRequest crypto node view request = .ok () ↔
      request.Addressed node ∧ (view = none ∨ view = some request.fromNode) ∧
        SignedBy crypto node.verifier request.fromNode (dropSigningBytes crypto request)
          request.sig := by
  constructor
  · intro h
    rw [verifyDropRequest] at h
    split at h
    · cases h
    rename_i hnode
    split at h
    · cases h
    rename_i hother
    simp only [ne_eq, not_or, not_not] at hnode
    exact ⟨⟨hnode.1, hnode.2.1, hnode.2.2.1, hnode.2.2.2.1, hnode.2.2.2.2⟩,
      fromOther_eq_false.mp (Bool.eq_false_iff.mpr hother), verifySigned_eq_ok.mp h⟩
  · rintro ⟨haddress, hview, hsigned⟩
    rw [verifyDropRequest, if_neg (by simp [haddress.op, haddress.version, haddress.clusterId,
      haddress.nodeId, haddress.peerId]),
      if_neg (Bool.eq_false_iff.mp (fromOther_eq_false.mpr hview))]
    exact verifySigned_eq_ok.mpr hsigned

theorem acceptSeed_eq_ok {envelope : SeedEnvelope}
    (h : acceptSeed crypto node view io holder envelope = .ok updated) :
    ∃ seed, openSeed crypto node view envelope = .ok seed ∧ updated = .holding seed := by
  rw [acceptSeed] at h
  split at h
  · cases h
  · rename_i seed hopen
    split at h
    · cases io with
      | some e => cases h
      | none =>
          cases h
          exact ⟨seed, hopen, rfl⟩
    · cases h

theorem acceptSeedDrop_eq_ok {request : SeedDropRequest}
    (h : acceptSeedDrop crypto node view io holder request = .ok updated) :
    verifyDropRequest crypto node view request = .ok () ∧ updated = .empty := by
  rw [acceptSeedDrop] at h
  split at h
  · cases h
  · rename_i hverify
    cases io with
    | some e => cases h
    | none =>
        cases h
        exact ⟨hverify, rfl⟩

/-! ## Honest messages are accepted -/

theorem signedBy_signB64 (hlaw : crypto.Lawful) {verifier : RpcVerifier} {sender : NodeId}
    {identity message : Bytes} {bytes : Except SeedError Bytes} (hbytes : bytes = .ok message)
    (hkey : verifier.keys[sender]? = some (crypto.edPublic identity)) :
    SignedBy crypto verifier sender bytes (signB64 crypto identity message) :=
  ⟨message, crypto.edPublic identity, crypto.edSign identity message, hbytes, hkey,
    hlaw.unbase64Url_base64Url _, hlaw.edVerify_edSign identity message⟩

theorem parseX25519_eq_ok {text : String} {key : Bytes} :
    parseX25519 crypto text = .ok key ↔
      crypto.unbase64 text = some key ∧ key.length = x25519KeyLen := by
  rw [parseX25519]
  cases crypto.unbase64 text with
  | none => simp
  | some raw =>
      by_cases hlen : raw.length = x25519KeyLen
      · simp only [if_pos hlen, Except.ok.injEq, Option.some.injEq]
        constructor
        · rintro rfl
          exact ⟨rfl, hlen⟩
        · exact And.left
      · simp only [if_neg hlen, reduceCtorEq, Option.some.injEq, false_iff, not_and]
        rintro rfl
        exact hlen

theorem decryptSeed_sealSeed (hlaw : crypto.Lawful) {identity secret seed : Bytes}
    {leader targetNode : NodeId} {clusterId network : String} {target : RaftNode}
    {random : SealRandom} {envelope : SeedEnvelope} (hseed : seed.length = seedLen)
    (hkey : crypto.unbase64 target.x25519Key = some (crypto.xPublic secret))
    (hseal : sealSeed crypto identity leader clusterId network targetNode target seed random =
      .ok envelope) :
    decryptSeed crypto secret envelope = .ok seed := by
  simp only [sealSeed, bind_eq_ok, okOr_eq_ok, pure_eq_ok] at hseal
  obtain ⟨targetPublic, hpublic, key, hderive, ciphertext, hencrypt, bytes, -, rfl⟩ := hseal
  obtain rfl : targetPublic = crypto.xPublic secret := by
    rw [(parseX25519_eq_ok.mp hpublic).1] at hkey
    exact Option.some.inj hkey
  rw [hlaw.xShared_comm] at hderive
  have hephemeral : parseX25519 crypto (crypto.base64 (crypto.xPublic random.ephemeral)) =
      .ok (crypto.xPublic random.ephemeral) :=
    parseX25519_eq_ok.mpr
      ⟨hlaw.unbase64_base64 _, hlaw.xPublic_length _ random.ephemeral_length⟩
  simp only [decryptSeed, bind_eq_ok, okOr_eq_ok, mapError_eq_ok]
  refine ⟨_, hephemeral, key, hderive, random.nonce, hlaw.unbase64_base64 _, ciphertext,
    hlaw.unbase64_base64 _, ?_⟩
  rw [if_pos random.nonce_length, bind_eq_ok]
  exact ⟨seed, okOr_eq_ok.mpr (hlaw.aeadDecrypt_aeadEncrypt _ _ _ _ hencrypt), if_pos hseed⟩

theorem fromNode_sealSeed {identity seed : Bytes} {sender targetNode : NodeId}
    {clusterId network : String} {target : RaftNode} {random : SealRandom}
    {envelope : SeedEnvelope}
    (hseal : sealSeed crypto identity sender clusterId network targetNode target seed random =
      .ok envelope) : envelope.fromNode = sender := by
  simp only [sealSeed, bind_eq_ok, pure_eq_ok] at hseal
  obtain ⟨_, -, _, -, _, -, _, -, rfl⟩ := hseal
  rfl

structure SeedNode.Matches (crypto : Crypto) (node : SeedNode) (clusterId network : String)
    (nodeId : NodeId) (entry : RaftNode) : Prop where
  clusterId : node.clusterId = clusterId
  network : node.network = network
  nodeId : node.nodeId = nodeId
  peerId : node.peerId = entry.peerId
  identityKey : node.identityKey crypto = entry.identityKey
  exchangeKey : crypto.unbase64 entry.x25519Key = some (crypto.xPublic node.x25519)

theorem openSeed_sealSeed (hlaw : crypto.Lawful) {identity seed : Bytes} {sender : NodeId}
    {clusterId network : String} {nodeId : NodeId} {entry : RaftNode} {random : SealRandom}
    {envelope : SeedEnvelope} (hseed : seed.length = seedLen)
    (hnode : node.Matches crypto clusterId network nodeId entry)
    (hkey : node.verifier.keys[sender]? = some (crypto.edPublic identity))
    (hview : view = none ∨ view = some sender)
    (hseal : sealSeed crypto identity sender clusterId network nodeId entry seed random =
      .ok envelope) :
    openSeed crypto node view envelope = .ok seed := by
  have hdecrypt := decryptSeed_sealSeed hlaw hseed hnode.exchangeKey hseal
  simp only [sealSeed, bind_eq_ok, okOr_eq_ok, pure_eq_ok] at hseal
  obtain ⟨targetPublic, -, key, -, ciphertext, -, bytes, hbytes, rfl⟩ := hseal
  refine openSeed_iff.mpr ⟨⟨rfl, ?_, ?_, ?_, ?_, ?_⟩, hview, signedBy_signB64 hlaw hbytes hkey,
    hdecrypt⟩
  · exact hnode.clusterId.symm
  · exact hnode.network.symm
  · exact hnode.nodeId.symm
  · exact hnode.peerId.symm
  · exact hnode.identityKey.symm

/-- Once a seed is opened, only the file system can keep a node from holding it. -/
theorem acceptSeed_of_openSeed {envelope : SeedEnvelope} {seed : Bytes}
    (hopen : openSeed crypto node view envelope = .ok seed)
    (hname : isValidNetworkName node.network = true) :
    acceptSeed crypto node view none holder envelope = .ok (.holding seed) := by
  rw [acceptSeed, hopen]
  simp only [hname, if_true]
  rfl

theorem verifyDropRequest_signDropRequest (hlaw : crypto.Lawful) {identity : Bytes}
    {sender : NodeId} {clusterId network : String} {nodeId : NodeId} {entry : RaftNode}
    {request : SeedDropRequest} (hnode : node.Matches crypto clusterId network nodeId entry)
    (hkey : node.verifier.keys[sender]? = some (crypto.edPublic identity))
    (hview : view = none ∨ view = some sender)
    (hsign : signDropRequest crypto identity sender clusterId nodeId entry = .ok request) :
    verifyDropRequest crypto node view request = .ok () := by
  simp only [signDropRequest, bind_eq_ok, pure_eq_ok] at hsign
  obtain ⟨bytes, hbytes, rfl⟩ := hsign
  refine verifyDropRequest_iff.mpr
    ⟨⟨rfl, rfl, ?_, ?_, ?_⟩, hview, signedBy_signB64 hlaw hbytes hkey⟩
  · exact hnode.clusterId.symm
  · exact hnode.nodeId.symm
  · exact hnode.peerId.symm

theorem acceptSeedDrop_of_verifyDropRequest {request : SeedDropRequest}
    (hverify : verifyDropRequest crypto node view request = .ok ()) :
    acceptSeedDrop crypto node view none holder request = .ok .empty := by
  rw [acceptSeedDrop, hverify]
  rfl

/-- A positive acknowledgement of a registered member is accepted, whatever it was made
for. -/
theorem verifyAck_signAck (hlaw : crypto.Lawful) {verifier : RpcVerifier} {identity : Bytes}
    {sender receiver : NodeId} {error : String} {ack : SeedAck}
    (hkey : verifier.keys[sender]? = some (crypto.edPublic identity))
    (hsign : signAck crypto identity sender receiver true error = .ok ack) :
    verifyAck crypto verifier sender ack = .ok () := by
  simp only [signAck, bind_eq_ok, pure_eq_ok] at hsign
  obtain ⟨bytes, hbytes, rfl⟩ := hsign
  rw [verifyAck, if_neg (by simp), bind_eq_ok]
  exact ⟨(), verifySigned_eq_ok.mpr (signedBy_signB64 hlaw hbytes hkey), if_pos rfl⟩

/-! ## Changes come from the leader -/

/-- Everything that `accept_seed` demands of an envelope, apart from the leader. -/
structure SeedEnvelope.Proper (crypto : Crypto) (node : SeedNode) (envelope : SeedEnvelope) :
    Prop where
  addressed : envelope.Addressed crypto node
  signed : SignedBy crypto node.verifier envelope.fromNode (envelopeSigningBytes crypto envelope)
    envelope.sig
  opens : ∃ seed, decryptSeed crypto node.x25519 envelope = .ok seed
  name : isValidNetworkName node.network = true

structure SeedDropRequest.Proper (crypto : Crypto) (node : SeedNode) (request : SeedDropRequest) :
    Prop where
  addressed : request.Addressed node
  signed : SignedBy crypto node.verifier request.fromNode (dropSigningBytes crypto request)
    request.sig

def SeedNode.LeaderSigned (crypto : Crypto) (node : SeedNode) (view : Option NodeId)
    (sender : NodeId) (bytes : Except SeedError Bytes) (sig : String) : Prop :=
  ∃ leader, view = some leader ∧ sender = leader ∧ SignedBy crypto node.verifier leader bytes sig

theorem leaderSigned_of_view {sender : NodeId} {bytes : Except SeedError Bytes} {sig : String}
    (hview : view.isSome) (hfrom : view = none ∨ view = some sender)
    (hsigned : SignedBy crypto node.verifier sender bytes sig) :
    node.LeaderSigned crypto view sender bytes sig := by
  rcases hfrom with hnone | hsome
  · rw [hnone] at hview
    cases hview
  · exact ⟨sender, hsome, rfl, hsigned⟩

theorem isSome_of_leaderSigned {sender : NodeId} {bytes : Except SeedError Bytes} {sig : String}
    (h : node.LeaderSigned crypto view sender bytes sig) : view.isSome := by
  obtain ⟨leader, rfl, -⟩ := h
  rfl

theorem proper_of_acceptSeed {envelope : SeedEnvelope}
    (h : acceptSeed crypto node view io holder envelope = .ok updated) :
    envelope.Proper crypto node ∧ io = none := by
  rw [acceptSeed] at h
  split at h
  · cases h
  rename_i seed hopen
  split at h
  · rename_i hname
    cases io with
    | some e => cases h
    | none =>
        obtain ⟨haddress, -, hsigned, hdecrypt⟩ := openSeed_iff.mp hopen
        exact ⟨⟨haddress, hsigned, ⟨seed, hdecrypt⟩, hname⟩, rfl⟩
  · cases h

theorem proper_of_acceptSeedDrop {request : SeedDropRequest}
    (h : acceptSeedDrop crypto node view io holder request = .ok updated) :
    request.Proper crypto node ∧ io = none := by
  obtain ⟨hverify, -⟩ := acceptSeedDrop_eq_ok h
  obtain ⟨haddress, -, hsigned⟩ := verifyDropRequest_iff.mp hverify
  cases io with
  | some e =>
      rw [acceptSeedDrop, hverify] at h
      cases h
  | none => exact ⟨⟨haddress, hsigned⟩, rfl⟩

/-- A message changes what the node holds only as one of the leader exactly if the node knows a
leader, or the message fails for another reason. -/
theorem seed_changed_only_by_leader (crypto : Crypto) (node : SeedNode) (view : Option NodeId)
    (io : Option String) (holder : SeedHolder) :
    (∀ envelope : SeedEnvelope,
      (∀ updated, acceptSeed crypto node view io holder envelope = .ok updated →
        node.LeaderSigned crypto view envelope.fromNode (envelopeSigningBytes crypto envelope)
          envelope.sig) ↔
      view.isSome ∨ ¬(envelope.Proper crypto node ∧ io = none)) ∧
    (∀ request : SeedDropRequest,
      (∀ updated, acceptSeedDrop crypto node view io holder request = .ok updated →
        node.LeaderSigned crypto view request.fromNode (dropSigningBytes crypto request)
          request.sig) ↔
      view.isSome ∨ ¬(request.Proper crypto node ∧ io = none)) := by
  constructor
  · intro envelope
    constructor
    · intro h
      by_contra hnot
      obtain ⟨hview, hpasses⟩ := not_or.mp hnot
      obtain ⟨hproper, rfl⟩ := not_not.mp hpasses
      obtain ⟨seed, hdecrypt⟩ := hproper.opens
      -- without a leader the remaining checks are enough
      have hnone : view = none := by simpa using hview
      have hopen := openSeed_iff.mpr ⟨hproper.addressed, Or.inl hnone, hproper.signed, hdecrypt⟩
      exact hview (isSome_of_leaderSigned (h _ (acceptSeed_of_openSeed hopen hproper.name)))
    · intro h updated haccept
      have hview := h.resolve_right (not_not.mpr (proper_of_acceptSeed haccept))
      obtain ⟨seed, hopen, -⟩ := acceptSeed_eq_ok haccept
      obtain ⟨-, hfrom, hsigned, -⟩ := openSeed_iff.mp hopen
      exact leaderSigned_of_view hview hfrom hsigned
  · intro request
    constructor
    · intro h
      by_contra hnot
      obtain ⟨hview, hpasses⟩ := not_or.mp hnot
      obtain ⟨hproper, rfl⟩ := not_not.mp hpasses
      have hnone : view = none := by simpa using hview
      have hverify := verifyDropRequest_iff.mpr ⟨hproper.addressed, Or.inl hnone, hproper.signed⟩
      exact hview (isSome_of_leaderSigned (h _ (acceptSeedDrop_of_verifyDropRequest hverify)))
    · intro h updated haccept
      have hview := h.resolve_right (not_not.mpr (proper_of_acceptSeedDrop haccept))
      obtain ⟨hverify, -⟩ := acceptSeedDrop_eq_ok haccept
      obtain ⟨-, hfrom, hsigned⟩ := verifyDropRequest_iff.mp hverify
      exact leaderSigned_of_view hview hfrom hsigned

/-! ### No leader is known

Node 3 is a member and not the leader.  While node 2 knows no leader, it takes a seed
from node 3 and drops its own seed at node 3's request. -/

namespace NoLeader

def table : BTreeMap NodeId Bytes :=
  (((∅ : BTreeMap NodeId Bytes).insert 1 [1]).insert 2 [2]).insert 3 [3]

def node2 : SeedNode where
  identity := [2]
  x25519 := List.replicate 32 2
  verifier := ⟨"cluster", 2, table⟩
  clusterId := "cluster"
  network := "net"
  nodeId := 2
  peerId := peerB

def entry2 : RaftNode where
  peerId := peerB
  identityKey := sampleText [2]
  x25519Key := sampleText (List.replicate 32 2)

def networkSeed : Bytes := List.replicate 32 7

def otherSeed : Bytes := List.replicate 32 9

def random : SealRandom := ⟨List.replicate 32 1, rfl, List.replicate 12 1, rfl⟩

theorem node2_matches : node2.Matches sampleCrypto "cluster" "net" 2 entry2 :=
  ⟨rfl, rfl, rfl, rfl, rfl, sampleUntext_sampleText _⟩

theorem exists_accepted_envelope {sender : NodeId} {view : Option NodeId}
    (hkey : table[sender]? = some [UInt8.ofNat sender]) (hview : view = none ∨ view = some sender)
    (hseal : (sealSeed sampleCrypto [UInt8.ofNat sender] sender "cluster" "net" 2 entry2 otherSeed
      random).isOk = true) (holder : SeedHolder) :
    ∃ envelope, envelope.fromNode = sender ∧
      acceptSeed sampleCrypto node2 view none holder envelope = .ok (.holding otherSeed) := by
  obtain ⟨envelope, henvelope⟩ := isOk_eq_true.mp hseal
  have hopen := openSeed_sealSeed sampleCrypto_lawful rfl node2_matches hkey hview henvelope
  exact ⟨envelope, fromNode_sealSeed henvelope, acceptSeed_of_openSeed hopen (by decide +kernel)⟩

theorem exists_accepted_drop {sender : NodeId} {view : Option NodeId}
    (hkey : table[sender]? = some [UInt8.ofNat sender]) (hview : view = none ∨ view = some sender)
    (holder : SeedHolder) :
    ∃ request, request.fromNode = sender ∧
      acceptSeedDrop sampleCrypto node2 view none holder request = .ok .empty := by
  have hverify := verifyDropRequest_signDropRequest sampleCrypto_lawful node2_matches hkey hview rfl
  exact ⟨_, rfl, acceptSeedDrop_of_verifyDropRequest hverify⟩

end NoLeader

open NoLeader in
theorem seed_changed_without_leader :
    (∃ envelope, envelope.fromNode = 3 ∧
      acceptSeed sampleCrypto node2 none none (.holding networkSeed) envelope =
        .ok (.holding otherSeed)) ∧
    (∃ request, request.fromNode = 3 ∧
      acceptSeedDrop sampleCrypto node2 none none (.holding networkSeed) request = .ok .empty) := by
  have hkey : table[3]? = some [UInt8.ofNat 3] := by decide +kernel
  exact ⟨exists_accepted_envelope hkey (Or.inl rfl) (by decide +kernel) _,
    exists_accepted_drop hkey (Or.inl rfl) _⟩

open NoLeader in
theorem seed_changed_only_by_leader_node1 :
    ∃ envelope request,
      node2.LeaderSigned sampleCrypto (some 1) envelope.fromNode
        (envelopeSigningBytes sampleCrypto envelope) envelope.sig ∧
      node2.LeaderSigned sampleCrypto (some 1) request.fromNode
        (dropSigningBytes sampleCrypto request) request.sig := by
  have hkey : table[1]? = some [UInt8.ofNat 1] := by decide +kernel
  have hleader := seed_changed_only_by_leader sampleCrypto node2 (some 1) none .empty
  obtain ⟨envelope, -, henvelope⟩ :=
    exists_accepted_envelope hkey (Or.inr rfl) (by decide +kernel) .empty
  obtain ⟨request, -, hrequest⟩ := exists_accepted_drop hkey (Or.inr rfl) .empty
  exact ⟨envelope, request, (hleader.1 envelope).mpr (Or.inl rfl) _ henvelope,
    (hleader.2 request).mpr (Or.inl rfl) _ hrequest⟩

end NexusAuth.Raft
