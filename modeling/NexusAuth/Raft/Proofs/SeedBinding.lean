import NexusAuth.Ideal
import NexusAuth.Raft.Proofs.Seeds

/-!
# What a sealed seed is bound to

An envelope names its target in the clear, and the target compares these fields with its own.
The exchange key is not among them; it is fixed by the key that the ciphertext was made with.
Everything else that the envelope holds is under the signature of the sender.
-/

namespace NexusAuth.Raft

open NexusAuth.Authority NexusAuth.Lib.OrderedMap NexusAuth.Lib.Results

section Binding

variable {crypto : Crypto} {node : SeedNode} {view : Option NodeId}
  {envelope altered : SeedEnvelope}
  {identity seed opened : Bytes} {sender nodeId : NodeId} {clusterId network : String}
  {entry : RaftNode} {random : SealRandom}

/-! ## The target -/

theorem addressed_of_openSeed (h : openSeed crypto node view envelope = .ok opened) :
    (envelope.clusterId = node.clusterId ∧ envelope.network = node.network) ∧
      envelope.nodeId = node.nodeId ∧ envelope.peerId = node.peerId ∧
      envelope.identityKey = node.identityKey crypto := by
  rw [openSeed] at h
  split at h
  · cases h
  split at h
  · cases h
  rename_i hcluster
  split at h
  · cases h
  rename_i haddress
  simp only [ne_eq, not_or, not_not] at hcluster haddress
  exact ⟨hcluster, haddress⟩

theorem deriveKey_inj (hsealing : crypto.Sealing) {shared shared' key : Bytes}
    {binding binding' : SeedBinding} (h : deriveKey crypto shared clusterId binding = .ok key)
    (h' : deriveKey crypto shared' clusterId binding' = .ok key) : shared = shared' := by
  simp only [deriveKey, bind_eq_ok, okOr_eq_ok] at h h'
  obtain ⟨bytes, -, hkey⟩ := h
  obtain ⟨bytes', -, hkey'⟩ := h'
  exact (hsealing.hkdf_inj _ _ _ _ _ _ _ hkey hkey').2.1

theorem exchangeKey_of_decryptSeed (hlaw : crypto.Lawful) (hsealing : crypto.Sealing)
    (hexact : crypto.ExactExchange) {secret : Bytes}
    (hseal : sealSeed crypto identity sender clusterId network nodeId entry seed random =
      .ok envelope)
    (h : decryptSeed crypto secret envelope = .ok opened) :
    crypto.unbase64 entry.x25519Key = some (crypto.xPublic secret) := by
  simp only [sealSeed, bind_eq_ok, okOr_eq_ok, pure_eq_ok] at hseal
  obtain ⟨targetPublic, hpublic, key, hkey, ciphertext, hencrypt, bytes, -, rfl⟩ := hseal
  simp only [decryptSeed, bind_eq_ok, okOr_eq_ok, mapError_eq_ok, parseX25519_eq_ok,
    hlaw.unbase64_base64, Option.some.injEq] at h
  obtain ⟨ephemeral, ⟨rfl, -⟩, key', hkey', nonce, rfl, ciphertext', rfl, h⟩ := h
  rw [if_pos random.nonce_length] at h
  obtain ⟨plaintext, hdecrypt, -⟩ := bind_eq_ok.mp h
  obtain ⟨rfl, -⟩ := hsealing.aead_fixed _ _ _ _ _ _ _ hencrypt (okOr_eq_ok.mp hdecrypt)
  have hshared := deriveKey_inj hsealing hkey hkey'
  rw [(parseX25519_eq_ok.mp hpublic).1, hexact _ _ _ hshared]

theorem matches_of_openSeed (hlaw : crypto.Lawful) (hsealing : crypto.Sealing)
    (hexact : crypto.ExactExchange)
    (hseal : sealSeed crypto identity sender clusterId network nodeId entry seed random =
      .ok envelope)
    (h : openSeed crypto node view envelope = .ok opened) :
    node.Matches crypto clusterId network nodeId entry := by
  obtain ⟨-, -, -, hdecrypt⟩ := openSeed_iff.mp h
  have hexchange := exchangeKey_of_decryptSeed hlaw hsealing hexact hseal hdecrypt
  obtain ⟨⟨hcluster, hnetwork⟩, hnodeId, hpeerId, hidentity⟩ := addressed_of_openSeed h
  simp only [sealSeed, bind_eq_ok, pure_eq_ok] at hseal
  obtain ⟨_, -, _, -, _, -, _, -, rfl⟩ := hseal
  exact ⟨hcluster.symm, hnetwork.symm, hnodeId.symm, hpeerId.symm, hidentity.symm, hexchange⟩

/-! ## The fields -/

theorem fields_of_envelopeSigningBytes (hsigning : crypto.Signing) {bytes : Bytes}
    (h : envelopeSigningBytes crypto envelope = .ok bytes)
    (h' : envelopeSigningBytes crypto altered = .ok bytes) :
    altered = { envelope with sig := altered.sig } := by
  simp only [envelopeSigningBytes, encodeCbor, mapError_eq_ok] at h h'
  have hfields := hsigning.cbor_inj _ _ bytes (by rfl) h h'
  obtain ⟨v, fromNode, cluster, network, nodeId, peerId, identityKey, ephemeral, nonce,
    text, sig⟩ :=
    envelope
  obtain ⟨v', fromNode', cluster', network', nodeId', peerId', identityKey', ephemeral', nonce',
    text', sig'⟩ := altered
  simp only [List.cons.injEq, Prod.mk.injEq, Cbor.uint.injEq, Cbor.text.injEq, UInt8.toNat_inj,
    true_and, and_true] at hfields
  obtain ⟨rfl, rfl, rfl, rfl, rfl, rfl, rfl, rfl, rfl, rfl⟩ := hfields
  rfl

/-- `altered` was made from `envelope` after it was signed.  Ed25519 is unforgeable: its
signature is none of the sender's, or it belongs to one of the messages that the sender has
`signed`; and the sender has not signed the new contents. -/
structure SeedEnvelope.Tampered (crypto : Crypto) (identity : Bytes) (signed : Set Bytes)
    (envelope altered : SeedEnvelope) : Prop where
  ne : altered ≠ envelope
  unforged : ∀ message, crypto.unbase64Url altered.sig = some (crypto.edSign identity message) →
    message ∈ signed
  unsigned : ∀ message ∈ signed, envelopeSigningBytes crypto altered = .ok message →
    envelopeSigningBytes crypto envelope = .ok message

theorem sig_of_sealSeed
    (hseal : sealSeed crypto identity sender clusterId network nodeId entry seed random =
      .ok envelope) {bytes : Bytes} (hbytes : envelopeSigningBytes crypto envelope = .ok bytes) :
    envelope.sig = crypto.base64Url (crypto.edSign identity bytes) := by
  simp only [sealSeed, bind_eq_ok, pure_eq_ok] at hseal
  obtain ⟨_, -, _, -, _, -, bytes', hbytes', rfl⟩ := hseal
  obtain rfl : bytes' = bytes := Except.ok.inj (hbytes'.symm.trans hbytes)
  rfl

theorem aeadNonce_sealSeed
    (hseal : sealSeed crypto identity sender clusterId network nodeId entry seed random =
      .ok envelope) : envelope.aeadNonce = crypto.base64 random.nonce := by
  simp only [sealSeed, bind_eq_ok, pure_eq_ok] at hseal
  obtain ⟨_, -, _, -, _, -, _, -, rfl⟩ := hseal
  rfl

theorem not_signedBy_of_tampered (hsigning : crypto.Signing) {signed : Set Bytes}
    (hkey : node.verifier.keys[sender]? = some (crypto.edPublic identity))
    (hseal : sealSeed crypto identity sender clusterId network nodeId entry seed random =
      .ok envelope)
    (htampered : envelope.Tampered crypto identity signed altered) :
    ¬SignedBy crypto node.verifier sender (envelopeSigningBytes crypto altered) altered.sig := by
  rintro ⟨message, key, signature, hmessage, hkey', hsignature, hverify⟩
  obtain rfl : key = crypto.edPublic identity := Option.some.inj (hkey'.symm.trans hkey)
  obtain rfl := hsigning.edVerify_eq _ _ _ hverify
  have hbytes := htampered.unsigned message (htampered.unforged message hsignature) hmessage
  have hfields := fields_of_envelopeSigningBytes hsigning hbytes hmessage
  have hsig : altered.sig = envelope.sig := by
    rw [sig_of_sealSeed hseal hbytes, hsigning.base64Url_unbase64Url _ _ hsignature]
  apply htampered.ne
  rw [hfields, hsig]

end Binding

/-- A sealed seed is opened by the node that it was sealed for.  A node that differs from it in
its cluster, network, id, peer id or one of its keys does not open the envelope, and nobody who
knows the sender as the leader opens it after it was altered. -/
theorem sealed_seed_is_bound (crypto : Crypto) (hlaw : crypto.Lawful) (hsealing : crypto.Sealing)
    (hexact : crypto.ExactExchange) (hsigning : crypto.Signing) (identity : Bytes)
    (sender nodeId : NodeId) (clusterId network : String) (entry : RaftNode) (seed : Bytes)
    (random : SealRandom) (envelope : SeedEnvelope) (hseed : seed.length = seedLen)
    (hseal : sealSeed crypto identity sender clusterId network nodeId entry seed random =
      .ok envelope) :
    (∀ node : SeedNode, node.Matches crypto clusterId network nodeId entry →
      node.verifier.keys[sender]? = some (crypto.edPublic identity) →
      openSeed crypto node (some sender) envelope = .ok seed) ∧
    (∀ (node : SeedNode) (view : Option NodeId),
      ¬node.Matches crypto clusterId network nodeId entry →
      ∃ e, openSeed crypto node view envelope = .error e) ∧
    ∀ (node : SeedNode) (signed : Set Bytes) (altered : SeedEnvelope),
      node.verifier.keys[sender]? = some (crypto.edPublic identity) →
      envelope.Tampered crypto identity signed altered →
      ∃ e, openSeed crypto node (some sender) altered = .error e := by
  refine ⟨?_, ?_, ?_⟩
  · intro node hnode hkey
    exact openSeed_sealSeed hlaw hseed hnode hkey (.inr rfl) hseal
  · intro node view hnode
    cases hopen : openSeed crypto node view envelope with
    | error e => exact ⟨e, rfl⟩
    | ok opened => exact (hnode (matches_of_openSeed hlaw hsealing hexact hseal hopen)).elim
  · intro node signed altered hkey htampered
    cases hopen : openSeed crypto node (some sender) altered with
    | error e => exact ⟨e, rfl⟩
    | ok opened =>
        obtain ⟨-, hfrom | hfrom, hsigned, -⟩ := openSeed_iff.mp hopen
        · cases hfrom
        · rw [← Option.some.inj hfrom] at hsigned
          exact (not_signedBy_of_tampered hsigning hkey hseal htampered hsigned).elim

/-! ### An envelope for node 2

Node 1 seals a seed for node 2 of the earlier example, whose exchange key is `2`. -/

open NoLeader

theorem node2_matches_ideal : node2.Matches idealCrypto "cluster" "net" 2 entry2 :=
  ⟨rfl, rfl, rfl, rfl, rfl, sampleUntext_sampleText _⟩

theorem exists_envelope : ∃ envelope,
    sealSeed idealCrypto [1] 1 "cluster" "net" 2 entry2 networkSeed random = .ok envelope := by
  have hpublic : parseX25519 idealCrypto entry2.x25519Key = .ok (List.replicate 32 2) :=
    parseX25519_eq_ok.mpr ⟨sampleUntext_sampleText _, rfl⟩
  rw [sealSeed, hpublic]
  exact ⟨_, rfl⟩

theorem tampered_nonce {envelope : SeedEnvelope}
    (hseal : sealSeed idealCrypto [1] 1 "cluster" "net" 2 entry2 networkSeed random =
      .ok envelope) :
    ∃ signed, envelope.Tampered idealCrypto [1] signed { envelope with aeadNonce := "" } := by
  obtain ⟨bytes, hbytes⟩ : ∃ bytes, envelopeSigningBytes idealCrypto envelope = .ok bytes :=
    ⟨_, rfl⟩
  refine ⟨{bytes}, ?_, ?_, ?_⟩
  · intro h
    have hempty : "" = envelope.aeadNonce := congrArg SeedEnvelope.aeadNonce h
    rw [aeadNonce_sealSeed hseal] at hempty
    revert hempty
    decide +kernel
  · intro message hmessage
    rw [sig_of_sealSeed hseal hbytes, idealCrypto_lawful.unbase64Url_base64Url] at hmessage
    exact (List.append_cancel_left (Option.some.inj hmessage)).symm
  · rintro message rfl _
    exact hbytes

/-- Node 2 opens the envelope, a node with another exchange key does not, and neither does node 2
when the nonce was replaced. -/
theorem sealed_seed_is_bound_node2 :
    ∃ envelope,
      sealSeed idealCrypto [1] 1 "cluster" "net" 2 entry2 networkSeed random = .ok envelope ∧
      openSeed idealCrypto node2 (some 1) envelope = .ok networkSeed ∧
      (∃ e, openSeed idealCrypto { node2 with x25519 := List.replicate 32 3 } (some 1) envelope =
        .error e) ∧
      ∃ e, openSeed idealCrypto node2 (some 1) { envelope with aeadNonce := "" } = .error e := by
  obtain ⟨envelope, hseal⟩ := exists_envelope
  obtain ⟨signed, htampered⟩ := tampered_nonce hseal
  have hkey : node2.verifier.keys[1]? = some [1] := by decide +kernel
  obtain ⟨hopen, hother, haltered⟩ := sealed_seed_is_bound idealCrypto idealCrypto_lawful
    idealCrypto_sealing idealCrypto_exact idealCrypto_signing [1] 1 2 "cluster" "net" entry2
    networkSeed random envelope rfl hseal
  refine ⟨envelope, hseal, hopen node2 node2_matches_ideal hkey, ?_,
    haltered node2 signed _ hkey htampered⟩
  apply hother
  intro hmatches
  have hexchange := hmatches.exchangeKey.symm.trans (sampleUntext_sampleText (List.replicate 32 2))
  exact absurd (Option.some.inj hexchange) (by decide)

end NexusAuth.Raft
