import NexusAuth.Raft.Token

/-!
# What an accepted join has passed

The checks of `verify_join_token` and `verify_request`, each as one structure.  The
entry points that accepted a request matter only for the audience of its token, and the
unsigned `edge_peer` does not matter at all.
-/

namespace NexusAuth.Raft

open NexusAuth.Authority NexusAuth.Lib.Results NexusAuth.Lib.Words

variable (crypto : Crypto) (verifier : AdminVerifier) (clusterId network : String) (now : Nat)

def JoinToken.RootSigned (token : JoinToken) : Prop :=
  ∃ key bytes sig, verifier.keys[token.kid]? = some (key, .root) ∧
    tokenSigningBytes crypto token = .ok bytes ∧ crypto.unbase64Url token.sig = some sig ∧
    crypto.edVerify key bytes sig = true

/-- What `verify_join_token` establishes. -/
structure JoinToken.Sound (allowed : List String) (token : JoinToken) : Prop where
  version : token.v = joinTokenVersion
  jti : trimIsEmpty token.jti = false
  cluster : token.clusterId = clusterId
  network : token.network = network
  unexpired : token.expiresAt ≠ 0 ∧ now ≤ token.expiresAt
  usable : token.maxUses ≠ 0
  audience : audienceAllowed token allowed = true
  rootSigned : token.RootSigned crypto verifier

structure RaftJoinRequest.Sound (allowed : List String) (req : RaftJoinRequest) : Prop where
  kind : req.op = raftJoinOp ∧ req.v = raftJoinVersion
  cluster : req.clusterId = clusterId ∧ req.network = network
  nodeId_ne_zero : req.nodeId ≠ 0
  peerId : isValidPeerId crypto.toPrimitives req.peerId = true
  nodeId : req.nodeId = nodeIdFromPeerId crypto.toPrimitives req.peerId
  fresh : absDiff now req.ts ≤ raftJoinMaxTsSkewSecs
  x25519 : checkX25519 crypto req.x25519Key = .ok ()
  bound : req.token.bindPeerId.isEmpty = true ∨ req.token.bindPeerId = req.peerId
  token : req.token.Sound crypto verifier clusterId network now allowed
  signed : ∃ identity bytes sig, parseIdentity crypto req.identityKey = .ok identity ∧
    req.signingBytes crypto = .ok bytes ∧ crypto.unbase64Url req.sig = some sig ∧
    crypto.edVerify identity bytes sig = true

variable {crypto verifier clusterId network now}

theorem sound_of_verifyJoinToken {token : JoinToken} {allowed : List String}
    (h : verifyJoinToken crypto verifier token now clusterId network allowed = .ok ()) :
    token.Sound crypto verifier clusterId network now allowed := by
  simp only [verifyJoinToken, AdminVerifier.verifySignature, bind_eq_ok, mapError_eq_ok,
    ensure_eq_ok, okOr_eq_ok, pure_eq_ok, decide_eq_true_eq, Bool.not_eq_true', Prod.exists,
    exists_and_left, exists_const] at h
  obtain ⟨hversion, hjti, hcluster, hnetwork, hexpires, hmax, haudience, bytes, hbytes, role, h,
    rfl⟩ := h
  obtain ⟨key, role, hkey, sig, hsig, hverify, rfl⟩ := h
  exact ⟨hversion, hjti, hcluster, hnetwork, hexpires, hmax, haudience, key, bytes, sig, hkey,
    hbytes, hsig, hverify⟩

theorem RaftJoinRequest.sound_of_verify {req : RaftJoinRequest} {allowed : List String}
    (h : req.verify crypto verifier clusterId network now allowed = .ok ()) :
    req.Sound crypto verifier clusterId network now allowed := by
  simp only [RaftJoinRequest.verify, bind_eq_ok, mapError_eq_ok, ensure_eq_ok, okOr_eq_ok,
    decide_eq_true_eq, Bool.or_eq_true, beq_iff_eq, exists_and_left, exists_const] at h
  obtain ⟨hkind, hcluster, hnode, hpeer, hid, -, hfresh, _, hx, identity, hidentity, hbound, _,
    htoken, sig, hsig, bytes, hbytes, hverify⟩ := h
  exact ⟨hkind, hcluster, hnode, hpeer, hid, hfresh, hx, hbound, sound_of_verifyJoinToken htoken,
    identity, bytes, sig, hidentity, hbytes, hsig, hverify⟩

/-- Verification looks at the entry points only through the audience of the token. -/
theorem RaftJoinRequest.verify_congr {req : RaftJoinRequest} {allowed allowed' : List String}
    (h : audienceAllowed req.token allowed = audienceAllowed req.token allowed') :
    req.verify crypto verifier clusterId network now allowed =
      req.verify crypto verifier clusterId network now allowed' := by
  simp only [RaftJoinRequest.verify, verifyJoinToken, h]

theorem audienceAllowed_append {token : JoinToken} {allowed : List String}
    (h : audienceAllowed token allowed = true) (more : List String) :
    audienceAllowed token (allowed ++ more) = true := by
  simp only [audienceAllowed, List.any_append, Bool.or_eq_true] at h ⊢
  exact h.imp id .inl

theorem audienceAllowed_singleton {token : JoinToken} {peer : String} :
    audienceAllowed token [peer] = true ↔
      token.audience = "auth" ∨ (peer.isEmpty = false ∧ peer = token.audience) := by
  simp [audienceAllowed]

end NexusAuth.Raft
