import NexusAuth.Ideal
import NexusAuth.Service.Writes

/-!
# What a signature of an administrator fixes

The signed bytes of a request determine all of its fields up to the order and repetition
of its peers, and with them everything that `execute_root_write` does.  The hash of a
request determines the same fields except the nonce and the time.

Requests and join tokens are signed with the same keys and without a domain.  What keeps
them apart is the number of fields: 8 or 10 for a request and 9 for a token.
-/

namespace NexusAuth

open NexusAuth.Authority NexusAuth.Lib.Results NexusAuth.Raft

/-- Structures of one type, that is with the same field names, are encoded injectively; the
encoding of a structure starts with the number of its fields; and hashes do not collide. -/
structure Crypto.Binding (crypto : Crypto) : Prop where
  cbor_inj : ∀ fields fields' bytes, fields.map Prod.fst = fields'.map Prod.fst →
    crypto.cbor (.map fields) = .ok bytes → crypto.cbor (.map fields') = .ok bytes →
    fields = fields'
  cbor_count : ∃ count : Bytes → Nat, ∀ fields bytes,
    crypto.cbor (.map fields) = .ok bytes → count bytes = fields.length
  sha256_inj : Function.Injective crypto.sha256
  base64Url_inj : Function.Injective crypto.base64Url

namespace AdminRequestV2

/-- The requests differ at most in their nonces, times, signatures and in the order and
repetition of their peers. -/
structure SameIdentity (req req' : AdminRequestV2) : Prop where
  v : req.v = req'.v
  op : req.op = req'.op
  service : req.service = req'.service
  peers : canonicalPeers req.peers = canonicalPeers req'.peers
  kid : req.kid = req'.kid
  requestId : req.requestId = req'.requestId
  member : req.member = req'.member
  joinToken : req.joinToken = req'.joinToken

structure SameSigned (req req' : AdminRequestV2) : Prop extends SameIdentity req req' where
  nonce : req.nonce = req'.nonce
  ts : req.ts = req'.ts

variable {crypto : Crypto} {req req' : AdminRequestV2}

/-! ## Fields -/

theorem texts_inj {items items' : List String} (h : Cbor.texts items = Cbor.texts items') :
    items = items' :=
  List.map_injective_iff.mpr (fun _ _ => Cbor.text.inj) (Cbor.array.inj h)

theorem member_cbor_inj {spec spec' : AdminMemberSpec} (h : spec.cbor = spec'.cbor) :
    spec = spec' := by
  obtain ⟨nodeId, peerId, identityKey, x25519Key⟩ := spec
  obtain ⟨nodeId', peerId', identityKey', x25519Key'⟩ := spec'
  simpa [AdminMemberSpec.cbor] using h

theorem joinToken_cbor_inj {spec spec' : AdminJoinTokenSpec} (h : spec.cbor = spec'.cbor) :
    spec = spec' := by
  obtain ⟨jti, audience, expiresAt, maxUses, bindPeerId, sig⟩ := spec
  obtain ⟨jti', audience', expiresAt', maxUses', bindPeerId', sig'⟩ := spec'
  simpa [AdminJoinTokenSpec.cbor, UInt32.toNat_inj] using h

theorem option_cbor_inj {α : Type} {item : α → Cbor} (hnull : ∀ a, item a ≠ .null)
    (hinj : ∀ a b, item a = item b → a = b) {x y : Option α}
    (h : Cbor.option item x = Cbor.option item y) : x = y := by
  cases x with
  | none =>
      cases y with
      | none => rfl
      | some b => exact (hnull b h.symm).elim
  | some a =>
      cases y with
      | none => exact (hnull a h).elim
      | some b => rw [hinj a b h]

theorem identityFields_inj (h : req.identityFields = req'.identityFields) :
    req.v = req'.v ∧ req.op = req'.op ∧ req.service = req'.service ∧
      canonicalPeers req.peers = canonicalPeers req'.peers ∧ req.kid = req'.kid ∧
      req.requestId = req'.requestId := by
  simp only [identityFields, List.cons.injEq, Prod.mk.injEq, true_and, and_true,
    Cbor.uint.injEq, Cbor.text.injEq, UInt8.toNat_inj] at h
  obtain ⟨hv, hop, hservice, hpeers, hkid, hrequestId⟩ := h
  exact ⟨hv, hop, hservice, texts_inj hpeers, hkid, hrequestId⟩

/-- Either a request has neither extension field, or both are appended. -/
theorem extensionFields_cases (req : AdminRequestV2) :
    (req.extensionFields = [] ∧ req.member = none ∧ req.joinToken = none) ∨
      req.extensionFields = [("member", .option AdminMemberSpec.cbor req.member),
        ("join_token", .option AdminJoinTokenSpec.cbor req.joinToken)] := by
  rw [extensionFields]
  split
  · rename_i hnone
    rw [Bool.and_eq_true, Option.isNone_iff_eq_none, Option.isNone_iff_eq_none] at hnone
    exact .inl ⟨rfl, hnone⟩
  · exact .inr rfl

theorem extensionFields_names (h : req.extensionFields.length = req'.extensionFields.length) :
    req.extensionFields.map Prod.fst = req'.extensionFields.map Prod.fst := by
  obtain ⟨hreq, _⟩ | hreq := extensionFields_cases req
  · obtain ⟨hreq', _⟩ | hreq' := extensionFields_cases req'
    · rw [hreq, hreq']
    · simp [hreq, hreq'] at h
  · obtain ⟨hreq', _⟩ | hreq' := extensionFields_cases req'
    · simp [hreq, hreq'] at h
    · rw [hreq, hreq']
      rfl

theorem extensionFields_inj (h : req.extensionFields = req'.extensionFields) :
    req.member = req'.member ∧ req.joinToken = req'.joinToken := by
  obtain ⟨hreq, hmember, htoken⟩ | hreq := extensionFields_cases req
  · obtain ⟨_, hmember', htoken'⟩ | hreq' := extensionFields_cases req'
    · exact ⟨hmember.trans hmember'.symm, htoken.trans htoken'.symm⟩
    · simp [hreq, hreq'] at h
  · obtain ⟨hreq', _⟩ | hreq' := extensionFields_cases req'
    · simp [hreq, hreq'] at h
    · simp only [hreq, hreq', List.cons.injEq, Prod.mk.injEq, true_and, and_true] at h
      exact ⟨option_cbor_inj (fun _ => Cbor.noConfusion) (fun _ _ => member_cbor_inj) h.1,
        option_cbor_inj (fun _ => Cbor.noConfusion) (fun _ _ => joinToken_cbor_inj) h.2⟩

/-! ## Bytes -/

theorem encode_eq_ok {item : Cbor} {bytes : Bytes} :
    encode crypto item = .ok bytes ↔ crypto.cbor item = .ok bytes := mapError_eq_ok

theorem layout_inj (hbinding : crypto.Binding) {fields fields' : List (String × Cbor)}
    {bytes : Bytes} (h : crypto.cbor (.map (fields ++ req.extensionFields)) = .ok bytes)
    (h' : crypto.cbor (.map (fields' ++ req'.extensionFields)) = .ok bytes)
    (hnames : fields.map Prod.fst = fields'.map Prod.fst) :
    fields = fields' ∧ req.member = req'.member ∧ req.joinToken = req'.joinToken := by
  have hlength : fields.length = fields'.length := by
    simpa only [List.length_map] using congrArg List.length hnames
  obtain ⟨count, hcount⟩ := hbinding.cbor_count
  have htotal := (hcount _ _ h).symm.trans (hcount _ _ h')
  rw [List.length_append, List.length_append, hlength, Nat.add_left_cancel_iff] at htotal
  have hall := hbinding.cbor_inj _ _ _
    (by rw [List.map_append, List.map_append, hnames, extensionFields_names htotal]) h h'
  obtain ⟨hfields, hext⟩ := List.append_inj hall hlength
  exact ⟨hfields, extensionFields_inj hext⟩

theorem sameSigned_of_signingBytes (hbinding : crypto.Binding) {bytes : Bytes}
    (h : req.signingBytes crypto = .ok bytes) (h' : req'.signingBytes crypto = .ok bytes) :
    SameSigned req req' := by
  obtain ⟨hfields, hmember, htoken⟩ :=
    layout_inj hbinding (encode_eq_ok.mp h) (encode_eq_ok.mp h') rfl
  obtain ⟨hidentity, htail⟩ := List.append_inj hfields rfl
  obtain ⟨hv, hop, hservice, hpeers, hkid, hrequestId⟩ := identityFields_inj hidentity
  simp only [List.cons.injEq, Prod.mk.injEq, true_and, and_true, Cbor.text.injEq,
    Cbor.uint.injEq] at htail
  exact ⟨⟨hv, hop, hservice, hpeers, hkid, hrequestId, hmember, htoken⟩, htail.1, htail.2⟩

theorem SameIdentity.requestHash_eq (h : SameIdentity req req') :
    req.requestHash crypto = req'.requestHash crypto := by
  have hidentity : req.identity = req'.identity := by
    simp only [identity, identityFields, extensionFields, h.v, h.op, h.service, h.peers, h.kid,
      h.requestId, h.member, h.joinToken]
  simp only [requestHash, hidentity]

theorem sameIdentity_of_requestHash (hbinding : crypto.Binding) {hash : String}
    (h : req.requestHash crypto = .ok hash) (h' : req'.requestHash crypto = .ok hash) :
    SameIdentity req req' := by
  simp only [requestHash, bind_eq_ok, pure_eq_ok, encode_eq_ok] at h h'
  obtain ⟨bytes, hbytes, hhash⟩ := h
  obtain ⟨bytes', hbytes', hhash'⟩ := h'
  obtain rfl := hbinding.sha256_inj (hbinding.base64Url_inj (hhash.trans hhash'.symm))
  obtain ⟨hfields, hmember, htoken⟩ := layout_inj hbinding hbytes hbytes' rfl
  obtain ⟨hv, hop, hservice, hpeers, hkid, hrequestId⟩ := identityFields_inj hfields
  exact ⟨hv, hop, hservice, hpeers, hkid, hrequestId, hmember, htoken⟩

/-- A request has an even number of fields and a token nine. -/
theorem signingBytes_ne_token (hbinding : crypto.Binding) {token : JoinToken} {bytes : Bytes}
    (h : req.signingBytes crypto = .ok bytes) : tokenSigningBytes crypto token ≠ .ok bytes := by
  intro htoken
  obtain ⟨count, hcount⟩ := hbinding.cbor_count
  have hlength := (hcount _ _ (encode_eq_ok.mp h)).symm.trans
    (hcount _ _ (mapError_eq_ok.mp htoken))
  obtain ⟨hreq, _⟩ | hreq := extensionFields_cases req
  all_goals simp [hreq, identityFields, JoinToken.signedFields] at hlength

end AdminRequestV2

namespace Service

variable {req req' : AdminRequestV2}

/-! ## Effects -/

theorem policyCommandFor_congr (h : req.SameSigned req') :
    policyCommandFor req = policyCommandFor req' := by
  simp only [policyCommandFor, requireServiceV2, h.service, h.peers, h.op]

/-- What a root administrator's request does depends only on its signed fields. -/
theorem executeRootWrite_congr (h : req.SameSigned req') {verified verified' : VerifiedAdmin}
    (hhash : verified.requestHash = verified'.requestHash) (ctx : ServiceContext)
    (edgePeer : Option String) :
    executeRootWrite ctx req verified edgePeer = executeRootWrite ctx req' verified' edgePeer := by
  have hcommand := policyCommandFor_congr h
  obtain ⟨v, op, service, peers, kid, requestId, nonce, ts, sig, member, joinToken⟩ := req
  obtain ⟨v', op', service', peers', kid', requestId', nonce', ts', sig', member', joinToken'⟩ :=
    req'
  obtain ⟨⟨rfl, rfl, rfl, hpeers, rfl, rfl, rfl, rfl⟩, rfl, rfl⟩ := h
  obtain ⟨_, _, hash, _⟩ := verified
  obtain ⟨_, _, hash', _⟩ := verified'
  obtain rfl : hash = hash' := hhash
  simp only [executeRootWrite, executePolicyWrite, hcommand]
  rfl

/-- Equal signed bytes mean equal fields, an equal hash and the same program of
`execute_root_write`, with the same proposals; equal hashes mean equal fields up to the nonce
and the time; and no signed request is a signed token. -/
theorem signature_fixes_effect {crypto : Crypto} (hbinding : crypto.Binding) :
    (∀ (req req' : AdminRequestV2) (bytes : Bytes), req.signingBytes crypto = .ok bytes →
      req'.signingBytes crypto = .ok bytes →
      req.SameSigned req' ∧ req.requestHash crypto = req'.requestHash crypto ∧
      policyCommandFor req = policyCommandFor req' ∧
      ∀ (ctx : ServiceContext) (verified verified' : VerifiedAdmin) (edgePeer : Option String),
        req.requestHash crypto = .ok verified.requestHash →
        req'.requestHash crypto = .ok verified'.requestHash →
        executeRootWrite ctx req verified edgePeer =
          executeRootWrite ctx req' verified' edgePeer) ∧
    (∀ (req req' : AdminRequestV2) (hash hash' : String), req.requestHash crypto = .ok hash →
      req'.requestHash crypto = .ok hash' → (hash = hash' ↔ req.SameIdentity req')) ∧
    ∀ (req : AdminRequestV2) (token : JoinToken) (bytes : Bytes),
      req.signingBytes crypto = .ok bytes → tokenSigningBytes crypto token ≠ .ok bytes := by
  refine ⟨fun req req' bytes h h' => ?_, fun req req' hash hash' h h' => ⟨?_, fun hsame => ?_⟩,
    fun req token bytes h => AdminRequestV2.signingBytes_ne_token hbinding h⟩
  · have hsame := AdminRequestV2.sameSigned_of_signingBytes hbinding h h'
    have hhash : req.requestHash crypto = req'.requestHash crypto := hsame.requestHash_eq
    refine ⟨hsame, hhash, policyCommandFor_congr hsame,
      fun ctx verified verified' edgePeer hv hv' => ?_⟩
    exact executeRootWrite_congr hsame (Except.ok.inj (hv.symm.trans (hhash.trans hv')))
      ctx edgePeer
  · rintro rfl
    exact AdminRequestV2.sameIdentity_of_requestHash hbinding h h'
  · exact Except.ok.inj (h.symm.trans (hsame.requestHash_eq.trans h'))

end Service

/-! ## An instance -/

/-- The sample instance with the prefix code, and with bytes that are their own hash. -/
def bindingCrypto : Crypto :=
  { sampleCrypto with
    toPrimitives := { samplePrimitives with sha256 := id }
    cbor := fun item => .ok item.code }

theorem bindingCrypto_binding : bindingCrypto.Binding where
  cbor_inj fields fields' bytes _ h h' :=
    Cbor.map.inj (Cbor.code_inj (Except.ok.inj (h.trans h'.symm)))
  cbor_count := by
    refine ⟨fun bytes => (bytes.tail.takeWhile (· == 1)).length, fun fields bytes h => ?_⟩
    obtain rfl := Except.ok.inj h
    simp [Cbor.code, tally]
  sha256_inj := Function.injective_id
  base64Url_inj := fun bytes bytes' h => by
    have hread := congrArg sampleUntext h
    simp only [bindingCrypto, sampleCrypto, sampleUntext_sampleText] at hread
    exact Option.some.inj hread

namespace Service

def additionOf (peers : List String) : AdminRequestV2 :=
  { AdminRequestV2.default with v := 2, op := "add_members", service := "api", peers := peers }

/-- Peers in another order and twice: the bytes are the same, so is the command, and they are
not the bytes of a token. -/
theorem signature_fixes_effect_reordered :
    policyCommandFor (additionOf [peerB, peerA, peerB]) =
      policyCommandFor (additionOf [peerA, peerB]) ∧
    tokenSigningBytes bindingCrypto ⟨1, "", "", "", "", 0, 1, "", "", ""⟩ ≠
      .ok (additionOf [peerA, peerB]).signed.code := by
  have hpeers : canonicalPeers [peerB, peerA, peerB] = canonicalPeers [peerA, peerB] := by
    decide +kernel
  have hbytes : (additionOf [peerB, peerA, peerB]).signingBytes bindingCrypto =
      .ok (additionOf [peerA, peerB]).signed.code := by
    simp only [AdminRequestV2.signingBytes, AdminRequestV2.signed, AdminRequestV2.identityFields,
      additionOf, hpeers]
    rfl
  obtain ⟨hsigned, _, htoken⟩ := signature_fixes_effect bindingCrypto_binding
  exact ⟨(hsigned _ _ _ hbytes rfl).2.2.1, htoken _ _ _ hbytes⟩

end Service

end NexusAuth
