import NexusAuth.Ideal
import NexusAuth.Joining.Proofs.Disk

/-!
# Who can open the response to a join

The MAC of a response is made with a key of the password and the network.  The nonce of the
joining node is not under the MAC; it goes into the key of the ciphertext, between zero bytes
and next to a nonce that the responder has chosen.
-/

namespace NexusAuth.PasswordJoin

open Std (ExtTreeMap ExtTreeSet)
open NexusAuth.Authority NexusAuth.Lib.Framing NexusAuth.Lib.Results

/-- A MAC is valid under the key that it was made with and for the message it was made for. -/
def UnforgeableMac (crypto : MacCrypto) : Prop :=
  ∀ key message key' message', crypto.hmac key message = crypto.hmac key' message' →
    key = key' ∧ message = message'

variable {crypto : MacCrypto} {wire : JoinWire} {password password' network network' : String}
  {joinerNonce joinerNonce' responderNonce : String}

/-! ## Keys -/

theorem joinMacKey_inj (hsealing : crypto.Sealing) {key : Bytes}
    (h : joinMacKey crypto password network = .ok key)
    (h' : joinMacKey crypto password' network' = .ok key) :
    password = password' ∧ network = network' := by
  obtain ⟨-, hpassword, hnetwork⟩ :=
    hsealing.hkdf_inj _ _ _ _ _ _ key (okOr_eq_ok.mp h) (okOr_eq_ok.mp h')
  exact ⟨utf8Bytes_inj hpassword, utf8Bytes_inj hnetwork⟩

/-- In one network, the key of a ciphertext fixes the nonce of the joining node: it ends at the
first zero byte. -/
theorem encKey_inj (hsealing : crypto.Sealing) {key : Bytes}
    (hnul : 0 ∉ utf8Bytes joinerNonce) (hnul' : 0 ∉ utf8Bytes joinerNonce')
    (h : encKey crypto password network joinerNonce responderNonce = .ok key)
    (h' : encKey crypto password network joinerNonce' responderNonce = .ok key) :
    joinerNonce = joinerNonce' := by
  obtain ⟨-, -, hinfo⟩ :=
    hsealing.hkdf_inj _ _ _ _ _ _ key (okOr_eq_ok.mp h) (okOr_eq_ok.mp h')
  simp only [List.append_assoc, List.append_cancel_left_eq] at hinfo
  exact utf8Bytes_inj (append_sep_inj hnul hnul' hinfo).1

/-! ## Responses -/

theorem fixed_of_openResponse (hlaw : crypto.Lawful) (hsealing : crypto.Sealing)
    (hmac : UnforgeableMac crypto) {aeadNonce seed : Bytes} {state : StoreSnapshot}
    {resp : PasswordJoinResponse} {opened : Bytes × StoreSnapshot}
    (hnul : 0 ∉ utf8Bytes joinerNonce) (hnul' : 0 ∉ utf8Bytes joinerNonce')
    (hmake : makeResponse crypto password network responderNonce aeadNonce joinerNonce seed state =
      .ok resp)
    (hopen : openResponse crypto wire password' network' joinerNonce' resp = .ok opened) :
    password = password' ∧ network = network' ∧ joinerNonce = joinerNonce' := by
  simp only [makeResponse, bind_eq_ok, okOr_eq_ok, mapError_eq_ok, pure_eq_ok] at hmake
  obtain ⟨key, hkey, plaintext, -, ciphertext, hencrypt, macKey, hmacKey, rfl⟩ := hmake
  simp only [openResponse, b64Decode, bind_eq_ok, okOr_eq_ok, ensure_eq_ok, decide_eq_true_eq,
    hlaw.unbase64Url_base64Url, Option.some.injEq, exists_eq_left'] at hopen
  obtain ⟨-, -, -, -, macKey', hmacKey', -, htag, key', hkey', plaintext', hdecrypt, -⟩ := hopen
  -- the MAC fixes the password and the network, and then the ciphertext fixes the nonce
  obtain ⟨rfl, -⟩ := hmac _ _ _ _ htag
  obtain ⟨rfl, rfl⟩ := joinMacKey_inj hsealing hmacKey hmacKey'
  obtain ⟨rfl, -⟩ := hsealing.aead_fixed _ _ _ _ _ _ _ hencrypt hdecrypt
  exact ⟨rfl, rfl, encKey_inj hsealing hnul hnul' hkey hkey'⟩

/-- A response gives the seed and the state to those who have the password, the network and the
nonce of the request, and nothing to anyone else. -/
theorem join_response_round_trip (crypto : MacCrypto) (wire : JoinWire) (hlaw : crypto.Lawful)
    (hsealing : crypto.Sealing) (hmac : UnforgeableMac crypto)
    (hcodec : ∀ seed state plaintext, crypto.cbor (joinSecret seed state) = .ok plaintext →
      wire.decodeSecret plaintext = some (seed, state))
    (password network joinerNonce responderNonce : String) (aeadNonce seed : Bytes)
    (state : StoreSnapshot) (resp : PasswordJoinResponse) (hnonce : aeadNonce.length = 12)
    (hseed : seed.length = seedLen) (hnul : 0 ∉ utf8Bytes joinerNonce)
    (hmake : makeResponse crypto password network responderNonce aeadNonce joinerNonce seed state =
      .ok resp) :
    openResponse crypto wire password network joinerNonce resp = .ok (seed, state) ∧
    ∀ password' network' joinerNonce', 0 ∉ utf8Bytes joinerNonce' →
      (password' ≠ password ∨ network' ≠ network ∨ joinerNonce' ≠ joinerNonce) →
      ∃ e, openResponse crypto wire password' network' joinerNonce' resp = .error e := by
  constructor
  · exact openResponse_makeResponse hlaw hnonce hseed (hcodec seed state) hmake
  · intro password' network' joinerNonce' hnul' hdiffers
    cases hopen : openResponse crypto wire password' network' joinerNonce' resp with
    | error e => exact ⟨e, rfl⟩
    | ok opened =>
        obtain ⟨rfl, rfl, rfl⟩ :=
          fixed_of_openResponse hlaw hsealing hmac hnul hnul' hmake hopen
        simp at hdiffers

/-! ## An instance -/

theorem octets_inj {bytes bytes' : Bytes} (h : Cbor.octets bytes = Cbor.octets bytes') :
    bytes = bytes' := by
  have hbyte : Function.Injective fun b : UInt8 => Cbor.uint b.toNat := by
    intro b b' hb
    exact UInt8.toNat_inj.mp (Cbor.uint.inj hb)
  exact List.map_injective_iff.mpr hbyte (Cbor.array.inj h)

theorem serviceField_inj : Function.Injective fun entry : String × ServiceState =>
    (entry.1, Cbor.map [("version", .uint entry.2.version),
      ("members", .texts entry.2.members.toList)]) := by
  rintro ⟨name, version, members⟩ ⟨name', version', members'⟩ h
  simp only [Prod.mk.injEq, Cbor.map.injEq, List.cons.injEq, Cbor.uint.injEq, true_and,
    and_true] at h
  obtain ⟨rfl, rfl, htexts⟩ := h
  have hmembers : members = members' := ExtTreeSet.toList_inj.mp
    (List.map_injective_iff.mpr (fun _ _ => Cbor.text.inj) (Cbor.array.inj htexts))
  rw [hmembers]

theorem tombstoneField_inj :
    Function.Injective fun entry : String × Nat => (entry.1, Cbor.uint entry.2) := by
  rintro ⟨name, version⟩ ⟨name', version'⟩ h
  simpa using h

theorem snapshot_cbor_inj {state state' : StoreSnapshot} (h : state.cbor = state'.cbor) :
    state = state' := by
  obtain ⟨network, indexVersion, services, tombstones⟩ := state
  obtain ⟨network', indexVersion', services', tombstones'⟩ := state'
  simp only [StoreSnapshot.cbor, Cbor.map.injEq, List.cons.injEq, Prod.mk.injEq, Cbor.text.injEq,
    Cbor.uint.injEq, true_and, and_true] at h
  obtain ⟨rfl, rfl, hservices, htombstones⟩ := h
  have hservices : services = services' :=
    ExtTreeMap.toList_inj.mp (List.map_injective_iff.mpr serviceField_inj hservices)
  have htombstones : tombstones = tombstones' :=
    ExtTreeMap.toList_inj.mp (List.map_injective_iff.mpr tombstoneField_inj htombstones)
  rw [hservices, htombstones]

theorem joinSecret_inj : Function.Injective fun secret : Bytes × StoreSnapshot =>
    (joinSecret secret.1 secret.2).code := by
  rintro ⟨seed, state⟩ ⟨seed', state'⟩ h
  have hfields := Cbor.map.inj (Cbor.code_inj h)
  simp only [List.cons.injEq, Prod.mk.injEq, true_and, and_true] at hfields
  rw [octets_inj hfields.1, snapshot_cbor_inj hfields.2]

def idealMacCrypto : MacCrypto where
  toCrypto := idealCrypto
  hmac key message := tally key.length ++ key ++ message
  macJson _ := .ok []

theorem idealMacCrypto_unforgeable : UnforgeableMac idealMacCrypto :=
  fun _ _ _ _ h => counted_append_inj h

noncomputable def idealWire : JoinWire :=
  { joinWire with
    decodeSecret := Function.partialInv fun secret => (joinSecret secret.1 secret.2).code }

theorem idealWire_decodeSecret (seed : Bytes) (state : StoreSnapshot) (plaintext : Bytes)
    (h : idealMacCrypto.cbor (joinSecret seed state) = .ok plaintext) :
    idealWire.decodeSecret plaintext = some (seed, state) := by
  obtain rfl := Except.ok.inj h
  exact Function.partialInv_left joinSecret_inj (seed, state)

/-- A response to `nonce` under `password`, opened by the node that has asked, by a node with
another password, in another network, and by a node that has asked with another nonce. -/
theorem join_response_round_trip_net :
    ∃ resp, makeResponse idealMacCrypto "password" "net" "responder" (List.replicate 12 1) "nonce"
        joinedSeed networkState = .ok resp ∧
      openResponse idealMacCrypto idealWire "password" "net" "nonce" resp =
        .ok (joinedSeed, networkState) ∧
      (∃ e, openResponse idealMacCrypto idealWire "guess" "net" "nonce" resp = .error e) ∧
      (∃ e, openResponse idealMacCrypto idealWire "password" "other" "nonce" resp = .error e) ∧
      ∃ e, openResponse idealMacCrypto idealWire "password" "net" "other" resp = .error e := by
  have hnul : 0 ∉ utf8Bytes "nonce" := by decide +kernel
  have hnul' : 0 ∉ utf8Bytes "other" := by decide +kernel
  refine ⟨_, rfl, ?_⟩
  obtain ⟨hopen, hclosed⟩ := join_response_round_trip idealMacCrypto idealWire idealCrypto_lawful
    idealCrypto_sealing idealMacCrypto_unforgeable idealWire_decodeSecret "password" "net" "nonce"
    "responder" (List.replicate 12 1) joinedSeed networkState _ rfl rfl hnul rfl
  exact ⟨hopen, hclosed "guess" "net" "nonce" hnul (.inl (by decide)),
    hclosed "password" "other" "nonce" hnul (.inr (.inl (by decide))),
    hclosed "password" "net" "other" hnul' (.inr (.inr (by decide)))⟩

end NexusAuth.PasswordJoin
