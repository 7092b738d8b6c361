import NexusAuth.Crypto
import NexusAuth.Lib.Words

/-!
# Ideal cryptography

What the proofs about sealed and signed messages assume of the cryptographic functions, and
an instance in which it holds.
-/

namespace NexusAuth

open NexusAuth.Authority NexusAuth.Lib.Words

/-- HKDF has no collisions, and a ciphertext is opened only with the key and the nonce that it
was made with. -/
structure Crypto.Sealing (crypto : Crypto) : Prop where
  hkdf_inj : ∀ salt ikm info salt' ikm' info' key, crypto.hkdf salt ikm info = some key →
    crypto.hkdf salt' ikm' info' = some key → salt = salt' ∧ ikm = ikm' ∧ info = info'
  aead_fixed : ∀ key nonce plaintext ciphertext key' nonce' plaintext',
    crypto.aeadEncrypt key nonce plaintext = some ciphertext →
    crypto.aeadDecrypt key' nonce' ciphertext = some plaintext' → key = key' ∧ nonce = nonce'

def Crypto.ExactExchange (crypto : Crypto) : Prop :=
  ∀ a b key, crypto.xShared a key = crypto.xShared b (crypto.xPublic a) → key = crypto.xPublic b

/-- A key verifies the one signature of a message that its owner makes; structures of one type
are encoded injectively; and a text is the encoding of the bytes it is decoded to. -/
structure Crypto.Signing (crypto : Crypto) : Prop where
  edVerify_eq : ∀ seed message signature,
    crypto.edVerify (crypto.edPublic seed) message signature = true →
    signature = crypto.edSign seed message
  cbor_inj : ∀ fields fields' bytes, fields.map Prod.fst = fields'.map Prod.fst →
    crypto.cbor (.map fields) = .ok bytes → crypto.cbor (.map fields') = .ok bytes →
    fields = fields'
  base64Url_unbase64Url : ∀ text bytes, crypto.unbase64Url text = some bytes →
    crypto.base64Url bytes = text

/-! ## A prefix code

An encoding of CBOR items in which every count is written in unary. -/

def tally (n : Nat) : Bytes := List.replicate n 1 ++ [0]

theorem tally_append_inj {n n' : Nat} {rest rest' : Bytes}
    (h : tally n ++ rest = tally n' ++ rest') : n = n' ∧ rest = rest' := by
  induction n generalizing n' with
  | zero =>
      cases n' with
      | zero => exact ⟨rfl, List.tail_eq_of_cons_eq h⟩
      | succ n' => simp [tally, List.replicate_succ] at h
  | succ n ih =>
      cases n' with
      | zero => simp [tally, List.replicate_succ] at h
      | succ n' =>
          obtain ⟨hn, hrest⟩ := @ih n' (List.tail_eq_of_cons_eq h)
          exact ⟨congrArg Nat.succ hn, hrest⟩

theorem counted_append_inj {bytes bytes' rest rest' : Bytes}
    (h : tally bytes.length ++ bytes ++ rest = tally bytes'.length ++ bytes' ++ rest') :
    bytes = bytes' ∧ rest = rest' := by
  rw [List.append_assoc, List.append_assoc] at h
  obtain ⟨hlength, hbytes⟩ := tally_append_inj h
  exact List.append_inj hbytes hlength

namespace Cbor

mutual

def code : Cbor → Bytes
  | .uint n => 0 :: tally n
  | .bool b => [1, if b then 1 else 0]
  | .null => [2]
  | .text s => 3 :: (tally (utf8Bytes s).length ++ utf8Bytes s)
  | .bytes b => 6 :: (tally b.length ++ b)
  | .array items => 4 :: (tally items.length ++ codeItems items)
  | .map fields => 5 :: (tally fields.length ++ codeFields fields)

def codeItems : List Cbor → Bytes
  | [] => []
  | item :: items => code item ++ codeItems items

def codeFields : List (String × Cbor) → Bytes
  | [] => []
  | (name, item) :: fields =>
      tally (utf8Bytes name).length ++ utf8Bytes name ++ (code item ++ codeFields fields)

end

mutual

theorem code_append_inj : ∀ {item item' : Cbor} {rest rest' : Bytes},
    code item ++ rest = code item' ++ rest' → item = item' ∧ rest = rest'
  | .uint n, item', rest, rest', h => by
      cases item' with
      | uint n' =>
          obtain ⟨rfl, rfl⟩ := tally_append_inj (List.tail_eq_of_cons_eq h)
          exact ⟨rfl, rfl⟩
      | _ => simp [code] at h
  | .bool b, item', rest, rest', h => by
      cases item' with
      | bool b' => cases b <;> cases b' <;> simp_all [code]
      | _ => simp [code] at h
  | .null, item', rest, rest', h => by
      cases item' with
      | null => exact ⟨rfl, List.tail_eq_of_cons_eq h⟩
      | _ => simp [code] at h
  | .text s, item', rest, rest', h => by
      cases item' with
      | text s' =>
          obtain ⟨hs, rfl⟩ := counted_append_inj (List.tail_eq_of_cons_eq h)
          exact ⟨congrArg Cbor.text (utf8Bytes_inj hs), rfl⟩
      | _ => simp [code] at h
  | .bytes b, item', rest, rest', h => by
      cases item' with
      | bytes b' =>
          obtain ⟨rfl, rfl⟩ := counted_append_inj (List.tail_eq_of_cons_eq h)
          exact ⟨rfl, rfl⟩
      | _ => simp [code] at h
  | .array items, item', rest, rest', h => by
      cases item' with
      | array items' =>
          simp only [code, List.cons_append, List.cons.injEq, true_and, List.append_assoc] at h
          obtain ⟨hlength, hitems⟩ := tally_append_inj h
          obtain ⟨rfl, rfl⟩ := codeItems_append_inj hlength hitems
          exact ⟨rfl, rfl⟩
      | _ => simp [code] at h
  | .map fields, item', rest, rest', h => by
      cases item' with
      | map fields' =>
          simp only [code, List.cons_append, List.cons.injEq, true_and, List.append_assoc] at h
          obtain ⟨hlength, hfields⟩ := tally_append_inj h
          obtain ⟨rfl, rfl⟩ := codeFields_append_inj hlength hfields
          exact ⟨rfl, rfl⟩
      | _ => simp [code] at h

theorem codeItems_append_inj : ∀ {items items' : List Cbor} {rest rest' : Bytes},
    items.length = items'.length → codeItems items ++ rest = codeItems items' ++ rest' →
    items = items' ∧ rest = rest'
  | [], [], rest, rest', _, h => ⟨rfl, h⟩
  | item :: items, item' :: items', rest, rest', hlength, h => by
      simp only [codeItems, List.append_assoc] at h
      obtain ⟨rfl, hrest⟩ := code_append_inj h
      obtain ⟨rfl, rfl⟩ := codeItems_append_inj (Nat.succ.inj hlength) hrest
      exact ⟨rfl, rfl⟩

theorem codeFields_append_inj : ∀ {fields fields' : List (String × Cbor)} {rest rest' : Bytes},
    fields.length = fields'.length → codeFields fields ++ rest = codeFields fields' ++ rest' →
    fields = fields' ∧ rest = rest'
  | [], [], rest, rest', _, h => ⟨rfl, h⟩
  | (name, item) :: fields, (name', item') :: fields', rest, rest', hlength, h => by
      simp only [codeFields, List.append_assoc] at h
      rw [← List.append_assoc, ← List.append_assoc (tally _)] at h
      obtain ⟨hname, hitem⟩ := counted_append_inj h
      obtain ⟨rfl, hrest⟩ := code_append_inj hitem
      obtain ⟨rfl, rfl⟩ := codeFields_append_inj (Nat.succ.inj hlength) hrest
      exact ⟨by rw [utf8Bytes_inj hname], rfl⟩

end

theorem code_inj {item item' : Cbor} (h : item.code = item'.code) : item = item' :=
  (code_append_inj (congrArg (· ++ []) h)).1

end Cbor

/-! ## An instance

A derived key is what it is derived from, a ciphertext is the key, the nonce and the plaintext,
and a shared secret is the pair of the keys, the smaller one first. -/

def sealHead (key nonce : Bytes) : Bytes :=
  tally key.length ++ key ++ (tally nonce.length ++ nonce)

def idealCrypto : Crypto :=
  { sampleCrypto with
    cbor := fun item => .ok item.code
    unbase64Url := fun text => (sampleUntext text).filter fun bytes => sampleText bytes = text
    xShared := fun secret key =>
      tally (min secret key).length ++ min secret key ++ max secret key
    hkdf := fun salt ikm info =>
      some (tally salt.length ++ salt ++ (tally ikm.length ++ ikm ++ info))
    aeadEncrypt := fun key nonce plaintext => some (sealHead key nonce ++ plaintext)
    aeadDecrypt := fun key nonce ciphertext =>
      if (sealHead key nonce).isPrefixOf ciphertext then
        some (ciphertext.drop (sealHead key nonce).length)
      else none }

theorem sealHead_append_inj {key nonce rest key' nonce' rest' : Bytes}
    (h : sealHead key nonce ++ rest = sealHead key' nonce' ++ rest') :
    key = key' ∧ nonce = nonce' := by
  simp only [sealHead, List.append_assoc] at h
  rw [← List.append_assoc, ← List.append_assoc (tally key'.length)] at h
  obtain ⟨hkey, hrest⟩ := counted_append_inj h
  rw [← List.append_assoc, ← List.append_assoc (tally nonce'.length)] at hrest
  exact ⟨hkey, (counted_append_inj hrest).1⟩

theorem idealCrypto_lawful : idealCrypto.Lawful where
  unbase64_base64 := sampleUntext_sampleText
  unbase64Url_base64Url bytes := by
    simp [idealCrypto, sampleCrypto, sampleUntext_sampleText]
  edVerify_edSign := sampleCrypto_lawful.edVerify_edSign
  xPublic_length := sampleCrypto_lawful.xPublic_length
  xShared_comm a b := by
    simp only [idealCrypto, sampleCrypto, min_comm a b, max_comm a b]
  aeadDecrypt_aeadEncrypt key nonce plaintext ciphertext h := by
    simp only [idealCrypto, Option.some.injEq] at h ⊢
    subst h
    simp [List.isPrefixOf_iff_prefix]

theorem idealCrypto_sealing : idealCrypto.Sealing where
  hkdf_inj salt ikm info salt' ikm' info' key h h' := by
    obtain ⟨hsalt, hrest⟩ := counted_append_inj (Option.some.inj (h.trans h'.symm))
    obtain ⟨hikm, hinfo⟩ := counted_append_inj hrest
    exact ⟨hsalt, hikm, hinfo⟩
  aead_fixed key nonce plaintext ciphertext key' nonce' plaintext' h h' := by
    simp only [idealCrypto, Option.some.injEq] at h
    simp only [idealCrypto] at h'
    split at h'
    · rename_i hpart
      obtain ⟨rest, hrest⟩ := List.isPrefixOf_iff_prefix.mp hpart
      exact sealHead_append_inj (h.trans hrest.symm)
    · cases h'

theorem idealCrypto_exact : idealCrypto.ExactExchange := by
  intro a b key h
  obtain ⟨hmin, hmax⟩ := counted_append_inj h
  change min a key = min b a at hmin
  change max a key = max b a at hmax
  change key = b
  rcases le_total a key with hak | hka
  · rcases le_total b a with hba | hab
    · rw [min_eq_left hak, min_eq_left hba] at hmin
      rw [max_eq_right hak, max_eq_right hba] at hmax
      rw [hmax, hmin]
    · rwa [max_eq_right hak, max_eq_left hab] at hmax
  · rcases le_total b a with hba | hab
    · rwa [min_eq_right hka, min_eq_left hba] at hmin
    · rw [min_eq_right hka, min_eq_right hab] at hmin
      rw [max_eq_left hka, max_eq_left hab] at hmax
      rw [hmin, hmax]

theorem idealCrypto_signing : idealCrypto.Signing where
  edVerify_eq seed message signature h := eq_of_beq h
  cbor_inj fields fields' bytes _ h h' :=
    Cbor.map.inj (Cbor.code_inj (Except.ok.inj (h.trans h'.symm)))
  base64Url_unbase64Url text bytes h := by
    obtain ⟨-, htext⟩ := Option.filter_eq_some_iff.mp h
    exact of_decide_eq_true htext

end NexusAuth
