import NexusAuth.Authority
import NexusAuth.Lib.Framing

/-!
# Encodings and keys

Third-party code that signed and sealed messages go through: CBOR, base64, Ed25519,
X25519, HKDF and ChaCha20-Poly1305.  It is a parameter of the models that use it.
What is encoded is built here explicitly, as a CBOR item with the field names and
the field order of the Rust structure.
-/

namespace NexusAuth

open NexusAuth.Authority

abbrev Bytes := List UInt8

/-- The CBOR items that `serde` derives for the structures of this code base, and the byte
strings of a COSE envelope. -/
inductive Cbor
  | uint (n : Nat)
  | bool (b : Bool)
  | null
  | text (s : String)
  | bytes (b : Bytes)
  | array (items : List Cbor)
  | map (fields : List (String × Cbor))

namespace Cbor

def option {α : Type} (item : α → Cbor) : Option α → Cbor
  | none => .null
  | some a => item a

def texts (items : List String) : Cbor := .array (items.map .text)

/-- A `Vec<u8>` is an array of integers for `serde`. -/
def octets (bytes : Bytes) : Cbor := .array (bytes.map fun b => .uint b.toNat)

end Cbor

structure Crypto extends Primitives where
  /-- `ciborium::ser::into_writer`. -/
  cbor : Cbor → Except String Bytes
  /-- `STANDARD.encode` and `STANDARD.decode`. -/
  base64 : Bytes → String
  unbase64 : String → Option Bytes
  /-- `URL_SAFE_NO_PAD.encode` and `URL_SAFE_NO_PAD.decode`. -/
  base64Url : Bytes → String
  unbase64Url : String → Option Bytes
  /-- The verifying key of an Ed25519 seed. -/
  edPublic : Bytes → Bytes
  /-- `VerifyingKey::from_bytes` accepts these 32 bytes. -/
  edParses : Bytes → Bool
  edSign : Bytes → Bytes → Bytes
  /-- Key, message and signature; false for a signature that `Signature::from_slice` refuses. -/
  edVerify : Bytes → Bytes → Bytes → Bool
  xPublic : Bytes → Bytes
  /-- `diffie_hellman` of a secret and a public key. -/
  xShared : Bytes → Bytes → Bytes
  /-- `Hkdf::new(Some(salt), ikm).expand(info, 32 bytes)`. -/
  hkdf : Bytes → Bytes → Bytes → Option Bytes
  /-- Key, nonce and plaintext. -/
  aeadEncrypt : Bytes → Bytes → Bytes → Option Bytes
  aeadDecrypt : Bytes → Bytes → Bytes → Option Bytes

/-- Encodings can be read back, honest signatures verify, public keys have their length,
both sides of a key exchange agree and what was encrypted can be decrypted. -/
structure Crypto.Lawful (crypto : Crypto) : Prop where
  unbase64_base64 : ∀ bytes, crypto.unbase64 (crypto.base64 bytes) = some bytes
  unbase64Url_base64Url : ∀ bytes, crypto.unbase64Url (crypto.base64Url bytes) = some bytes
  edVerify_edSign : ∀ seed message,
    crypto.edVerify (crypto.edPublic seed) message (crypto.edSign seed message) = true
  xPublic_length : ∀ secret, secret.length = 32 → (crypto.xPublic secret).length = 32
  xShared_comm : ∀ a b,
    crypto.xShared a (crypto.xPublic b) = crypto.xShared b (crypto.xPublic a)
  aeadDecrypt_aeadEncrypt : ∀ key nonce plaintext ciphertext,
    crypto.aeadEncrypt key nonce plaintext = some ciphertext →
      crypto.aeadDecrypt key nonce ciphertext = some plaintext

def beBytes (n : Nat) : Bytes :=
  (List.range 8).map fun i => UInt8.ofNat (n / 256 ^ (7 - i))

@[simp] theorem length_beBytes (n : Nat) : (beBytes n).length = 8 := by
  rw [beBytes, List.length_map, List.length_range]

theorem beBytes_inj {n m : Nat} (hn : n < 2 ^ 64) (hm : m < 2 ^ 64) (h : beBytes n = beBytes m) :
    n = m := by
  have hn' : n < 256 ^ 8 := by omega
  have hm' : m < 256 ^ 8 := by omega
  apply Lib.Framing.eq_of_digits hn' hm'
  intro i hi
  have hbyte := List.map_inj_left.mp h (7 - i) (List.mem_range.mpr (by omega))
  have hdigit := congrArg UInt8.toNat hbyte
  rwa [UInt8.toNat_ofNat', UInt8.toNat_ofNat', show 7 - (7 - i) = i by omega] at hdigit

theorem beBytes_append_inj {n m : Nat} {rest rest' : Bytes} (hn : n < 2 ^ 64) (hm : m < 2 ^ 64)
    (h : beBytes n ++ rest = beBytes m ++ rest') : n = m ∧ rest = rest' := by
  obtain ⟨hbytes, hrest⟩ := List.append_inj h (by simp only [length_beBytes])
  exact ⟨beBytes_inj hn hm hbytes, hrest⟩

theorem boolByte_inj {b c : Bool} (h : (if b then 1 else 0 : UInt8) = if c then 1 else 0) :
    b = c := by
  revert b c
  decide

/-! ## An instance

Encodings and keys that are simple enough to evaluate: text is written with two letters
for each byte, a signature is the key next to the message, and a ciphertext is the
key, the nonce and the plaintext. -/

namespace Cbor

mutual

def sample : Cbor → Bytes
  | .uint n => 0 :: beBytes n
  | .bool b => [1, if b then 1 else 0]
  | .null => [2]
  | .text s => 3 :: beBytes (utf8Bytes s).length ++ utf8Bytes s
  | .bytes b => 6 :: beBytes b.length ++ b
  | .array items => 4 :: beBytes items.length ++ sampleItems items
  | .map fields => 5 :: beBytes fields.length ++ sampleFields fields

def sampleItems : List Cbor → Bytes
  | [] => []
  | item :: items => sample item ++ sampleItems items

def sampleFields : List (String × Cbor) → Bytes
  | [] => []
  | (name, item) :: fields =>
      beBytes (utf8Bytes name).length ++ utf8Bytes name ++ sample item ++ sampleFields fields

end

end Cbor

def sampleLetter (n : UInt8) : Char := Char.ofNat (65 + n.toNat % 16)

def sampleText (bytes : Bytes) : String :=
  String.ofList (bytes.flatMap fun b => [sampleLetter (b / 16), sampleLetter b])

def samplePairs : Bytes → Option Bytes
  | [] => some []
  | [_] => none
  | a :: b :: rest =>
      match samplePairs rest with
      | none => none
      | some bytes => some (((a - 65) * 16 + (b - 65)) :: bytes)

def sampleUntext (text : String) : Option Bytes := samplePairs (utf8Bytes text)

def sampleCrypto : Crypto where
  toPrimitives := samplePrimitives
  cbor item := .ok item.sample
  base64 := sampleText
  unbase64 := sampleUntext
  base64Url := sampleText
  unbase64Url := sampleUntext
  edPublic seed := seed
  edParses _ := true
  edSign seed message := seed ++ message
  edVerify key message signature := signature == key ++ message
  xPublic secret := secret
  xShared secret key := List.zipWith (· + ·) secret key
  hkdf _ ikm _ := some ikm
  aeadEncrypt key nonce plaintext := some (key ++ nonce ++ plaintext)
  aeadDecrypt key nonce ciphertext :=
    if (key ++ nonce).isPrefixOf ciphertext then
      some (ciphertext.drop (key ++ nonce).length)
    else none

theorem utf8_sampleLetter (n : UInt8) :
    String.utf8EncodeChar (sampleLetter n) = [65 + n % 16] := by
  revert n
  decide +kernel

theorem sampleLetters_inverse (b : UInt8) :
    (65 + b / 16 % 16 - 65) * 16 + (65 + b % 16 - 65) = b := by
  revert b
  decide +kernel

theorem utf8Bytes_sampleText (bytes : Bytes) :
    utf8Bytes (sampleText bytes) = bytes.flatMap fun b => [65 + b / 16 % 16, 65 + b % 16] := by
  simp only [utf8Bytes, sampleText, String.toUTF8_eq_toByteArray, String.toByteArray_ofList,
    List.utf8Encode, List.data_toByteArray, List.flatMap_assoc, List.flatMap_cons,
    List.flatMap_nil, utf8_sampleLetter, List.append_nil, List.cons_append, List.nil_append]

theorem sampleUntext_sampleText (bytes : Bytes) : sampleUntext (sampleText bytes) = some bytes := by
  rw [sampleUntext, utf8Bytes_sampleText]
  induction bytes with
  | nil => rfl
  | cons b bytes ih =>
      simp only [List.flatMap_cons, List.cons_append, List.nil_append, samplePairs, ih,
        sampleLetters_inverse]

theorem sampleCrypto_lawful : sampleCrypto.Lawful where
  unbase64_base64 := sampleUntext_sampleText
  unbase64Url_base64Url := sampleUntext_sampleText
  edVerify_edSign seed message := by simp [sampleCrypto]
  xPublic_length _ h := h
  xShared_comm a b := by
    simp only [sampleCrypto]
    exact List.zipWith_comm_of_comm fun x y => UInt8.add_comm x y
  aeadDecrypt_aeadEncrypt key nonce plaintext ciphertext h := by
    simp only [sampleCrypto, Option.some.injEq] at h ⊢
    subst h
    simp [List.isPrefixOf_iff_prefix]

end NexusAuth
