import NexusAuth.Crypto
import NexusAuth.Lib.Results

/-!
# Signed records

The signing side of `authority.rs`: an authority is a seed and a network name, and
what it writes to the DHT is a `COSE_Sign1` envelope around the CBOR encoding of a
whitelist or of the index, bound to the key it is stored under.
-/

namespace NexusAuth

open NexusAuth.Authority NexusAuth.Lib.Results

inductive AuthorityError
  | invalidName
  | cose
deriving DecidableEq

def AuthorityError.text : AuthorityError → String
  | .invalidName => "invalid network or service name"
  | .cose => "cose encoding error"

structure ServiceEntry where
  name : String
  hash : Bytes
  length : Nat
deriving DecidableEq

structure IndexDoc where
  version : Nat
  expiresAt : Nat
  services : List ServiceEntry
deriving DecidableEq

structure WhitelistDoc where
  version : Nat
  members : List String
deriving DecidableEq

def ServiceEntry.cbor (entry : ServiceEntry) : Cbor :=
  .map [("name", .text entry.name), ("hash", .octets entry.hash), ("length", .uint entry.length)]

def IndexDoc.cbor (doc : IndexDoc) : Cbor :=
  .map [("version", .uint doc.version), ("expires_at", .uint doc.expiresAt),
    ("services", .array (doc.services.map ServiceEntry.cbor))]

def WhitelistDoc.cbor (doc : WhitelistDoc) : Cbor :=
  .map [("version", .uint doc.version), ("members", .texts doc.members)]

/-- `Authority`: the signer of one network. -/
structure Signer where
  seed : Bytes
  network : String
deriving DecidableEq

def Signer.fromSeed (seed : Bytes) (network : String) : Except AuthorityError Signer :=
  if !isValidNetworkName network then .error .invalidName else .ok ⟨seed, network⟩

def authPrefix : String := "/oahd/auth"

def netHash (crypto : Crypto) (name : String) : String :=
  crypto.base64Url (crypto.sha256 (utf8Bytes name))

def keyPath (crypto : Crypto) (network last : String) : String :=
  authPrefix ++ "/" ++ netHash crypto network ++ "/" ++ last

/-- `index_key` and `index_key_for`. -/
def indexKey (crypto : Crypto) (network : String) : String := keyPath crypto network reservedService

namespace Signer

variable (crypto : Crypto) (signer : Signer)

def serviceKey (service : String) : Except AuthorityError String :=
  if !isValidServiceName service then .error .invalidName
  else .ok (keyPath crypto signer.network service)

/-- The protected header `{1: -8}`: EdDSA. -/
def eddsaHeader : Bytes := [0xa1, 0x01, 0x27]

def cborEncode (item : Cbor) : Except AuthorityError Bytes :=
  (crypto.cbor item).mapError fun _ => .cose

/-- The signature covers the `Sig_structure` of COSE, with the record's key as external data. -/
def signPayload (aad payload : Bytes) : Except AuthorityError Bytes := do
  let data ← cborEncode crypto
    (.array [.text "Signature1", .bytes eddsaHeader, .bytes aad, .bytes payload])
  cborEncode crypto
    (.array [.bytes eddsaHeader, .map [], .bytes payload, .bytes (crypto.edSign signer.seed data)])

def signIndex (doc : IndexDoc) : Except AuthorityError Bytes := do
  let payload ← cborEncode crypto doc.cbor
  signer.signPayload crypto (utf8Bytes (indexKey crypto signer.network)) payload

def signWhitelist (service : String) (doc : WhitelistDoc) : Except AuthorityError Bytes := do
  let key ← signer.serviceKey crypto service
  let payload ← cborEncode crypto doc.cbor
  signer.signPayload crypto (utf8Bytes key) payload

end Signer

/-! ## Distinct keys -/

theorem keyPath_injective (crypto : Crypto) (network : String) {a b : String}
    (h : keyPath crypto network a = keyPath crypto network b) : a = b := by
  simpa [keyPath] using h

theorem serviceKey_eq_ok {crypto : Crypto} {signer : Signer} {service key : String} :
    signer.serviceKey crypto service = .ok key ↔
      isValidServiceName service = true ∧ key = keyPath crypto signer.network service := by
  rw [Signer.serviceKey]
  split
  · rename_i hvalid
    simp at hvalid
    simp [hvalid]
  · rename_i hvalid
    simp at hvalid
    simp [hvalid, eq_comm]

theorem serviceKey_injective {crypto : Crypto} {signer : Signer} {a b key : String}
    (ha : signer.serviceKey crypto a = .ok key) (hb : signer.serviceKey crypto b = .ok key) :
    a = b := by
  obtain ⟨_, rfl⟩ := serviceKey_eq_ok.mp ha
  obtain ⟨_, heq⟩ := serviceKey_eq_ok.mp hb
  exact keyPath_injective crypto _ heq

theorem serviceKey_ne_indexKey {crypto : Crypto} {signer : Signer} {service key : String}
    (h : signer.serviceKey crypto service = .ok key) : key ≠ indexKey crypto signer.network := by
  obtain ⟨hvalid, rfl⟩ := serviceKey_eq_ok.mp h
  intro heq
  have hname : service = reservedService := keyPath_injective crypto _ heq
  simp [isValidServiceName, hname] at hvalid

end NexusAuth
