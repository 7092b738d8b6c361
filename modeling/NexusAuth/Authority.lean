import NexusAuth.Lib.OrderedMap
import NexusAuth.Lib.Words

/-!
# Names, peer ids and member sets

The validators and the content hash of `authority.rs`, and the edits of a member
set that the legacy store and the Raft state machine have in common.  Both loop
over the given peers and record whether any single insertion or removal had an
effect.
-/

namespace NexusAuth.Authority

open Std (ExtTreeMap ExtTreeSet)
open NexusAuth.Lib.OrderedMap NexusAuth.Lib.Words

/-- Third-party code the control plane calls. -/
structure Primitives where
  /-- `s.parse::<libp2p_identity::PeerId>()` succeeds. -/
  parsesAsPeerId : String → Bool
  /-- `sha2::Sha256::digest`. -/
  sha256 : List UInt8 → List UInt8

def maxNameLen : Nat := 64

def reservedService : String := "service"

def isAsciiAlphanumeric (b : UInt8) : Bool :=
  (48 ≤ b && b ≤ 57) || (65 ≤ b && b ≤ 90) || (97 ≤ b && b ≤ 122)

def utf8Bytes (s : String) : List UInt8 := s.toUTF8.data.toList

theorem utf8Bytes_inj {s s' : String} (h : utf8Bytes s = utf8Bytes s') : s = s' :=
  String.toByteArray_inj.mp (ByteArray.ext (Array.toList_inj.mp h))

theorem utf8Bytes_append (s s' : String) : utf8Bytes (s ++ s') = utf8Bytes s ++ utf8Bytes s' := by
  simp only [utf8Bytes, String.toUTF8_eq_toByteArray, String.toByteArray_append,
    ByteArray.data_append, Array.toList_append]

theorem utf8Bytes_intercalate (sep : String) (texts : List String) :
    utf8Bytes (sep.intercalate texts) = (utf8Bytes sep).intercalate (texts.map utf8Bytes) := by
  induction texts with
  | nil => rfl
  | cons text texts ih =>
      cases texts with
      | nil => simp [List.intercalate_singleton]
      | cons next texts =>
          rw [List.map_cons] at ih
          rw [String.intercalate_cons_cons, utf8Bytes_append, utf8Bytes_append, ih, List.map_cons,
            List.map_cons, List.intercalate_cons_cons]

def isValidNetworkName (s : String) : Bool :=
  !s.isEmpty && decide (s.utf8ByteSize ≤ maxNameLen) &&
    (utf8Bytes s).all fun b => isAsciiAlphanumeric b || b == 95 || b == 45

def isValidServiceName (s : String) : Bool :=
  isValidNetworkName s && s != reservedService

def isValidPeerId (prim : Primitives) (s : String) : Bool := prim.parsesAsPeerId s

def contentHash (prim : Primitives) (value : List UInt8) : List UInt8 := prim.sha256 value

/-! ## Peer lists -/

/-- `validate_peers`: the error of the first peer that does not parse. -/
def validatePeersWith {ε : Type} (prim : Primitives) (invalid : String → ε) :
    List String → Except ε Unit
  | [] => .ok ()
  | p :: peers =>
      if !isValidPeerId prim p then .error (invalid p) else validatePeersWith prim invalid peers

theorem validatePeersWith_eq_ok_iff {ε : Type} {prim : Primitives} {invalid : String → ε}
    {peers : List String} :
    validatePeersWith prim invalid peers = .ok () ↔ ∀ p ∈ peers, isValidPeerId prim p = true := by
  induction peers with
  | nil => simp [validatePeersWith]
  | cons p peers ih =>
      by_cases hp : isValidPeerId prim p = true
      · simp [validatePeersWith, hp, ih]
      · simp [validatePeersWith, hp]

/-! ## Edits of a member set -/

abbrev PeerSet := BTreeSet String

/-- `peers.iter().cloned().collect()`. -/
def collectPeers (peers : List String) : PeerSet := ExtTreeSet.ofList peers

@[simp] theorem mem_collectPeers {peers : List String} {p : String} :
    p ∈ collectPeers peers ↔ p ∈ peers := by
  simp [collectPeers, ExtTreeSet.mem_ofList]

@[simp] theorem collectPeers_toList (members : PeerSet) :
    collectPeers members.toList = members := by
  apply ExtTreeSet.ext_mem
  intro p
  rw [mem_collectPeers, ExtTreeSet.mem_toList]

/-- `for p in peers { changed |= members.insert(p) }`. -/
def insertPeers (members : PeerSet) (peers : List String) : PeerSet × Bool :=
  peers.foldl (fun acc p => (acc.1.insert p, acc.2 || !acc.1.contains p)) (members, false)

/-- `for p in peers { changed |= members.remove(p) }`. -/
def removePeers (members : PeerSet) (peers : List String) : PeerSet × Bool :=
  peers.foldl (fun acc p => (acc.1.erase p, acc.2 || acc.1.contains p)) (members, false)

/-- `changed = members != new; if changed { members = new }`. -/
def replacePeers (members : PeerSet) (peers : List String) : PeerSet × Bool :=
  let incoming := collectPeers peers
  let changed := decide (members ≠ incoming)
  (if changed then incoming else members, changed)

private theorem insertPeers_aux (peers : List String) (members : PeerSet) (changed : Bool) :
    let out := peers.foldl
      (fun (acc : PeerSet × Bool) p => (acc.1.insert p, acc.2 || !acc.1.contains p))
      (members, changed)
    (∀ p, p ∈ out.1 ↔ p ∈ members ∨ p ∈ peers) ∧
      (out.2 = true ↔ changed = true ∨ ∃ p ∈ peers, p ∉ members) := by
  induction peers generalizing members changed with
  | nil => simp
  | cons q peers ih =>
      obtain ⟨hmem, hflag⟩ := ih (members.insert q) (changed || !members.contains q)
      refine ⟨fun p => ?_, ?_⟩
      · rw [List.foldl_cons, hmem p, ExtTreeSet.mem_insert, List.mem_cons, compare_eq_iff_eq]
        tauto
      · rw [List.foldl_cons, hflag, Bool.or_eq_true, or_assoc, Bool.not_eq_true',
          ← Bool.not_eq_true, ExtTreeSet.contains_iff_mem]
        apply or_congr_right
        -- once `q` is in the set, the later insertions see the same missing peers
        by_cases hq : q ∈ members
        · have hsame : ∀ p, p ∉ members.insert q ↔ p ∉ members := by
            intro p
            rw [ExtTreeSet.mem_insert, compare_eq_iff_eq]
            exact not_congr ⟨fun h => h.elim (fun e => e ▸ hq) id, Or.inr⟩
          simp only [hsame, List.mem_cons, exists_eq_or_imp]
        · simp [hq]

private theorem removePeers_aux (peers : List String) (members : PeerSet) (changed : Bool) :
    let out := peers.foldl
      (fun (acc : PeerSet × Bool) p => (acc.1.erase p, acc.2 || acc.1.contains p))
      (members, changed)
    (∀ p, p ∈ out.1 ↔ p ∈ members ∧ p ∉ peers) ∧
      (out.2 = true ↔ changed = true ∨ ∃ p ∈ peers, p ∈ members) := by
  induction peers generalizing members changed with
  | nil => simp
  | cons q peers ih =>
      obtain ⟨hmem, hflag⟩ := ih (members.erase q) (changed || members.contains q)
      refine ⟨fun p => ?_, ?_⟩
      · rw [List.foldl_cons, hmem p, ExtTreeSet.mem_erase, List.mem_cons, ne_eq, compare_eq_iff_eq]
        tauto
      · rw [List.foldl_cons, hflag, Bool.or_eq_true, or_assoc, ExtTreeSet.contains_iff_mem]
        apply or_congr_right
        by_cases hq : q ∈ members
        · simp [hq]
        · have hsame : ∀ p, p ∈ members.erase q ↔ p ∈ members := by
            intro p
            rw [ExtTreeSet.mem_erase, ne_eq, compare_eq_iff_eq]
            exact ⟨fun h => h.2, fun h => ⟨fun e => hq (e ▸ h), h⟩⟩
          simp only [hsame, List.mem_cons, exists_eq_or_imp]

theorem mem_insertPeers {members : PeerSet} {peers : List String} {p : String} :
    p ∈ (insertPeers members peers).1 ↔ p ∈ members ∨ p ∈ peers :=
  (insertPeers_aux peers members false).1 p

theorem mem_removePeers {members : PeerSet} {peers : List String} {p : String} :
    p ∈ (removePeers members peers).1 ↔ p ∈ members ∧ p ∉ peers :=
  (removePeers_aux peers members false).1 p

def ReportsChange (edit : PeerSet → List String → PeerSet × Bool) : Prop :=
  ∀ members peers, (edit members peers).2 = true ↔ (edit members peers).1 ≠ members

theorem insertPeers_reportsChange : ReportsChange insertPeers := by
  intro members peers
  rw [show (insertPeers members peers).2 = true ↔ _ from (insertPeers_aux peers members false).2]
  constructor
  · rintro (h | ⟨p, hp, hnew⟩) heq
    · simp at h
    · exact hnew (heq ▸ mem_insertPeers.mpr (Or.inr hp))
  · intro hne
    by_contra hall
    apply hne
    apply ExtTreeSet.ext_mem
    intro p
    rw [mem_insertPeers]
    refine ⟨fun h => h.elim id fun hp => ?_, Or.inl⟩
    by_contra hnew
    exact hall (Or.inr ⟨p, hp, hnew⟩)

theorem removePeers_reportsChange : ReportsChange removePeers := by
  intro members peers
  rw [show (removePeers members peers).2 = true ↔ _ from (removePeers_aux peers members false).2]
  constructor
  · rintro (h | ⟨p, hp, hold⟩) heq
    · simp at h
    · exact (mem_removePeers.mp (heq.symm ▸ hold)).2 hp
  · intro hne
    by_contra hall
    apply hne
    apply ExtTreeSet.ext_mem
    intro p
    rw [mem_removePeers]
    refine ⟨fun h => h.1, fun h => ⟨h, fun hp => hall (Or.inr ⟨p, hp, h⟩)⟩⟩

theorem replacePeers_fst (members : PeerSet) (peers : List String) :
    (replacePeers members peers).1 = collectPeers peers := by
  by_cases h : members = collectPeers peers <;> simp [replacePeers, h]

theorem replacePeers_reportsChange : ReportsChange replacePeers := by
  intro members peers
  rw [replacePeers_fst]
  simp only [replacePeers, decide_eq_true_eq]
  exact ne_comm

def StaysWithin (edit : PeerSet → List String → PeerSet × Bool) : Prop :=
  ∀ members peers p, p ∈ (edit members peers).1 → p ∈ members ∨ p ∈ peers

theorem insertPeers_staysWithin : StaysWithin insertPeers :=
  fun _ _ _ h => mem_insertPeers.mp h

theorem removePeers_staysWithin : StaysWithin removePeers :=
  fun _ _ _ h => Or.inl (mem_removePeers.mp h).1

theorem replacePeers_staysWithin : StaysWithin replacePeers := by
  intro members peers p h
  rw [replacePeers_fst, mem_collectPeers] at h
  exact Or.inr h

/-! ## An instance

Two Ed25519 peer ids, with the digests SHA-256 gives for the member sets `{}`,
`{peerA}` and `{peerB}`. -/

def peerA : String := "12D3KooWEvsVGaYUFhsVU2uM3LNs7Nh9jtrx6v42bRYyChesXFKX"

def peerB : String := "12D3KooWQcCmaNhFVZ1wn7sBBu6xgXXePmiG5u4wYDAv41VfLnNR"

def samplePrimitives : Primitives where
  parsesAsPeerId s := s == peerA || s == peerB
  sha256 bytes :=
    if bytes = [] then
      [227, 176, 196, 66, 152, 252, 28, 20, 154, 251, 244, 200, 153, 111, 185, 36,
        39, 174, 65, 228, 100, 155, 147, 76, 164, 149, 153, 27, 120, 82, 184, 85]
    else if bytes = utf8Bytes peerA ++ [0] then
      [178, 147, 51, 37, 38, 36, 76, 63, 60, 28, 34, 166, 1, 166, 146, 231,
        146, 233, 137, 240, 207, 158, 115, 143, 166, 114, 232, 134, 52, 177, 185, 213]
    else if bytes = utf8Bytes peerB ++ [0] then
      [162, 28, 35, 44, 188, 50, 32, 62, 222, 129, 48, 103, 100, 232, 59, 120,
        131, 209, 27, 122, 9, 34, 154, 48, 164, 121, 102, 43, 33, 206, 101, 1]
    else bytes

end NexusAuth.Authority
