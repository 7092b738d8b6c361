import NexusAuth.Replay.Model
import NexusAuth.Store.Proofs.Changes
import NexusAuth.Store.Proofs.Replication

/-!
# What the MAC of a replication message fixes

The MAC covers the fields of a message, joined with zero bytes.  The service name, the members
and the nonce are of any length and come from the network, and the numbers next to them contain
zero bytes.  The bytes can be read back because a name that the store takes has no zero byte,
the numbers have eight bytes each, and the peer ids that the store takes have neither a zero
byte nor a comma.  The members of a deletion are not looked at by the store; where they end is
not determined.
-/

namespace NexusAuth

open Std (ExtTreeSet)
open NexusAuth.Authority NexusAuth.Lib.Framing NexusAuth.Lib.Results

namespace Authority

/-- The texts that parse as a peer id have neither a zero byte nor a comma, and are not empty. -/
structure Primitives.PlainPeerIds (prim : Primitives) : Prop where
  nul : ∀ s, prim.parsesAsPeerId s = true → 0 ∉ utf8Bytes s
  comma : ∀ s, prim.parsesAsPeerId s = true → 44 ∉ utf8Bytes s
  nonempty : prim.parsesAsPeerId "" = false

theorem nul_notMem_of_isValidServiceName {s : String} (h : isValidServiceName s = true) :
    0 ∉ utf8Bytes s := by
  simp only [isValidServiceName, isValidNetworkName, Bool.and_eq_true, List.all_eq_true] at h
  intro hmem
  have hzero := h.1.2 0 hmem
  revert hzero
  decide

end Authority

variable {prim : Primitives} {msg msg' : ReplicateMsg}

def ReplicateMsg.update (msg : ReplicateMsg) : Update :=
  ⟨msg.service, msg.version, msg.members, msg.indexVersion, msg.deleted⟩

structure ReplicateMsg.InRange (msg : ReplicateMsg) : Prop where
  version : msg.version < 2 ^ 64
  indexVersion : msg.indexVersion < 2 ^ 64
  ts : msg.ts < 2 ^ 64

/-- The messages agree in all that is applied, and if they are no deletions in the nonce. -/
structure ReplicateMsg.Agree (msg msg' : ReplicateMsg) : Prop where
  service : msg.service = msg'.service
  version : msg.version = msg'.version
  indexVersion : msg.indexVersion = msg'.indexVersion
  deleted : msg.deleted = msg'.deleted
  ts : msg.ts = msg'.ts
  nonce : msg.deleted = false → msg.nonce = msg'.nonce
  members : msg.deleted = false → collectPeers msg.members = collectPeers msg'.members

/-! ## Members -/

def ReplicateMsg.memberBytes (msg : ReplicateMsg) : Bytes :=
  utf8Bytes (",".intercalate (sortTexts msg.members))

theorem memberBytes_eq (msg : ReplicateMsg) :
    msg.memberBytes = [44].intercalate ((sortTexts msg.members).map utf8Bytes) :=
  utf8Bytes_intercalate "," _

theorem mem_sortTexts {texts : List String} {text : String} :
    text ∈ sortTexts texts ↔ text ∈ texts :=
  (List.mergeSort_perm texts _).mem_iff

theorem sortTexts_of_perm {texts texts' : List String} (h : texts.Perm texts') :
    sortTexts texts = sortTexts texts' := by
  have hsorted : ∀ l : List String, (sortTexts l).Pairwise fun a b => decide (a ≤ b) = true :=
    List.pairwise_mergeSort (by simpa using fun a b c => String.le_trans)
      (by simpa using String.le_total)
  have hperm : (sortTexts texts).Perm (sortTexts texts') :=
    (List.mergeSort_perm texts _).trans (h.trans (List.mergeSort_perm texts' _).symm)
  refine hperm.eq_of_pairwise (fun a b _ _ hab hba => ?_) (hsorted texts) (hsorted texts')
  exact String.le_antisymm (of_decide_eq_true hab) (of_decide_eq_true hba)

theorem nul_notMem_memberBytes (hplain : prim.PlainPeerIds)
    (h : ∀ p ∈ msg.members, isValidPeerId prim p = true) : 0 ∉ msg.memberBytes := by
  rw [memberBytes_eq]
  intro hmem
  obtain hcomma | ⟨item, hitem, hzero⟩ := mem_intercalate hmem
  · revert hcomma
    decide
  · obtain ⟨peer, hpeer, rfl⟩ := List.mem_map.mp hitem
    exact hplain.nul peer (h peer (mem_sortTexts.mp hpeer)) hzero

theorem isItem_of_isValidPeerId (hplain : prim.PlainPeerIds) {peer : String}
    (h : isValidPeerId prim peer = true) : IsItem 44 (utf8Bytes peer) := by
  refine ⟨hplain.comma peer h, fun hempty => ?_⟩
  obtain rfl : peer = "" := utf8Bytes_inj hempty
  rw [isValidPeerId, hplain.nonempty] at h
  cases h

theorem perm_of_memberBytes (hplain : prim.PlainPeerIds)
    (h : ∀ p ∈ msg.members, isValidPeerId prim p = true)
    (h' : ∀ p ∈ msg'.members, isValidPeerId prim p = true)
    (heq : msg.memberBytes = msg'.memberBytes) : msg.members.Perm msg'.members := by
  have hitems : ∀ m : ReplicateMsg, (∀ p ∈ m.members, isValidPeerId prim p = true) →
      ∀ item ∈ (sortTexts m.members).map utf8Bytes, IsItem 44 item := by
    intro m hm item hitem
    obtain ⟨peer, hpeer, rfl⟩ := List.mem_map.mp hitem
    exact isItem_of_isValidPeerId hplain (hm peer (mem_sortTexts.mp hpeer))
  rw [memberBytes_eq, memberBytes_eq] at heq
  have hmap := intercalate_inj (hitems msg h) (hitems msg' h') heq
  have hsorted : sortTexts msg.members = sortTexts msg'.members :=
    List.map_injective_iff.mpr (fun _ _ => utf8Bytes_inj) hmap
  have hleft := List.mergeSort_perm msg.members fun a b => a ≤ b
  have hright := List.mergeSort_perm msg'.members fun a b => a ≤ b
  rw [sortTexts, sortTexts] at hsorted
  exact hleft.symm.trans (hsorted ▸ hright)

theorem collectPeers_of_perm {peers peers' : List String} (h : peers.Perm peers') :
    collectPeers peers = collectPeers peers' := by
  apply ExtTreeSet.ext_mem
  intro p
  rw [mem_collectPeers, mem_collectPeers]
  exact h.mem_iff

/-! ## The bytes of a message -/

theorem replicateInput_eq (msg : ReplicateMsg) :
    replicateInput msg = utf8Bytes "nexusauth/replicate" ++ 0 :: (utf8Bytes msg.service ++ 0 ::
      (beBytes msg.version ++ 0 :: (beBytes msg.indexVersion ++ 0 ::
        (if msg.deleted then 1 else 0) :: 0 ::
          ((msg.memberBytes ++ 0 :: utf8Bytes msg.nonce) ++ 0 :: beBytes msg.ts)))) := by
  simp only [replicateInput, ReplicateMsg.memberBytes, List.append_assoc, List.cons_append,
    List.nil_append]

theorem replicateInput_of_perm (msg : ReplicateMsg) {members members' : List String}
    (h : members.Perm members') :
    replicateInput { msg with members := members } =
      replicateInput { msg with members := members' } := by
  simp only [replicateInput, sortTexts_of_perm h]

theorem agree_of_replicateInput (hplain : prim.PlainPeerIds) (hrange : msg.InRange)
    (hrange' : msg'.InRange) (hvalid : msg.update.Valid prim) (hvalid' : msg'.update.Valid prim)
    (h : replicateInput msg = replicateInput msg') : msg.Agree msg' := by
  rw [replicateInput_eq, replicateInput_eq, List.append_right_inj, List.cons.injEq] at h
  obtain ⟨hservice, h⟩ := append_sep_inj (nul_notMem_of_isValidServiceName hvalid.1)
    (nul_notMem_of_isValidServiceName hvalid'.1) h.2
  obtain ⟨hversion, h⟩ := beBytes_append_inj hrange.version hrange'.version h
  obtain ⟨hindex, h⟩ := beBytes_append_inj hrange.indexVersion hrange'.indexVersion
    (List.cons.inj h).2
  simp only [List.cons.injEq, true_and] at h
  obtain ⟨hflag, h⟩ := h
  have hdeleted : msg.deleted = msg'.deleted := boolByte_inj hflag
  -- the time has a fixed width at the end
  obtain ⟨htext, htime⟩ := List.append_inj' h (by simp)
  have hts : msg.ts = msg'.ts := beBytes_inj hrange.ts hrange'.ts (List.cons.inj htime).2
  have hlive : msg.deleted = false → msg.memberBytes = msg'.memberBytes ∧
      utf8Bytes msg.nonce = utf8Bytes msg'.nonce := by
    intro hd
    exact append_sep_inj (nul_notMem_memberBytes hplain (hvalid.2 hd))
      (nul_notMem_memberBytes hplain (hvalid'.2 (hdeleted.symm.trans hd))) htext
  exact {
    service := utf8Bytes_inj hservice
    version := hversion
    indexVersion := hindex
    deleted := hdeleted
    ts := hts
    nonce := fun hd => utf8Bytes_inj (hlive hd).2
    members := fun hd => collectPeers_of_perm <| perm_of_memberBytes hplain (hvalid.2 hd)
      (hvalid'.2 (hdeleted.symm.trans hd)) (hlive hd).1 }

/-! ## What is applied -/

namespace Store

variable {io : SaveIo} {s : Store} {u : Update}

theorem valid_of_applyReplicated {changed : Bool}
    (h : (s.applyReplicated prim io u).2 = .ok changed) : u.Valid prim := by
  cases hmerge : s.mergeEntry prim u with
  | error e =>
      rw [applyReplicated, hmerge] at h
      cases h
  | ok out => exact (mergeEntry_cases hmerge).1

theorem applyReplicated_of_agree (hagree : msg.Agree msg') (hvalid : msg.update.Valid prim)
    (hvalid' : msg'.update.Valid prim) :
    s.applyReplicated prim io msg.update = s.applyReplicated prim io msg'.update := by
  have hservice : msg.update.service = msg'.update.service := hagree.service
  have hindex : msg.update.indexVersion = msg'.update.indexVersion := hagree.indexVersion
  have hentry : msg.update.entry = msg'.update.entry := by
    simp only [ReplicateMsg.update, Update.entry, ← hagree.version, ← hagree.deleted]
    by_cases hd : msg.deleted = true
    · simp only [hd, if_true]
    · simp only [hd, hagree.members (Bool.eq_false_of_not_eq_true hd)]
  have haccepts : s.Accepts prim msg.update ↔ s.Accepts prim msg'.update := by
    simp only [ReplicateMsg.update, Accepts, ← hagree.service, ← hagree.version,
      ← hagree.deleted]
    by_cases hd : msg.deleted = true
    · simp only [hd, if_true]
    · simp only [hd, hagree.members (Bool.eq_false_of_not_eq_true hd)]
  have hmerge : s.mergeEntry prim msg.update = s.mergeEntry prim msg'.update := by
    by_cases hacc : s.Accepts prim msg.update
    · rw [mergeEntry_of_mergeService (mergeService_of_accepts hvalid hacc),
        mergeEntry_of_mergeService (mergeService_of_accepts hvalid' (haccepts.mp hacc)),
        hservice, hentry, hindex]
    · rw [mergeEntry_of_mergeService (mergeService_of_not_accepts hvalid hacc),
        mergeEntry_of_mergeService
          (mergeService_of_not_accepts hvalid' fun hacc' => hacc (haccepts.mpr hacc')),
        hindex]
  rw [applyReplicated, applyReplicated, hmerge]

end Store

/-! ## Domains -/

theorem syncReqInput_eq (network nonce : String) (ts : Nat) :
    syncReqInput network nonce ts = utf8Bytes "nexusauth/sync/req" ++ 0 ::
      (utf8Bytes network ++ 0 :: (utf8Bytes nonce ++ 0 :: beBytes ts)) := by
  simp only [syncReqInput, List.append_assoc, List.cons_append, List.nil_append]

theorem syncRespInput_eq_ok {crypto : MacCrypto} {network nonce : String}
    {snapshot : StoreSnapshot} {ts : Nat} {bytes : Bytes}
    (h : syncRespInput crypto network nonce snapshot ts = .ok bytes) :
    ∃ rest, bytes = utf8Bytes "nexusauth/sync/resp" ++ 0 :: rest := by
  simp only [syncRespInput, bind_eq_ok, pure_eq_ok] at h
  obtain ⟨cbor, -, rfl⟩ := h
  simp only [List.append_assoc, List.cons_append, List.nil_append]
  exact ⟨_, rfl⟩

theorem replicateInput_ne_syncReqInput (msg : ReplicateMsg) (network nonce : String) (ts : Nat) :
    replicateInput msg ≠ syncReqInput network nonce ts := by
  rw [replicateInput_eq, syncReqInput_eq]
  exact append_sep_ne (by decide +kernel) (by decide +kernel) (by decide +kernel)

section Response

variable {crypto : MacCrypto} {network nonce : String} {snapshot : StoreSnapshot} {ts : Nat}
  {bytes : Bytes} (h : syncRespInput crypto network nonce snapshot ts = .ok bytes)

include h

theorem replicateInput_ne_syncRespInput (msg : ReplicateMsg) : replicateInput msg ≠ bytes := by
  obtain ⟨rest, rfl⟩ := syncRespInput_eq_ok h
  rw [replicateInput_eq]
  exact append_sep_ne (by decide +kernel) (by decide +kernel) (by decide +kernel)

theorem syncReqInput_ne_syncRespInput (network' nonce' : String) (ts' : Nat) :
    syncReqInput network' nonce' ts' ≠ bytes := by
  obtain ⟨rest, rfl⟩ := syncRespInput_eq_ok h
  rw [syncReqInput_eq]
  exact append_sep_ne (by decide +kernel) (by decide +kernel) (by decide +kernel)

end Response

/-- Two messages that the store takes and that have the same MAC input agree, and are applied in
the same way to every store; and no two of the three kinds of messages have a MAC input in
common. -/
theorem replication_macs_fix_what_is_applied (crypto : MacCrypto)
    (hplain : crypto.toPrimitives.PlainPeerIds) :
    (∀ msg msg' : ReplicateMsg, msg.InRange → msg'.InRange →
      ∀ (io io' : SaveIo) (s s' : Store) (changed changed' : Bool),
        (s.applyReplicated crypto.toPrimitives io msg.update).2 = .ok changed →
        (s'.applyReplicated crypto.toPrimitives io' msg'.update).2 = .ok changed' →
        replicateInput msg = replicateInput msg' →
        msg.Agree msg' ∧ ∀ (io : SaveIo) (s : Store),
          s.applyReplicated crypto.toPrimitives io msg.update =
            s.applyReplicated crypto.toPrimitives io msg'.update) ∧
    (∀ msg network nonce ts, replicateInput msg ≠ syncReqInput network nonce ts) ∧
    ∀ network nonce snapshot ts bytes,
      syncRespInput crypto network nonce snapshot ts = .ok bytes →
      (∀ msg, replicateInput msg ≠ bytes) ∧
        ∀ network' nonce' ts', syncReqInput network' nonce' ts' ≠ bytes := by
  refine ⟨?_, replicateInput_ne_syncReqInput, fun network nonce snapshot ts bytes h =>
    ⟨replicateInput_ne_syncRespInput h, syncReqInput_ne_syncRespInput h⟩⟩
  intro msg msg' hrange hrange' io io' s s' changed changed' happlied happlied' hinput
  have hvalid := Store.valid_of_applyReplicated happlied
  have hvalid' := Store.valid_of_applyReplicated happlied'
  have hagree := agree_of_replicateInput hplain hrange hrange' hvalid hvalid' hinput
  exact ⟨hagree, fun io s => Store.applyReplicated_of_agree hagree hvalid hvalid'⟩

theorem samplePrimitives_plainPeerIds : samplePrimitives.PlainPeerIds where
  nul s h := by
    simp only [samplePrimitives, Bool.or_eq_true, beq_iff_eq] at h
    obtain rfl | rfl := h <;> decide +kernel
  comma s h := by
    simp only [samplePrimitives, Bool.or_eq_true, beq_iff_eq] at h
    obtain rfl | rfl := h <;> decide +kernel
  nonempty := by decide +kernel

def webMessage (members : List String) : ReplicateMsg :=
  ⟨opReplicate, "web", 2, members, 5, false, "n", 7, ""⟩

/-- Two messages that differ in the order of their members. -/
theorem replication_macs_fix_what_is_applied_reordered :
    replicateInput (webMessage [peerA, peerB]) = replicateInput (webMessage [peerB, peerA]) ∧
      (webMessage [peerA, peerB]).Agree (webMessage [peerB, peerA]) := by
  have hrange : ∀ members, (webMessage members).InRange := by
    intro members
    constructor <;> norm_num [webMessage]
  have hinput : replicateInput (webMessage [peerA, peerB]) =
      replicateInput (webMessage [peerB, peerA]) :=
    replicateInput_of_perm (webMessage []) (List.Perm.swap peerB peerA [])
  refine ⟨hinput, ?_⟩
  exact ((replication_macs_fix_what_is_applied sampleMacCrypto
    samplePrimitives_plainPeerIds).1 _ _ (hrange _) (hrange _) Store.saves Store.saves
    Store.emptyStore Store.emptyStore true true (by decide +kernel) (by decide +kernel) hinput).1

end NexusAuth
