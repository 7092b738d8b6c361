import NexusAuth.Raft.Proofs.Commands
import NexusAuth.Records
import NexusAuth.Store.Proofs.AntiEntropy
import NexusAuth.Store.Proofs.Durability

/-!
# Every policy can be published under distinct keys

Names and peers enter a policy through the configuration, through local calls and
administrators' commands, and from other sidecars by replication, anti-entropy and joining,
and each way validates them in another place.  What they all keep is `Admissible`: names and
members parse and versions start at 1.  It is kept by calls that fail as well, because a
merge that stops at an invalid entry has only merged valid ones.
-/

namespace NexusAuth

open Std (ExtTreeMap)
open NexusAuth.Authority NexusAuth.Lib NexusAuth.Lib.OrderedMap NexusAuth.Lib.Words

/-! ## The store -/

namespace Store

/-- The stores that sidecars of a network can hold if none of them finds a state file that
is not its own: created, loaded again, after a call with any result, and copied from another
such store by a node that joins. -/
inductive Held (prim : Primitives) (network : String) : Store → Prop
  | created {io : SaveIo} {initial : BTreeMap String (List String)} {s : Store}
      (h : loadOrCreate prim io .missing network initial = .ok s) : Held prim network s
  | reloaded {io : SaveIo} {initial : BTreeMap String (List String)} {s t : Store}
      (hs : Held prim network s) (h : s.reload prim io network initial = .ok t) :
      Held prim network t
  | called {s : Store} (io : SaveIo) (op : Op) (hs : Held prim network s) (hb : s.Bounded) :
      Held prim network (s.exec prim io op).1
  | indexSet {s : Store} (io : SaveIo) (version : Nat) (hs : Held prim network s) :
      Held prim network (s.setIndexVersion io version).1
  | joined {io : SaveIo} {s t : Store} (hs : Held prim network s)
      (h : fromSnapshot io network s.snapshot = .ok t) : Held prim network t

variable {prim : Primitives} {network : String} {io : SaveIo} {s t : Store}

theorem snapshot_editMembers (io : SaveIo) (edit : PeerSet → List String → PeerSet × Bool)
    (service : String) (peers : List String) :
    (s.editMembers prim io edit service peers).1.snapshot =
      (s.editMembers prim saves edit service peers).1.snapshot := by
  unfold editMembers
  split
  · rfl
  · split
    · rfl
    · simp only [finishChange, ExtTreeMap.getElem?_insert_self]
      split
      · rfl
      · simp only [snapshot_save]

theorem snapshot_exec (io : SaveIo) (op : Op) :
    (s.exec prim io op).1.snapshot = (s.exec prim saves op).1.snapshot := by
  cases op with
  | createService service peers =>
      simp only [exec, createService]
      split
      · rfl
      · split
        · rfl
        · split
          · rfl
          · simp only [snapshot_saveThen]
  | deleteService service =>
      simp only [exec, deleteService]
      split
      · rfl
      · simp only [snapshot_saveThen]
  | addMembers service peers => exact snapshot_editMembers io insertPeers service peers
  | removeMembers service peers => exact snapshot_editMembers io removePeers service peers
  | setMembers service peers => exact snapshot_editMembers io replacePeers service peers
  | bumpIndexVersion => simp only [exec, bumpIndexVersion, snapshot_save]
  | applyReplicated u => simp only [exec, snapshot_applyReplicated]
  | mergeSnapshot snap => simp only [exec, snapshot_mergeSnapshot]

theorem admissible_exec (io : SaveIo) (op : Op) (hs : s.Admissible prim) (hb : s.Bounded) :
    (s.exec prim io op).1.snapshot.Admissible prim := by
  rw [snapshot_exec]
  cases hresult : s.exec prim saves op with
  | mk t result =>
      cases result with
      | ok reply => exact admissible_of_change hs hb (change_of_exec hresult)
      | error e =>
          -- every write succeeds here, so the error is one of validation
          have hends := ends_exec prim saves s op
          rw [hresult] at hends
          cases hends with
          | untouched => exact hs
          | reported hnext hio => simp [saves] at hio
          | @stopped snap _ _ hop hmerge =>
              have hadm := admissible_mergeEntries snap.updates false hs
              rw [hmerge] at hadm
              exact hadm

structure Clean (prim : Primitives) (s : Store) : Prop where
  memory : s.snapshot.Admissible prim
  file : ∀ file, s.file = some file → file.Admissible prim

theorem Clean.of_admissible (h : s.snapshot.Admissible prim)
    (hfile : s.file = some s.snapshot) : Clean prim s := by
  refine ⟨h, fun file hf => ?_⟩
  obtain rfl := Option.some.inj (hfile.symm.trans hf)
  exact h

theorem Clean.step (hs : Clean prim s) (hmemory : t.snapshot.Admissible prim)
    (hfile : t.file = s.file ∨ t.file = some t.snapshot) : Clean prim t := by
  rcases hfile with hkept | hwritten
  · exact ⟨hmemory, hkept ▸ hs.file⟩
  · exact .of_admissible hmemory hwritten

theorem file_exec (io : SaveIo) (op : Op) :
    (s.exec prim io op).1.file = s.file ∨
      (s.exec prim io op).1.file = some (s.exec prim io op).1.snapshot := by
  have hends := ends_exec prim io s op
  generalize s.exec prim io op = out at hends
  cases hends with
  | untouched => exact .inl rfl
  | saved hnext hio => exact .inr rfl
  | swallowed hnext hio => exact .inl rfl
  | reported hnext hio => exact .inl rfl
  | stopped hop hmerge => exact .inl (fields_of_mergeEntries hmerge).1

theorem file_saveThen {α : Type} (value : α) :
    (s.saveThen io value).1.file = s.file ∨ (s.saveThen io value).1.file = some s.snapshot := by
  cases hio : io s.snapshot with
  | none => exact .inr (by rw [saveThen_of_ok hio])
  | some e => exact .inl (by simp only [saveThen, save, hio])

theorem clean_setIndexVersion (version : Nat) (hs : Clean prim s) :
    Clean prim (s.setIndexVersion io version).1 := by
  unfold setIndexVersion
  split
  · have hraised : ({ s with indexVersion := version } : Store).snapshot.Admissible prim :=
      { hs.memory with }
    apply hs.step
    · rw [snapshot_saveThen]
      exact hraised
    · rw [snapshot_saveThen]
      exact file_saveThen ()
  · exact hs

theorem of_fromSnapshot {snap : StoreSnapshot} (h : fromSnapshot io network snap = .ok t) :
    t.snapshot = snap ∧ t.file = some t.snapshot := by
  unfold fromSnapshot at h
  split at h
  · simp at h
  · rename_i hnetwork
    have hname : snap.network = network := by simpa using hnetwork
    subst hname
    cases hio : io snap with
    | none =>
        simp only [save, snapshot, hio, Except.ok.injEq] at h
        subst h
        exact ⟨rfl, rfl⟩
    | some e => simp [save, snapshot, hio] at h

theorem clean_reload {initial : BTreeMap String (List String)} (hs : Clean prim s)
    (h : s.reload prim io network initial = .ok t) : Clean prim t := by
  unfold reload at h
  have hfile := (settled_of_load h).file
  cases hf : s.file with
  | none =>
      rw [hf] at h
      exact .of_admissible (sound_of_created h).admissible hfile
  | some file =>
      rw [hf] at h
      have hsnapshot : t.snapshot = file := snapshot_of_reloaded h
      apply Clean.of_admissible _ hfile
      rw [hsnapshot]
      exact hs.file file hf

theorem clean_of_held (h : Held prim network s) : Clean prim s := by
  induction h with
  | created h => exact .of_admissible (sound_of_created h).admissible (settled_of_load h).file
  | reloaded hs h ih => exact clean_reload ih h
  | called io op hs hb ih => exact ih.step (admissible_exec io op ih.memory hb) (file_exec io op)
  | indexSet io version hs ih => exact clean_setIndexVersion version ih
  | joined hs h ih =>
      obtain ⟨hsnapshot, hfile⟩ := of_fromSnapshot h
      exact .of_admissible (hsnapshot ▸ ih.memory) hfile

end Store

/-! ## The policy state -/

namespace Raft

variable {prim : Primitives} {s t : PolicyState}

def PolicyState.asStore (s : PolicyState) : StoreSnapshot :=
  ⟨s.network, s.policyEpoch, s.services, s.tombstones⟩

theorem editedService_eq_some {cmd : PolicyCommand} {service : String}
    (h : cmd.editedService = some service) :
    ∃ (edit : MemberEdit) (peers : List String), cmd = edit.command service peers := by
  cases cmd with
  | addMembers name peers =>
      obtain rfl := Option.some.inj h
      exact ⟨.add, peers, rfl⟩
  | removeMembers name peers =>
      obtain rfl := Option.some.inj h
      exact ⟨.remove, peers, rfl⟩
  | setMembers name peers =>
      obtain rfl := Option.some.inj h
      exact ⟨.set, peers, rfl⟩
  | _ => simp [PolicyCommand.editedService] at h

theorem MemberEdit.of_leaves {edit : MemberEdit} {members : PeerSet} {peers : List String}
    {p : String} (h : edit.Leaves members peers p) : p ∈ members ∨ p ∈ peers := by
  cases edit with
  | add => exact h
  | remove => exact .inl h.1
  | set => exact .inr h

theorem leaves_of_edit {cmd : PolicyCommand} {service : String} {old new : ServiceState}
    {report : Report} (hcmd : cmd.editedService = some service)
    (h : s.applyInner prim cmd = .ok (t, report)) (hold : s.services[service]? = some old)
    (hnew : t.services[service]? = some new) :
    ∃ (edit : MemberEdit) (peers : List String), cmd = edit.command service peers ∧
      (∀ p ∈ peers, isValidPeerId prim p = true) ∧
      ∀ p ∈ new.members, edit.Leaves old.members peers p := by
  obtain ⟨edit, peers, rfl⟩ := editedService_eq_some hcmd
  have hedits : PolicyState.Edits prim edit service peers s t
      (PolicyState.outcomeOf (.ok (t, report))) :=
    PolicyState.edits_of_applyInner h fun w report' heq => by
      simp only [Except.ok.injEq, Prod.mk.injEq] at heq
      exact heq.1
  obtain ⟨hpeers, -⟩ := hedits.taken_iff.mp ⟨_, _, _, rfl⟩
  obtain ⟨old', new', hold', hnew', hmembers, -⟩ := hedits.members _ _ _ rfl
  obtain rfl := Option.some.inj (hold.symm.trans hold')
  obtain rfl := Option.some.inj (hnew.symm.trans hnew')
  exact ⟨edit, peers, rfl, hpeers, fun p => (hmembers p).mp⟩

theorem one_le_saturatingSucc64 (n : Nat) : 1 ≤ saturatingSucc64 n := by
  unfold saturatingSucc64 u64Max
  omega

theorem admissible_of_applyInner {cmd : PolicyCommand} {report : Report}
    (hs : s.asStore.Admissible prim) (h : s.applyInner prim cmd = .ok (t, report)) :
    t.asStore.Admissible prim := by
  cases PolicyState.effect_of_applyInner h with
  | created hname hpeers hfresh =>
      have hmembers : ∀ p ∈ collectPeers _, isValidPeerId prim p = true :=
        fun p hp => hpeers p (mem_collectPeers.mp hp)
      exact hs.write hname hmembers le_rfl rfl fun _ _ h => h
  | deleted hlive =>
      exact hs.bury (hs.service_name _ _ hlive) (one_le_saturatingSucc64 _) rfl rfl
  | kept hcmd hlive => exact hs
  | edited hcmd hlive hne =>
      -- a member that an edit leaves was there before or has been validated
      obtain ⟨edit, peers, -, hpeers, hleaves⟩ :=
        leaves_of_edit hcmd h hlive ExtTreeMap.getElem?_insert_self
      exact hs.edit hlive (fun p hp => (MemberEdit.of_leaves (hleaves p hp)).imp_right (hpeers p))
        (one_le_saturatingSucc64 _) rfl rfl
  | renewed => exact { hs with }
  | issued huses hfresh => exact { hs with }
  | consumed hrecord huses hpeer hexpires hused => exact { hs with }

theorem admissible_applyCommandAt (cmd : PolicyCommand) (raftIndex : Nat)
    (hs : s.asStore.Admissible prim) :
    (s.applyCommandAt prim cmd raftIndex).1.asStore.Admissible prim := by
  apply PolicyState.invariant_applyCommandAt (P := fun s => s.asStore.Admissible prim)
  · rintro t u ⟨table, rfl⟩ ht
    exact { ht with }
  · intro t report
    exact admissible_of_applyInner hs
  · exact hs

theorem admissible_after (network : String) (log : List (PolicyCommand × Nat)) (k : Nat) :
    (PolicyState.after prim network log k).asStore.Admissible prim := by
  apply PolicyState.invariant_after (P := fun s => s.asStore.Admissible prim)
  · -- there is nothing in the first state
    constructor <;> simp [PolicyState.new, PolicyState.asStore]
  · intro k hk hs
    rw [PolicyState.after_succ hk]
    exact admissible_applyCommandAt _ _ hs

end Raft

/-! ## Keys -/

/-- A policy that a signer can publish: names, members and versions are well formed, every
service has a record key, and no two records share one. -/
structure Publishable (prim : Primitives) (crypto : Crypto) (signer : Signer)
    (policy : StoreSnapshot) : Prop where
  name : ∀ (service : String) (state : ServiceState), policy.services[service]? = some state →
    isValidServiceName service = true ∧ service ≠ reservedService
  member : ∀ (service : String) (state : ServiceState), policy.services[service]? = some state →
    ∀ p ∈ state.members, isValidPeerId prim p = true
  live_pos : ∀ (service : String) (state : ServiceState), policy.services[service]? = some state →
    1 ≤ state.version
  tombstone_pos : ∀ (service : String) (version : Nat),
    policy.tombstones[service]? = some version → 1 ≤ version
  key : ∀ (service : String) (state : ServiceState), policy.services[service]? = some state →
    ∃ key, signer.serviceKey crypto service = .ok key ∧ key ≠ indexKey crypto signer.network ∧
      ∀ (other : String) (state' : ServiceState), policy.services[other]? = some state' →
        other ≠ service → signer.serviceKey crypto other ≠ .ok key

theorem publishable_of_admissible {prim : Primitives} (crypto : Crypto) (signer : Signer)
    {policy : StoreSnapshot} (h : policy.Admissible prim) :
    Publishable prim crypto signer policy where
  name service state hlive := by
    have hvalid := h.service_name service state hlive
    refine ⟨hvalid, ?_⟩
    rintro rfl
    simp [isValidServiceName] at hvalid
  member := h.member
  live_pos := h.live_pos
  tombstone_pos := h.tombstone_pos
  key service state hlive := by
    have hkey : signer.serviceKey crypto service = .ok (keyPath crypto signer.network service) :=
      serviceKey_eq_ok.mpr ⟨h.service_name service state hlive, rfl⟩
    refine ⟨_, hkey, serviceKey_ne_indexKey hkey, fun other state' _ hne hother => ?_⟩
    exact hne (serviceKey_injective hother hkey)

/-- Every policy state that commands can reach, and every store that sidecars starting
without a state file can hold, is publishable by any signer. -/
theorem reachable_policies_publishable (prim : Primitives) (crypto : Crypto) (signer : Signer) :
    (∀ (network : String) (log : List (Raft.PolicyCommand × Nat)) (k : Nat),
        Publishable prim crypto signer (Raft.PolicyState.after prim network log k).asStore) ∧
      ∀ (network : String) (s : Store), Store.Held prim network s →
        Publishable prim crypto signer s.snapshot :=
  ⟨fun network log k =>
    publishable_of_admissible crypto signer (Raft.admissible_after network log k),
    fun _ _ hs => publishable_of_admissible crypto signer (Store.clean_of_held hs).memory⟩

/-- The store that a merge has left when it stopped at an invalid member. -/
theorem reachable_policies_publishable_after_error :
    let out := Store.emptyStore.exec samplePrimitives Store.saves (.mergeSnapshot Store.halfValid)
    out.2 = .error (.invalidPeer "nobody") ∧ out.1.services ≠ ∅ ∧
      Publishable samplePrimitives sampleCrypto ⟨[], "myorg"⟩ out.1.snapshot := by
  intro out
  have hcreated : Store.loadOrCreate samplePrimitives Store.saves .missing "myorg" ∅ =
      .ok Store.emptyStore := rfl
  have hheld : Store.Held samplePrimitives "myorg" out.1 :=
    .called Store.saves _ (.created hcreated) (by decide +kernel)
  exact ⟨by decide +kernel, by decide +kernel,
    (reachable_policies_publishable samplePrimitives sampleCrypto ⟨[], "myorg"⟩).2 _ _ hheld⟩

end NexusAuth
