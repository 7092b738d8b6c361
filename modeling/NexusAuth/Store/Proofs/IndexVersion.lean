import NexusAuth.Store.Proofs.AntiEntropy
import NexusAuth.Store.Proofs.Durability

/-!
# The index version as a name of the published services

In legacy mode the publisher signs the services under the store's index version.  A local
change raises it; a merge takes the maximum of its own and the received one.  The index
version therefore never falls, and it names one set of services as long as every merge
that changes the services brings a higher index version with it.
-/

namespace NexusAuth.Store

open Std (ExtTreeMap)
open NexusAuth.Authority NexusAuth.Lib NexusAuth.Lib.OrderedMap NexusAuth.Lib.Words

variable {prim : Primitives} {s t : Store}

/-- The entry is taken and bears on the services: it is not the tombstone of a service that
the store does not have. -/
def Touches (prim : Primitives) (s : Store) (u : Update) : Prop :=
  s.Accepts prim u ∧ (u.deleted = true → s.services.contains u.service = true)

instance decidableTouches (prim : Primitives) (s : Store) (u : Update) :
    Decidable (s.Touches prim u) :=
  inferInstanceAs (Decidable (s.Accepts prim u ∧
    (u.deleted = true → s.services.contains u.service = true)))

/-- A merge with an entry that changes the services carries an index version above the
store's. -/
def Announced (prim : Primitives) (s : Store) : Op → Prop
  | .applyReplicated u => s.Touches prim u → s.indexVersion < u.indexVersion
  | .mergeSnapshot snap =>
      (∃ u ∈ snap.updates, s.Touches prim u) → s.indexVersion < snap.indexVersion
  | _ => True

instance decidableAnnounced (prim : Primitives) (s : Store) : (op : Op) →
    Decidable (Announced prim s op)
  | .applyReplicated u =>
      inferInstanceAs (Decidable (s.Touches prim u → s.indexVersion < u.indexVersion))
  | .mergeSnapshot snap =>
      inferInstanceAs (Decidable ((∃ u ∈ snap.updates, s.Touches prim u) →
        s.indexVersion < snap.indexVersion))
  | .createService _ _ | .deleteService _ | .addMembers _ _ | .removeMembers _ _
  | .setMembers _ _ | .bumpIndexVersion => inferInstanceAs (Decidable True)

/-! ## Entries that leave the services alone -/

structure Buries (s t : Store) : Prop where
  services : t.services = s.services
  tombstones : ∀ name : String, s.tombstones[name]?.getD 0 ≤ t.tombstones[name]?.getD 0

theorem Buries.trans {w : Store} (hsw : s.Buries w) (hwt : w.Buries t) : s.Buries t :=
  ⟨hwt.services.trans hsw.services, fun name => (hsw.tombstones name).trans (hwt.tombstones name)⟩

/-- Newer tombstones only make the store take less. -/
theorem Buries.touches {u : Update} (h : s.Buries t) (ht : t.Touches prim u) :
    s.Touches prim u := by
  obtain ⟨hacc, hlive⟩ := ht
  have hle := h.tombstones u.service
  rw [h.services] at hlive
  refine ⟨?_, hlive⟩
  simp only [Accepts, h.services] at hacc ⊢
  by_cases hdeleted : u.deleted = true
  · rw [if_pos hdeleted] at hacc ⊢
    exact ⟨hacc.1, hle.trans hacc.2.1, .inl (hlive hdeleted)⟩
  · rw [if_neg hdeleted] at hacc ⊢
    exact ⟨hle.trans_lt hacc.1, hacc.2⟩

theorem buries_place {u : Update} (hacc : s.Accepts prim u) (h : ¬s.Touches prim u) :
    s.Buries (s.place u.service u.entry) := by
  have hdeleted : u.deleted = true ∧ ¬s.services.contains u.service = true := by
    by_contra hlive
    exact h ⟨hacc, by tauto⟩
  have hentry : u.entry = .tombstone u.version := by rw [Update.entry, if_pos hdeleted.1]
  rw [hentry]
  rw [Accepts, if_pos hdeleted.1] at hacc
  constructor
  · refine ExtTreeMap.ext_getElem? fun name => ?_
    simp only [place, ExtTreeMap.getElem?_erase]
    split
    · rename_i hname
      obtain rfl := compare_eq_iff_eq.mp hname
      have hnone := hdeleted.2
      rw [ExtTreeMap.contains_eq_isSome_getElem?] at hnone
      simpa using hnone
    · rfl
  · intro name
    simp only [place, ExtTreeMap.getElem?_insert]
    split
    · rename_i hname
      obtain rfl := compare_eq_iff_eq.mp hname
      exact hacc.2.1
    · exact le_rfl

theorem buries_of_mergeEntry {u : Update} {flag : Bool} (h : s.mergeEntry prim u = .ok (t, flag))
    (hu : ¬s.Touches prim u) : s.Buries t := by
  obtain ⟨-, rfl | ⟨hacc, rfl⟩⟩ := mergeEntry_cases h
  · exact ⟨rfl, fun _ => le_rfl⟩
  · have hplace := buries_place hacc hu
    exact ⟨hplace.services, hplace.tombstones⟩

theorem buries_of_mergeEntries {us : List Update} {changed flag : Bool}
    (h : mergeEntries prim s changed us = (t, .ok flag)) (hus : ∀ u ∈ us, ¬s.Touches prim u) :
    s.Buries t := by
  induction us generalizing s changed with
  | nil =>
      obtain rfl := congrArg Prod.fst h
      exact ⟨rfl, fun _ => le_rfl⟩
  | cons u us ih =>
      rw [mergeEntries] at h
      split at h
      · simp at h
      · rename_i w entryChanged hmerge
        obtain ⟨hu, hrest⟩ := List.forall_mem_cons.mp hus
        have hw := buries_of_mergeEntry hmerge hu
        exact hw.trans (ih h fun v hv htouches => hrest v hv (hw.touches htouches))

/-! ## One call -/

theorem indexVersion_of_mergeEntry {u : Update} {flag : Bool}
    (h : s.mergeEntry prim u = .ok (t, flag)) :
    t.indexVersion = max s.indexVersion u.indexVersion := by
  obtain ⟨-, rfl | ⟨-, rfl⟩⟩ := mergeEntry_cases h
  · rfl
  · cases u.entry <;> rfl

theorem indexVersion_of_mergeEntries {us : List Update} {changed flag : Bool}
    (h : mergeEntries prim s changed us = (t, .ok flag)) :
    s.indexVersion ≤ t.indexVersion ∧ ∀ u ∈ us, u.indexVersion ≤ t.indexVersion := by
  induction us generalizing s changed with
  | nil =>
      obtain rfl := congrArg Prod.fst h
      exact ⟨le_rfl, by simp⟩
  | cons u us ih =>
      rw [mergeEntries] at h
      split at h
      · simp at h
      · rename_i w entryChanged hmerge
        obtain ⟨hle, hall⟩ := ih h
        have hindex := indexVersion_of_mergeEntry hmerge
        exact ⟨by omega, List.forall_mem_cons.mpr ⟨by omega, hall⟩⟩

/-- The index version does not fall, and if the call was announced it rises or the
services stay. -/
def Follows (s : Store) (announced : Prop) (snap : StoreSnapshot) : Prop :=
  s.indexVersion ≤ snap.indexVersion ∧
    (announced → s.indexVersion = snap.indexVersion → s.services = snap.services)

theorem follows_of_mergeEntries {us : List Update} {v : Nat} {changed flag : Bool}
    (hindex : ∀ u ∈ us, u.indexVersion = v)
    (h : mergeEntries prim s changed us = (t, .ok flag)) :
    Follows s ((∃ u ∈ us, s.Touches prim u) → s.indexVersion < v) t.snapshot := by
  obtain ⟨hle, hall⟩ := indexVersion_of_mergeEntries h
  refine ⟨hle, fun hannounced heq => ?_⟩
  by_cases htouched : ∃ u ∈ us, s.Touches prim u
  · -- the announced index version has arrived with the entry
    have hlt := hannounced htouched
    obtain ⟨u, hu, -⟩ := htouched
    have hraised := hall u hu
    rw [hindex u hu] at hraised
    simp only [snapshot] at heq
    omega
  · exact (buries_of_mergeEntries h fun u hu htouches => htouched ⟨u, hu, htouches⟩).services.symm

theorem follows_of_next {op : Op} {snap : StoreSnapshot} (hb : s.Bounded)
    (h : Next prim s op snap) : Follows s (Announced prim s op) snap := by
  cases h with
  | raised hnetwork hindex =>
      have hlt : s.indexVersion < snap.indexVersion := by
        rw [hindex, succ64_of_lt hb.indexVersion]
        exact Nat.lt_succ_self _
      exact ⟨hlt.le, fun _ heq => absurd heq hlt.ne⟩
  | @replicated u t hmerge =>
      have hfollows := follows_of_mergeEntries (v := u.indexVersion) (by simp) hmerge
      exact ⟨hfollows.1, fun hannounced => hfollows.2 (by simpa [Announced] using hannounced)⟩
  | synced hmerge =>
      exact follows_of_mergeEntries (fun u hu => indexVersion_of_mem_updates hu) hmerge

theorem follows_of_exec {io : SaveIo} {op : Op} {reply : Reply} (hb : s.Bounded)
    (h : s.exec prim io op = (t, .ok reply)) : Follows s (Announced prim s op) t.snapshot := by
  have hends := ends_exec prim io s op
  rw [h] at hends
  cases hends with
  | untouched => exact ⟨le_rfl, fun _ _ => rfl⟩
  | saved hnext hio => exact follows_of_next hb hnext
  | swallowed hnext hio => exact follows_of_next hb hnext

/-! ## Whole runs -/

theorem bounded_of_steps {allowed : Store → Op → Prop} (hb : s.Bounded)
    (h : Relation.ReflTransGen (Step prim allowed) s t) : t.Bounded := by
  cases h with
  | refl => exact hb
  | tail _ hstep =>
      obtain ⟨io, op, reply, -, -, hbounded⟩ := hstep
      exact hbounded

theorem indexVersion_le_of_steps {allowed : Store → Op → Prop} (hb : s.Bounded)
    (h : Relation.ReflTransGen (Step prim allowed) s t) : s.indexVersion ≤ t.indexVersion := by
  induction h with
  | refl => exact le_rfl
  | tail hrun hstep ih =>
      obtain ⟨io, op, reply, -, hexec, -⟩ := hstep
      exact ih.trans (follows_of_exec (bounded_of_steps hb hrun) hexec).1

theorem services_of_steps (hb : s.Bounded)
    (h : Relation.ReflTransGen (Step prim (Announced prim)) s t)
    (heq : s.indexVersion = t.indexVersion) : s.services = t.services := by
  induction h with
  | refl => rfl
  | tail hrun hstep ih =>
      obtain ⟨io, op, reply, hannounced, hexec, -⟩ := hstep
      have hfollows := follows_of_exec (bounded_of_steps hb hrun) hexec
      -- the index version cannot have moved in between
      have hle := indexVersion_le_of_steps hb hrun
      have hmid := hfollows.1
      simp only [snapshot] at hmid
      rw [ih (by omega)]
      exact hfollows.2 hannounced (by simp only [snapshot]; omega)

/-- In every run of a store, wherever it starts, the index version never decreases.  Any
two of its states with one index version have the same services, if every merge in between
with an entry that touches the services carried an index version above the store's. -/
theorem index_version_names_services (prim : Primitives) {start s : Store} (hb : start.Bounded)
    (hs : Relation.ReflTransGen (Step prim fun _ _ => True) start s) :
    (∀ t, Relation.ReflTransGen (Step prim fun _ _ => True) s t →
        s.indexVersion ≤ t.indexVersion) ∧
      ∀ t, Relation.ReflTransGen (Step prim (Announced prim)) s t →
        s.indexVersion = t.indexVersion → s.services = t.services := by
  have hbs := bounded_of_steps hb hs
  exact ⟨fun t ht => indexVersion_le_of_steps hbs ht,
    fun t ht heq => services_of_steps hbs ht heq⟩

def webUpdate (indexVersion : Nat) : Update := ⟨"web", 1, [peerB], indexVersion, false⟩

/-- The announced update is taken; an older copy of it that arrives later is not. -/
theorem index_version_names_services_after_update :
    let s := after [.createService "api" [peerA], .applyReplicated (webUpdate 7)]
    let t := after [.createService "api" [peerA], .applyReplicated (webUpdate 7),
      .applyReplicated (webUpdate 3)]
    s.indexVersion = 7 ∧ t.indexVersion = 7 ∧ s.services = t.services := by
  intro s t
  have hstart : runAll samplePrimitives saves (fun _ _ => True) emptyStore
      [.createService "api" [peerA], .applyReplicated (webUpdate 7)] = some s := by
    decide +kernel
  have hannounced : runAll samplePrimitives saves (Announced samplePrimitives) s
      [.applyReplicated (webUpdate 3)] = some t := by
    decide +kernel
  have hs : s.indexVersion = 7 := by decide +kernel
  have ht : t.indexVersion = 7 := by decide +kernel
  have hnames := index_version_names_services samplePrimitives (by decide +kernel)
    (steps_of_runAll hstart)
  exact ⟨hs, ht, hnames.2 t (steps_of_runAll hannounced) (hs.trans ht.symm)⟩

/-- An update with an index version that the store has already reached changes the
services and not the index version. -/
theorem replicated_update_keeps_index_version :
    let s := after [.createService "api" [peerA]]
    let t := after [.createService "api" [peerA], .applyReplicated (webUpdate 2)]
    loadOrCreate samplePrimitives saves .missing "myorg" ∅ = .ok emptyStore ∧
      Relation.ReflTransGen (Step samplePrimitives fun _ _ => True) emptyStore s ∧
      Relation.ReflTransGen (Step samplePrimitives fun _ _ => True) s t ∧
      s.indexVersion = t.indexVersion ∧ s.services ≠ t.services := by
  intro s t
  have hstart : runAll samplePrimitives saves (fun _ _ => True) emptyStore
      [.createService "api" [peerA]] = some s := by
    decide +kernel
  have hnext : runAll samplePrimitives saves (fun _ _ => True) s
      [.applyReplicated (webUpdate 2)] = some t := by
    decide +kernel
  exact ⟨rfl, steps_of_runAll hstart, steps_of_runAll hnext, by decide +kernel, by decide +kernel⟩

end NexusAuth.Store
