import NexusAuth.Store.Proofs.Registers
import NexusAuth.Lib.Runs

/-!
# Replicated updates commute

`handle_replicate` applies the changes other sidecars broadcast, in whatever
order and as often as the network delivers them.  The result depends only on
which updates arrived: each register ends with the highest ranked of them.
-/

namespace NexusAuth.Store

open NexusAuth.Authority NexusAuth.Lib NexusAuth.Lib.OrderedMap

variable {prim : Primitives} {io : SaveIo} {s : Store} {u : Update}

/-! ## Saving -/

theorem save_of_ok (hio : io s.snapshot = none) :
    s.save io = ({ s with file := some s.snapshot }, .ok ()) := by
  simp [save, hio]

@[simp] theorem snapshot_save : (s.save io).1.snapshot = s.snapshot := by
  unfold save
  split <;> rfl

@[simp] theorem snapshot_saveThen {α : Type} {value : α} :
    (s.saveThen io value).1.snapshot = s.snapshot := by
  cases hio : io s.snapshot with
  | none => simp only [saveThen, save, hio]; rfl
  | some e => simp only [saveThen, save, hio]

theorem snapshot_saveIf {changed : Bool} :
    (if changed then s.saveThen io changed else (s, .ok changed)).1.snapshot = s.snapshot := by
  split
  · exact snapshot_saveThen
  · rfl

theorem snapshot_applyReplicated {u : Update} :
    (s.applyReplicated prim io u).1.snapshot = (mergeEntries prim s false [u]).1.snapshot := by
  simp only [applyReplicated, mergeEntries]
  split
  · rfl
  · exact snapshot_saveIf

theorem snapshot_mergeSnapshot {snap : StoreSnapshot} :
    (s.mergeSnapshot prim io snap).1.snapshot =
      (mergeEntries prim s false snap.updates).1.snapshot := by
  unfold mergeSnapshot
  split
  · rename_i hmerge
    rw [hmerge]
  · rename_i hmerge
    rw [hmerge, snapshot_saveIf]

theorem saveThen_of_ok {α : Type} {value : α} (hio : io s.snapshot = none) :
    s.saveThen io value = ({ s with file := some s.snapshot }, .ok value) := by
  simp [saveThen, save_of_ok hio]

def saves : SaveIo := fun _ => none

/-- The store of a sidecar of `myorg` that starts without a state file and without
configured services. -/
def emptyStore : Store :=
  { network := "myorg", indexVersion := 1, services := ∅, tombstones := ∅,
    file := some { network := "myorg", indexVersion := 1, services := ∅, tombstones := ∅ } }

/-! ## One update -/

theorem Merged.of_snapshot_eq {t t' : Store} {us : List Update} (h : Merged prim s us t)
    (heq : t'.snapshot = t.snapshot) : Merged prim s us t' := by
  simp only [snapshot] at heq
  exact ⟨heq ▸ h.separated, heq ▸ h.entry, heq ▸ h.indexVersion, heq ▸ h.network⟩

theorem applyReplicated_spec (hio : ∀ snap, io snap = none) (hs : s.Separated)
    (hu : u.Valid prim) :
    ∃ t, s.applyReplicated prim io u = (t, .ok (decide (t.snapshot ≠ s.snapshot))) ∧
      Merged prim s [u] t := by
  obtain ⟨t, ht, hmerged⟩ := mergeEntry_spec hs hu
  by_cases hne : t.snapshot = s.snapshot
  · refine ⟨t, ?_, hmerged⟩
    simp [applyReplicated, ht, hne]
  · refine ⟨{ t with file := some t.snapshot }, ?_, hmerged.of_snapshot_eq rfl⟩
    have hne' : ({ t with file := some t.snapshot } : Store).snapshot ≠ s.snapshot := hne
    simp [applyReplicated, ht, hne, hne', saveThen_of_ok (hio _)]

/-! ## Sequences of updates -/

def replicate (prim : Primitives) (io : SaveIo) (s : Store) (u : Update) : Store :=
  (s.applyReplicated prim io u).1

abbrev replicated (prim : Primitives) (io : SaveIo) (s : Store) (us : List Update) (k : Nat) :
    Store :=
  Runs.stateAt (replicate prim io) s us k

theorem merged_replicated {us : List Update} (hio : ∀ snap, io snap = none) (hs : s.Separated)
    (hus : ∀ u ∈ us, u.Valid prim) (k : Nat) :
    Merged prim s (us.take k) (replicated prim io s us k) := by
  induction k with
  | zero => simpa using Merged.refl hs
  | succ k ih =>
      by_cases hk : k < us.length
      · obtain ⟨t, ht, hmerged⟩ := applyReplicated_spec hio ih.separated
          (hus us[k] (List.getElem_mem hk))
        have hstep : replicated prim io s us (k + 1) = t := by
          rw [replicated, Runs.stateAt_succ hk, replicate, ht]
        have htake : us.take (k + 1) = us.take k ++ [us[k]] := by
          rw [List.take_add_one, List.getElem?_eq_getElem hk]
          rfl
        rw [hstep, htake]
        exact ih.trans hmerged
      · have hlen : us.length ≤ k := not_lt.mp hk
        have hstay : replicated prim io s us (k + 1) = replicated prim io s us k := by
          rw [replicated, replicated, Runs.stateAt_eq_of_length_le (hlen.trans (Nat.le_succ k)),
            Runs.stateAt_eq_of_length_le hlen]
        rw [hstay, List.take_of_length_le (hlen.trans (Nat.le_succ k))]
        rwa [List.take_of_length_le hlen] at ih

/-- Each register ends with the join of its own updates. -/
theorem entry_of_merged {t : Store} {us : List Update} (h : Merged prim s us t) (name : String) :
    t.entry name =
      Lww.joinAll (Entry.rank prim) (s.entry name) (Lww.offers (us.map offer) name) := by
  rw [h.entry, Lww.foldl_put]

theorem mem_offers_offer {us : List Update} {name : String} {e : Entry} :
    e ∈ Lww.offers (us.map offer) name ↔ ∃ u ∈ us, u.service = name ∧ u.entry = e := by
  simp [Lww.mem_offers, offer]

theorem indexVersion_of_merged {t : Store} {us : List Update} (h : Merged prim s us t) :
    t.indexVersion = Lww.joinAll id s.indexVersion (us.map Update.indexVersion) := by
  have hmax : ∀ v w : Nat, Lww.join id v w = max v w := by
    intro v w
    unfold Lww.join
    simp only [id_eq]
    split <;> omega
  rw [h.indexVersion, Lww.joinAll, List.foldl_map]
  simp only [hmax]

theorem injOn_rank_offers {us : List Update} (name : String)
    (hinj : Set.InjOn (membersHash prim) {m | ∃ u ∈ us, m = collectPeers u.members}) :
    Set.InjOn (Entry.rank prim) {e | e ∈ Lww.offers (us.map offer) name} := by
  intro a ha b hb hrank
  obtain ⟨u, hu, -, rfl⟩ := mem_offers_offer.mp ha
  obtain ⟨w, hw, -, rfl⟩ := mem_offers_offer.mp hb
  refine entry_eq_of_rank_eq ?_ (fun v _ h => absurd h update_entry_ne_absent)
    (fun v _ h => absurd h update_entry_ne_absent) hrank
  intro v m v' m' hm hm' hhash
  have hmem : m = collectPeers u.members := by
    unfold Update.entry at hm
    split at hm <;> simp_all
  have hmem' : m' = collectPeers w.members := by
    unfold Update.entry at hm'
    split at hm' <;> simp_all
  exact hinj ⟨u, hu, hmem⟩ ⟨w, hw, hmem'⟩ hhash

/-- `e` is the highest ranked of what the store had for `name` and what `us` offers. -/
def IsMaximum (prim : Primitives) (s : Store) (us : List Update) (name : String) (e : Entry) :
    Prop :=
  (e = s.entry name ∨ ∃ u ∈ us, u.service = name ∧ u.entry = e) ∧
    (s.entry name).rank prim ≤ e.rank prim ∧
    ∀ u ∈ us, u.service = name → u.entry.rank prim ≤ e.rank prim

theorem isMaximum_of_merged {t : Store} {us : List Update} (h : Merged prim s us t)
    (name : String) : IsMaximum prim s us name (t.entry name) := by
  rw [entry_of_merged h name]
  refine ⟨?_, Lww.le_rank_joinAll _ _ _, fun u hu hname => ?_⟩
  · rcases Lww.joinAll_eq_or_mem (Entry.rank prim) (s.entry name)
      (Lww.offers (us.map offer) name) with heq | hmem
    · exact Or.inl heq
    · exact Or.inr (mem_offers_offer.mp hmem)
  · exact Lww.rank_le_joinAll_of_mem (mem_offers_offer.mpr ⟨u, hu, hname, rfl⟩)

/-- Replication is insensitive to order and duplication.  `us` and `us'` are two
deliveries of the same updates. -/
theorem applyReplicated_order_insensitive {us us' : List Update}
    (hio : ∀ snap, io snap = none) (hs : s.Separated) (hus : ∀ u ∈ us, u.Valid prim)
    (hsame : ∀ u, u ∈ us' ↔ u ∈ us)
    (hinj : Set.InjOn (membersHash prim) {m | ∃ u ∈ us, m = collectPeers u.members}) :
    let final := replicated prim io s us us.length
    let final' := replicated prim io s us' us'.length
    (final'.services = final.services ∧ final'.tombstones = final.tombstones ∧
        final'.indexVersion = final.indexVersion) ∧
      (∀ name, IsMaximum prim s us name (final.entry name)) ∧
      final.indexVersion = us.foldl (fun v u => max v u.indexVersion) s.indexVersion ∧
      (∀ k, (replicated prim io s us k).Separated) ∧
      ∀ k (hk : k < us.length),
        ((replicated prim io s us k).applyReplicated prim io us[k]).2 =
          .ok (decide ((replicated prim io s us (k + 1)).snapshot ≠
            (replicated prim io s us k).snapshot)) := by
  intro final final'
  have hus' : ∀ u ∈ us', u.Valid prim := fun u hu => hus u ((hsame u).mp hu)
  have hfinal : Merged prim s us final := by
    simpa using merged_replicated hio hs hus us.length
  have hfinal' : Merged prim s us' final' := by
    simpa using merged_replicated hio hs hus' us'.length
  have hentry : ∀ name, final'.entry name = final.entry name := by
    intro name
    rw [entry_of_merged hfinal name, entry_of_merged hfinal' name]
    refine (Lww.joinAll_congr (injOn_rank_offers name hinj) fun e => ?_).symm
    rw [mem_offers_offer, mem_offers_offer]
    simp only [hsame]
  have hindex : final'.indexVersion = final.indexVersion := by
    rw [indexVersion_of_merged hfinal, indexVersion_of_merged hfinal']
    refine (Lww.joinAll_congr (Function.injective_id.injOn) fun v => ?_).symm
    simp only [List.mem_map, hsame]
  refine ⟨⟨services_eq_of_entry hentry,
    tombstones_eq_of_entry hfinal'.separated hfinal.separated hentry, hindex⟩,
    isMaximum_of_merged hfinal, hfinal.indexVersion,
    fun k => (merged_replicated hio hs hus k).separated, ?_⟩
  intro k hk
  obtain ⟨t, ht, -⟩ := applyReplicated_spec hio (merged_replicated hio hs hus k).separated
    (hus us[k] (List.getElem_mem hk))
  have hstep : replicated prim io s us (k + 1) = t := by
    rw [replicated, Runs.stateAt_succ hk, replicate, ht]
  rw [ht, hstep]

/-- A tie at version 2 and a deletion, delivered in two orders. -/
theorem applyReplicated_order_insensitive_on_tie :
    let us : List Update := [⟨"cmd", 2, [peerA], 2, false⟩, ⟨"cmd", 2, [peerB], 3, false⟩,
      ⟨"ocr", 1, [], 1, true⟩]
    let us' : List Update := [⟨"ocr", 1, [], 1, true⟩, ⟨"cmd", 2, [peerB], 3, false⟩,
      ⟨"cmd", 2, [peerA], 2, false⟩, ⟨"cmd", 2, [peerB], 3, false⟩]
    (replicated samplePrimitives saves emptyStore us' us'.length).services =
        (replicated samplePrimitives saves emptyStore us us.length).services ∧
      (replicated samplePrimitives saves emptyStore us us.length).entry "cmd" =
        .live 2 (collectPeers [peerA]) := by
  intro us us'
  have hempty : emptyStore.Separated := ⟨by simp [emptyStore], by simp [emptyStore]⟩
  have hvalid : ∀ u ∈ us, u.Valid samplePrimitives := by
    intro u hu
    simp only [us, List.mem_cons, List.not_mem_nil, or_false] at hu
    rcases hu with rfl | rfl | rfl <;> exact ⟨by decide +kernel, by decide +kernel⟩
  have hinj : ∀ u ∈ us, ∀ w ∈ us,
      membersHash samplePrimitives (collectPeers u.members) =
        membersHash samplePrimitives (collectPeers w.members) →
      collectPeers u.members = collectPeers w.members := by
    decide +kernel
  refine ⟨(applyReplicated_order_insensitive (fun _ => rfl) hempty hvalid ?_ ?_).1.1, ?_⟩
  · intro u
    simp only [us, us', List.mem_cons, List.not_mem_nil, or_false]
    tauto
  · rintro m ⟨u, hu, rfl⟩ n ⟨w, hw, rfl⟩ hhash
    exact hinj u hu w hw hhash
  · decide +kernel

end NexusAuth.Store
