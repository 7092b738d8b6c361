import NexusAuth.Store.Proofs.IndexVersion

/-!
# Merging a snapshot entry by entry

`merge_snapshot` merges the services of a snapshot in name order and then its tombstones,
each with the snapshot's index version, and stops at the first entry it cannot validate.
Every entry moves its register and the index version up or leaves them, so nothing is ever
moved back: the flag a merge returns is exact in every store, and a refused snapshot leaves
the store alone exactly as long as no entry before the refused one has moved anything.
-/

namespace NexusAuth

open Std (ExtTreeMap)
open NexusAuth.Authority NexusAuth.Lib NexusAuth.Lib.OrderedMap NexusAuth.Lib.Words

namespace Store

variable {prim : Primitives} {io : SaveIo} {s t : Store}

/-! ## Nothing moves back -/

theorem climbs_raiseIndex (version : Nat) :
    s.snapshot.Climbs prim (s.raiseIndex version).snapshot :=
  ⟨fun _ => le_rfl, le_max_left _ _⟩

/-- One merge moves nothing down, and what it reports as a change cannot be undone by
moving up. -/
theorem climbs_of_mergeEntry {u : Update} {flag : Bool} (h : s.mergeEntry prim u = .ok (t, flag)) :
    s.snapshot.Climbs prim t.snapshot ∧
      (flag = true → ¬t.snapshot.Climbs prim s.snapshot) := by
  obtain ⟨hu, -⟩ := mergeEntry_cases h
  by_cases hacc : s.Accepts prim u
  · rw [mergeEntry_of_mergeService (mergeService_of_accepts hu hacc)] at h
    obtain ⟨rfl, -⟩ := Prod.mk.inj (Except.ok.inj h)
    have hlt := rank_lt_of_accepts hacc
    have hself : ((s.place u.service u.entry).raiseIndex u.indexVersion).entry u.service =
        u.entry := entry_place_self update_entry_ne_absent
    constructor
    · apply climbs_of_update u.service
      · exact fun name hne => entry_place_of_ne hne
      · change _ ≤ (((s.place u.service u.entry).raiseIndex u.indexVersion).entry
          u.service).rank prim
        rw [hself]
        exact hlt.le
      · change s.indexVersion ≤ max (s.place u.service u.entry).indexVersion u.indexVersion
        rw [place_indexVersion]
        exact le_max_left _ _
    · rintro - hback
      have hle := hback.rank u.service
      change (((s.place u.service u.entry).raiseIndex u.indexVersion).entry u.service).rank prim ≤
        (s.entry u.service).rank prim at hle
      rw [hself] at hle
      exact absurd hlt (not_lt.mpr hle)
  · rw [mergeEntry_of_mergeService (mergeService_of_not_accepts hu hacc)] at h
    obtain ⟨rfl, rfl⟩ := Prod.mk.inj (Except.ok.inj h)
    refine ⟨climbs_raiseIndex _, ?_⟩
    simp only [Bool.false_or, decide_eq_true_eq]
    intro hraised hback
    have hle : max s.indexVersion u.indexVersion ≤ s.indexVersion := hback.indexVersion
    omega

/-- A merge moves nothing down, also when it stops at an error. -/
theorem climbs_of_mergeEntries {us : List Update} {changed : Bool}
    {result : Except StoreError Bool} (h : mergeEntries prim s changed us = (t, result)) :
    s.snapshot.Climbs prim t.snapshot := by
  induction us generalizing s changed with
  | nil =>
      obtain rfl := congrArg Prod.fst h
      exact .refl _
  | cons u us ih =>
      rw [mergeEntries] at h
      split at h
      · obtain rfl := congrArg Prod.fst h
        exact .refl _
      · rename_i w flag hmerge
        exact (climbs_of_mergeEntry hmerge).1.trans (ih h)

theorem moved_of_mergeEntries {us : List Update}
    (h : mergeEntries prim s false us = (t, .ok true)) : t.snapshot ≠ s.snapshot := by
  suffices ¬t.snapshot.Climbs prim s.snapshot from fun heq => this (heq ▸ .refl _)
  induction us generalizing s with
  | nil => simp [mergeEntries] at h
  | cons u us ih =>
      rw [mergeEntries] at h
      split at h
      · simp at h
      · rename_i w flag hmerge
        cases flag with
        | false =>
            obtain rfl := eq_of_mergeEntry_false hmerge
            exact ih h
        | true =>
            -- a later entry cannot take the change back
            have hrest := climbs_of_mergeEntries h
            exact fun hback => (climbs_of_mergeEntry hmerge).2 rfl (hrest.trans hback)

/-! ## Refused snapshots -/

theorem snapshot_eq_iff_not_news {us : List Update} {flag : Bool}
    (hus : ∀ u ∈ us, u.Valid prim) (h : mergeEntries prim s false us = (t, .ok flag)) :
    t.snapshot = s.snapshot ↔ ∀ u ∈ us, ¬s.News prim u := by
  constructor
  · intro hsame
    cases flag with
    | false => exact not_news_of_mergeEntries h
    | true => exact absurd hsame (moved_of_mergeEntries h)
  · intro hold
    rw [mergeEntries_of_not_news false hus hold] at h
    rw [(Prod.mk.inj h).1]

/-- A snapshot with an invalid service name or member is refused, and nothing is written.
The services, tombstones and index version are then those from before exactly when the
entries before the first invalid one bring the store nothing. -/
theorem refused_snapshot_changes_nothing (prim : Primitives) (io : SaveIo) (s : Store)
    (snap : StoreSnapshot) (hbad : ∃ u ∈ snap.updates, ¬u.Valid prim) :
    ∃ t e, s.mergeSnapshot prim io snap = (t, .error e) ∧ t.file = s.file ∧
      (t.snapshot = s.snapshot ↔
        ∀ u ∈ snap.accepted prim, ¬s.Accepts prim u ∧ u.indexVersion ≤ s.indexVersion) := by
  obtain ⟨t, flag, e, haccepted, hrefused⟩ := mergeEntries_of_refused s hbad
  refine ⟨t, e, by rw [mergeSnapshot, hrefused], (fields_of_mergeEntries haccepted).1, ?_⟩
  rw [snapshot_eq_iff_not_news (fun u hu => valid_of_mem_accepted hu) haccepted]
  simp only [News, not_or, not_lt]

/-- The entry before the invalid one is what the store already has. -/
theorem refused_snapshot_changes_nothing_known_service :
    let s := after [.createService "api" [peerA], .applyReplicated (webUpdate 7)]
    (s.mergeSnapshot samplePrimitives saves halfValid).1.snapshot = s.snapshot := by
  intro s
  obtain ⟨t, e, hmerge, -, hsame⟩ :=
    refused_snapshot_changes_nothing samplePrimitives saves s halfValid (by decide +kernel)
  rw [hmerge]
  exact hsame.mpr (by decide +kernel)

/-- The first service of the refused snapshot stays in the memory of a store that did not
have it, and a restart does not find it. -/
theorem refused_snapshot_keeps_first_entry :
    let out := emptyStore.mergeSnapshot samplePrimitives saves halfValid
    out.2 = .error (.invalidPeer "nobody") ∧
      emptyStore.services["api"]? = none ∧
      out.1.services["api"]? = some ⟨1, collectPeers [peerA]⟩ ∧
      out.1.indexVersion = 5 ∧
      out.1.file = some emptyStore.snapshot := by
  decide +kernel

/-! ## The index version and the flag -/

theorem indexVersion_le_of_mergeEntries {us : List Update} {changed flag : Bool} {v : Nat}
    (hs : s.indexVersion ≤ v) (hus : ∀ u ∈ us, u.indexVersion ≤ v)
    (h : mergeEntries prim s changed us = (t, .ok flag)) : t.indexVersion ≤ v := by
  induction us generalizing s changed with
  | nil =>
      obtain rfl := congrArg Prod.fst h
      exact hs
  | cons u us ih =>
      rw [mergeEntries] at h
      split at h
      · simp at h
      · rename_i w entryChanged hmerge
        obtain ⟨hu, hrest⟩ := List.forall_mem_cons.mp hus
        have hindex := indexVersion_of_mergeEntry hmerge
        exact ih (by omega) hrest h

theorem updates_eq_nil_iff {snap : StoreSnapshot} :
    snap.updates = [] ↔ snap.services = ∅ ∧ snap.tombstones = ∅ := by
  simp only [StoreSnapshot.updates, List.append_eq_nil_iff, List.map_eq_nil_iff,
    ExtTreeMap.toList_eq_nil_iff]

/-- The index version after a merge: a snapshot without entries does not bring its own. -/
theorem indexVersion_of_updates {snap : StoreSnapshot} {flag : Bool}
    (h : mergeEntries prim s false snap.updates = (t, .ok flag)) :
    t.indexVersion =
      if snap.updates = [] then s.indexVersion else max s.indexVersion snap.indexVersion := by
  split
  · rename_i hempty
    rw [hempty, mergeEntries] at h
    rw [(Prod.mk.inj h).1]
  · rename_i hentries
    obtain ⟨u, hu⟩ := List.exists_mem_of_ne_nil _ hentries
    obtain ⟨hle, hall⟩ := indexVersion_of_mergeEntries h
    have hupper : t.indexVersion ≤ max s.indexVersion snap.indexVersion :=
      indexVersion_le_of_mergeEntries (le_max_left _ _)
        (fun u hu => (indexVersion_of_mem_updates hu).trans_le (le_max_right _ _)) h
    have hlower := hall u hu
    rw [indexVersion_of_mem_updates hu] at hlower
    omega

/-- A merge that succeeds ends with the larger of the two index versions exactly when the
snapshot has a service or a tombstone or is not ahead of the store; and it reports a change
exactly when there is one. -/
theorem mergeSnapshot_takes_maximum (prim : Primitives) (io : SaveIo) (s : Store)
    (snap : StoreSnapshot) {t : Store} {flag : Bool}
    (h : s.mergeSnapshot prim io snap = (t, .ok flag)) :
    (t.indexVersion = max s.indexVersion snap.indexVersion ↔
        snap.services ≠ ∅ ∨ snap.tombstones ≠ ∅ ∨ snap.indexVersion ≤ s.indexVersion) ∧
      (flag = true ↔ t.services ≠ s.services ∨ t.tombstones ≠ s.tombstones ∨
        t.indexVersion ≠ s.indexVersion) := by
  obtain ⟨w, hmerge, hsnapshot⟩ := mergeEntries_of_mergeSnapshot h
  have hindex : t.indexVersion = w.indexVersion :=
    congrArg StoreSnapshot.indexVersion hsnapshot.symm
  constructor
  · rw [hindex, indexVersion_of_updates hmerge, ← or_assoc, ← not_and_or, ← updates_eq_nil_iff]
    split
    · rename_i hempty
      rw [eq_comm, max_eq_left_iff, or_iff_right (not_not_intro hempty)]
    · rename_i hentries
      exact iff_of_true rfl (.inl hentries)
  · cases flag with
    | true =>
        have hmoved := moved_of_mergeEntries hmerge
        rw [hsnapshot] at hmoved
        simp only [true_iff]
        by_contra hsame
        simp only [not_or, not_not] at hsame
        apply hmoved
        have hnetwork : t.network = s.network :=
          (congrArg StoreSnapshot.network hsnapshot.symm).trans (fields_of_mergeEntries hmerge).2
        rw [snapshot, snapshot, StoreSnapshot.mk.injEq]
        exact ⟨hnetwork, hsame.2.2, hsame.1, hsame.2.1⟩
    | false =>
        obtain ⟨rfl, -⟩ := eq_of_mergeEntries_false hmerge
        simp only [snapshot] at hsnapshot
        simp [← hsnapshot]

/-- A tombstone the store already has is ignored, and still brings its index version. -/
theorem mergeSnapshot_takes_maximum_ignored_tombstone :
    let s := after [.createService "api" [peerA], .deleteService "api"]
    let snap : StoreSnapshot :=
      ⟨"myorg", 9, ∅, (∅ : BTreeMap String Nat).insert "api" 1⟩
    let out := s.mergeSnapshot samplePrimitives saves snap
    out.2 = .ok true ∧ out.1.services = s.services ∧ out.1.tombstones = s.tombstones ∧
      out.1.indexVersion = max s.indexVersion 9 := by
  intro s snap out
  have hout : s.mergeSnapshot samplePrimitives saves snap = (out.1, .ok true) := by
    decide +kernel
  have hsnap : snap.tombstones ≠ ∅ := by decide +kernel
  have hmax := (mergeSnapshot_takes_maximum samplePrimitives saves s snap hout).1.mpr
    (.inr (.inl hsnap))
  exact ⟨congrArg Prod.snd hout, by decide +kernel, by decide +kernel, hmax⟩

/-- A snapshot without services and tombstones does not bring its index version: the one of
a sidecar that has only renewed its empty index. -/
theorem empty_snapshot_keeps_index_version :
    let ahead := after [.bumpIndexVersion, .bumpIndexVersion]
    let out := emptyStore.mergeSnapshot samplePrimitives saves ahead.snapshot
    ahead.indexVersion = 3 ∧ emptyStore.indexVersion = 1 ∧
      out.2 = .ok false ∧ out.1.indexVersion = 1 := by
  decide +kernel

end Store

end NexusAuth
