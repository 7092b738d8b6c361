import NexusAuth.Store.Proofs.Changes

/-!
# Anti-entropy between sidecars

Every `renew_secs` a sidecar pulls the snapshots of its peers and merges them.
Two things are expected of that exchange: after it the two stores agree, and a
snapshot older than the store itself changes nothing.

Both hold as long as no deleted name is created again.  `create_service` gives
the new service version 1 and leaves the tombstone of the old one in place, so a
revived name is live and deleted at once, below its own tombstone.
-/

namespace NexusAuth.Store

open Std (ExtTreeMap ExtTreeSet)
open NexusAuth.Authority NexusAuth.Lib NexusAuth.Lib.OrderedMap NexusAuth.Lib.Words

variable {prim : Primitives} {network : String} {io : SaveIo} {s t : Store}

/-! ## Loading -/

theorem seedServices_spec {initial : List (String × List String)}
    {services seeded : BTreeMap String ServiceState} {Q : String → ServiceState → Prop}
    (hold : ∀ name state, services[name]? = some state → Q name state)
    (hnew : ∀ name members, isValidServiceName name = true →
      (∀ p ∈ members, isValidPeerId prim p = true) → Q name ⟨1, collectPeers members⟩)
    (h : seedServices prim services initial = .ok seeded) :
    ∀ name state, seeded[name]? = some state → Q name state := by
  induction initial generalizing services with
  | nil =>
      obtain rfl : services = seeded := by simpa [seedServices] using h
      exact hold
  | cons config initial ih =>
      obtain ⟨name, members⟩ := config
      simp only [seedServices] at h
      split at h
      · simp at h
      · rename_i hname
        split at h
        · simp at h
        · rename_i hpeers
          refine ih (fun _ _ => forall_insert hold ?_) h
          exact hnew name members (by simpa using hname) (validatePeers_eq_ok_iff.mp hpeers)

structure Sound (prim : Primitives) (s : Store) : Prop where
  admissible : s.Admissible prim
  separated : s.Separated
  bounded : s.Bounded

theorem sound_of_created {initial : BTreeMap String (List String)}
    (h : loadOrCreate prim io .missing network initial = .ok s) : Sound prim s := by
  simp only [loadOrCreate] at h
  split at h
  · simp at h
  · rename_i services hseed
    have hservices : ∀ name state, services[name]? = some state →
        isValidServiceName name = true ∧ (∀ p ∈ state.members, isValidPeerId prim p = true) ∧
          state.version = 1 := by
      refine seedServices_spec (by simp) (fun name members hname hpeers => ?_) hseed
      exact ⟨hname, fun p hp => hpeers p (mem_collectPeers.mp hp), rfl⟩
    have hs : s.snapshot =
        { network := network, indexVersion := 1, services := services, tombstones := ∅ } := by
      split at h
      · simp at h
      · rename_i saved hsave
        have heq := congrArg (fun out => out.1.snapshot) hsave
        simp only [snapshot_save] at heq
        obtain rfl := Except.ok.inj h
        exact heq.symm
    have hone : 1 < u64Max := by decide
    unfold snapshot at hs
    refine ⟨?_, ?_, ?_⟩
    · rw [hs]
      exact
        { service_name := fun name state h => (hservices name state h).1
          member := fun name state h => (hservices name state h).2.1
          live_pos := fun name state h => (hservices name state h).2.2.ge
          tombstone_name := by simp
          tombstone_pos := by simp }
    · rw [hs]
      exact ⟨fun name state h => by simp, fun name state h => (hservices name state h).2.2.ge⟩
    · rw [hs]
      exact ⟨hone, fun name state h => (hservices name state h).2.2 ▸ hone, by simp⟩

theorem snapshot_of_reloaded {initial : BTreeMap String (List String)} {snap : StoreSnapshot}
    (h : loadOrCreate prim io (.found (.ok snap)) network initial = .ok t) :
    t.snapshot = snap := by
  simp only [loadOrCreate] at h
  split at h
  · simp at h
  · rename_i hnet
    obtain rfl := Except.ok.inj h
    have hnet' : snap.network = network := by simpa using hnet
    rw [snapshot, ← hnet']

/-! ## Runs without revival -/

theorem sound_of_step (hs : Sound prim s) (h : Step prim NoRevival s t) :
    Sound prim t ∧ s.snapshot.Climbs prim t.snapshot := by
  obtain ⟨io, op, reply, hop, hexec, hbounded⟩ := h
  have hchange := change_of_exec hexec
  have hclimb := climbs_of_change hs.separated hs.bounded hop hchange
  exact ⟨⟨admissible_of_change hs.admissible hs.bounded hchange, hclimb.1, hbounded⟩, hclimb.2⟩

theorem sound_of_reachable (h : Reachable prim network NoRevival s) : Sound prim s := by
  induction h with
  | created h => exact sound_of_created h
  | reloaded hs h ih =>
      have heq := snapshot_of_reloaded h
      unfold snapshot at heq
      exact ⟨heq ▸ ih.admissible, heq ▸ ih.separated, heq ▸ ih.bounded⟩
  | step hs h ih => exact (sound_of_step ih h).1

theorem climbs_of_steps (hs : Sound prim s)
    (h : Relation.ReflTransGen (Step prim NoRevival) s t) :
    Sound prim t ∧ s.snapshot.Climbs prim t.snapshot := by
  induction h with
  | refl => exact ⟨hs, .refl _⟩
  | tail _ hstep ih =>
      have hnext := sound_of_step ih.1 hstep
      exact ⟨hnext.1, ih.2.trans hnext.2⟩

/-! ## Evaluating a run -/

instance (s : Store) : (op : Op) → Decidable (NoRevival s op)
  | .createService service _ => inferInstanceAs (Decidable (s.tombstones[service]? = none))
  | .deleteService _ | .addMembers _ _ | .removeMembers _ _ | .setMembers _ _
  | .bumpIndexVersion | .applyReplicated _ | .mergeSnapshot _ => inferInstanceAs (Decidable True)

def runAll (prim : Primitives) (io : SaveIo) (allowed : Store → Op → Prop)
    [∀ s op, Decidable (allowed s op)] : Store → List Op → Option Store
  | s, [] => some s
  | s, op :: ops =>
      match s.exec prim io op with
      | (_, .error _) => none
      | (t, .ok _) =>
          if allowed s op ∧ t.Bounded then runAll prim io allowed t ops else none

theorem steps_of_runAll {allowed : Store → Op → Prop} [∀ s op, Decidable (allowed s op)]
    {ops : List Op} (h : runAll prim io allowed s ops = some t) :
    Relation.ReflTransGen (Step prim allowed) s t := by
  induction ops generalizing s with
  | nil =>
      obtain rfl : s = t := by simpa [runAll] using h
      exact .refl
  | cons op ops ih =>
      rw [runAll] at h
      split at h
      · simp at h
      · rename_i w reply hexec
        split at h
        · rename_i hok
          exact .head ⟨io, op, reply, hok.1, hexec, hok.2⟩ (ih h)
        · simp at h

theorem reachable_of_steps {allowed : Store → Op → Prop} (hs : Reachable prim network allowed s)
    (h : Relation.ReflTransGen (Step prim allowed) s t) : Reachable prim network allowed t := by
  induction h with
  | refl => exact hs
  | tail _ hstep ih => exact .step ih hstep

theorem reachable_emptyStore {allowed : Store → Op → Prop} :
    Reachable samplePrimitives "myorg" allowed emptyStore :=
  @Reachable.created _ _ _ saves ∅ emptyStore rfl

def after (ops : List Op) : Store :=
  ops.foldl (fun s op => (s.exec samplePrimitives saves op).1) emptyStore

/-! ## The entries of a snapshot -/

theorem mem_updates {snap : StoreSnapshot} {u : Update} :
    u ∈ snap.updates ↔
      (∃ state, snap.services[u.service]? = some state ∧
        u = ⟨u.service, state.version, state.members.toList, snap.indexVersion, false⟩) ∨
      ∃ version, snap.tombstones[u.service]? = some version ∧
        u = ⟨u.service, version, [], snap.indexVersion, true⟩ := by
  simp only [StoreSnapshot.updates, List.mem_append, List.mem_map, Prod.exists]
  constructor
  · rintro (⟨name, state, hmem, rfl⟩ | ⟨name, version, hmem, rfl⟩)
    · exact Or.inl ⟨state, ExtTreeMap.mem_toList_iff_getElem?_eq_some.mp hmem, rfl⟩
    · exact Or.inr ⟨version, ExtTreeMap.mem_toList_iff_getElem?_eq_some.mp hmem, rfl⟩
  · rintro (⟨state, hlive, hu⟩ | ⟨version, htomb, hu⟩)
    · exact Or.inl ⟨_, state, ExtTreeMap.mem_toList_iff_getElem?_eq_some.mpr hlive, hu.symm⟩
    · exact Or.inr ⟨_, version, ExtTreeMap.mem_toList_iff_getElem?_eq_some.mpr htomb, hu.symm⟩

theorem indexVersion_of_mem_updates {snap : StoreSnapshot} {u : Update} (h : u ∈ snap.updates) :
    u.indexVersion = snap.indexVersion := by
  obtain ⟨state, -, hu⟩ | ⟨version, -, hu⟩ := mem_updates.mp h <;> rw [hu]

theorem valid_of_mem_updates {snap : StoreSnapshot} (hs : snap.Admissible prim) {u : Update}
    (h : u ∈ snap.updates) : u.Valid prim := by
  obtain ⟨state, hlive, hu⟩ | ⟨version, htomb, hu⟩ := mem_updates.mp h
  · refine ⟨hs.service_name _ _ hlive, fun _ p hp => hs.member _ _ hlive p ?_⟩
    rw [hu] at hp
    exact ExtTreeSet.mem_toList.mp hp
  · refine ⟨hs.tombstone_name _ _ htomb, fun hdel => ?_⟩
    rw [hu] at hdel
    simp at hdel

theorem entry_of_mem_updates {snap : StoreSnapshot} (hs : snap.Separated) {u : Update}
    (h : u ∈ snap.updates) : u.entry = snap.entry u.service := by
  obtain ⟨state, hlive, hu⟩ | ⟨version, htomb, hu⟩ := mem_updates.mp h
  · rw [entry_of_live hlive, hu]
    simp [Update.entry]
  · have hnone : snap.services[u.service]? = none := by
      cases hlive : snap.services[u.service]? with
      | none => rfl
      | some state =>
          rw [hs.disjoint _ _ hlive] at htomb
          simp at htomb
    rw [entry_of_tombstone hnone htomb, hu]
    simp [Update.entry]

theorem exists_update_of_entry {snap : StoreSnapshot} {name : String}
    (h : snap.entry name ≠ .absent) : ∃ u ∈ snap.updates, u.service = name := by
  cases hlive : snap.services[name]? with
  | some state =>
      exact ⟨⟨name, state.version, state.members.toList, snap.indexVersion, false⟩,
        mem_updates.mpr (Or.inl ⟨state, hlive, rfl⟩), rfl⟩
  | none =>
      cases htomb : snap.tombstones[name]? with
      | some version =>
          exact ⟨⟨name, version, [], snap.indexVersion, true⟩,
            mem_updates.mpr (Or.inr ⟨version, htomb, rfl⟩), rfl⟩
      | none => exact absurd (entry_of_absent hlive htomb) h

theorem entry_of_merged_updates {snap : StoreSnapshot} (hs : s.Separated) (hsnap : snap.Separated)
    (h : Merged prim s snap.updates t) (name : String) :
    t.entry name = Lww.join (Entry.rank prim) (s.entry name) (snap.entry name) := by
  have hmem : ∀ e, e ∈ Lww.offers (snap.updates.map offer) name ↔
      e = snap.entry name ∧ e ≠ .absent := by
    intro e
    rw [mem_offers_offer]
    constructor
    · rintro ⟨u, hu, rfl, rfl⟩
      exact ⟨entry_of_mem_updates hsnap hu, update_entry_ne_absent⟩
    · rintro ⟨rfl, hne⟩
      obtain ⟨u, hu, rfl⟩ := exists_update_of_entry hne
      exact ⟨u, hu, rfl, entry_of_mem_updates hsnap hu⟩
  have hinj : Set.InjOn (Entry.rank prim) {e | e ∈ Lww.offers (snap.updates.map offer) name} := by
    intro a ha b hb _
    rw [((hmem a).mp ha).1, ((hmem b).mp hb).1]
  by_cases habsent : snap.entry name = .absent
  · have hnone : ∀ e, e ∈ Lww.offers (snap.updates.map offer) name ↔ e ∈ ([] : List Entry) := by
      simp [hmem, habsent]
    rw [habsent, Lww.join_of_le (rank_absent_le_entry hs name), entry_of_merged h name,
      Lww.joinAll_congr hinj hnone, Lww.joinAll_nil]
  · have hone : ∀ e, e ∈ Lww.offers (snap.updates.map offer) name ↔ e ∈ [snap.entry name] := by
      intro e
      rw [hmem, List.mem_singleton]
      exact ⟨fun he => he.1, fun he => ⟨he, he ▸ habsent⟩⟩
    rw [entry_of_merged h name, Lww.joinAll_congr hinj hone, Lww.joinAll_cons, Lww.joinAll_nil]

theorem mergeSnapshot_spec {snap : StoreSnapshot} (hio : ∀ snap, io snap = none)
    (hs : s.Separated) (hsnap : snap.Admissible prim) :
    ∃ t flag, s.mergeSnapshot prim io snap = (t, .ok flag) ∧ Merged prim s snap.updates t := by
  obtain ⟨t, flag, ht, hmerged⟩ := mergeEntries_spec false hs
    fun u hu => valid_of_mem_updates hsnap hu
  by_cases hflag : flag = true
  · refine ⟨{ t with file := some t.snapshot }, flag, ?_, hmerged.of_snapshot_eq rfl⟩
    simp [mergeSnapshot, ht, hflag, saveThen_of_ok (hio _)]
  · exact ⟨t, flag, by simp [mergeSnapshot, ht, hflag], hmerged⟩

/-! ## Convergence -/

def memberSets (snap : StoreSnapshot) : Set PeerSet :=
  {m | ∃ (name : String) (state : ServiceState),
    snap.services[name]? = some state ∧ m = state.members}

theorem entry_eq_of_rank {A B : Store} (hA : A.Admissible prim) (hB : B.Admissible prim)
    (hinj : Set.InjOn (membersHash prim) (memberSets A.snapshot ∪ memberSets B.snapshot))
    (name : String) (h : (A.entry name).rank prim = (B.entry name).rank prim) :
    A.entry name = B.entry name := by
  have hlive : ∀ {S : Store} {v : Nat} {m : PeerSet}, S.entry name = .live v m →
      m ∈ memberSets S.snapshot := by
    intro S v m hentry
    unfold StoreSnapshot.entry at hentry
    split at hentry
    · rename_i state hstate
      simp only [Entry.live.injEq] at hentry
      exact ⟨name, state, hstate, hentry.2.symm⟩
    · split at hentry <;> simp at hentry
  have htomb : ∀ {S : Store} {v : Nat}, S.Admissible prim → S.entry name = .tombstone v →
      1 ≤ v := by
    intro S v hS hentry
    unfold StoreSnapshot.entry at hentry
    split at hentry
    · simp at hentry
    · split at hentry
      · rename_i version hversion
        have hpos := hS.tombstone_pos _ _ hversion
        simp only [Entry.tombstone.injEq] at hentry
        omega
      · simp at hentry
  refine entry_eq_of_rank_eq ?_ (fun v hv _ => htomb hA hv) (fun v hv _ => htomb hB hv) h
  intro v m w n hm hn hhash
  exact hinj (Or.inl (hlive hm)) (Or.inr (hlive hn)) hhash

/-- One pull in each direction leaves both sides with the same policy. -/
theorem mergeSnapshot_converges {A B : Store} (hio : ∀ snap, io snap = none)
    (hA : Reachable prim network NoRevival A) (hB : Reachable prim network NoRevival B)
    (hinj : Set.InjOn (membersHash prim) (memberSets A.snapshot ∪ memberSets B.snapshot)) :
    ∃ A' B' changedA changedB,
      A.mergeSnapshot prim io B.snapshot = (A', .ok changedA) ∧
        B.mergeSnapshot prim io A'.snapshot = (B', .ok changedB) ∧
        A'.services = B'.services ∧ A'.tombstones = B'.tombstones := by
  have hsA := sound_of_reachable hA
  have hsB := sound_of_reachable hB
  obtain ⟨A', changedA, hmergeA, hA'⟩ := mergeSnapshot_spec hio hsA.separated hsB.admissible
  have hchange : Change prim A (.mergeSnapshot B.snapshot) A'.snapshot :=
    change_of_mergeSnapshot hmergeA
  obtain ⟨B', changedB, hmergeB, hB'⟩ := mergeSnapshot_spec hio hsB.separated
    (admissible_of_change hsA.admissible hsA.bounded hchange)
  have hentry : ∀ name, A'.entry name = B'.entry name := by
    intro name
    rw [entry_of_merged_updates hsB.separated hA'.separated hB' name,
      entry_of_merged_updates hsA.separated hsB.separated hA' name]
    exact (Lww.join_exchange (entry_eq_of_rank hsA.admissible hsB.admissible hinj name)).symm
  exact ⟨A', B', changedA, changedB, hmergeA, hmergeB, services_eq_of_entry hentry,
    tombstones_eq_of_entry hA'.separated hB'.separated hentry⟩

theorem injOn_memberSets {A B : StoreSnapshot}
    (h : ∀ a ∈ A.services.toList ++ B.services.toList, ∀ b ∈ A.services.toList ++ B.services.toList,
      membersHash prim a.2.members = membersHash prim b.2.members → a.2.members = b.2.members) :
    Set.InjOn (membersHash prim) (memberSets A ∪ memberSets B) := by
  have hlist : ∀ m ∈ memberSets A ∪ memberSets B,
      ∃ a ∈ A.services.toList ++ B.services.toList, m = a.2.members := by
    rintro m (⟨name, state, hlive, rfl⟩ | ⟨name, state, hlive, rfl⟩)
    · exact ⟨(name, state), List.mem_append_left _
        (ExtTreeMap.mem_toList_iff_getElem?_eq_some.mpr hlive), rfl⟩
    · exact ⟨(name, state), List.mem_append_right _
        (ExtTreeMap.mem_toList_iff_getElem?_eq_some.mpr hlive), rfl⟩
  intro m hm n hn hhash
  obtain ⟨a, ha, rfl⟩ := hlist m hm
  obtain ⟨b, hb, rfl⟩ := hlist n hn
  exact h a ha b hb hhash

/-- Two sidecars that gave `cmd` different members at version 2. -/
theorem mergeSnapshot_converges_on_tie :
    ∃ A' B' changedA changedB,
      (after [.createService "cmd" [], .setMembers "cmd" [peerA]]).mergeSnapshot samplePrimitives
          saves (after [.createService "cmd" [], .setMembers "cmd" [peerB]]).snapshot =
        (A', .ok changedA) ∧
      (after [.createService "cmd" [], .setMembers "cmd" [peerB]]).mergeSnapshot samplePrimitives
          saves A'.snapshot = (B', .ok changedB) ∧
      A'.services = B'.services ∧ A'.tombstones = B'.tombstones := by
  have hreach : ∀ ops, runAll samplePrimitives saves NoRevival emptyStore ops = some (after ops) →
      Reachable samplePrimitives "myorg" NoRevival (after ops) :=
    fun ops h => reachable_of_steps reachable_emptyStore (steps_of_runAll h)
  exact mergeSnapshot_converges (fun _ => rfl) (hreach _ (by decide +kernel))
    (hreach _ (by decide +kernel)) (injOn_memberSets (by decide +kernel))

/-- Two sidecars, one of which created `cmd`, deleted it and created it again.  The
first keeps the service, the second learns of it and deletes it at once. -/
theorem mergeSnapshot_diverges_after_revival :
    let A := after [.createService "cmd" [], .deleteService "cmd", .createService "cmd" []]
    let B := emptyStore
    Reachable samplePrimitives "myorg" (fun _ _ => True) A ∧
      Reachable samplePrimitives "myorg" (fun _ _ => True) B ∧
      Set.InjOn (membersHash samplePrimitives) (memberSets A.snapshot ∪ memberSets B.snapshot) ∧
      ∃ A' B',
        A.mergeSnapshot samplePrimitives saves B.snapshot = (A', .ok false) ∧
          B.mergeSnapshot samplePrimitives saves A'.snapshot = (B', .ok true) ∧
          A'.services ≠ B'.services := by
  intro A B
  have hrun : runAll samplePrimitives saves (fun _ _ => True) emptyStore
      [.createService "cmd" [], .deleteService "cmd", .createService "cmd" []] = some A := by
    decide +kernel
  refine ⟨reachable_of_steps reachable_emptyStore (steps_of_runAll hrun), reachable_emptyStore,
    injOn_memberSets (by decide +kernel), A,
    (B.mergeSnapshot samplePrimitives saves A.snapshot).1, ?_, ?_, ?_⟩
  · decide +kernel
  · decide +kernel
  · decide +kernel

/-! ## Stale snapshots -/

/-- A snapshot the store has left behind, or has now, changes nothing. -/
theorem mergeSnapshot_of_stale (hs : Reachable prim network NoRevival s)
    (hrun : Relation.ReflTransGen (Step prim NoRevival) s t) :
    t.mergeSnapshot prim io s.snapshot = (t, .ok false) := by
  have hsound := sound_of_reachable hs
  obtain ⟨hsound', hclimbs⟩ := climbs_of_steps hsound hrun
  have hstale : mergeEntries prim t false s.snapshot.updates = (t, .ok false) := by
    apply mergeEntries_of_stale false hsound'.separated
    · exact fun u hu => valid_of_mem_updates hsound.admissible hu
    · intro u hu
      rw [entry_of_mem_updates hsound.separated hu]
      exact hclimbs.rank u.service
    · intro u hu
      rw [indexVersion_of_mem_updates hu]
      exact hclimbs.indexVersion
  simp [mergeSnapshot, hstale]

/-- The snapshot taken before `cmd` got a member and was deleted. -/
theorem mergeSnapshot_of_stale_after_delete :
    (after [.createService "cmd" [], .addMembers "cmd" [peerA], .deleteService "cmd"]).mergeSnapshot
        samplePrimitives saves (after [.createService "cmd" []]).snapshot =
      (after [.createService "cmd" [], .addMembers "cmd" [peerA], .deleteService "cmd"],
        .ok false) := by
  have hstart : runAll samplePrimitives saves NoRevival emptyStore [.createService "cmd" []] =
      some (after [.createService "cmd" []]) := by
    decide +kernel
  have hrun : runAll samplePrimitives saves NoRevival (after [.createService "cmd" []])
      [.addMembers "cmd" [peerA], .deleteService "cmd"] =
      some (after [.createService "cmd" [], .addMembers "cmd" [peerA], .deleteService "cmd"]) := by
    decide +kernel
  exact mergeSnapshot_of_stale (reachable_of_steps reachable_emptyStore (steps_of_runAll hstart))
    (steps_of_runAll hrun)

/-- A revived service is removed again by the snapshot of its own store. -/
theorem mergeSnapshot_undoes_revival :
    let s := after [.createService "cmd" [], .deleteService "cmd", .createService "cmd" []]
    Reachable samplePrimitives "myorg" (fun _ _ => True) s ∧
      ∃ t, s.mergeSnapshot samplePrimitives saves s.snapshot = (t, .ok true) ∧
        t.services ≠ s.services := by
  intro s
  have hrun : runAll samplePrimitives saves (fun _ _ => True) emptyStore
      [.createService "cmd" [], .deleteService "cmd", .createService "cmd" []] = some s := by
    decide +kernel
  refine ⟨reachable_of_steps reachable_emptyStore (steps_of_runAll hrun),
    (s.mergeSnapshot samplePrimitives saves s.snapshot).1, ?_, ?_⟩
  · decide +kernel
  · decide +kernel

end NexusAuth.Store
