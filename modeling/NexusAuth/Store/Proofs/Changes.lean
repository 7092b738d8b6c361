import NexusAuth.Store.Proofs.Replication

/-!
# What a call can do to the store

`Change` lists the effects of a successful call, and `change_of_exec` shows that
there are no others.  The invariants of a run are then short case analyses: every
name and member is valid, every version is at least 1, and, as long as no deleted
name is created again, no name is both live and deleted and every register only
climbs.
-/

namespace NexusAuth

open Std (ExtTreeMap ExtTreeSet)
open NexusAuth.Authority NexusAuth.Lib NexusAuth.Lib.OrderedMap NexusAuth.Lib.Words

/-- Every name and every member parses, and versions start at 1. -/
structure StoreSnapshot.Admissible (prim : Primitives) (s : StoreSnapshot) : Prop where
  service_name : ∀ (name : String) (state : ServiceState),
    s.services[name]? = some state → isValidServiceName name = true
  member : ∀ (name : String) (state : ServiceState),
    s.services[name]? = some state → ∀ p ∈ state.members, isValidPeerId prim p = true
  live_pos : ∀ (name : String) (state : ServiceState),
    s.services[name]? = some state → 1 ≤ state.version
  tombstone_name : ∀ (name : String) (version : Nat),
    s.tombstones[name]? = some version → isValidServiceName name = true
  tombstone_pos : ∀ (name : String) (version : Nat),
    s.tombstones[name]? = some version → 1 ≤ version

namespace StoreSnapshot.Admissible

variable {prim : Primitives} {s t : StoreSnapshot} {service : String}

theorem write {state : ServiceState} (hs : s.Admissible prim)
    (hname : isValidServiceName service = true)
    (hmembers : ∀ p ∈ state.members, isValidPeerId prim p = true) (hpos : 1 ≤ state.version)
    (hservices : t.services = s.services.insert service state)
    (htombstones : ∀ (name : String) (version : Nat),
      t.tombstones[name]? = some version → s.tombstones[name]? = some version) :
    t.Admissible prim where
  service_name _ _ := hservices ▸ forall_insert hs.service_name hname
  member _ _ := hservices ▸ forall_insert hs.member hmembers
  live_pos _ _ := hservices ▸ forall_insert hs.live_pos hpos
  tombstone_name name version h := hs.tombstone_name name version (htombstones name version h)
  tombstone_pos name version h := hs.tombstone_pos name version (htombstones name version h)

theorem edit {old new : ServiceState} (hs : s.Admissible prim)
    (hlive : s.services[service]? = some old)
    (hmembers : ∀ p ∈ new.members, p ∈ old.members ∨ isValidPeerId prim p = true)
    (hpos : 1 ≤ new.version) (hservices : t.services = s.services.insert service new)
    (htombstones : t.tombstones = s.tombstones) : t.Admissible prim := by
  apply hs.write (hs.service_name _ _ hlive) _ hpos hservices
  · intro name version h
    rwa [htombstones] at h
  · intro p hp
    exact (hmembers p hp).elim (hs.member _ _ hlive p) id

theorem bury {version : Nat} (hs : s.Admissible prim) (hname : isValidServiceName service = true)
    (hpos : 1 ≤ version) (hservices : t.services = s.services.erase service)
    (htombstones : t.tombstones = s.tombstones.insert service version) : t.Admissible prim := by
  have hrest : ∀ (name : String) (state : ServiceState),
      t.services[name]? = some state → s.services[name]? = some state := by
    intro name state h
    rw [hservices] at h
    exact getElem?_of_getElem?_erase h
  exact
    { service_name := fun name state h => hs.service_name name state (hrest name state h)
      member := fun name state h => hs.member name state (hrest name state h)
      live_pos := fun name state h => hs.live_pos name state (hrest name state h)
      tombstone_name := fun name version =>
        htombstones ▸ forall_insert hs.tombstone_name hname
      tombstone_pos := fun name version => htombstones ▸ forall_insert hs.tombstone_pos hpos }

end StoreSnapshot.Admissible

structure StoreSnapshot.Climbs (prim : Primitives) (s t : StoreSnapshot) : Prop where
  rank : ∀ name, (s.entry name).rank prim ≤ (t.entry name).rank prim
  indexVersion : s.indexVersion ≤ t.indexVersion

theorem StoreSnapshot.Climbs.refl {prim : Primitives} (s : StoreSnapshot) : s.Climbs prim s :=
  ⟨fun _ => le_rfl, le_rfl⟩

theorem StoreSnapshot.Climbs.trans {prim : Primitives} {s t w : StoreSnapshot}
    (hst : s.Climbs prim t) (htw : t.Climbs prim w) : s.Climbs prim w :=
  ⟨fun name => (hst.rank name).trans (htw.rank name), hst.indexVersion.trans htw.indexVersion⟩

namespace Store

inductive Change (prim : Primitives) (s : Store) : Op → StoreSnapshot → Prop
  | kept {op : Op} : Change prim s op s.snapshot
  | created {service : String} {peers : List String}
      (hname : isValidServiceName service = true)
      (hpeers : ∀ p ∈ peers, isValidPeerId prim p = true)
      (hfresh : s.services[service]? = none) :
      Change prim s (.createService service peers)
        { s.snapshot with
          services := s.services.insert service ⟨1, collectPeers peers⟩
          indexVersion := succ64 s.indexVersion }
  | deleted {service : String} {removed : ServiceState}
      (hlive : s.services[service]? = some removed) :
      Change prim s (.deleteService service)
        { s.snapshot with
          services := s.services.erase service
          tombstones := s.tombstones.insert service (succ64 removed.version)
          indexVersion := succ64 s.indexVersion }
  | edited {op : Op} {service : String} {state : ServiceState} {members : PeerSet}
      (hlive : s.services[service]? = some state) (hne : members ≠ state.members)
      (hmembers : ∀ p ∈ members, p ∈ state.members ∨ isValidPeerId prim p = true) :
      Change prim s op
        { s.snapshot with
          services := s.services.insert service ⟨succ64 state.version, members⟩
          indexVersion := succ64 s.indexVersion }
  | bumped {op : Op} :
      Change prim s op { s.snapshot with indexVersion := succ64 s.indexVersion }
  | merged {op : Op} {us : List Update} {t : Store} {flag : Bool}
      (h : mergeEntries prim s false us = (t, .ok flag)) : Change prim s op t.snapshot

variable {prim : Primitives} {io : SaveIo} {s t : Store}

/-! ## Inverting a call -/

theorem change_of_createService {service : String} {peers : List String} {version : Nat}
    (h : s.createService prim io service peers = (t, .ok version)) :
    Change prim s (.createService service peers) t.snapshot := by
  unfold createService at h
  split at h
  · simp at h
  · rename_i hname
    split at h
    · simp at h
    · rename_i hpeers
      split at h
      · simp at h
      · rename_i hfresh
        have ht := congrArg (fun out => out.1.snapshot) h
        simp only [snapshot_saveThen] at ht
        rw [← ht]
        exact .created (by simpa using hname) (validatePeers_eq_ok_iff.mp hpeers)
          (getElem?_eq_none_of_not_contains hfresh)

theorem change_of_deleteService {service : String} {version : Nat}
    (h : s.deleteService io service = (t, .ok version)) :
    Change prim s (.deleteService service) t.snapshot := by
  unfold deleteService at h
  split at h
  · simp at h
  · rename_i removed hlive
    have ht := congrArg (fun out => out.1.snapshot) h
    simp only [snapshot_saveThen] at ht
    rw [← ht]
    exact .deleted hlive

theorem change_of_editMembers {edit : PeerSet → List String → PeerSet × Bool} {op : Op}
    {service : String} {peers : List String} {version : Nat}
    (hreport : ReportsChange edit) (hwithin : StaysWithin edit)
    (h : s.editMembers prim io edit service peers = (t, .ok version)) :
    Change prim s op t.snapshot := by
  unfold editMembers at h
  split at h
  · simp at h
  · rename_i hpeers
    split at h
    · simp at h
    · rename_i state hlive
      have ht := congrArg (fun out => out.1.snapshot) h
      simp only [finishChange, ExtTreeMap.getElem?_insert_self] at ht
      by_cases hchanged : (edit state.members peers).2 = true
      · simp only [hchanged, Bool.not_true, Bool.false_eq_true, if_false, snapshot_save,
          insert_insert] at ht
        rw [← ht]
        refine .edited hlive ((hreport _ _).mp hchanged) fun p hp => ?_
        exact (hwithin _ _ p hp).imp_right fun hin => validatePeers_eq_ok_iff.mp hpeers p hin
      · have hsame : (edit state.members peers).1 = state.members := by
          by_contra hne
          exact hchanged ((hreport _ _).mpr hne)
        rw [Bool.not_eq_true] at hchanged
        simp only [hchanged, Bool.not_false, if_true, hsame, insert_eq_self hlive] at ht
        rw [← ht]
        exact .kept

theorem change_of_applyReplicated {op : Op} {u : Update} {flag : Bool}
    (h : s.applyReplicated prim io u = (t, .ok flag)) : Change prim s op t.snapshot := by
  unfold applyReplicated at h
  split at h
  · simp at h
  · rename_i w changed hmerge
    have hone : mergeEntries prim s false [u] = (w, .ok changed) := by
      simp [mergeEntries, hmerge]
    have ht := congrArg (fun out => out.1.snapshot) h
    simp only [snapshot_saveIf] at ht
    rw [← ht]
    exact .merged hone

theorem mergeEntries_of_mergeSnapshot {snap : StoreSnapshot} {flag : Bool}
    (h : s.mergeSnapshot prim io snap = (t, .ok flag)) :
    ∃ w, mergeEntries prim s false snap.updates = (w, .ok flag) ∧ w.snapshot = t.snapshot := by
  unfold mergeSnapshot at h
  split at h
  · simp at h
  · rename_i w changed hmerge
    split at h
    · have hflag : changed = flag := by
        unfold saveThen at h
        split at h
        · simp at h
        · simpa using congrArg Prod.snd h
      exact ⟨w, by rw [hmerge, hflag], by simpa using congrArg (fun out => out.1.snapshot) h⟩
    · simp only [Prod.mk.injEq, Except.ok.injEq] at h
      exact ⟨w, by rw [hmerge, h.2], by rw [h.1]⟩

theorem change_of_mergeSnapshot {op : Op} {snap : StoreSnapshot} {flag : Bool}
    (h : s.mergeSnapshot prim io snap = (t, .ok flag)) : Change prim s op t.snapshot := by
  obtain ⟨w, hmerge, hsnapshot⟩ := mergeEntries_of_mergeSnapshot h
  rw [← hsnapshot]
  exact .merged hmerge

theorem ok_of_map_eq_ok {α β : Type} {f : α → β} {out : Store × Except StoreError α} {b : β}
    (h : (out.1, out.2.map f) = (t, .ok b)) : ∃ a, out = (t, .ok a) := by
  obtain ⟨w, res⟩ := out
  cases res with
  | error e => simp [Except.map] at h
  | ok a =>
      simp only [Prod.mk.injEq] at h
      exact ⟨a, by rw [h.1]⟩

theorem change_of_exec {op : Op} {reply : Reply} (h : s.exec prim io op = (t, .ok reply)) :
    Change prim s op t.snapshot := by
  cases op with
  | createService service peers =>
      obtain ⟨version, hout⟩ := ok_of_map_eq_ok h
      exact change_of_createService hout
  | deleteService service =>
      obtain ⟨version, hout⟩ := ok_of_map_eq_ok h
      exact change_of_deleteService hout
  | addMembers service peers =>
      obtain ⟨version, hout⟩ := ok_of_map_eq_ok h
      exact change_of_editMembers insertPeers_reportsChange insertPeers_staysWithin hout
  | removeMembers service peers =>
      obtain ⟨version, hout⟩ := ok_of_map_eq_ok h
      exact change_of_editMembers removePeers_reportsChange removePeers_staysWithin hout
  | setMembers service peers =>
      obtain ⟨version, hout⟩ := ok_of_map_eq_ok h
      exact change_of_editMembers replacePeers_reportsChange replacePeers_staysWithin hout
  | bumpIndexVersion =>
      have ht := congrArg (fun out => out.1.snapshot) h
      simp only [exec, bumpIndexVersion, snapshot_save] at ht
      rw [← ht]
      exact .bumped
  | applyReplicated update =>
      obtain ⟨flag, hout⟩ := ok_of_map_eq_ok h
      exact change_of_applyReplicated hout
  | mergeSnapshot snap =>
      obtain ⟨flag, hout⟩ := ok_of_map_eq_ok h
      exact change_of_mergeSnapshot hout

/-! ## Names, members and versions stay admissible -/

theorem mergeEntry_cases {u : Update} {flag : Bool} (h : s.mergeEntry prim u = .ok (t, flag)) :
    u.Valid prim ∧ (t = s.raiseIndex u.indexVersion ∨
      s.Accepts prim u ∧ t = (s.place u.service u.entry).raiseIndex u.indexVersion) := by
  have hu : u.Valid prim := by
    have hone : mergeEntries prim s false [u] = (t, .ok flag) := by
      simp [mergeEntries, h]
    exact valid_of_mergeEntries hone u (by simp)
  refine ⟨hu, ?_⟩
  by_cases hacc : s.Accepts prim u
  · rw [mergeEntry_of_mergeService (mergeService_of_accepts hu hacc)] at h
    simp only [Except.ok.injEq, Prod.mk.injEq] at h
    exact Or.inr ⟨hacc, h.1.symm⟩
  · rw [mergeEntry_of_mergeService (mergeService_of_not_accepts hu hacc)] at h
    simp only [Except.ok.injEq, Prod.mk.injEq] at h
    exact Or.inl h.1.symm

theorem pos_of_accepts {u : Update} (hs : s.Admissible prim) (h : s.Accepts prim u) :
    1 ≤ u.version := by
  unfold Accepts at h
  by_cases hdel : u.deleted = true
  · simp only [hdel, if_true] at h
    obtain ⟨hcur, -, hlive | hlt⟩ := h
    · rw [ExtTreeMap.contains_eq_isSome_getElem?, Option.isSome_iff_exists] at hlive
      obtain ⟨state, hstate⟩ := hlive
      have hpos := hs.live_pos _ _ hstate
      simp only [hstate, Option.map_some, Option.getD_some] at hcur
      omega
    · omega
  · simp only [hdel, Bool.false_eq_true, if_false] at h
    omega

theorem admissible_place {u : Update} (hs : s.Admissible prim) (hu : u.Valid prim)
    (h : s.Accepts prim u) : (s.place u.service u.entry).Admissible prim := by
  have hpos := pos_of_accepts hs h
  by_cases hdel : u.deleted = true
  · simp only [Update.entry, hdel, if_true, place]
    exact hs.bury hu.1 hpos rfl rfl
  · have hmembers : ∀ p ∈ collectPeers u.members, isValidPeerId prim p = true :=
      fun p hp => hu.2 (by simpa using hdel) p (mem_collectPeers.mp hp)
    simp only [Update.entry, hdel, Bool.false_eq_true, if_false, place]
    exact hs.write hu.1 hmembers hpos rfl fun _ _ => getElem?_of_getElem?_erase

theorem admissible_mergeEntries (us : List Update) (changed : Bool) (hs : s.Admissible prim) :
    (mergeEntries prim s changed us).1.Admissible prim := by
  induction us generalizing s changed with
  | nil => exact hs
  | cons u us ih =>
      rw [mergeEntries]
      split
      · exact hs
      · rename_i t flag hmerge
        apply ih _
        obtain ⟨hu, rfl | ⟨hacc, rfl⟩⟩ := mergeEntry_cases hmerge
        · exact { hs with }
        · exact { admissible_place hs hu hacc with }

theorem admissible_of_change {op : Op} {snap : StoreSnapshot} (hs : s.Admissible prim)
    (hb : s.Bounded) (h : Change prim s op snap) : snap.Admissible prim := by
  cases h with
  | kept => exact hs
  | created hname hpeers hfresh =>
      have hmembers : ∀ p ∈ collectPeers _, isValidPeerId prim p = true :=
        fun p hp => hpeers p (mem_collectPeers.mp hp)
      exact hs.write hname hmembers le_rfl rfl fun _ _ h => h
  | deleted hlive =>
      have hversion := succ64_of_lt (hb.services _ _ hlive)
      exact hs.bury (hs.service_name _ _ hlive) (by omega) rfl rfl
  | edited hlive hne hmembers =>
      have hversion := succ64_of_lt (hb.services _ _ hlive)
      exact hs.edit hlive hmembers (by simp only; omega) rfl rfl
  | bumped => exact { hs with }
  | @merged _ us t flag hmerge =>
      have hadm := admissible_mergeEntries us false hs
      rw [hmerge] at hadm
      exact hadm

/-! ## Registers climb -/

def NoRevival (s : Store) : Op → Prop
  | .createService service _ => s.tombstones[service]? = none
  | _ => True

theorem climbs_of_update {snap : StoreSnapshot} (service : String)
    (hother : ∀ name, name ≠ service → snap.entry name = s.entry name)
    (hself : (s.entry service).rank prim ≤ (snap.entry service).rank prim)
    (hindex : s.indexVersion ≤ snap.indexVersion) : s.snapshot.Climbs prim snap := by
  refine ⟨fun name => ?_, hindex⟩
  by_cases hname : name = service
  · subst hname
    exact hself
  · rw [hother name hname]
    exact le_rfl

theorem climbs_of_write {snap : StoreSnapshot} {service : String} {state : ServiceState}
    (hs : s.Separated) (hfree : s.tombstones[service]? = none) (hpos : 1 ≤ state.version)
    (hservices : snap.services = s.services.insert service state)
    (htombstones : snap.tombstones = s.tombstones)
    (hself : (s.entry service).rank prim ≤ (snap.entry service).rank prim)
    (hindex : s.indexVersion ≤ snap.indexVersion) :
    snap.Separated ∧ s.snapshot.Climbs prim snap := by
  constructor
  · constructor
    · intro name state h
      rw [hservices] at h
      rw [htombstones]
      exact forall_insert (Q := fun name _ => s.tombstones[name]? = none) hs.disjoint hfree h
    · intro name state h
      rw [hservices] at h
      exact forall_insert hs.live_pos hpos h
  · apply climbs_of_update service _ hself hindex
    intro name hne
    apply entry_congr
    · rw [hservices, ExtTreeMap.getElem?_insert, if_neg]
      exact fun heq => hne (compare_eq_iff_eq.mp heq).symm
    · rw [htombstones]

theorem climbs_of_merged {us : List Update} (h : Merged prim s us t) :
    s.snapshot.Climbs prim t.snapshot := by
  refine ⟨fun name => (isMaximum_of_merged h name).2.1, ?_⟩
  have hindex := indexVersion_of_merged h
  have hle := Lww.le_rank_joinAll id s.indexVersion (us.map Update.indexVersion)
  rw [← hindex] at hle
  exact hle

/-- A step that revives no deleted name keeps the store separated and moves no
register down. -/
theorem climbs_of_change {op : Op} {snap : StoreSnapshot} (hs : s.Separated) (hb : s.Bounded)
    (hop : NoRevival s op) (h : Change prim s op snap) :
    snap.Separated ∧ s.snapshot.Climbs prim snap := by
  have hindex := succ64_of_lt hb.indexVersion
  cases h with
  | kept => exact ⟨hs, .refl _⟩
  | @created service peers hname hpeers hfresh =>
      refine climbs_of_write hs hop le_rfl rfl rfl ?_ ?_
      · rw [entry_of_absent hfresh hop, rank_absent, entry_of_live ExtTreeMap.getElem?_insert_self]
        exact (rank_tombstone_lt_live.mpr Nat.one_pos).le
      · simp only [hindex]
        omega
  | @deleted service removed hlive =>
      have hversion := succ64_of_lt (hb.services _ _ hlive)
      refine ⟨⟨fun name state h => ?_, fun name state h =>
        hs.live_pos name state (getElem?_of_getElem?_erase h)⟩, ?_⟩
      · simp only [ExtTreeMap.getElem?_erase] at h
        split at h
        · exact absurd h (by simp)
        · rename_i hne
          simp only [ExtTreeMap.getElem?_insert, hne, if_false]
          exact hs.disjoint name state h
      · apply climbs_of_update service
        · intro name hne
          apply entry_congr
          · simp [ExtTreeMap.getElem?_erase, Ne.symm hne]
          · simp [ExtTreeMap.getElem?_insert, Ne.symm hne]
        · rw [entry_of_live hlive,
            entry_of_tombstone ExtTreeMap.getElem?_erase_self ExtTreeMap.getElem?_insert_self]
          exact (rank_live_lt_tombstone.mpr (by omega)).le
        · simp only [hindex]
          omega
  | @edited _ service state members hlive hne hmembers =>
      have hversion := succ64_of_lt (hb.services _ _ hlive)
      refine climbs_of_write hs (hs.disjoint _ _ hlive) (by simp only; omega) rfl rfl ?_ ?_
      · rw [entry_of_live hlive, entry_of_live ExtTreeMap.getElem?_insert_self]
        exact (rank_live_lt_live.mpr (Or.inl (by simp only; omega))).le
      · simp only [hindex]
        omega
  | bumped =>
      refine ⟨{ hs with }, fun name => le_rfl, ?_⟩
      simp only [hindex, snapshot]
      omega
  | @merged _ us t flag hmerge =>
      obtain ⟨w, flag', hw, hmerged⟩ := mergeEntries_spec false hs (valid_of_mergeEntries hmerge)
      obtain ⟨rfl, -⟩ := Prod.mk.inj (hw.symm.trans hmerge)
      exact ⟨hmerged.separated, climbs_of_merged hmerged⟩

end Store

end NexusAuth
