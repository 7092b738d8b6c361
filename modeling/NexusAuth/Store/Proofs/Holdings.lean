import NexusAuth.Store.Proofs.Counters
import NexusAuth.Store.Proofs.IndexVersion
import NexusAuth.Store.Proofs.Merging

/-!
# Where the entries of a store come from

A store holds live services and tombstones.  After any call, successful or not, it holds
nothing but what it held before, what the call itself writes, and valid entries that the call
was given by another sidecar.
-/

namespace NexusAuth

open Std (ExtTreeMap ExtTreeSet)
open NexusAuth.Authority NexusAuth.Lib NexusAuth.Lib.OrderedMap NexusAuth.Lib.Words

/-- The store has this entry for the name.  A name that was created over its tombstone has two. -/
inductive StoreSnapshot.Holds (s : StoreSnapshot) (name : String) : Entry → Prop
  | live {state : ServiceState} (h : s.services[name]? = some state) :
      Holds s name (.live state.version state.members)
  | tombstone {version : Nat} (h : s.tombstones[name]? = some version) :
      Holds s name (.tombstone version)

def Entry.members : Entry → PeerSet
  | .live _ members => members
  | _ => ∅

@[simp] theorem Entry.members_tombstone (version : Nat) :
    (Entry.tombstone version).members = ∅ := rfl

@[simp] theorem Entry.members_live (version : Nat) (members : PeerSet) :
    (Entry.live version members).members = members := rfl

theorem holds_of_mem_updates {snap : StoreSnapshot} {u : Update} (h : u ∈ snap.updates) :
    snap.Holds u.service u.entry := by
  obtain ⟨state, hlive, hu⟩ | ⟨version, htomb, hu⟩ := Store.mem_updates.mp h
  · have hentry : u.entry = .live state.version state.members := by
      rw [hu]
      simp [Update.entry]
    exact hentry ▸ .live hlive
  · have hentry : u.entry = .tombstone version := by
      rw [hu]
      simp [Update.entry]
    exact hentry ▸ .tombstone htomb

theorem holds_entry {snap : StoreSnapshot} {name : String} (h : snap.entry name ≠ .absent) :
    snap.Holds name (snap.entry name) := by
  cases hlive : snap.services[name]? with
  | some state => exact entry_of_live hlive ▸ .live hlive
  | none =>
      cases htomb : snap.tombstones[name]? with
      | some version => exact entry_of_tombstone hlive htomb ▸ .tombstone htomb
      | none => exact absurd (entry_of_absent hlive htomb) h

theorem entry_of_holds {snap : StoreSnapshot} (hs : snap.Separated) {name : String} {e : Entry}
    (h : snap.Holds name e) : snap.entry name = e := by
  cases h with
  | live hlive => exact entry_of_live hlive
  | tombstone htomb =>
      refine entry_of_tombstone ?_ htomb
      rw [Option.eq_none_iff_forall_ne_some]
      intro state hlive
      rw [hs.disjoint name state hlive] at htomb
      cases htomb

namespace Store

def Op.newPeers : Op → List String
  | .createService _ peers | .addMembers _ peers | .setMembers _ peers => peers
  | _ => []

inductive Writes (prim : Primitives) (s : Store) (op : Op) (name : String) : Entry → Prop
  | created {peers : List String} (hop : op = .createService name peers)
      (hname : isValidServiceName name = true)
      (hpeers : ∀ p ∈ peers, isValidPeerId prim p = true) :
      Writes prim s op name (.live 1 (collectPeers peers))
  | deleted {removed : ServiceState} (hop : op = .deleteService name)
      (hlive : s.services[name]? = some removed) :
      Writes prim s op name (.tombstone (succ64 removed.version))
  | edited {state : ServiceState} {members : PeerSet} (hop : op.edited = some name)
      (hlive : s.services[name]? = some state)
      (hmembers : ∀ p ∈ members,
        p ∈ state.members ∨ p ∈ op.newPeers ∧ isValidPeerId prim p = true) :
      Writes prim s op name (.live (succ64 state.version) members)
  | received {us : List Update} {u : Update} (hop : op.received = some us) (hu : u ∈ us)
      (hvalid : u.Valid prim) (hname : u.service = name) : Writes prim s op name u.entry

variable {prim : Primitives} {io : SaveIo} {s t : Store} {op : Op} {name service : String}
  {e : Entry}

/-! ## Insertions and deletions -/

theorem holds_insert {snap : StoreSnapshot} {state : ServiceState} (h : snap.Holds name e)
    (hservices : snap.services = s.services.insert service state)
    (htombstones : ∀ (name : String) (version : Nat),
      snap.tombstones[name]? = some version → s.tombstones[name]? = some version) :
    s.Holds name e ∨ name = service ∧ e = .live state.version state.members := by
  cases h with
  | live hlive =>
      rw [hservices, ExtTreeMap.getElem?_insert] at hlive
      split at hlive
      · rename_i heq
        obtain rfl := Option.some.inj hlive
        exact .inr ⟨(compare_eq_iff_eq.mp heq).symm, rfl⟩
      · exact .inl (.live hlive)
  | tombstone htomb => exact .inl (.tombstone (htombstones _ _ htomb))

theorem holds_erase {snap : StoreSnapshot} {version : Nat} (h : snap.Holds name e)
    (hservices : snap.services = s.services.erase service)
    (htombstones : snap.tombstones = s.tombstones.insert service version) :
    s.Holds name e ∨ name = service ∧ e = .tombstone version := by
  cases h with
  | live hlive => exact .inl (.live (getElem?_of_getElem?_erase (hservices ▸ hlive)))
  | tombstone htomb =>
      rw [htombstones, ExtTreeMap.getElem?_insert] at htomb
      split at htomb
      · rename_i heq
        obtain rfl := Option.some.inj htomb
        exact .inr ⟨(compare_eq_iff_eq.mp heq).symm, rfl⟩
      · exact .inl (.tombstone htomb)

theorem holds_place {entry : Entry} (h : (s.place service entry).Holds name e) :
    s.Holds name e ∨ name = service ∧ e = entry := by
  cases entry with
  | absent => exact .inl h
  | tombstone version => exact holds_erase h rfl rfl
  | live version members => exact holds_insert h rfl fun _ _ => getElem?_of_getElem?_erase

/-! ## Merges -/

theorem holds_mergeEntry {u : Update} {flag : Bool} (h : s.mergeEntry prim u = .ok (t, flag))
    (hheld : t.Holds name e) : s.Holds name e ∨ u.Valid prim ∧ u.service = name ∧ u.entry = e := by
  obtain ⟨hvalid, rfl | ⟨-, rfl⟩⟩ := mergeEntry_cases h
  · cases hheld with
    | live hlive => exact .inl (.live hlive)
    | tombstone htomb => exact .inl (.tombstone htomb)
  · have hplaced : (s.place u.service u.entry).Holds name e := by
      cases hheld with
      | live hlive => exact .live hlive
      | tombstone htomb => exact .tombstone htomb
    obtain hold | ⟨rfl, rfl⟩ := holds_place hplaced
    · exact .inl hold
    · exact .inr ⟨hvalid, rfl, rfl⟩

/-- Also a merge that stops at an invalid entry has taken only valid ones. -/
theorem holds_mergeEntries {us : List Update} {changed : Bool}
    (h : (mergeEntries prim s changed us).1.Holds name e) :
    s.Holds name e ∨ ∃ u ∈ us, u.Valid prim ∧ u.service = name ∧ u.entry = e := by
  induction us generalizing s changed with
  | nil => exact .inl h
  | cons u us ih =>
      rw [mergeEntries] at h
      split at h
      · exact .inl h
      · rename_i w flag hmerge
        obtain hheld | ⟨v, hv, hrest⟩ := ih h
        · obtain hold | hnew := holds_mergeEntry hmerge hheld
          · exact .inl hold
          · exact .inr ⟨u, List.mem_cons_self, hnew⟩
        · exact .inr ⟨v, List.mem_cons_of_mem _ hv, hrest⟩

theorem snapshot_exec_received {us : List Update} (hop : op.received = some us) :
    (s.exec prim io op).1.snapshot = (mergeEntries prim s false us).1.snapshot := by
  cases op with
  | applyReplicated u =>
      obtain rfl := Option.some.inj hop
      exact snapshot_applyReplicated
  | mergeSnapshot snap =>
      obtain rfl := Option.some.inj hop
      exact snapshot_mergeSnapshot
  | _ => cases hop

/-! ## Every call -/

theorem holds_editMembers {edit : PeerSet → List String → PeerSet × Bool} {peers : List String}
    (hreport : ReportsChange edit) (hop : op.edited = some service)
    (hwithin : ∀ members p, p ∈ (edit members peers).1 → p ∈ members ∨ p ∈ op.newPeers ∧ p ∈ peers)
    (h : (s.editMembers prim io edit service peers).1.snapshot.Holds name e) :
    s.Holds name e ∨ Writes prim s op name e := by
  unfold editMembers at h
  split at h
  · exact .inl h
  rename_i hpeers
  split at h
  · exact .inl h
  rename_i state hlive
  simp only [finishChange, ExtTreeMap.getElem?_insert_self] at h
  by_cases hchanged : (edit state.members peers).2 = true
  · simp only [hchanged, Bool.not_true, Bool.false_eq_true, if_false, snapshot_save,
      insert_insert] at h
    obtain hold | ⟨rfl, rfl⟩ := holds_insert h rfl fun _ _ htomb => htomb
    · exact .inl hold
    · refine .inr (.edited hop hlive fun p hp => (hwithin _ p hp).imp_right fun hnew => ?_)
      exact ⟨hnew.1, validatePeers_eq_ok_iff.mp hpeers p hnew.2⟩
  · have hsame : (edit state.members peers).1 = state.members := by
      by_contra hne
      exact hchanged ((hreport _ _).mpr hne)
    rw [Bool.not_eq_true] at hchanged
    simp only [hchanged, Bool.not_false, if_true, hsame, insert_eq_self hlive] at h
    exact .inl h

theorem holds_exec (h : (s.exec prim io op).1.snapshot.Holds name e) :
    s.Holds name e ∨ Writes prim s op name e := by
  cases op with
  | createService service peers =>
      simp only [exec, createService] at h
      split at h
      · exact .inl h
      rename_i hname
      split at h
      · exact .inl h
      rename_i hpeers
      split at h
      · exact .inl h
      rw [snapshot_saveThen] at h
      obtain hold | ⟨rfl, rfl⟩ := holds_insert h rfl fun _ _ htomb => htomb
      · exact .inl hold
      · exact .inr (.created rfl (by simpa using hname) (validatePeers_eq_ok_iff.mp hpeers))
  | deleteService service =>
      simp only [exec, deleteService] at h
      split at h
      · exact .inl h
      rename_i removed hlive
      rw [snapshot_saveThen] at h
      obtain hold | ⟨rfl, rfl⟩ := holds_erase h rfl rfl
      · exact .inl hold
      · exact .inr (.deleted rfl hlive)
  | addMembers service peers =>
      exact holds_editMembers insertPeers_reportsChange rfl
        (fun _ p hp => (insertPeers_staysWithin _ _ p hp).imp_right fun h => ⟨h, h⟩) h
  | removeMembers service peers =>
      exact holds_editMembers removePeers_reportsChange rfl
        (fun _ p hp => .inl (mem_removePeers.mp hp).1) h
  | setMembers service peers =>
      exact holds_editMembers replacePeers_reportsChange rfl
        (fun _ p hp => (replacePeers_staysWithin _ _ p hp).imp_right fun h => ⟨h, h⟩) h
  | bumpIndexVersion =>
      simp only [exec, bumpIndexVersion, snapshot_save] at h
      cases h with
      | live hlive => exact .inl (.live hlive)
      | tombstone htomb => exact .inl (.tombstone htomb)
  | applyReplicated u =>
      rw [snapshot_exec_received rfl] at h
      obtain hold | ⟨v, hv, hvalid, hname, rfl⟩ := holds_mergeEntries h
      · exact .inl hold
      · exact .inr (.received rfl hv hvalid hname)
  | mergeSnapshot snap =>
      rw [snapshot_exec_received rfl] at h
      obtain hold | ⟨v, hv, hvalid, hname, rfl⟩ := holds_mergeEntries h
      · exact .inl hold
      · exact .inr (.received rfl hv hvalid hname)

/-! ## The index version -/

theorem indexVersion_mergeEntries_lt {us : List Update} {changed : Bool} {bound : Nat}
    (hs : s.indexVersion < bound)
    (hus : ∀ u ∈ us, u.Valid prim → u.indexVersion < bound) :
    (mergeEntries prim s changed us).1.indexVersion < bound := by
  induction us generalizing s changed with
  | nil => exact hs
  | cons u us ih =>
      rw [mergeEntries]
      split
      · exact hs
      · rename_i w flag hmerge
        obtain ⟨hu, hrest⟩ := List.forall_mem_cons.mp hus
        have hvalid : u.Valid prim := (mergeEntry_cases hmerge).1
        have hw : w.indexVersion < bound := by
          rw [indexVersion_of_mergeEntry hmerge]
          exact max_lt hs (hu hvalid)
        exact ih hw hrest

theorem indexVersion_exec_lt (hs : s.indexVersion < 2 ^ 64)
    (hop : ∀ us, op.received = some us → ∀ u ∈ us, u.Valid prim → u.indexVersion < 2 ^ 64) :
    (s.exec prim io op).1.snapshot.indexVersion < 2 ^ 64 := by
  have hsucc : succ64 s.indexVersion < 2 ^ 64 := Nat.mod_lt _ (by norm_num)
  obtain ⟨service, hservice⟩ | rfl | ⟨us, hus⟩ := op.kinds
  · obtain hsame | hwrote := wrote_of_exec prim io s hservice
    · rw [hsame]
      exact hs
    · cases hwrote with
      | created _ _ _ hindex => exact hindex ▸ hsucc
      | deleted _ _ _ hindex => exact hindex ▸ hsucc
      | edited _ _ _ _ hindex => exact hindex ▸ hsucc
  · simp only [exec, bumpIndexVersion, snapshot_save]
    exact hsucc
  · rw [snapshot_exec_received hus]
    exact indexVersion_mergeEntries_lt hs (hop us hus)

/-! ## What a local call answers -/

def Reported (op : Op) (reply : Reply) (snap : StoreSnapshot) : Prop :=
  ∀ service, op.service = some service → ∃ e, snap.Holds service e ∧ reply = .version e.version ∧
    (op = .deleteService service ↔ ∃ version, e = .tombstone version)

theorem services_save : (s.save io).1.services = s.services :=
  congrArg StoreSnapshot.services snapshot_save

theorem value_of_saveThen {α : Type} {value result : α}
    (h : s.saveThen io value = (t, .ok result)) : result = value := by
  unfold saveThen at h
  split at h
  · cases h
  · exact (Except.ok.inj (Prod.mk.inj h).2).symm

theorem reported_of_editMembers {edit : PeerSet → List String → PeerSet × Bool}
    {peers : List String} {version : Nat} (hop : op.edited = some service)
    (h : s.editMembers prim io edit service peers = (t, .ok version)) :
    Reported op (.version version) t.snapshot := by
  have hservice : op.service = some service ∧ op ≠ .deleteService service := by
    cases op <;> first | exact ⟨hop, by simp⟩ | cases hop
  have hstate : ∃ state, t.services[service]? = some state ∧ state.version = version := by
    unfold editMembers at h
    split at h
    · cases h
    split at h
    · cases h
    rename_i state hlive
    simp only [finishChange, ExtTreeMap.getElem?_insert_self] at h
    split at h
    · obtain ⟨rfl, hversion⟩ := Prod.mk.inj h
      exact ⟨_, ExtTreeMap.getElem?_insert_self, Except.ok.inj hversion⟩
    · obtain ⟨rfl, hversion⟩ := Prod.mk.inj h
      refine ⟨⟨succ64 state.version, (edit state.members peers).1⟩, ?_, Except.ok.inj hversion⟩
      rw [services_save]
      exact ExtTreeMap.getElem?_insert_self
  obtain ⟨state, hlive, rfl⟩ := hstate
  intro name hname
  obtain rfl := Option.some.inj (hservice.1.symm.trans hname)
  exact ⟨_, .live hlive, rfl, iff_of_false hservice.2 (by simp)⟩

theorem reported_of_exec {reply : Reply} (h : s.exec prim io op = (t, .ok reply)) :
    Reported op reply t.snapshot := by
  cases op with
  | createService service peers =>
      obtain ⟨version, hout⟩ := ok_of_map_eq_ok h
      have hreply : reply = .version version := by
        simp only [exec, hout] at h
        exact (Except.ok.inj (Prod.mk.inj h).2).symm
      rw [hreply]
      unfold createService at hout
      split at hout
      · cases hout
      split at hout
      · cases hout
      split at hout
      · cases hout
      have hsnap := congrArg (fun out => out.1.snapshot) hout
      rw [snapshot_saveThen] at hsnap
      have hversion : version = 1 := value_of_saveThen hout
      intro name hname
      obtain rfl := Option.some.inj hname
      have hlive : t.snapshot.services[service]? = some ⟨1, collectPeers peers⟩ := by
        rw [← hsnap]
        exact ExtTreeMap.getElem?_insert_self
      exact ⟨_, .live hlive, by rw [hversion]; rfl, iff_of_false (by simp) (by simp)⟩
  | deleteService service =>
      obtain ⟨version, hout⟩ := ok_of_map_eq_ok h
      have hreply : reply = .version version := by
        simp only [exec, hout] at h
        exact (Except.ok.inj (Prod.mk.inj h).2).symm
      rw [hreply]
      unfold deleteService at hout
      split at hout
      · cases hout
      rename_i removed hlive
      have hsnap := congrArg (fun out => out.1.snapshot) hout
      rw [snapshot_saveThen] at hsnap
      have hversion : version = succ64 removed.version := value_of_saveThen hout
      intro name hname
      obtain rfl := Option.some.inj hname
      have htomb : t.snapshot.tombstones[service]? = some version := by
        rw [← hsnap, hversion]
        exact ExtTreeMap.getElem?_insert_self
      exact ⟨_, .tombstone htomb, rfl, iff_of_true rfl ⟨version, rfl⟩⟩
  | addMembers service peers | removeMembers service peers | setMembers service peers =>
      obtain ⟨version, hout⟩ := ok_of_map_eq_ok h
      have hreply : reply = .version version := by
        simp only [exec, hout] at h
        exact (Except.ok.inj (Prod.mk.inj h).2).symm
      rw [hreply]
      exact reported_of_editMembers rfl hout
  | bumpIndexVersion | applyReplicated u | mergeSnapshot snap =>
      intro name hname
      cases hname

/-! ## Calls that fail -/

theorem separated_mergeEntries {us : List Update} {changed : Bool} (hs : s.Separated) :
    (mergeEntries prim s changed us).1.Separated := by
  induction us generalizing s changed with
  | nil => exact hs
  | cons u us ih =>
      rw [mergeEntries]
      split
      · exact hs
      · rename_i w flag hmerge
        obtain ⟨w', hw', hmerged⟩ := mergeEntry_spec hs (mergeEntry_cases hmerge).1
        obtain ⟨rfl, -⟩ := Prod.mk.inj (Except.ok.inj (hw'.symm.trans hmerge))
        exact ih hmerged.separated

theorem snapshot_editMembers_io {edit : PeerSet → List String → PeerSet × Bool}
    {peers : List String} (io io' : SaveIo) :
    (s.editMembers prim io edit service peers).1.snapshot =
      (s.editMembers prim io' edit service peers).1.snapshot := by
  unfold editMembers
  split
  · rfl
  split
  · rfl
  · simp only [finishChange]
    split
    · rfl
    · split
      · rfl
      · rw [snapshot_save, snapshot_save]

theorem snapshot_exec_io (hop : op.received = none) (io io' : SaveIo) :
    (s.exec prim io op).1.snapshot = (s.exec prim io' op).1.snapshot := by
  cases op with
  | createService service peers =>
      simp only [exec, createService]
      split
      · rfl
      split
      · rfl
      split
      · rfl
      · rw [snapshot_saveThen, snapshot_saveThen]
  | deleteService service =>
      simp only [exec, deleteService]
      split
      · rfl
      · rw [snapshot_saveThen, snapshot_saveThen]
  | addMembers | removeMembers | setMembers => exact snapshot_editMembers_io io io'
  | bumpIndexVersion => simp only [exec, bumpIndexVersion, snapshot_save]
  | applyReplicated | mergeSnapshot => cases hop

theorem change_of_local_exec (hop : op.received = none) :
    Change prim s op (s.exec prim io op).1.snapshot := by
  rw [snapshot_exec_io hop io fun _ => none]
  have hends := ends_exec prim (fun _ => none) s op
  generalize hout : s.exec prim (fun _ => none) op = out at hends
  cases hends with
  | untouched => exact .kept
  | saved => exact change_of_exec hout
  | swallowed _ hio => cases hio
  | reported _ hio => cases hio
  | stopped hmerge =>
      subst hmerge
      cases hop

theorem sound_exec (hs : Sound prim s) (hop : NoRevival s op)
    (hbounded : (s.exec prim io op).1.Bounded) :
    Sound prim (s.exec prim io op).1 ∧
      s.snapshot.Climbs prim (s.exec prim io op).1.snapshot := by
  cases hreceived : op.received with
  | none =>
      have hchange : Change prim s op (s.exec prim io op).1.snapshot :=
        change_of_local_exec hreceived
      have hclimb := climbs_of_change hs.separated hs.bounded hop hchange
      exact ⟨⟨admissible_of_change hs.admissible hs.bounded hchange, hclimb.1, hbounded⟩, hclimb.2⟩
  | some us =>
      have hsnap : (s.exec prim io op).1.snapshot = (mergeEntries prim s false us).1.snapshot :=
        snapshot_exec_received hreceived
      refine ⟨⟨?_, ?_, hbounded⟩, ?_⟩
      · change (s.exec prim io op).1.snapshot.Admissible prim
        rw [hsnap]
        exact admissible_mergeEntries us false hs.admissible
      · change (s.exec prim io op).1.snapshot.Separated
        rw [hsnap]
        exact separated_mergeEntries hs.separated
      · rw [hsnap]
        exact climbs_of_mergeEntries rfl

theorem entry_of_merge {other : Store} {reply : Reply} (hs : Sound prim s)
    (hother : Sound prim other)
    (h : s.exec prim io (.mergeSnapshot other.snapshot) = (t, .ok reply)) (name : String) :
    t.entry name = Lww.join (Entry.rank prim) (s.entry name) (other.entry name) := by
  obtain ⟨flag, hout⟩ := ok_of_map_eq_ok h
  obtain ⟨w, hmerge, hsnap⟩ := mergeEntries_of_mergeSnapshot hout
  obtain ⟨w', flag', hw', hmerged⟩ :=
    mergeEntries_spec false hs.separated (valid_of_mergeEntries hmerge)
  obtain ⟨rfl, -⟩ := Prod.mk.inj (hw'.symm.trans hmerge)
  exact entry_of_merged_updates hs.separated hother.separated
    (hmerged.of_snapshot_eq hsnap.symm) name

end Store

end NexusAuth
