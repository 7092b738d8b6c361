import NexusAuth.Store.Proofs.Changes

/-!
# What a call leaves on disk

Every call attempts at most one write of the state file, after it has changed the state in
memory.  `Ends` lists how a call can end: nothing touched, the new state written, the
write failed and the failure reported or swallowed, or a merge stopped at an invalid
entry.  As long as no write fails and no merge stops halfway, memory and file agree after
every call, so a restart finds exactly what the callers were told.
-/

namespace NexusAuth

open Std (ExtTreeMap ExtTreeSet)
open NexusAuth.Authority NexusAuth.Lib NexusAuth.Lib.OrderedMap NexusAuth.Lib.Words

instance decidableValid (prim : Primitives) (u : Update) : Decidable (u.Valid prim) :=
  inferInstanceAs (Decidable (isValidServiceName u.service = true ∧
    (u.deleted = false → ∀ p ∈ u.members, isValidPeerId prim p = true)))

/-- The entries of a snapshot before the first one that `merge_service` refuses. -/
def StoreSnapshot.accepted (prim : Primitives) (snap : StoreSnapshot) : List Update :=
  snap.updates.takeWhile fun u => u.Valid prim

namespace Store

instance decidableAccepts (prim : Primitives) (s : Store) (u : Update) :
    Decidable (s.Accepts prim u) :=
  inferInstanceAs (Decidable (if u.deleted then
    (s.services[u.service]?.map ServiceState.version).getD 0 ≤ u.version ∧
      s.tombstones[u.service]?.getD 0 ≤ u.version ∧
      (s.services.contains u.service = true ∨ s.tombstones[u.service]?.getD 0 < u.version)
  else
    s.tombstones[u.service]?.getD 0 < u.version ∧
      (s.services[u.service]?.map ServiceState.version).getD 0 ≤ u.version ∧
      ∀ state ∈ s.services[u.service]?, u.version = state.version →
        membersHash prim state.members < membersHash prim (collectPeers u.members)))

def News (prim : Primitives) (s : Store) (u : Update) : Prop :=
  s.Accepts prim u ∨ s.indexVersion < u.indexVersion

instance decidableNews (prim : Primitives) (s : Store) (u : Update) :
    Decidable (s.News prim u) :=
  inferInstanceAs (Decidable (s.Accepts prim u ∨ s.indexVersion < u.indexVersion))

variable {prim : Primitives} {io : SaveIo} {s t : Store}

/-! ## How a call ends -/

/-- The state a call has built in memory when it attempts its write. -/
inductive Next (prim : Primitives) (s : Store) : Op → StoreSnapshot → Prop
  | raised {op : Op} {snap : StoreSnapshot} (hnetwork : snap.network = s.network)
      (hindex : snap.indexVersion = succ64 s.indexVersion) : Next prim s op snap
  | replicated {u : Update} {t : Store} (h : mergeEntries prim s false [u] = (t, .ok true)) :
      Next prim s (.applyReplicated u) t.snapshot
  | synced {snap : StoreSnapshot} {t : Store}
      (h : mergeEntries prim s false snap.updates = (t, .ok true)) :
      Next prim s (.mergeSnapshot snap) t.snapshot

inductive Ends (prim : Primitives) (io : SaveIo) (s : Store) (op : Op) :
    Store × Except StoreError Reply → Prop
  | untouched {result : Except StoreError Reply} : Ends prim io s op (s, result)
  | saved {snap : StoreSnapshot} {reply : Reply} (h : Next prim s op snap)
      (hio : io snap = none) : Ends prim io s op (⟨snap, some snap⟩, .ok reply)
  | swallowed {snap : StoreSnapshot} {reply : Reply} {e : StoreError} (h : Next prim s op snap)
      (hio : io snap = some e) : Ends prim io s op (⟨snap, s.file⟩, .ok reply)
  | reported {snap : StoreSnapshot} {e : StoreError} (h : Next prim s op snap)
      (hio : io snap = some e) : Ends prim io s op (⟨snap, s.file⟩, .error e)
  | stopped {snap : StoreSnapshot} {t : Store} {e : StoreError} (hop : op = .mergeSnapshot snap)
      (h : mergeEntries prim s false snap.updates = (t, .error e)) :
      Ends prim io s op (t, .error e)

theorem ends_of_saveThen {α : Type} {op : Op} {value : α} {reply : α → Reply}
    (h : Next prim s op t.snapshot) (hfile : t.file = s.file) :
    Ends prim io s op
      ((t.saveThen io value).1, (t.saveThen io value).2.map reply) := by
  cases hio : io t.snapshot with
  | none =>
      rw [saveThen_of_ok hio]
      exact .saved h hio
  | some e =>
      have hout : t.saveThen io value = (⟨t.snapshot, s.file⟩, .error e) := by
        rw [← hfile]
        simp only [saveThen, save, hio]
        rfl
      rw [hout]
      exact .reported h hio

theorem ends_of_save {op : Op} {reply : Reply} (h : Next prim s op t.snapshot)
    (hfile : t.file = s.file) : Ends prim io s op ((t.save io).1, .ok reply) := by
  cases hio : io t.snapshot with
  | none =>
      rw [save_of_ok hio]
      exact .saved h hio
  | some e =>
      have hout : (t.save io).1 = ⟨t.snapshot, s.file⟩ := by
        rw [← hfile]
        simp only [save, hio]
        rfl
      rw [hout]
      exact .swallowed h hio

theorem ends_createService {service : String} {peers : List String} :
    Ends prim io s (.createService service peers)
      (s.exec prim io (.createService service peers)) := by
  simp only [exec, createService]
  split
  · exact .untouched
  · split
    · exact .untouched
    · split
      · exact .untouched
      · exact ends_of_saveThen (.raised rfl rfl) rfl

theorem ends_deleteService {service : String} :
    Ends prim io s (.deleteService service) (s.exec prim io (.deleteService service)) := by
  simp only [exec, deleteService]
  split
  · exact .untouched
  · exact ends_of_saveThen (.raised rfl rfl) rfl

theorem ends_editMembers {edit : PeerSet → List String → PeerSet × Bool} {op : Op}
    {service : String} {peers : List String} (hreport : ReportsChange edit)
    (hop : s.exec prim io op = ((s.editMembers prim io edit service peers).1,
      (s.editMembers prim io edit service peers).2.map .version)) :
    Ends prim io s op (s.exec prim io op) := by
  rw [hop]
  unfold editMembers
  split
  · exact .untouched
  · split
    · exact .untouched
    · rename_i state hlive
      simp only [finishChange, ExtTreeMap.getElem?_insert_self]
      by_cases hchanged : (edit state.members peers).2 = true
      · simp only [hchanged, Bool.not_true, Bool.false_eq_true, if_false]
        exact ends_of_save (.raised rfl rfl) rfl
      · have hsame : (edit state.members peers).1 = state.members := by
          by_contra hne
          exact hchanged ((hreport _ _).mpr hne)
        rw [Bool.not_eq_true] at hchanged
        simp only [hchanged, Bool.not_false, if_true, hsame, insert_eq_self hlive]
        exact .untouched

/-! ## Merges -/

theorem eq_of_mergeEntry_false {u : Update} (h : s.mergeEntry prim u = .ok (t, false)) :
    t = s := by
  obtain ⟨hu, -⟩ := mergeEntry_cases h
  by_cases hacc : s.Accepts prim u
  · rw [mergeEntry_of_mergeService (mergeService_of_accepts hu hacc)] at h
    simp at h
  · rw [mergeEntry_of_mergeService (mergeService_of_not_accepts hu hacc)] at h
    simp only [Bool.false_or, Except.ok.injEq, Prod.mk.injEq, decide_eq_false_iff_not] at h
    rw [← h.1, raiseIndex, max_eq_left (not_lt.mp h.2)]

theorem eq_of_mergeEntries_false {us : List Update} {changed : Bool}
    (h : mergeEntries prim s changed us = (t, .ok false)) : t = s ∧ changed = false := by
  induction us generalizing s changed with
  | nil =>
      simp only [mergeEntries, Prod.mk.injEq, Except.ok.injEq] at h
      exact ⟨h.1.symm, h.2⟩
  | cons u us ih =>
      rw [mergeEntries] at h
      split at h
      · simp at h
      · rename_i w flag hmerge
        obtain ⟨hw, hflag⟩ := ih h
        rw [Bool.or_eq_false_iff] at hflag
        rw [hflag.2] at hmerge
        exact ⟨hw.trans (eq_of_mergeEntry_false hmerge), hflag.1⟩

theorem file_place {name : String} {e : Entry} : (s.place name e).file = s.file := by
  cases e <;> rfl

theorem network_place {name : String} {e : Entry} : (s.place name e).network = s.network := by
  cases e <;> rfl

theorem fields_of_mergeEntries {us : List Update} {changed : Bool}
    {result : Except StoreError Bool} (h : mergeEntries prim s changed us = (t, result)) :
    t.file = s.file ∧ t.network = s.network := by
  induction us generalizing s changed with
  | nil =>
      obtain rfl := congrArg Prod.fst h
      exact ⟨rfl, rfl⟩
  | cons u us ih =>
      rw [mergeEntries] at h
      split at h
      · obtain rfl := congrArg Prod.fst h
        exact ⟨rfl, rfl⟩
      · rename_i w flag hmerge
        obtain ⟨hfile, hnetwork⟩ := ih h
        rw [hfile, hnetwork]
        obtain ⟨-, rfl | ⟨-, rfl⟩⟩ := mergeEntry_cases hmerge
        · exact ⟨rfl, rfl⟩
        · exact ⟨file_place, network_place⟩

theorem mergeEntry_of_not_news {u : Update} (hu : u.Valid prim) (h : ¬s.News prim u) :
    s.mergeEntry prim u = .ok (s, false) := by
  obtain ⟨hold, hindex⟩ := not_or.mp h
  have hraise : s.raiseIndex u.indexVersion = s := by
    simp only [raiseIndex, max_eq_left (not_lt.mp hindex)]
  rw [mergeEntry_of_mergeService (mergeService_of_not_accepts hu hold), hraise,
    decide_eq_false hindex, Bool.or_false]

theorem mergeEntries_of_not_news {us : List Update} (changed : Bool) (hus : ∀ u ∈ us, u.Valid prim)
    (h : ∀ u ∈ us, ¬s.News prim u) : mergeEntries prim s changed us = (s, .ok changed) :=
  mergeEntries_of_not_accepts changed hus (fun u hu => (not_or.mp (h u hu)).1)
    fun u hu => not_lt.mp (not_or.mp (h u hu)).2

theorem not_news_of_mergeEntries {us : List Update} {changed : Bool}
    (h : mergeEntries prim s changed us = (t, .ok false)) : ∀ u ∈ us, ¬s.News prim u := by
  induction us generalizing changed with
  | nil => simp
  | cons u us ih =>
      rw [mergeEntries] at h
      split at h
      · simp at h
      · rename_i w flag hmerge
        obtain ⟨-, hflag⟩ := eq_of_mergeEntries_false h
        obtain rfl : flag = false := (Bool.or_eq_false_iff.mp hflag).2
        obtain rfl := eq_of_mergeEntry_false hmerge
        refine List.forall_mem_cons.mpr ⟨?_, ih h⟩
        obtain ⟨hu, -⟩ := mergeEntry_cases hmerge
        intro hnews
        by_cases hacc : w.Accepts prim u
        · rw [mergeEntry_of_mergeService (mergeService_of_accepts hu hacc)] at hmerge
          simp at hmerge
        · have hlt := hnews.resolve_left hacc
          rw [mergeEntry_of_mergeService (mergeService_of_not_accepts hu hacc)] at hmerge
          simp [hlt] at hmerge

theorem mergeEntries_of_valid {us : List Update} (s : Store) (changed : Bool)
    (hus : ∀ u ∈ us, u.Valid prim) :
    ∃ t flag, mergeEntries prim s changed us = (t, .ok flag) := by
  induction us generalizing s changed with
  | nil => exact ⟨s, changed, rfl⟩
  | cons u us ih =>
      obtain ⟨hu, hrest⟩ := List.forall_mem_cons.mp hus
      obtain ⟨w, flag, hmerge⟩ : ∃ w flag, s.mergeEntry prim u = .ok (w, flag) := by
        by_cases hacc : s.Accepts prim u
        · exact ⟨_, _, mergeEntry_of_mergeService (mergeService_of_accepts hu hacc)⟩
        · exact ⟨_, _, mergeEntry_of_mergeService (mergeService_of_not_accepts hu hacc)⟩
      obtain ⟨t, result, ht⟩ := ih w (changed || flag) hrest
      exact ⟨t, result, by rw [mergeEntries, hmerge]; exact ht⟩

theorem mergeEntries_append {us vs : List Update} {changed flag : Bool}
    (h : mergeEntries prim s changed us = (t, .ok flag)) :
    mergeEntries prim s changed (us ++ vs) = mergeEntries prim t flag vs := by
  induction us generalizing s changed with
  | nil =>
      obtain ⟨rfl, hflag⟩ := Prod.mk.inj h
      rw [List.nil_append, Except.ok.inj hflag]
  | cons u us ih =>
      rw [mergeEntries] at h
      rw [List.cons_append, mergeEntries]
      cases hmerge : s.mergeEntry prim u with
      | error e => simp [hmerge] at h
      | ok merged =>
          rw [hmerge] at h
          exact ih h

theorem updates_split {snap : StoreSnapshot} (h : ∃ u ∈ snap.updates, ¬u.Valid prim) :
    ∃ bad rest, snap.updates = snap.accepted prim ++ bad :: rest ∧ ¬bad.Valid prim := by
  obtain ⟨u, hu, hbad⟩ := h
  have hsplit := List.takeWhile_append_dropWhile (p := fun u => decide (u.Valid prim))
    (l := snap.updates)
  cases hrest : snap.updates.dropWhile fun u => decide (u.Valid prim) with
  | nil =>
      rw [List.dropWhile_eq_nil_iff] at hrest
      exact absurd (of_decide_eq_true (hrest u hu)) hbad
  | cons bad rest =>
      refine ⟨bad, rest, ?_, ?_⟩
      · rw [StoreSnapshot.accepted, ← hrest, hsplit]
      · have hhead := List.head_dropWhile_not (fun u => decide (u.Valid prim))
          (l := snap.updates) (by rw [hrest]; simp)
        simpa [hrest] using hhead

theorem valid_of_mem_accepted {snap : StoreSnapshot} {u : Update} (h : u ∈ snap.accepted prim) :
    u.Valid prim := by
  simpa using List.mem_takeWhile_imp h

/-- A refused snapshot leaves the store that its entries before the refused one make. -/
theorem mergeEntries_of_refused {snap : StoreSnapshot} (s : Store)
    (h : ∃ u ∈ snap.updates, ¬u.Valid prim) :
    ∃ t flag e, mergeEntries prim s false (snap.accepted prim) = (t, .ok flag) ∧
      mergeEntries prim s false snap.updates = (t, .error e) := by
  obtain ⟨bad, rest, hsplit, hinvalid⟩ := updates_split h
  obtain ⟨t, flag, hmerged⟩ :=
    mergeEntries_of_valid s false fun u (hu : u ∈ snap.accepted prim) => valid_of_mem_accepted hu
  obtain ⟨e, he⟩ : ∃ e, t.mergeService prim bad = .error e := mergeService_of_not_valid hinvalid
  refine ⟨t, flag, e, hmerged, ?_⟩
  rw [hsplit, mergeEntries_append hmerged]
  simp only [mergeEntries, mergeEntry, he]

theorem ends_applyReplicated {u : Update} :
    Ends prim io s (.applyReplicated u) (s.exec prim io (.applyReplicated u)) := by
  simp only [exec, applyReplicated]
  split
  · exact .untouched
  · rename_i w changed hmerge
    have hone : mergeEntries prim s false [u] = (w, .ok changed) := by
      simp [mergeEntries, hmerge]
    cases changed with
    | false =>
        obtain rfl := eq_of_mergeEntry_false hmerge
        exact .untouched
    | true =>
        exact ends_of_saveThen (.replicated hone) (fields_of_mergeEntries hone).1

theorem ends_mergeSnapshot {snap : StoreSnapshot} :
    Ends prim io s (.mergeSnapshot snap) (s.exec prim io (.mergeSnapshot snap)) := by
  simp only [exec, mergeSnapshot]
  split
  · rename_i w e hmerge
    exact .stopped rfl hmerge
  · rename_i w changed hmerge
    cases changed with
    | false =>
        obtain rfl := (eq_of_mergeEntries_false hmerge).1
        exact .untouched
    | true =>
        exact ends_of_saveThen (.synced hmerge) (fields_of_mergeEntries hmerge).1

theorem ends_exec (prim : Primitives) (io : SaveIo) (s : Store) (op : Op) :
    Ends prim io s op (s.exec prim io op) := by
  cases op with
  | createService service peers => exact ends_createService
  | deleteService service => exact ends_deleteService
  | addMembers service peers => exact ends_editMembers insertPeers_reportsChange rfl
  | removeMembers service peers => exact ends_editMembers removePeers_reportsChange rfl
  | setMembers service peers => exact ends_editMembers replacePeers_reportsChange rfl
  | bumpIndexVersion => exact ends_of_save (.raised rfl rfl) rfl
  | applyReplicated u => exact ends_applyReplicated
  | mergeSnapshot snap => exact ends_mergeSnapshot

theorem network_of_next {op : Op} {snap : StoreSnapshot} (h : Next prim s op snap) :
    snap.network = s.network := by
  cases h with
  | raised hnetwork hindex => exact hnetwork
  | replicated hmerge => exact (fields_of_mergeEntries hmerge).2
  | synced hmerge => exact (fields_of_mergeEntries hmerge).2

/-! ## Runs and restarts -/

/-- What a restart loads: `load_or_create` on the file the store has left. -/
def reload (prim : Primitives) (io : SaveIo) (network : String)
    (initial : BTreeMap String (List String)) (s : Store) : Except StoreError Store :=
  let read := match s.file with
    | some file => FileRead.found (.ok file)
    | none => .missing
  loadOrCreate prim io read network initial

def storeAt (prim : Primitives) (start : Store) (calls : List (SaveIo × Op)) (k : Nat) : Store :=
  Runs.stateAt (fun s call => (s.exec prim call.1 call.2).1) start calls k

/-- The call changes the state, and so attempts a write. -/
def Attempts (prim : Primitives) (s : Store) : Op → Prop
  | .createService service peers =>
      isValidServiceName service = true ∧ (∀ p ∈ peers, isValidPeerId prim p = true) ∧
        s.services[service]? = none
  | .deleteService service => s.services[service]?.isSome = true
  | .addMembers service peers =>
      (∀ p ∈ peers, isValidPeerId prim p = true) ∧
        ∃ state ∈ s.services[service]?, ∃ p ∈ peers, p ∉ state.members
  | .removeMembers service peers =>
      (∀ p ∈ peers, isValidPeerId prim p = true) ∧
        ∃ state ∈ s.services[service]?, ∃ p ∈ peers, p ∈ state.members
  | .setMembers service peers =>
      (∀ p ∈ peers, isValidPeerId prim p = true) ∧
        ∃ state ∈ s.services[service]?, state.members ≠ collectPeers peers
  | .bumpIndexVersion => True
  | .applyReplicated u => u.Valid prim ∧ s.News prim u
  | .mergeSnapshot snap => (∀ u ∈ snap.updates, u.Valid prim) ∧ ∃ u ∈ snap.updates, s.News prim u

def WritesSucceed (prim : Primitives) (io : SaveIo) (s : Store) (op : Op) : Prop :=
  s.Attempts prim op → ∀ snap, io snap = none

/-- The entries of a snapshot before an invalid one bring nothing. -/
def MergesWhole (prim : Primitives) (s : Store) : Op → Prop
  | .mergeSnapshot snap =>
      (∃ u ∈ snap.updates, ¬u.Valid prim) → ∀ u ∈ snap.accepted prim, ¬s.News prim u
  | _ => True

theorem exists_new_of_insertPeers {members : PeerSet} {peers : List String}
    (h : (insertPeers members peers).2 = true) : ∃ p ∈ peers, p ∉ members := by
  by_contra hnone
  simp only [not_exists, not_and, not_not] at hnone
  refine (insertPeers_reportsChange members peers).mp h (ExtTreeSet.ext_mem fun p => ?_)
  rw [mem_insertPeers]
  exact or_iff_left_of_imp (hnone p)

theorem exists_old_of_removePeers {members : PeerSet} {peers : List String}
    (h : (removePeers members peers).2 = true) : ∃ p ∈ peers, p ∈ members := by
  by_contra hnone
  simp only [not_exists, not_and] at hnone
  refine (removePeers_reportsChange members peers).mp h (ExtTreeSet.ext_mem fun p => ?_)
  rw [mem_removePeers]
  exact and_iff_left_of_imp fun hp hmem => hnone p hmem hp

theorem editMembers_io {edit : PeerSet → List String → PeerSet × Bool} {service : String}
    {peers : List String} (io' : SaveIo)
    (h : (∀ p ∈ peers, isValidPeerId prim p = true) → ∀ state ∈ s.services[service]?,
      (edit state.members peers).2 ≠ true) :
    s.editMembers prim io edit service peers = s.editMembers prim io' edit service peers := by
  unfold editMembers
  split
  · rfl
  · rename_i hpeers
    split
    · rfl
    · rename_i state hlive
      have hsame := h (validatePeers_eq_ok_iff.mp hpeers) state hlive
      simp only [finishChange, ExtTreeMap.getElem?_insert_self, Bool.not_eq_true] at hsame ⊢
      simp only [hsame, Bool.not_false, if_true]

theorem exec_io {op : Op} (io io' : SaveIo) (h : ¬s.Attempts prim op) :
    s.exec prim io op = s.exec prim io' op := by
  cases op with
  | createService service peers =>
      simp only [exec, createService]
      split
      · rfl
      · rename_i hname
        split
        · rfl
        · rename_i hpeers
          split
          · rfl
          · rename_i hfresh
            refine absurd ⟨by simpa using hname, validatePeers_eq_ok_iff.mp hpeers, ?_⟩ h
            rw [ExtTreeMap.contains_eq_isSome_getElem?] at hfresh
            simpa using hfresh
  | deleteService service =>
      simp only [exec, deleteService]
      split
      · rfl
      · rename_i removed hlive
        exact absurd (by rw [Attempts, hlive]; rfl) h
  | addMembers service peers =>
      have hsame : s.editMembers prim io insertPeers service peers = _ :=
        editMembers_io io' fun hpeers state hstate hflag =>
          h ⟨hpeers, state, hstate, exists_new_of_insertPeers hflag⟩
      simp only [exec, addMembers, hsame]
  | removeMembers service peers =>
      have hsame : s.editMembers prim io removePeers service peers = _ :=
        editMembers_io io' fun hpeers state hstate hflag =>
          h ⟨hpeers, state, hstate, exists_old_of_removePeers hflag⟩
      simp only [exec, removeMembers, hsame]
  | setMembers service peers =>
      have hsame : s.editMembers prim io replacePeers service peers = _ :=
        editMembers_io io' fun hpeers state hstate hflag =>
          h ⟨hpeers, state, hstate, of_decide_eq_true hflag⟩
      simp only [exec, setMembers, hsame]
  | bumpIndexVersion => exact absurd trivial h
  | applyReplicated u =>
      simp only [exec, applyReplicated]
      split
      · rfl
      · rename_i w changed hmerge
        obtain ⟨hu, -⟩ := mergeEntry_cases hmerge
        have hold : ¬s.News prim u := fun hnews => h ⟨hu, hnews⟩
        rw [mergeEntry_of_not_news hu hold] at hmerge
        obtain rfl : false = changed := (Prod.mk.inj (Except.ok.inj hmerge)).2
        rfl
  | mergeSnapshot snap =>
      simp only [exec, mergeSnapshot]
      split
      · rfl
      · rename_i w changed hmerge
        have hvalid := valid_of_mergeEntries hmerge
        have hold : ∀ u ∈ snap.updates, ¬s.News prim u := fun u hu hnews => h ⟨hvalid, u, hu, hnews⟩
        rw [mergeEntries_of_not_news false hvalid hold] at hmerge
        obtain rfl : false = changed := Except.ok.inj (Prod.mk.inj hmerge).2
        rfl

theorem exec_of_writesSucceed {op : Op} (h : WritesSucceed prim io s op) :
    s.exec prim io op = s.exec prim saves op := by
  by_cases hattempts : s.Attempts prim op
  · rw [show io = saves from funext (h hattempts)]
  · exact exec_io io saves hattempts

structure Settled (network : String) (s : Store) : Prop where
  file : s.file = some s.snapshot
  network : s.network = network

variable {network : String}

theorem settled_of_load {read : FileRead} {initial : BTreeMap String (List String)}
    (h : loadOrCreate prim io read network initial = .ok s) : Settled network s := by
  unfold loadOrCreate at h
  split at h
  · simp at h
  · split at h
    · simp at h
    · rename_i file hnetwork
      obtain rfl := Except.ok.inj h
      have hname : file.network = network := by simpa using hnetwork
      exact ⟨by rw [snapshot, ← hname], rfl⟩
  · split at h
    · simp at h
    · rename_i services hseed
      cases hio : io ⟨network, 1, services, ∅⟩ with
      | none =>
          simp only [save, snapshot, hio, Except.ok.injEq] at h
          subst h
          exact ⟨rfl, rfl⟩
      | some e => simp [save, snapshot, hio] at h
  · simp at h

theorem reload_of_settled (h : Settled network s) (io : SaveIo)
    (initial : BTreeMap String (List String)) : s.reload prim io network initial = .ok s := by
  have hsame : (s.snapshot.network != s.network) = false := by
    simp [snapshot]
  simp only [reload, h.file, loadOrCreate, ← h.network, hsame, Bool.false_eq_true, if_false]
  rw [← h.file]
  rfl

theorem settled_exec {op : Op} (hs : Settled network s) (hwrites : WritesSucceed prim io s op)
    (hwhole : MergesWhole prim s op) :
    Settled network (s.exec prim io op).1 ∧
      ∀ e, (s.exec prim io op).2 = .error e → (s.exec prim io op).1 = s := by
  rw [exec_of_writesSucceed hwrites]
  have hends := ends_exec prim saves s op
  generalize s.exec prim saves op = out at hends
  cases hends with
  | untouched => exact ⟨hs, fun _ _ => rfl⟩
  | saved hnext hio => exact ⟨⟨rfl, (network_of_next hnext).trans hs.network⟩, by simp⟩
  | swallowed hnext hio => simp [saves] at hio
  | reported hnext hio => simp [saves] at hio
  | @stopped snap t e hop hmerge =>
      subst hop
      have hbad : ∃ u ∈ snap.updates, ¬u.Valid prim := by
        by_contra hvalid
        simp only [not_exists, not_and, not_not] at hvalid
        obtain ⟨w, flag, hok⟩ := mergeEntries_of_valid s false hvalid
        rw [hok] at hmerge
        cases (Prod.mk.inj hmerge).2
      obtain ⟨w, flag, e', haccepted, hrefused⟩ := mergeEntries_of_refused s hbad
      have hquiet := mergeEntries_of_not_news false (fun u hu => valid_of_mem_accepted hu)
        (hwhole hbad)
      obtain rfl : s = w := (Prod.mk.inj (hquiet.symm.trans haccepted)).1
      obtain rfl : s = t := (Prod.mk.inj (hrefused.symm.trans hmerge)).1
      exact ⟨hs, fun _ _ => rfl⟩

/-- As long as no write fails and no merge stops halfway, every call leaves its result on
disk: a restart right after it loads exactly the store in memory, with every version a
caller was told, and a call that returns an error has changed nothing. -/
theorem calls_durable (prim : Primitives) (network : String) {io : SaveIo} {read : FileRead}
    {initial : BTreeMap String (List String)} {start : Store}
    (hstart : loadOrCreate prim io read network initial = .ok start)
    (calls : List (SaveIo × Op))
    (hclean : ∀ k (hk : k < calls.length),
      WritesSucceed prim calls[k].1 (storeAt prim start calls k) calls[k].2 ∧
        MergesWhole prim (storeAt prim start calls k) calls[k].2) :
    ∀ k (hk : k < calls.length),
      let before := storeAt prim start calls k
      let out := before.exec prim calls[k].1 calls[k].2
      (∀ io' initial', out.1.reload prim io' network initial' = .ok out.1) ∧
        ∀ e, out.2 = .error e → out.1 = before := by
  have hsettled : ∀ k, Settled network (storeAt prim start calls k) := by
    apply Runs.invariant (settled_of_load hstart)
    intro k hk hs
    exact (settled_exec hs (hclean k hk).1 (hclean k hk).2).1
  intro k hk
  obtain ⟨hnext, herror⟩ := settled_exec (hsettled k) (hclean k hk).1 (hclean k hk).2
  exact ⟨reload_of_settled hnext, herror⟩

def fullDisk : SaveIo := fun _ => some (.io "no space left on device")

/-- The second call changes nothing and so does not meet the full disk. -/
def renewalCalls : List (SaveIo × Op) :=
  [(saves, .createService "api" [peerA]), (fullDisk, .addMembers "api" [peerA]),
    (saves, .bumpIndexVersion)]

theorem calls_durable_renewal :
    let final := storeAt samplePrimitives emptyStore renewalCalls 3
    final.indexVersion = 3 ∧ final.reload samplePrimitives saves "myorg" ∅ = .ok final := by
  have hsecond : WritesSucceed samplePrimitives fullDisk
      (storeAt samplePrimitives emptyStore renewalCalls 1) (.addMembers "api" [peerA]) := by
    rintro ⟨-, state, hstate, p, hp, hnew⟩
    have hlive : (storeAt samplePrimitives emptyStore renewalCalls 1).services["api"]? =
        some ⟨1, collectPeers [peerA]⟩ := by decide +kernel
    obtain rfl := Option.some.inj (hlive.symm.trans hstate)
    exact absurd (mem_collectPeers.mpr hp) hnew
  have hfirst : ∀ s op, WritesSucceed samplePrimitives saves s op := fun _ _ _ _ => rfl
  have hstart : loadOrCreate samplePrimitives saves .missing "myorg" ∅ = .ok emptyStore := rfl
  have hdurable := calls_durable samplePrimitives "myorg" hstart renewalCalls (by
      intro k hk
      match k, hk with
      | 0, _ => exact ⟨hfirst _ _, trivial⟩
      | 1, _ => exact ⟨hsecond, trivial⟩
      | 2, _ => exact ⟨hfirst _ _, trivial⟩) 2 (by decide)
  exact ⟨by decide +kernel, hdurable.1 saves ∅⟩

def halfValid : StoreSnapshot :=
  { network := "myorg"
    indexVersion := 5
    services := ((∅ : BTreeMap String ServiceState).insert "api" ⟨1, collectPeers [peerA]⟩).insert
      "web" ⟨1, collectPeers ["nobody"]⟩
    tombstones := ∅ }

/-- With a full disk, a renewal succeeds and a restart goes back to the old index version,
and a creation fails and leaves the service in memory.  A merge that stops at an invalid
entry leaves the entries before it in memory, and a later call reports success on them. -/
theorem failed_writes_lose_versions :
    let renewed := emptyStore.exec samplePrimitives fullDisk .bumpIndexVersion
    let created := emptyStore.exec samplePrimitives fullDisk (.createService "api" [peerA])
    let merged := emptyStore.exec samplePrimitives saves (.mergeSnapshot halfValid)
    let added := merged.1.exec samplePrimitives saves (.addMembers "api" [peerA])
    loadOrCreate samplePrimitives saves .missing "myorg" ∅ = .ok emptyStore ∧
      renewed.2 = .ok (.version 2) ∧
      renewed.1.reload samplePrimitives saves "myorg" ∅ = .ok emptyStore ∧
      created.2 = .error (.io "no space left on device") ∧
      created.1.services ≠ emptyStore.services ∧
      added.2 = .ok (.version 1) ∧
      added.1.reload samplePrimitives saves "myorg" ∅ = .ok emptyStore := by
  decide +kernel

end Store

end NexusAuth
