import NexusAuth.Store.Model
import NexusAuth.Lib.Lww

/-!
# A store is a family of last-writer-wins registers

For each service name a store knows one `Entry`: nothing, a deletion or a member
set.  Entries are ranked by version, then deletion over content, then the hash of
the members; a name the store has never seen ranks as a deletion at version 0,
which is how `merge_service` reads its absence.

The main result is `mergeEntries_spec`: on a store without names that are both
live and deleted, merging a list of updates acts on each register as a list of
offers, and reports exactly whether anything moved.
-/

namespace NexusAuth

open Std (ExtTreeMap ExtTreeSet)
open NexusAuth.Authority NexusAuth.Lib NexusAuth.Lib.OrderedMap NexusAuth.Lib.Words

inductive Entry
  | absent
  | tombstone (version : Nat)
  | live (version : Nat) (members : PeerSet)
deriving DecidableEq

/-- Version first, deletion over content, then the larger member hash. -/
def Entry.rank (prim : Primitives) : Entry → ℕ ×ₗ ℕ ×ₗ List UInt8
  | .absent => toLex (0, toLex (1, []))
  | .tombstone version => toLex (version, toLex (1, []))
  | .live version members => toLex (version, toLex (0, membersHash prim members))

def StoreSnapshot.entry (s : StoreSnapshot) (name : String) : Entry :=
  match s.services[name]? with
  | some state => .live state.version state.members
  | none =>
      match s.tombstones[name]? with
      | some version => .tombstone version
      | none => .absent

/-- No name is both live and deleted, and live versions start at 1. -/
structure StoreSnapshot.Separated (s : StoreSnapshot) : Prop where
  disjoint : ∀ (name : String) (state : ServiceState),
    s.services[name]? = some state → s.tombstones[name]? = none
  live_pos : ∀ (name : String) (state : ServiceState),
    s.services[name]? = some state → 1 ≤ state.version

def Update.entry (u : Update) : Entry :=
  if u.deleted then .tombstone u.version else .live u.version (collectPeers u.members)

/-- The updates `merge_service` does not refuse. -/
def Update.Valid (prim : Primitives) (u : Update) : Prop :=
  isValidServiceName u.service = true ∧
    (u.deleted = false → ∀ p ∈ u.members, isValidPeerId prim p = true)

/-! ## Reading entries -/

section Entries

variable {s : StoreSnapshot} {name : String}

theorem entry_of_live {state : ServiceState} (h : s.services[name]? = some state) :
    s.entry name = .live state.version state.members := by
  simp [StoreSnapshot.entry, h]

theorem entry_of_tombstone {version : Nat} (h : s.services[name]? = none)
    (ht : s.tombstones[name]? = some version) : s.entry name = .tombstone version := by
  simp [StoreSnapshot.entry, h, ht]

theorem entry_of_absent (h : s.services[name]? = none) (ht : s.tombstones[name]? = none) :
    s.entry name = .absent := by
  simp [StoreSnapshot.entry, h, ht]

theorem entry_congr {t : StoreSnapshot} (hs : t.services[name]? = s.services[name]?)
    (ht : t.tombstones[name]? = s.tombstones[name]?) : t.entry name = s.entry name := by
  simp [StoreSnapshot.entry, hs, ht]

theorem services_eq_of_entry {t : StoreSnapshot} (h : ∀ name, s.entry name = t.entry name) :
    s.services = t.services := by
  apply ExtTreeMap.ext_getElem?
  intro name
  have hname := h name
  unfold StoreSnapshot.entry at hname
  cases hs : s.services[name]? with
  | none =>
      cases ht : t.services[name]? with
      | none => rfl
      | some state =>
          rw [hs, ht] at hname
          revert hname
          cases s.tombstones[name]? <;> simp
  | some state =>
      cases ht : t.services[name]? with
      | none =>
          rw [hs, ht] at hname
          revert hname
          cases t.tombstones[name]? <;> simp
      | some state' =>
          rw [hs, ht] at hname
          simp only [Entry.live.injEq] at hname
          obtain ⟨version, members⟩ := state
          obtain ⟨version', members'⟩ := state'
          simp only at hname
          rw [hname.1, hname.2]

theorem tombstones_eq_of_entry {t : StoreSnapshot} (hs : s.Separated) (ht : t.Separated)
    (h : ∀ name, s.entry name = t.entry name) : s.tombstones = t.tombstones := by
  have hservices := services_eq_of_entry h
  apply ExtTreeMap.ext_getElem?
  intro name
  have hname := h name
  cases hlive : s.services[name]? with
  | some state =>
      rw [hs.disjoint name state hlive, ht.disjoint name state (hservices ▸ hlive)]
  | none =>
      have hlive' : t.services[name]? = none := hservices ▸ hlive
      unfold StoreSnapshot.entry at hname
      rw [hlive, hlive'] at hname
      revert hname
      cases s.tombstones[name]? <;> cases t.tombstones[name]? <;> simp

end Entries

/-! ## Comparing ranks -/

section Ranks

variable {prim : Primitives}

theorem rank_live_lt_tombstone {v w : Nat} {m : PeerSet} :
    (Entry.live v m).rank prim < (Entry.tombstone w).rank prim ↔ v ≤ w := by
  simp only [Entry.rank, Prod.Lex.toLex_lt_toLex]
  constructor
  · rintro (h | ⟨h, _⟩) <;> omega
  · intro h
    rcases Nat.lt_or_eq_of_le h with hlt | heq
    · exact Or.inl hlt
    · exact Or.inr ⟨heq, Or.inl Nat.one_pos⟩

theorem rank_tombstone_lt_tombstone {v w : Nat} :
    (Entry.tombstone v).rank prim < (Entry.tombstone w).rank prim ↔ v < w := by
  simp [Entry.rank, Prod.Lex.toLex_lt_toLex]

theorem rank_tombstone_lt_live {v w : Nat} {m : PeerSet} :
    (Entry.tombstone v).rank prim < (Entry.live w m).rank prim ↔ v < w := by
  simp [Entry.rank, Prod.Lex.toLex_lt_toLex]

theorem rank_live_lt_live {v w : Nat} {m n : PeerSet} :
    (Entry.live v m).rank prim < (Entry.live w n).rank prim ↔
      v < w ∨ v = w ∧ membersHash prim m < membersHash prim n := by
  simp [Entry.rank, Prod.Lex.toLex_lt_toLex]

@[simp] theorem rank_absent : Entry.absent.rank prim = (Entry.tombstone 0).rank prim := rfl

theorem rank_absent_le (e : Entry) (h : ∀ v m, e = .live v m → 1 ≤ v) :
    Entry.absent.rank prim ≤ e.rank prim := by
  cases e with
  | absent => exact le_rfl
  | tombstone v =>
      rw [rank_absent, ← not_lt, rank_tombstone_lt_tombstone]
      omega
  | live v m =>
      have hv := h v m rfl
      rw [rank_absent]
      exact le_of_lt (rank_tombstone_lt_live.mpr (by omega))

/-- Equal ranks mean equal entries, as long as the hash tells the member sets apart
and an absent name is not compared with a deletion at version 0. -/
theorem entry_eq_of_rank_eq {a b : Entry}
    (hinj : ∀ v m w n, a = .live v m → b = .live w n →
      membersHash prim m = membersHash prim n → m = n)
    (ha : ∀ v, a = .tombstone v → b = .absent → 1 ≤ v)
    (hb : ∀ v, b = .tombstone v → a = .absent → 1 ≤ v)
    (h : a.rank prim = b.rank prim) : a = b := by
  cases a with
  | absent =>
      cases b with
      | absent => rfl
      | tombstone w =>
          have hw := hb w rfl rfl
          simp only [Entry.rank, EmbeddingLike.apply_eq_iff_eq, Prod.mk.injEq] at h
          omega
      | live w n =>
          simp [Entry.rank] at h
  | tombstone v =>
      cases b with
      | absent =>
          have hv := ha v rfl rfl
          simp only [Entry.rank, EmbeddingLike.apply_eq_iff_eq, Prod.mk.injEq] at h
          omega
      | tombstone w => simpa [Entry.rank] using h
      | live w n => simp [Entry.rank] at h
  | live v m =>
      cases b with
      | absent => simp [Entry.rank] at h
      | tombstone w => simp [Entry.rank] at h
      | live w n =>
          simp only [Entry.rank, EmbeddingLike.apply_eq_iff_eq, Prod.mk.injEq, true_and] at h
          rw [h.1, hinj v m w n rfl rfl h.2]

theorem rank_absent_le_entry {s : StoreSnapshot} (hs : s.Separated) (name : String) :
    Entry.absent.rank prim ≤ (s.entry name).rank prim := by
  apply rank_absent_le
  intro v m hentry
  unfold StoreSnapshot.entry at hentry
  split at hentry
  · rename_i state hstate
    have hpos := hs.live_pos _ _ hstate
    simp only [Entry.live.injEq] at hentry
    omega
  · split at hentry <;> simp at hentry

end Ranks

/-! ## One merge -/

namespace Store

def place (s : Store) (name : String) : Entry → Store
  | .absent => s
  | .tombstone version =>
      { s with
        services := s.services.erase name
        tombstones := s.tombstones.insert name version }
  | .live version members =>
      { s with
        services := s.services.insert name ⟨version, members⟩
        tombstones := s.tombstones.erase name }

/-- When `merge_service` takes an update, read off its branches. -/
def Accepts (prim : Primitives) (s : Store) (u : Update) : Prop :=
  let current := (s.services[u.service]?.map ServiceState.version).getD 0
  let tombstone := s.tombstones[u.service]?.getD 0
  if u.deleted then
    current ≤ u.version ∧ tombstone ≤ u.version ∧
      (s.services.contains u.service = true ∨ tombstone < u.version)
  else
    tombstone < u.version ∧ current ≤ u.version ∧
      ∀ state, s.services[u.service]? = some state → u.version = state.version →
        membersHash prim state.members < membersHash prim (collectPeers u.members)

section MergeService

variable {prim : Primitives} {s : Store} {u : Update}

theorem validatePeers_eq_ok_iff {peers : List String} :
    validatePeers prim peers = .ok () ↔ ∀ p ∈ peers, isValidPeerId prim p = true :=
  validatePeersWith_eq_ok_iff

theorem mergeService_of_not_valid (h : ¬u.Valid prim) :
    ∃ e, s.mergeService prim u = .error e := by
  unfold mergeService
  by_cases hname : isValidServiceName u.service = true
  · by_cases hdel : u.deleted = true
    · exact absurd ⟨hname, fun hf => by simp [hdel] at hf⟩ h
    · cases hpeers : validatePeers prim u.members with
      | error e => exact ⟨e, by simp [hname, hdel]⟩
      | ok _ => exact absurd ⟨hname, fun _ => validatePeers_eq_ok_iff.mp hpeers⟩ h
  · exact ⟨.invalidService u.service, by simp [hname]⟩

theorem mergeService_of_accepts (hu : u.Valid prim) (h : s.Accepts prim u) :
    s.mergeService prim u = .ok (s.place u.service u.entry, true) := by
  obtain ⟨hname, hpeers⟩ := hu
  unfold mergeService
  unfold Accepts at h
  by_cases hdel : u.deleted = true
  · simp only [hdel, if_true] at h
    obtain ⟨hcur, htomb, hnew⟩ := h
    rw [← not_lt] at hcur htomb
    have hidem : ¬((!s.services.contains u.service) = true ∧
        s.tombstones[u.service]?.getD 0 ≥ u.version) := by
      rintro ⟨hnot, hge⟩
      rcases hnew with hlive | hlt
      · simp [hlive] at hnot
      · omega
    simp only [hname, hdel, Bool.not_true, Bool.false_eq_true, if_false, if_true,
      Bool.or_eq_true, decide_eq_true_eq, hcur, htomb, or_self, Bool.and_eq_true, hidem,
      Update.entry, place]
  · have hfalse : u.deleted = false := by simpa using hdel
    simp only [hfalse, Bool.false_eq_true, if_false] at h
    obtain ⟨htomb, hcur, htie⟩ := h
    have hstale : ¬(u.version ≤ s.tombstones[u.service]?.getD 0 ∨
        u.version < (s.services[u.service]?.map ServiceState.version).getD 0) := by
      omega
    simp only [hname, hfalse, Bool.not_true, Bool.false_eq_true, if_false,
      validatePeers_eq_ok_iff.mpr (hpeers hfalse), Bool.or_eq_true, decide_eq_true_eq, hstale,
      Update.entry, place]
    split
    · rename_i heq
      cases hlive : s.services[u.service]? with
      | none => rfl
      | some existing =>
          have hlt := htie existing hlive (by simpa [hlive] using heq)
          have hne : existing.members ≠ collectPeers u.members := by
            rintro hmem
            simp [hmem] at hlt
          simp [hne, not_le.mpr hlt]
    · rfl

theorem mergeService_of_not_accepts (hu : u.Valid prim) (h : ¬s.Accepts prim u) :
    s.mergeService prim u = .ok (s, false) := by
  obtain ⟨hname, hpeers⟩ := hu
  unfold mergeService
  unfold Accepts at h
  by_cases hdel : u.deleted = true
  · simp only [hdel, if_true, not_and_or, not_or, not_le, not_lt] at h
    simp only [hname, hdel, Bool.not_true, Bool.false_eq_true, if_false, if_true,
      Bool.or_eq_true, decide_eq_true_eq, Bool.and_eq_true]
    rcases h with hcur | htomb | ⟨hlive, hge⟩
    · simp [hcur]
    · simp [htomb]
    · split
      · rfl
      · simp [hlive, hge]
  · have hfalse : u.deleted = false := by simpa using hdel
    simp only [hfalse, Bool.false_eq_true, if_false] at h
    simp only [hname, hfalse, Bool.not_true, Bool.false_eq_true, if_false,
      validatePeers_eq_ok_iff.mpr (hpeers hfalse), Bool.or_eq_true, decide_eq_true_eq]
    split
    · rfl
    · rename_i hfresh
      have htie : ∃ state, s.services[u.service]? = some state ∧ u.version = state.version ∧
          membersHash prim (collectPeers u.members) ≤ membersHash prim state.members := by
        by_contra hno
        refine h ⟨by omega, by omega, fun state hlive hver => ?_⟩
        by_contra hle
        exact hno ⟨state, hlive, hver, not_lt.mp hle⟩
      obtain ⟨state, hlive, hver, hle⟩ := htie
      simp [hlive, hver, hle]

/-- A name that is not live ranks as a deletion; a missing tombstone counts as one at
version 0, in the code and in the rank. -/
theorem rank_entry_of_not_live (h : s.services[u.service]? = none) :
    (s.entry u.service).rank prim =
      (Entry.tombstone (s.tombstones[u.service]?.getD 0)).rank prim := by
  cases htomb : s.tombstones[u.service]? with
  | none => rw [entry_of_absent h htomb, rank_absent, Option.getD_none]
  | some version => rw [entry_of_tombstone h htomb, Option.getD_some]

/-- An update that is taken ranks above what the store has, in every store. -/
theorem rank_lt_of_accepts (h : s.Accepts prim u) :
    (s.entry u.service).rank prim < u.entry.rank prim := by
  unfold Accepts at h
  cases hlive : s.services[u.service]? with
  | some state =>
      rw [entry_of_live hlive]
      simp only [hlive, Option.map_some, Option.getD_some, Option.some.injEq, forall_eq'] at h
      by_cases hdel : u.deleted = true
      · simp only [hdel, if_true, Update.entry, rank_live_lt_tombstone] at h ⊢
        exact h.1
      · simp only [hdel, Bool.false_eq_true, if_false, Update.entry, rank_live_lt_live] at h ⊢
        obtain ⟨-, hle, htie⟩ := h
        rcases Nat.lt_or_eq_of_le hle with hlt | heq
        · exact Or.inl hlt
        · exact Or.inr ⟨heq, htie heq.symm⟩
  | none =>
      have hcontains : s.services.contains u.service = false := by
        rw [ExtTreeMap.contains_eq_isSome_getElem?, hlive, Option.isSome_none]
      rw [rank_entry_of_not_live hlive]
      by_cases hdel : u.deleted = true
      · simp only [hdel, if_true, hcontains, Bool.false_eq_true, false_or] at h
        simp only [hdel, if_true, Update.entry, rank_tombstone_lt_tombstone]
        exact h.2.2
      · simp only [hdel, Bool.false_eq_true, if_false] at h
        simp only [hdel, Bool.false_eq_true, if_false, Update.entry, rank_tombstone_lt_live]
        exact h.1

theorem accepts_iff (hs : s.Separated) :
    s.Accepts prim u ↔ (s.entry u.service).rank prim < u.entry.rank prim := by
  refine ⟨rank_lt_of_accepts, fun hlt => ?_⟩
  unfold Accepts
  cases hlive : s.services[u.service]? with
  | some state =>
      have hpos := hs.live_pos _ _ hlive
      have htomb := hs.disjoint _ _ hlive
      have hcontains : s.services.contains u.service = true := by
        rw [ExtTreeMap.contains_eq_isSome_getElem?, hlive, Option.isSome_some]
      rw [entry_of_live hlive] at hlt
      by_cases hdel : u.deleted = true
      · simp only [hdel, if_true, Update.entry, rank_live_lt_tombstone] at hlt
        simp [hdel, hlt, htomb, hcontains]
      · simp only [hdel, Bool.false_eq_true, if_false, Update.entry, rank_live_lt_live] at hlt
        simp only [hdel, htomb, Option.map_some, Option.getD_some, Option.getD_none,
          Option.some.injEq, forall_eq', Bool.false_eq_true, if_false]
        rcases hlt with hlt | ⟨heq, hhash⟩
        · exact ⟨by omega, by omega, fun heq => by omega⟩
        · exact ⟨by omega, by omega, fun _ => hhash⟩
  | none =>
      rw [rank_entry_of_not_live hlive] at hlt
      by_cases hdel : u.deleted = true
      · simp only [hdel, if_true, Update.entry, rank_tombstone_lt_tombstone] at hlt
        simp only [hdel, if_true, Option.map_none, Option.getD_none]
        exact ⟨Nat.zero_le _, hlt.le, Or.inr hlt⟩
      · simp only [hdel, Bool.false_eq_true, if_false, Update.entry, rank_tombstone_lt_live] at hlt
        simp [hdel, hlt]

end MergeService

/-! ## Placing an entry -/

section Place

variable {s : Store} {name : String} {e : Entry}

theorem entry_place_self (he : e ≠ .absent) : (s.place name e).entry name = e := by
  cases e with
  | absent => exact absurd rfl he
  | tombstone version =>
      apply entry_of_tombstone <;> simp [place]
  | live version members =>
      exact entry_of_live (by simp [place] : _ = some (⟨version, members⟩ : ServiceState))

theorem entry_place_of_ne {other : String} (h : other ≠ name) :
    (s.place name e).entry other = s.entry other := by
  cases e with
  | absent => rfl
  | tombstone version =>
      apply entry_congr
      · simp [place, ExtTreeMap.getElem?_erase, Ne.symm h]
      · simp [place, ExtTreeMap.getElem?_insert, Ne.symm h]
  | live version members =>
      apply entry_congr
      · simp [place, ExtTreeMap.getElem?_insert, Ne.symm h]
      · simp [place, ExtTreeMap.getElem?_erase, Ne.symm h]

theorem entry_place (he : e ≠ .absent) :
    (s.place name e).entry = Function.update s.entry name e := by
  funext other
  by_cases h : other = name
  · subst h
    rw [entry_place_self he, Function.update_self]
  · rw [entry_place_of_ne h, Function.update_of_ne h]

theorem separated_place (hs : s.Separated) (he : ∀ v m, e = .live v m → 1 ≤ v) :
    (s.place name e).Separated := by
  cases e with
  | absent => exact hs
  | tombstone version =>
      constructor
      · intro other state hlive
        simp only [place, ExtTreeMap.getElem?_erase] at hlive
        split at hlive
        · exact absurd hlive (by simp)
        · rename_i hne
          simp only [place, ExtTreeMap.getElem?_insert, hne, if_false]
          exact hs.disjoint other state hlive
      · intro other state hlive
        exact hs.live_pos other state (getElem?_of_getElem?_erase hlive)
  | live version members =>
      constructor
      · intro other state hlive
        simp only [place, ExtTreeMap.getElem?_insert] at hlive
        simp only [place, ExtTreeMap.getElem?_erase]
        split at hlive
        · rename_i heq
          simp [heq]
        · rename_i hne
          simp only [hne, if_false]
          exact hs.disjoint other state hlive
      · intro other state hlive
        simp only [place, ExtTreeMap.getElem?_insert] at hlive
        split at hlive
        · obtain rfl := Option.some.inj hlive
          exact he version members rfl
        · exact hs.live_pos other state hlive

@[simp] theorem place_indexVersion : (s.place name e).indexVersion = s.indexVersion := by
  cases e <;> rfl

@[simp] theorem place_network : (s.place name e).network = s.network := by
  cases e <;> rfl

end Place

/-! ## Lists of updates -/

section MergeEntries

variable {prim : Primitives} {s : Store} {u : Update}

def offer (u : Update) : String × Entry := (u.service, u.entry)

structure Merged (prim : Primitives) (s : Store) (us : List Update) (s' : Store) : Prop where
  separated : s'.Separated
  entry : s'.entry = (us.map offer).foldl (Lww.put (Entry.rank prim)) s.entry
  indexVersion : s'.indexVersion = us.foldl (fun v u => max v u.indexVersion) s.indexVersion
  network : s'.network = s.network

theorem update_entry_ne_absent : u.entry ≠ .absent := by
  unfold Update.entry
  split <;> simp

theorem update_entry_pos (hs : s.Separated)
    (h : (s.entry u.service).rank prim < u.entry.rank prim) (v : Nat) (m : PeerSet)
    (hlive : u.entry = .live v m) : 1 ≤ v := by
  have habsent : Entry.absent.rank prim ≤ (s.entry u.service).rank prim :=
    rank_absent_le_entry hs u.service
  have hlt := habsent.trans_lt h
  rw [hlive, rank_absent, rank_tombstone_lt_live] at hlt
  omega

def raiseIndex (s : Store) (version : Nat) : Store :=
  { s with indexVersion := max s.indexVersion version }

theorem mergeEntry_of_mergeService {t : Store} {changed : Bool}
    (h : s.mergeService prim u = .ok (t, changed)) :
    s.mergeEntry prim u = .ok (t.raiseIndex u.indexVersion,
      changed || decide (u.indexVersion > t.indexVersion)) := by
  simp only [mergeEntry, h, raiseIndex]
  by_cases hlt : u.indexVersion > t.indexVersion
  · simp [hlt, max_eq_right hlt.le]
  · simp [hlt, max_eq_left (not_lt.mp hlt)]

theorem mergeEntry_of_lt (hs : s.Separated) (hu : u.Valid prim)
    (h : (s.entry u.service).rank prim < u.entry.rank prim) :
    s.mergeEntry prim u = .ok ((s.place u.service u.entry).raiseIndex u.indexVersion, true) := by
  rw [mergeEntry_of_mergeService (mergeService_of_accepts hu ((accepts_iff hs).mpr h)),
    Bool.true_or]

theorem mergeEntry_of_le (hs : s.Separated) (hu : u.Valid prim)
    (h : u.entry.rank prim ≤ (s.entry u.service).rank prim) :
    s.mergeEntry prim u = .ok (s.raiseIndex u.indexVersion,
      decide (u.indexVersion > s.indexVersion)) := by
  have hno : ¬s.Accepts prim u := by
    rw [accepts_iff hs]
    exact not_lt.mpr h
  rw [mergeEntry_of_mergeService (mergeService_of_not_accepts hu hno), Bool.false_or]

/-- One merge offers its entry to one register, and reports whether the store moved. -/
theorem mergeEntry_spec (hs : s.Separated) (hu : u.Valid prim) :
    ∃ t, s.mergeEntry prim u = .ok (t, decide (t.snapshot ≠ s.snapshot)) ∧
      Merged prim s [u] t := by
  rcases lt_or_ge ((s.entry u.service).rank prim) (u.entry.rank prim) with hlt | hle
  · refine ⟨(s.place u.service u.entry).raiseIndex u.indexVersion, ?_, ?_⟩
    · have hne : ((s.place u.service u.entry).raiseIndex u.indexVersion).snapshot ≠ s.snapshot := by
        intro heq
        have hentry := congrArg (fun t : StoreSnapshot => t.entry u.service) heq
        change (s.place u.service u.entry).entry u.service = s.entry u.service at hentry
        rw [entry_place_self update_entry_ne_absent] at hentry
        rw [hentry] at hlt
        exact lt_irrefl _ hlt
      rw [mergeEntry_of_lt hs hu hlt, decide_eq_true hne]
    · have hsep : (s.place u.service u.entry).Separated :=
        separated_place hs (update_entry_pos hs hlt)
      refine ⟨⟨hsep.disjoint, hsep.live_pos⟩, ?_, ?_, ?_⟩
      · calc ((s.place u.service u.entry).raiseIndex u.indexVersion).entry
            = (s.place u.service u.entry).entry := rfl
          _ = Function.update s.entry u.service u.entry := entry_place update_entry_ne_absent
          _ = Lww.put (Entry.rank prim) s.entry (offer u) := by
              rw [Lww.put, offer, Lww.join_of_lt hlt]
      · simp [raiseIndex]
      · simp [raiseIndex]
  · refine ⟨s.raiseIndex u.indexVersion, ?_, ?_⟩
    · have hiff : u.indexVersion > s.indexVersion ↔
          (s.raiseIndex u.indexVersion).snapshot ≠ s.snapshot := by
        constructor
        · intro hgt heq
          have hindex : max s.indexVersion u.indexVersion = s.indexVersion :=
            congrArg StoreSnapshot.indexVersion heq
          omega
        · intro hne
          by_contra hge
          apply hne
          simp only [raiseIndex, snapshot, max_eq_left (not_lt.mp hge)]
      rw [mergeEntry_of_le hs hu hle, decide_eq_decide.mpr hiff]
    · refine ⟨⟨hs.disjoint, hs.live_pos⟩, ?_, ?_, rfl⟩
      · calc (s.raiseIndex u.indexVersion).entry = s.entry := rfl
          _ = Lww.put (Entry.rank prim) s.entry (offer u) := by
              rw [Lww.put, offer, Lww.join_of_le hle, Function.update_eq_self]
      · simp [raiseIndex]

theorem Merged.refl (hs : s.Separated) : Merged prim s [] s :=
  ⟨hs, rfl, rfl, rfl⟩

theorem Merged.trans {t w : Store} {us vs : List Update} (hst : Merged prim s us t)
    (htw : Merged prim t vs w) : Merged prim s (us ++ vs) w := by
  refine ⟨htw.separated, ?_, ?_, ?_⟩
  · rw [htw.entry, hst.entry, List.map_append, List.foldl_append]
  · rw [htw.indexVersion, hst.indexVersion, List.foldl_append]
  · rw [htw.network, hst.network]

theorem mergeEntries_spec {us : List Update} (changed : Bool) (hs : s.Separated)
    (hus : ∀ u ∈ us, u.Valid prim) :
    ∃ t flag, mergeEntries prim s changed us = (t, .ok flag) ∧ Merged prim s us t := by
  induction us generalizing s changed with
  | nil => exact ⟨s, changed, rfl, Merged.refl hs⟩
  | cons u us ih =>
      obtain ⟨t, ht, hmerged⟩ := mergeEntry_spec hs (hus u (by simp))
      obtain ⟨w, flag, hw, hrest⟩ := ih (changed || decide (t.snapshot ≠ s.snapshot))
        hmerged.separated (fun v hv => hus v (by simp [hv]))
      refine ⟨w, flag, ?_, hmerged.trans hrest⟩
      rw [mergeEntries, ht]
      exact hw

theorem mergeEntries_of_not_accepts {us : List Update} (changed : Bool)
    (hus : ∀ u ∈ us, u.Valid prim) (hacc : ∀ u ∈ us, ¬s.Accepts prim u)
    (hindex : ∀ u ∈ us, u.indexVersion ≤ s.indexVersion) :
    mergeEntries prim s changed us = (s, .ok changed) := by
  induction us with
  | nil => rfl
  | cons u us ih =>
      have hle := hindex u (by simp)
      have hraise : s.raiseIndex u.indexVersion = s := by
        simp only [raiseIndex, max_eq_left hle]
      have hstep : s.mergeEntry prim u = .ok (s, false) := by
        rw [mergeEntry_of_mergeService (mergeService_of_not_accepts (hus u (by simp))
          (hacc u (by simp))), hraise, decide_eq_false (not_lt.mpr hle), Bool.or_false]
      rw [mergeEntries, hstep]
      simp only [Bool.or_false]
      exact ih (fun v hv => hus v (by simp [hv])) (fun v hv => hacc v (by simp [hv]))
        (fun v hv => hindex v (by simp [hv]))

theorem mergeEntries_of_stale {us : List Update} (changed : Bool) (hs : s.Separated)
    (hus : ∀ u ∈ us, u.Valid prim)
    (hrank : ∀ u ∈ us, u.entry.rank prim ≤ (s.entry u.service).rank prim)
    (hindex : ∀ u ∈ us, u.indexVersion ≤ s.indexVersion) :
    mergeEntries prim s changed us = (s, .ok changed) := by
  apply mergeEntries_of_not_accepts changed hus _ hindex
  intro u hu
  rw [accepts_iff hs]
  exact not_lt.mpr (hrank u hu)

theorem valid_of_mergeEntries {t : Store} {us : List Update} {changed flag : Bool}
    (h : mergeEntries prim s changed us = (t, .ok flag)) : ∀ u ∈ us, u.Valid prim := by
  induction us generalizing s changed with
  | nil => simp
  | cons u us ih =>
      have hu : u.Valid prim := by
        by_contra hbad
        obtain ⟨e, he⟩ : ∃ e, s.mergeService prim u = .error e := mergeService_of_not_valid hbad
        simp [mergeEntries, mergeEntry, he] at h
      intro v hv
      rw [mergeEntries] at h
      split at h
      · simp at h
      · rcases List.mem_cons.mp hv with rfl | hv
        · exact hu
        · exact ih h v hv

end MergeEntries

end Store

end NexusAuth
