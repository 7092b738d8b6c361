import Mathlib

/-!
# Ordered maps with a bounded number of entries

`BTreeMap` and `BTreeSet` are the extensional search trees of `Std`: two maps
with the same lookups are equal, and `toList` enumerates in key order.

The second half is about a map kept within a capacity by dropping, one at a
time, the first entry of least rank.  `evict_survives` says when a given entry
is safe: while fewer than `cap` other entries rank at least as high.
-/

namespace NexusAuth.Lib.OrderedMap

open Std (ExtTreeMap ExtTreeSet TransOrd LawfulEqOrd LawfulEqCmp)

abbrev BTreeMap (K V : Type) [Ord K] := ExtTreeMap K V compare

abbrev BTreeSet (K : Type) [Ord K] := ExtTreeSet K compare

variable {K V : Type} [Ord K] [TransOrd K]

theorem insert_eq_self [LawfulEqOrd K] {m : BTreeMap K V} {k : K} {v : V} (h : m[k]? = some v) :
    m.insert k v = m := by
  apply ExtTreeMap.ext_getElem?
  intro a
  rw [ExtTreeMap.getElem?_insert]
  split
  · rename_i hka
    rw [← LawfulEqCmp.eq_of_compare hka, h]
  · rfl

theorem insert_insert [LawfulEqOrd K] {m : BTreeMap K V} {k : K} {v w : V} :
    (m.insert k v).insert k w = m.insert k w := by
  apply ExtTreeMap.ext_getElem?
  intro a
  simp only [ExtTreeMap.getElem?_insert]
  split <;> rfl

theorem forall_insert [LawfulEqOrd K] {m : BTreeMap K V} {Q : K → V → Prop} {k : K} {v : V}
    (hold : ∀ a w, m[a]? = some w → Q a w) (hnew : Q k v) {a : K} {w : V}
    (h : (m.insert k v)[a]? = some w) : Q a w := by
  rw [ExtTreeMap.getElem?_insert] at h
  split at h
  · rename_i hka
    obtain rfl := LawfulEqCmp.eq_of_compare hka
    obtain rfl := Option.some.inj h
    exact hnew
  · exact hold a w h

theorem getElem?_of_getElem?_erase {m : BTreeMap K V} {k a : K} {w : V}
    (h : (m.erase k)[a]? = some w) : m[a]? = some w := by
  rw [ExtTreeMap.getElem?_erase] at h
  split at h
  · exact absurd h (by simp)
  · exact h

theorem getElem?_eq_none_of_not_contains {m : BTreeMap K V} {k : K} (h : ¬m.contains k = true) :
    m[k]? = none := by
  rwa [ExtTreeMap.contains_eq_isSome_getElem?, Bool.not_eq_true, Option.isSome_eq_false_iff,
    Option.isNone_iff_eq_none] at h

theorem forall_mem_toList [LawfulEqOrd K] {m : BTreeMap K V} {Q : K → V → Prop} :
    (∀ entry ∈ m.toList, Q entry.1 entry.2) ↔ ∀ (a : K) (w : V), m[a]? = some w → Q a w := by
  constructor
  · intro h a w hw
    exact h (a, w) (ExtTreeMap.mem_toList_iff_getElem?_eq_some.mpr hw)
  · rintro h ⟨a, w⟩ hmem
    exact h a w (ExtTreeMap.mem_toList_iff_getElem?_eq_some.mp hmem)

/-! ## The keys of a map, as a finite set -/

section Support

variable [DecidableEq K]

def support (m : BTreeMap K V) : Finset K := m.keys.toFinset

theorem mem_support [LawfulEqOrd K] {m : BTreeMap K V} {k : K} :
    k ∈ support m ↔ ∃ v, m[k]? = some v := by
  rw [support, List.mem_toFinset, ExtTreeMap.mem_keys, ExtTreeMap.mem_iff_isSome_getElem?,
    Option.isSome_iff_exists]

theorem card_support (m : BTreeMap K V) : (support m).card = m.size := by
  rw [support, List.toFinset_card_of_nodup ExtTreeMap.nodup_keys, ExtTreeMap.length_keys]

/-- The other keys whose entry ranks at least `r`. -/
noncomputable def rivals (rank : V → Nat) (m : BTreeMap K V) (k : K) (r : Nat) : Finset K := by
  classical exact (support m).filter fun a => a ≠ k ∧ ∃ w, m[a]? = some w ∧ r ≤ rank w

theorem mem_rivals [LawfulEqOrd K] {rank : V → Nat} {m : BTreeMap K V} {k a : K} {r : Nat} :
    a ∈ rivals rank m k r ↔ a ≠ k ∧ ∃ w, m[a]? = some w ∧ r ≤ rank w := by
  simp only [rivals, Finset.mem_filter, mem_support]
  constructor
  · exact fun h => h.2
  · rintro ⟨hne, w, hw, hr⟩
    exact ⟨⟨w, hw⟩, hne, w, hw, hr⟩

theorem rivals_subset [LawfulEqOrd K] {rank : V → Nat} {m m' : BTreeMap K V} {k : K} {r : Nat}
    (hsub : ∀ (a : K) (w : V), m'[a]? = some w → m[a]? = some w) :
    rivals rank m' k r ⊆ rivals rank m k r := by
  intro a ha
  obtain ⟨hne, w, hw, hr⟩ := mem_rivals.mp ha
  exact mem_rivals.mpr ⟨hne, w, hsub a w hw, hr⟩

theorem rivals_insert_subset [LawfulEqOrd K] {rank : V → Nat} {m : BTreeMap K V} {k b : K}
    {v : V} {r : Nat} :
    rivals rank (m.insert b v) k r ⊆ insert b (rivals rank m k r) := by
  intro a ha
  obtain ⟨hne, w, hw, hr⟩ := mem_rivals.mp ha
  rw [Finset.mem_insert]
  by_cases hab : a = b
  · exact Or.inl hab
  · right
    rw [ExtTreeMap.getElem?_insert, if_neg (by simpa using Ne.symm hab)] at hw
    exact mem_rivals.mpr ⟨hne, w, hw, hr⟩

theorem card_rivals_insert_le [LawfulEqOrd K] (rank : V → Nat) (m : BTreeMap K V) (k b : K) (v : V)
    (r : Nat) : (rivals rank (m.insert b v) k r).card ≤ (rivals rank m k r).card + 1 :=
  (Finset.card_le_card rivals_insert_subset).trans (Finset.card_insert_le _ _)

end Support

/-! ## Dropping the lowest ranked entries -/

def oldest (rank : V → Nat) (m : BTreeMap K V) : Option K :=
  (m.toList.argmin fun p => rank p.2).map Prod.fst

theorem oldest_spec [LawfulEqOrd K] {rank : V → Nat} {m : BTreeMap K V} {k : K}
    (h : oldest rank m = some k) :
    ∃ v, m[k]? = some v ∧ ∀ (a : K) (w : V), m[a]? = some w → rank v ≤ rank w := by
  obtain ⟨⟨k', v⟩, hmin, rfl⟩ := Option.map_eq_some_iff.mp h
  refine ⟨v, ExtTreeMap.mem_toList_iff_getElem?_eq_some.mp (List.argmin_mem hmin), ?_⟩
  intro a w hw
  exact List.le_of_mem_argmin (f := fun p : K × V => rank p.2)
    (ExtTreeMap.mem_toList_iff_getElem?_eq_some.mpr hw) hmin

theorem size_erase_lt [LawfulEqOrd K] {m : BTreeMap K V} {k : K} {v : V} (h : m[k]? = some v) :
    (m.erase k).size < m.size := by
  have hmem : m.contains k = true := by
    rw [ExtTreeMap.contains_eq_isSome_getElem?, h, Option.isSome_some]
  have hpos : 0 < m.toList.length :=
    List.length_pos_of_mem (ExtTreeMap.mem_toList_iff_getElem?_eq_some.mpr h)
  rw [ExtTreeMap.length_toList] at hpos
  rw [ExtTreeMap.size_erase, if_pos hmem]
  omega

/-- While there are more than `cap` entries, drop the oldest one. -/
def evict [LawfulEqOrd K] (rank : V → Nat) (cap : Nat) (m : BTreeMap K V) : BTreeMap K V :=
  if cap < m.size then
    match _h : oldest rank m with
    | some key => evict rank cap (m.erase key)
    | none => m
  else m
termination_by m.size
decreasing_by
  obtain ⟨v, hv, _⟩ := oldest_spec _h
  exact size_erase_lt hv

theorem size_evict_le [LawfulEqOrd K] (rank : V → Nat) (cap : Nat) (m : BTreeMap K V) :
    (evict rank cap m).size ≤ cap := by
  fun_induction evict rank cap m with
  | case1 m _ key _ ih => exact ih
  | case2 m hcap hnone =>
      -- an empty map is never over capacity
      have hnil : m.toList = [] := by
        simpa [oldest, List.argmin_eq_none] using hnone
      have hsize : m.size = 0 := by
        rw [← ExtTreeMap.length_toList, hnil, List.length_nil]
      omega
  | case3 m hcap => omega

theorem getElem?_of_getElem?_evict [LawfulEqOrd K] {rank : V → Nat} {cap : Nat} {m : BTreeMap K V}
    {a : K} {w : V}
    (h : (evict rank cap m)[a]? = some w) : m[a]? = some w := by
  fun_induction evict rank cap m with
  | case1 m _ key _ ih => exact getElem?_of_getElem?_erase (ih h)
  | case2 m _ _ => exact h
  | case3 m _ => exact h

theorem size_le_rivals [LawfulEqOrd K] [DecidableEq K] {rank : V → Nat} {m : BTreeMap K V}
    {k : K} {v : V}
    (hold : oldest rank m = some k) (hv : m[k]? = some v) :
    m.size ≤ (rivals rank m k (rank v)).card + 1 := by
  obtain ⟨v', hv', hmin⟩ := oldest_spec hold
  obtain rfl : v' = v := Option.some.inj (hv'.symm.trans hv)
  have hsub : support m ⊆ insert k (rivals rank m k (rank v')) := by
    intro a ha
    obtain ⟨w, hw⟩ := mem_support.mp ha
    rw [Finset.mem_insert]
    by_cases hak : a = k
    · exact Or.inl hak
    · exact Or.inr (mem_rivals.mpr ⟨hak, w, hw, hmin a w hw⟩)
  calc m.size = (support m).card := (card_support m).symm
    _ ≤ (insert k (rivals rank m k (rank v'))).card := Finset.card_le_card hsub
    _ ≤ (rivals rank m k (rank v')).card + 1 := Finset.card_insert_le _ _

theorem evict_survives [LawfulEqOrd K] [DecidableEq K] {rank : V → Nat} {cap : Nat}
    {m : BTreeMap K V}
    {k : K} {v : V} (hv : m[k]? = some v) (hcard : (rivals rank m k (rank v)).card < cap) :
    (evict rank cap m)[k]? = some v := by
  fun_induction evict rank cap m with
  | case1 m hcap key hold ih =>
      have hne : key ≠ k := by
        rintro rfl
        have := size_le_rivals hold hv
        omega
      apply ih
      · rw [ExtTreeMap.getElem?_erase, if_neg (by simpa using hne)]
        exact hv
      · have hsub : rivals rank (m.erase key) k (rank v) ⊆ rivals rank m k (rank v) :=
          rivals_subset fun a w => getElem?_of_getElem?_erase
        exact (Finset.card_le_card hsub).trans_lt hcard
  | case2 m _ _ => exact hv
  | case3 m _ => exact hv

end NexusAuth.Lib.OrderedMap
