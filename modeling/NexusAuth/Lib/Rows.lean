import NexusAuth.Lib.OrderedMap

/-!
# The rows of an ordered map

A table of a database is an ordered map that is read row by row.  A sorted list with the
right lookups is the list of its rows; appending a row behind all others and removing
the rows that a scan selected are what they are for lists.  In a list whose elements are
numbered without gaps, the elements below or above a number are a prefix or a suffix.
-/

namespace NexusAuth.Lib.OrderedMap

open Std (ExtTreeMap TransOrd LawfulEqOrd OrientedCmp)

variable {K V : Type} [Ord K] [TransOrd K] [LawfulEqOrd K] {m : BTreeMap K V}

omit [TransOrd K] in
theorem compare_ne_lt_self (k : K) : compare k k ≠ .lt := by
  have hself : compare k k = .eq := Std.ReflCmp.compare_self
  rw [hself]
  exact Ordering.noConfusion

theorem toList_eq {rows : List (K × V)}
    (hsorted : rows.Pairwise fun a b => compare a.1 b.1 = .lt)
    (hrows : ∀ k v, (k, v) ∈ rows ↔ m[k]? = some v) : m.toList = rows := by
  have hnodup : ∀ {l : List (K × V)}, l.Pairwise (fun a b => compare a.1 b.1 = .lt) → l.Nodup := by
    intro l hl
    refine hl.imp fun {a b} hlt => ?_
    rintro rfl
    exact compare_ne_lt_self a.1 hlt
  have hperm : m.toList.Perm rows := by
    rw [List.perm_ext_iff_of_nodup (hnodup ExtTreeMap.ordered_keys_toList) (hnodup hsorted)]
    rintro ⟨k, v⟩
    rw [hrows, ExtTreeMap.mem_toList_iff_getElem?_eq_some]
  refine hperm.eq_of_pairwise (fun a b _ _ hab hba => ?_) ExtTreeMap.ordered_keys_toList hsorted
  have hswap : compare a.1 b.1 = (compare b.1 a.1).swap := OrientedCmp.eq_swap
  rw [hba, hab] at hswap
  cases hswap

theorem toList_insert_last {k : K} {v : V} (h : ∀ row ∈ m.toList, compare row.1 k = .lt) :
    (m.insert k v).toList = m.toList ++ [(k, v)] := by
  apply toList_eq
  · refine List.pairwise_append.mpr
      ⟨ExtTreeMap.ordered_keys_toList, List.pairwise_singleton _ _, fun a ha b hb => ?_⟩
    rw [List.mem_singleton.mp hb]
    exact h a ha
  · intro k' v'
    rw [List.mem_append, List.mem_singleton, ExtTreeMap.mem_toList_iff_getElem?_eq_some,
      ExtTreeMap.getElem?_insert, Prod.mk.injEq]
    split
    · rename_i heq
      obtain rfl := Std.LawfulEqCmp.eq_of_compare heq
      constructor
      · rintro (hold | ⟨_, rfl⟩)
        · have hlt := h (k, v') (ExtTreeMap.mem_toList_iff_getElem?_eq_some.mpr hold)
          exact (compare_ne_lt_self k hlt).elim
        · rfl
      · exact fun heq => .inr ⟨rfl, (Option.some.inj heq).symm⟩
    · rename_i hne
      refine ⟨fun hrow => hrow.elim id fun heq => (hne ?_).elim, .inl⟩
      rw [heq.1]
      exact Std.ReflCmp.compare_self

def eraseAll (m : BTreeMap K V) (keys : List K) : BTreeMap K V :=
  keys.foldl (fun m k => m.erase k) m

theorem getElem?_eraseAll {keys : List K} {a : K} {v : V} :
    (eraseAll m keys)[a]? = some v ↔ a ∉ keys ∧ m[a]? = some v := by
  induction keys generalizing m with
  | nil => simp [eraseAll]
  | cons k keys ih =>
      rw [eraseAll, List.foldl_cons, ← eraseAll, ih, ExtTreeMap.getElem?_erase,
        List.mem_cons, not_or]
      by_cases hka : compare k a = .eq
      · obtain rfl := Std.LawfulEqCmp.eq_of_compare hka
        simp
      · have hne : a ≠ k := fun heq => hka (heq ▸ Std.ReflCmp.compare_self)
        simp [hka, hne]

theorem toList_eraseAll_selected (p : K → Bool) :
    (eraseAll m ((m.toList.filter fun row => p row.1).map Prod.fst)).toList =
      m.toList.filter fun row => !p row.1 := by
  apply toList_eq
  · exact ExtTreeMap.ordered_keys_toList.filter _
  · intro k v
    rw [getElem?_eraseAll, List.mem_filter, ExtTreeMap.mem_toList_iff_getElem?_eq_some, and_comm,
      and_congr_left_iff]
    intro hrow
    have hmem : k ∈ (m.toList.filter fun row => p row.1).map Prod.fst ↔ p k = true := by
      constructor
      · intro hk
        obtain ⟨⟨k', v'⟩, hsel, rfl⟩ := List.mem_map.mp hk
        exact (List.mem_filter.mp hsel).2
      · intro hp
        refine List.mem_map.mpr ⟨(k, v), List.mem_filter.mpr ⟨?_, hp⟩, rfl⟩
        exact ExtTreeMap.mem_toList_iff_getElem?_eq_some.mpr hrow
    rw [hmem, Bool.not_eq_true, Bool.not_eq_true']

/-! ## Numbered lists -/

section Numbered

variable {α : Type} {f : α → Nat} {l : List α} {a : Nat}

theorem numbered_bounds (h : l.map f = List.range' a l.length) {x : α} (hx : x ∈ l) :
    a ≤ f x ∧ f x < a + l.length := by
  have hmem : f x ∈ List.range' a l.length := h ▸ List.mem_map_of_mem hx
  exact List.mem_range'_1.mp hmem

theorem numbered_tail {x : α} (h : (x :: l).map f = List.range' a (x :: l).length) :
    f x = a ∧ l.map f = List.range' (a + 1) l.length := by
  rw [List.map_cons, List.length_cons, List.range'_succ, List.cons.injEq] at h
  exact h

theorem numbered_take (h : l.map f = List.range' a l.length) (n : Nat) :
    (l.take n).map f = List.range' a (l.take n).length := by
  induction l generalizing a n with
  | nil => simp
  | cons x l ih =>
      obtain ⟨hx, hl⟩ := numbered_tail h
      cases n with
      | zero => simp
      | succ n =>
          rw [List.take_succ_cons, List.map_cons, List.length_cons, List.range'_succ, ih hl n, hx]

theorem numbered_drop (h : l.map f = List.range' a l.length) (n : Nat) :
    (l.drop n).map f = List.range' (a + n) (l.drop n).length := by
  rw [List.map_drop, h, List.drop_range', Nat.mul_one, List.length_drop]

theorem filter_lt_eq_take (h : l.map f = List.range' a l.length) (n : Nat) :
    l.filter (fun x => decide (f x < n)) = l.take (n - a) := by
  induction l generalizing a with
  | nil => simp
  | cons x l ih =>
      obtain ⟨hx, hl⟩ := numbered_tail h
      rw [List.filter_cons, ih hl, hx]
      by_cases hn : a < n
      · rw [if_pos (decide_eq_true hn), show n - a = (n - (a + 1)) + 1 by omega,
          List.take_succ_cons]
      · rw [if_neg (by simpa using hn), show n - a = 0 by omega, show n - (a + 1) = 0 by omega,
          List.take_zero, List.take_zero]

theorem filter_gt_eq_drop (h : l.map f = List.range' a l.length) (n : Nat) :
    l.filter (fun x => decide (n < f x)) = l.drop (n + 1 - a) := by
  induction l generalizing a with
  | nil => simp
  | cons x l ih =>
      obtain ⟨hx, hl⟩ := numbered_tail h
      rw [List.filter_cons, ih hl, hx]
      by_cases hn : n < a
      · rw [if_pos (decide_eq_true hn), show n + 1 - a = 0 by omega,
          show n + 1 - (a + 1) = 0 by omega, List.drop_zero, List.drop_zero]
      · rw [if_neg (by simpa using hn), show n + 1 - a = (n + 1 - (a + 1)) + 1 by omega,
          List.drop_succ_cons]

end Numbered

end NexusAuth.Lib.OrderedMap
