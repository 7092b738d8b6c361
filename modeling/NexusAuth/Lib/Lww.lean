import Mathlib

/-!
# Last-writer-wins registers

A register holds one value and is offered others; it moves only to a value of
strictly greater rank.  Ranks are linearly ordered, values need not be: two
different values may share a rank, and then the register keeps the one it has.

The facts below are about one register, about a list of offers to one register,
and about a family of registers indexed by a key.
-/

namespace NexusAuth.Lib.Lww

variable {α ρ κ : Type*} [LinearOrder ρ] (rank : α → ρ)

/-- The register holding `a` after it was offered `b`. -/
def join (a b : α) : α := if rank a < rank b then b else a

variable {rank}

theorem join_of_lt {a b : α} (h : rank a < rank b) : join rank a b = b := by
  simp [join, h]

theorem join_of_le {a b : α} (h : rank b ≤ rank a) : join rank a b = a := by
  simp [join, not_lt.mpr h]

theorem le_rank_join_left (rank : α → ρ) (a b : α) : rank a ≤ rank (join rank a b) := by
  unfold join
  split
  · exact le_of_lt ‹_›
  · exact le_rfl

theorem le_rank_join_right (rank : α → ρ) (a b : α) : rank b ≤ rank (join rank a b) := by
  unfold join
  split
  · exact le_rfl
  · exact not_lt.mp ‹_›

theorem join_exchange {a b : α} (h : rank a = rank b → a = b) :
    join rank b (join rank a b) = join rank a b := by
  rcases lt_trichotomy (rank a) (rank b) with hlt | heq | hgt
  · rw [join_of_lt hlt, join_of_le le_rfl]
  · rw [h heq, join_of_le le_rfl, join_of_le le_rfl]
  · rw [join_of_le hgt.le, join_of_lt hgt]

/-! ## A list of offers -/

def joinAll (rank : α → ρ) (a : α) (l : List α) : α := l.foldl (join rank) a

@[simp] theorem joinAll_nil (a : α) : joinAll rank a [] = a := rfl

@[simp] theorem joinAll_cons (a x : α) (l : List α) :
    joinAll rank a (x :: l) = joinAll rank (join rank a x) l := rfl

theorem le_rank_joinAll (rank : α → ρ) (a : α) (l : List α) : rank a ≤ rank (joinAll rank a l) := by
  induction l generalizing a with
  | nil => exact le_rfl
  | cons x l ih => exact (le_rank_join_left rank a x).trans (ih _)

theorem rank_le_joinAll_of_mem {a x : α} {l : List α} (hx : x ∈ l) :
    rank x ≤ rank (joinAll rank a l) := by
  induction l generalizing a with
  | nil => simp at hx
  | cons y l ih =>
      rcases List.mem_cons.mp hx with rfl | hx
      · exact (le_rank_join_right rank a x).trans (le_rank_joinAll rank _ l)
      · exact ih hx

theorem joinAll_eq_or_mem (rank : α → ρ) (a : α) (l : List α) :
    joinAll rank a l = a ∨ joinAll rank a l ∈ l := by
  induction l generalizing a with
  | nil => exact Or.inl rfl
  | cons x l ih =>
      rw [joinAll_cons]
      rcases ih (join rank a x) with h | h
      · rw [h]
        unfold join
        split <;> simp
      · exact Or.inr (List.mem_cons_of_mem _ h)

theorem joinAll_eq_or_lt (rank : α → ρ) (a : α) (l : List α) :
    joinAll rank a l = a ∨ rank a < rank (joinAll rank a l) := by
  induction l generalizing a with
  | nil => exact Or.inl rfl
  | cons x l ih =>
      rw [joinAll_cons]
      by_cases h : rank a < rank x
      · rw [join_of_lt h]
        exact Or.inr (h.trans_le (le_rank_joinAll rank x l))
      · rw [join_of_le (not_lt.mp h)]
        exact ih a

/-- The outcome depends on which values were offered, not on their order or on
how often, as long as the offered values have pairwise different ranks. -/
theorem joinAll_congr {a : α} {l l' : List α} (hinj : Set.InjOn rank {x | x ∈ l})
    (hmem : ∀ x, x ∈ l ↔ x ∈ l') : joinAll rank a l = joinAll rank a l' := by
  have hle : rank (joinAll rank a l) ≤ rank (joinAll rank a l') := by
    rcases joinAll_eq_or_mem rank a l with h | h
    · rw [h]
      exact le_rank_joinAll rank a l'
    · exact rank_le_joinAll_of_mem ((hmem _).mp h)
  have hge : rank (joinAll rank a l') ≤ rank (joinAll rank a l) := by
    rcases joinAll_eq_or_mem rank a l' with h | h
    · rw [h]
      exact le_rank_joinAll rank a l
    · exact rank_le_joinAll_of_mem ((hmem _).mpr h)
  rcases joinAll_eq_or_lt rank a l with h | h
  · rcases joinAll_eq_or_lt rank a l' with h' | h'
    · rw [h, h']
    · rw [h] at hge
      exact absurd h' (not_lt.mpr hge)
  · -- both sides moved, so both are offered values of the same rank
    have hl : joinAll rank a l ∈ l :=
      (joinAll_eq_or_mem rank a l).resolve_left (fun he => by simp [he] at h)
    have hl' : joinAll rank a l' ∈ l :=
      (hmem _).mpr ((joinAll_eq_or_mem rank a l').resolve_left fun he => by
        rw [he] at hle
        exact absurd h (not_lt.mpr hle))
    exact hinj hl hl' (le_antisymm hle hge)

/-! ## A family of registers -/

section Keyed

variable [DecidableEq κ]

/-- The family `f` after the register at `u.1` was offered `u.2`. -/
def put (rank : α → ρ) (f : κ → α) (u : κ × α) : κ → α :=
  Function.update f u.1 (join rank (f u.1) u.2)

def offers (us : List (κ × α)) (k : κ) : List α :=
  (us.filter fun u => u.1 = k).map Prod.snd

theorem mem_offers {us : List (κ × α)} {k : κ} {x : α} :
    x ∈ offers us k ↔ (k, x) ∈ us := by
  simp [offers]

/-- A list of keyed offers acts on each register as the list of its own offers. -/
theorem foldl_put (f : κ → α) (us : List (κ × α)) (k : κ) :
    us.foldl (put rank) f k = joinAll rank (f k) (offers us k) := by
  induction us generalizing f with
  | nil => rfl
  | cons u us ih =>
      rw [List.foldl_cons, ih]
      by_cases h : u.1 = k
      · subst h
        simp [put, offers]
      · simp [put, offers, h, Function.update_of_ne (Ne.symm h)]

end Keyed

end NexusAuth.Lib.Lww
