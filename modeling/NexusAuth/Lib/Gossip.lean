import Mathlib

/-!
# Gossip

Nodes hold values that only grow, and take over what other nodes had at some earlier time.
`Heard` follows such exchanges backwards.  Nodes that have all heard from each other hold the
same value, the greatest one from the start, provided that nothing new has come in since.
-/

namespace NexusAuth.Lib.Gossip

variable {ι κ ρ : Type*}

/-- What `j` had at the beginning has reached `i` by the given time; `takes t i r k` says that
between `t` and `t + 1`, node `i` takes over what `k` had at time `r`. -/
inductive Heard (takes : ℕ → ι → ℕ → ι → Prop) : ℕ → ι → ι → Prop
  | self (i : ι) : Heard takes 0 i i
  | later {t : ℕ} {i j : ι} (h : Heard takes t i j) : Heard takes (t + 1) i j
  | taken {t r : ℕ} {i j k : ι} (htakes : takes t i r k) (hr : r ≤ t) (h : Heard takes r k j) :
      Heard takes (t + 1) i j

variable {takes : ℕ → ι → ℕ → ι → Prop} {value : ℕ → ι → κ → ρ} {n : ℕ}

theorem Heard.mono {s t : ℕ} {i j : ι} (h : Heard takes s i j) (hst : s ≤ t) :
    Heard takes t i j := by
  induction hst with
  | refl => exact h
  | step _ ih => exact ih.later

theorem Heard.le [Preorder ρ] (hgrows : ∀ t < n, ∀ i key, value t i key ≤ value (t + 1) i key)
    (htakes : ∀ t < n, ∀ i r k, takes t i r k → r ≤ t → ∀ key, value r k key ≤ value (t + 1) i key)
    {t : ℕ} {i j : ι} (h : Heard takes t i j) (ht : t ≤ n) (key : κ) :
    value 0 j key ≤ value t i key := by
  induction h with
  | self i => exact le_rfl
  | later _ ih =>
      have hlt := Nat.lt_of_succ_le ht
      exact (ih hlt.le).trans (hgrows _ hlt _ key)
  | taken htaken hr _ ih =>
      have hlt := Nat.lt_of_succ_le ht
      exact (ih (hr.trans hlt.le)).trans (htakes _ hlt _ _ _ htaken hr key)

theorem isGreatest_of_heard [PartialOrder ρ]
    (hgrows : ∀ t < n, ∀ i key, value t i key ≤ value (t + 1) i key)
    (htakes : ∀ t < n, ∀ i r k, takes t i r k → r ≤ t → ∀ key, value r k key ≤ value (t + 1) i key)
    {i : ι} {key : κ} (hnew : ∃ j, value n i key ≤ value 0 j key)
    (hheard : ∀ j, Heard takes n i j) :
    IsGreatest (Set.range fun j => value 0 j key) (value n i key) := by
  have hle : ∀ j, value 0 j key ≤ value n i key := fun j =>
    (hheard j).le hgrows htakes le_rfl key
  constructor
  · obtain ⟨j, hj⟩ := hnew
    exact ⟨j, (hle j).antisymm hj⟩
  · rintro _ ⟨j, rfl⟩
    exact hle j

end NexusAuth.Lib.Gossip
