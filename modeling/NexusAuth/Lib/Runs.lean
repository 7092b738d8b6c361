import Mathlib

/-!
# Finite runs of a deterministic machine

A machine is a step function `σ → ι → σ`.  A run is a start state together with
the list of inputs it consumes, and `stateAt k` is the state after the first `k`
of them.  Invariants and two-state properties of a whole run are derived here
once from facts about its single steps.
-/

namespace NexusAuth.Lib.Runs

variable {σ ι : Type*} {step : σ → ι → σ} {start : σ} {log : List ι}

/-- The state after the first `k` inputs of `log`. -/
def stateAt (step : σ → ι → σ) (start : σ) (log : List ι) (k : Nat) : σ :=
  (log.take k).foldl step start

@[simp] theorem stateAt_zero : stateAt step start log 0 = start := by
  simp [stateAt]

theorem stateAt_succ {k : Nat} (hk : k < log.length) :
    stateAt step start log (k + 1) = step (stateAt step start log k) log[k] := by
  rw [stateAt, List.take_add_one, List.getElem?_eq_getElem hk, List.foldl_append]
  rfl

theorem stateAt_eq_of_length_le {k : Nat} (hk : log.length ≤ k) :
    stateAt step start log k = stateAt step start log log.length := by
  simp [stateAt, List.take_of_length_le hk]

theorem invariant {P : σ → Prop} (hstart : P start)
    (hstep : ∀ k (hk : k < log.length), P (stateAt step start log k) →
      P (step (stateAt step start log k) log[k])) :
    ∀ k, P (stateAt step start log k) := by
  intro k
  induction k with
  | zero => simpa using hstart
  | succ k ih =>
      by_cases hk : k < log.length
      · rw [stateAt_succ hk]
        exact hstep k hk ih
      · rw [stateAt_eq_of_length_le (by omega : log.length ≤ k + 1),
          ← stateAt_eq_of_length_le (by omega : log.length ≤ k)]
        exact ih

theorem lockstep {τ : Type*} {step' : τ → ι → τ} {start' : τ} {R : σ → τ → Prop}
    (hstart : R start start')
    (hstep : ∀ k (hk : k < log.length),
      R (stateAt step start log k) (stateAt step' start' log k) →
        R (step (stateAt step start log k) log[k]) (step' (stateAt step' start' log k) log[k])) :
    ∀ k, R (stateAt step start log k) (stateAt step' start' log k) := by
  intro k
  induction k with
  | zero => simpa using hstart
  | succ k ih =>
      by_cases hk : k < log.length
      · rw [stateAt_succ hk, stateAt_succ hk]
        exact hstep k hk ih
      · have hlen : log.length ≤ k := not_lt.mp hk
        rw [stateAt_eq_of_length_le (hlen.trans (Nat.le_succ k)),
          stateAt_eq_of_length_le (hlen.trans (Nat.le_succ k)), ← stateAt_eq_of_length_le hlen,
          ← stateAt_eq_of_length_le hlen]
        exact ih

theorem relates {R : σ → σ → Prop} (hrefl : ∀ s, R s s)
    (htrans : ∀ s t u, R s t → R t u → R s u)
    (hstep : ∀ k (hk : k < log.length),
      R (stateAt step start log k) (step (stateAt step start log k) log[k]))
    {i j : Nat} (hij : i ≤ j) :
    R (stateAt step start log i) (stateAt step start log j) := by
  induction j, hij using Nat.le_induction with
  | base => exact hrefl _
  | succ j hij ih =>
      by_cases hj : j < log.length
      · rw [stateAt_succ hj]
        exact htrans _ _ _ ih (hstep j hj)
      · rw [stateAt_eq_of_length_le (by omega : log.length ≤ j + 1),
          ← stateAt_eq_of_length_le (by omega : log.length ≤ j)]
        exact ih

/-- A counter fences a view of the state when every step either keeps both or
raises the counter.  Two states of the run with one counter value then show the
same view. -/
theorem fenced {γ : Type*} (counter : σ → Nat) (view : σ → γ)
    (hstep : ∀ k (hk : k < log.length),
      let s := stateAt step start log k
      let t := step s log[k]
      (counter t = counter s ∧ view t = view s) ∨ counter s < counter t)
    {i j : Nat} (hij : i ≤ j) :
    counter (stateAt step start log i) ≤ counter (stateAt step start log j) ∧
      (counter (stateAt step start log i) = counter (stateAt step start log j) →
        view (stateAt step start log i) = view (stateAt step start log j)) := by
  apply relates (R := fun s t => counter s ≤ counter t ∧ (counter s = counter t → view s = view t))
    (fun s => ⟨le_rfl, fun _ => rfl⟩) _ _ hij
  · rintro s t u ⟨hst, hview⟩ ⟨htu, hview'⟩
    refine ⟨hst.trans htu, fun h => ?_⟩
    rw [hview (by omega), hview' (by omega)]
  · intro k hk
    rcases hstep k hk with ⟨hc, hv⟩ | hlt
    · exact ⟨hc.ge, fun _ => hv.symm⟩
    · exact ⟨hlt.le, fun h => absurd h (by omega)⟩

end NexusAuth.Lib.Runs
