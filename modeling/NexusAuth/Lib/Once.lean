import NexusAuth.Lib.Rely

/-!
# Made once

A cell that is filled at most once: it is read without a lock, and if it is empty, again under
the lock, before its value is made.  Making and setting may be two steps, and making may fail.
-/

namespace NexusAuth.Lib.Once

open NexusAuth.Lib.Interaction NexusAuth.Lib.Rely NexusAuth.Lib.Tasks

/-- A cell of the shared state with the owner that holds its lock, the number of values that
have been made for it, and what the first of them is like. -/
structure Cell (ι σ γ : Type) where
  value : σ → Option γ
  holder : σ → Option ι
  made : σ → Nat
  first : γ → Prop

namespace Cell

variable {ι σ γ Q : Type} {A : Q → Type} {α : Type}

structure Same (cell : Cell ι σ γ) (s s' : σ) : Prop where
  value : cell.value s' = cell.value s
  holder : cell.holder s' = cell.holder s
  made : cell.made s' = cell.made s

/-- A value is made only while the cell is empty, under the lock. -/
structure Inv (cell : Cell ι σ γ) (s : σ) : Prop where
  made_le : cell.made s ≤ 1
  full : (cell.value s).isSome → cell.made s = 1
  free : cell.holder s = none → cell.value s = none → cell.made s = 0
  first : ∀ c, cell.value s = some c → cell.first c

structure May (cell : Cell ι σ γ) (i : ι) (s s' : σ) : Prop where
  holder : ∀ j, j ≠ i → (cell.holder s' = some j ↔ cell.holder s = some j)
  locked : ∀ j, j ≠ i → cell.holder s = some j →
    cell.value s' = cell.value s ∧ cell.made s' = cell.made s
  value : ∀ c, cell.value s = some c → cell.value s' = some c

def protocol (cell : Cell ι σ γ) (answers : σ → ι → (q : Q) → A q → σ → Prop) :
    Protocol ι σ Q A where
  answers := answers
  inv := cell.Inv
  may := cell.May

variable {cell : Cell ι σ γ} {answers : σ → ι → (q : Q) → A q → σ → Prop} {i : ι} {s s' : σ}

theorem Same.inv (h : cell.Same s s') (hs : cell.Inv s) : cell.Inv s' where
  made_le := h.made ▸ hs.made_le
  full hvalue := h.made ▸ hs.full (h.value ▸ hvalue)
  free hholder hvalue := h.made ▸ hs.free (h.holder ▸ hholder) (h.value ▸ hvalue)
  first c hc := hs.first c (h.value ▸ hc)

theorem Same.may (h : cell.Same s s') : cell.May i s s' where
  holder j _ := by rw [h.holder]
  locked j _ _ := ⟨h.value, h.made⟩
  value c hc := h.value ▸ hc

/-! ## What a task knows of the cell -/

def Away (cell : Cell ι σ γ) (i : ι) (s : σ) : Prop := cell.holder s ≠ some i

/-- The lock is held, and nothing is half done. -/
def Inside (cell : Cell ι σ γ) (i : ι) (s : σ) : Prop :=
  cell.holder s = some i ∧ (cell.value s = none → cell.made s = 0)

/-- The lock is held and the cell is empty; `n` values have been made. -/
def Empty (cell : Cell ι σ γ) (i : ι) (n : Nat) (s : σ) : Prop :=
  cell.holder s = some i ∧ cell.value s = none ∧ cell.made s = n

theorem stable_away : (cell.protocol answers).Stable i (cell.Away i) :=
  fun _ _ _ hj _ h hmay hholder => h ((hmay.holder i (Ne.symm hj)).mp hholder)

theorem stable_inside : (cell.protocol answers).Stable i (cell.Inside i) := by
  intro j s s' hj _ h hmay
  obtain ⟨hvalue, hmade⟩ := hmay.locked i (Ne.symm hj) h.1
  refine ⟨(hmay.holder i (Ne.symm hj)).mpr h.1, ?_⟩
  rw [hvalue, hmade]
  exact h.2

theorem stable_empty {n : Nat} : (cell.protocol answers).Stable i (cell.Empty i n) := by
  intro j s s' hj _ h hmay
  obtain ⟨hvalue, hmade⟩ := hmay.locked i (Ne.symm hj) h.1
  exact ⟨(hmay.holder i (Ne.symm hj)).mpr h.1, hvalue.trans h.2.1, hmade.trans h.2.2⟩

theorem Empty.inside (h : cell.Empty i 0 s) : cell.Inside i s := ⟨h.1, fun _ => h.2.2⟩

/-! ## The steps -/

theorem Same.away (h : cell.Same s s') (hs : cell.Away i s) : cell.Away i s' :=
  fun hholder => hs (h.holder ▸ hholder)

theorem Same.empty {n : Nat} (h : cell.Same s s') (hs : cell.Empty i n s) : cell.Empty i n s' :=
  ⟨h.holder.trans hs.1, h.value.trans hs.2.1, h.made.trans hs.2.2⟩

structure Takes (cell : Cell ι σ γ) (i : ι) (s s' : σ) : Prop where
  value : cell.value s' = cell.value s
  made : cell.made s' = cell.made s
  free : cell.holder s = none
  holder : cell.holder s' = some i

structure Gives (cell : Cell ι σ γ) (i : ι) (s s' : σ) : Prop where
  value : cell.value s' = cell.value s
  made : cell.made s' = cell.made s
  held : cell.holder s = some i
  holder : cell.holder s' = none

theorem Takes.step (h : cell.Takes i s s') (hs : cell.Inv s) :
    cell.Inv s' ∧ cell.May i s s' ∧ cell.Inside i s' := by
  refine ⟨⟨h.made ▸ hs.made_le, fun hvalue => h.made ▸ hs.full (h.value ▸ hvalue), fun hnone => ?_,
    fun c hc => hs.first c (h.value ▸ hc)⟩,
      ⟨fun j hj => ?_, fun j _ hj => ?_, fun c hc => h.value ▸ hc⟩, h.holder, fun hvalue => ?_⟩
  · rw [h.holder] at hnone
    cases hnone
  · rw [h.holder, h.free]
    exact iff_of_false (fun heq => hj (Option.some.inj heq).symm) (fun heq => by cases heq)
  · rw [h.free] at hj
    cases hj
  · exact h.made.trans (hs.free h.free (h.value ▸ hvalue))

theorem Gives.step (h : cell.Gives i s s') (hs : cell.Inv s) (hinside : cell.Inside i s) :
    cell.Inv s' ∧ cell.May i s s' ∧ cell.Away i s' := by
  refine ⟨⟨h.made ▸ hs.made_le, fun hvalue => h.made ▸ hs.full (h.value ▸ hvalue),
    fun _ hvalue => h.made.trans (hinside.2 (h.value ▸ hvalue)),
    fun c hc => hs.first c (h.value ▸ hc)⟩,
    ⟨fun j hj => ?_, fun j hj hholder => ?_, fun c hc => h.value ▸ hc⟩, ?_⟩
  · rw [h.holder, h.held]
    exact iff_of_false (fun heq => by cases heq) (fun heq => hj (Option.some.inj heq).symm)
  · exact absurd (Option.some.inj (h.held.symm.trans hholder)).symm hj
  · rw [Away, h.holder]
    exact fun heq => by cases heq

theorem may_of_held (hheld : cell.holder s = some i) (hholder : cell.holder s' = cell.holder s)
    (hvalue : ∀ c, cell.value s = some c → cell.value s' = some c) : cell.May i s s' where
  holder j _ := by rw [hholder]
  locked j hj hj' := absurd (Option.some.inj (hheld.symm.trans hj')).symm hj
  value := hvalue

structure Makes (cell : Cell ι σ γ) (s s' : σ) : Prop where
  value : cell.value s' = cell.value s
  holder : cell.holder s' = cell.holder s
  made : cell.made s' = cell.made s + 1

structure Fills (cell : Cell ι σ γ) (c : γ) (s s' : σ) : Prop where
  value : cell.value s' = some c
  holder : cell.holder s' = cell.holder s
  made : cell.made s' = cell.made s

theorem Makes.step (h : cell.Makes s s') (hempty : cell.Empty i 0 s) :
    cell.Inv s' ∧ cell.May i s s' ∧ cell.Empty i 1 s' := by
  obtain ⟨hvalue, hholder, hmade⟩ := h
  obtain ⟨hheld, hnone, hzero⟩ := hempty
  have hone : cell.made s' = 1 := by rw [hmade, hzero]
  refine ⟨⟨hone.le, fun _ => hone, fun hfree => ?_, fun c hc => ?_⟩,
    may_of_held hheld hholder fun c hc => hvalue ▸ hc, hholder.trans hheld,
    hvalue.trans hnone, hone⟩
  · rw [hholder, hheld] at hfree
    cases hfree
  · rw [hvalue, hnone] at hc
    cases hc

theorem Fills.step {c : γ} (h : cell.Fills c s s') (hempty : cell.Empty i 1 s) (hc : cell.first c) :
    cell.Inv s' ∧ cell.May i s s' ∧ cell.Inside i s' := by
  obtain ⟨hvalue, hholder, hmade⟩ := h
  obtain ⟨hheld, hnone, hone⟩ := hempty
  have hsome : cell.value s' ≠ none := by rw [hvalue]; exact Option.some_ne_none c
  refine ⟨⟨(hmade.trans hone).le, fun _ => hmade.trans hone, fun _ h => absurd h hsome,
    fun d hd => Option.some.inj (hvalue.symm.trans hd) ▸ hc⟩,
    may_of_held hheld hholder fun d hd => ?_, hholder.trans hheld, fun h => absurd h hsome⟩
  rw [hnone] at hd
  cases hd

/-! ## Programs -/

structure Kept (cell : Cell ι σ γ) (answers : σ → ι → (q : Q) → A q → σ → Prop) (i : ι)
    (P : σ → Prop) : Prop where
  stable : (cell.protocol answers).Stable i P
  same : ∀ s s', cell.Same s s' → P s → P s'

theorem kept_away : cell.Kept answers i (cell.Away i) := ⟨stable_away, fun _ _ h => h.away⟩

theorem kept_empty {n : Nat} : cell.Kept answers i (cell.Empty i n) :=
  ⟨stable_empty, fun _ _ h => h.empty⟩

theorem triple_same_bind {P : σ → Prop} {q : Q} {f : A q → Prog Q A α} {R : α → σ → Prop}
    (hP : cell.Kept answers i P) (hsame : ∀ a s s', answers s i q a s' → cell.Same s s')
    (hnext : ∀ a, (cell.protocol answers).Triple i P (f a) R) :
    (cell.protocol answers).Triple i P (request q >>= f) R :=
  triple_kept_bind hP.stable (fun a s s' hs hPs h =>
    ⟨(hsame a s s' h).inv hs, (hsame a s s' h).may, hP.same s s' (hsame a s s' h) hPs⟩) hnext

theorem triple_same {P : σ → Prop} {p : Prog Q A α} {C : Q → Prop} (hP : cell.Kept answers i P)
    (hsame : ∀ q a s s', C q → answers s i q a s' → cell.Same s s') (h : Asks C p) :
    (cell.protocol answers).Triple i P p fun _ => P :=
  triple_of_asks hP.stable (fun q a s s' hq hs hPs hans =>
    ⟨(hsame q a s s' hq hans).inv hs, (hsame q a s s' hq hans).may,
      hP.same s s' (hsame q a s s' hq hans) hPs⟩) h

end Cell

end NexusAuth.Lib.Once
