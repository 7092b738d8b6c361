import Mathlib

/-!
# Reading a frame back

A frame is a concatenation of fields.  A field of fixed width is found by its length.  A field
in which a separator does not occur ends at the first separator, or, at the end of the frame,
begins after the last one.  A number of fixed width is found by its digits.
-/

namespace NexusAuth.Lib.Framing

variable {α : Type} {sep : α} {xs ys rest rest' : List α}

/-! ## Separators -/

theorem append_sep_inj (hx : sep ∉ xs) (hy : sep ∉ ys)
    (h : xs ++ sep :: rest = ys ++ sep :: rest') : xs = ys ∧ rest = rest' := by
  induction xs generalizing ys with
  | nil =>
      cases ys with
      | nil => exact ⟨rfl, (List.cons.inj h).2⟩
      | cons y ys =>
          have hhead : sep = y := (List.cons.inj h).1
          exact (hy (hhead ▸ List.mem_cons_self)).elim
  | cons x xs ih =>
      cases ys with
      | nil =>
          have hhead : x = sep := (List.cons.inj h).1
          exact (hx (hhead ▸ List.mem_cons_self)).elim
      | cons y ys =>
          obtain ⟨rfl, htail⟩ := List.cons.inj h
          obtain ⟨rfl, hrest⟩ := ih (fun hmem => hx (List.mem_cons_of_mem _ hmem))
            (fun hmem => hy (List.mem_cons_of_mem _ hmem)) htail
          exact ⟨rfl, hrest⟩

theorem append_sep_ne (hx : sep ∉ xs) (hy : sep ∉ ys) (hne : xs ≠ ys) :
    xs ++ sep :: rest ≠ ys ++ sep :: rest' :=
  fun h => hne (append_sep_inj hx hy h).1

/-- Two fields without the separator, where only one frame is known to be made of such. -/
theorem append_sep_inj_of_plain (hx : sep ∉ xs) (hrest : sep ∉ rest)
    (h : ys ++ sep :: rest' = xs ++ sep :: rest) : ys = xs ∧ rest' = rest := by
  classical
  have hcount := congrArg (List.count sep) h
  rw [List.count_append, List.count_append, List.count_cons_self, List.count_cons_self,
    List.count_eq_zero.mpr hx, List.count_eq_zero.mpr hrest] at hcount
  have hys : sep ∉ ys := List.count_eq_zero.mp (by omega)
  exact append_sep_inj hys hx h

/-- A separator that is the code of one element, and is part of no other code, splits a list of
encoded elements. -/
theorem flatMap_eq_append_cons {β : Type} {code : β → List α} {z : β} (hz : code z = [sep])
    (hsep : ∀ b, sep ∈ code b → b = z) {bs : List β} (h : bs.flatMap code = xs ++ sep :: ys) :
    ∃ front back, bs = front ++ z :: back ∧ front.flatMap code = xs ∧ back.flatMap code = ys := by
  induction bs generalizing xs with
  | nil => simp at h
  | cons b bs ih =>
      rw [List.flatMap_cons, List.append_eq_append_iff] at h
      obtain ⟨more, rfl, hbs⟩ | ⟨more, hb, hrest⟩ := h
      · obtain ⟨front, back, rfl, rfl, hback⟩ := ih hbs
        exact ⟨b :: front, back, rfl, rfl, hback⟩
      · cases more with
        | nil =>
            obtain ⟨front, back, rfl, hfront, hback⟩ := @ih [] hrest.symm
            exact ⟨b :: front, back, rfl, by simp [hfront, hb], hback⟩
        | cons first more =>
            obtain ⟨rfl, rfl⟩ := List.cons.inj hrest
            obtain rfl := hsep b (by simp [hb])
            obtain ⟨rfl, rfl⟩ : xs = [] ∧ more = [] := by
              have hlength := congrArg List.length (hz.symm.trans hb)
              simp only [List.length_append, List.length_cons, List.length_nil] at hlength
              constructor <;> rw [← List.length_eq_zero_iff] <;> omega
            exact ⟨[], bs, rfl, rfl, rfl⟩

/-! ## Lists of fields -/

theorem mem_intercalate {x : α} {seps : List α} {items : List (List α)}
    (h : x ∈ seps.intercalate items) : x ∈ seps ∨ ∃ item ∈ items, x ∈ item := by
  induction items with
  | nil => simp at h
  | cons item items ih =>
      cases items with
      | nil =>
          rw [List.intercalate_singleton] at h
          exact .inr ⟨item, List.mem_cons_self, h⟩
      | cons next items =>
          rw [List.intercalate_cons_cons, List.mem_append, List.mem_append] at h
          obtain (hitem | hsep) | hrest := h
          · exact .inr ⟨item, List.mem_cons_self, hitem⟩
          · exact .inl hsep
          · obtain hsep | ⟨other, hother, hx⟩ := ih hrest
            · exact .inl hsep
            · exact .inr ⟨other, List.mem_cons_of_mem _ hother, hx⟩

def IsItem (sep : α) (item : List α) : Prop := sep ∉ item ∧ item ≠ []

theorem intercalate_ne_nil {item : List α} {items : List (List α)} (h : IsItem sep item) :
    [sep].intercalate (item :: items) ≠ [] := by
  cases items with
  | nil =>
      rw [List.intercalate_singleton]
      exact h.2
  | cons next items =>
      rw [List.intercalate_cons_cons]
      simp

theorem intercalate_inj {items items' : List (List α)} (h : ∀ item ∈ items, IsItem sep item)
    (h' : ∀ item ∈ items', IsItem sep item)
    (heq : [sep].intercalate items = [sep].intercalate items') : items = items' := by
  induction items generalizing items' with
  | nil =>
      cases items' with
      | nil => rfl
      | cons item' items' => exact (intercalate_ne_nil (h' item' List.mem_cons_self) heq.symm).elim
  | cons item items ih =>
      obtain ⟨hitem, hitems⟩ := List.forall_mem_cons.mp h
      cases items' with
      | nil => exact (intercalate_ne_nil hitem heq).elim
      | cons item' items' =>
          obtain ⟨hitem', hitems'⟩ := List.forall_mem_cons.mp h'
          -- one side may end here; the other one then has no separator either
          cases items with
          | nil =>
              cases items' with
              | nil => simpa [List.intercalate_singleton] using heq
              | cons next' items' =>
                  rw [List.intercalate_singleton, List.intercalate_cons_cons] at heq
                  exact (hitem.1 (by simp [heq])).elim
          | cons next items =>
              cases items' with
              | nil =>
                  rw [List.intercalate_singleton, List.intercalate_cons_cons] at heq
                  exact (hitem'.1 (by simp [← heq])).elim
              | cons next' items' =>
                  simp only [List.intercalate_cons_cons, List.append_assoc,
                    List.singleton_append] at heq
                  obtain ⟨rfl, hrest⟩ := append_sep_inj hitem.1 hitem'.1 heq
                  rw [ih hitems hitems' hrest]

theorem intercalate_append_inj {items items' more more' : List (List α)}
    (hlength : items.length = items'.length) (h : ∀ item ∈ items, sep ∉ item)
    (h' : ∀ item ∈ items', sep ∉ item) (hmore : more ≠ []) (hmore' : more' ≠ [])
    (heq : [sep].intercalate (items ++ more) = [sep].intercalate (items' ++ more')) :
    items = items' := by
  induction items generalizing items' with
  | nil => exact (List.length_eq_zero_iff.mp hlength.symm).symm
  | cons item items ih =>
      cases items' with
      | nil => cases hlength
      | cons item' items' =>
          have hne : items ++ more ≠ [] := List.append_ne_nil_of_right_ne_nil _ hmore
          have hne' : items' ++ more' ≠ [] := List.append_ne_nil_of_right_ne_nil _ hmore'
          rw [List.cons_append, List.cons_append, List.intercalate_cons_of_ne_nil hne,
            List.intercalate_cons_of_ne_nil hne'] at heq
          simp only [List.append_assoc, List.singleton_append] at heq
          obtain ⟨hitem, hitems⟩ := List.forall_mem_cons.mp h
          obtain ⟨hitem', hitems'⟩ := List.forall_mem_cons.mp h'
          obtain ⟨rfl, hrest⟩ := append_sep_inj hitem hitem' heq
          rw [ih (Nat.succ.inj hlength) hitems hitems' hrest]

/-! ## Words -/

section Words

variable {p : α → Bool}

def words (p : α → Bool) (xs : List α) : List (List α) :=
  (xs.splitOnP p).filter fun word => !word.isEmpty

theorem words_append_cons (hsep : p sep = true) :
    words p (xs ++ sep :: ys) = words p xs ++ words p ys := by
  rw [words, List.splitOnP_append_cons _ _ hsep, List.filter_append]
  rfl

theorem words_eq_singleton (h : ∀ x ∈ xs, p x = false) (hne : xs ≠ []) : words p xs = [xs] := by
  rw [words, List.splitOnP_eq_singleton h]
  simp [hne]

theorem words_cons_ne_nil {x : α} (hx : p x = false) : words p (x :: xs) ≠ [] := by
  rw [words, List.splitOnP_cons_eq_if_modifyHead, hx]
  cases hsplit : xs.splitOnP p with
  | nil => exact absurd hsplit (List.splitOnP_ne_nil p xs)
  | cons word rest => simp

theorem not_sep_of_mem_splitOnP {word : List α} (h : word ∈ xs.splitOnP p) :
    ∀ x ∈ word, p x = false := by
  induction xs generalizing word with
  | nil =>
      obtain rfl : word = [] := by simpa using h
      simp
  | cons x xs ih =>
      rw [List.splitOnP_cons_eq_if_modifyHead] at h
      cases hx : p x with
      | true =>
          rw [hx, if_pos rfl] at h
          obtain rfl | h := List.mem_cons.mp h
          · simp
          · exact ih h
      | false =>
          rw [hx] at h
          cases hsplit : xs.splitOnP p with
          | nil => exact absurd hsplit (List.splitOnP_ne_nil p xs)
          | cons first rest =>
              rw [hsplit] at h
              obtain rfl | h := List.mem_cons.mp h
              · intro y hy
                obtain rfl | hy := List.mem_cons.mp hy
                · exact hx
                · exact ih (hsplit ▸ List.mem_cons_self) y hy
              · exact ih (hsplit ▸ List.mem_cons_of_mem _ h)

theorem not_sep_of_mem_words {word : List α} (h : word ∈ words p xs) : ∀ x ∈ word, p x = false :=
  not_sep_of_mem_splitOnP (List.mem_filter.mp h).1

theorem words_intercalate_append (hsep : p sep = true) {items more : List (List α)}
    (h : ∀ item ∈ items, (∀ x ∈ item, p x = false) ∧ item ≠ []) (hmore : more ≠ []) :
    words p ([sep].intercalate (items ++ more)) = items ++ words p ([sep].intercalate more) := by
  induction items with
  | nil => rfl
  | cons item items ih =>
      obtain ⟨⟨hitem, hne⟩, hitems⟩ := List.forall_mem_cons.mp h
      have hrest : items ++ more ≠ [] := List.append_ne_nil_of_right_ne_nil _ hmore
      rw [List.cons_append, List.intercalate_cons_of_ne_nil hrest, List.append_assoc,
        List.singleton_append, words_append_cons hsep, words_eq_singleton hitem hne, ih hitems]
      rfl

end Words

/-! ## Numbers -/

section Digits

variable {b w n m : Nat}

theorem mod_pow_eq_of_digits (h : ∀ i < w, n / b ^ i % b = m / b ^ i % b) :
    n % b ^ w = m % b ^ w := by
  induction w with
  | zero => simp [Nat.mod_one]
  | succ w ih =>
      have hlow := ih fun i hi => h i (Nat.lt_succ_of_lt hi)
      rw [Nat.mod_pow_succ, Nat.mod_pow_succ, hlow, h w (Nat.lt_succ_self w)]

theorem eq_of_digits (hn : n < b ^ w) (hm : m < b ^ w)
    (h : ∀ i < w, n / b ^ i % b = m / b ^ i % b) : n = m := by
  have hmod := mod_pow_eq_of_digits h
  rwa [Nat.mod_eq_of_lt hn, Nat.mod_eq_of_lt hm] at hmod

end Digits

end NexusAuth.Lib.Framing
