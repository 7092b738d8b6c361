import Mathlib

/-!
# Reading from a stream

A stream hands out its data in pieces whose sizes the reader does not choose.  What a reader
that asks for an exact amount gets does not depend on the pieces.
-/

namespace NexusAuth.Lib.Streams

variable {α ε : Type}

/-- What the coming reads find: data, or an error.  A read that finds no data, and every read
after the last one, is at the end of the stream. -/
abbrev Source (ε α : Type) := List (Except ε (List α))

def delivered : Source ε α → List α
  | [] => []
  | .error _ :: _ => []
  | .ok [] :: _ => []
  | .ok (x :: xs) :: rest => x :: xs ++ delivered rest

/-- Reads until `n` elements are there.  What is left of a piece stays for the next read. -/
def readExact (eof : ε) : Nat → Source ε α → Except ε (List α) × Source ε α
  | 0, source => (.ok [], source)
  | _ + 1, [] => (.error eof, [])
  | _ + 1, .error e :: rest => (.error e, rest)
  | _ + 1, .ok [] :: rest => (.error eof, rest)
  | n + 1, .ok (x :: xs) :: rest =>
      if n < xs.length then (.ok (x :: xs.take n), .ok (xs.drop n) :: rest)
      else
        match readExact eof (n - xs.length) rest with
        | (.error e, rest) => (.error e, rest)
        | (.ok more, rest) => (.ok (x :: xs ++ more), rest)

variable (eof : ε) {n : Nat} {source source' : Source ε α} {front rest : List α}

theorem delivered_drop {xs : List α} (h : n < xs.length) (rest : Source ε α) :
    delivered (.ok (xs.drop n) :: rest) = xs.drop n ++ delivered rest := by
  cases hdrop : xs.drop n with
  | nil =>
      have hlength := congrArg List.length hdrop
      rw [List.length_drop, List.length_nil] at hlength
      omega
  | cons y ys => rfl

theorem readExact_append (h : delivered source = front ++ rest) (hn : front.length = n) :
    ∃ source', readExact eof n source = (.ok front, source') ∧ delivered source' = rest := by
  induction source generalizing n front with
  | nil =>
      obtain ⟨rfl, rfl⟩ := List.append_eq_nil_iff.mp h.symm
      subst hn
      exact ⟨[], rfl, rfl⟩
  | cons piece pieces ih =>
      cases n with
      | zero =>
          obtain rfl := List.eq_nil_of_length_eq_zero hn
          exact ⟨piece :: pieces, rfl, h⟩
      | succ n =>
          match piece, h with
          | .error _, h | .ok [], h =>
              obtain ⟨rfl, -⟩ := List.append_eq_nil_iff.mp h.symm
              exact (Nat.succ_ne_zero n hn.symm).elim
          | .ok (x :: xs), h =>
              obtain ⟨front, rfl⟩ : ∃ tail, front = x :: tail := by
                cases front with
                | nil => exact (Nat.succ_ne_zero n hn.symm).elim
                | cons y ys => exact ⟨ys, by rw [(List.cons.inj h).1]⟩
              have hfront : front.length = n := Nat.succ.inj hn
              have htail : xs ++ delivered pieces = front ++ rest := (List.cons.inj h).2
              rw [readExact]
              by_cases hlt : n < xs.length
              · -- the piece alone is enough
                rw [if_pos hlt]
                have hsplit : xs = xs.take n ++ xs.drop n := (List.take_append_drop n xs).symm
                have htake : (xs.take n).length = front.length := by
                  rw [List.length_take, hfront]
                  omega
                rw [hsplit, List.append_assoc] at htail
                obtain ⟨rfl, hrest⟩ := List.append_inj htail htake
                exact ⟨_, rfl, (delivered_drop hlt pieces).trans hrest⟩
              · -- the rest of the buffer comes from the later pieces
                rw [if_neg hlt]
                have hpart : xs <+: front :=
                  List.prefix_of_prefix_length_le ⟨_, rfl⟩ ⟨rest, htail.symm⟩ (by omega)
                obtain ⟨more, rfl⟩ := hpart
                rw [List.append_assoc, List.append_cancel_left_eq] at htail
                rw [List.length_append] at hfront
                obtain ⟨source', hread, hsource'⟩ := ih htail (n := n - xs.length) (by omega)
                rw [hread]
                exact ⟨source', rfl, hsource'⟩

theorem readExact_short (h : (delivered source).length < n) :
    ∃ e source', readExact eof n source = (.error e, source') := by
  induction source generalizing n with
  | nil =>
      cases n with
      | zero => exact (Nat.not_lt_zero _ h).elim
      | succ n => exact ⟨eof, [], rfl⟩
  | cons piece pieces ih =>
      cases n with
      | zero => exact (Nat.not_lt_zero _ h).elim
      | succ n =>
          match piece, h with
          | .error e, _ => exact ⟨e, pieces, rfl⟩
          | .ok [], _ => exact ⟨eof, pieces, rfl⟩
          | .ok (x :: xs), h =>
              have hlength : (x :: xs ++ delivered pieces).length < n + 1 := h
              rw [List.length_append, List.length_cons] at hlength
              obtain ⟨e, source', hread⟩ := ih (n := n - xs.length) (by omega)
              rw [readExact, if_neg (by omega), hread]
              exact ⟨e, source', rfl⟩

theorem delivered_of_readExact {eof : ε} (h : readExact eof n source = (.ok front, source')) :
    front.length = n ∧ delivered source = front ++ delivered source' := by
  by_cases hlt : (delivered source).length < n
  · obtain ⟨e, left, hread⟩ := readExact_short eof hlt
    rw [hread] at h
    cases h
  · have hlength : ((delivered source).take n).length = n := by
      rw [List.length_take]
      omega
    obtain ⟨left, hread, hleft⟩ :=
      readExact_append eof (List.take_append_drop n (delivered source)).symm hlength
    rw [hread] at h
    cases h
    exact ⟨hlength, by rw [hleft, List.take_append_drop]⟩

end NexusAuth.Lib.Streams
