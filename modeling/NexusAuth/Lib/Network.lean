import Mathlib

/-!
# A network that keeps everything it was given

Messages that were sent stay available for ever: the network may deliver any of them
at any time, in any order, again, or never.  It may also deliver messages of its own,
as long as they do not pass for signed ones.
-/

namespace NexusAuth.Lib.Network

inductive Delivery (M : Type)
  /-- Some message that was sent. -/
  | replayed (index : Nat)
  /-- A message that nobody sent. -/
  | forged (message : M)

variable {M : Type}

/-- The message of a delivery, when `sent` are the messages so far.  Nobody but the
signer can make a message that verifies. -/
def Delivery.message (verifies : M → Bool) (sent : List M) : Delivery M → Option M
  | .replayed index => sent[index]?
  | .forged message => if verifies message then none else some message

theorem Delivery.message_cases {verifies : M → Bool} {sent : List M} {d : Delivery M} {m : M}
    (h : d.message verifies sent = some m) : m ∈ sent ∨ verifies m = false := by
  cases d with
  | replayed index => exact Or.inl (List.mem_of_getElem? h)
  | forged message =>
      rw [Delivery.message] at h
      split at h
      · cases h
      · rename_i hv
        cases h
        exact Or.inr (Bool.eq_false_iff.mpr hv)

theorem exists_delivery (verifies : M → Bool) {sent : List M} {m : M} (h : m ∈ sent) :
    ∃ d : Delivery M, d.message verifies sent = some m := by
  obtain ⟨index, hindex⟩ := List.getElem?_of_mem h
  exact ⟨.replayed index, hindex⟩

end NexusAuth.Lib.Network
