import Mathlib

/-!
# Machine words

A `u64` counter is a natural number.  `succ64` is `+ 1` on it and wraps, as an
unchecked addition does; `saturatingSucc64` stops at the largest value.  `u32`
counters keep their type.
-/

namespace NexusAuth.Lib.Words

def u64Max : Nat := 2 ^ 64 - 1

def succ64 (n : Nat) : Nat := (n + 1) % 2 ^ 64

def saturatingSucc64 (n : Nat) : Nat := min (n + 1) u64Max

def saturatingAdd64 (a b : Nat) : Nat := min (a + b) u64Max

def absDiff (a b : Nat) : Nat := (a - b) + (b - a)

def saturatingSucc32 (n : UInt32) : UInt32 := if n = UInt32.ofNat (2 ^ 32 - 1) then n else n + 1

theorem succ64_of_lt {n : Nat} (h : n < u64Max) : succ64 n = n + 1 := by
  unfold u64Max at h
  exact Nat.mod_eq_of_lt (by omega)

theorem saturatingSucc64_of_lt {n : Nat} (h : n < u64Max) : saturatingSucc64 n = n + 1 := by
  exact Nat.min_eq_left h

/-- A counter below another `u32` is not at its maximum, so nothing saturates. -/
theorem toNat_saturatingSucc32 {n bound : UInt32} (h : n < bound) :
    (saturatingSucc32 n).toNat = n.toNat + 1 := by
  have hlt : n.toNat < bound.toNat := UInt32.lt_iff_toNat_lt.mp h
  have hbound : bound.toNat < 2 ^ 32 := bound.toNat_lt
  have hne : n ≠ UInt32.ofNat (2 ^ 32 - 1) := by
    rintro rfl
    simp at hlt
    omega
  rw [saturatingSucc32, if_neg hne, UInt32.toNat_add, UInt32.toNat_one]
  exact Nat.mod_eq_of_lt (by omega)

/-- Bytes in their numeric order, so that byte strings compare lexicographically. -/
instance linearOrderUInt8 : LinearOrder UInt8 where
  le_refl := UInt8.le_refl
  le_trans _ _ _ := UInt8.le_trans
  le_antisymm _ _ := UInt8.le_antisymm
  le_total := UInt8.le_total
  lt_iff_le_not_ge a b := by
    rw [UInt8.not_le]
    exact ⟨fun h => ⟨UInt8.le_of_lt h, h⟩, fun h => h.2⟩
  toDecidableLE := inferInstance
  toDecidableEq := inferInstance
  toDecidableLT := inferInstance

end NexusAuth.Lib.Words
