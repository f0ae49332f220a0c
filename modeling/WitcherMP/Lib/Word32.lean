import Mathlib.Algebra.Ring.Nat
import Mathlib.Logic.Function.Iterate
import Mathlib.Order.Basic

/-! The 32-bit word as a key and as a wrapping counter. -/

namespace WitcherMP

instance linearOrderUInt32 : LinearOrder UInt32 where
  le_refl := UInt32.le_refl
  le_trans _ _ _ := UInt32.le_trans
  le_antisymm _ _ := UInt32.le_antisymm
  le_total := UInt32.le_total
  lt_iff_le_not_ge a b := by
    rw [UInt32.not_le]
    exact ⟨fun h => ⟨UInt32.le_of_lt h, h⟩, fun h => h.2⟩
  toDecidableLE := inferInstance
  toDecidableEq := inferInstance
  toDecidableLT := inferInstance

namespace Word32

theorem toNat_lt (a : UInt32) : a.toNat < 2 ^ 32 := a.toNat_lt

theorem toNat_add {a b : UInt32} (h : a.toNat + b.toNat < 2 ^ 32) :
    (a + b).toNat = a.toNat + b.toNat := by
  rw [UInt32.toNat_add, Nat.mod_eq_of_lt h]

theorem toNat_sub {a b : UInt32} (h : b ≤ a) : (a - b).toNat + b.toNat = a.toNat := by
  rw [UInt32.toNat_sub_of_le a b h]
  exact Nat.sub_add_cancel (UInt32.le_iff_toNat_le.mp h)

theorem toNat_pred {a : UInt32} (h : 0 < a.toNat) : (a - 1).toNat + 1 = a.toNat := by
  have hone : (1 : UInt32) ≤ a := by
    rw [UInt32.le_iff_toNat_le, UInt32.toNat_one]
    exact h
  have hsub := toNat_sub hone
  rwa [UInt32.toNat_one] at hsub

/-! A word below another has a successor. -/

section Successor
variable {a b : UInt32}

theorem toNat_succ_of_lt (h : a < b) : (a + 1).toNat = a.toNat + 1 := by
  have hlt := UInt32.lt_iff_toNat_lt.mp h
  have hb := b.toNat_lt
  exact toNat_add (by rw [UInt32.toNat_one]; omega)

theorem succ_le_of_lt (h : a < b) : a + 1 ≤ b := by
  rw [UInt32.le_iff_toNat_le, toNat_succ_of_lt h]
  exact UInt32.lt_iff_toNat_lt.mp h

theorem lt_succ_of_lt (h : a < b) : a < a + 1 := by
  rw [UInt32.lt_iff_toNat_lt, toNat_succ_of_lt h]
  exact Nat.lt_succ_self _

theorem one_le_succ_of_lt (h : a < b) : 1 ≤ a + 1 := by
  rw [UInt32.le_iff_toNat_le, toNat_succ_of_lt h, UInt32.toNat_one]
  exact Nat.le_add_left 1 _

theorem eq_or_succ_lt (h : a < b) : b = a + 1 ∨ a + 1 < b :=
  (eq_or_lt_of_le (succ_le_of_lt h)).imp_left Eq.symm

end Successor

/-! A counter that goes up by one to a cap, with a sum that wraps before it is capped. -/

section Counter
variable (cap c : UInt32)

def tick : UInt32 := min (c + 1) cap

theorem toNat_tick : (tick cap c).toNat = min ((c.toNat + 1) % 2 ^ 32) cap.toNat := by
  have hsum : (c + 1).toNat = (c.toNat + 1) % 2 ^ 32 := UInt32.toNat_add c 1
  rw [tick]
  rcases le_total (c + 1) cap with hle | hle
  · rw [min_eq_left hle, hsum, Nat.min_eq_left (hsum ▸ UInt32.le_iff_toNat_le.mp hle)]
  · rw [min_eq_right hle, Nat.min_eq_right (hsum ▸ UInt32.le_iff_toNat_le.mp hle)]

theorem toNat_tick_iterate (n : ℕ) : ((tick cap)^[n + 1] c).toNat =
    if cap.toNat + 1 = 2 ^ 32 then (c.toNat + (n + 1)) % 2 ^ 32
    else if c.toNat + 1 = 2 ^ 32 then min n cap.toNat
    else min (c.toNat + (n + 1)) cap.toNat := by
  have hc := c.toNat_lt
  have hcap := cap.toNat_lt
  induction n with
  | zero =>
    rw [Function.iterate_succ_apply', Function.iterate_zero_apply, toNat_tick]
    split_ifs <;> omega
  | succ n ih =>
    rw [Function.iterate_succ_apply', toNat_tick, ih]
    split_ifs <;> omega

end Counter
end Word32
end WitcherMP
