import Mathlib.Data.List.Basic

/-! A remainder that is shifted by one place for every word taken in, so that the bits of a word
leave it at the top after as many words as the remainder has places above them. -/

namespace WitcherMP.Shifts
variable {w : ℕ}

def shiftIn (c x : BitVec w) : BitVec w := (c <<< 1) ^^^ x

theorem foldl_shiftIn_xor (xs : List (BitVec w)) (c c' : BitVec w) :
    xs.foldl shiftIn c ^^^ xs.foldl shiftIn c' = (c ^^^ c') <<< xs.length := by
  induction xs generalizing c c' with
  | nil => simp
  | cons x xs ih =>
    have hstep : shiftIn c x ^^^ shiftIn c' x = (c ^^^ c') <<< 1 := by
      rw [shiftIn, shiftIn, BitVec.xor_comm (c' <<< 1) x, BitVec.xor_assoc, ← BitVec.xor_assoc x x,
        BitVec.xor_self, BitVec.zero_xor, BitVec.shiftLeft_xor_distrib]
    rw [List.foldl_cons, List.foldl_cons, ih, hstep, ← BitVec.shiftLeft_add, List.length_cons,
      Nat.add_comm]

theorem shiftLeft_ne_zero_iff (x : BitVec w) (n : ℕ) :
    x <<< n ≠ 0#w ↔ ∃ k, x.getLsbD k = true ∧ k + n < w := by
  constructor
  · intro h
    by_contra hnone
    apply h
    apply BitVec.eq_of_getLsbD_eq
    intro i hi
    rw [BitVec.getLsbD_shiftLeft, BitVec.getLsbD_zero]
    by_cases hin : i < n
    · rw [decide_eq_true hin, Bool.not_true, Bool.and_false, Bool.false_and]
    · have hbit : x.getLsbD (i - n) = false := by
        by_contra hset
        exact hnone ⟨i - n, by simpa using hset, by omega⟩
      rw [hbit, Bool.and_false]
  · rintro ⟨k, hk, hlt⟩ hzero
    have hbit : (x <<< n).getLsbD (k + n) = false := by rw [hzero, BitVec.getLsbD_zero]
    rw [BitVec.getLsbD_shiftLeft, Nat.add_sub_cancel, hk, decide_eq_true hlt,
      decide_eq_false (by omega)] at hbit
    exact absurd hbit (by decide)

theorem foldl_shiftIn_ne_iff (xs ys : List (BitVec w)) (c x x' : BitVec w) :
    (xs ++ x :: ys).foldl shiftIn c ≠ (xs ++ x' :: ys).foldl shiftIn c ↔
      ∃ k, x.getLsbD k ≠ x'.getLsbD k ∧ k + ys.length < w := by
  rw [List.foldl_append, List.foldl_append, List.foldl_cons, List.foldl_cons, ne_eq,
    ← BitVec.xor_eq_zero_iff, foldl_shiftIn_xor, ← ne_eq, shiftLeft_ne_zero_iff, shiftIn, shiftIn]
  refine exists_congr fun k => and_congr_left fun _ => ?_
  rw [BitVec.getLsbD_xor, BitVec.getLsbD_xor, BitVec.getLsbD_xor]
  cases (xs.foldl shiftIn c <<< 1).getLsbD k <;> cases x.getLsbD k <;> cases x'.getLsbD k <;> decide

end WitcherMP.Shifts
