import Mathlib.Algebra.BigOperators.Group.List.Basic
import Mathlib.Data.Nat.ModEq
import Mathlib.Tactic.LinearCombination

/-! Words of weighted places: which changes a sum modulo some number shows. -/

namespace WitcherMP

def weighted {α : Type*} (weight : ℕ → ℕ) (value : α → ℕ) (as : List α) : ℕ :=
  (as.mapIdx fun i a => value a * weight i).sum

namespace Weighted
variable {α : Type*} {weight : ℕ → ℕ} {value : α → ℕ} {as : List α} {i j M : ℕ}

theorem weighted_cons (weight : ℕ → ℕ) (value : α → ℕ) (a : α) (as : List α) :
    weighted weight value (a :: as) =
      value a * weight 0 + weighted (fun i => weight (i + 1)) value as := by
  rw [weighted, List.mapIdx_cons, List.sum_cons]
  rfl

theorem weighted_set (weight : ℕ → ℕ) (value : α → ℕ) (hi : i < as.length) (b : α) :
    weighted weight value (as.set i b) + value as[i] * weight i =
      weighted weight value as + value b * weight i := by
  induction as generalizing i weight with
  | nil => cases hi
  | cons a as ih =>
    cases i with
    | zero =>
      rw [List.set_cons_zero, weighted_cons, weighted_cons, List.getElem_cons_zero]
      omega
    | succ i =>
      have hrest := ih (fun i => weight (i + 1)) (Nat.lt_of_succ_lt_succ hi)
      rw [List.set_cons_succ, weighted_cons, weighted_cons, List.getElem_cons_succ, Nat.add_assoc,
        hrest, Nat.add_assoc]

theorem weighted_swap (weight : ℕ → ℕ) (value : α → ℕ) (hi : i < as.length) (hj : j < as.length)
    (hne : i ≠ j) :
    weighted weight value ((as.set i as[j]).set j as[i]) +
        (value as[i] * weight i + value as[j] * weight j) =
      weighted weight value as + (value as[i] * weight j + value as[j] * weight i) := by
  have hj' : j < (as.set i as[j]).length := by rwa [List.length_set]
  have hfirst := weighted_set weight value hi as[j]
  have hsecond := weighted_set weight value hj' as[i]
  rw [List.getElem_set_ne hne] at hsecond
  omega

theorem value_eq_of_set (hi : i < as.length) {b : α} (hpos : 0 < weight i)
    (hb : value b * weight i < M) (ha : value as[i] * weight i < M)
    (h : weighted weight value (as.set i b) ≡ weighted weight value as [MOD M]) :
    value b = value as[i] := by
  have hset := weighted_set weight value hi b
  have hshare : value as[i] * weight i ≡ value b * weight i [MOD M] :=
    h.add_left_cancel (congrArg (· % M) hset)
  exact (Nat.eq_of_mul_eq_mul_right hpos (hshare.eq_of_lt_of_lt ha hb)).symm

theorem eq_of_crossed {a b v w : ℕ} (hne : v ≠ w) (h : a * v + b * w = a * w + b * v) : a = b := by
  have hint : (a : ℤ) * v + b * w = a * w + b * v := by exact_mod_cast h
  have hzero : ((a : ℤ) - b) * (v - w) = 0 := by linear_combination hint
  rcases mul_eq_zero.mp hzero with h | h <;> omega

theorem value_eq_of_swap (hi : i < as.length) (hj : j < as.length) (hw : weight i ≠ weight j)
    (hij : value as[i] * weight i + value as[j] * weight j < M)
    (hji : value as[i] * weight j + value as[j] * weight i < M)
    (h : weighted weight value ((as.set i as[j]).set j as[i]) ≡ weighted weight value as [MOD M]) :
    value as[i] = value as[j] := by
  have hne : i ≠ j := fun heq => hw (congrArg weight heq)
  have hswap := weighted_swap weight value hi hj hne
  have hshares := (h.add_left_cancel (congrArg (· % M) hswap)).eq_of_lt_of_lt hij hji
  exact eq_of_crossed hw hshares

end Weighted
end WitcherMP
