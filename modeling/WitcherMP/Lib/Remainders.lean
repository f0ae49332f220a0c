import Mathlib.Data.List.Basic
import Mathlib.Logic.Function.Iterate

/-! A remainder that is moved down one place at a time, with a divisor taken off wherever a bit
leaves it at the bottom. Words taken in at the bottom that fit into it together can be told from it. -/

namespace WitcherMP.Remainders
variable {w : ℕ} (p : BitVec w)

def reduce (c : BitVec w) : BitVec w := if c.getLsbD 0 then (c >>> 1) ^^^ p else c >>> 1

def takeIn (n : ℕ) (c x : BitVec w) : BitVec w := (reduce p)^[n] (c ^^^ x)

def Narrow (n : ℕ) (x : BitVec w) : Prop := ∀ i, n ≤ i → x.getLsbD i = false

def pack (n : ℕ) : List (BitVec w) → BitVec w
  | [] => 0
  | x :: xs => x ^^^ (pack n xs <<< n)

section Words
variable {n m : ℕ} {x y : BitVec w}

theorem narrow_zero : Narrow n (0#w) := fun _ _ => BitVec.getLsbD_zero

theorem Narrow.xor (hx : Narrow n x) (hy : Narrow n y) : Narrow n (x ^^^ y) := by
  intro i hi
  rw [BitVec.getLsbD_xor, hx i hi, hy i hi, Bool.xor_false]

theorem Narrow.mono (hx : Narrow n x) (h : n ≤ m) : Narrow m x := fun i hi => hx i (Nat.le_trans h hi)

theorem Narrow.shiftLeft (hx : Narrow n x) (m : ℕ) : Narrow (m + n) (x <<< m) := by
  intro i hi
  have hbit : x.getLsbD (i - m) = false := hx (i - m) (by omega)
  rw [BitVec.getLsbD_shiftLeft, hbit, Bool.and_false]

theorem xor_shiftLeft_inj {x' y' : BitVec w} (hx : Narrow n x) (hx' : Narrow n x')
    (hy : Narrow (w - n) y) (hy' : Narrow (w - n) y')
    (h : x ^^^ (y <<< n) = x' ^^^ (y' <<< n)) : x = x' ∧ y = y' := by
  constructor
  · apply BitVec.eq_of_getLsbD_eq
    intro i _
    by_cases hi : i < n
    · have hbit := congrArg (BitVec.getLsbD · i) h
      simpa [hi] using hbit
    · rw [hx i (Nat.not_lt.mp hi), hx' i (Nat.not_lt.mp hi)]
  · apply BitVec.eq_of_getLsbD_eq
    intro i _
    by_cases hi : i < w - n
    · have hbit := congrArg (BitVec.getLsbD · (i + n)) h
      have hlow : x.getLsbD (i + n) = false := hx _ (Nat.le_add_left n i)
      have hlow' : x'.getLsbD (i + n) = false := hx' _ (Nat.le_add_left n i)
      have hlt : i + n < w := by omega
      rwa [BitVec.getLsbD_xor, BitVec.getLsbD_xor, hlow, hlow', BitVec.getLsbD_shiftLeft,
        BitVec.getLsbD_shiftLeft, Nat.add_sub_cancel, decide_eq_true hlt,
        decide_eq_false (Nat.not_lt.mpr (Nat.le_add_left n i)), Bool.false_xor, Bool.false_xor,
        Bool.not_false, Bool.true_and, Bool.true_and, Bool.true_and] at hbit
    · rw [hy i (Nat.not_lt.mp hi), hy' i (Nat.not_lt.mp hi)]

theorem narrow_pack {xs : List (BitVec w)} (hxs : ∀ x ∈ xs, Narrow n x) :
    Narrow (n * xs.length) (pack n xs) := by
  induction xs with
  | nil => exact narrow_zero
  | cons x xs ih =>
    obtain ⟨hx, hrest⟩ := List.forall_mem_cons.mp hxs
    have hlen : n + n * xs.length = n * (x :: xs).length := by
      rw [List.length_cons, Nat.mul_succ, Nat.add_comm]
    rw [pack, ← hlen]
    exact (hx.mono (Nat.le_add_right _ _)).xor ((ih hrest).shiftLeft n)

theorem pack_injective {xs ys : List (BitVec w)} (hxs : ∀ x ∈ xs, Narrow n x)
    (hys : ∀ y ∈ ys, Narrow n y) (hlen : xs.length = ys.length) (hfit : n * xs.length ≤ w)
    (h : pack n xs = pack n ys) : xs = ys := by
  induction xs generalizing ys with
  | nil => exact (List.length_eq_zero_iff.mp hlen.symm).symm
  | cons x xs ih =>
    cases ys with
    | nil => cases hlen
    | cons y ys =>
      obtain ⟨hx, hrest⟩ := List.forall_mem_cons.mp hxs
      obtain ⟨hy, hrest'⟩ := List.forall_mem_cons.mp hys
      have hlen' : xs.length = ys.length := Nat.succ.inj hlen
      rw [List.length_cons, Nat.mul_succ] at hfit
      have hnarrow : Narrow (w - n) (pack n xs) := (narrow_pack hrest).mono (by omega)
      have hnarrow' : Narrow (w - n) (pack n ys) :=
        (narrow_pack hrest').mono (by rw [← hlen']; omega)
      obtain ⟨hxy, hpack⟩ := xor_shiftLeft_inj hx hy hnarrow hnarrow' h
      rw [hxy, ih hrest hrest' hlen' (by omega) hpack]

end Words

section Reduce
variable {p} {n : ℕ}

theorem msb_reduce (hp : p.msb = true) (c : BitVec w) : (reduce p c).msb = c.getLsbD 0 := by
  have hmoved : (c >>> 1).msb = false := by
    rw [BitVec.msb_ushiftRight]
    simp
  unfold reduce
  split
  · next hbit => rw [BitVec.msb_xor, hmoved, hp, hbit, Bool.false_xor]
  · next hbit => rw [hmoved, Bool.of_not_eq_true hbit]

theorem reduce_injective (hp : p.msb = true) : Function.Injective (reduce p) := by
  intro c c' h
  have hbottom : c.getLsbD 0 = c'.getLsbD 0 := by
    rw [← msb_reduce hp, ← msb_reduce hp, h]
  have hrest : c >>> 1 = c' >>> 1 := by
    unfold reduce at h
    rw [hbottom] at h
    split at h
    · exact (BitVec.xor_left_inj _).mp h
    · exact h
  apply BitVec.eq_of_getLsbD_eq
  intro i _
  cases i with
  | zero => exact hbottom
  | succ i =>
    have hbit := congrArg (BitVec.getLsbD · i) hrest
    simpa [Nat.add_comm] using hbit

theorem reduce_xor_shiftLeft (x : BitVec w) {y : BitVec w} (hy : Narrow (w - 1) y) :
    reduce p (x ^^^ (y <<< 1)) = reduce p x ^^^ y := by
  have hbottom : (x ^^^ (y <<< 1)).getLsbD 0 = x.getLsbD 0 := by simp
  have hback : (y <<< 1) >>> 1 = y := by
    apply BitVec.eq_of_getLsbD_eq
    intro i _
    rw [BitVec.getLsbD_ushiftRight, BitVec.getLsbD_shiftLeft, Nat.add_sub_cancel_left,
      decide_eq_false (by omega : ¬ 1 + i < 1), Bool.not_false, Bool.and_true]
    by_cases hi : 1 + i < w
    · rw [decide_eq_true hi, Bool.true_and]
    · rw [hy i (by omega), Bool.and_false]
  unfold reduce
  rw [hbottom, BitVec.ushiftRight_xor_distrib, hback]
  split
  · rw [BitVec.xor_assoc, BitVec.xor_comm y, ← BitVec.xor_assoc]
  · rfl

theorem iterate_reduce_xor_shiftLeft (x : BitVec w) {y : BitVec w} (hy : Narrow (w - n) y) :
    (reduce p)^[n] (x ^^^ (y <<< n)) = (reduce p)^[n] x ^^^ y := by
  induction n generalizing x y with
  | zero => simp
  | succ n ih =>
    have hshift : y <<< (n + 1) = (y <<< n) <<< 1 := BitVec.shiftLeft_add y n 1
    have hmoved : Narrow (w - 1) (y <<< n) := by
      intro i hi
      by_cases hin : i < n
      · simp [hin]
      · have hbit : y.getLsbD (i - n) = false := hy _ (by omega)
        simp [hbit]
    rw [Function.iterate_succ_apply, hshift, reduce_xor_shiftLeft x hmoved,
      ih (reduce p x) (hy.mono (by omega)), Function.iterate_succ_apply]

theorem foldl_takeIn {xs : List (BitVec w)} (hxs : ∀ x ∈ xs, Narrow n x)
    (hfit : n * xs.length ≤ w) (c : BitVec w) :
    xs.foldl (takeIn p n) c = (reduce p)^[n * xs.length] (c ^^^ pack n xs) := by
  induction xs generalizing c with
  | nil => simp [pack]
  | cons x xs ih =>
    obtain ⟨-, hrest⟩ := List.forall_mem_cons.mp hxs
    rw [List.length_cons, Nat.mul_succ] at hfit ⊢
    have hnarrow : Narrow (w - n) (pack n xs) := (narrow_pack hrest).mono (by omega)
    rw [List.foldl_cons, ih hrest (by omega), takeIn, ← iterate_reduce_xor_shiftLeft _ hnarrow,
      ← Function.iterate_add_apply, pack, BitVec.xor_assoc]

theorem takeIn_left_injective (hp : p.msb = true) (x : BitVec w) :
    Function.Injective (takeIn p n · x) := by
  intro c c' h
  exact (BitVec.xor_left_inj _).mp ((reduce_injective hp).iterate n h)

theorem foldl_takeIn_injective (hp : p.msb = true) (xs : List (BitVec w)) :
    Function.Injective (xs.foldl (takeIn p n)) := by
  induction xs with
  | nil => exact Function.injective_id
  | cons x xs ih => exact fun c c' h => takeIn_left_injective hp x (ih h)

theorem foldl_takeIn_ne (hp : p.msb = true) {xs ys : List (BitVec w)} (hxs : ∀ x ∈ xs, Narrow n x)
    (hys : ∀ y ∈ ys, Narrow n y) (hlen : xs.length = ys.length) (hfit : n * xs.length ≤ w)
    (hne : xs ≠ ys) (front behind : List (BitVec w)) (c : BitVec w) :
    (front ++ xs ++ behind).foldl (takeIn p n) c ≠ (front ++ ys ++ behind).foldl (takeIn p n) c := by
  intro h
  apply hne
  apply pack_injective hxs hys hlen hfit
  rw [List.foldl_append, List.foldl_append, List.foldl_append, List.foldl_append] at h
  have hrun := foldl_takeIn_injective hp behind h
  rw [foldl_takeIn hxs hfit, foldl_takeIn hys (hlen ▸ hfit), ← hlen] at hrun
  exact (BitVec.xor_right_inj _).mp ((reduce_injective hp).iterate _ hrun)

end Reduce

end WitcherMP.Remainders
