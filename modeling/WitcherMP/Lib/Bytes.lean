import Mathlib.Data.List.Basic
import Mathlib.Algebra.Ring.Nat

/-! Bytes: little-endian numbers of two, four and eight bytes, differences of words, and bytes with
the high bit set. -/

namespace WitcherMP.Bytes

def le32 (n : ℕ) : List UInt8 :=
  [.ofNat n, .ofNat (n / 256), .ofNat (n / 65536), .ofNat (n / 16777216)]

def readLE32 : List UInt8 → ℕ
  | b₀ :: b₁ :: b₂ :: b₃ :: _ =>
    b₀.toNat + 256 * b₁.toNat + 65536 * b₂.toNat + 16777216 * b₃.toNat
  | _ => 0

@[simp] theorem length_le32 (n : ℕ) : (le32 n).length = 4 := rfl

theorem readLE32_le32 (n : ℕ) (bs : List UInt8) : readLE32 (le32 n ++ bs) = n % 2 ^ 32 := by
  simp only [le32, List.cons_append, List.nil_append, readLE32, UInt8.toNat_ofNat']
  omega

theorem readLE32_lt (bs : List UInt8) : readLE32 bs < 2 ^ 32 := by
  match bs with
  | b₀ :: b₁ :: b₂ :: b₃ :: _ =>
    have h₀ := b₀.toNat_lt
    have h₁ := b₁.toNat_lt
    have h₂ := b₂.toNat_lt
    have h₃ := b₃.toNat_lt
    rw [readLE32]
    omega
  | [] => exact Nat.two_pow_pos 32
  | [_] => exact Nat.two_pow_pos 32
  | [_, _] => exact Nat.two_pow_pos 32
  | [_, _, _] => exact Nat.two_pow_pos 32

theorem le32_readLE32 {bs : List UInt8} (h : 4 ≤ bs.length) : le32 (readLE32 bs) = bs.take 4 := by
  match bs with
  | b₀ :: b₁ :: b₂ :: b₃ :: _ =>
    have h₀ := b₀.toNat_lt
    have h₁ := b₁.toNat_lt
    have h₂ := b₂.toNat_lt
    have h₃ := b₃.toNat_lt
    simp only [le32, readLE32, List.take_succ_cons, List.take_zero, List.cons.injEq, and_true,
      ← UInt8.toNat_inj, UInt8.toNat_ofNat']
    omega

def le16 (n : ℕ) : List UInt8 := [.ofNat n, .ofNat (n / 256)]

def readLE16 : List UInt8 → ℕ
  | b₀ :: b₁ :: _ => b₀.toNat + 256 * b₁.toNat
  | _ => 0

@[simp] theorem length_le16 (n : ℕ) : (le16 n).length = 2 := rfl

theorem readLE16_le16 (n : ℕ) (bs : List UInt8) : readLE16 (le16 n ++ bs) = n % 2 ^ 16 := by
  simp only [le16, List.cons_append, List.nil_append, readLE16, UInt8.toNat_ofNat']
  omega

theorem readLE16_lt (bs : List UInt8) : readLE16 bs < 2 ^ 16 := by
  match bs with
  | b₀ :: b₁ :: _ =>
    have h₀ := b₀.toNat_lt
    have h₁ := b₁.toNat_lt
    rw [readLE16]
    omega
  | [] => exact Nat.two_pow_pos 16
  | [_] => exact Nat.two_pow_pos 16

theorem le16_readLE16 {bs : List UInt8} (h : 2 ≤ bs.length) : le16 (readLE16 bs) = bs.take 2 := by
  match bs with
  | b₀ :: b₁ :: _ =>
    have h₀ := b₀.toNat_lt
    have h₁ := b₁.toNat_lt
    simp only [le16, readLE16, List.take_succ_cons, List.take_zero, List.cons.injEq, and_true,
      ← UInt8.toNat_inj, UInt8.toNat_ofNat']
    omega

def le64 (n : ℕ) : List UInt8 := le32 n ++ le32 (n / 2 ^ 32)

def readLE64 (bs : List UInt8) : ℕ := readLE32 bs + 2 ^ 32 * readLE32 (bs.drop 4)

@[simp] theorem length_le64 (n : ℕ) : (le64 n).length = 8 := rfl

theorem readLE64_le64 {n : ℕ} (h : n < 2 ^ 64) : readLE64 (le64 n) = n := by
  have hhigh := readLE32_le32 (n / 2 ^ 32) []
  rw [List.append_nil] at hhigh
  rw [readLE64, le64, readLE32_le32, List.drop_left' (length_le32 n), hhigh]
  omega

def xor (as bs : List UInt8) : List UInt8 := List.zipWith (· ^^^ ·) as bs

theorem length_xor {as bs : List UInt8} (h : as.length = bs.length) :
    (xor as bs).length = bs.length := by
  rw [xor, List.length_zipWith, h, min_self]

theorem xor_xor {as bs : List UInt8} (h : as.length = bs.length) : xor (xor as bs) bs = as := by
  induction as generalizing bs with
  | nil => rfl
  | cons a as ih =>
    cases bs with
    | nil => cases h
    | cons b bs =>
      have hrest : xor (xor as bs) bs = as := ih (Nat.succ.inj h)
      simp only [xor, List.zipWith_cons_cons, UInt8.xor_assoc, UInt8.xor_self, UInt8.xor_zero] at *
      rw [hrest]

theorem xor_right_inj {as as' bs : List UInt8} (h : as.length = bs.length)
    (h' : as'.length = bs.length) : xor as bs = xor as' bs ↔ as = as' := by
  constructor
  · intro heq
    rw [← xor_xor h, heq, xor_xor h']
  · rintro rfl
    rfl

theorem eq_zero_of_mem_xor_self {as : List UInt8} {b : UInt8} (h : b ∈ xor as as) : b = 0 := by
  induction as with
  | nil => exact absurd h List.not_mem_nil
  | cons a as ih =>
    rw [xor, List.zipWith_cons_cons, UInt8.xor_self, List.mem_cons] at h
    exact h.elim id ih

theorem forall_byte {P : UInt8 → Prop} (h : ∀ n : Fin 256, P (UInt8.ofNat n)) (b : UInt8) : P b := by
  have hb := h ⟨b.toNat, b.toNat_lt⟩
  rwa [UInt8.ofNat_toNat] at hb

theorem high_iff (b : UInt8) : b &&& 0x80 ≠ 0 ↔ 0x80 ≤ b := by
  revert b
  refine forall_byte ?_
  decide +kernel

theorem high_ofNat_iff (n : ℕ) : 0x80 ≤ UInt8.ofNat n ↔ 128 ≤ n % 256 := by
  rw [UInt8.le_iff_toNat_le, UInt8.toNat_ofNat']
  exact Iff.rfl

/-! The two upper bytes of a small number. -/

theorem third_low {n : ℕ} (h : n < 2 ^ 23) : ¬ 0x80 ≤ UInt8.ofNat (n / 65536) := by
  rw [high_ofNat_iff]
  omega

theorem third_high {n : ℕ} (h : 2 ^ 23 ≤ n) (hn : n < 2 ^ 24) : 0x80 ≤ UInt8.ofNat (n / 65536) := by
  rw [high_ofNat_iff]
  omega

theorem fourth_eq_zero {n : ℕ} (h : n < 2 ^ 24) : UInt8.ofNat (n / 16777216) = 0 := by
  rw [Nat.div_eq_of_lt (by omega)]
  rfl

end WitcherMP.Bytes
