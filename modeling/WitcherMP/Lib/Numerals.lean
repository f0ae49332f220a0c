import Mathlib.Data.List.Basic

/-! Numbers written in decimal, as parts of names. -/

namespace WitcherMP.Numerals

theorem toList_toString (n : ℕ) : (toString n).toList = Nat.toDigits 10 n := Nat.toList_repr

theorem toString_inj {m n : ℕ} : toString m = toString n ↔ m = n := by
  refine ⟨fun h => ?_, congrArg _⟩
  have hdigits : Nat.toDigits 10 m = Nat.toDigits 10 n := by
    rw [← toList_toString, h, toList_toString]
  calc m = Nat.ofDigitChars 10 (Nat.toDigits 10 m) 0 := Nat.ofDigitChars_ten_toDigits.symm
    _ = Nat.ofDigitChars 10 (Nat.toDigits 10 n) 0 := by rw [hdigits]
    _ = n := Nat.ofDigitChars_ten_toDigits

theorem append_left_inj {a b c : String} : a ++ b = a ++ c ↔ b = c := by
  simp only [← String.toList_inj, String.toList_append, List.append_cancel_left_eq]

theorem append_right_inj {a b c : String} : b ++ a = c ++ a ↔ b = c := by
  simp only [← String.toList_inj, String.toList_append, List.append_cancel_right_eq]

theorem numbered_inj {pre post : String} {m n : ℕ} :
    pre ++ toString m ++ post = pre ++ toString n ++ post ↔ m = n := by
  rw [append_right_inj, append_left_inj, toString_inj]

theorem underscore_notMem (n : ℕ) : '_' ∉ (toString n).toList := by
  rw [toList_toString]
  exact Nat.underscore_not_in_toDigits

theorem count_underscore_append (a b : String) :
    (a ++ b).toList.count '_' = a.toList.count '_' + b.toList.count '_' := by
  rw [String.toList_append, List.count_append]

@[simp] theorem count_underscore_toString (n : ℕ) : (toString n).toList.count '_' = 0 :=
  List.count_eq_zero.mpr (underscore_notMem n)

theorem isDigit_of_mem {n : ℕ} {c : Char} (h : c ∈ (toString n).toList) : c.isDigit := by
  rw [toList_toString] at h
  exact Nat.isDigit_of_mem_toDigits (Nat.zero_lt_succ 9) (Nat.le_refl 10) h

end WitcherMP.Numerals
