import Mathlib.Data.List.TakeWhile
import Mathlib.Algebra.Ring.Int.Defs
import Mathlib.Algebra.Ring.Nat
import WitcherMP.Lib.Numerals

/-! Texts as the standard library takes them apart: lines up to a delimiter, and numbers at the
front of a text. -/

namespace WitcherMP.Scans

def getlines (delim : Char) : List Char → List (List Char)
  | [] => []
  | c :: cs =>
    if c = delim then [] :: getlines delim cs
    else match getlines delim cs with
      | [] => [[c]]
      | line :: lines => (c :: line) :: lines

def isspace (c : Char) : Bool := c = ' ' ∨ 9 ≤ c.toNat ∧ c.toNat ≤ 13

def sign : List Char → Bool × List Char
  | '-' :: s => (true, s)
  | '+' :: s => (false, s)
  | s => (false, s)

def stoi (s : List Char) : Option ℤ :=
  let signed := sign (s.dropWhile isspace)
  let digits := signed.2.takeWhile Char.isDigit
  if digits = [] then none else
  let n : ℤ := Nat.ofDigitChars 10 digits 0
  let n := if signed.1 then -n else n
  if -2 ^ 31 ≤ n ∧ n < 2 ^ 31 then some n else none

def decimal (s : List Char) : Option ℕ :=
  if s ≠ [] ∧ s.all Char.isDigit then some (Nat.ofDigitChars 10 s 0) else none

theorem getlines_append {delim : Char} {line : List Char} (h : delim ∉ line) (rest : List Char) :
    getlines delim (line ++ delim :: rest) = line :: getlines delim rest := by
  induction line with
  | nil => exact if_pos rfl
  | cons c cs ih =>
    rw [List.mem_cons, not_or] at h
    rw [List.cons_append, getlines, if_neg (Ne.symm h.1), ih h.2]

theorem getlines_of_notMem {delim : Char} {line : List Char} (h : delim ∉ line) (hne : line ≠ []) :
    getlines delim line = [line] := by
  induction line with
  | nil => exact absurd rfl hne
  | cons c cs ih =>
    rw [List.mem_cons, not_or] at h
    rw [getlines, if_neg (Ne.symm h.1)]
    by_cases hcs : cs = []
    · rw [hcs]
      rfl
    · rw [ih h.2 hcs]

theorem notMem_of_mem_getlines {delim : Char} {s line : List Char} (h : line ∈ getlines delim s) :
    delim ∉ line := by
  induction s generalizing line with
  | nil => cases h
  | cons c cs ih =>
    rw [getlines] at h
    split at h
    · rcases List.mem_cons.mp h with rfl | h
      · exact List.not_mem_nil
      · exact ih h
    · next hc =>
      split at h
      · rw [List.mem_singleton.mp h, List.mem_singleton]
        exact Ne.symm hc
      · next first lines hlines =>
        rcases List.mem_cons.mp h with rfl | h
        · rw [List.mem_cons, not_or]
          exact ⟨Ne.symm hc, ih (hlines ▸ List.mem_cons_self ..)⟩
        · exact ih (hlines ▸ List.mem_cons_of_mem _ h)

theorem getlines_flatMap {delim : Char} {lines : List (List Char)}
    (h : ∀ line ∈ lines, delim ∉ line) : getlines delim (lines.flatMap (· ++ [delim])) = lines := by
  induction lines with
  | nil => rfl
  | cons line lines ih =>
    obtain ⟨hline, hlines⟩ := List.forall_mem_cons.mp h
    rw [List.flatMap_cons, List.append_assoc, List.singleton_append, getlines_append hline,
      ih hlines]

theorem digit_cases {c : Char} (h : c.isDigit) : isspace c = false ∧ c ≠ '-' ∧ c ≠ '+' := by
  have hlow : 48 ≤ c.toNat := by
    rw [Char.isDigit_iff_toNat] at h
    exact h.1
  refine ⟨?_, ?_, ?_⟩
  · refine decide_eq_false ?_
    rintro (rfl | ⟨-, hhigh⟩)
    · exact absurd hlow (by decide)
    · omega
  · rintro rfl
    exact absurd hlow (by decide)
  · rintro rfl
    exact absurd hlow (by decide)

theorem sign_cons_of_isDigit {c : Char} (h : c.isDigit) (cs : List Char) :
    sign (c :: cs) = (false, c :: cs) := by
  obtain ⟨-, hminus, hplus⟩ := digit_cases h
  unfold sign
  split
  · next heq => exact absurd (List.cons.inj heq).1 hminus
  · next heq => exact absurd (List.cons.inj heq).1 hplus
  · rfl

theorem stoi_of_decimal {s : List Char} {n : ℕ} (h : decimal s = some n) (hn : n < 2 ^ 31) :
    stoi s = some (n : ℤ) := by
  rw [decimal, Option.ite_none_right_eq_some, Option.some.injEq] at h
  obtain ⟨⟨hne, hall⟩, rfl⟩ := h
  have hdigits := List.all_eq_true.mp hall
  obtain ⟨c, cs, rfl⟩ := List.exists_cons_of_ne_nil hne
  obtain ⟨hspace, hminus, hplus⟩ := digit_cases (hdigits c (List.mem_cons_self ..))
  have hdrop : (c :: cs).dropWhile isspace = c :: cs := List.dropWhile_cons_of_neg (by simp [hspace])
  have hsign : sign (c :: cs) = (false, c :: cs) := by
    unfold sign
    split
    · next heq => exact absurd (List.cons.inj heq).1 hminus
    · next heq => exact absurd (List.cons.inj heq).1 hplus
    · rfl
  have htake : (c :: cs).takeWhile Char.isDigit = c :: cs := List.takeWhile_eq_self_iff.mpr hdigits
  rw [stoi, hdrop, hsign]
  dsimp only
  rw [htake, if_neg hne, if_neg Bool.false_ne_true, if_pos (by omega)]

theorem decimal_toString (n : ℕ) : decimal (toString n).toList = some n := by
  have hne : (toString n).toList ≠ [] := by
    rw [Numerals.toList_toString]
    exact Nat.toDigits_ne_nil
  have hall : (toString n).toList.all Char.isDigit :=
    List.all_eq_true.mpr fun c hc => Numerals.isDigit_of_mem hc
  rw [decimal, if_pos ⟨hne, hall⟩, Numerals.toList_toString,
    Nat.ofDigitChars_ten_toDigits]

end WitcherMP.Scans
