import Mathlib.Data.List.GetD
import Mathlib.Algebra.Ring.Nat
import Mathlib.Order.Basic

/-! Computations that keep a record of what they index and divide by. The value is there either
way; the record says whether it was come by safely. -/

namespace WitcherMP

inductive Access
  | read (index size : ℕ)
  | modulo (divisor : ℕ)
deriving DecidableEq

def Access.Valid : Access → Prop
  | .read index size => index < size
  | .modulo divisor => divisor ≠ 0

instance (a : Access) : Decidable a.Valid := by
  cases a <;> unfold Access.Valid <;> infer_instance

def wrapSub (a b : ℕ) : ℕ := if b ≤ a then a - b else a + 2 ^ 64 - b

structure Traced (α : Type*) where
  value : α
  accesses : List Access

namespace Traced
variable {α β : Type}

instance : Monad Traced where
  pure a := ⟨a, []⟩
  bind x f := ⟨(f x.value).value, x.accesses ++ (f x.value).accesses⟩

def Safe (x : Traced α) : Prop := ∀ a ∈ x.accesses, a.Valid

instance (x : Traced α) : Decidable x.Safe := List.decidableBAll ..

def get [Inhabited α] (as : List α) (index : ℕ) : Traced α :=
  ⟨as.getD index default, [.read index as.length]⟩

def getRange [Inhabited α] (as : List α) (index n : ℕ) : Traced (List α) :=
  ⟨(List.range' index n).map fun i => as.getD i default,
    (List.range' index n).map fun i => .read i as.length⟩

def modulo (a b : ℕ) : Traced ℕ := ⟨a % b, [.modulo b]⟩

def findFrom (test : ℕ → Traced Bool) (bound : ℕ) : ℕ → ℕ → Traced Bool
  | 0, _ => pure false
  | rounds + 1, i =>
    if i < bound then do
      if ← test i then pure true else findFrom test bound rounds (i + 1)
    else pure false

def toOption (x : Traced α) : Option α := if x.Safe then some x.value else none

theorem safe_pure (a : α) : (pure a : Traced α).Safe := fun _ h => nomatch h

theorem safe_bind (x : Traced α) (f : α → Traced β) :
    (x >>= f).Safe ↔ x.Safe ∧ (f x.value).Safe := List.forall_mem_append

theorem safe_iff_toOption {x : Traced α} : x.Safe ↔ x.toOption ≠ none := by
  unfold toOption
  split
  · next h => exact iff_of_true h (Option.some_ne_none _)
  · next h => exact iff_of_false h fun hne => hne rfl

theorem toOption_eq_some_iff {x : Traced α} {a : α} : x.toOption = some a ↔ x.Safe ∧ x.value = a := by
  unfold toOption
  rw [Option.ite_none_right_eq_some, Option.some.injEq]

@[simp] theorem toOption_pure (a : α) : (pure a : Traced α).toOption = some a := if_pos (safe_pure a)

@[simp] theorem toOption_bind (x : Traced α) (f : α → Traced β) :
    (x >>= f).toOption = x.toOption.bind fun a => (f a).toOption := by
  unfold toOption
  by_cases hx : x.Safe
  · rw [if_pos hx, Option.bind_some]
    by_cases hf : (f x.value).Safe
    · rw [if_pos hf, if_pos ((safe_bind x f).mpr ⟨hx, hf⟩)]
      rfl
    · rw [if_neg hf, if_neg fun h => hf ((safe_bind x f).mp h).2]
  · rw [if_neg hx, Option.bind_none, if_neg fun h => hx ((safe_bind x f).mp h).1]

@[simp] theorem toOption_get [Inhabited α] (as : List α) (i : ℕ) : (get as i).toOption = as[i]? := by
  have hsafe : (get as i).Safe ↔ i < as.length := List.forall_mem_singleton
  unfold toOption
  split
  · next h =>
    have hi := hsafe.mp h
    rw [List.getElem?_eq_getElem hi, get, List.getD_eq_getElem _ _ hi]
  · next h => exact (List.getElem?_eq_none (not_lt.mp fun hi => h (hsafe.mpr hi))).symm

@[simp] theorem toOption_modulo (a b : ℕ) :
    (modulo a b).toOption = if b = 0 then none else some (a % b) := by
  have hsafe : (modulo a b).Safe ↔ b ≠ 0 := List.forall_mem_singleton
  unfold toOption
  by_cases hb : b = 0
  · rw [if_neg fun h => hsafe.mp h hb, if_pos hb]
  · rw [if_pos (hsafe.mpr hb), if_neg hb]
    rfl

theorem toOption_getRange [Inhabited α] (as : List α) (i n : ℕ) :
    (getRange as i n).toOption
      = if n = 0 ∨ i + n ≤ as.length then some ((as.drop i).take n) else none := by
  have hsafe : (getRange as i n).Safe ↔ n = 0 ∨ i + n ≤ as.length := by
    unfold Safe getRange
    rw [List.forall_mem_map]
    change (∀ j ∈ List.range' i n, j < as.length) ↔ _
    simp only [List.mem_range'_1]
    constructor
    · intro h
      by_cases hn : n = 0
      · exact Or.inl hn
      · have hlast := h (i + n - 1) (by omega)
        omega
    · rintro h j hj
      omega
  unfold toOption
  by_cases h : n = 0 ∨ i + n ≤ as.length
  · rw [if_pos (hsafe.mpr h), if_pos h]
    refine congrArg some (List.ext_getElem? fun k => ?_)
    rw [getRange, List.getElem?_map, List.getElem?_take]
    by_cases hk : k < n
    · have hlt : i + k < as.length := by omega
      rw [if_pos hk, List.getElem?_drop, List.getElem?_range' hk, Option.map_some, one_mul,
        List.getD_eq_getElem _ _ hlt, List.getElem?_eq_getElem hlt]
    · rw [if_neg hk, List.getElem?_eq_none (by rw [List.length_range']; omega), Option.map_none]
  · rw [if_neg (mt hsafe.mp h), if_neg h]

theorem toOption_findFrom {test : ℕ → Traced Bool} {bound rounds i : ℕ} {p : ℕ → Bool}
    (hp : ∀ j, j < bound → (test j).toOption = some (p j)) (h : bound ≤ i + rounds) :
    (findFrom test bound rounds i).toOption = some ((List.range' i (bound - i)).any p) := by
  induction rounds generalizing i with
  | zero =>
    have hnone : bound - i = 0 := Nat.sub_eq_zero_of_le h
    rw [findFrom, toOption_pure, hnone]
    rfl
  | succ rounds ih =>
    rw [findFrom]
    split
    · next hi =>
      have hrange : List.range' i (bound - i) = i :: List.range' (i + 1) (bound - (i + 1)) := by
        rw [show bound - i = (bound - (i + 1)) + 1 by omega]
        rfl
      rw [toOption_bind, hp i hi, Option.bind_some, hrange, List.any_cons]
      cases p i with
      | true => exact toOption_pure true
      | false => exact ih (by omega)
    · next hi =>
      have hnone : bound - i = 0 := Nat.sub_eq_zero_of_le (not_lt.mp hi)
      rw [toOption_pure, hnone]
      rfl

end Traced
end WitcherMP
