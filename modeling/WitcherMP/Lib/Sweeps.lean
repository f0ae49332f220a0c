import Mathlib.Data.List.Induction

/-! The loop that goes over an array from its end and rewrites or erases each entry in place. -/

namespace WitcherMP.Sweeps
variable {α : Type*} (f : α → Option α)

def sweep : ℕ → List α → List α
  | 0, as => as
  | i + 1, as => sweep i <|
    match as[i]?.bind f with
    | some a => as.set i a
    | none => as.eraseIdx i

theorem sweep_append (as done : List α) :
    sweep f as.length (as ++ done) = as.filterMap f ++ done := by
  induction as using List.reverseRecOn generalizing done with
  | nil => rfl
  | append_singleton as a ih =>
    have hread : (as ++ [a] ++ done)[as.length]?.bind f = f a := by
      rw [List.append_assoc, List.getElem?_append_right (Nat.le_refl _), Nat.sub_self]
      rfl
    rw [List.length_append, List.length_singleton, sweep, hread, List.filterMap_append]
    cases hf : f a with
    | none =>
      have herase : (as ++ [a] ++ done).eraseIdx as.length = as ++ done := by
        rw [List.append_assoc, List.eraseIdx_append_of_length_le (Nat.le_refl _), Nat.sub_self]
        rfl
      dsimp only
      rw [herase, ih, List.filterMap_cons_none hf, List.filterMap_nil, List.append_nil]
    | some b =>
      have hset : (as ++ [a] ++ done).set as.length b = as ++ b :: done := by
        rw [List.append_assoc, List.set_append_right _ _ (Nat.le_refl _), Nat.sub_self]
        rfl
      dsimp only
      rw [hset, ih, List.filterMap_cons_some hf, List.filterMap_nil, List.append_assoc]
      rfl

theorem sweep_eq_filterMap (as : List α) : sweep f as.length as = as.filterMap f := by
  have hall := sweep_append f as []
  rwa [List.append_nil, List.append_nil] at hall

end WitcherMP.Sweeps
