import Mathlib.Data.List.Sort

/-! Sorting as a library promises it: a rearrangement in order, with nothing said about the
places of equal elements. -/

namespace WitcherMP

/-- A sorting routine for the elements that `key` compares. -/
structure StdSort (α : Type*) {κ : Type*} [LinearOrder κ] (key : α → κ) where
  sort : List α → List α
  perm : ∀ l, (sort l).Perm l
  sorted : ∀ l, (sort l).Pairwise fun a b => key a ≤ key b

namespace StdSort
variable {α κ : Type*} [LinearOrder κ] {key : α → κ}

def insertion (key : α → κ) : StdSort α key where
  sort := List.insertionSort fun a b => key a ≤ key b
  perm := List.perm_insertionSort _
  sorted l :=
    haveI : Std.Total fun a b : α => key a ≤ key b := ⟨fun a b => le_total (key a) (key b)⟩
    haveI : IsTrans α fun a b => key a ≤ key b := ⟨fun _ _ _ => le_trans⟩
    List.pairwise_insertionSort _ l

theorem insertion_eq_self {l : List α} (h : ∀ a ∈ l, ∀ b ∈ l, key a ≤ key b) :
    (insertion key).sort l = l :=
  (List.pairwise_of_forall_mem_list h).insertionSort_eq

theorem exists_sort_eq {l s : List α} (hperm : s.Perm l)
    (hsorted : s.Pairwise fun a b => key a ≤ key b) : ∃ std : StdSort α key, std.sort l = s := by
  classical
  refine ⟨⟨fun l' => if l' = l then s else (insertion key).sort l', fun l' => ?_, fun l' => ?_⟩,
    if_pos rfl⟩
  · split
    · next h => exact h ▸ hperm
    · exact (insertion key).perm l'
  · split
    · exact hsorted
    · exact (insertion key).sorted l'

end StdSort
end WitcherMP
