import Mathlib.Data.Multiset.AddSub

/-! Priority queues as bags: whatever order a queue keeps inside, its top is one of its
elements, and removing the top removes just that one. -/

namespace WitcherMP

/-- The operations of a priority queue, and the bag of elements that explains them. -/
class BagQueue (α : outParam Type) (Q : Type) where
  empty : Q
  push : Q → α → Q
  top? : Q → Option α
  pop : Q → Q
  size : Q → ℕ
  bag : Q → Multiset α
  bag_empty : bag empty = 0
  bag_push : ∀ q a, bag (push q a) = a ::ₘ bag q
  bag_of_top?_none : ∀ q, top? q = none → bag q = 0
  bag_pop : ∀ q a, top? q = some a → a ::ₘ bag (pop q) = bag q
  size_eq : ∀ q, size q = (bag q).card

namespace BagQueue
variable {α Q : Type} [BagQueue α Q]

theorem size_push (q : Q) (a : α) : size (push q a) = size q + 1 := by
  rw [size_eq, bag_push, Multiset.card_cons, size_eq]

theorem size_pop {q : Q} {a : α} (h : top? q = some a) : size (pop q) + 1 = size q := by
  rw [size_eq, size_eq, ← bag_pop q a h, Multiset.card_cons]

def pushAll (q : Q) (as : List α) : Q := as.foldl push q

theorem bag_pushAll (q : Q) (as : List α) : bag (pushAll q as) = ↑as + bag q := by
  induction as generalizing q with
  | nil => simp [pushAll]
  | cons a as ih =>
    have h := ih (push q a)
    rw [pushAll] at h
    rw [pushAll, List.foldl_cons, h, bag_push, ← Multiset.cons_coe, Multiset.add_cons,
      Multiset.cons_add]

end BagQueue

def insertBy {α : Type} (beats : α → α → Bool) (a : α) : List α → List α
  | [] => [a]
  | b :: bs => if beats a b then a :: b :: bs else b :: insertBy beats a bs

theorem insertBy_perm {α : Type} (beats : α → α → Bool) (a : α) (as : List α) :
    (insertBy beats a as).Perm (a :: as) := by
  induction as with
  | nil => exact .refl _
  | cons b bs ih =>
    rw [insertBy]
    split
    · exact .refl _
    · exact (ih.cons b).trans (.swap a b bs)

structure SortedQueue {α : Type} (beats : α → α → Bool) where
  entries : List α

instance {α : Type} (beats : α → α → Bool) : BagQueue α (SortedQueue beats) where
  empty := ⟨[]⟩
  push q a := ⟨insertBy beats a q.entries⟩
  top? q := q.entries.head?
  pop q := ⟨q.entries.tail⟩
  size q := q.entries.length
  bag q := q.entries
  bag_empty := rfl
  bag_push q a := Multiset.coe_eq_coe.mpr (insertBy_perm beats a q.entries)
  bag_of_top?_none q h := by
    rw [List.head?_eq_none_iff] at h
    rw [h]
    rfl
  bag_pop q a h := by
    obtain ⟨as, has⟩ := List.head?_eq_some_iff.mp h
    rw [has]
    rfl
  size_eq q := rfl

end WitcherMP
