import Mathlib.Algebra.BigOperators.Group.Finset.Basic
import Mathlib.Algebra.Order.Group.Nat

/-! What a purchase, a sale or a gift is for: one good changes hands against money, and
nothing else in the world moves. -/

namespace WitcherMP
open Finset
variable {Party Good : Type*}

structure Holdings (Party Good : Type*) where
  stock : Party → Good → ℕ
  purse : Party → ℕ

/-- `quantity` of the good `g` goes from the giver to the receiver, who pays `price` for it. -/
structure Exchange (h h' : Holdings Party Good) (giver receiver : Party) (g : Good)
    (quantity price : ℕ) : Prop where
  given : h'.stock giver g + quantity = h.stock giver g
  received : h'.stock receiver g = h.stock receiver g + quantity
  earned : h'.purse giver = h.purse giver + price
  paid : h'.purse receiver + price = h.purse receiver
  stock_frame : ∀ p x, (x = g → p ≠ giver ∧ p ≠ receiver) → h'.stock p x = h.stock p x
  purse_frame : ∀ p, p ≠ giver → p ≠ receiver → h'.purse p = h.purse p

theorem sum_eq_of_pass [DecidableEq Party] {f f' : Party → ℕ} {a b : Party} {n : ℕ} (hab : a ≠ b)
    (ha : f' a + n = f a) (hb : f' b = f b + n) (hf : ∀ p, p ≠ a → p ≠ b → f' p = f p)
    {S : Finset Party} (haS : a ∈ S) (hbS : b ∈ S) : ∑ p ∈ S, f' p = ∑ p ∈ S, f p := by
  have hbS' : b ∈ S.erase a := mem_erase.mpr ⟨hab.symm, hbS⟩
  rw [← add_sum_erase S f' haS, ← add_sum_erase S f haS, ← add_sum_erase _ f' hbS',
    ← add_sum_erase _ f hbS']
  have hrest : ∑ p ∈ (S.erase a).erase b, f' p = ∑ p ∈ (S.erase a).erase b, f p :=
    sum_congr rfl fun p hp =>
      hf p (mem_erase.mp (mem_erase.mp hp).2).1 (mem_erase.mp hp).1
  omega

theorem Exchange.sum_stock [DecidableEq Party] {h h' : Holdings Party Good}
    {giver receiver : Party} {g : Good} {quantity price : ℕ}
    (he : Exchange h h' giver receiver g quantity price) (hne : giver ≠ receiver)
    {S : Finset Party} (hg : giver ∈ S) (hr : receiver ∈ S) (x : Good) :
    ∑ p ∈ S, h'.stock p x = ∑ p ∈ S, h.stock p x := by
  by_cases hx : x = g
  · subst hx
    exact sum_eq_of_pass hne he.given he.received
      (fun p h₁ h₂ => he.stock_frame p x fun _ => ⟨h₁, h₂⟩) hg hr
  · exact sum_congr rfl fun p _ => he.stock_frame p x fun h => absurd h hx

end WitcherMP
