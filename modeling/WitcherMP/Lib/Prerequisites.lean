import Mathlib.Logic.Relation
import Mathlib.Data.Set.Insert

/-! Things that are opened one at a time, each only after all that it requires. Whatever the
requirements are, nothing that leads into a cycle of them is ever opened. -/

namespace WitcherMP.Prerequisites
open Relation
variable {α : Type*} {requires requires' : α → α → Prop} {opened : Set α} {a b : α}

def Grounded (requires : α → α → Prop) (a : α) : Prop := Acc (fun b a => requires a b) a

theorem Grounded.not_transGen_self (h : Grounded requires a) : ¬ TransGen requires a a := by
  have hacc : Acc (TransGen fun b a => requires a b) a := h.transGen
  intro hcycle
  rw [← transGen_swap] at hcycle
  clear h
  induction hacc with
  | intro a _ ih => exact ih a hcycle hcycle

theorem Grounded.of_reflTransGen (h : Grounded requires a) (hab : ReflTransGen requires a b) :
    Grounded requires b := by
  induction hab with
  | refl => exact h
  | tail _ hbc ih => exact ih.inv hbc

structure Orderly (requires : α → α → Prop) (opened : Set α) : Prop where
  closed : ∀ a ∈ opened, ∀ b, requires a b → b ∈ opened
  grounded : ∀ a ∈ opened, Grounded requires a

theorem orderly_empty : Orderly requires ∅ := ⟨fun _ h => h.elim, fun _ h => h.elim⟩

theorem Orderly.insert (h : Orderly requires opened) (ha : ∀ b, requires a b → b ∈ opened) :
    Orderly requires (insert a opened) where
  closed := by
    rintro c (rfl | hc) b hcb
    · exact Set.mem_insert_of_mem _ (ha b hcb)
    · exact Set.mem_insert_of_mem _ (h.closed c hc b hcb)
  grounded := by
    rintro c (rfl | hc)
    · exact Acc.intro c fun b hcb => h.grounded b (ha b hcb)
    · exact h.grounded c hc

theorem Orderly.congr (h : Orderly requires opened)
    (hreq : ∀ a ∈ opened, ∀ b, requires' a b → requires a b) : Orderly requires' opened where
  closed a ha b hab := h.closed a ha b (hreq a ha b hab)
  grounded a ha := by
    have hacc : Acc (fun b a => requires a b) a := h.grounded a ha
    induction hacc with
    | intro a _ ih =>
      exact Acc.intro a fun b hab => ih b (hreq a ha b hab) (h.closed a ha b (hreq a ha b hab))

theorem Orderly.not_cycle (h : Orderly requires opened) (ha : a ∈ opened)
    (hab : ReflTransGen requires a b) : ¬ TransGen requires b b :=
  ((h.grounded a ha).of_reflTransGen hab).not_transGen_self

end WitcherMP.Prerequisites
