import WitcherMP.Lib.Run
import Mathlib.Data.List.Induction
import Mathlib.Data.List.Nodup

/-! A run with a book of what its calls close. What is in the book is closed for good, and in it
once only, exactly as long as no call opens again what the book holds. -/

namespace WitcherMP.Books
open Run
variable {σ α X : Type*} (step : σ → α → σ) (closes : σ → α → List X)

theorem collect_append (s : σ) (as bs : List α) :
    collect step closes s (as ++ bs)
      = collect step closes s as ++ collect step closes (run step s as) bs := by
  induction as generalizing s with
  | nil => rfl
  | cons a as ih => rw [List.cons_append, collect, ih, collect, run, List.append_assoc]

theorem collect_snoc (s : σ) (as : List α) (a : α) :
    collect step closes s (as ++ [a]) = collect step closes s as ++ closes (run step s as) a := by
  rw [collect_append, collect, collect, List.append_nil]

theorem run_snoc (s : σ) (as : List α) (a : α) :
    run step s (as ++ [a]) = step (run step s as) a := run_append step s as [a]

structure Closing (isOpen : σ → X → Prop) (opens : σ → α → Option X) : Prop where
  nodup : ∀ s a, (closes s a).Nodup
  was_open : ∀ s a, ∀ x ∈ closes s a, isOpen s x
  closed : ∀ s a, ∀ x ∈ closes s a, ¬ isOpen (step s a) x
  opened : ∀ s a x, ¬ isOpen s x → (isOpen (step s a) x ↔ opens s a = some x)

def Settled (isOpen : σ → X → Prop) (s : σ) (book : List X) : Prop :=
  book.Nodup ∧ ∀ x ∈ book, ¬ isOpen s x

variable {step closes} {isOpen : σ → X → Prop} {opens : σ → α → Option X}

theorem Closing.settled_step (h : Closing step closes isOpen opens) {s : σ} {book : List X}
    (hs : Settled isOpen s book) {a : α} (ha : ∀ x ∈ book, opens s a ≠ some x) :
    Settled isOpen (step s a) (book ++ closes s a) := by
  obtain ⟨hnodup, hclosed⟩ := hs
  constructor
  · refine List.nodup_append.mpr ⟨hnodup, h.nodup s a, fun x hx y hy hxy => ?_⟩
    exact hclosed x hx (h.was_open s a x (hxy ▸ hy))
  · intro x hx
    rcases List.mem_append.mp hx with hx | hx
    · exact fun hopen => ha x hx ((h.opened s a x (hclosed x hx)).mp hopen)
    · exact h.closed s a x hx

/-- No call of the run opens again what the calls before it have closed. -/
def NoneReopened (step : σ → α → σ) (closes : σ → α → List X) (opens : σ → α → Option X) (s : σ)
    (as : List α) : Prop :=
  ∀ before a, before ++ [a] <+: as →
    ∀ x ∈ collect step closes s before, opens (run step s before) a ≠ some x

theorem Closing.settled_run (h : Closing step closes isOpen opens) {s : σ} {as : List α}
    (hnone : NoneReopened step closes opens s as) :
    Settled isOpen (run step s as) (collect step closes s as) := by
  induction as using List.reverseRecOn with
  | nil => exact ⟨List.nodup_nil, fun x hx => absurd hx List.not_mem_nil⟩
  | append_singleton as a ih =>
    have hs := ih fun before b hb => hnone before b (hb.trans (List.prefix_append as [a]))
    rw [run_snoc, collect_snoc]
    exact h.settled_step hs (hnone as a List.prefix_rfl)

theorem NoneReopened.earlier {s : σ} {as before : List α}
    (h : NoneReopened step closes opens s as) (hbefore : before <+: as) :
    NoneReopened step closes opens s before :=
  fun earlier a hearlier => h earlier a (hearlier.trans hbefore)

theorem Closing.noneReopened (h : Closing step closes isOpen opens) {s : σ} {as : List α}
    (hclosed : ∀ before, before <+: as →
      ∀ x ∈ collect step closes s before, ¬ isOpen (run step s before) x) :
    NoneReopened step closes opens s as := by
  intro before a hbefore x hx hopens
  have hearlier := hclosed before ((List.prefix_append before [a]).trans hbefore) x hx
  have hlater := hclosed (before ++ [a]) hbefore x
  rw [run_snoc, collect_snoc] at hlater
  exact hlater (List.mem_append_left _ hx) ((h.opened _ a x hearlier).mpr hopens)

end WitcherMP.Books
