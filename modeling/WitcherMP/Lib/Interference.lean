import WitcherMP.Lib.Run

/-! Two states told apart by one party: by what its own further calls return, and by what it
sees after them. What other parties do is unseen if it leads to a state that cannot be told
apart from the one before. -/

namespace WitcherMP.Interference
open Run
variable {σ α β ω υ : Type*} (step : σ → α → σ) (out : σ → α → ω) (view : σ → υ)

def outputs : σ → List α → List ω
  | _, [] => []
  | s, a :: as => out s a :: outputs (step s a) as

def Indistinct (s t : σ) : Prop := ∀ as : List α,
  outputs step out s as = outputs step out t as ∧ view (run step s as) = view (run step t as)

variable {step out view} {s t u : σ}

theorem Indistinct.symm (h : Indistinct step out view s t) : Indistinct step out view t s :=
  fun as => ⟨(h as).1.symm, (h as).2.symm⟩

theorem Indistinct.trans (h : Indistinct step out view s t) (h' : Indistinct step out view t u) :
    Indistinct step out view s u :=
  fun as => ⟨(h as).1.trans (h' as).1, (h as).2.trans (h' as).2⟩

theorem Indistinct.view_eq (h : Indistinct step out view s t) : view s = view t := (h []).2

theorem Indistinct.out_eq (h : Indistinct step out view s t) (a : α) : out s a = out t a :=
  List.head_eq_of_cons_eq (h [a]).1

theorem Indistinct.after (h : Indistinct step out view s t) (a : α) :
    Indistinct step out view (step s a) (step t a) :=
  fun as => ⟨List.tail_eq_of_cons_eq (h (a :: as)).1, (h (a :: as)).2⟩

theorem Indistinct.invariant {J : σ → σ → Prop}
    (hstep : ∀ s t a, J s t → out s a = out t a → J (step s a) (step t a))
    (h : Indistinct step out view s t) (hj : J s t) (as : List α) :
    J (Run.run step s as) (Run.run step t as) := by
  induction as generalizing s t with
  | nil => exact hj
  | cons a as ih => exact ih (h.after a) (hstep s t a hj (h.out_eq a))

theorem indistinct_of_bisim {R : σ → σ → Prop} (hview : ∀ s t, R s t → view s = view t)
    (hstep : ∀ s t a, R s t → out s a = out t a ∧ R (step s a) (step t a)) (h : R s t) :
    Indistinct step out view s t := by
  intro as
  induction as generalizing s t with
  | nil => exact ⟨rfl, hview s t h⟩
  | cons a as ih =>
    obtain ⟨hout, hr⟩ := hstep s t a h
    obtain ⟨houts, hviews⟩ := ih hr
    exact ⟨congrArg₂ List.cons hout houts, hviews⟩

theorem indistinct_run_iff {other : σ → β → σ} {Harmless : σ → β → Prop} {K : σ → Prop}
    (hkeep : ∀ s b, K s → K (other s b))
    (hharmless : ∀ s b, K s → Harmless s b → Indistinct step out view s (other s b))
    (hseen : ∀ s b bs, K s → Indistinct step out view s (run other (other s b) bs) → Harmless s b)
    (hk : K s) (bs : List β) :
    Indistinct step out view s (run other s bs) ↔ Along other Harmless s bs := by
  induction bs generalizing s with
  | nil => exact iff_of_true (fun _ => ⟨rfl, rfl⟩) trivial
  | cons b bs ih =>
    have hrest := ih (hkeep s b hk)
    constructor
    · intro h
      have hb := hseen s b bs hk h
      exact ⟨hb, hrest.mp ((hharmless s b hk hb).symm.trans h)⟩
    · exact fun h => (hharmless s b hk h.1).trans (hrest.mpr h.2)

end WitcherMP.Interference
