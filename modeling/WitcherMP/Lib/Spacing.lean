import Mathlib.Algebra.Order.Field.Rat
import Mathlib.Data.Rat.Floor
import Mathlib.Data.List.Basic
import Mathlib.Tactic.Linarith
import Mathlib.Tactic.Ring

/-! Times that keep a distance, as those of a thing that has to cool down: there are only so many of
them in any span. -/

namespace WitcherMP.Spacing
variable {c : ℚ} {ts : List ℚ} {t₀ t : ℚ}

def Spaced (c : ℚ) (ts : List ℚ) : Prop := ts.Pairwise fun t t' => t + c ≤ t'

theorem Spaced.sublist {us : List ℚ} (h : Spaced c ts) (hsub : us.Sublist ts) : Spaced c us :=
  List.Pairwise.sublist hsub h

theorem Spaced.concat (hc : 0 ≤ c) (h : Spaced c ts) (ht : ∀ t' ∈ ts.getLast?, t' + c ≤ t) :
    Spaced c (ts ++ [t]) := by
  refine List.pairwise_append.mpr ⟨h, List.pairwise_singleton _ _, fun t' ht' u hu => ?_⟩
  rw [List.mem_singleton.mp hu]
  obtain ⟨pre, last, rfl⟩ := (List.eq_nil_or_concat' ts).resolve_left (List.ne_nil_of_mem ht')
  have hlast := ht last List.getLast?_concat
  rcases List.mem_append.mp ht' with hpre | hlast'
  · have hbefore := (List.pairwise_append.mp h).2.2 t' hpre last List.mem_cons_self
    linarith
  · rwa [List.mem_singleton.mp hlast']

theorem Spaced.length_mul_le (h : Spaced c (t₀ :: ts)) {b : ℚ} (hb : ∀ t ∈ t₀ :: ts, t ≤ b) :
    t₀ + ts.length * c ≤ b := by
  induction ts generalizing t₀ with
  | nil => simpa using hb t₀ List.mem_cons_self
  | cons t ts ih =>
    obtain ⟨hfirst, hrest⟩ := List.pairwise_cons.mp h
    have htail := ih hrest fun u hu => hb u (List.mem_cons_of_mem _ hu)
    have hstep := hfirst t List.mem_cons_self
    rw [List.length_cons, Nat.cast_succ, add_mul, one_mul]
    linarith

theorem Spaced.length_le (h : Spaced c ts) (hc : 0 < c) {a b : ℚ}
    (hspan : ∀ t ∈ ts, a ≤ t ∧ t ≤ b) : ts.length ≤ ⌊(b - a) / c⌋₊ + 1 := by
  cases ts with
  | nil => exact Nat.zero_le _
  | cons t₀ ts =>
    have hall := h.length_mul_le fun t ht => (hspan t ht).2
    have hfirst := (hspan t₀ List.mem_cons_self).1
    have hfits : (ts.length : ℚ) ≤ (b - a) / c := (le_div_iff₀ hc).mpr (by linarith)
    exact Nat.succ_le_succ (Nat.le_floor hfits)

end WitcherMP.Spacing
