import Mathlib.Algebra.Ring.Nat
import Mathlib.Data.List.Basic

/-! Programs that may fail, taken step after step: loops that count up, whose body may change what
the loop goes over, and runs over a list of operations. -/

namespace WitcherMP.Loops
variable {σ α β : Type*}

def loop (body : ℕ → σ → Option σ) : ℕ → ℕ → σ → Option σ
  | _, 0, s => some s
  | i, n + 1, s => (body i s).bind (loop body (i + 1) n)

/-- A loop whose counter has eight bits and starts again behind 255: `none` where `fuel` rounds do
not get it to the bound. -/
def countLoop (body : ℕ → σ → Option σ) (bound : ℕ) : ℕ → UInt8 → σ → Option σ
  | 0, _, _ => none
  | fuel + 1, i, s =>
    if i.toNat < bound then (body i.toNat s).bind (countLoop body bound fuel (i + 1)) else some s

def runs (step : σ → α → Option σ) : σ → List α → Option σ
  | s, [] => some s
  | s, a :: as => (step s a).bind (runs step · as)

def collect (step : σ → α → Option σ) (f : σ → α → List β) : σ → List α → List β
  | _, [] => []
  | s, a :: as => f s a ++
    match step s a with
    | none => []
    | some s' => collect step f s' as

def tally (step : σ → α → Option σ) (f : σ → α → ℕ) (s : σ) (as : List α) : ℕ :=
  (collect step (fun s a => [f s a]) s as).sum

/-- `P` holds of every operation of a run, at the state it is applied to. -/
def Along (step : σ → α → Option σ) (P : σ → α → Prop) : σ → List α → Prop
  | _, [] => True
  | s, a :: as => P s a ∧
    match step s a with
    | none => True
    | some s' => Along step P s' as

instance decidableAlong {step : σ → α → Option σ} {P : σ → α → Prop} [∀ s a, Decidable (P s a)] :
    ∀ s as, Decidable (Along step P s as)
  | _, [] => isTrue trivial
  | s, a :: as =>
    have : Decidable (match step s a with
        | none => True
        | some s' => Along step P s' as) :=
      match step s a with
      | none => isTrue trivial
      | some s' => decidableAlong s' as
    inferInstanceAs (Decidable (P s a ∧ _))

section Loops
variable {body : ℕ → σ → Option σ}

theorem countLoop_eq_none {bound : ℕ} (h : 256 ≤ bound) (fuel : ℕ) (i : UInt8) (s : σ) :
    countLoop body bound fuel i s = none := by
  induction fuel generalizing i s with
  | zero => rfl
  | succ fuel ih =>
    rw [countLoop, if_pos (Nat.lt_of_lt_of_le i.toNat_lt h), Option.bind_eq_none_iff]
    exact fun t _ => ih (i + 1) t

theorem countLoop_eq_loop {bound fuel n : ℕ} {i : UInt8} (hbound : bound < 256)
    (hn : i.toNat + n = bound) (hfuel : n < fuel) (s : σ) :
    countLoop body bound fuel i s = loop body i.toNat n s := by
  induction n generalizing fuel i s with
  | zero =>
    obtain ⟨fuel, rfl⟩ : ∃ k, fuel = k + 1 := ⟨fuel - 1, by omega⟩
    rw [countLoop, if_neg (by omega)]
    rfl
  | succ n ih =>
    obtain ⟨fuel, rfl⟩ : ∃ k, fuel = k + 1 := ⟨fuel - 1, by omega⟩
    have hone : (1 : UInt8).toNat = 1 := rfl
    have hnext : (i + 1).toNat = i.toNat + 1 := by
      rw [UInt8.toNat_add, hone, Nat.mod_eq_of_lt (by omega)]
    rw [countLoop, if_pos (by omega), loop]
    refine Option.bind_congr fun t _ => ?_
    rw [ih (by omega) (by omega), hnext]

theorem countLoop_eq (body : ℕ → σ → Option σ) (bound : ℕ) (s : σ) :
    countLoop body bound 256 0 s = if 256 ≤ bound then none else loop body 0 bound s := by
  split
  · next h => exact countLoop_eq_none h 256 0 s
  · next h => exact countLoop_eq_loop (not_le.mp h) (Nat.zero_add bound) (not_le.mp h) s

theorem loop_getD (step : σ → α → Option σ) (a₀ : α) (as : List α) (s : σ) :
    loop (fun i s => step s (as.getD i a₀)) 0 as.length s = runs step s as := by
  have key : ∀ (front rest : List α) (s : σ),
      loop (fun i s => step s ((front ++ rest).getD i a₀)) front.length rest.length s =
        runs step s rest := by
    intro front rest
    induction rest generalizing front with
    | nil => exact fun s => rfl
    | cons a rest ih =>
      intro s
      have hget : (front ++ a :: rest).getD front.length a₀ = a := by
        rw [List.getD_eq_getElem?_getD, List.getElem?_append_right (Nat.le_refl _), Nat.sub_self]
        rfl
      have hrest := ih (front ++ [a])
      rw [List.append_assoc, List.singleton_append, List.length_append, List.length_singleton]
        at hrest
      rw [List.length_cons, loop, hget, runs]
      exact Option.bind_congr fun t _ => hrest t
  exact key [] as s

theorem of_loop {I : ℕ → σ → Prop} {i n : ℕ} {s s' : σ}
    (hbody : ∀ j s s', i ≤ j → j < i + n → I j s → body j s = some s' → I (j + 1) s')
    (hs : I i s) (h : loop body i n s = some s') : I (i + n) s' := by
  induction n generalizing i s with
  | zero =>
    cases h
    exact hs
  | succ n ih =>
    obtain ⟨t, ht, hrest⟩ := Option.bind_eq_some_iff.mp h
    have hn : i + (n + 1) = i + 1 + n := by omega
    have ht' : I (i + 1) t := hbody i s t (Nat.le_refl i) (by omega) hs ht
    rw [hn]
    exact ih (fun j s s' hle hlt => hbody j s s' (by omega) (by omega)) ht' hrest

theorem loop_total {I : ℕ → σ → Prop} {i n : ℕ} {s : σ}
    (hbody : ∀ j s, i ≤ j → j < i + n → I j s → ∃ s', body j s = some s' ∧ I (j + 1) s')
    (hs : I i s) : ∃ s', loop body i n s = some s' ∧ I (i + n) s' := by
  induction n generalizing i s with
  | zero => exact ⟨s, rfl, hs⟩
  | succ n ih =>
    obtain ⟨t, ht, hit⟩ := hbody i s (Nat.le_refl i) (by omega) hs
    obtain ⟨s', hs', hi⟩ := ih (fun j s hle hlt => hbody j s (by omega) (by omega)) hit
    have hn : i + (n + 1) = i + 1 + n := by omega
    rw [hn]
    exact ⟨s', by rw [loop, ht, Option.bind_some, hs'], hi⟩

end Loops

section Runs
variable {step : σ → α → Option σ}

theorem along_of_forall {P : σ → α → Prop} (h : ∀ s a, P s a) (s : σ) (as : List α) :
    Along step P s as := by
  induction as generalizing s with
  | nil => trivial
  | cons a as ih =>
    refine ⟨h s a, ?_⟩
    cases step s a with
    | none => trivial
    | some s' => exact ih s'

theorem runs_append (s : σ) (as bs : List α) :
    runs step s (as ++ bs) = (runs step s as).bind (runs step · bs) := by
  induction as generalizing s with
  | nil => rfl
  | cons a as ih =>
    rw [List.cons_append, runs, runs, Option.bind_assoc]
    exact Option.bind_congr fun s' _ => ih s'

theorem runs_map {σ' : Type*} {step' : σ' → α → Option σ'} (view : σ' → σ)
    (hstep : ∀ s a, step (view s) a = (step' s a).map view) (s : σ') (as : List α) :
    runs step (view s) as = (runs step' s as).map view := by
  induction as generalizing s with
  | nil => rfl
  | cons a as ih =>
    rw [runs, runs, hstep, Option.map_bind, Option.bind_map]
    exact Option.bind_congr fun s' _ => ih s'

theorem of_runs {I : σ → Prop} (hstep : ∀ s a s', I s → step s a = some s' → I s') {s s' : σ}
    {as : List α} (hs : I s) (h : runs step s as = some s') : I s' := by
  induction as generalizing s with
  | nil =>
    cases h
    exact hs
  | cons a as ih =>
    obtain ⟨t, ht, hrest⟩ := Option.bind_eq_some_iff.mp h
    exact ih (hstep s a t hs ht) hrest

theorem of_runs_counted {K : ℕ → σ → Prop} {P : σ → α → Prop} {B : ℕ}
    (hstep : ∀ n s a s', n < B → K n s → P s a → step s a = some s' → K (n + 1) s') {n : ℕ}
    {s s' : σ} {as : List α} (hk : K n s) (hB : n + as.length ≤ B) (hp : Along step P s as)
    (h : runs step s as = some s') : K (n + as.length) s' := by
  induction as generalizing n s with
  | nil =>
    cases h
    exact hk
  | cons a as ih =>
    obtain ⟨t, ht, hrest⟩ := Option.bind_eq_some_iff.mp h
    obtain ⟨ha, has⟩ := hp
    rw [ht] at has
    have hn : n + (a :: as).length = n + 1 + as.length := by rw [List.length_cons]; omega
    rw [hn] at hB ⊢
    exact ih (hstep n s a t (by omega) hk ha ht) hB has hrest

theorem of_runs_collect {K : List β → σ → Prop} {f : σ → α → List β}
    (hstep : ∀ l s a s', K l s → step s a = some s' → K (l ++ f s a) s') {l : List β} {s s' : σ}
    {as : List α} (hk : K l s) (h : runs step s as = some s') : K (l ++ collect step f s as) s' := by
  induction as generalizing l s with
  | nil =>
    cases h
    rwa [collect, List.append_nil]
  | cons a as ih =>
    obtain ⟨t, ht, hrest⟩ := Option.bind_eq_some_iff.mp h
    have hl : l ++ collect step f s (a :: as) = l ++ f s a ++ collect step f t as := by
      rw [collect, ht, List.append_assoc]
    rw [hl]
    exact ih (hstep l s a t hk ht) hrest

theorem of_runs_tally {K : ℕ → σ → Prop} {f : σ → α → ℕ}
    (hstep : ∀ n s a s', K n s → step s a = some s' → K (n + f s a) s') {s s' : σ} {as : List α}
    (hk : K 0 s) (h : runs step s as = some s') : K (tally step f s as) s' := by
  refine of_runs_collect (K := fun l s => K l.sum s) (f := fun s a => [f s a]) (l := []) ?_ hk h
  intro l s a s' hk hs
  rw [List.sum_append, List.sum_singleton]
  exact hstep l.sum s a s' hk hs

end Runs
end WitcherMP.Loops
