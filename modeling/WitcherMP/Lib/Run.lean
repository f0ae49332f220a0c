import Mathlib.Data.List.Basic

/-! Runs of a deterministic transition system: the state a list of operations leads to,
a property of every step taken on the way, and the two induction rules. -/

namespace WitcherMP.Run
variable {σ α : Type*} (step : σ → α → σ)

def run : σ → List α → σ
  | s, [] => s
  | s, a :: as => run (step s a) as

theorem run_eq_foldl (s : σ) (as : List α) : run step s as = as.foldl step s := by
  induction as generalizing s with
  | nil => rfl
  | cons a as ih => exact ih (step s a)

theorem run_append (s : σ) (as bs : List α) : run step s (as ++ bs) = run step (run step s as) bs := by
  induction as generalizing s with
  | nil => rfl
  | cons a as ih => exact ih (step s a)

def Along (P : σ → α → Prop) : σ → List α → Prop
  | _, [] => True
  | s, a :: as => P s a ∧ Along P (step s a) as

instance decidableAlong {P : σ → α → Prop} [∀ s a, Decidable (P s a)] :
    ∀ s as, Decidable (Along step P s as)
  | _, [] => isTrue trivial
  | s, a :: as =>
    have : Decidable (Along step P (step s a) as) := decidableAlong (step s a) as
    inferInstanceAs (Decidable (P s a ∧ Along step P (step s a) as))

def total (f : σ → α → ℕ) : σ → List α → ℕ
  | _, [] => 0
  | s, a :: as => f s a + total f (step s a) as

def gather {β : Type*} (f : σ → α → Option β) : σ → List α → List β
  | _, [] => []
  | s, a :: as => (f s a).toList ++ gather f (step s a) as

def collect {β : Type*} (f : σ → α → List β) : σ → List α → List β
  | _, [] => []
  | s, a :: as => f s a ++ collect f (step s a) as

variable {step}

theorem forall_mem_collect {β : Type*} {f : σ → α → List β} {P : β → Prop}
    (hstep : ∀ s a, ∀ b ∈ f s a, P b) (s : σ) (as : List α) : ∀ b ∈ collect step f s as, P b := by
  induction as generalizing s with
  | nil => exact fun b hb => absurd hb List.not_mem_nil
  | cons a as ih =>
    intro b hb
    rcases List.mem_append.mp hb with hb | hb
    · exact hstep s a b hb
    · exact ih (step s a) b hb

theorem gather_eq_filterMap {β : Type*} {f : σ → α → Option β} {g : α → Option β} {I : σ → Prop}
    (hstep : ∀ s a, I s → I (step s a) ∧ f s a = g a) {s : σ} (hs : I s) (as : List α) :
    gather step f s as = as.filterMap g := by
  induction as generalizing s with
  | nil => rfl
  | cons a as ih =>
    obtain ⟨hi, hfg⟩ := hstep s a hs
    rw [gather, ih hi, hfg]
    cases hg : g a with
    | none => rw [List.filterMap_cons_none hg, Option.toList_none, List.nil_append]
    | some b => rw [List.filterMap_cons_some hg, Option.toList_some, List.singleton_append]

theorem total_append (f : σ → α → ℕ) (s : σ) (as bs : List α) :
    total step f s (as ++ bs) = total step f s as + total step f (run step s as) bs := by
  induction as generalizing s with
  | nil => exact (Nat.zero_add _).symm
  | cons a as ih => rw [List.cons_append, total, ih, total, run, Nat.add_assoc]

theorem along_append_iff {P : σ → α → Prop} {s : σ} {as bs : List α} :
    Along step P s (as ++ bs) ↔ Along step P s as ∧ Along step P (run step s as) bs := by
  induction as generalizing s with
  | nil => exact (iff_of_eq (true_and _)).symm
  | cons a as ih => exact (and_congr_right fun _ => ih).trans and_assoc.symm

theorem along_of_forall {P : α → Prop} (s : σ) {as : List α} (h : ∀ a ∈ as, P a) :
    Along step (fun _ a => P a) s as := by
  induction as generalizing s with
  | nil => trivial
  | cons a as ih =>
    obtain ⟨ha, has⟩ := List.forall_mem_cons.mp h
    exact ⟨ha, ih (step s a) has⟩

theorem Along.and {P Q : σ → α → Prop} {s : σ} {as : List α} (hp : Along step P s as)
    (hq : Along step Q s as) : Along step (fun s a => P s a ∧ Q s a) s as := by
  induction as generalizing s with
  | nil => trivial
  | cons a as ih => exact ⟨⟨hp.1, hq.1⟩, ih hp.2 hq.2⟩

theorem along_forall {ι : Type*} {P : ι → σ → α → Prop} {s : σ} {as : List α}
    (h : ∀ i, Along step (P i) s as) : Along step (fun s a => ∀ i, P i s a) s as := by
  induction as generalizing s with
  | nil => trivial
  | cons a as ih => exact ⟨fun i => (h i).1, ih fun i => (h i).2⟩

theorem along_of_step {P Q : σ → α → Prop} {I : σ → Prop}
    (hstep : ∀ s a, I s → P s a → I (step s a) ∧ Q s a) {s : σ} {as : List α}
    (hs : I s) (h : Along step P s as) : I (run step s as) ∧ Along step Q s as := by
  induction as generalizing s with
  | nil => exact ⟨hs, trivial⟩
  | cons a as ih =>
    obtain ⟨hi, hq⟩ := hstep s a hs h.1
    obtain ⟨hr, ha⟩ := ih hi h.2
    exact ⟨hr, hq, ha⟩

theorem along_of_counted {f : σ → α → ℕ} {B : ℕ} {K : ℕ → σ → Prop} {P Q : σ → α → Prop}
    (hstep : ∀ n s a, K n s → P s a → n + f s a ≤ B → K (n + f s a) (step s a) ∧ Q s a)
    {n : ℕ} {s : σ} {as : List α} (hk : K n s) (hn : n + total step f s as ≤ B)
    (h : Along step P s as) : Along step Q s as := by
  induction as generalizing n s with
  | nil => trivial
  | cons a as ih =>
    rw [total, ← Nat.add_assoc] at hn
    obtain ⟨hk', hq⟩ := hstep n s a hk h.1 (Nat.le_trans (Nat.le_add_right _ _) hn)
    exact ⟨hq, ih hk' hn h.2⟩

theorem invariant_run {I : σ → Prop} (hstep : ∀ s a, I s → I (step s a)) {s : σ} (hs : I s)
    (as : List α) : I (run step s as) := by
  induction as generalizing s with
  | nil => exact hs
  | cons a as ih => exact ih (hstep s a hs)

theorem counted_run {f : σ → α → ℕ} {K : ℕ → σ → Prop}
    (hstep : ∀ n s a, K n s → K (n + f s a) (step s a)) {n : ℕ} {s : σ} (hk : K n s) (as : List α) :
    K (n + total step f s as) (run step s as) := by
  induction as generalizing n s with
  | nil => exact hk
  | cons a as ih =>
    rw [total, ← Nat.add_assoc]
    exact ih (hstep n s a hk)

theorem run_map {β : Type*} (view : σ → List β) {act : β → α → β} {I : σ → Prop}
    (hstep : ∀ s a, I s → I (step s a) ∧ view (step s a) = (view s).map (act · a)) {s : σ} (hs : I s)
    (as : List α) : view (run step s as) = (view s).map (run act · as) := by
  induction as generalizing s with
  | nil => exact (List.map_id _).symm
  | cons a as ih =>
    obtain ⟨hi, hview⟩ := hstep s a hs
    rw [run, ih hi, hview, List.map_map]
    rfl

theorem along_congr_of_step {P Q : σ → α → Prop} {I : σ → Prop}
    (hstep : ∀ s a, I s → (Q s a ↔ P s a) ∧ (P s a → I (step s a))) {s : σ} {as : List α}
    (hs : I s) : Along step Q s as ↔ Along step P s as := by
  induction as generalizing s with
  | nil => exact Iff.rfl
  | cons a as ih =>
    obtain ⟨hiff, hkeep⟩ := hstep s a hs
    constructor
    · rintro ⟨ha, has⟩
      have hp := hiff.mp ha
      exact ⟨hp, (ih (hkeep hp)).mp has⟩
    · rintro ⟨hp, has⟩
      exact ⟨hiff.mpr hp, (ih (hkeep hp)).mpr has⟩

theorem along_iff_of_step {I K : σ → Prop} {P Q : σ → α → Prop}
    (hstep : ∀ s a, K s → I s → Q s a → K (step s a) ∧ (I (step s a) ↔ P s a)) {s : σ}
    {as : List α} (hk : K s) (hi : I s) (hq : Along step Q s as) :
    Along step (fun s a => I (step s a)) s as ↔ Along step P s as := by
  induction as generalizing s with
  | nil => exact Iff.rfl
  | cons a as ih =>
    obtain ⟨hk', hiff⟩ := hstep s a hk hi hq.1
    constructor
    · rintro ⟨hi', has⟩
      exact ⟨hiff.mp hi', (ih hk' hi' hq.2).mp has⟩
    · rintro ⟨hp, has⟩
      exact ⟨hiff.mpr hp, (ih hk' (hiff.mpr hp) hq.2).mpr has⟩

theorem along_iff_of_counted {f : σ → α → ℕ} {B : ℕ} {I : σ → Prop} {K : ℕ → σ → Prop}
    {P : σ → α → Prop} (hstep : ∀ n s a, K n s → I s → n + f s a < B →
      K (n + f s a) (step s a) ∧ (I (step s a) ↔ P s a)) {n : ℕ} {s : σ} {as : List α}
    (hk : K n s) (hi : I s) (hn : n + total step f s as < B) :
    Along step (fun s a => I (step s a)) s as ↔ Along step P s as := by
  induction as generalizing n s with
  | nil => exact Iff.rfl
  | cons a as ih =>
    rw [total, ← Nat.add_assoc] at hn
    obtain ⟨hk', hiff⟩ := hstep n s a hk hi (Nat.lt_of_le_of_lt (Nat.le_add_right _ _) hn)
    constructor
    · rintro ⟨hi', has⟩
      exact ⟨hiff.mp hi', (ih hk' hi' hn).mp has⟩
    · rintro ⟨hp, has⟩
      exact ⟨hiff.mpr hp, (ih hk' (hiff.mpr hp) hn).mpr has⟩

theorem foldlM_of_step {step : σ → α → Option σ} {I : σ → Prop}
    (hstep : ∀ s a, I s → ∃ s', step s a = some s' ∧ I s') {s : σ} (hs : I s) (as : List α) :
    ∃ s', as.foldlM step s = some s' ∧ I s' := by
  induction as generalizing s with
  | nil => exact ⟨s, rfl, hs⟩
  | cons a as ih =>
    obtain ⟨s', hs', hi⟩ := hstep s a hs
    obtain ⟨s'', hs'', hi'⟩ := ih hi
    exact ⟨s'', by rw [List.foldlM_cons, hs', Option.bind_eq_bind, Option.bind_some, hs''], hi'⟩

theorem invariant_foldlM {step : σ → α → Option σ} {I : σ → Prop}
    (hstep : ∀ s a s', I s → step s a = some s' → I s') {s s' : σ} (hs : I s) {as : List α}
    (h : as.foldlM step s = some s') : I s' := by
  induction as generalizing s with
  | nil => exact Option.some.inj h ▸ hs
  | cons a as ih =>
    rw [List.foldlM_cons, Option.bind_eq_bind, Option.bind_eq_some_iff] at h
    obtain ⟨s₁, hs₁, h⟩ := h
    exact ih (hstep s a s₁ hs hs₁) h

/-- `I` holds of every state the run passes through. -/
def Throughout (step : σ → α → Option σ) (I : σ → Prop) : σ → List α → Prop
  | s, [] => I s
  | s, a :: as => I s ∧ ∀ s', step s a = some s' → Throughout step I s' as

/-- `P` holds of every call of the run, at the state it is made in. -/
def AtEach (step : σ → α → Option σ) (P : σ → α → Prop) : σ → List α → Prop
  | _, [] => True
  | s, a :: as => P s a ∧ ∀ s', step s a = some s' → AtEach step P s' as

theorem Throughout.start {step : σ → α → Option σ} {I : σ → Prop} {s : σ} {as : List α}
    (h : Throughout step I s as) : I s := by
  cases as with
  | nil => exact h
  | cons a as => exact h.1

theorem Throughout.final {step : σ → α → Option σ} {I : σ → Prop} {s s' : σ} {as : List α}
    (h : Throughout step I s as) (hs' : as.foldlM step s = some s') : I s' := by
  induction as generalizing s with
  | nil => exact Option.some.inj hs' ▸ h
  | cons a as ih =>
    rw [List.foldlM_cons, Option.bind_eq_bind, Option.bind_eq_some_iff] at hs'
    obtain ⟨s₁, hs₁, hs'⟩ := hs'
    exact ih (h.2 s₁ hs₁) hs'

theorem throughout_of_atEach {step : σ → α → Option σ} {I : σ → Prop} {P : σ → α → Prop}
    (hstep : ∀ s a s', I s → P s a → step s a = some s' → I s') {s : σ} (hi : I s) {as : List α}
    (h : AtEach step P s as) : Throughout step I s as := by
  induction as generalizing s with
  | nil => exact hi
  | cons a as ih => exact ⟨hi, fun s' hs' => ih (hstep s a s' hi h.1 hs') (h.2 s' hs')⟩

theorem Throughout.mono {step : σ → α → Option σ} {I J : σ → Prop} (hij : ∀ s, I s → J s) {s : σ}
    {as : List α} (h : Throughout step I s as) : Throughout step J s as := by
  induction as generalizing s with
  | nil => exact hij s h
  | cons a as ih => exact ⟨hij s h.1, fun s' hs' => ih (h.2 s' hs')⟩

theorem throughout_iff_atEach_of_returning {step : σ → α → Option σ} {I K : σ → Prop}
    {P : σ → α → Prop} {Q : α → Prop}
    (hstep : ∀ s a, K s → I s → Q a → (step s a = none → P s a) ∧
      ∀ s', step s a = some s' → K s' ∧ (I s' ↔ P s a))
    {s : σ} (hk : K s) (hi : I s) {as : List α} (hq : ∀ a ∈ as, Q a) :
    Throughout step I s as ↔ AtEach step P s as := by
  induction as generalizing s with
  | nil => exact iff_of_true hi trivial
  | cons a as ih =>
    obtain ⟨ha, has⟩ := List.forall_mem_cons.mp hq
    obtain ⟨hstuck, hreturns⟩ := hstep s a hk hi ha
    constructor
    · intro h
      refine ⟨?_, fun s' hs' => ?_⟩
      · cases hs' : step s a with
        | none => exact hstuck hs'
        | some s' => exact (hreturns s' hs').2.mp (h.2 s' hs').start
      · obtain ⟨hk', -⟩ := hreturns s' hs'
        exact (ih hk' (h.2 s' hs').start has).mp (h.2 s' hs')
    · intro h
      refine ⟨hi, fun s' hs' => ?_⟩
      obtain ⟨hk', hiff⟩ := hreturns s' hs'
      exact (ih hk' (hiff.mpr h.1) has).mpr (h.2 s' hs')

theorem throughout_iff_atEach {step : σ → α → Option σ} {I K : σ → Prop} {P : σ → α → Prop}
    {Q : α → Prop} (hstep : ∀ s a, K s → I s → Q a → ∃ s', step s a = some s' ∧ K s' ∧ (I s' ↔ P s a))
    {s : σ} (hk : K s) (hi : I s) {as : List α} (hq : ∀ a ∈ as, Q a) :
    Throughout step I s as ↔ AtEach step P s as := by
  refine throughout_iff_atEach_of_returning (fun s a hk hi ha => ?_) hk hi hq
  obtain ⟨s', hs', hk', hiff⟩ := hstep s a hk hi ha
  refine ⟨fun hnone => absurd (hnone.symm.trans hs') (Option.some_ne_none s').symm, fun s'' hs'' => ?_⟩
  obtain rfl := Option.some.inj (hs'.symm.trans hs'')
  exact ⟨hk', hiff⟩

end WitcherMP.Run
