import WitcherMP.Lib.Run
import Mathlib.Data.List.Forall2
import Mathlib.Logic.Function.Basic

/-! Two replicas that are updated each on its own and send each other snapshots, which arrive
in any order. What a replica holds in the end is decided by its lineage: the updates that led
to its state. -/

namespace WitcherMP.Replicas

inductive Side
  | left | right
deriving DecidableEq

def Side.other : Side → Side
  | left => right
  | right => left

structure Node (σ ε δ : Type*) where
  update : σ → ε → σ
  take : σ → δ
  install : σ → δ → σ

structure Pair (σ δ : Type*) where
  state : Side → σ
  underWay : Side → List δ

inductive Action (ε : Type*)
  | update (i : Side) (e : ε)
  | snapshot (i : Side)
  | deliver (i : Side) (k : ℕ)

variable {σ σ' ε δ δ' : Type*}

def Pair.start (s : σ) : Pair σ δ := ⟨fun _ => s, fun _ => []⟩

namespace Node

def step (N : Node σ ε δ) (p : Pair σ δ) : Action ε → Pair σ δ
  | .update i e => { p with state := Function.update p.state i (N.update (p.state i) e) }
  | .snapshot i =>
    let sent := p.underWay i.other ++ [N.take (p.state i)]
    { p with underWay := Function.update p.underWay i.other sent }
  | .deliver i k =>
    match (p.underWay i)[k]? with
    | none => p
    | some d =>
      { state := Function.update p.state i (N.install (p.state i) d)
        underWay := Function.update p.underWay i ((p.underWay i).eraseIdx k) }

end Node

def AtUpdate (C : σ → ε → Prop) (p : Pair σ δ) : Action ε → Prop
  | .update i e => C (p.state i) e
  | .snapshot _ => True
  | .deliver _ _ => True

instance decidableAtUpdate {C : σ → ε → Prop} [∀ s e, Decidable (C s e)] (p : Pair σ δ) :
    ∀ a, Decidable (AtUpdate C p a)
  | .update i e => inferInstanceAs (Decidable (C (p.state i) e))
  | .snapshot _ => isTrue trivial
  | .deliver _ _ => isTrue trivial

section Simulation
variable {N : Node σ ε δ} {N' : Node σ' ε δ'} {R : σ → σ' → Prop} {S : δ → δ' → Prop}

structure Related (R : σ → σ' → Prop) (S : δ → δ' → Prop) (p : Pair σ δ) (p' : Pair σ' δ') :
    Prop where
  state : ∀ i, R (p.state i) (p'.state i)
  underWay : ∀ i, List.Forall₂ S (p.underWay i) (p'.underWay i)

theorem related_start {s : σ} {s' : σ'} (h : R s s') :
    Related R S (Pair.start s) (Pair.start s') :=
  ⟨fun _ => h, fun _ => .nil⟩

structure Simulates (N : Node σ ε δ) (N' : Node σ' ε δ') (R : σ → σ' → Prop) (S : δ → δ' → Prop)
    (C : σ → ε → Prop) : Prop where
  update : ∀ s s' e, R s s' → C s e → R (N.update s e) (N'.update s' e)
  take : ∀ s s', R s s' → S (N.take s) (N'.take s')
  install : ∀ s s' d d', R s s' → S d d' → R (N.install s d) (N'.install s' d')

theorem forall_update {α β : Type*} {P : α → β → Prop} {f : Side → α} {g : Side → β}
    (h : ∀ i, P (f i) (g i)) {i : Side} {a : α} {b : β} (hab : P a b) (j : Side) :
    P (Function.update f i a j) (Function.update g i b j) := by
  by_cases hj : j = i
  · subst hj
    rwa [Function.update_self, Function.update_self]
  · rw [Function.update_of_ne hj, Function.update_of_ne hj]
    exact h j

theorem forall₂_eraseIdx {l : List δ} {l' : List δ'} (h : List.Forall₂ S l l') (k : ℕ) :
    List.Forall₂ S (l.eraseIdx k) (l'.eraseIdx k) := by
  rw [List.eraseIdx_eq_take_drop_succ, List.eraseIdx_eq_take_drop_succ]
  exact List.rel_append (List.forall₂_take k h) (List.forall₂_drop (k + 1) h)

theorem forall₂_getElem? {l : List δ} {l' : List δ'} (h : List.Forall₂ S l l') (k : ℕ) :
    (l[k]? = none ∧ l'[k]? = none) ∨ ∃ d d', l[k]? = some d ∧ l'[k]? = some d' ∧ S d d' := by
  induction h generalizing k with
  | nil => exact Or.inl ⟨rfl, rfl⟩
  | @cons d d' l l' hd _ ih =>
    cases k with
    | zero => exact Or.inr ⟨d, d', rfl, rfl, hd⟩
    | succ k => exact ih k

theorem Simulates.step {C : σ → ε → Prop} (h : Simulates N N' R S C) {p : Pair σ δ}
    {p' : Pair σ' δ'} (hr : Related R S p p') {a : Action ε} (ha : AtUpdate C p a) :
    Related R S (N.step p a) (N'.step p' a) := by
  cases a with
  | update i e => exact ⟨forall_update hr.state (h.update _ _ e (hr.state i) ha), hr.underWay⟩
  | snapshot i =>
    refine ⟨hr.state, forall_update hr.underWay ?_⟩
    exact List.rel_append (hr.underWay i.other) (.cons (h.take _ _ (hr.state i)) .nil)
  | deliver i k =>
    unfold Node.step
    rcases forall₂_getElem? (hr.underWay i) k with ⟨hn, hn'⟩ | ⟨d, d', hd, hd', hdd⟩
    · simp only [hn, hn']
      exact hr
    · simp only [hd, hd']
      exact ⟨forall_update hr.state (h.install _ _ d d' (hr.state i) hdd),
        forall_update hr.underWay (forall₂_eraseIdx (hr.underWay i) k)⟩

theorem Simulates.run {C : σ → ε → Prop} (h : Simulates N N' R S C) {p : Pair σ δ}
    {p' : Pair σ' δ'} (hr : Related R S p p') {as : List (Action ε)}
    (has : Run.Along N.step (AtUpdate C) p as) :
    Related R S (Run.run N.step p as) (Run.run N'.step p' as) := by
  induction as generalizing p p' with
  | nil => exact hr
  | cons a as ih => exact ih (h.step hr has.1) has.2

end Simulation

section Invariants
variable {N : Node σ ε δ} {S : Side → σ → Prop} {M : Side → δ → Prop}

structure Holding (S : Side → σ → Prop) (M : Side → δ → Prop) (p : Pair σ δ) : Prop where
  state : ∀ i, S i (p.state i)
  underWay : ∀ i, ∀ d ∈ p.underWay i, M i d

structure Upholds (N : Node σ ε δ) (S : Side → σ → Prop) (M : Side → δ → Prop) (C : σ → ε → Prop) :
    Prop where
  update : ∀ i s e, S i s → C s e → S i (N.update s e)
  take : ∀ i s, S i s → M i.other (N.take s)
  install : ∀ i s d, S i s → M i d → S i (N.install s d)

theorem forall_update_at {α : Type*} {P : Side → α → Prop} {f : Side → α} (h : ∀ i, P i (f i))
    {i : Side} {a : α} (ha : P i a) (j : Side) : P j (Function.update f i a j) := by
  by_cases hj : j = i
  · subst hj
    rwa [Function.update_self]
  · rw [Function.update_of_ne hj]
    exact h j

theorem Upholds.step {C : σ → ε → Prop} (h : Upholds N S M C) {p : Pair σ δ} (hp : Holding S M p)
    {a : Action ε} (ha : AtUpdate C p a) : Holding S M (N.step p a) := by
  cases a with
  | update i e => exact ⟨forall_update_at hp.state (h.update i _ e (hp.state i) ha), hp.underWay⟩
  | snapshot i =>
    refine ⟨hp.state, forall_update_at (P := fun i l => ∀ d ∈ l, M i d) hp.underWay fun d hd => ?_⟩
    rcases List.mem_append.mp hd with hd | hd
    · exact hp.underWay i.other d hd
    · exact List.mem_singleton.mp hd ▸ h.take i _ (hp.state i)
  | deliver i k =>
    unfold Node.step
    cases hk : (p.underWay i)[k]? with
    | none => simpa only [hk] using hp
    | some d =>
      have hd := hp.underWay i d (List.mem_of_getElem? hk)
      simp only [hk]
      exact ⟨forall_update_at hp.state (h.install i _ d (hp.state i) hd),
        forall_update_at (P := fun i l => ∀ d ∈ l, M i d) hp.underWay
          fun d hd => hp.underWay i d (List.mem_of_mem_eraseIdx hd)⟩

end Invariants

def lineageNode (ε : Type*) : Node (List ε) ε (List ε) where
  update h e := h ++ [e]
  take h := h
  install _ h := h

def lineage (as : List (Action ε)) (i : Side) : List ε :=
  (Run.run (lineageNode ε).step (Pair.start []) as).state i

def updates (as : List (Action ε)) : List ε :=
  as.filterMap fun
    | .update _ e => some e
    | .snapshot _ => none
    | .deliver _ _ => none

/-- Nothing but a part of these updates is behind any state or snapshot. -/
structure Within (all : List ε) (p : Pair (List ε) (List ε)) : Prop where
  state : ∀ i, (p.state i).Sublist all
  underWay : ∀ i, ∀ h ∈ p.underWay i, h.Sublist all

theorem forall_update_of {α : Type*} {P : α → Prop} {f : Side → α} (h : ∀ i, P (f i)) {i : Side}
    {a : α} (ha : P a) : ∀ j, P (Function.update f i a j) :=
  forall_update (P := fun a (_ : Unit) => P a) (g := fun _ => ()) (b := ()) h ha

theorem Within.append {all : List ε} {p : Pair (List ε) (List ε)} (h : Within all p)
    (es : List ε) : Within (all ++ es) p :=
  ⟨fun i => (h.state i).trans (List.sublist_append_left ..),
    fun i l hl => (h.underWay i l hl).trans (List.sublist_append_left ..)⟩

theorem Within.step {all : List ε} {p : Pair (List ε) (List ε)} (h : Within all p)
    (a : Action ε) : Within (all ++ updates [a]) ((lineageNode ε).step p a) := by
  have hall := h.append (updates [a])
  cases a with
  | update i e =>
    have hi : (p.state i ++ [e]).Sublist (all ++ [e]) := (h.state i).append (.refl [e])
    exact ⟨forall_update_of (P := (List.Sublist · _)) hall.state hi, hall.underWay⟩
  | snapshot i =>
    have hsent : ∀ l ∈ p.underWay i.other ++ [p.state i], l.Sublist (all ++ updates [.snapshot i]) := by
      intro l hl
      rcases List.mem_append.mp hl with hl | hl
      · exact hall.underWay i.other l hl
      · exact List.mem_singleton.mp hl ▸ hall.state i
    exact ⟨hall.state, forall_update_of (P := fun h => ∀ l ∈ h, List.Sublist l _) hall.underWay hsent⟩
  | deliver i k =>
    unfold Node.step
    cases hk : (p.underWay i)[k]? with
    | none => simpa only [hk] using hall
    | some l =>
      simp only [hk]
      have hrest : ∀ l' ∈ (p.underWay i).eraseIdx k, l'.Sublist (all ++ updates [.deliver i k]) :=
        fun l' hl' => hall.underWay i l' (List.mem_of_mem_eraseIdx hl')
      exact ⟨forall_update_of (P := (List.Sublist · _)) hall.state
          (hall.underWay i l (List.mem_of_getElem? hk)),
        forall_update_of (P := fun h => ∀ l ∈ h, List.Sublist l _) hall.underWay hrest⟩

theorem Within.run {all : List ε} {p : Pair (List ε) (List ε)} (h : Within all p)
    (as : List (Action ε)) : Within (all ++ updates as) (Run.run (lineageNode ε).step p as) := by
  induction as generalizing all p with
  | nil => simpa [updates, Run.run] using h
  | cons a as ih =>
    have := ih (h.step a)
    rwa [List.append_assoc, updates, updates, ← List.filterMap_append] at this

theorem lineage_sublist (as : List (Action ε)) (i : Side) :
    (lineage as i).Sublist (updates as) := by
  have hstart : Within ([] : List ε) (Pair.start []) := ⟨fun _ => .refl [], fun _ _ h => nomatch h⟩
  exact (hstart.run as).state i

end WitcherMP.Replicas
