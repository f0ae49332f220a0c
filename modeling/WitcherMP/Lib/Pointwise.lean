import WitcherMP.Lib.OrdMap
import Mathlib.Algebra.BigOperators.Group.Finset.Basic
import Mathlib.Algebra.Order.BigOperators.Group.Finset

/-! Optional values, lists and finite maps compared entry by entry. Two maps have the same keys,
and under each key values that stand in a relation. -/

namespace WitcherMP

section Rel
variable {α β γ : Type*} {R : α → β → Prop} {x : Option α} {y : Option β}

theorem rel_refl {R : α → α → Prop} (h : ∀ a, R a a) (x : Option α) : Option.Rel R x x := by
  cases x with
  | none => exact .none
  | some a => exact .some (h a)

theorem rel_trans {S : β → γ → Prop} {T : α → γ → Prop} {z : Option γ} (hxy : Option.Rel R x y)
    (hyz : Option.Rel S y z) (h : ∀ a b c, R a b → S b c → T a c) : Option.Rel T x z := by
  cases hxy with
  | none => cases hyz with
    | none => exact .none
  | some hab => cases hyz with
    | some hbc => exact .some (h _ _ _ hab hbc)

theorem rel_some_left {a : α} (h : Option.Rel R (some a) y) : ∃ b, y = some b ∧ R a b := by
  cases h with
  | some hab => exact ⟨_, rfl, hab⟩

theorem rel_some_right {b : β} (h : Option.Rel R x (some b)) : ∃ a, x = some a ∧ R a b := by
  cases h with
  | some hab => exact ⟨_, rfl, hab⟩

theorem rel_eq_none_iff (h : Option.Rel R x y) : y = none ↔ x = none := by
  cases h <;> simp

theorem rel_map_iff {f : α → β} (x : Option α) :
    Option.Rel R x (x.map f) ↔ ∀ a, x = some a → R a (f a) := by
  constructor
  · rintro h a rfl
    obtain ⟨_, hb, hab⟩ := rel_some_left h
    exact Option.some.inj hb ▸ hab
  · intro h
    cases x with
    | none => exact .none
    | some a => exact .some (h a rfl)

end Rel

section Forall₂
variable {α β : Type*} {R : α → β → Prop} {as : List α} {bs : List β}

theorem exists_of_forall₂ (h : List.Forall₂ R as bs) {b : β} (hb : b ∈ bs) : ∃ a ∈ as, R a b := by
  induction h with
  | nil => exact absurd hb List.not_mem_nil
  | cons hab _ ih =>
    rcases List.mem_cons.mp hb with rfl | hb
    · exact ⟨_, List.mem_cons_self, hab⟩
    · obtain ⟨a, ha, hab⟩ := ih hb
      exact ⟨a, List.mem_cons_of_mem _ ha, hab⟩

theorem forall_iff_of_forall₂ {P : α → Prop} {Q : β → Prop} (h : List.Forall₂ R as bs)
    (hiff : ∀ a b, R a b → (Q b ↔ P a)) : (∀ b ∈ bs, Q b) ↔ ∀ a ∈ as, P a := by
  induction h with
  | nil => simp
  | cons hab _ ih => rw [List.forall_mem_cons, List.forall_mem_cons, hiff _ _ hab, ih]

end Forall₂
end WitcherMP

namespace WitcherMP.OrdMap
variable {κ α β γ : Type*} [LinearOrder κ] {R : κ → α → β → Prop} {m : OrdMap κ α} {n : OrdMap κ β}

def Pointwise (R : κ → α → β → Prop) (m : OrdMap κ α) (n : OrdMap κ β) : Prop :=
  ∀ k, Option.Rel (R k) (m.find? k) (n.find? k)

namespace Pointwise

theorem refl {R : κ → α → α → Prop} (h : ∀ k v, R k v v) (m : OrdMap κ α) : Pointwise R m m :=
  fun k => rel_refl (h k) (m.find? k)

theorem mono {S : κ → α → β → Prop} (h : Pointwise R m n) (hrs : ∀ k v w, R k v w → S k v w) :
    Pointwise S m n := by
  intro k
  have hk := h k
  generalize m.find? k = a, n.find? k = b at hk ⊢
  cases hk with
  | none => exact .none
  | some hr => exact .some (hrs _ _ _ hr)

theorem trans {S : κ → β → γ → Prop} {T : κ → α → γ → Prop} {l : OrdMap κ γ}
    (h : Pointwise R m n) (h' : Pointwise S n l)
    (hrs : ∀ k u v w, R k u v → S k v w → T k u w) : Pointwise T m l :=
  fun k => rel_trans (h k) (h' k) (hrs k)

theorem insert (h : Pointwise R m n) {k : κ} {v : α} {w : β} (hvw : R k v w) :
    Pointwise R (m.insert k v) (n.insert k w) := by
  intro k'
  rw [find?_insert, find?_insert]
  split_ifs with hk
  · exact hk ▸ .some hvw
  · exact h k'

theorem insert_right {R : κ → α → α → Prop} {m : OrdMap κ α} {k : κ} {v w : α}
    (h : ∀ k' u, k ≠ k' → R k' u u) (hv : m.find? k = some v) (hvw : R k v w) :
    Pointwise R m (m.insert k w) := by
  intro k'
  rw [find?_insert]
  split_ifs with hk
  · rw [← hk, hv]
    exact .some hvw
  · cases m.find? k' with
    | none => exact .none
    | some u => exact .some (h k' u hk)

theorem exists_right (h : Pointwise R m n) {k : κ} {v : α} (hv : m.find? k = some v) :
    ∃ w, n.find? k = some w ∧ R k v w :=
  rel_some_left (hv ▸ h k)

theorem exists_left (h : Pointwise R m n) {k : κ} {w : β} (hw : n.find? k = some w) :
    ∃ v, m.find? k = some v ∧ R k v w :=
  rel_some_right (hw ▸ h k)

theorem rel (h : Pointwise R m n) {k : κ} {v : α} {w : β} (hv : m.find? k = some v)
    (hw : n.find? k = some w) : R k v w := by
  obtain ⟨w', hw', hr⟩ := h.exists_right hv
  rwa [Option.some.inj (hw.symm.trans hw')]

theorem eq_none_iff (h : Pointwise R m n) {k : κ} : m.find? k = none ↔ n.find? k = none :=
  (rel_eq_none_iff (h k)).symm

theorem keys_eq (h : Pointwise R m n) : m.keys = n.keys := by
  ext k
  rw [mem_keys, mem_keys, Ne, Ne, h.eq_none_iff]

end Pointwise

theorem sumOver_eq_sum_keys {M : Type*} [AddCommMonoid M] (f : κ → α → M) (m : OrdMap κ α) :
    sumOver f m = ∑ k ∈ m.keys, (m.find? k).elim 0 (f k) := by
  have hnodup : (m.entries.map Prod.fst).Nodup :=
    (List.pairwise_map.mpr m.sorted).imp ne_of_lt
  rw [keys, List.sum_toFinset _ hnodup, List.map_map, sumOver]
  refine congrArg List.sum (List.map_congr_left fun e he => ?_)
  have hfind : m.find? e.1 = some e.2 := find?_eq_some_iff.mpr he
  rw [Function.comp_apply, hfind, Option.elim_some]

theorem Pointwise.sumOver_lt {f : κ → α → ℕ} {g : κ → β → ℕ}
    (h : Pointwise (fun k v w => f k v ≤ g k w) m n) {k : κ} {v : α} {w : β}
    (hv : m.find? k = some v) (hw : n.find? k = some w) (hlt : f k v < g k w) :
    sumOver f m < sumOver g n := by
  rw [sumOver_eq_sum_keys, sumOver_eq_sum_keys, h.keys_eq]
  refine Finset.sum_lt_sum (fun i _ => ?_) ⟨k, mem_keys.mpr (hw ▸ Option.some_ne_none w), ?_⟩
  · have hi := h i
    generalize m.find? i = a, n.find? i = b at hi
    cases hi with
    | none => exact le_rfl
    | some hle => exact hle
  · rw [hv, hw]
    exact hlt

end WitcherMP.OrdMap
