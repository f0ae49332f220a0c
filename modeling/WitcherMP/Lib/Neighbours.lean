import Mathlib.Data.List.Destutter
import Mathlib.Data.List.Perm.Subperm
import WitcherMP.Lib.Sorting

/-! Dropping an element that is equivalent to the last one kept, which removes every repetition
exactly from a list in which nothing stands between two equivalent elements but their like. -/

namespace WitcherMP.Neighbours
variable {α κ : Type*} {E : α → α → Prop} [LinearOrder κ] {key : α → κ}

def Grouped (E : α → α → Prop) (l : List α) : Prop :=
  ∀ a b c, [a, b, c].Sublist l → E a c → E a b

theorem grouped_cons_of_not {a b : α} {l : List α} (hab : ¬ E a b) :
    Grouped E (a :: b :: l) ↔ (∀ x ∈ b :: l, ¬ E a x) ∧ Grouped E (b :: l) := by
  constructor
  · intro h
    refine ⟨fun x hx hax => ?_, fun p q r hs => h p q r (hs.cons a)⟩
    rcases List.mem_cons.mp hx with rfl | hx
    · exact hab hax
    · exact hab (h a b x (by simpa using hx) hax)
  · rintro ⟨hne, h⟩ p q r hs hpr
    rcases List.cons_sublist_cons'.mp hs with htail | ⟨rfl, htail⟩
    · exact h p q r htail hpr
    · have hr : r ∈ b :: l := htail.subset (List.mem_cons_of_mem q (List.mem_singleton_self r))
      exact absurd hpr (hne r hr)

theorem grouped_cons_of_rel (hE : Equivalence E) {a b : α} {l : List α} (hab : E a b) :
    Grouped E (a :: b :: l) ↔ Grouped E (a :: l) := by
  constructor
  · intro h p q r hs
    exact h p q r (hs.trans ((List.sublist_cons_self b l).cons_cons a))
  · intro h p q r hs hpr
    rcases List.cons_sublist_cons'.mp hs with htail | ⟨rfl, htail⟩
    · rcases List.cons_sublist_cons'.mp htail with hqr | ⟨rfl, hqr⟩
      · exact h p q r (hqr.cons a) hpr
      · have haq : E a q := h a q r (hqr.cons_cons a) (hE.trans hab hpr)
        exact hE.trans (hE.symm hab) haq
    · rcases List.cons_sublist_cons'.mp htail with hqr | ⟨rfl, -⟩
      · exact h p q r (hqr.cons_cons p) hpr
      · exact hab

def Convex (E : α → α → Prop) (key : α → κ) (l : List α) : Prop :=
  l.Pairwise fun a b => E a b →
    ∀ x ∈ l, min (key a) (key b) ≤ key x → key x ≤ max (key a) (key b) → E a x

theorem convex_symm (hE : Equivalence E) {l : List α} {a b : α}
    (h : E a b → ∀ x ∈ l, min (key a) (key b) ≤ key x → key x ≤ max (key a) (key b) → E a x) :
    E b a → ∀ x ∈ l, min (key b) (key a) ≤ key x → key x ≤ max (key b) (key a) → E b x := by
  intro hba x hx hmin hmax
  rw [min_comm] at hmin
  rw [max_comm] at hmax
  exact hE.trans hba (h (hE.symm hba) x hx hmin hmax)

variable [DecidableRel E]

def unique (E : α → α → Prop) [DecidableRel E] (l : List α) : List α :=
  l.destutter fun a b => ¬ E a b

theorem exists_mem_destutter' (hE : Equivalence E) (l : List α) (a : α) :
    ∀ x ∈ a :: l, ∃ y ∈ l.destutter' (fun a b => ¬ E a b) a, E x y := by
  induction l generalizing a with
  | nil =>
    intro x hx
    exact ⟨x, by simpa using hx, hE.refl x⟩
  | cons b l ih =>
    intro x hx
    by_cases hab : E a b
    · rw [List.destutter'_cons_neg _ (not_not.mpr hab)]
      rcases List.mem_cons.mp hx with rfl | hx
      · exact ⟨x, List.mem_destutter' .., hE.refl x⟩
      rcases List.mem_cons.mp hx with rfl | hx
      · exact ⟨a, List.mem_destutter' .., hE.symm hab⟩
      · exact ih a x (List.mem_cons_of_mem _ hx)
    · rw [List.destutter'_cons_pos _ hab]
      rcases List.mem_cons.mp hx with rfl | hx
      · exact ⟨x, List.mem_cons_self .., hE.refl x⟩
      · obtain ⟨y, hy, hxy⟩ := ih b x hx
        exact ⟨y, List.mem_cons_of_mem _ hy, hxy⟩

theorem exists_mem_unique (hE : Equivalence E) {l : List α} {x : α} (hx : x ∈ l) :
    ∃ y ∈ unique E l, E x y := by
  cases l with
  | nil => simp at hx
  | cons a l => exact exists_mem_destutter' hE l a x hx

theorem pairwise_destutter'_iff (hE : Equivalence E) (l : List α) (a : α) :
    (l.destutter' (fun a b => ¬ E a b) a).Pairwise (fun a b => ¬ E a b) ↔ Grouped E (a :: l) := by
  induction l generalizing a with
  | nil =>
    simp only [List.destutter'_nil, List.pairwise_singleton, true_iff]
    intro p q r hs
    simpa using hs.length_le
  | cons b l ih =>
    by_cases hab : E a b
    · rw [List.destutter'_cons_neg _ (not_not.mpr hab), ih, grouped_cons_of_rel hE hab]
    · rw [List.destutter'_cons_pos _ hab, List.pairwise_cons, ih, grouped_cons_of_not hab]
      refine and_congr_left fun _ => ⟨fun h x hx hax => ?_, fun h x hx => ?_⟩
      · obtain ⟨y, hy, hxy⟩ := exists_mem_destutter' hE l b x hx
        exact h y hy (hE.trans hax hxy)
      · exact h x ((List.destutter'_sublist _ _ _).subset hx)

theorem pairwise_unique_iff (hE : Equivalence E) (l : List α) :
    (unique E l).Pairwise (fun a b => ¬ E a b) ↔ Grouped E l := by
  cases l with
  | nil => exact ⟨fun _ p q r hs => by simpa using hs.length_le, fun _ => .nil⟩
  | cons a l => exact pairwise_destutter'_iff hE l a

theorem exists_sort_sublist {l : List α} {a x b : α} (hab : [a, b].Subperm l) (hx : x ∈ l)
    (hax : key a ≤ key x) (hxb : key x ≤ key b) (hxa : x ≠ a) (hxb' : x ≠ b) :
    ∃ std : StdSort α key, [a, x, b].Sublist (std.sort l) := by
  classical
  have hrest : [a, b].Subperm (l.erase x) := by
    have herase := hab.erase x
    rwa [List.erase_of_not_mem (by simp [hxa, hxb'])] at herase
  have hthree : [a, x, b].Subperm l := by
    have hcons := ((List.subperm_cons x).mpr hrest).trans (List.perm_cons_erase hx).symm.subperm
    exact (List.Perm.swap x a [b]).subperm.trans hcons
  obtain ⟨l', hperm, hsub⟩ := List.subperm_iff.mp hthree
  obtain ⟨std, hstd⟩ := StdSort.exists_sort_eq (((StdSort.insertion key).perm l').trans hperm)
    ((StdSort.insertion key).sorted l')
  refine ⟨std, ?_⟩
  rw [hstd]
  exact List.sublist_insertionSort (by simp [hax, hxb, hax.trans hxb]) hsub

theorem forall_sort_pairwise_unique_iff (hE : Equivalence E) (l : List α) :
    (∀ std : StdSort α key, (unique E (std.sort l)).Pairwise fun a b => ¬ E a b) ↔
      Convex E key l := by
  constructor
  · intro h
    refine List.pairwise_iff_forall_sublist.mpr fun {a b} hs hab x hx hmin hmax => ?_
    by_contra hax
    have hxa : x ≠ a := fun e => hax (e ▸ hE.refl a)
    have hxb : x ≠ b := fun e => hax (e ▸ hab)
    have hgrouped := fun std => (pairwise_unique_iff hE _).mp (h std)
    rcases le_total (key a) (key b) with hle | hle
    · rw [min_eq_left hle] at hmin
      rw [max_eq_right hle] at hmax
      obtain ⟨std, hsub⟩ := exists_sort_sublist hs.subperm hx hmin hmax hxa hxb
      exact hax (hgrouped std a x b hsub hab)
    · rw [min_eq_right hle] at hmin
      rw [max_eq_left hle] at hmax
      have hba : [b, a].Subperm l := (List.Perm.swap a b []).subperm.trans hs.subperm
      obtain ⟨std, hsub⟩ := exists_sort_sublist hba hx hmin hmax hxb hxa
      have hbx : E b x := hgrouped std b x a hsub (hE.symm hab)
      exact hax (hE.trans hab hbx)
  · intro h std
    refine (pairwise_unique_iff hE _).mpr fun a b c hs hac => ?_
    have hsorted := (std.sorted l).sublist hs
    simp only [List.pairwise_cons, List.mem_cons, List.not_mem_nil, or_false, forall_eq_or_imp,
      forall_eq] at hsorted
    obtain ⟨⟨hab, -⟩, hbc, -⟩ := hsorted
    have hmem : b ∈ l := (std.perm l).subset (hs.subset (by simp))
    have hends : [a, c].Sublist (std.sort l) :=
      ((List.sublist_cons_self b [c]).cons_cons a).trans hs
    have hconvex := ((std.perm l).pairwise_iff fun {_ _} => convex_symm hE).mpr h
    exact List.pairwise_iff_forall_sublist.mp hconvex hends hac b hmem
      ((min_le_left ..).trans hab) (hbc.trans (le_max_right ..))

end WitcherMP.Neighbours
