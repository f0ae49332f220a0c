import Mathlib.Topology.Piecewise
import Mathlib.Topology.Order.DenselyOrdered
import Mathlib.Tactic.FieldSimp
import Mathlib.Tactic.Ring

/-! Straight lines over an ordered field, and functions that jump from a constant to another
function. -/

namespace WitcherMP.Lines

theorem lines_meet_iff {K : Type*} [Field K] {T₀ T₁ T₂ t x₀ x₁ x₂ : K} (h₀ : T₂ - T₀ ≠ 0)
    (h₁ : T₂ - T₁ ≠ 0) :
    x₀ + (x₂ - x₀) * ((t - T₀) / (T₂ - T₀)) = x₁ + (x₂ - x₁) * ((t - T₁) / (T₂ - T₁)) ↔
      t = T₂ ∨ x₁ = x₀ + (x₂ - x₀) * ((T₁ - T₀) / (T₂ - T₀)) := by
  have hgap : x₀ + (x₂ - x₀) * ((t - T₀) / (T₂ - T₀)) -
      (x₁ + (x₂ - x₁) * ((t - T₁) / (T₂ - T₁))) =
      (x₀ + (x₂ - x₀) * ((T₁ - T₀) / (T₂ - T₀)) - x₁) * ((T₂ - t) / (T₂ - T₁)) := by
    field_simp
    ring
  rw [← sub_eq_zero, hgap, mul_eq_zero, div_eq_zero_iff, or_iff_left h₁, sub_eq_zero, sub_eq_zero]
  constructor
  · rintro (hline | hend)
    · exact Or.inr hline.symm
    · exact Or.inl hend.symm
  · rintro (hend | hline)
    · exact Or.inr hend.symm
    · exact Or.inl hline.symm

section Jumps
open Set Filter Topology
variable {T E : Type*} [LinearOrder T] [DenselyOrdered T] [TopologicalSpace T] [OrderTopology T]
  [TopologicalSpace E] [T2Space E]

theorem continuousOn_jump_iff {f g : T → E} {a m b : T} {c : E} (hg : Continuous g) (ha : a ≤ m)
    (hb : m < b) (hlow : ∀ t, a ≤ t → t ≤ m → f t = c) (hhigh : ∀ t, m < t → t ≤ b → f t = g t) :
    ContinuousOn f (Icc a b) ↔ g m = c := by
  constructor
  · intro hf
    have hnear : 𝓝[Ioo m b] m ≤ 𝓝[Icc a b] m :=
      nhdsWithin_mono m fun t ht => ⟨ha.trans ht.1.le, ht.2.le⟩
    have hlimit : Tendsto f (𝓝[Ioo m b] m) (𝓝 c) := by
      have hat := (hf m ⟨ha, hb.le⟩).mono_left hnear
      rwa [hlow m ha le_rfl] at hat
    have hother : Tendsto f (𝓝[Ioo m b] m) (𝓝 (g m)) := by
      refine (hg.continuousAt.mono_left nhdsWithin_le_nhds).congr' ?_
      filter_upwards [self_mem_nhdsWithin] with t ht
      exact (hhigh t ht.1 ht.2.le).symm
    have : (𝓝[Ioo m b] m).NeBot := by
      rw [nhdsWithin_Ioo_eq_nhdsGT hb]
      exact nhdsGT_neBot_of_exists_gt ⟨b, hb⟩
    exact tendsto_nhds_unique hother hlimit
  · intro hmeet
    have hpaste : Continuous fun t => if t ≤ m then c else g t :=
      continuous_const.if_le hg continuous_id continuous_const fun t ht => by
        rw [show t = m from ht, hmeet]
    refine hpaste.continuousOn.congr fun t ht => ?_
    by_cases htm : t ≤ m
    · exact (hlow t ht.1 htm).trans (if_pos htm).symm
    · exact (hhigh t (not_le.mp htm) ht.2).trans (if_neg htm).symm

end Jumps
end WitcherMP.Lines
