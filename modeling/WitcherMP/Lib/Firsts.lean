import Mathlib.Data.List.Induction
import Mathlib.Data.List.Nodup

/-! The first entries of their kinds. -/

namespace WitcherMP
variable {α κ : Type*} [DecidableEq κ]

def firsts (key : α → κ) (as : List α) : List α :=
  (as.zipIdx.filter fun p => key p.1 ∉ (as.take p.2).map key).map Prod.fst

namespace Firsts
variable {key : α → κ}

theorem firsts_concat (key : α → κ) (as : List α) (a : α) :
    firsts key (as ++ [a]) = firsts key as ++ if key a ∈ as.map key then [] else [a] := by
  have hbefore : (as.zipIdx.filter fun p => key p.1 ∉ ((as ++ [a]).take p.2).map key) =
      as.zipIdx.filter fun p => key p.1 ∉ (as.take p.2).map key := by
    apply List.filter_congr
    intro p hp
    have hlt := List.snd_lt_of_mem_zipIdx hp
    rw [List.take_append_of_le_length (by omega)]
  rw [firsts, List.zipIdx_append, List.filter_append, List.map_append, hbefore, ← firsts]
  congr 1
  simp only [List.zipIdx_cons, List.zipIdx_nil, Nat.zero_add, List.filter_cons, List.filter_nil,
    List.take_left]
  by_cases h : key a ∈ as.map key <;> simp [h]

theorem mem_map_firsts {as : List α} {k : κ} : k ∈ (firsts key as).map key ↔ k ∈ as.map key := by
  induction as using List.reverseRecOn with
  | nil => rfl
  | append_singleton as a ih =>
    rw [firsts_concat, List.map_append, List.mem_append, ih, List.map_append, List.mem_append,
      List.map_singleton, List.mem_singleton]
    split
    · next hmem =>
      simp only [List.map_nil, List.not_mem_nil, or_false]
      exact ⟨Or.inl, fun h => h.elim id fun heq => heq ▸ hmem⟩
    · rw [List.map_singleton, List.mem_singleton]

theorem nodup_firsts (key : α → κ) (as : List α) : ((firsts key as).map key).Nodup := by
  induction as using List.reverseRecOn with
  | nil => exact List.nodup_nil
  | append_singleton as a ih =>
    rw [firsts_concat]
    split
    · rwa [List.append_nil]
    · next hnew =>
      rw [List.map_append, List.map_singleton]
      apply List.nodup_append.mpr
      refine ⟨ih, List.nodup_singleton _, ?_⟩
      intro k hk k' hk' heq
      rw [List.mem_singleton.mp hk'] at heq
      exact hnew (heq ▸ mem_map_firsts.mp hk)

theorem firsts_eq_self {as : List α} (h : (as.map key).Nodup) : firsts key as = as := by
  induction as using List.reverseRecOn with
  | nil => rfl
  | append_singleton as a ih =>
    rw [List.map_append, List.map_singleton] at h
    obtain ⟨hbefore, -, hnew⟩ := List.nodup_append.mp h
    have hnot : key a ∉ as.map key := fun hm => hnew _ hm _ (List.mem_singleton_self _) rfl
    rw [firsts_concat, if_neg hnot, ih hbefore]

theorem firsts_firsts (key : α → κ) (as : List α) :
    firsts key (firsts key as) = firsts key as :=
  firsts_eq_self (nodup_firsts key as)

end Firsts
end WitcherMP
