import WitcherMP.Lib.OrdMap
import WitcherMP.Lib.Word32

/-! The number of entries of a map that have a property, and a 32-bit counter that goes along
with it: when it stays right is a question about the one entry that is written. -/

namespace WitcherMP.Tallies
variable {κ α : Type*} [LinearOrder κ] (P : α → Bool)

def tally (m : OrdMap κ α) : ℕ := m.sumOver fun _ v => if P v then 1 else 0

def Filed (m : OrdMap κ α) (k : κ) : Prop := ∃ v, m.find? k = some v ∧ P v

instance (m : OrdMap κ α) (k : κ) : Decidable (Filed P m k) :=
  decidable_of_iff ((m.find? k).any P) <| by
    rw [Option.any_eq_true]
    rfl

variable {P} {m : OrdMap κ α} {k : κ} {v w : α}

theorem tally_insert (P : α → Bool) (m : OrdMap κ α) (k : κ) (v : α) :
    tally P (m.insert k v) + (if Filed P m k then 1 else 0) = tally P m + if P v then 1 else 0 := by
  have hinsert := OrdMap.sumOver_insert (fun _ v => if P v then 1 else 0) m k v
  have hfiled : (m.find? k).elim 0 (fun v => if P v then 1 else 0)
      = if Filed P m k then 1 else 0 := by
    cases h : m.find? k with
    | none => simp [Filed, h]
    | some w => simp [Filed, h]
  rwa [hfiled] at hinsert

theorem tally_replace (h : m.find? k = some w) (hvw : P v = P w) :
    tally P (m.insert k v) = tally P m := by
  have hinsert := OrdMap.sumOver_replace (fun _ v => if P v then 1 else 0) h v
  rw [hvw] at hinsert
  exact Nat.add_right_cancel hinsert

theorem tally_le_size (P : α → Bool) (m : OrdMap κ α) : tally P m ≤ m.size := by
  rw [OrdMap.size_eq_sumOver]
  refine List.sum_le_sum fun e _ => ?_
  dsimp only
  split_ifs <;> omega

section Counter
variable {count : UInt32}

theorem filed_of_find? (h : m.find? k = some w) : Filed P m k ↔ P w := by simp [Filed, h]

theorem counted_up_iff (h : count.toNat = tally P m) (hv : P v) :
    (count + 1).toNat = tally P (m.insert k v) ↔ ¬ Filed P m k ∧ tally P m + 1 < 2 ^ 32 := by
  have hinsert := tally_insert P m k v
  have hlt := count.toNat_lt
  rw [if_pos hv] at hinsert
  rw [UInt32.toNat_add, UInt32.toNat_one]
  by_cases hk : Filed P m k
  · rw [if_pos hk] at hinsert
    exact iff_of_false (by omega) fun hnot => hnot.1 hk
  · rw [if_neg hk] at hinsert
    simp only [hk, not_false_iff, true_and]
    omega

theorem counted_down_iff (h : count.toNat = tally P m) (hv : ¬ P v) :
    (count - 1).toNat = tally P (m.insert k v) ↔ Filed P m k := by
  have hinsert := tally_insert P m k v
  rw [if_neg hv] at hinsert
  by_cases hk : Filed P m k
  · rw [if_pos hk] at hinsert
    have hpred := Word32.toNat_pred (a := count) (by omega)
    exact iff_of_true (by omega) hk
  · rw [if_neg hk] at hinsert
    refine iff_of_false (fun heq => ?_) hk
    have hsame : count - 1 = count := UInt32.toNat_inj.mp (by omega)
    have hzero : (1 : UInt32) = 0 := by grind
    exact absurd hzero (by decide)

theorem counted_kept {m' : OrdMap κ α} {count' : UInt32} (h : count.toNat = tally P m)
    (hw : m.find? k = some w) (hm' : m' = m.insert k v) (hcount : count' = count) (hvw : P v = P w) :
    count'.toNat = tally P m' := by
  rw [hm', hcount, tally_replace hw hvw]
  exact h

theorem counted_ended_iff {m' : OrdMap κ α} {count' : UInt32} (h : count.toNat = tally P m)
    (hw : m.find? k = some w) (hm' : m' = m.insert k v) (hcount : count' = count - 1) (hv : ¬ P v) :
    count'.toNat = tally P m' ↔ P w := by
  rw [hm', hcount]
  exact (counted_down_iff h hv).trans (filed_of_find? hw)

theorem counted_over_iff (h : count.toNat = tally P m) (hv : ¬ P v) :
    count.toNat = tally P (m.insert k v) ↔ ¬ Filed P m k := by
  have hinsert := tally_insert P m k v
  rw [if_neg hv] at hinsert
  split_ifs at hinsert with hk
  · exact iff_of_false (by omega) (not_not.mpr hk)
  · exact iff_of_true (by omega) hk

end Counter
end WitcherMP.Tallies
