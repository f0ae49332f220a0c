import WitcherMP.Quests.Defs

/-! One call of `updateObjective`: which objective it counts for, and when it counts exactly. The
sum of the count and the progress is formed in 32 bits before it is held against what is required. -/

namespace WitcherMP.Quests

namespace QuestObjective
variable (progress : UInt32) (o o' : QuestObjective)

structure Counts : Prop where
  exact : o'.currentCount.toNat =
    min o.requiredCount.toNat (o.currentCount.toNat + progress.toNat)
  grows : o.currentCount ≤ o'.currentCount
  capped : o'.currentCount ≤ o.requiredCount
  stays : o.isCompleted → o'.isCompleted

/-- The sum fits into 32 bits, or still reaches what is required once it has wrapped. -/
def SumFits : Prop :=
  o.currentCount.toNat + progress.toNat < 2 ^ 32 ∨
    o.requiredCount.toNat + 2 ^ 32 ≤ o.currentCount.toNat + progress.toNat

/-- The count is not beyond what is required, an objective that is marked as completed gets there,
and the sum does no harm. -/
structure Countable : Prop where
  within : o.currentCount ≤ o.requiredCount
  marked : o.isCompleted → o.requiredCount.toNat ≤ o.currentCount.toNat + progress.toNat
  sum : o.SumFits progress

theorem toNat_advance : (o.advance progress).currentCount.toNat =
    min ((o.currentCount.toNat + progress.toNat) % 2 ^ 32) o.requiredCount.toNat := by
  show (min (o.currentCount + progress) o.requiredCount).toNat = _
  rw [← UInt32.toNat_add, min_def, min_def]
  simp only [UInt32.le_iff_toNat_le]
  split <;> rfl

theorem isCompleted_advance : (o.advance progress).isCompleted ↔
    o.requiredCount.toNat ≤ (o.advance progress).currentCount.toNat := by
  rw [← UInt32.le_iff_toNat_le]
  exact decide_eq_true_iff

theorem exact_advance_iff : (o.advance progress).currentCount.toNat =
    min o.requiredCount.toNat (o.currentCount.toNat + progress.toNat) ↔ o.SumFits progress := by
  have hcount := o.currentCount.toNat_lt
  have hprogress := progress.toNat_lt
  have hrequired := o.requiredCount.toNat_lt
  rw [toNat_advance, SumFits]
  omega

theorem counts_advance_iff : o.Counts progress (o.advance progress) ↔ o.Countable progress := by
  constructor
  · intro h
    have hwithin : o.currentCount ≤ o.requiredCount := h.grows.trans h.capped
    refine ⟨hwithin, fun hmarked => ?_, (exact_advance_iff progress o).mp h.exact⟩
    have hreached := (isCompleted_advance progress o).mp (h.stays hmarked)
    rw [h.exact] at hreached
    exact hreached.trans (min_le_right _ _)
  · intro h
    have hexact := (exact_advance_iff progress o).mpr h.sum
    have hwithin := UInt32.le_iff_toNat_le.mp h.within
    refine ⟨hexact, ?_, ?_, fun hmarked => ?_⟩
    · rw [UInt32.le_iff_toNat_le, hexact]
      exact le_min hwithin (Nat.le_add_right _ _)
    · rw [UInt32.le_iff_toNat_le, hexact]
      exact min_le_left _ _
    · rw [isCompleted_advance, hexact]
      exact le_min le_rfl (h.marked hmarked)

end QuestObjective

theorem advanceFirst_split (progress : UInt32) {objectiveId : UInt32} {o : QuestObjective}
    (hid : o.objectiveId = objectiveId) {front : List QuestObjective}
    (hfirst : ∀ a ∈ front, a.objectiveId ≠ objectiveId) (behind : List QuestObjective) :
    advanceFirst objectiveId progress (front ++ o :: behind) =
      some (front ++ o.advance progress :: behind) := by
  induction front with
  | nil => rw [List.nil_append, advanceFirst, if_pos hid, List.nil_append]
  | cons a front ih =>
    obtain ⟨ha, hfront⟩ := List.forall_mem_cons.mp hfirst
    rw [List.cons_append, advanceFirst, if_neg ha, ih hfront, Option.map_some, List.cons_append]

namespace CooperativeQuestSystem

/-- In a quest in progress, the first objective with the id is counted for and the others are left
alone; it is counted for exactly just if it is countable. -/
theorem updateObjective_counts_iff {s : CooperativeQuestSystem} {questId objectiveId : UInt32}
    {quest : QuestData} (hquest : s.getQuest questId = some quest)
    (hstate : quest.state = .inProgress) {front behind : List QuestObjective} {o : QuestObjective}
    (hobjectives : quest.objectives = front ++ o :: behind) (hid : o.objectiveId = objectiveId)
    (hfirst : ∀ a ∈ front, a.objectiveId ≠ objectiveId) (progress : UInt32) :
    ∃ o', s.updateObjective questId objectiveId progress =
        (s.setQuest questId { quest with objectives := front ++ o' :: behind }, true) ∧
      (o.Counts progress o' ↔ o.Countable progress) := by
  refine ⟨o.advance progress, ?_, QuestObjective.counts_advance_iff progress o⟩
  rw [updateObjective, hquest]
  dsimp only
  rw [if_neg (not_not.mpr hstate), hobjectives, advanceFirst_split progress hid hfirst behind]

theorem updateObjective_counts_iff_three :
    let front : List QuestObjective := [{ objectiveId := 4 }]
    let o : QuestObjective := { objectiveId := 7, requiredCount := 3 }
    let quest : QuestData := { state := .inProgress, objectives := front ++ o :: [] }
    let s : CooperativeQuestSystem := { quests := .ofList [(1, quest)] }
    ∃ o', s.updateObjective 1 7 2 =
        (s.setQuest 1 { quest with objectives := front ++ o' :: [] }, true) ∧
      (o.Counts 2 o' ↔ o.Countable 2) := by
  intro front o quest s
  have hquest : s.getQuest 1 = some quest := rfl
  have hobjectives : quest.objectives = front ++ o :: [] := rfl
  have hfirst : ∀ a ∈ front, a.objectiveId ≠ 7 := by simp [front]
  exact updateObjective_counts_iff hquest rfl hobjectives rfl hfirst 2

theorem not_counts_completed :
    ¬ ∀ (s : CooperativeQuestSystem) (questId objectiveId progress : UInt32) (quest : QuestData)
      (o : QuestObjective), s.getQuest questId = some quest → quest.state = .inProgress →
        quest.objectives = [o] → o.objectiveId = objectiveId →
          ∀ quest' o',
            (s.updateObjective questId objectiveId progress).1.getQuest questId = some quest' →
              quest'.objectives = [o'] → o.Counts progress o' := by
  intro h
  have hcounts := h
    { quests := .ofList [(1, { state := .inProgress, objectives := [
      { objectiveId := 7, requiredCount := 3, currentCount := 3, isCompleted := true }] })] }
    1 7 0xFFFFFFFF _ _ rfl rfl rfl rfl _ _ rfl rfl
  exact absurd hcounts.grows (by decide)

end CooperativeQuestSystem
end WitcherMP.Quests
