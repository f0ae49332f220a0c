import WitcherMP.GameModes.Defs
import WitcherMP.Lib.Run

/-! The quest system quest by quest. The quests have their own ids, so that a call does to each
quest what it does to it alone. -/

namespace WitcherMP.GameModes
open FirstMatch

def QuestData.act (quest : QuestData) : QuestSystem.Op → QuestData
  | .startQuest id => if quest.questId = id then quest.startQuest else quest
  | .completeQuest id _ =>
    if quest.questId = id ∧ quest.status = .inProgress then quest.completeQuest else quest
  | .updateGameMode .story => quest.setEnabled true
  | .updateGameMode .exploration => quest.setEnabled (quest.questType ≠ .mainQuest)

namespace QuestData
variable (quest : QuestData)

def kept : String × QuestType × ℤ := (quest.questId, quest.questType, quest.xpReward)

@[simp] theorem kept_setEnabled (enabled : Bool) : (quest.setEnabled enabled).kept = quest.kept := by
  unfold setEnabled
  split_ifs <;> rfl

@[simp] theorem kept_startQuest : quest.startQuest.kept = quest.kept := by
  unfold startQuest
  split_ifs <;> rfl

@[simp] theorem kept_act (op : QuestSystem.Op) : (quest.act op).kept = quest.kept := by
  cases op with
  | startQuest id =>
    rw [act]
    split_ifs
    · exact kept_startQuest quest
    · rfl
  | completeQuest id hasPlayer =>
    rw [act]
    split_ifs <;> rfl
  | updateGameMode mode => cases mode <;> exact kept_setEnabled ..

theorem questId_act (op : QuestSystem.Op) : (quest.act op).questId = quest.questId :=
  congrArg Prod.fst (quest.kept_act op)

theorem kept_run (ops : List QuestSystem.Op) : (Run.run act quest ops).kept = quest.kept :=
  Run.invariant_run (I := fun q : QuestData => q.kept = quest.kept)
    (fun q op h => (q.kept_act op).trans h) rfl ops

theorem questType_run (ops : List QuestSystem.Op) :
    (Run.run act quest ops).questType = quest.questType :=
  congrArg (fun kept => kept.2.1) (quest.kept_run ops)

end QuestData

namespace QuestSystem
variable {s : QuestSystem}

def Unique (s : QuestSystem) : Prop := (s.quests.map (·.questId)).Nodup

theorem quests_startQuest (s : QuestSystem) (id : String) :
    (s.startQuest id).1.quests
      = modifyFirst (fun quest => quest.questId = id) QuestData.startQuest s.quests := by
  rw [startQuest]
  cases hget : s.getQuest id with
  | none => exact (modifyFirst_of_find?_eq_none hget).symm
  | some quest =>
    dsimp only
    split_ifs with henabled
    · rfl
    · refine (modifyFirst_eq_self fun found hfound => ?_).symm
      obtain rfl := Option.some.inj (hget.symm.trans hfound)
      exact if_neg henabled

theorem quests_completeQuest (s : QuestSystem) (id : String) (hasPlayer : Bool) :
    (s.completeQuest id hasPlayer).1.quests = modifyFirst (fun quest => quest.questId = id)
      (fun quest => if quest.status = .inProgress then quest.completeQuest else quest) s.quests := by
  rw [completeQuest]
  cases hget : s.getQuest id with
  | none => exact (modifyFirst_of_find?_eq_none hget).symm
  | some quest =>
    dsimp only
    split_ifs with hstatus
    · refine (modifyFirst_eq_self fun found hfound => ?_).symm
      obtain rfl := Option.some.inj (hget.symm.trans hfound)
      exact if_neg hstatus
    · refine modifyFirst_congr fun found hfound => ?_
      obtain rfl := Option.some.inj (hget.symm.trans hfound)
      exact (if_pos (not_not.mp hstatus)).symm

theorem quests_updateGameMode (s : QuestSystem) (mode : GameMode) :
    (s.updateGameMode mode).quests = s.quests.map (QuestData.act · (.updateGameMode mode)) := by
  cases mode with
  | story => rfl
  | exploration =>
    refine List.map_congr_left fun quest _ => ?_
    rw [QuestData.act]
    split_ifs with hmain <;> simp [hmain]

theorem Unique.quests_step (h : Unique s) (op : Op) :
    (s.step op).quests = s.quests.map (QuestData.act · op) := by
  cases op with
  | startQuest id => exact (quests_startQuest s id).trans (modifyFirst_eq_map h id _)
  | completeQuest id hasPlayer =>
    refine (quests_completeQuest s id hasPlayer).trans ((modifyFirst_eq_map h id _).trans ?_)
    refine List.map_congr_left fun quest _ => ?_
    rw [QuestData.act, ite_and]
  | updateGameMode mode => exact quests_updateGameMode s mode

theorem Unique.step (h : Unique s) (op : Op) : Unique (s.step op) := by
  have hids : (s.quests.map (QuestData.act · op)).map (·.questId) = s.quests.map (·.questId) := by
    rw [List.map_map]
    exact List.map_congr_left fun quest _ => quest.questId_act op
  rw [Unique, h.quests_step, hids]
  exact h

theorem quests_run (h : Unique s) (ops : List Op) :
    (Run.run step s ops).quests = s.quests.map (Run.run QuestData.act · ops) :=
  Run.run_map quests (fun _ op hs => ⟨hs.step op, hs.quests_step op⟩) h ops

theorem unique_initializeSystem (currentMode : Option GameMode) :
    Unique (initializeSystem currentMode) := by
  have hids : (initializeSystem currentMode).quests.map (·.questId)
      = createQuestData.map (·.questId) := by
    cases currentMode with
    | none => rfl
    | some mode =>
      cases mode <;> rfl
  rw [Unique, hids]
  decide +kernel

theorem unique_run (currentMode : Option GameMode) (ops : List Op) :
    Unique (Run.run step (initializeSystem currentMode) ops) :=
  Run.invariant_run (fun _ op h => h.step op) (unique_initializeSystem currentMode) ops

end QuestSystem
end WitcherMP.GameModes
