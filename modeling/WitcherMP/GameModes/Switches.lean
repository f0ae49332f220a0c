import WitcherMP.GameModes.Quests

/-! Switching to exploration mode and back. The way there writes the status of a main quest, and
the way back does not. -/

namespace WitcherMP.GameModes

def QuestData.progress (quest : QuestData) : String × QuestStatus × ℤ :=
  (quest.questId, quest.status, quest.currentObjective)

namespace QuestSystem

def mainQuests (s : QuestSystem) : List QuestData :=
  s.quests.filter fun quest => quest.questType = .mainQuest

def otherQuests (s : QuestSystem) : List QuestData :=
  s.quests.filter fun quest => quest.questType ≠ .mainQuest

end QuestSystem

namespace QuestData
open QuestSystem
variable {quest : QuestData} {between : List Op}

/-- Of a main quest, nothing but how far it has come is asked in exploration mode. -/
structure Shut (quest : QuestData) : Prop where
  main : quest.questType = .mainQuest
  disabled : quest.status = .disabled
  off : quest.isEnabled = false

theorem Shut.act (h : quest.Shut) {op : Op} (hop : op ≠ .updateGameMode .story) :
    (quest.act op).Shut ∧ (quest.act op).progress = quest.progress := by
  obtain ⟨hmain, hdisabled, hoff⟩ := h
  cases op with
  | startQuest id =>
    have hsame : quest.act (.startQuest id) = quest := by simp [QuestData.act, startQuest, hoff]
    rw [hsame]
    exact ⟨⟨hmain, hdisabled, hoff⟩, rfl⟩
  | completeQuest id hasPlayer =>
    have hsame : quest.act (.completeQuest id hasPlayer) = quest := by
      simp [QuestData.act, hdisabled]
    rw [hsame]
    exact ⟨⟨hmain, hdisabled, hoff⟩, rfl⟩
  | updateGameMode mode =>
    cases mode with
    | story => exact absurd rfl hop
    | exploration =>
      have hact : quest.act (.updateGameMode .exploration)
          = { quest with isEnabled := false, status := .disabled } := by
        simp [QuestData.act, setEnabled, hmain]
      rw [hact]
      exact ⟨⟨hmain, rfl, rfl⟩, by rw [progress, progress, hdisabled]⟩

theorem Shut.run (h : quest.Shut) (hbetween : .updateGameMode .story ∉ between) :
    (Run.run QuestData.act quest between).Shut ∧
      (Run.run QuestData.act quest between).progress = quest.progress := by
  induction between generalizing quest with
  | nil => exact ⟨h, rfl⟩
  | cons op between ih =>
    obtain ⟨hop, hbetween⟩ := not_or.mp fun h => hbetween (List.mem_cons.mpr h)
    obtain ⟨hshut, hprogress⟩ := h.act (Ne.symm hop)
    obtain ⟨hshut', hprogress'⟩ := ih hshut hbetween
    exact ⟨hshut', hprogress'.trans hprogress⟩

theorem progress_main_back (hmain : quest.questType = .mainQuest)
    (hbetween : .updateGameMode .story ∉ between) :
    (Run.run QuestData.act quest
      (.updateGameMode .exploration :: between ++ [.updateGameMode .story])).progress
      = (quest.questId, .disabled, quest.currentObjective) := by
  have hshut : (quest.act (.updateGameMode .exploration)).Shut := by
    constructor <;> simp [QuestData.act, setEnabled, hmain]
  obtain ⟨-, hprogress⟩ := hshut.run hbetween
  have hthere : (quest.act (.updateGameMode .exploration)).progress
      = (quest.questId, .disabled, quest.currentObjective) := by
    simp [QuestData.act, setEnabled, hmain, progress]
  rw [List.cons_append, Run.run, Run.run_append]
  exact hprogress.trans hthere

def Free (quest : QuestData) : Prop := quest.questType ≠ .mainQuest ∧ quest.isEnabled

theorem Free.act_switch (h : quest.Free) (mode : GameMode) :
    quest.act (.updateGameMode mode) = quest := by
  obtain ⟨hother, henabled⟩ := h
  cases mode with
  | story => simp [QuestData.act, setEnabled, ← henabled]
  | exploration => simp [QuestData.act, setEnabled, hother, ← henabled]

theorem Free.act (h : quest.Free) (op : Op) : (quest.act op).Free := by
  cases op with
  | startQuest id =>
    simp only [QuestData.act, startQuest]
    split_ifs <;> exact h
  | completeQuest id hasPlayer =>
    rw [QuestData.act]
    split_ifs <;> exact h
  | updateGameMode mode =>
    rw [h.act_switch]
    exact h

theorem Free.run (h : quest.Free) (ops : List Op) : (Run.run QuestData.act quest ops).Free :=
  Run.invariant_run (I := Free) (fun _ op hq => hq.act op) h ops

theorem Free.run_back (h : quest.Free) (between : List Op) :
    Run.run QuestData.act quest (.updateGameMode .exploration :: between ++ [.updateGameMode .story])
      = Run.run QuestData.act quest between := by
  rw [List.cons_append, Run.run, h.act_switch, Run.run_append]
  exact (h.run between).act_switch .story

end QuestData

namespace QuestSystem
variable {s : QuestSystem}

theorem filter_run (h : Unique s) (p : QuestType → Bool) (ops : List Op) :
    (Run.run step s ops).quests.filter (fun quest => p quest.questType)
      = (s.quests.filter fun quest => p quest.questType).map (Run.run QuestData.act · ops) := by
  rw [quests_run h, List.filter_map]
  refine congrArg (List.map _) (List.filter_congr fun quest _ => ?_)
  rw [Function.comp_apply, QuestData.questType_run]

theorem mainQuests_run (h : Unique s) (ops : List Op) :
    (Run.run step s ops).mainQuests = s.mainQuests.map (Run.run QuestData.act · ops) :=
  filter_run h (· = .mainQuest) ops

theorem otherQuests_run (h : Unique s) (ops : List Op) :
    (Run.run step s ops).otherQuests = s.otherQuests.map (Run.run QuestData.act · ops) :=
  filter_run h (· ≠ .mainQuest) ops

theorem free_initializeSystem (currentMode : Option GameMode) :
    ∀ quest ∈ (initializeSystem currentMode).otherQuests, quest.isEnabled := by
  cases currentMode with
  | none => decide +kernel
  | some mode => cases mode <;> decide +kernel

theorem free_run (currentMode : Option GameMode) (ops : List Op) :
    ∀ quest ∈ (Run.run step (initializeSystem currentMode) ops).otherQuests, quest.Free := by
  intro quest hquest
  rw [otherQuests_run (unique_initializeSystem currentMode)] at hquest
  obtain ⟨first, hfirst, rfl⟩ := List.mem_map.mp hquest
  have hother : first.questType ≠ .mainQuest := by simpa using (List.mem_filter.mp hfirst).2
  exact QuestData.Free.run ⟨hother, free_initializeSystem currentMode first hfirst⟩ ops

/-- After any run, a switch to exploration mode and back leaves how far every quest has come as it
is, up to what is done to other quests in between, exactly if every main quest is disabled. -/
theorem switched_back_iff (currentMode : Option GameMode) (ops between : List Op)
    (hbetween : .updateGameMode .story ∉ between) :
    let s := Run.run step (initializeSystem currentMode) ops
    let s' := Run.run step s (.updateGameMode .exploration :: between ++ [.updateGameMode .story])
    (s'.mainQuests.map (·.progress) = s.mainQuests.map (·.progress) ∧
      s'.otherQuests.map (·.progress) = (Run.run step s between).otherQuests.map (·.progress) ∧
      ∀ quest ∈ s.getAvailableQuests, quest.questType = .mainQuest →
        quest.questId ∈ s'.getAvailableQuests.map (·.questId)) ↔
    ∀ quest ∈ s.mainQuests, quest.status = .disabled := by
  intro s s'
  have hunique : Unique s := unique_run currentMode ops
  have hmain : s'.mainQuests.map (·.progress)
      = s.mainQuests.map fun quest => (quest.questId, .disabled, quest.currentObjective) := by
    rw [mainQuests_run hunique, List.map_map]
    refine List.map_congr_left fun quest hquest => ?_
    exact QuestData.progress_main_back (by simpa using (List.mem_filter.mp hquest).2) hbetween
  have hother : s'.otherQuests = (Run.run step s between).otherQuests := by
    rw [otherQuests_run hunique, otherQuests_run hunique]
    exact List.map_congr_left fun quest hquest => (free_run currentMode ops quest hquest).run_back _
  rw [hmain, List.map_inj_left]
  constructor
  · rintro ⟨hsame, -⟩ quest hquest
    have hprogress := hsame quest hquest
    rw [QuestData.progress, Prod.mk.injEq, Prod.mk.injEq] at hprogress
    exact hprogress.2.1.symm
  · intro hdisabled
    refine ⟨fun quest hquest => ?_, congrArg _ hother, fun quest hquest hquestType => ?_⟩
    · rw [QuestData.progress, hdisabled quest hquest]
    · obtain ⟨hmem, havailable⟩ := List.mem_filter.mp hquest
      have hstatus := hdisabled quest (List.mem_filter.mpr ⟨hmem, decide_eq_true hquestType⟩)
      simp [hstatus] at havailable

theorem switched_back_explored :
    let s := initializeSystem (some .exploration)
    let s' := Run.run step s [.updateGameMode .exploration, .updateGameMode .story]
    s'.mainQuests.map (·.progress) = s.mainQuests.map (·.progress) :=
  ((switched_back_iff (some .exploration) [] [] List.not_mem_nil).mpr (by decide +kernel)).1

theorem not_switched_back_available :
    ¬ ∀ (currentMode : Option GameMode) (ops between : List Op), .updateGameMode .story ∉ between →
      let s := Run.run step (initializeSystem currentMode) ops
      let s' := Run.run step s (.updateGameMode .exploration :: between ++ [.updateGameMode .story])
      s'.mainQuests.map (·.progress) = s.mainQuests.map (·.progress) ∧
        s'.otherQuests.map (·.progress) = (Run.run step s between).otherQuests.map (·.progress) ∧
        ∀ quest ∈ s.getAvailableQuests, quest.questType = .mainQuest →
          quest.questId ∈ s'.getAvailableQuests.map (·.questId) := by
  intro h
  have hsame := (h (some .story) [] [] List.not_mem_nil).1
  revert hsame
  decide +kernel

end QuestSystem
end WitcherMP.GameModes
