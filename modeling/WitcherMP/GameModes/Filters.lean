import WitcherMP.GameModes.Defs
import WitcherMP.Lib.Run
import Mathlib.Data.List.Induction

/-! Main quests in exploration mode. The quest manager refuses the quests of a list, and a switch
to story mode empties the list. -/

namespace WitcherMP.GameModes.GameModeManager
variable {Quest : Type}

/-- In exploration mode, the main quests that the quest manager was initialized with are disabled
and are not added; in story mode, they are enabled. -/
def Filters (getName : Quest → String) (s : GameModeManager Quest) : Prop :=
  (s.currentMode = .exploration → ∀ questId ∈ ({} : QuestManager Quest).disabledQuests,
    ¬ s.questManager.isQuestEnabled questId ∧ ∀ quest, getName quest = questId →
      (s.questManager.addQuest getName quest).activeQuests = s.questManager.activeQuests) ∧
  (s.currentMode = .story → ∀ questId ∈ ({} : QuestManager Quest).disabledQuests,
    s.questManager.isQuestEnabled questId)

def modeCalls (gameMode : Option String) (modes : List GameMode) : List GameMode :=
  (gameMode.map configuredMode).toList ++ modes

theorem run_initializeManager (gameMode : Option String) (modes : List GameMode) :
    Run.run setGameMode (initializeManager gameMode) modes
      = Run.run setGameMode ({} : GameModeManager Quest) (modeCalls gameMode modes) := by
  cases gameMode <;> rfl

theorem setGameMode_story (s : GameModeManager Quest) :
    (s.setGameMode .story).currentMode = .story ∧ (s.setGameMode .story).questManager
      = { s.questManager with
          mainQuestsEnabled := true, disabledQuests := [], questSyncEnabled := true } :=
  ⟨rfl, rfl⟩

theorem setGameMode_exploration (s : GameModeManager Quest) :
    (s.setGameMode .exploration).currentMode = .exploration ∧
      (s.setGameMode .exploration).questManager
        = { s.questManager with mainQuestsEnabled := false } := ⟨rfl, rfl⟩

theorem run_setGameMode (calls : List GameMode) :
    let s := Run.run setGameMode ({} : GameModeManager Quest) calls
    (s.currentMode = .exploration ↔ calls.getLast? = some .exploration) ∧
      (s.questManager.mainQuestsEnabled = false ↔ calls.getLast? = some .exploration) ∧
      s.questManager.disabledQuests
        = if .story ∈ calls then [] else ({} : QuestManager Quest).disabledQuests := by
  induction calls using List.reverseRecOn with
  | nil => exact ⟨by simp [Run.run], by simp [Run.run], by simp [Run.run]⟩
  | append_singleton calls mode ih =>
    obtain ⟨-, -, hlist⟩ := ih
    rw [Run.run_append, Run.run, Run.run]
    cases mode with
    | story =>
      obtain ⟨hmode, hmanager⟩ :=
        setGameMode_story (Run.run setGameMode ({} : GameModeManager Quest) calls)
      simp [hmode, hmanager]
    | exploration =>
      obtain ⟨hmode, hmanager⟩ :=
        setGameMode_exploration (Run.run setGameMode ({} : GameModeManager Quest) calls)
      simp [hmode, hmanager, hlist]

/-- Main quests are kept out as they should be exactly if the story mode was never set before the
exploration mode. -/
theorem filters_iff (getName : Quest → String) (gameMode : Option String) (modes : List GameMode) :
    Filters getName (Run.run setGameMode (initializeManager gameMode) modes) ↔
      ((modeCalls gameMode modes).getLast? = some .exploration →
        .story ∉ modeCalls gameMode modes) := by
  rw [run_initializeManager]
  set s := Run.run setGameMode ({} : GameModeManager Quest) (modeCalls gameMode modes)
  obtain ⟨hmode, hoff, hlist⟩ : _ ∧ _ ∧ s.questManager.disabledQuests = _ :=
    run_setGameMode (modeCalls gameMode modes)
  by_cases hlast : (modeCalls gameMode modes).getLast? = some .exploration
  · have hexploration : s.currentMode = .exploration := hmode.mpr hlast
    have hdisabled : s.questManager.mainQuestsEnabled = false := hoff.mpr hlast
    have henabled (questId : String) : s.questManager.isQuestEnabled questId
        = !s.questManager.disabledQuests.contains questId := by
      simp [QuestManager.isQuestEnabled, hdisabled]
    constructor
    · rintro ⟨hfilter, -⟩ - hstory
      have hfirst := (hfilter hexploration "q001_white_orchard" (List.mem_cons_self ..)).1
      rw [henabled, hlist, if_pos hstory] at hfirst
      exact hfirst rfl
    · intro hstory
      rw [if_neg (hstory hlast)] at hlist
      refine ⟨fun _ questId hmem => ?_, fun hmode' => nomatch hexploration.symm.trans hmode'⟩
      have hrefused : s.questManager.isQuestEnabled questId = false := by
        rw [henabled, hlist, List.contains_iff_mem.mpr hmem, Bool.not_true]
      refine ⟨by rw [hrefused]; exact Bool.false_ne_true, fun quest hname => ?_⟩
      rw [QuestManager.addQuest, hname, hrefused]
      rfl
  · have hstory : s.currentMode ≠ .exploration := fun h => hlast (hmode.mp h)
    have hon : s.questManager.mainQuestsEnabled := by
      simpa using fun h => hlast (hoff.mp h)
    refine iff_of_true ⟨fun h => absurd h hstory, fun _ questId _ => ?_⟩ fun h => absurd h hlast
    rw [QuestManager.isQuestEnabled, if_neg (not_not.mpr hon)]

theorem not_filters_after_story :
    ¬ ∀ (gameMode : Option String) (modes : List GameMode),
      Filters (id : String → String) (Run.run setGameMode (initializeManager gameMode) modes) := by
  intro h
  have hdisabled := ((h (some "story") [.exploration]).1 rfl "q001_white_orchard" (by decide)).1
  revert hdisabled
  decide +kernel

end WitcherMP.GameModes.GameModeManager
