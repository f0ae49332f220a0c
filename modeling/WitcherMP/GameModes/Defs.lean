import WitcherMP.Lib.FirstMatch
import Mathlib.Data.Int.Notation

/-! Quests and game modes of the scripts: the quest system, which starts, completes, enables and
disables quests, and the game mode manager with the quest manager it switches. Names, which the
scripts write `n"..."`, are strings. Objectives and log lines are left out. -/

namespace WitcherMP.GameModes
open FirstMatch

inductive GameMode
  | story | exploration
deriving DecidableEq

inductive QuestType
  | mainQuest | sideQuest | witcherContract | treasureHunt | dynamicEvent
deriving DecidableEq

inductive QuestStatus
  | notStarted | inProgress | completed | failed | disabled
deriving DecidableEq

structure QuestData where
  questId : String
  questName : String
  questDescription : String
  questType : QuestType
  status : QuestStatus := .notStarted
  isEnabled : Bool := true
  isSynchronized : Bool := false
  xpReward : ℤ := 0
  goldReward : ℤ := 0
  itemRewards : List String := []
  currentObjective : ℤ := 0
deriving DecidableEq

namespace QuestData

/-- Disabling writes over the status, and enabling does not bring it back. -/
def setEnabled (quest : QuestData) (enabled : Bool) : QuestData :=
  let quest := { quest with isEnabled := enabled }
  if ¬ enabled then { quest with status := .disabled } else quest

def setSynchronized (quest : QuestData) (synchronized : Bool) : QuestData :=
  { quest with isSynchronized := synchronized }

def setRewards (quest : QuestData) (xp gold : ℤ) (items : List String) : QuestData :=
  { quest with xpReward := xp, goldReward := gold, itemRewards := items }

def startQuest (quest : QuestData) : QuestData :=
  if quest.isEnabled then { quest with status := .inProgress, currentObjective := 0 } else quest

def completeQuest (quest : QuestData) : QuestData := { quest with status := .completed }

end QuestData

inductive Reward
  | experience (amount : ℤ)
  | gold (amount : ℤ)
  | item (itemId : String)
deriving DecidableEq

structure QuestSystem where
  quests : List QuestData := []
deriving DecidableEq

namespace QuestSystem

def mainQuestIds : List String :=
  ["q001_white_orchard", "q002_kaer_morhen", "q003_velen", "q004_novigrad", "q005_skellige",
    "q006_blood_and_wine", "q007_hearts_of_stone", "q008_blood_and_wine"]

def sideQuestIds : List String :=
  ["sq001_contract_griffin", "sq002_contract_noonwraith", "sq003_contract_devil",
    "sq004_contract_wyvern", "sq005_contract_leshen", "sq006_contract_fiend",
    "sq007_contract_golem", "sq008_contract_basilisk"]

def contractIds : List String :=
  ["contract_griffin_white_orchard", "contract_noonwraith_white_orchard", "contract_devil_velen",
    "contract_wyvern_velen", "contract_leshen_velen", "contract_fiend_velen",
    "contract_golem_skellige", "contract_basilisk_skellige"]

def getQuestName (questId : String) : String := "Quest: " ++ questId

def getQuestDescription (questId : String) : String := "Description for quest: " ++ questId

def createQuest (questType : QuestType) (synchronized : Bool) (xp gold : ℤ) (questId : String) :
    QuestData :=
  let quest : QuestData := {
    questId := questId
    questName := getQuestName questId
    questDescription := getQuestDescription questId
    questType := questType }
  (quest.setSynchronized synchronized).setRewards xp gold []

def createQuestData : List QuestData :=
  mainQuestIds.map (createQuest .mainQuest true 1000 500)
    ++ sideQuestIds.map (createQuest .sideQuest false 500 250)
    ++ contractIds.map (createQuest .witcherContract true 750 300)

def enableStoryModeQuests (s : QuestSystem) : QuestSystem :=
  { s with quests := s.quests.map (·.setEnabled true) }

def enableExplorationModeQuests (s : QuestSystem) : QuestSystem :=
  { s with quests := s.quests.map fun quest =>
      if quest.questType = .mainQuest then quest.setEnabled false else quest.setEnabled true }

def updateGameMode (s : QuestSystem) : GameMode → QuestSystem
  | .story => s.enableStoryModeQuests
  | .exploration => s.enableExplorationModeQuests

def applyGameModeSettings (s : QuestSystem) : Option GameMode → QuestSystem
  | none => s
  | some .story => s.enableStoryModeQuests
  | some .exploration => s.enableExplorationModeQuests

def initializeSystem (currentMode : Option GameMode) : QuestSystem :=
  applyGameModeSettings { quests := createQuestData } currentMode

def getQuest (s : QuestSystem) (questId : String) : Option QuestData :=
  s.quests.find? fun quest => quest.questId = questId

def rewriteQuest (s : QuestSystem) (questId : String) (f : QuestData → QuestData) : QuestSystem :=
  { s with quests := modifyFirst (fun quest => quest.questId = questId) f s.quests }

def startQuest (s : QuestSystem) (questId : String) : QuestSystem × Bool :=
  match s.getQuest questId with
  | none => (s, false)
  | some quest =>
    if ¬ quest.isEnabled then (s, false)
    else (s.rewriteQuest questId QuestData.startQuest, true)

/-- The rewards that are handed to the local player, if there is one; gold and items are only
written of in the log. -/
def giveQuestRewards (quest : QuestData) (hasPlayer : Bool) : List Reward :=
  if ¬ hasPlayer then []
  else (if quest.xpReward > 0 then [.experience quest.xpReward] else [])
    ++ (if quest.goldReward > 0 then [.gold quest.goldReward] else [])
    ++ quest.itemRewards.map .item

def completeQuest (s : QuestSystem) (questId : String) (hasPlayer : Bool) :
    QuestSystem × Bool × List Reward :=
  match s.getQuest questId with
  | none => (s, false, [])
  | some quest =>
    if quest.status ≠ .inProgress then (s, false, [])
    else (s.rewriteQuest questId QuestData.completeQuest, true, giveQuestRewards quest hasPlayer)

def getAvailableQuests (s : QuestSystem) : List QuestData :=
  s.quests.filter fun quest => quest.isEnabled && quest.status = .notStarted

inductive Op
  | startQuest (questId : String)
  | completeQuest (questId : String) (hasPlayer : Bool)
  | updateGameMode (newMode : GameMode)
deriving DecidableEq

def step (s : QuestSystem) : Op → QuestSystem
  | .startQuest id => (s.startQuest id).1
  | .completeQuest id hasPlayer => (s.completeQuest id hasPlayer).1
  | .updateGameMode mode => s.updateGameMode mode

end QuestSystem

structure GameModeConfig where
  mode : GameMode := .story
  enableMainQuests : Bool := true
  enableCutscenes : Bool := true
  enableDialogs : Bool := true
  enableWitcherContracts : Bool := true
  enableTreasureHunts : Bool := true
  enableQuestionMarks : Bool := true
  enableDynamicEvents : Bool := true
  unlockAllAreas : Bool := false
  syncInventory : Bool := true
  syncContracts : Bool := true
  saveExternalProgress : Bool := false
  hostControlsDecisions : Bool := true
  syncXpRewards : Bool := true
  syncQuestProgress : Bool := true
deriving DecidableEq

namespace GameModeConfig

def setStoryMode : GameModeConfig := {}

def setExplorationMode : GameModeConfig where
  mode := .exploration
  enableMainQuests := false
  enableCutscenes := false
  enableDialogs := false
  unlockAllAreas := true
  saveExternalProgress := true
  hostControlsDecisions := false
  syncQuestProgress := false

end GameModeConfig

structure QuestManager (Quest : Type) where
  mainQuestsEnabled : Bool := true
  questSyncEnabled : Bool := true
  activeQuests : List Quest := []
  disabledQuests : List String :=
    ["q001_white_orchard", "q002_kaer_morhen", "q003_velen", "q004_novigrad", "q005_skellige",
      "q006_blood_and_wine"]

namespace QuestManager
variable {Quest : Type}

def enableMainQuests (m : QuestManager Quest) : QuestManager Quest :=
  { m with mainQuestsEnabled := true, disabledQuests := [] }

/-- The list is taken to hold the main quests already. -/
def disableMainQuests (m : QuestManager Quest) : QuestManager Quest :=
  { m with mainQuestsEnabled := false }

def enableQuestSynchronization (m : QuestManager Quest) : QuestManager Quest :=
  { m with questSyncEnabled := true }

def isQuestEnabled (m : QuestManager Quest) (questId : String) : Bool :=
  if ¬ m.mainQuestsEnabled then !m.disabledQuests.contains questId else true

def addQuest (getName : Quest → String) (m : QuestManager Quest) (quest : Quest) :
    QuestManager Quest :=
  if m.isQuestEnabled (getName quest) then { m with activeQuests := m.activeQuests ++ [quest] } else m

end QuestManager

structure AreaManager where
  unlockedAreas : List String := []
  allAreasUnlocked : Bool := false
deriving DecidableEq

def AreaManager.unlockAllAreas (_ : AreaManager) : AreaManager where
  allAreasUnlocked := true
  unlockedAreas := ["white_orchard", "velen", "novigrad", "skellige", "kaer_morhen", "toussaint"]

structure ContractManager where
  contractsEnabled : Bool := true
deriving DecidableEq

def ContractManager.enableContracts (m : ContractManager) : ContractManager :=
  { m with contractsEnabled := true }

structure GameModeManager (Quest : Type) where
  config : GameModeConfig := {}
  currentMode : GameMode := .story
  questManager : QuestManager Quest := {}
  areaManager : AreaManager := {}
  contractManager : ContractManager := {}

namespace GameModeManager
variable {Quest : Type}

def enableStoryModeFeatures (s : GameModeManager Quest) : GameModeManager Quest :=
  let s := if s.config.enableMainQuests
    then { s with questManager := s.questManager.enableMainQuests } else s
  if s.config.syncQuestProgress
    then { s with questManager := s.questManager.enableQuestSynchronization } else s

def enableExplorationModeFeatures (s : GameModeManager Quest) : GameModeManager Quest :=
  let s := if ¬ s.config.enableMainQuests
    then { s with questManager := s.questManager.disableMainQuests } else s
  let s := if s.config.unlockAllAreas
    then { s with areaManager := s.areaManager.unlockAllAreas } else s
  if s.config.enableWitcherContracts
    then { s with contractManager := s.contractManager.enableContracts } else s

def applyModeSettings (s : GameModeManager Quest) : GameModeManager Quest :=
  match s.currentMode with
  | .story => s.enableStoryModeFeatures
  | .exploration => s.enableExplorationModeFeatures

def setGameMode (s : GameModeManager Quest) (mode : GameMode) : GameModeManager Quest :=
  let s := { s with currentMode := mode }
  let s := match mode with
    | .story => { s with config := .setStoryMode }
    | .exploration => { s with config := .setExplorationMode }
  s.applyModeSettings

def configuredMode (gameMode : String) : GameMode :=
  if gameMode = "exploration" then .exploration else .story

/-- The setting is that of the configuration manager, if there is one. -/
def loadConfiguration (s : GameModeManager Quest) : Option String → GameModeManager Quest
  | none => s
  | some gameMode => s.setGameMode (configuredMode gameMode)

def initializeManager (gameMode : Option String) : GameModeManager Quest :=
  loadConfiguration {} gameMode

end GameModeManager
end WitcherMP.GameModes
