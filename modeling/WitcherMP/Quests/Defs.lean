import WitcherMP.Lib.OrdMap
import WitcherMP.Lib.Word32

/-! The quest system: quests with their objectives, and the groups of players. Times, texts,
callbacks and the averages of the statistics are left out. -/

namespace WitcherMP.Quests

inductive QuestState
  | notStarted | available | inProgress | completed | failed | abandoned
deriving DecidableEq

structure QuestObjective where
  objectiveId : UInt32 := 0
  type : String := ""
  target : String := ""
  requiredCount : UInt32 := 1
  currentCount : UInt32 := 0
  isCompleted : Bool := false
  isOptional : Bool := false
deriving DecidableEq

structure QuestData where
  questId : UInt32 := 0
  state : QuestState := .notStarted
  objectives : List QuestObjective := []
  requiredQuests : List UInt32 := []
  location : String := ""
  isCooperative : Bool := false
  maxParticipants : UInt32 := 1
  participants : List UInt32 := []
  syncOwner : UInt32 := 0
deriving DecidableEq

structure QuestSyncData where
  questId : UInt32 := 0
  state : QuestState := .notStarted
  objectives : List QuestObjective := []
  participants : List UInt32 := []
  syncOwner : UInt32 := 0
deriving DecidableEq

structure QuestGroup where
  groupId : UInt32 := 0
  members : List UInt32 := []
  leader : UInt32 := 0
  isActive : Bool := true
deriving DecidableEq

structure QuestStats where
  totalQuests : UInt32 := 0
  completedQuests : UInt32 := 0
  activeGroups : UInt32 := 0
  totalParticipants : UInt32 := 0
deriving DecidableEq

structure CooperativeQuestSystem where
  initialized : Bool := false
  quests : OrdMap UInt32 QuestData := .empty
  groups : OrdMap UInt32 QuestGroup := .empty
  playerQuests : OrdMap UInt32 (List UInt32) := .empty
  playerGroups : OrdMap UInt32 (List UInt32) := .empty
  maxGroupSize : UInt32 := 4
  stats : QuestStats := {}
  nextQuestId : UInt32 := 1
  nextGroupId : UInt32 := 1
deriving DecidableEq

namespace CooperativeQuestSystem

def getQuest (s : CooperativeQuestSystem) (questId : UInt32) : Option QuestData :=
  s.quests.find? questId

def setQuest (s : CooperativeQuestSystem) (questId : UInt32) (quest : QuestData) :
    CooperativeQuestSystem :=
  { s with quests := s.quests.insert questId quest }

def addToPlayerQuests (s : CooperativeQuestSystem) (playerId questId : UInt32) :
    CooperativeQuestSystem :=
  { s with
    playerQuests := s.playerQuests.insert playerId (s.playerQuests.getD playerId [] ++ [questId]) }

def removeFromPlayerQuests (s : CooperativeQuestSystem) (playerId questId : UInt32) :
    CooperativeQuestSystem :=
  { s with
    playerQuests := s.playerQuests.insert playerId ((s.playerQuests.getD playerId []).erase questId) }

def assignedId (s : CooperativeQuestSystem) (quest : QuestData) : UInt32 :=
  if quest.questId = 0 then s.nextQuestId else quest.questId

def addQuest (s : CooperativeQuestSystem) (quest : QuestData) : CooperativeQuestSystem :=
  if ¬ s.initialized then s else
  let questId := s.assignedId quest
  { s with
    quests := s.quests.insert questId { quest with questId := questId }
    nextQuestId := if quest.questId = 0 then s.nextQuestId + 1 else s.nextQuestId
    stats := { s.stats with totalQuests := s.stats.totalQuests + 1 } }

def canPlayerJoinQuest (s : CooperativeQuestSystem) (questId _playerId : UInt32) : Bool :=
  match s.getQuest questId with
  | none => false
  | some quest => quest.isCooperative && quest.participants.length < quest.maxParticipants.toNat

def checkQuestPrerequisites (s : CooperativeQuestSystem) (questId _playerId : UInt32) : Bool :=
  match s.getQuest questId with
  | none => false
  | some quest => quest.requiredQuests.all fun requiredQuestId =>
    match s.getQuest requiredQuestId with
    | none => false
    | some requiredQuest => requiredQuest.state = .completed

def validateQuestStart (s : CooperativeQuestSystem) (questId playerId : UInt32) : Bool :=
  match s.getQuest questId with
  | none => false
  | some quest =>
    if quest.state ≠ .available then false
    else if ¬ s.checkQuestPrerequisites questId playerId then false
    else if quest.isCooperative && ¬ s.canPlayerJoinQuest questId playerId then false
    else true

def startQuest (s : CooperativeQuestSystem) (questId playerId : UInt32) :
    CooperativeQuestSystem × Bool :=
  if ¬ s.initialized then (s, false) else
  match s.getQuest questId with
  | none => (s, false)
  | some quest =>
    if ¬ s.validateQuestStart questId playerId then (s, false)
    else
      let s := s.setQuest questId { quest with
        state := .inProgress
        participants := quest.participants ++ [playerId]
        syncOwner := playerId }
      (s.addToPlayerQuests playerId questId, true)

def isQuestComplete (s : CooperativeQuestSystem) (questId : UInt32) : Bool :=
  match s.getQuest questId with
  | none => false
  | some quest => quest.objectives.all fun objective => objective.isOptional || objective.isCompleted

def completeQuest (s : CooperativeQuestSystem) (questId _playerId : UInt32) :
    CooperativeQuestSystem × Bool :=
  match s.getQuest questId with
  | none => (s, false)
  | some quest =>
    if quest.state ≠ .inProgress then (s, false)
    else if ¬ s.isQuestComplete questId then (s, false)
    else
      let s := s.setQuest questId { quest with state := .completed }
      ({ s with stats := { s.stats with completedQuests := s.stats.completedQuests + 1 } }, true)

def abandonQuest (s : CooperativeQuestSystem) (questId playerId : UInt32) :
    CooperativeQuestSystem × Bool :=
  match s.getQuest questId with
  | none => (s, false)
  | some quest =>
    if quest.state ≠ .inProgress then (s, false)
    else
      let s := s.removeFromPlayerQuests playerId questId
      (s.setQuest questId { quest with
        state := .abandoned, participants := quest.participants.erase playerId }, true)

end CooperativeQuestSystem

def QuestObjective.advance (objective : QuestObjective) (progress : UInt32) : QuestObjective :=
  let currentCount := min (objective.currentCount + progress) objective.requiredCount
  { objective with
    currentCount := currentCount, isCompleted := currentCount ≥ objective.requiredCount }

/-- The loop stops at the first objective with the id. -/
def advanceFirst (objectiveId progress : UInt32) : List QuestObjective → Option (List QuestObjective)
  | [] => none
  | objective :: objectives =>
    if objective.objectiveId = objectiveId then some (objective.advance progress :: objectives)
    else (advanceFirst objectiveId progress objectives).map (objective :: ·)

namespace CooperativeQuestSystem

def updateObjective (s : CooperativeQuestSystem) (questId objectiveId progress : UInt32) :
    CooperativeQuestSystem × Bool :=
  match s.getQuest questId with
  | none => (s, false)
  | some quest =>
    if quest.state ≠ .inProgress then (s, false)
    else
      match advanceFirst objectiveId progress quest.objectives with
      | none => (s, false)
      | some objectives => (s.setQuest questId { quest with objectives := objectives }, true)

def joinQuest (s : CooperativeQuestSystem) (questId playerId : UInt32) :
    CooperativeQuestSystem × Bool :=
  match s.getQuest questId with
  | none => (s, false)
  | some quest =>
    if ¬ quest.isCooperative || ¬ s.canPlayerJoinQuest questId playerId then (s, false)
    else
      let s := s.setQuest questId { quest with participants := quest.participants ++ [playerId] }
      (s.addToPlayerQuests playerId questId, true)

def leaveQuest (s : CooperativeQuestSystem) (questId playerId : UInt32) :
    CooperativeQuestSystem × Bool :=
  match s.getQuest questId with
  | none => (s, false)
  | some quest =>
    let s := s.setQuest questId { quest with participants := quest.participants.erase playerId }
    (s.removeFromPlayerQuests playerId questId, true)

def transferQuestOwnership (s : CooperativeQuestSystem) (questId fromPlayer toPlayer : UInt32) :
    CooperativeQuestSystem × Bool :=
  match s.getQuest questId with
  | none => (s, false)
  | some quest =>
    if quest.syncOwner ≠ fromPlayer then (s, false)
    else if toPlayer ∉ quest.participants then (s, false)
    else (s.setQuest questId { quest with syncOwner := toPlayer }, true)

def updateObjectives (s : CooperativeQuestSystem) (questId : UInt32)
    (objectives : List QuestObjective) : CooperativeQuestSystem :=
  objectives.foldl (fun s objective => (s.updateObjective questId objective.objectiveId 1).1) s

def processQuestTriggers (s : CooperativeQuestSystem) (questId : UInt32) (triggerType : String)
    (_playerId : UInt32) : CooperativeQuestSystem :=
  match s.getQuest questId with
  | none => s
  | some quest => s.updateObjectives questId (quest.objectives.filter fun o => o.type = triggerType)

def onPlayerEnterArea (s : CooperativeQuestSystem) (playerId : UInt32) (areaId : String) :
    CooperativeQuestSystem :=
  s.quests.entries.foldl (fun s e =>
    let quest := e.2
    if quest.state = .inProgress ∧ quest.location = areaId then
      s.processQuestTriggers quest.questId "enter_area" playerId
    else s) s

/-- The loop that the other events share: every objective of that type and target moves on. What it
reads while it goes over the objectives is not changed by an update. -/
def onPlayerEvent (s : CooperativeQuestSystem) (type target : String) : CooperativeQuestSystem :=
  s.quests.entries.foldl (fun s e =>
    let quest := e.2
    if quest.state = .inProgress then
      s.updateObjectives quest.questId
        (quest.objectives.filter fun o => o.type = type ∧ o.target = target)
    else s) s

def onPlayerKillMonster (s : CooperativeQuestSystem) (_playerId : UInt32) (monsterId : String) :
    CooperativeQuestSystem := s.onPlayerEvent "kill" monsterId

def onPlayerCollectItem (s : CooperativeQuestSystem) (_playerId itemId : UInt32) :
    CooperativeQuestSystem := s.onPlayerEvent "collect" (toString itemId.toNat)

def onPlayerTalkToNpc (s : CooperativeQuestSystem) (_playerId : UInt32) (npcId : String) :
    CooperativeQuestSystem := s.onPlayerEvent "talk" npcId

def onPlayerUseObject (s : CooperativeQuestSystem) (_playerId : UInt32) (objectId : String) :
    CooperativeQuestSystem := s.onPlayerEvent "use" objectId

inductive QuestOp
  | addQuest (quest : QuestData)
  | startQuest (questId playerId : UInt32)
  | joinQuest (questId playerId : UInt32)
  | leaveQuest (questId playerId : UInt32)
  | abandonQuest (questId playerId : UInt32)
  | transferQuestOwnership (questId fromPlayer toPlayer : UInt32)
  | completeQuest (questId playerId : UInt32)
  | updateObjective (questId objectiveId progress : UInt32)
  | onPlayerEnterArea (playerId : UInt32) (areaId : String)
  | onPlayerKillMonster (playerId : UInt32) (monsterId : String)
  | onPlayerCollectItem (playerId itemId : UInt32)
  | onPlayerTalkToNpc (playerId : UInt32) (npcId : String)
  | onPlayerUseObject (playerId : UInt32) (objectId : String)

def questStep (s : CooperativeQuestSystem) : QuestOp → CooperativeQuestSystem
  | .addQuest quest => s.addQuest quest
  | .startQuest q p => (s.startQuest q p).1
  | .joinQuest q p => (s.joinQuest q p).1
  | .leaveQuest q p => (s.leaveQuest q p).1
  | .abandonQuest q p => (s.abandonQuest q p).1
  | .transferQuestOwnership q p₁ p₂ => (s.transferQuestOwnership q p₁ p₂).1
  | .completeQuest q p => (s.completeQuest q p).1
  | .updateObjective q o n => (s.updateObjective q o n).1
  | .onPlayerEnterArea p a => s.onPlayerEnterArea p a
  | .onPlayerKillMonster p m => s.onPlayerKillMonster p m
  | .onPlayerCollectItem p i => s.onPlayerCollectItem p i
  | .onPlayerTalkToNpc p n => s.onPlayerTalkToNpc p n
  | .onPlayerUseObject p o => s.onPlayerUseObject p o

/-- Whatever is there is replaced; no time is compared. -/
def synchronizeQuest (s : CooperativeQuestSystem) (questId : UInt32) (syncData : QuestSyncData) :
    CooperativeQuestSystem :=
  match s.getQuest questId with
  | none => s
  | some quest => s.setQuest questId { quest with
      state := syncData.state
      objectives := syncData.objectives
      participants := syncData.participants
      syncOwner := syncData.syncOwner }

def getQuestSyncData (s : CooperativeQuestSystem) (questId : UInt32) : QuestSyncData :=
  match s.getQuest questId with
  | none => {}
  | some quest => {
      questId := quest.questId
      state := quest.state
      objectives := quest.objectives
      participants := quest.participants
      syncOwner := quest.syncOwner }

def processQuestUpdate (s : CooperativeQuestSystem) (syncData : QuestSyncData) :
    CooperativeQuestSystem := s.synchronizeQuest syncData.questId syncData

def getGroup (s : CooperativeQuestSystem) (groupId : UInt32) : Option QuestGroup :=
  s.groups.find? groupId

def setGroup (s : CooperativeQuestSystem) (groupId : UInt32) (group : QuestGroup) :
    CooperativeQuestSystem :=
  { s with groups := s.groups.insert groupId group }

def addToPlayerGroups (s : CooperativeQuestSystem) (playerId groupId : UInt32) :
    CooperativeQuestSystem :=
  { s with
    playerGroups := s.playerGroups.insert playerId (s.playerGroups.getD playerId [] ++ [groupId]) }

def removeFromPlayerGroups (s : CooperativeQuestSystem) (playerId groupId : UInt32) :
    CooperativeQuestSystem :=
  { s with
    playerGroups := s.playerGroups.insert playerId ((s.playerGroups.getD playerId []).erase groupId) }

def createGroup (s : CooperativeQuestSystem) (leaderId : UInt32) : CooperativeQuestSystem × UInt32 :=
  let groupId := s.nextGroupId
  let s := { s with nextGroupId := s.nextGroupId + 1 }
  let s := s.setGroup groupId { groupId := groupId, members := [leaderId], leader := leaderId }
  let s := s.addToPlayerGroups leaderId groupId
  ({ s with stats := { s.stats with activeGroups := s.stats.activeGroups + 1 } }, groupId)

def isPlayerInGroup (s : CooperativeQuestSystem) (playerId groupId : UInt32) : Bool :=
  match s.getGroup groupId with
  | none => false
  | some group => playerId ∈ group.members

def canPlayerJoinGroup (s : CooperativeQuestSystem) (groupId playerId : UInt32) : Bool :=
  match s.getGroup groupId with
  | none => false
  | some group =>
    if ¬ group.isActive then false
    else if group.members.length ≥ s.maxGroupSize.toNat then false
    else ¬ s.isPlayerInGroup playerId groupId

def joinGroup (s : CooperativeQuestSystem) (groupId playerId : UInt32) :
    CooperativeQuestSystem × Bool :=
  match s.getGroup groupId with
  | none => (s, false)
  | some group =>
    if ¬ s.canPlayerJoinGroup groupId playerId then (s, false)
    else
      let s := s.setGroup groupId { group with members := group.members ++ [playerId] }
      let s := s.addToPlayerGroups playerId groupId
      ({ s with stats := { s.stats with totalParticipants := s.stats.totalParticipants + 1 } }, true)

/-- Then the source logs the name of the group, which it reads from the erased entry; a group that
its last member leaves is logged the same way. -/
def disbandGroup (s : CooperativeQuestSystem) (groupId : UInt32) : CooperativeQuestSystem × Bool :=
  match s.getGroup groupId with
  | none => (s, false)
  | some group =>
    let s := group.members.foldl (fun s memberId => s.removeFromPlayerGroups memberId groupId) s
    ({ s with
      groups := s.groups.erase groupId
      stats := { s.stats with activeGroups := s.stats.activeGroups - 1 } }, true)

def leaveGroup (s : CooperativeQuestSystem) (groupId playerId : UInt32) :
    CooperativeQuestSystem × Bool :=
  match s.getGroup groupId with
  | none => (s, false)
  | some group =>
    let group := { group with members := group.members.erase playerId }
    let s := s.setGroup groupId group
    let s := s.removeFromPlayerGroups playerId groupId
    if group.leader = playerId then
      match group.members with
      | [] => ((s.disbandGroup groupId).1, true)
      | next :: _ => (s.setGroup groupId { group with leader := next }, true)
    else (s, true)

inductive GroupOp
  | createGroup (leaderId : UInt32)
  | joinGroup (groupId playerId : UInt32)
  | leaveGroup (groupId playerId : UInt32)
  | disbandGroup (groupId : UInt32)

def groupStep (s : CooperativeQuestSystem) : GroupOp → CooperativeQuestSystem
  | .createGroup p => (s.createGroup p).1
  | .joinGroup g p => (s.joinGroup g p).1
  | .leaveGroup g p => (s.leaveGroup g p).1
  | .disbandGroup g => (s.disbandGroup g).1

end CooperativeQuestSystem
end WitcherMP.Quests
