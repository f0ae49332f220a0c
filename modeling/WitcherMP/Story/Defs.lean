import WitcherMP.Lib.FirstMatch
import WitcherMP.Lib.OrdMap
import WitcherMP.Lib.Word32

/-! Sessions of the shared story mode, with what their stories hold. Times other than those of
cutscenes, callbacks, locations and world states are left out. -/

namespace WitcherMP.Story
open FirstMatch

inductive StoryModeType
  | mainCampaign | heartsOfStone | bloodAndWine | customStory
deriving DecidableEq

inductive StoryRole
  | host | participant | spectator
deriving DecidableEq

structure StoryDecision where
  decisionId : UInt32 := 0
  questId : String := ""
  dialogueId : String := ""
  decisionText : String := ""
  options : List String := []
  selectedOption : UInt32 := 0
  hostPlayerId : UInt32 := 0
  isCompleted : Bool := false
deriving DecidableEq

/-- Times are in ticks of the clock; a time that was never set is 0. -/
structure CutsceneSyncData where
  cutsceneId : UInt32 := 0
  cutsceneName : String := ""
  questId : String := ""
  hostPlayerId : UInt32 := 0
  participants : List UInt32 := []
  startTime : ℤ := 0
  endTime : ℤ := 0
  isPlaying : Bool := false
  canSkip : Bool := false
  isSkipped : Bool := false
deriving DecidableEq

structure StorySessionData where
  sessionId : UInt32 := 0
  sessionName : String := ""
  storyType : StoryModeType := .mainCampaign
  hostPlayerId : UInt32 := 0
  participants : List UInt32 := []
  playerRoles : OrdMap UInt32 StoryRole := .empty
  currentQuestId : String := ""
  decisions : List StoryDecision := []
  cutscenes : List CutsceneSyncData := []
  isActive : Bool := false
deriving DecidableEq

structure StoryProgressionData where
  sessionId : UInt32 := 0
  completedQuests : List String := []
  availableQuests : List String := []
  storyDecisions : List StoryDecision := []
deriving DecidableEq

structure StoryStats where
  totalSessions : UInt32 := 0
  activeSessions : UInt32 := 0
deriving DecidableEq

structure SharedStoryMode where
  initialized : Bool := false
  storySessions : OrdMap UInt32 StorySessionData := .empty
  storyProgressions : OrdMap UInt32 StoryProgressionData := .empty
  maxSessionSize : UInt32 := 4
  stats : StoryStats := {}
  nextSessionId : UInt32 := 1
  nextDecisionId : UInt32 := 1
  nextCutsceneId : UInt32 := 1
deriving DecidableEq

namespace SharedStoryMode

def getStorySession (s : SharedStoryMode) (sessionId : UInt32) : Option StorySessionData :=
  s.storySessions.find? sessionId

def setStorySession (s : SharedStoryMode) (sessionId : UInt32) (session : StorySessionData) :
    SharedStoryMode :=
  { s with storySessions := s.storySessions.insert sessionId session }

def createStorySession (s : SharedStoryMode) (sessionName : String) (storyType : StoryModeType)
    (hostPlayerId : UInt32) : SharedStoryMode × UInt32 :=
  if ¬ s.initialized then (s, 0) else
  let session : StorySessionData := {
    sessionId := s.nextSessionId
    sessionName := sessionName
    storyType := storyType
    hostPlayerId := hostPlayerId
    participants := [hostPlayerId]
    playerRoles := OrdMap.empty.insert hostPlayerId .host
    isActive := true }
  let s := { s with nextSessionId := s.nextSessionId + 1 }
  let s := s.setStorySession session.sessionId session
  ({ s with
      stats := { s.stats with
        totalSessions := s.stats.totalSessions + 1
        activeSessions := s.stats.activeSessions + 1 }
      storyProgressions := s.storyProgressions.insert session.sessionId
        { sessionId := session.sessionId } }, session.sessionId)

def joinStorySession (s : SharedStoryMode) (sessionId playerId : UInt32) (role : StoryRole) :
    SharedStoryMode × Bool :=
  match s.getStorySession sessionId with
  | none => (s, false)
  | some session =>
    if ¬ session.isActive then (s, false)
    else if session.participants.length ≥ s.maxSessionSize.toNat then (s, false)
    else if session.participants.contains playerId then (s, false)
    else (s.setStorySession sessionId { session with
      participants := session.participants ++ [playerId]
      playerRoles := session.playerRoles.insert playerId role }, true)

/-- An ended session can be ended again, and is counted down again. Saving its progression first
stamps a time and nothing else. -/
def endStorySession (s : SharedStoryMode) (sessionId : UInt32) : SharedStoryMode × Bool :=
  match s.getStorySession sessionId with
  | none => (s, false)
  | some session =>
    let s := s.setStorySession sessionId { session with isActive := false }
    ({ s with stats := { s.stats with activeSessions := s.stats.activeSessions - 1 } }, true)

/-- The session without the player, under the longest present one if the host left. -/
def withoutPlayer (session : StorySessionData) (playerId : UInt32) : StorySessionData :=
  let session := { session with
    participants := session.participants.erase playerId
    playerRoles := session.playerRoles.erase playerId }
  match session.participants with
  | [] => session
  | first :: _ =>
    if session.hostPlayerId = playerId then { session with
      hostPlayerId := first
      playerRoles := session.playerRoles.insert first .host }
    else session

def leaveStorySession (s : SharedStoryMode) (sessionId playerId : UInt32) : SharedStoryMode × Bool :=
  match s.getStorySession sessionId with
  | none => (s, false)
  | some session =>
    let session := withoutPlayer session playerId
    let s := s.setStorySession sessionId session
    (if session.participants = [] then (s.endStorySession sessionId).1 else s, true)

def setPlayerRole (s : SharedStoryMode) (sessionId playerId : UInt32) (role : StoryRole) :
    SharedStoryMode × Bool :=
  match s.getStorySession sessionId with
  | none => (s, false)
  | some session =>
    if ¬ session.isActive then (s, false)
    else if ¬ session.participants.contains playerId then (s, false)
    else (s.setStorySession sessionId { session with
      playerRoles := session.playerRoles.insert playerId role }, true)

/-- The old host's role is written first, so a host handing over to itself stays host. -/
def transferHost (s : SharedStoryMode) (sessionId fromPlayerId toPlayerId : UInt32) :
    SharedStoryMode × Bool :=
  match s.getStorySession sessionId with
  | none => (s, false)
  | some session =>
    if ¬ session.isActive then (s, false)
    else if session.hostPlayerId ≠ fromPlayerId then (s, false)
    else if ¬ session.participants.contains toPlayerId then (s, false)
    else (s.setStorySession sessionId { session with
      hostPlayerId := toPlayerId
      playerRoles := (session.playerRoles.insert fromPlayerId .participant).insert toPlayerId .host },
      true)

def kickPlayer (s : SharedStoryMode) (sessionId playerId : UInt32) : SharedStoryMode × Bool :=
  match s.getStorySession sessionId with
  | none => (s, false)
  | some session =>
    if ¬ session.isActive then (s, false)
    else if ¬ session.participants.contains playerId then (s, false)
    else ((s.leaveStorySession sessionId playerId).1, true)

def setMaxSessionSize (s : SharedStoryMode) (maxSize : UInt32) : SharedStoryMode :=
  { s with maxSessionSize := max 1 (min 8 maxSize) }

inductive Op
  | createStorySession (sessionName : String) (storyType : StoryModeType) (hostPlayerId : UInt32)
  | joinStorySession (sessionId playerId : UInt32) (role : StoryRole)
  | leaveStorySession (sessionId playerId : UInt32)
  | endStorySession (sessionId : UInt32)
  | setPlayerRole (sessionId playerId : UInt32) (role : StoryRole)
  | transferHost (sessionId fromPlayerId toPlayerId : UInt32)
  | kickPlayer (sessionId playerId : UInt32)
  | setMaxSessionSize (maxSize : UInt32)

def step (s : SharedStoryMode) : Op → SharedStoryMode
  | .createStorySession name type host => (s.createStorySession name type host).1
  | .joinStorySession i p role => (s.joinStorySession i p role).1
  | .leaveStorySession i p => (s.leaveStorySession i p).1
  | .endStorySession i => (s.endStorySession i).1
  | .setPlayerRole i p role => (s.setPlayerRole i p role).1
  | .transferHost i p p' => (s.transferHost i p p').1
  | .kickPlayer i p => (s.kickPlayer i p).1
  | .setMaxSessionSize n => s.setMaxSessionSize n

def storyProgression (s : SharedStoryMode) (sessionId : UInt32) : StoryProgressionData :=
  s.storyProgressions.getD sessionId {}

def setStoryProgression (s : SharedStoryMode) (sessionId : UInt32)
    (progression : StoryProgressionData) : SharedStoryMode :=
  { s with storyProgressions := s.storyProgressions.insert sessionId progression }

def startStoryQuest (s : SharedStoryMode) (sessionId : UInt32) (questId : String) :
    SharedStoryMode × Bool :=
  match s.getStorySession sessionId with
  | none => (s, false)
  | some session =>
    if ¬ session.isActive then (s, false)
    else (s.setStorySession sessionId { session with currentQuestId := questId }, true)

def completeStoryQuest (s : SharedStoryMode) (sessionId : UInt32) (questId : String) :
    SharedStoryMode × Bool :=
  match s.getStorySession sessionId with
  | none => (s, false)
  | some session =>
    if ¬ session.isActive then (s, false) else
    let progression := s.storyProgression sessionId
    (s.setStoryProgression sessionId { progression with
      completedQuests := if progression.completedQuests.contains questId
        then progression.completedQuests else progression.completedQuests ++ [questId]
      availableQuests := progression.availableQuests.erase questId }, true)

/-- Only the available quests are looked at. -/
def advanceStoryProgression (s : SharedStoryMode) (sessionId : UInt32) (nextQuestId : String) :
    SharedStoryMode × Bool :=
  match s.getStorySession sessionId with
  | none => (s, false)
  | some session =>
    if ¬ session.isActive then (s, false) else
    let progression := s.storyProgression sessionId
    (s.setStoryProgression sessionId { progression with
      availableQuests := if progression.availableQuests.contains nextQuestId
        then progression.availableQuests else progression.availableQuests ++ [nextQuestId] }, true)

def presentStoryDecision (s : SharedStoryMode) (sessionId : UInt32) (decision : StoryDecision) :
    SharedStoryMode × Bool :=
  match s.getStorySession sessionId with
  | none => (s, false)
  | some session =>
    if ¬ session.isActive then (s, false) else
    let decisionCopy : StoryDecision := { decision with
      decisionId := s.nextDecisionId
      hostPlayerId := session.hostPlayerId }
    let s := { s with nextDecisionId := s.nextDecisionId + 1 }
    (s.setStorySession sessionId { session with decisions := session.decisions ++ [decisionCopy] },
      true)

def canPlayerMakeDecision (s : SharedStoryMode) (sessionId playerId : UInt32) : Bool :=
  match s.getStorySession sessionId with
  | none => false
  | some session => session.hostPlayerId = playerId

def isPending (decisionId : UInt32) (decision : StoryDecision) : Bool :=
  decision.decisionId = decisionId && !decision.isCompleted

/-- It is the host stored with the decision that has to be the present one. -/
def makeStoryDecision (s : SharedStoryMode) (sessionId decisionId optionIndex : UInt32) :
    SharedStoryMode × Bool :=
  match s.getStorySession sessionId with
  | none => (s, false)
  | some session =>
    if ¬ session.isActive then (s, false) else
    match session.decisions.find? (isPending decisionId) with
    | none => (s, false)
    | some decision =>
      if ¬ s.canPlayerMakeDecision sessionId decision.hostPlayerId then (s, false) else
      let make (decision : StoryDecision) : StoryDecision :=
        { decision with selectedOption := optionIndex, isCompleted := true }
      let s := s.setStorySession sessionId
        { session with decisions := modifyFirst (isPending decisionId) make session.decisions }
      let progression := s.storyProgression sessionId
      (s.setStoryProgression sessionId { progression with
        storyDecisions := progression.storyDecisions ++ [make decision] }, true)

def startCutscene (s : SharedStoryMode) (sessionId : UInt32) (cutsceneName questId : String)
    (now : ℤ) : SharedStoryMode × Bool :=
  match s.getStorySession sessionId with
  | none => (s, false)
  | some session =>
    if ¬ session.isActive then (s, false) else
    let cutscene : CutsceneSyncData := {
      cutsceneId := s.nextCutsceneId
      cutsceneName := cutsceneName
      questId := questId
      hostPlayerId := session.hostPlayerId
      participants := session.participants
      startTime := now
      isPlaying := true
      canSkip := true }
    let s := { s with nextCutsceneId := s.nextCutsceneId + 1 }
    (s.setStorySession sessionId { session with cutscenes := session.cutscenes ++ [cutscene] }, true)

def runsAs (cutsceneId : UInt32) (c : CutsceneSyncData) : Bool :=
  c.cutsceneId = cutsceneId && c.isPlaying

/-- Any cutscene that does not play and was not skipped will do, also one that has ended. -/
def restsAs (cutsceneId : UInt32) (c : CutsceneSyncData) : Bool :=
  c.cutsceneId = cutsceneId && !c.isPlaying && !c.isSkipped

def rewriteCutscene (s : SharedStoryMode) (sessionId : UInt32) (p : CutsceneSyncData → Bool)
    (f : CutsceneSyncData → CutsceneSyncData) : SharedStoryMode × Bool :=
  match s.getStorySession sessionId with
  | none => (s, false)
  | some session =>
    if ¬ session.isActive then (s, false)
    else if ¬ session.cutscenes.any p then (s, false)
    else (s.setStorySession sessionId { session with
      cutscenes := modifyFirst p f session.cutscenes }, true)

def endCutscene (s : SharedStoryMode) (sessionId cutsceneId : UInt32) (now : ℤ) :
    SharedStoryMode × Bool :=
  s.rewriteCutscene sessionId (runsAs cutsceneId)
    fun c => { c with isPlaying := false, endTime := now }

def skipCutscene (s : SharedStoryMode) (sessionId cutsceneId : UInt32) (now : ℤ) :
    SharedStoryMode × Bool :=
  s.rewriteCutscene sessionId (fun c => runsAs cutsceneId c && c.canSkip)
    fun c => { c with isSkipped := true, isPlaying := false, endTime := now }

def pauseCutscene (s : SharedStoryMode) (sessionId cutsceneId : UInt32) : SharedStoryMode × Bool :=
  s.rewriteCutscene sessionId (runsAs cutsceneId) fun c => { c with isPlaying := false }

def resumeCutscene (s : SharedStoryMode) (sessionId cutsceneId : UInt32) : SharedStoryMode × Bool :=
  s.rewriteCutscene sessionId (restsAs cutsceneId) fun c => { c with isPlaying := true }

/-- A cutscene that has played for too long; `timedOut` compares a duration with the timeout. -/
def timeOut (timedOut : ℤ → Bool) (now : ℤ) (c : CutsceneSyncData) : CutsceneSyncData :=
  if c.isPlaying && timedOut (now - c.startTime) then { c with isPlaying := false, endTime := now }
  else c

/-- The clock is read for every cutscene that plays, by session and place. -/
def updateCutsceneStates (s : SharedStoryMode) (timedOut : ℤ → Bool) (now : UInt32 → ℕ → ℤ) :
    SharedStoryMode :=
  { s with storySessions := s.storySessions.mapEntries fun id session =>
      if session.isActive then { session with
        cutscenes := session.cutscenes.mapIdx fun j c => timeOut timedOut (now id j) c }
      else session }

end SharedStoryMode
end WitcherMP.Story
