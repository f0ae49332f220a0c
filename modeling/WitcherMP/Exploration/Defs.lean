import WitcherMP.Combat.Defs
import WitcherMP.Lib.FirstMatch
import WitcherMP.Lib.OrdMap
import WitcherMP.Lib.Word32

/-! Sessions of the exploration mode, their fast travel points, and the monster contracts that all
sessions share. Times, callbacks, unlocked regions and activities are left out. -/

namespace WitcherMP.Exploration
open Combat (Vector4F)
open FirstMatch

inductive ExplorationRegion
  | whiteOrchard | velen | novigrad | skellige | toussaint | kaerMorhen | all
deriving DecidableEq

structure FastTravelPoint where
  pointId : UInt32 := 0
  name : String := ""
  location : String := ""
  region : ExplorationRegion := .velen
  position : Vector4F := {}
  isUnlocked : Bool := false
  isActive : Bool := true
deriving DecidableEq

structure ExplorationSessionData where
  sessionId : UInt32 := 0
  sessionName : String := ""
  hostPlayerId : UInt32 := 0
  participants : List UInt32 := []
  fastTravelPoints : List FastTravelPoint := []
  playerPositions : OrdMap UInt32 Vector4F := .empty
  playerRegions : OrdMap UInt32 ExplorationRegion := .empty
  isActive : Bool := false
deriving DecidableEq

structure MonsterContract where
  contractId : UInt32 := 0
  name : String := ""
  description : String := ""
  monsterType : String := ""
  location : Vector4F
  region : ExplorationRegion
  level : UInt32 := 1
  reward : UInt32 := 0
  participants : List UInt32 := []
  isCompleted : Bool := false
  isActive : Bool := true
deriving DecidableEq

structure ExplorationStats where
  totalSessions : UInt32 := 0
  activeSessions : UInt32 := 0
  totalContracts : UInt32 := 0
  completedContracts : UInt32 := 0
deriving DecidableEq

structure ExplorationMode where
  initialized : Bool := false
  explorationSessions : OrdMap UInt32 ExplorationSessionData := .empty
  monsterContracts : OrdMap UInt32 MonsterContract := .empty
  fastTravelPoints : OrdMap UInt32 FastTravelPoint := .empty
  maxSessionSize : UInt32 := 8
  maxContractParticipants : UInt32 := 4
  stats : ExplorationStats := {}
  nextSessionId : UInt32 := 1
  nextContractId : UInt32 := 1
deriving DecidableEq

/-- The id is not among the arguments, and stays 0. -/
def createFastTravelPoint (name location : String) (region : ExplorationRegion)
    (position : Vector4F) : FastTravelPoint :=
  { name, location, region, position, isUnlocked := false, isActive := true }

def whiteOrchardInn : FastTravelPoint :=
  createFastTravelPoint "White Orchard Inn" "White Orchard" .whiteOrchard
    ⟨0x447A0000, 0, 0x447A0000, 0x3F800000⟩

def crowPerch : FastTravelPoint :=
  createFastTravelPoint "Crow's Perch" "Velen" .velen ⟨0x44FA0000, 0, 0x44FA0000, 0x3F800000⟩

def novigradSquare : FastTravelPoint :=
  createFastTravelPoint "Novigrad Square" "Novigrad" .novigrad
    ⟨0x453B8000, 0, 0x453B8000, 0x3F800000⟩

def kaerTrolde : FastTravelPoint :=
  createFastTravelPoint "Kaer Trolde" "Skellige" .skellige ⟨0x457A0000, 0, 0x457A0000, 0x3F800000⟩

def beauclair : FastTravelPoint :=
  createFastTravelPoint "Beauclair" "Toussaint" .toussaint ⟨0x459C4000, 0, 0x459C4000, 0x3F800000⟩

namespace ExplorationMode

def initializeFastTravelPoints (s : ExplorationMode) : ExplorationMode :=
  { s with
    fastTravelPoints := s.fastTravelPoints.insertAll FastTravelPoint.pointId
      [whiteOrchardInn, crowPerch, novigradSquare, kaerTrolde, beauclair] }

def initializeMode (s : ExplorationMode) : ExplorationMode :=
  if s.initialized then s else { s.initializeFastTravelPoints with initialized := true }

def getExplorationSession (s : ExplorationMode) (sessionId : UInt32) :
    Option ExplorationSessionData :=
  s.explorationSessions.find? sessionId

def setExplorationSession (s : ExplorationMode) (sessionId : UInt32)
    (session : ExplorationSessionData) : ExplorationMode :=
  { s with explorationSessions := s.explorationSessions.insert sessionId session }

def createExplorationSession (s : ExplorationMode) (sessionName : String) (hostPlayerId : UInt32) :
    ExplorationMode × UInt32 :=
  if ¬ s.initialized then (s, 0) else
  let session : ExplorationSessionData := {
    sessionId := s.nextSessionId
    sessionName := sessionName
    hostPlayerId := hostPlayerId
    participants := [hostPlayerId]
    isActive := true }
  let s := { s with nextSessionId := s.nextSessionId + 1 }
  let s := s.setExplorationSession session.sessionId session
  ({ s with stats := { s.stats with
      totalSessions := s.stats.totalSessions + 1
      activeSessions := s.stats.activeSessions + 1 } }, session.sessionId)

def joinExplorationSession (s : ExplorationMode) (sessionId playerId : UInt32) :
    ExplorationMode × Bool :=
  match s.getExplorationSession sessionId with
  | none => (s, false)
  | some session =>
    if ¬ session.isActive then (s, false)
    else if session.participants.length ≥ s.maxSessionSize.toNat then (s, false)
    else if session.participants.contains playerId then (s, false)
    else (s.setExplorationSession sessionId { session with
      participants := session.participants ++ [playerId] }, true)

/-- An ended session can be ended again, and is counted down again. -/
def endExplorationSession (s : ExplorationMode) (sessionId : UInt32) : ExplorationMode × Bool :=
  match s.getExplorationSession sessionId with
  | none => (s, false)
  | some session =>
    let s := s.setExplorationSession sessionId { session with isActive := false }
    ({ s with stats := { s.stats with activeSessions := s.stats.activeSessions - 1 } }, true)

def withoutPlayer (session : ExplorationSessionData) (playerId : UInt32) : ExplorationSessionData :=
  let session := { session with
    participants := session.participants.erase playerId
    playerPositions := session.playerPositions.erase playerId
    playerRegions := session.playerRegions.erase playerId }
  match session.participants with
  | [] => session
  | first :: _ =>
    if session.hostPlayerId = playerId then { session with hostPlayerId := first } else session

/-- Neither an ended session nor a player outside the session is refused. -/
def leaveExplorationSession (s : ExplorationMode) (sessionId playerId : UInt32) :
    ExplorationMode × Bool :=
  match s.getExplorationSession sessionId with
  | none => (s, false)
  | some session =>
    let session := withoutPlayer session playerId
    let s := s.setExplorationSession sessionId session
    (if session.participants = [] then (s.endExplorationSession sessionId).1 else s, true)

def setMaxSessionSize (s : ExplorationMode) (maxSize : UInt32) : ExplorationMode :=
  { s with maxSessionSize := max 1 (min 16 maxSize) }

def updatePlayerPosition (s : ExplorationMode) (sessionId playerId : UInt32) (position : Vector4F) :
    ExplorationMode × Bool :=
  match s.getExplorationSession sessionId with
  | none => (s, false)
  | some session =>
    if ¬ session.isActive then (s, false)
    else (s.setExplorationSession sessionId { session with
      playerPositions := session.playerPositions.insert playerId position }, true)

def updatePlayerRegion (s : ExplorationMode) (sessionId playerId : UInt32)
    (region : ExplorationRegion) : ExplorationMode × Bool :=
  match s.getExplorationSession sessionId with
  | none => (s, false)
  | some session =>
    if ¬ session.isActive then (s, false)
    else (s.setExplorationSession sessionId { session with
      playerRegions := session.playerRegions.insert playerId region }, true)

def getPlayerPosition (s : ExplorationMode) (sessionId playerId : UInt32) : Vector4F :=
  match s.getExplorationSession sessionId with
  | none => ⟨0, 0, 0, 0x3F800000⟩
  | some session => session.playerPositions.getD playerId ⟨0, 0, 0, 0x3F800000⟩

def getPlayersInRegion (s : ExplorationMode) (sessionId : UInt32) (region : ExplorationRegion) :
    List UInt32 :=
  match s.getExplorationSession sessionId with
  | none => []
  | some session =>
    (session.playerRegions.entries.filter fun pair => pair.2 = region).map Prod.fst

/-- Whether a distance is within the radius is left to the floats. -/
def getNearbyPlayers (inRadius : Vector4F → Vector4F → Bool) (s : ExplorationMode)
    (sessionId playerId : UInt32) : List UInt32 :=
  match s.getExplorationSession sessionId with
  | none => []
  | some session =>
    let playerPos := s.getPlayerPosition sessionId playerId
    (session.playerPositions.entries.filter fun pair =>
      pair.1 ≠ playerId && inRadius playerPos pair.2).map Prod.fst

def unlockFastTravelPoint (s : ExplorationMode) (sessionId pointId : UInt32) :
    ExplorationMode × Bool :=
  match s.getExplorationSession sessionId with
  | none => (s, false)
  | some session =>
    if ¬ session.isActive then (s, false) else
    match s.fastTravelPoints.find? pointId with
    | none => (s, false)
    | some point =>
      if session.fastTravelPoints.any fun point => point.pointId = pointId && point.isUnlocked then
        (s, true)
      else (s.setExplorationSession sessionId { session with
        fastTravelPoints := session.fastTravelPoints ++ [{ point with isUnlocked := true }] }, true)

def lockFastTravelPoint (s : ExplorationMode) (sessionId pointId : UInt32) :
    ExplorationMode × Bool :=
  match s.getExplorationSession sessionId with
  | none => (s, false)
  | some session =>
    if ¬ session.isActive then (s, false)
    else if ¬ session.fastTravelPoints.any (·.pointId = pointId) then (s, false)
    else (s.setExplorationSession sessionId { session with
      fastTravelPoints := modifyFirst (·.pointId = pointId) (fun point =>
        { point with isUnlocked := false }) session.fastTravelPoints }, true)

def isOpen (pointId : UInt32) (point : FastTravelPoint) : Bool :=
  point.pointId = pointId && point.isUnlocked && point.isActive

def fastTravelToPoint (s : ExplorationMode) (sessionId playerId pointId : UInt32) :
    ExplorationMode × Bool :=
  match s.getExplorationSession sessionId with
  | none => (s, false)
  | some session =>
    if ¬ session.isActive then (s, false)
    else if ¬ session.participants.contains playerId then (s, false) else
    match session.fastTravelPoints.find? (isOpen pointId) with
    | none => (s, false)
    | some point => (s.setExplorationSession sessionId { session with
        playerPositions := session.playerPositions.insert playerId point.position }, true)

def setMonsterContract (s : ExplorationMode) (contractId : UInt32) (contract : MonsterContract) :
    ExplorationMode :=
  { s with monsterContracts := s.monsterContracts.insert contractId contract }

/-- This call does not ask whether the system is initialized. -/
def createMonsterContract (s : ExplorationMode) (name description monsterType : String)
    (location : Vector4F) (region : ExplorationRegion) (level reward : UInt32) :
    ExplorationMode × UInt32 :=
  let contract : MonsterContract := {
    contractId := s.nextContractId
    name, description, monsterType, location, region, level, reward }
  let s := { s with nextContractId := s.nextContractId + 1 }
  let s := s.setMonsterContract contract.contractId contract
  ({ s with stats := { s.stats with totalContracts := s.stats.totalContracts + 1 } },
    contract.contractId)

def joinMonsterContract (s : ExplorationMode) (sessionId contractId playerId : UInt32) :
    ExplorationMode × Bool :=
  match s.getExplorationSession sessionId with
  | none => (s, false)
  | some session =>
    if ¬ session.isActive then (s, false)
    else if ¬ session.participants.contains playerId then (s, false) else
    match s.monsterContracts.find? contractId with
    | none => (s, false)
    | some contract =>
      if ¬ contract.isActive then (s, false)
      else if contract.participants.length ≥ s.maxContractParticipants.toNat then (s, false)
      else if contract.participants.contains playerId then (s, false)
      else (s.setMonsterContract contractId { contract with
        participants := contract.participants ++ [playerId] }, true)

def leaveMonsterContract (s : ExplorationMode) (sessionId contractId playerId : UInt32) :
    ExplorationMode × Bool :=
  match s.getExplorationSession sessionId with
  | none => (s, false)
  | some session =>
    if ¬ session.isActive then (s, false) else
    match s.monsterContracts.find? contractId with
    | none => (s, false)
    | some contract =>
      if ¬ contract.participants.contains playerId then (s, false)
      else (s.setMonsterContract contractId { contract with
        participants := contract.participants.erase playerId }, true)

/-- The rewards are written to the log and nowhere else. -/
def completeMonsterContract (s : ExplorationMode) (sessionId contractId : UInt32) :
    ExplorationMode × Bool :=
  match s.getExplorationSession sessionId with
  | none => (s, false)
  | some session =>
    if ¬ session.isActive then (s, false) else
    match s.monsterContracts.find? contractId with
    | none => (s, false)
    | some contract =>
      if ¬ contract.isActive then (s, false) else
      let s := s.setMonsterContract contractId { contract with isCompleted := true, isActive := false }
      ({ s with stats := { s.stats with
        completedContracts := s.stats.completedContracts + 1 } }, true)

inductive Op
  | createExplorationSession (sessionName : String) (hostPlayerId : UInt32)
  | joinExplorationSession (sessionId playerId : UInt32)
  | leaveExplorationSession (sessionId playerId : UInt32)
  | endExplorationSession (sessionId : UInt32)
  | setMaxSessionSize (maxSize : UInt32)
  | updatePlayerPosition (sessionId playerId : UInt32) (position : Vector4F)
  | updatePlayerRegion (sessionId playerId : UInt32) (region : ExplorationRegion)
  | unlockFastTravelPoint (sessionId pointId : UInt32)
  | lockFastTravelPoint (sessionId pointId : UInt32)
  | fastTravelToPoint (sessionId playerId pointId : UInt32)
  | createMonsterContract (name description monsterType : String) (location : Vector4F)
    (region : ExplorationRegion) (level reward : UInt32)
  | joinMonsterContract (sessionId contractId playerId : UInt32)
  | leaveMonsterContract (sessionId contractId playerId : UInt32)
  | completeMonsterContract (sessionId contractId : UInt32)

def step (s : ExplorationMode) : Op → ExplorationMode
  | .createExplorationSession name host => (s.createExplorationSession name host).1
  | .joinExplorationSession i p => (s.joinExplorationSession i p).1
  | .leaveExplorationSession i p => (s.leaveExplorationSession i p).1
  | .endExplorationSession i => (s.endExplorationSession i).1
  | .setMaxSessionSize n => s.setMaxSessionSize n
  | .updatePlayerPosition i p v => (s.updatePlayerPosition i p v).1
  | .updatePlayerRegion i p r => (s.updatePlayerRegion i p r).1
  | .unlockFastTravelPoint i k => (s.unlockFastTravelPoint i k).1
  | .lockFastTravelPoint i k => (s.lockFastTravelPoint i k).1
  | .fastTravelToPoint i p k => (s.fastTravelToPoint i p k).1
  | .createMonsterContract name description monsterType location region level reward =>
    (s.createMonsterContract name description monsterType location region level reward).1
  | .joinMonsterContract i c p => (s.joinMonsterContract i c p).1
  | .leaveMonsterContract i c p => (s.leaveMonsterContract i c p).1
  | .completeMonsterContract i c => (s.completeMonsterContract i c).1

end ExplorationMode
end WitcherMP.Exploration
