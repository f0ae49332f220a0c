import WitcherMP.Lib.OrdMap
import WitcherMP.Lib.Word32
import Mathlib.Algebra.Order.Field.Rat

/-! The synchronised monsters: their states and health, what they decide for themselves, the
players they know of, and their groups. The square root is a parameter, and a call reads the
clock once; log lines, callbacks that only observe and average times are left out. -/

namespace WitcherMP.Monsters

structure Vector4F where
  x : ℚ := 0
  y : ℚ := 0
  z : ℚ := 0
  w : ℚ := 0
deriving DecidableEq

inductive MonsterAIState
  | idle | patrolling | alert | aggressive | attacking | stunned | dead | fleeing
deriving DecidableEq

inductive MonsterType
  | humanoid | beast | elemental | undead | dragon | insectoid | hybrid
deriving DecidableEq

inductive BehaviorPattern
  | passive | aggressive | territorial | pack | guardian | predator
deriving DecidableEq

structure MonsterAIData where
  monsterId : UInt32 := 0
  monsterName : String := ""
  type : MonsterType := .beast
  pattern : BehaviorPattern := .passive
  currentState : MonsterAIState := .idle
  previousState : MonsterAIState := .idle
  position : Vector4F := {}
  targetPosition : Vector4F := {}
  velocity : Vector4F := {}
  rotation : ℚ := 0
  targetRotation : ℚ := 0
  health : ℚ := 100
  maxHealth : ℚ := 100
  stamina : ℚ := 100
  maxStamina : ℚ := 100
  attackPower : ℚ := 10
  defense : ℚ := 5
  speed : ℚ := 1
  attackRange : ℚ := 2
  detectionRange : ℚ := 10
  aggroRange : ℚ := 5
  aggressionLevel : ℚ := 1 / 2
  fearLevel : ℚ := 0
  intelligence : ℚ := 1 / 2
  memory : ℚ := 7 / 10
  targetPlayerId : UInt32 := 0
  threatList : List UInt32 := []
  lastAttackTime : ℚ := 0
  lastStateChange : ℚ := 0
  syncOwner : UInt32 := 0
  needsSync : Bool := false
  lastSyncTime : ℚ := 0
deriving DecidableEq

structure AIDecision where
  newState : MonsterAIState := .idle
  targetPosition : Vector4F := {}
  targetPlayerId : UInt32 := 0
  priority : ℚ := 0
deriving DecidableEq

structure MonsterGroup where
  groupId : UInt32 := 0
  name : String := ""
  members : List UInt32 := []
  leader : UInt32 := 0
  groupPattern : BehaviorPattern := .pack
  groupCenter : Vector4F := {}
  groupRadius : ℚ := 10
  isActive : Bool := true
deriving DecidableEq

def MonsterGroup.without (group : MonsterGroup) (monsterId : UInt32) : MonsterGroup :=
  { group with
    members := group.members.erase monsterId
    leader := if group.leader = monsterId then (group.members.erase monsterId).headD group.leader
      else group.leader }

structure AIStats where
  totalMonsters : UInt32 := 0
  activeMonsters : UInt32 := 0
  aggressiveMonsters : UInt32 := 0
  totalGroups : UInt32 := 0
  totalDecisions : UInt32 := 0
  syncConflicts : UInt32 := 0
deriving DecidableEq

structure SyncedMonsterAI where
  initialized : Bool := false
  monsters : OrdMap UInt32 MonsterAIData := .empty
  groups : OrdMap UInt32 MonsterGroup := .empty
  playerThreats : OrdMap UInt32 (List UInt32) := .empty
  groupBehaviorEnabled : Bool := true
  stats : AIStats := {}
  nextMonsterId : UInt32 := 1
  nextGroupId : UInt32 := 1
deriving DecidableEq

namespace SyncedMonsterAI

def getMonster (s : SyncedMonsterAI) (monsterId : UInt32) : Option MonsterAIData :=
  s.monsters.find? monsterId

def setMonster (s : SyncedMonsterAI) (monsterId : UInt32) (monster : MonsterAIData) :
    SyncedMonsterAI :=
  { s with monsters := s.monsters.insert monsterId monster }

def modifyMonster (s : SyncedMonsterAI) (monsterId : UInt32) (f : MonsterAIData → MonsterAIData) :
    SyncedMonsterAI :=
  match s.getMonster monsterId with
  | none => s
  | some monster => s.setMonster monsterId (f monster)

def assignedId (s : SyncedMonsterAI) (monsterData : MonsterAIData) : UInt32 :=
  if monsterData.monsterId = 0 then s.nextMonsterId else monsterData.monsterId

def addMonster (s : SyncedMonsterAI) (monsterData : MonsterAIData) (now : ℚ) : SyncedMonsterAI :=
  if ¬ s.initialized then s else
  let monsterId := s.assignedId monsterData
  { s with
    monsters := s.monsters.insert monsterId
      { monsterData with monsterId := monsterId, lastSyncTime := now }
    nextMonsterId := if monsterData.monsterId = 0 then s.nextMonsterId + 1 else s.nextMonsterId
    stats := { s.stats with
      totalMonsters := s.stats.totalMonsters + 1, activeMonsters := s.stats.activeMonsters + 1 } }

def removeMonster (s : SyncedMonsterAI) (monsterId : UInt32) : SyncedMonsterAI :=
  match s.getMonster monsterId with
  | none => s
  | some _ => { s with
      monsters := s.monsters.erase monsterId
      stats := { s.stats with activeMonsters := s.stats.activeMonsters - 1 } }

def changeMonsterState (s : SyncedMonsterAI) (monsterId : UInt32) (newState : MonsterAIState)
    (now : ℚ) : SyncedMonsterAI :=
  match s.getMonster monsterId with
  | none => s
  | some monster =>
    if monster.currentState = newState then s
    else
      let s := s.setMonster monsterId { monster with
        previousState := monster.currentState, currentState := newState
        lastStateChange := now, needsSync := true }
      if newState = .aggressive ∨ newState = .attacking then
        { s with stats := { s.stats with aggressiveMonsters := s.stats.aggressiveMonsters + 1 } }
      else s

def setMonsterTarget (s : SyncedMonsterAI) (monsterId playerId : UInt32) : SyncedMonsterAI :=
  s.modifyMonster monsterId fun monster =>
    { monster with targetPlayerId := playerId, needsSync := true }

def clearMonsterTarget (s : SyncedMonsterAI) (monsterId : UInt32) : SyncedMonsterAI :=
  s.modifyMonster monsterId fun monster => { monster with targetPlayerId := 0, needsSync := true }

/-- The conflict is logged, and neither side's data is taken. -/
def resolveSyncConflict (s : SyncedMonsterAI) (_monsterId : UInt32)
    (_localData _remoteData : MonsterAIData) : SyncedMonsterAI := s

def synchronizeMonster (s : SyncedMonsterAI) (monsterId : UInt32) (syncData : MonsterAIData)
    (now : ℚ) : SyncedMonsterAI :=
  match s.getMonster monsterId with
  | none => s
  | some monster =>
    if monster.syncOwner ≠ syncData.syncOwner ∧ monster.needsSync then
      let s := s.resolveSyncConflict monsterId monster syncData
      { s with stats := { s.stats with syncConflicts := s.stats.syncConflicts + 1 } }
    else s.setMonster monsterId { syncData with lastSyncTime := now }

def processMonsterUpdate (s : SyncedMonsterAI) (syncData : MonsterAIData) (now : ℚ) :
    SyncedMonsterAI := s.synchronizeMonster syncData.monsterId syncData now

def setSyncOwner (s : SyncedMonsterAI) (monsterId playerId : UInt32) : SyncedMonsterAI :=
  s.modifyMonster monsterId fun monster => { monster with syncOwner := playerId, needsSync := true }

def getMonsterGroup (s : SyncedMonsterAI) (groupId : UInt32) : Option MonsterGroup :=
  s.groups.find? groupId

def setMonsterGroup (s : SyncedMonsterAI) (groupId : UInt32) (group : MonsterGroup) :
    SyncedMonsterAI :=
  { s with groups := s.groups.insert groupId group }

def createMonsterGroup (s : SyncedMonsterAI) (name : String) (pattern : BehaviorPattern) :
    SyncedMonsterAI × UInt32 :=
  let groupId := s.nextGroupId
  let s := { s with nextGroupId := s.nextGroupId + 1 }
  let s := s.setMonsterGroup groupId { groupId := groupId, name := name, groupPattern := pattern }
  ({ s with stats := { s.stats with totalGroups := s.stats.totalGroups + 1 } }, groupId)

def addMonsterToGroup (s : SyncedMonsterAI) (groupId monsterId : UInt32) : SyncedMonsterAI :=
  match s.getMonsterGroup groupId, s.getMonster monsterId with
  | some group, some _ => s.setMonsterGroup groupId { group with
      members := group.members ++ [monsterId]
      leader := if group.leader = 0 then monsterId else group.leader }
  | _, _ => s

def removeMonsterFromGroup (s : SyncedMonsterAI) (groupId monsterId : UInt32) : SyncedMonsterAI :=
  match s.getMonsterGroup groupId with
  | none => s
  | some group => s.setMonsterGroup groupId (group.without monsterId)

def updateGroupBehavior (s : SyncedMonsterAI) (groupId : UInt32) : SyncedMonsterAI :=
  match s.getMonsterGroup groupId with
  | none => s
  | some group =>
    if ¬ group.isActive then s
    else
      let center := group.members.foldl (fun (center : Vector4F) monsterId =>
        match s.getMonster monsterId with
        | none => center
        | some monster => { center with
            x := center.x + monster.position.x
            y := center.y + monster.position.y
            z := center.z + monster.position.z }) { w := 1 }
      let n : ℚ := group.members.length
      let center := if group.members = [] then center
        else { center with x := center.x / n, y := center.y / n, z := center.z / n }
      s.setMonsterGroup groupId { group with groupCenter := center }

/-- The coordination of a pack is left open. -/
def processGroupBehavior (s : SyncedMonsterAI) (groupId : UInt32) : SyncedMonsterAI :=
  match s.getMonsterGroup groupId with
  | none => s
  | some group => if ¬ group.isActive then s else s.updateGroupBehavior groupId

section Distances
variable (sqrt : ℚ → ℚ)

def calculateDistance (a b : Vector4F) : ℚ :=
  let dx := a.x - b.x
  let dy := a.y - b.y
  let dz := a.z - b.z
  sqrt (dx * dx + dy * dy + dz * dz)

def calculateDirection (start goal : Vector4F) : Vector4F :=
  let direction : Vector4F := { x := goal.x - start.x, y := goal.y - start.y, z := goal.z - start.z }
  let length := sqrt (direction.x * direction.x + direction.y * direction.y + direction.z * direction.z)
  if length > 0 then
    { direction with x := direction.x / length, y := direction.y / length, z := direction.z / length }
  else direction

def isInRange (position target : Vector4F) (range : ℚ) : Bool :=
  calculateDistance sqrt position target ≤ range

end Distances

def processIdleState (s : SyncedMonsterAI) (monsterId : UInt32) : SyncedMonsterAI :=
  s.modifyMonster monsterId fun monster => { monster with velocity := {} }

def approach (sqrt : ℚ → ℚ) (monster : MonsterAIData) : MonsterAIData :=
  let direction := calculateDirection sqrt monster.position monster.targetPosition
  { monster with velocity := { monster.velocity with
      x := direction.x * monster.speed
      y := direction.y * monster.speed
      z := direction.z * monster.speed } }

def processPatrollingState (sqrt : ℚ → ℚ) (s : SyncedMonsterAI) (monsterId : UInt32) :
    SyncedMonsterAI := s.modifyMonster monsterId (approach sqrt)

def processAlertState (s : SyncedMonsterAI) (monsterId : UInt32) (now : ℚ) : SyncedMonsterAI :=
  match s.getMonster monsterId with
  | none => s
  | some monster =>
    if monster.threatList = [] then s else s.changeMonsterState monsterId .aggressive now

def processAggressiveState (sqrt : ℚ → ℚ) (s : SyncedMonsterAI) (monsterId : UInt32) (now : ℚ) :
    SyncedMonsterAI :=
  match s.getMonster monsterId with
  | none => s
  | some monster =>
    if monster.targetPlayerId = 0 then s
    else
      let s := s.setMonster monsterId (approach sqrt monster)
      if isInRange sqrt monster.position monster.targetPosition monster.attackRange then
        s.changeMonsterState monsterId .attacking now
      else s

def processAttackingState (s : SyncedMonsterAI) (monsterId : UInt32) (now : ℚ) : SyncedMonsterAI :=
  s.modifyMonster monsterId fun monster =>
    if now - monster.lastAttackTime ≥ 1 then { monster with lastAttackTime := now } else monster

def processStunnedState (s : SyncedMonsterAI) (monsterId : UInt32) : SyncedMonsterAI :=
  s.modifyMonster monsterId fun monster => { monster with velocity := {} }

def processFleeingState (s : SyncedMonsterAI) (monsterId : UInt32) : SyncedMonsterAI :=
  s.modifyMonster monsterId fun monster =>
    if monster.threatList = [] then monster
    else { monster with velocity := { monster.velocity with x := monster.speed, y := 0, z := 0 } }

def evaluateIdleOptions (nearbyPlayers : List UInt32) : AIDecision :=
  if nearbyPlayers = [] then {} else { newState := .alert, priority := 4 / 5 }

def evaluateCombatOptions : List UInt32 → AIDecision
  | [] => {}
  | playerId :: _ => { newState := .attacking, targetPlayerId := playerId, priority := 1 }

def evaluateEscapeOptions (_nearbyPlayers : List UInt32) : AIDecision :=
  { newState := .fleeing, priority := 9 / 10 }

def bestDecision (nearbyPlayers : List UInt32) : MonsterAIState → AIDecision
  | .idle | .patrolling => evaluateIdleOptions nearbyPlayers
  | .alert | .aggressive | .attacking => evaluateCombatOptions nearbyPlayers
  | .fleeing => evaluateEscapeOptions nearbyPlayers
  | .stunned | .dead => {}

def makeDecision (s : SyncedMonsterAI) (monsterId : UInt32) (nearbyPlayers : List UInt32) :
    SyncedMonsterAI × AIDecision :=
  match s.getMonster monsterId with
  | none => (s, {})
  | some monster =>
    ({ s with stats := { s.stats with totalDecisions := s.stats.totalDecisions + 1 } },
      bestDecision nearbyPlayers monster.currentState)

def nearbyPlayers (sqrt : ℚ → ℚ) (s : SyncedMonsterAI) (monster : MonsterAIData) : List UInt32 :=
  if isInRange sqrt monster.position { w := 1 } monster.detectionRange then
    s.playerThreats.entries.map Prod.fst
  else []

def processState (sqrt : ℚ → ℚ) (s : SyncedMonsterAI) (monsterId : UInt32) (now : ℚ) :
    MonsterAIState → SyncedMonsterAI
  | .idle => s.processIdleState monsterId
  | .patrolling => s.processPatrollingState sqrt monsterId
  | .alert => s.processAlertState monsterId now
  | .aggressive => s.processAggressiveState sqrt monsterId now
  | .attacking => s.processAttackingState monsterId now
  | .stunned => s.processStunnedState monsterId
  | .fleeing => s.processFleeingState monsterId
  | .dead => s

def applyDecision (s : SyncedMonsterAI) (monsterId : UInt32) (decision : AIDecision) (now : ℚ) :
    SyncedMonsterAI :=
  if decision.priority > 0 then
    let s := s.changeMonsterState monsterId decision.newState now
    let s := if decision.targetPlayerId = 0 then s
      else s.setMonsterTarget monsterId decision.targetPlayerId
    s.modifyMonster monsterId fun monster =>
      { monster with targetPosition := decision.targetPosition }
  else s

def processMonsterAI (sqrt : ℚ → ℚ) (s : SyncedMonsterAI) (monsterId : UInt32) (now : ℚ) :
    SyncedMonsterAI :=
  match s.getMonster monsterId with
  | none => s
  | some monster =>
    if monster.currentState = .dead then s
    else
      let nearby := s.nearbyPlayers sqrt monster
      let s := s.processState sqrt monsterId now monster.currentState
      if (s.getMonster monsterId).any MonsterAIData.needsSync then
        let (s, decision) := s.makeDecision monsterId nearby
        s.applyDecision monsterId decision now
      else s

def bury (s : SyncedMonsterAI) (monsterId : UInt32) : SyncedMonsterAI :=
  let s := s.groups.entries.foldl (fun s e => s.removeMonsterFromGroup e.1 monsterId) s
  { s with
    monsters := s.monsters.erase monsterId
    stats := { s.stats with activeMonsters := s.stats.activeMonsters - 1 } }

def cleanupDeadMonsters (s : SyncedMonsterAI) : SyncedMonsterAI :=
  s.monsters.entries.foldl (fun s e => if e.2.currentState = .dead then s.bury e.1 else s) s

def updateAI (sqrt : ℚ → ℚ) (s : SyncedMonsterAI) (now : ℚ) : SyncedMonsterAI :=
  if ¬ s.initialized then s else
  let s := s.monsters.entries.foldl (fun s e => s.processMonsterAI sqrt e.1 now) s
  let s := if s.groupBehaviorEnabled then
      s.groups.entries.foldl (fun s e => s.processGroupBehavior e.1) s
    else s
  s.cleanupDeadMonsters

def noticePlayer (sqrt : ℚ → ℚ) (playerId : UInt32) (position : Vector4F) (now : ℚ)
    (s : SyncedMonsterAI) (monsterId : UInt32) : SyncedMonsterAI :=
  match s.getMonster monsterId with
  | none => s
  | some monster =>
    if isInRange sqrt monster.position position monster.detectionRange then
      let s := s.setMonster monsterId { monster with
        threatList := if monster.threatList.contains playerId then monster.threatList
          else monster.threatList ++ [playerId] }
      if monster.currentState = .idle ∨ monster.currentState = .patrolling then
        s.changeMonsterState monsterId .alert now
      else s
    else s

def forgetPlayer (playerId : UInt32) (s : SyncedMonsterAI) (monsterId : UInt32) : SyncedMonsterAI :=
  match s.getMonster monsterId with
  | none => s
  | some monster =>
    let s := s.setMonster monsterId { monster with threatList := monster.threatList.erase playerId }
    if monster.targetPlayerId = playerId then s.clearMonsterTarget monsterId else s

def onPlayerEnterRange (sqrt : ℚ → ℚ) (s : SyncedMonsterAI) (playerId : UInt32)
    (position : Vector4F) (now : ℚ) : SyncedMonsterAI :=
  s.monsters.entries.foldl (fun s e => s.noticePlayer sqrt playerId position now e.1) s

def onPlayerLeaveRange (s : SyncedMonsterAI) (playerId : UInt32) (_position : Vector4F) :
    SyncedMonsterAI :=
  s.monsters.entries.foldl (fun s e => s.forgetPlayer playerId e.1) s

def onPlayerAttack (s : SyncedMonsterAI) (playerId monsterId : UInt32) (damage now : ℚ) :
    SyncedMonsterAI × Bool :=
  match s.getMonster monsterId with
  | none => (s, false)
  | some monster =>
    let health := max 0 (monster.health - damage)
    let s := s.setMonster monsterId { monster with
      health := health
      threatList := if monster.threatList.contains playerId then monster.threatList
        else monster.threatList ++ [playerId] }
    let s := s.setMonsterTarget monsterId playerId
    let s := if monster.currentState = .idle ∨ monster.currentState = .patrolling then
        s.changeMonsterState monsterId .aggressive now
      else s
    if health ≤ 0 then (s.changeMonsterState monsterId .dead now, true) else (s, false)

def onPlayerDeath (s : SyncedMonsterAI) (playerId : UInt32) : SyncedMonsterAI :=
  s.monsters.entries.foldl (fun s e => s.forgetPlayer playerId e.1) s

def enableGroupBehavior (s : SyncedMonsterAI) (enable : Bool) : SyncedMonsterAI :=
  { s with groupBehaviorEnabled := enable }

def initializeAI (s : SyncedMonsterAI) : SyncedMonsterAI := { s with initialized := true }

def shutdown (s : SyncedMonsterAI) : SyncedMonsterAI :=
  if ¬ s.initialized then s
  else { s with monsters := .empty, groups := .empty, playerThreats := .empty, initialized := false }

inductive MonsterOp
  | initializeAI
  | shutdown
  | addMonster (monsterData : MonsterAIData) (now : ℚ)
  | removeMonster (monsterId : UInt32)
  | updateAI (now : ℚ)
  | processMonsterAI (monsterId : UInt32) (now : ℚ)
  | makeDecision (monsterId : UInt32) (nearbyPlayers : List UInt32)
  | changeMonsterState (monsterId : UInt32) (newState : MonsterAIState) (now : ℚ)
  | setMonsterTarget (monsterId playerId : UInt32)
  | clearMonsterTarget (monsterId : UInt32)
  | synchronizeMonster (monsterId : UInt32) (syncData : MonsterAIData) (now : ℚ)
  | processMonsterUpdate (syncData : MonsterAIData) (now : ℚ)
  | setSyncOwner (monsterId playerId : UInt32)
  | createMonsterGroup (name : String) (pattern : BehaviorPattern)
  | addMonsterToGroup (groupId monsterId : UInt32)
  | removeMonsterFromGroup (groupId monsterId : UInt32)
  | updateGroupBehavior (groupId : UInt32)
  | onPlayerEnterRange (playerId : UInt32) (position : Vector4F) (now : ℚ)
  | onPlayerLeaveRange (playerId : UInt32) (position : Vector4F)
  | onPlayerAttack (playerId monsterId : UInt32) (damage now : ℚ)
  | onPlayerDeath (playerId : UInt32)
  | enableGroupBehavior (enable : Bool)

def monsterStep (sqrt : ℚ → ℚ) (s : SyncedMonsterAI) : MonsterOp → SyncedMonsterAI
  | .initializeAI => s.initializeAI
  | .shutdown => s.shutdown
  | .addMonster d now => s.addMonster d now
  | .removeMonster m => s.removeMonster m
  | .updateAI now => s.updateAI sqrt now
  | .processMonsterAI m now => s.processMonsterAI sqrt m now
  | .makeDecision m players => (s.makeDecision m players).1
  | .changeMonsterState m state now => s.changeMonsterState m state now
  | .setMonsterTarget m p => s.setMonsterTarget m p
  | .clearMonsterTarget m => s.clearMonsterTarget m
  | .synchronizeMonster m d now => s.synchronizeMonster m d now
  | .processMonsterUpdate d now => s.processMonsterUpdate d now
  | .setSyncOwner m p => s.setSyncOwner m p
  | .createMonsterGroup name pattern => (s.createMonsterGroup name pattern).1
  | .addMonsterToGroup g m => s.addMonsterToGroup g m
  | .removeMonsterFromGroup g m => s.removeMonsterFromGroup g m
  | .updateGroupBehavior g => s.updateGroupBehavior g
  | .onPlayerEnterRange p position now => s.onPlayerEnterRange sqrt p position now
  | .onPlayerLeaveRange p position => s.onPlayerLeaveRange p position
  | .onPlayerAttack p m damage now => (s.onPlayerAttack p m damage now).1
  | .onPlayerDeath p => s.onPlayerDeath p
  | .enableGroupBehavior enable => s.enableGroupBehavior enable

end SyncedMonsterAI
end WitcherMP.Monsters
