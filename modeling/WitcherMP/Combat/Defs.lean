import WitcherMP.Lib.Bytes
import WitcherMP.Lib.Run

/-! The combat optimizer: four queues of actions that are filled under caps, drained in batches
in the order of their priorities, and swept of what has grown too old. Times are in nanoseconds,
and the clock is read by the caller. A call that locks the mutex of the queues while it is held,
by another call or by itself, never returns: its result is `none`, and the state is left as far as
it got. Log lines are left out. -/

namespace WitcherMP.Combat
open Bytes

/-- Four floats by their bits: they are only passed on. -/
structure Vector4F where
  x : UInt32 := 0
  y : UInt32 := 0
  z : UInt32 := 0
  w : UInt32 := 0
deriving DecidableEq

inductive CombatActionType
  | attack | defense | sign | movement | animation
deriving DecidableEq

inductive CombatPriority
  | critical | high | medium | low
deriving DecidableEq

structure CombatAction where
  id : UInt32 := 0
  playerId : UInt32 := 0
  type : CombatActionType := .attack
  priority : CombatPriority := .medium
  timestamp : ℤ := 0
  data : List UInt8 := []
  processed : Bool := false
deriving DecidableEq

structure CombatStats where
  totalActions : UInt64 := 0
  processedActions : UInt64 := 0
  droppedActions : UInt64 := 0
  averageProcessingTime : UInt64 := 0
  peakProcessingTime : UInt64 := 0
deriving DecidableEq

structure CombatOptimizer where
  criticalQueue : List CombatAction := []
  highQueue : List CombatAction := []
  mediumQueue : List CombatAction := []
  lowQueue : List CombatAction := []
  initialized : Bool := false
  processing : Bool := false
  stats : CombatStats := {}
  maxQueueSize : UInt32 := 1000
  batchSize : UInt32 := 50
  maxProcessingTime : UInt32 := 16
  actionIdCounter : UInt32 := 1
  processingTimes : List UInt64 := []
  queueMutex : Bool := false
deriving DecidableEq

inductive BridgeCall
  | executeAttack (playerId attackType weaponType : UInt32) (targetPosition : Vector4F)
  | executeDefense (playerId defenseType incomingAttackId : UInt32)
  | castSign (playerId signType : UInt32) (targetPosition : Vector4F)
  | playAttackAnimation (playerId animationType : UInt32)
  | playDefenseAnimation (playerId animationType : UInt32)
deriving DecidableEq

def u32At (data : List UInt8) (offset : ℕ) : UInt32 := .ofNat (readLE32 (data.drop offset))

def vectorAt (data : List UInt8) (offset : ℕ) : Vector4F where
  x := u32At data offset
  y := u32At data (offset + 4)
  z := u32At data (offset + 8)
  w := u32At data (offset + 12)

def vectorBytes (v : Vector4F) : List UInt8 :=
  le32 v.x.toNat ++ le32 v.y.toNat ++ le32 v.z.toNat ++ le32 v.w.toNat

def poke (data : List UInt8) (offset : ℕ) (bytes : List UInt8) : List UInt8 :=
  data.take offset ++ bytes ++ data.drop (offset + bytes.length)

def attackData (attackType weaponType : UInt32) (targetPosition : Vector4F) : List UInt8 :=
  let data := List.replicate 28 0
  let data := poke data 0 (le32 attackType.toNat)
  let data := poke data 4 (le32 weaponType.toNat)
  let data := poke data 8 (vectorBytes targetPosition)
  -- the padding
  poke data 24 (le32 0)

def defenseData (defenseType incomingAttackId : UInt32) : List UInt8 :=
  let data := List.replicate 8 0
  let data := poke data 0 (le32 defenseType.toNat)
  poke data 4 (le32 incomingAttackId.toNat)

def signData (signType : UInt32) (targetPosition : Vector4F) : List UInt8 :=
  let data := List.replicate 20 0
  let data := poke data 0 (le32 signType.toNat)
  poke data 4 (vectorBytes targetPosition)

def movementData (newPosition velocity : Vector4F) : List UInt8 :=
  let data := List.replicate 32 0
  let data := poke data 0 (vectorBytes newPosition)
  poke data 16 (vectorBytes velocity)

def animationData (animationType : UInt32) (isAttack : Bool) : List UInt8 :=
  let data := List.replicate 5 0
  let data := poke data 0 (le32 animationType.toNat)
  poke data 4 [if isAttack then 1 else 0]

/-- What is asked of the game for an action, if its data is long enough. A movement asks for
nothing. -/
def bridgeCall (action : CombatAction) : Option BridgeCall :=
  match action.type with
  | .attack =>
    if action.data.length ≥ 28 then
      some (.executeAttack action.playerId (u32At action.data 0) (u32At action.data 4)
        (vectorAt action.data 8))
    else none
  | .defense =>
    if action.data.length ≥ 8 then
      some (.executeDefense action.playerId (u32At action.data 0) (u32At action.data 4))
    else none
  | .sign =>
    if action.data.length ≥ 20 then
      some (.castSign action.playerId (u32At action.data 0) (vectorAt action.data 4))
    else none
  | .movement => none
  | .animation =>
    if action.data.length ≥ 5 then
      if action.data.getD 4 0 ≠ 0 then
        some (.playAttackAnimation action.playerId (u32At action.data 0))
      else some (.playDefenseAnimation action.playerId (u32At action.data 0))
    else none

namespace CombatOptimizer

def queue (s : CombatOptimizer) : CombatPriority → List CombatAction
  | .critical => s.criticalQueue
  | .high => s.highQueue
  | .medium => s.mediumQueue
  | .low => s.lowQueue

def setQueue (s : CombatOptimizer) (priority : CombatPriority) (queue : List CombatAction) :
    CombatOptimizer :=
  match priority with
  | .critical => { s with criticalQueue := queue }
  | .high => { s with highQueue := queue }
  | .medium => { s with mediumQueue := queue }
  | .low => { s with lowQueue := queue }

def lock (s : CombatOptimizer) : Option CombatOptimizer :=
  if s.queueMutex then none else some { s with queueMutex := true }

def unlock (s : CombatOptimizer) : CombatOptimizer := { s with queueMutex := false }

def totalSize (s : CombatOptimizer) : ℕ :=
  s.criticalQueue.length + s.highQueue.length + s.mediumQueue.length + s.lowQueue.length

def getTotalQueueSize (s : CombatOptimizer) : Option ℕ := s.lock.map totalSize

/-- More than 0.8 or 0.9 of the size in total: the floating product is off by less than the
distance of an integer that is not equal to it. -/
def shouldDropAction (s : CombatOptimizer) (priority : CombatPriority) : Option Bool :=
  s.getTotalQueueSize.map fun totalSize =>
    match priority with
    | .low => 5 * totalSize > 4 * s.maxQueueSize.toNat
    | .medium => 10 * totalSize > 9 * s.maxQueueSize.toNat
    | .critical | .high => false

def capacity (s : CombatOptimizer) : CombatPriority → ℕ
  | .critical | .high | .low => s.maxQueueSize.toNat / 4
  | .medium => s.maxQueueSize.toNat / 2

def drop (s : CombatOptimizer) : CombatOptimizer :=
  { s with stats := { s.stats with droppedActions := s.stats.droppedActions + 1 } }

def accept (s : CombatOptimizer) (action : CombatAction) : CombatOptimizer :=
  let s := s.setQueue action.priority (s.queue action.priority ++ [action])
  { s with stats := { s.stats with totalActions := s.stats.totalActions + 1 } }

/-- The total is asked for, and its mutex locked, under the lock of the call. -/
def addAction (s : CombatOptimizer) (action : CombatAction) : CombatOptimizer × Option Bool :=
  if ¬ s.initialized then (s, some false)
  else
    match s.lock with
    | none => (s, none)
    | some s =>
      match s.shouldDropAction action.priority with
      | none => (s, none)
      | some true => (s.drop.unlock, some false)
      | some false =>
        if (s.queue action.priority).length < s.capacity action.priority then
          ((s.accept action).unlock, some true)
        else (s.drop.unlock, some false)

def determinePriority : CombatActionType → CombatPriority
  | .attack => .high
  | .defense => .critical
  | .sign => .high
  | .movement => .low
  | .animation => .medium

def addNewAction (s : CombatOptimizer) (playerId : UInt32) (type : CombatActionType)
    (data : List UInt8) (now : ℤ) : CombatOptimizer × Option Bool :=
  let id := s.actionIdCounter
  let s := { s with actionIdCounter := s.actionIdCounter + 1 }
  s.addAction { id := id, playerId := playerId, type := type, priority := determinePriority type,
                timestamp := now, data := data, processed := false }

def addAttackAction (s : CombatOptimizer) (playerId attackType weaponType : UInt32)
    (targetPosition : Vector4F) (now : ℤ) : CombatOptimizer × Option Bool :=
  s.addNewAction playerId .attack (attackData attackType weaponType targetPosition) now

def addDefenseAction (s : CombatOptimizer) (playerId defenseType incomingAttackId : UInt32) (now : ℤ) :
    CombatOptimizer × Option Bool :=
  s.addNewAction playerId .defense (defenseData defenseType incomingAttackId) now

def addSignAction (s : CombatOptimizer) (playerId signType : UInt32) (targetPosition : Vector4F)
    (now : ℤ) : CombatOptimizer × Option Bool :=
  s.addNewAction playerId .sign (signData signType targetPosition) now

def addMovementAction (s : CombatOptimizer) (playerId : UInt32) (newPosition velocity : Vector4F)
    (now : ℤ) : CombatOptimizer × Option Bool :=
  s.addNewAction playerId .movement (movementData newPosition velocity) now

def addAnimationAction (s : CombatOptimizer) (playerId animationType : UInt32) (isAttack : Bool)
    (now : ℤ) : CombatOptimizer × Option Bool :=
  s.addNewAction playerId .animation (animationData animationType isAttack) now

def processAction (s : CombatOptimizer) (action : CombatAction) : CombatOptimizer × Option BridgeCall :=
  ({ s with stats := { s.stats with processedActions := s.stats.processedActions + 1 } },
    bridgeCall action)

/-- The actions of a batch that are not marked as processed, one after the other. With the state,
the actions that were processed, each with its call. -/
def processBatch (s : CombatOptimizer) :
    List CombatAction → CombatOptimizer × List (CombatAction × Option BridgeCall)
  | [] => (s, [])
  | action :: batch =>
    if ¬ action.processed then
      let (s, call) := s.processAction action
      let (s, handled) := s.processBatch batch
      (s, (action, call) :: handled)
    else s.processBatch batch

def processActionQueue (s : CombatOptimizer) (priority : CombatPriority) :
    CombatOptimizer × List (CombatAction × Option BridgeCall) :=
  if s.queue priority = [] then (s, [])
  else
    let batchSize := min s.batchSize.toNat (s.queue priority).length
    let queue := s.queue priority
    let (s, handled) := s.processBatch (queue.take batchSize)
    (s.setQueue priority (queue.drop batchSize), handled)

def maxAge : ℤ := 5000000000

def cleanupQueue (now : ℤ) (queue : List CombatAction) : List CombatAction :=
  queue.filter fun action => ¬ now - action.timestamp > maxAge

def cleanupOldActions (s : CombatOptimizer) (now : ℤ) : Option CombatOptimizer :=
  s.lock.map fun s =>
    { s with
      criticalQueue := cleanupQueue now s.criticalQueue
      highQueue := cleanupQueue now s.highQueue
      mediumQueue := cleanupQueue now s.mediumQueue
      lowQueue := cleanupQueue now s.lowQueue }.unlock

def updateStatistics (s : CombatOptimizer) (processingTime : UInt64) : CombatOptimizer :=
  let times := s.processingTimes ++ [processingTime]
  let times := if times.length > 100 then times.tail else times
  { s with
    processingTimes := times
    stats := { s.stats with
      averageProcessingTime := times.foldl (· + ·) 0 / .ofNat times.length
      peakProcessingTime := if processingTime > s.stats.peakProcessingTime then processingTime
        else s.stats.peakProcessingTime } }

def processQueues (s : CombatOptimizer) :
    CombatOptimizer × List (CombatAction × Option BridgeCall) :=
  let (s, critical) := s.processActionQueue .critical
  let (s, high) := s.processActionQueue .high
  let (s, medium) := s.processActionQueue .medium
  let (s, low) := s.processActionQueue .low
  (s, critical ++ high ++ medium ++ low)

def processActions (s : CombatOptimizer) (startTime now endTime : ℤ) :
    CombatOptimizer × Option Bool × List (CombatAction × Option BridgeCall) :=
  if ¬ s.initialized ∨ s.processing then (s, some false, [])
  else
    let (s, handled) := { s with processing := true }.processQueues
    match s.cleanupOldActions now with
    | none => (s, none, handled)
    | some s =>
      let s := s.updateStatistics (.ofInt ((endTime - startTime).tdiv 1000000))
      ({ s with processing := false }, some true, handled)

inductive CombatOp
  | addAction (action : CombatAction)
  | processActions (startTime now endTime : ℤ)

/-- A call that never returns has a thread of its own, and others go on. -/
def combatStep (s : CombatOptimizer) : CombatOp → CombatOptimizer
  | .addAction action => (s.addAction action).1
  | .processActions startTime now endTime => (s.processActions startTime now endTime).1

end CombatOptimizer
end WitcherMP.Combat
