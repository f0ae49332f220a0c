import WitcherMP.Compression.Defs
import WitcherMP.Lib.OrdMap
import WitcherMP.Messages.Queue

/-! Smart batching: messages wait until one of four strategies, or a flush, moves them into a
batch. Readings of the clock are a parameter, and floats are exact; the callbacks only observe. -/

namespace WitcherMP.Batching

open Compression Messages

inductive BatchType
  | interval | size | priority | mixed
deriving DecidableEq

structure BatchConfig where
  type : BatchType := .interval
  intervalMs : ℚ := 100
  maxSize : ℕ := 1024
  maxMessages : ℕ := 50
  enableCompression : Bool := true
  maxWaitTime : ℚ := 500
  minIntervalMs : ℚ := 16
  maxIntervalMs : ℚ := 200
  congestionThreshold : ℚ := 4 / 5
  adaptationSpeed : ℚ := 1 / 10

structure BatchedMessage [Inhabited MessageTypes] where
  batchId : UInt32 := 0
  messages : List (PrioritizedMessage MessageTypes) := []
  timestamp : ℚ := 0
  totalSize : ℕ := 0
  highestPriority : MessagePriority := .background
  highestUrgency : MessageUrgency := .batch
  isCompressed : Bool := false

structure BatchStats where
  totalBatches : UInt32 := 0
  totalMessages : UInt32 := 0
  compressedBatches : UInt32 := 0
  droppedBatches : UInt32 := 0
  totalBytes : ℕ := 0
  compressedBytes : ℕ := 0
  averageBatchSize : ℚ := 0
  averageBatchTime : ℚ := 0
  compressionRatio : ℚ := 0

structure SmartBatching [Inhabited MessageTypes] where
  initialized : Bool
  config : BatchConfig
  stats : BatchStats := {}
  pendingMessages : List (PrioritizedMessage MessageTypes) := []
  readyBatches : List BatchedMessage := []
  accumulatedTime : ℚ := 0
  currentInterval : ℚ
  networkCongestion : ℚ := 0
  networkLatency : ℚ := 0
  adaptiveBatchingEnabled : Bool := true
  lastAdaptationTime : ℚ
  nextBatchId : UInt32 := 1
  reads : ℕ := 0

/-- The sum of the sizes as the code takes it: in a signed 32-bit accumulator. -/
def accumulateSizes {T : Type} [Inhabited T] (messages : List (PrioritizedMessage T)) : ℤ :=
  messages.foldl (fun sum m => (sum + m.data.length).bmod (2 ^ 32)) 0

/-- Its comparison with a size converts it to an unsigned 64-bit number. -/
def reachesSize {T : Type} [Inhabited T] (messages : List (PrioritizedMessage T)) (maxSize : ℕ) :
    Bool :=
  accumulateSizes messages % 2 ^ 64 ≥ maxSize

def takeFitting {T : Type} [Inhabited T] (maxSize maxMessages : ℕ) :
    ℕ → ℕ → List (PrioritizedMessage T) → List (PrioritizedMessage T) × List (PrioritizedMessage T)
  | currentSize, count, m :: ms =>
    if currentSize + m.data.length ≤ maxSize ∧ count < maxMessages then
      let r := takeFitting maxSize maxMessages (currentSize + m.data.length) (count + 1) ms
      (m :: r.1, r.2)
    else ([], m :: ms)
  | _, _, [] => ([], [])

def groupByPriority {T : Type} [Inhabited T] (messages : List (PrioritizedMessage T)) :
    List (List (PrioritizedMessage T)) :=
  let groups := messages.foldl (fun (groups : OrdMap ℕ (List (PrioritizedMessage T))) m =>
    let priority := m.classification.priority.value
    groups.insert priority (groups.getD priority [] ++ [m])) OrdMap.empty
  groups.entries.map Prod.snd

namespace SmartBatching
variable [Inhabited MessageTypes]

def initial (config : BatchConfig) (now : ℚ) : SmartBatching where
  initialized := true
  config := config
  currentInterval := config.intervalMs
  lastAdaptationTime := now

def shouldCreateBatch (b : SmartBatching) : Bool :=
  if b.pendingMessages = [] then false
  else match b.config.type with
    | .interval => b.accumulatedTime ≥ b.currentInterval
    | .size => reachesSize b.pendingMessages b.config.maxSize
    | .priority => true
    | .mixed => b.accumulatedTime ≥ b.currentInterval ||
        reachesSize b.pendingMessages b.config.maxSize

def updateStatistics (b : SmartBatching) (batch : BatchedMessage) : SmartBatching :=
  let totalBatches := b.stats.totalBatches + 1
  let totalBytes := b.stats.totalBytes + batch.totalSize
  let compressedBytes := b.stats.compressedBytes + if batch.isCompressed then batch.totalSize else 0
  { b with stats := { b.stats with
      totalBatches := totalBatches
      totalMessages := b.stats.totalMessages + .ofNat batch.messages.length
      totalBytes := totalBytes
      compressedBatches := b.stats.compressedBatches + if batch.isCompressed then 1 else 0
      compressedBytes := compressedBytes
      averageBatchSize := totalBytes / totalBatches.toNat
      averageBatchTime := b.currentInterval
      compressionRatio :=
        if compressedBytes > 0 then compressedBytes / totalBytes else b.stats.compressionRatio } }

section Clock
variable (dc : DataCompression) (clock : ℕ → ℚ)

def batchData (messages : List (PrioritizedMessage MessageTypes)) : List UInt8 :=
  messages.flatMap fun m => Bytes.le32 m.data.length ++ m.data

def compressBatch (batch : BatchedMessage) : BatchedMessage :=
  let data := batchData batch.messages
  let compressedData := dc.compress data .lz4 .balanced
  if compressedData.length < data.length then
    { batch with
      messages := [{
        messageId := batch.batchId
        type := .batchMessage
        data := compressedData
        classification := { priority := batch.highestPriority, urgency := batch.highestUrgency } }]
      isCompressed := true
      totalSize := compressedData.length }
  else batch

def createBatch (b : SmartBatching) (messages : List (PrioritizedMessage MessageTypes)) :
    BatchedMessage × SmartBatching :=
  let batch : BatchedMessage := {
    batchId := b.nextBatchId
    messages := messages
    timestamp := clock b.reads
    totalSize := (messages.map fun m => m.data.length).sum
    highestPriority := messages.foldl (fun p m =>
      if m.classification.priority.value < p.value then m.classification.priority else p) .background
    highestUrgency := messages.foldl (fun u m =>
      if m.classification.urgency.value < u.value then m.classification.urgency else u) .batch }
  let batch := if b.config.enableCompression then compressBatch dc batch else batch
  (batch, updateStatistics { b with nextBatchId := b.nextBatchId + 1, reads := b.reads + 1 } batch)

def pushBatch (b : SmartBatching) (messages : List (PrioritizedMessage MessageTypes)) :
    SmartBatching :=
  let r := createBatch dc clock b messages
  { r.2 with readyBatches := r.2.readyBatches ++ [r.1] }

def processIntervalBatching (b : SmartBatching) : SmartBatching :=
  if b.accumulatedTime ≥ b.currentInterval then
    let b :=
      -- the whole queue goes into one batch, whatever the limits
      if b.pendingMessages = [] then b
      else { pushBatch dc clock b b.pendingMessages with pendingMessages := [] }
    { b with accumulatedTime := 0 }
  else b

def processSizeBatching (b : SmartBatching) : SmartBatching :=
  let r := takeFitting b.config.maxSize b.config.maxMessages 0 0 b.pendingMessages
  let b := { b with pendingMessages := r.2 }
  if r.1 = [] then b else pushBatch dc clock b r.1

def processPriorityBatching (b : SmartBatching) : SmartBatching :=
  if b.pendingMessages = [] then b
  else
    let groups := groupByPriority b.pendingMessages
    let b := groups.foldl (fun b group => if group = [] then b else pushBatch dc clock b group) b
    { b with pendingMessages := [] }

def processMixedBatching (b : SmartBatching) : SmartBatching :=
  if b.accumulatedTime ≥ b.currentInterval ∨
      reachesSize b.pendingMessages b.config.maxSize then
    { processSizeBatching dc clock b with accumulatedTime := 0 }
  else b

def sortOut (maxWaitTime : ℚ) : ℕ → List BatchedMessage → List BatchedMessage × List BatchedMessage
  | _, [] => ([], [])
  | reads, batch :: batches =>
    let age := (clock reads - batch.timestamp) * 1000
    let r := sortOut maxWaitTime (reads + 1) batches
    if age ≤ maxWaitTime then (batch :: r.1, r.2) else (r.1, batch :: r.2)

/-- The second result holds the batches handed to the callback for dropped ones. -/
def cleanupExpiredBatches (b : SmartBatching) : SmartBatching × List BatchedMessage :=
  let r := sortOut clock b.config.maxWaitTime b.reads b.readyBatches
  ({ b with
    readyBatches := r.1
    stats := { b.stats with droppedBatches := b.stats.droppedBatches + .ofNat r.2.length }
    reads := b.reads + b.readyBatches.length }, r.2)

def processBatches (b : SmartBatching) (deltaTime : ℚ) : SmartBatching × List BatchedMessage :=
  if ¬ b.initialized ∨ b.pendingMessages = [] then (b, [])
  else
    let b := { b with accumulatedTime := b.accumulatedTime + deltaTime }
    cleanupExpiredBatches clock (match b.config.type with
      | .interval => processIntervalBatching dc clock b
      | .size => processSizeBatching dc clock b
      | .priority => processPriorityBatching dc clock b
      | .mixed => processMixedBatching dc clock b)

def addMessage (b : SmartBatching) (message : PrioritizedMessage MessageTypes) :
    SmartBatching × List BatchedMessage :=
  if ¬ b.initialized then (b, [])
  else
    let b := { b with pendingMessages := b.pendingMessages ++ [message] }
    if shouldCreateBatch b then processBatches dc clock b 0 else (b, [])

def getReadyBatches (b : SmartBatching) : List BatchedMessage × SmartBatching :=
  (b.readyBatches, { b with readyBatches := [] })

def forceFlush (b : SmartBatching) : SmartBatching :=
  if ¬ b.initialized ∨ b.pendingMessages = [] then b
  else { pushBatch dc clock b b.pendingMessages with pendingMessages := [] }

def clearBatches (b : SmartBatching) : SmartBatching :=
  { b with readyBatches := [], pendingMessages := [] }

/-- What is flushed is cleared at once, so that only the callback has seen it. -/
def shutdown (b : SmartBatching) : SmartBatching :=
  if ¬ b.initialized then b
  else { clearBatches (forceFlush dc clock b) with initialized := false }

end Clock

def initializeSystem (b : SmartBatching) (config : BatchConfig) : SmartBatching :=
  if b.initialized then b
  else { b with config := config, currentInterval := config.intervalMs, initialized := true }

def resetStats (b : SmartBatching) : SmartBatching := { b with stats := {} }

def setConfig (b : SmartBatching) (config : BatchConfig) : SmartBatching :=
  { b with config := config, currentInterval := config.intervalMs }

def setBatchType (b : SmartBatching) (type : BatchType) : SmartBatching :=
  { b with config := { b.config with type := type } }

def setInterval (b : SmartBatching) (intervalMs : ℚ) : SmartBatching :=
  { b with config := { b.config with intervalMs := intervalMs }, currentInterval := intervalMs }

def setMaxSize (b : SmartBatching) (maxSize : ℕ) : SmartBatching :=
  { b with config := { b.config with maxSize := maxSize } }

def setMaxMessages (b : SmartBatching) (maxMessages : ℕ) : SmartBatching :=
  { b with config := { b.config with maxMessages := maxMessages } }

def enableAdaptiveBatching (b : SmartBatching) (enable : Bool) : SmartBatching :=
  { b with adaptiveBatchingEnabled := enable }

def adjustIntervalBasedOnCongestion (b : SmartBatching) (congestionLevel : ℚ) : SmartBatching :=
  { b with currentInterval := b.currentInterval *
      if congestionLevel > b.config.congestionThreshold then 1 + b.config.adaptationSpeed
      else 1 - b.config.adaptationSpeed }

def adjustIntervalBasedOnLatency (b : SmartBatching) (latency : ℚ) : SmartBatching :=
  if latency > 100 then
    { b with currentInterval := b.currentInterval * (1 + b.config.adaptationSpeed / 2) }
  else if latency < 20 then
    { b with currentInterval := b.currentInterval * (1 - b.config.adaptationSpeed / 2) }
  else b

def calculateOptimalInterval (b : SmartBatching) : SmartBatching :=
  let b := adjustIntervalBasedOnCongestion b b.networkCongestion
  let b := adjustIntervalBasedOnLatency b b.networkLatency
  { b with
    currentInterval := max b.config.minIntervalMs (min b.config.maxIntervalMs b.currentInterval) }

def adjustBatchingParameters (clock : ℕ → ℚ) (b : SmartBatching) : SmartBatching :=
  let now := clock b.reads
  let b := { b with reads := b.reads + 1 }
  if now - b.lastAdaptationTime < 1 then b
  else { calculateOptimalInterval b with lastAdaptationTime := now }

def updateNetworkConditions (clock : ℕ → ℚ) (b : SmartBatching) (congestionLevel latency : ℚ) :
    SmartBatching :=
  let b := { b with networkCongestion := congestionLevel, networkLatency := latency }
  if b.adaptiveBatchingEnabled then adjustBatchingParameters clock b else b

inductive Op [Inhabited MessageTypes]
  | initializeSystem (config : BatchConfig)
  | shutdown
  | addMessage (message : PrioritizedMessage MessageTypes)
  | processBatches (deltaTime : ℚ)
  | forceFlush
  | getReadyBatches
  | clearBatches
  | resetStats
  | setConfig (config : BatchConfig)
  | setBatchType (type : BatchType)
  | setInterval (intervalMs : ℚ)
  | setMaxSize (maxSize : ℕ)
  | setMaxMessages (maxMessages : ℕ)
  | enableAdaptiveBatching (enable : Bool)
  | updateNetworkConditions (congestionLevel latency : ℚ)

end SmartBatching
end WitcherMP.Batching
