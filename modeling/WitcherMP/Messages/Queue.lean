import WitcherMP.Lib.Bag
import Mathlib.Algebra.Order.Field.Rat

/-! The priority queue of messages. It does not look at the type tags `T`, whose default is
the invalid tag; readings of the clock are a parameter, and floats are exact. -/

namespace WitcherMP.Messages

/-- The tags the messages carry: any 32-bit value converts to one. The value of the invalid
tag is not given in the source. -/
structure MessageTypes where
  value : UInt32
deriving DecidableEq

def MessageTypes.batchMessage : MessageTypes := ⟨302⟩

inductive MessagePriority
  | critical | high | medium | low | background
deriving DecidableEq

inductive MessageUrgency
  | immediate | urgent | normal | low | batch
deriving DecidableEq

def MessagePriority.value : MessagePriority → ℕ
  | critical => 0
  | high => 1
  | medium => 2
  | low => 3
  | background => 4

def MessageUrgency.value : MessageUrgency → ℕ
  | immediate => 0
  | urgent => 1
  | normal => 2
  | low => 3
  | batch => 4

structure MessageClassification where
  priority : MessagePriority := .medium
  urgency : MessageUrgency := .normal
  importance : ℚ := 1 / 2
  timeToLive : ℚ := 1
  requiresAck : Bool := false
  canBeDropped : Bool := true
  canBeCompressed : Bool := true
  maxRetries : ℕ := 3
deriving DecidableEq

structure PrioritizedMessage (T : Type) [Inhabited T] where
  messageId : UInt32 := 0
  type : T := default
  data : List UInt8 := []
  classification : MessageClassification := {}
  timestamp : ℚ := 0
  retryCount : UInt32 := 0
  age : ℚ := 0
deriving DecidableEq

structure QueueStats where
  totalMessages : ℕ := 0
  messagesByPriority : MessagePriority → ℕ := fun _ => 0
  messagesByUrgency : MessageUrgency → ℕ := fun _ => 0
  expiredMessages : ℕ := 0
  droppedMessages : ℕ := 0
  averageQueueTime : ℚ := 0
  maxQueueTime : ℚ := 0

/-- The queue; `reads` counts the clock readings taken so far. -/
structure MessagePriorityQueue (Q : Type) where
  messageQueue : Q
  stats : QueueStats
  maxQueueSize : ℕ
  reads : ℕ

namespace MessagePriorityQueue
variable {T : Type} [Inhabited T] {Q : Type} [BagQueue (PrioritizedMessage T) Q]

/-- The order the underlying queue is built with: the message that comes later. -/
def messageComparator (a b : PrioritizedMessage T) : Bool :=
  if a.classification.priority ≠ b.classification.priority then
    a.classification.priority.value > b.classification.priority.value
  else if a.classification.urgency ≠ b.classification.urgency then
    a.classification.urgency.value > b.classification.urgency.value
  else if |a.classification.importance - b.classification.importance| > 1 / 100 then
    a.classification.importance < b.classification.importance
  else a.age < b.age

def initial (maxQueueSize : ℕ) : MessagePriorityQueue Q where
  messageQueue := BagQueue.empty
  stats := {}
  maxQueueSize := maxQueueSize
  reads := 0

section Clock
variable (clock : ℕ → ℚ)

def pushMessage (queue : MessagePriorityQueue Q) (message : PrioritizedMessage T) :
    MessagePriorityQueue Q :=
  if queue.maxQueueSize ≤ BagQueue.size queue.messageQueue then
    { queue with
      stats := { queue.stats with droppedMessages := queue.stats.droppedMessages + 1 } }
  else
    -- the timestamp is taken anew, so messages are told apart by what was sent
    let messageCopy := { message with timestamp := clock queue.reads, age := 0 }
    let priority := messageCopy.classification.priority
    let urgency := messageCopy.classification.urgency
    { queue with
      messageQueue := BagQueue.push queue.messageQueue messageCopy
      stats := { queue.stats with
        totalMessages := queue.stats.totalMessages + 1
        messagesByPriority := Function.update queue.stats.messagesByPriority priority
          (queue.stats.messagesByPriority priority + 1)
        messagesByUrgency := Function.update queue.stats.messagesByUrgency urgency
          (queue.stats.messagesByUrgency urgency + 1) }
      reads := queue.reads + 1 }

def popMessage (queue : MessagePriorityQueue Q) :
    PrioritizedMessage T × MessagePriorityQueue Q :=
  match BagQueue.top? queue.messageQueue with
  | none => ({}, queue)
  | some top =>
    let age := clock queue.reads - top.timestamp
    ({ top with age := age },
     { queue with
       messageQueue := BagQueue.pop queue.messageQueue
       stats := { queue.stats with
         averageQueueTime := (queue.stats.averageQueueTime + age) / 2
         maxQueueTime := max queue.stats.maxQueueTime age }
       reads := queue.reads + 1 })

def hasMessages (queue : MessagePriorityQueue Q) : Bool :=
  BagQueue.size queue.messageQueue ≠ 0

def isMessageExpired (message : PrioritizedMessage T) : Bool :=
  message.age > message.classification.timeToLive

def popMessages : ℕ → MessagePriorityQueue Q →
    List (PrioritizedMessage T) × MessagePriorityQueue Q
  | 0, queue => ([], queue)
  | maxCount + 1, queue =>
    if hasMessages queue then
      let r := popMessage clock queue
      let rest := popMessages maxCount r.2
      (r.1 :: rest.1, rest.2)
    else ([], queue)

def pushBack (queue : MessagePriorityQueue Q) (messages : List (PrioritizedMessage T)) :
    MessagePriorityQueue Q :=
  { queue with messageQueue := BagQueue.pushAll queue.messageQueue messages }

structure Selection (T : Type) [Inhabited T] (Q : Type) where
  messages : List (PrioritizedMessage T)
  tempMessages : List (PrioritizedMessage T)
  queue : MessagePriorityQueue Q

def selectByPriority (priority : MessagePriority) (maxCount : ℕ) :
    ℕ → Selection T Q → Selection T Q
  | 0, l => l
  | fuel + 1, l =>
    if hasMessages l.queue then
      let r := popMessage clock l.queue
      if r.1.classification.priority = priority then
        let l := { l with messages := l.messages ++ [r.1], queue := r.2 }
        if maxCount ≤ l.messages.length then l else selectByPriority priority maxCount fuel l
      else
        selectByPriority priority maxCount fuel
          { l with tempMessages := l.tempMessages ++ [r.1], queue := r.2 }
    else l

def popMessagesByPriority (priority : MessagePriority) (maxCount : ℕ)
    (queue : MessagePriorityQueue Q) : List (PrioritizedMessage T) × MessagePriorityQueue Q :=
  let l := selectByPriority clock priority maxCount (BagQueue.size queue.messageQueue)
    ⟨[], [], queue⟩
  (l.messages, pushBack l.queue l.tempMessages)

def selectExpired : ℕ → Selection T Q → Selection T Q
  | 0, l => l
  | fuel + 1, l =>
    if hasMessages l.queue then
      let r := popMessage clock l.queue
      if isMessageExpired r.1 then
        selectExpired fuel
          { l with
            messages := l.messages ++ [r.1]
            queue := { r.2 with
              stats := { r.2.stats with expiredMessages := r.2.stats.expiredMessages + 1 } } }
      else selectExpired fuel { l with tempMessages := l.tempMessages ++ [r.1], queue := r.2 }
    else l

def popExpiredMessages (queue : MessagePriorityQueue Q) :
    List (PrioritizedMessage T) × MessagePriorityQueue Q :=
  let l := selectExpired clock (BagQueue.size queue.messageQueue) ⟨[], [], queue⟩
  (l.messages, pushBack l.queue l.tempMessages)

end Clock

inductive Op (T : Type) [Inhabited T]
  | push (message : PrioritizedMessage T)
  | pop
  | popMany (maxCount : ℕ)
  | popByPriority (priority : MessagePriority) (maxCount : ℕ)
  | popExpired

end MessagePriorityQueue
end WitcherMP.Messages
