import WitcherMP.Messages.Ledger

/-! The traffic manager: what its limits let through waits in the priority queue until it is
asked for. Readings of the clock are arguments, and floats are exact. -/

namespace WitcherMP.Messages

structure TrafficStats where
  totalMessagesProcessed : ℕ := 0
  messagesSent : ℕ := 0
  messagesDropped : ℕ := 0
  bytesSent : ℕ := 0
  bytesDropped : ℕ := 0
  bandwidthUtilization : ℚ := 0
  congestionLevel : ℚ := 0

structure NetworkTrafficManager (Q : Type) where
  initialized : Bool
  priorityQueue : MessagePriorityQueue Q
  stats : TrafficStats := {}
  bandwidthLimit : ℕ := 1024 * 1024
  messageRateLimit : ℕ := 1000
  trafficShapingEnabled : Bool := true
  bytesSentThisSecond : ℕ := 0
  messagesSentThisSecond : ℕ := 0
  lastBandwidthReset : ℚ
  lastRateReset : ℚ

theorem card_sentAll {T : Type} [Inhabited T] (messages : List (PrioritizedMessage T)) :
    (sentAll messages).card = messages.length := by
  rw [sentAll, Multiset.coe_card, List.length_map]

namespace NetworkTrafficManager
variable {T : Type} [Inhabited T] {Q : Type} [BagQueue (PrioritizedMessage T) Q]

def canSendMessage (manager : NetworkTrafficManager Q) (message : PrioritizedMessage T) : Bool :=
  if ¬ manager.trafficShapingEnabled then true
  else if manager.bytesSentThisSecond + message.data.length > manager.bandwidthLimit then false
  else if manager.messagesSentThisSecond ≥ manager.messageRateLimit then false
  else true

def updateTrafficStats (manager : NetworkTrafficManager Q) (now : ℚ) : NetworkTrafficManager Q :=
  let manager := if now - manager.lastBandwidthReset ≥ 1 then
      { manager with
        stats := { manager.stats with
          bandwidthUtilization := manager.bytesSentThisSecond / manager.bandwidthLimit }
        bytesSentThisSecond := 0
        lastBandwidthReset := now }
    else manager
  let manager := if now - manager.lastRateReset ≥ 1 then
      { manager with messagesSentThisSecond := 0, lastRateReset := now }
    else manager
  { manager with stats := { manager.stats with
      congestionLevel := min manager.stats.bandwidthUtilization 1 } }

section Clock
variable (clock : ℕ → ℚ)

def processMessage (manager : NetworkTrafficManager Q) (message : PrioritizedMessage T) :
    NetworkTrafficManager Q :=
  if ¬ manager.initialized then manager else
  let manager := { manager with stats := { manager.stats with
    totalMessagesProcessed := manager.stats.totalMessagesProcessed + 1 } }
  if ¬ manager.canSendMessage message then
    { manager with stats := { manager.stats with
        messagesDropped := manager.stats.messagesDropped + 1
        bytesDropped := manager.stats.bytesDropped + message.data.length } }
  else { manager with priorityQueue := manager.priorityQueue.pushMessage clock message }

def getMessagesToSend (manager : NetworkTrafficManager Q) (maxCount : ℕ) (now : ℚ) :
    List (PrioritizedMessage T) × NetworkTrafficManager Q :=
  if ¬ manager.initialized then ([], manager) else
  let r := manager.priorityQueue.popMessages clock maxCount
  let bytes := (r.1.map fun m => m.data.length).sum
  let manager := { manager with
    priorityQueue := r.2
    stats := { manager.stats with
      messagesSent := manager.stats.messagesSent + r.1.length
      bytesSent := manager.stats.bytesSent + bytes }
    bytesSentThisSecond := manager.bytesSentThisSecond + bytes
    messagesSentThisSecond := manager.messagesSentThisSecond + r.1.length }
  (r.1, manager.updateTrafficStats now)

end Clock

def accepts (manager : NetworkTrafficManager Q) (message : PrioritizedMessage T) : Bool :=
  manager.initialized && manager.canSendMessage message &&
    decide (manager.priorityQueue.count < manager.priorityQueue.maxQueueSize)

def waiting (manager : NetworkTrafficManager Q) : Multiset (PrioritizedMessage T) :=
  manager.priorityQueue.waiting

variable (clock : ℕ → ℚ) (manager : NetworkTrafficManager Q)

theorem updateTrafficStats_priorityQueue (now : ℚ) :
    (manager.updateTrafficStats now).priorityQueue = manager.priorityQueue := by
  rw [updateTrafficStats]
  split_ifs <;> rfl

theorem processMessage_waiting (message : PrioritizedMessage T) :
    (manager.processMessage clock message).waiting = manager.waiting +
      if manager.accepts message then {message.sent} else 0 := by
  rw [processMessage, accepts]
  by_cases hinit : manager.initialized = true
  · rw [if_neg (not_not.mpr hinit), hinit, Bool.true_and]
    dsimp only
    split
    · next hcan =>
      have hcan : manager.canSendMessage message = false := Bool.eq_false_iff.mpr hcan
      rw [hcan, Bool.false_and, if_neg Bool.false_ne_true, add_zero]
      rfl
    · next hcan =>
      have hcan : manager.canSendMessage message = true := not_not.mp hcan
      rw [hcan, Bool.true_and]
      simp only [decide_eq_true_eq]
      exact manager.priorityQueue.pushMessage_waiting clock message
  · rw [if_pos hinit, Bool.eq_false_iff.mpr hinit, Bool.false_and, Bool.false_and,
      if_neg Bool.false_ne_true, add_zero]

theorem getMessagesToSend_waiting (maxCount : ℕ) (now : ℚ) :
    sentAll (manager.getMessagesToSend clock maxCount now).1 +
      (manager.getMessagesToSend clock maxCount now).2.waiting = manager.waiting := by
  rw [getMessagesToSend]
  by_cases hinit : manager.initialized = true
  · rw [if_neg (not_not.mpr hinit)]
    dsimp only
    rw [waiting, updateTrafficStats_priorityQueue]
    exact (manager.priorityQueue.popMessages_waiting clock maxCount).1
  · rw [if_pos hinit, sentAll_nil, zero_add]

theorem getMessagesToSend_count (h : manager.initialized = true) (maxCount : ℕ) (now : ℚ) :
    (manager.getMessagesToSend clock maxCount now).2.initialized = true ∧
      (manager.getMessagesToSend clock maxCount now).2.priorityQueue.count =
        manager.priorityQueue.count - maxCount := by
  rw [getMessagesToSend, if_neg (not_not.mpr h)]
  dsimp only
  rw [updateTrafficStats_priorityQueue]
  refine ⟨?_, manager.priorityQueue.popMessages_count clock maxCount⟩
  rw [updateTrafficStats]
  split_ifs <;> exact h

end NetworkTrafficManager
end WitcherMP.Messages
