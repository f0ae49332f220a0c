import WitcherMP.Lib.Quotas
import WitcherMP.Messages.Traffic
import Mathlib.Algebra.BigOperators.Group.Multiset.Basic

/-! What the limits of the traffic manager are worth, and whether its counts add up. The limits
are tested when a message comes in, against counters that move when messages go out. -/

namespace WitcherMP.Messages.NetworkTrafficManager

variable {T : Type} [Inhabited T] {Q : Type} [BagQueue (PrioritizedMessage T) Q]

def initial (maxQueueSize bandwidthLimit messageRateLimit : ℕ) (now : ℚ) :
    NetworkTrafficManager Q where
  initialized := true
  priorityQueue := MessagePriorityQueue.initial maxQueueSize
  bandwidthLimit := bandwidthLimit
  messageRateLimit := messageRateLimit
  lastBandwidthReset := now
  lastRateReset := now

inductive Op (T : Type) [Inhabited T]
  | processMessage (message : PrioritizedMessage T)
  | getMessagesToSend (maxCount : ℕ) (now : ℚ)

section Steps
variable (clock : ℕ → ℚ)

def step (manager : NetworkTrafficManager Q) : Op T → NetworkTrafficManager Q
  | .processMessage message => manager.processMessage clock message
  | .getMessagesToSend maxCount now => (manager.getMessagesToSend clock maxCount now).2

def handedOut (manager : NetworkTrafficManager Q) : Op T → List (PrioritizedMessage T)
  | .processMessage _ => []
  | .getMessagesToSend maxCount now => (manager.getMessagesToSend clock maxCount now).1

def letIn (manager : NetworkTrafficManager Q) : Op T → List (PrioritizedMessage T)
  | .processMessage message => if manager.accepts message then [message] else []
  | .getMessagesToSend _ _ => []

end Steps

inductive Limit
  | bandwidth | rate

namespace Limit

def weight : Limit → PrioritizedMessage T → ℕ
  | bandwidth, message => message.data.length
  | rate, _ => 1

def value : Limit → NetworkTrafficManager Q → ℕ
  | bandwidth, manager => manager.bandwidthLimit
  | rate, manager => manager.messageRateLimit

def sentThisSecond : Limit → NetworkTrafficManager Q → ℕ
  | bandwidth, manager => manager.bytesSentThisSecond
  | rate, manager => manager.messagesSentThisSecond

def lastReset : Limit → NetworkTrafficManager Q → ℚ
  | bandwidth, manager => manager.lastBandwidthReset
  | rate, manager => manager.lastRateReset

def total (limit : Limit) (messages : List (PrioritizedMessage T)) : ℕ :=
  (messages.map limit.weight).sum

def stock (limit : Limit) (manager : NetworkTrafficManager Q) : ℕ :=
  (manager.waiting.map limit.weight).sum

def Resets (limit : Limit) (manager : NetworkTrafficManager Q) : Op T → Prop
  | .processMessage _ => False
  | .getMessagesToSend _ now => manager.initialized = true ∧ now - limit.lastReset manager ≥ 1

variable (limit : Limit) (clock : ℕ → ℚ) (manager : NetworkTrafficManager Q)

theorem weight_sent (message : PrioritizedMessage T) :
    limit.weight message.sent = limit.weight message := by
  cases limit <;> rfl

theorem total_rate (messages : List (PrioritizedMessage T)) : rate.total messages = messages.length := by
  induction messages with
  | nil => rfl
  | cons message messages ih =>
    rw [total, List.map_cons, List.sum_cons, ← total, ih, weight, List.length_cons, Nat.add_comm]

theorem sum_sentAll (messages : List (PrioritizedMessage T)) :
    ((sentAll messages).map limit.weight).sum = limit.total messages := by
  rw [sentAll, Multiset.map_coe, Multiset.sum_coe, List.map_map, total]
  congr 1
  exact List.map_congr_left fun message _ => limit.weight_sent message

theorem updateTrafficStats_sentThisSecond (now : ℚ) :
    limit.sentThisSecond (manager.updateTrafficStats now) =
      if now - limit.lastReset manager ≥ 1 then 0 else limit.sentThisSecond manager := by
  by_cases hbytes : now - manager.lastBandwidthReset ≥ 1 <;>
    by_cases hmessages : now - manager.lastRateReset ≥ 1 <;>
      cases limit <;> simp [updateTrafficStats, lastReset, sentThisSecond, hbytes, hmessages]

theorem processMessage_sentThisSecond (message : PrioritizedMessage T) :
    limit.sentThisSecond (manager.processMessage clock message) = limit.sentThisSecond manager := by
  rw [processMessage]
  cases limit <;> simp only [sentThisSecond] <;> split_ifs <;> rfl

theorem getMessagesToSend_sentThisSecond (hinit : manager.initialized = true) (maxCount : ℕ)
    (now : ℚ) :
    limit.sentThisSecond (manager.getMessagesToSend clock maxCount now).2 =
      if now - limit.lastReset manager ≥ 1 then 0
      else limit.sentThisSecond manager +
        limit.total (manager.getMessagesToSend clock maxCount now).1 := by
  rw [getMessagesToSend, if_neg (not_not.mpr hinit)]
  dsimp only
  rw [updateTrafficStats_sentThisSecond]
  cases limit with
  | bandwidth => rfl
  | rate =>
    rw [total_rate]
    rfl

theorem step_stock (op : Op T) :
    limit.stock (step clock manager op) + limit.total (handedOut clock manager op) =
      limit.stock manager + limit.total (letIn manager op) := by
  cases op with
  | processMessage message =>
    rw [stock, stock, step, processMessage_waiting, letIn, Multiset.map_add, Multiset.sum_add]
    split_ifs
    · simp [handedOut, total, weight_sent]
    · simp [handedOut, total]
  | getMessagesToSend maxCount now =>
    have hwaiting := getMessagesToSend_waiting clock manager maxCount now
    rw [stock, stock, step, handedOut, ← hwaiting, Multiset.map_add, Multiset.sum_add,
      sum_sentAll, add_comm]
    rfl

theorem drain (hinit : manager.initialized = true) (now : ℚ) :
    limit.total (handedOut clock manager
      (.getMessagesToSend manager.priorityQueue.count now : Op T)) = limit.stock manager := by
  have hstock := limit.step_stock clock manager
    (.getMessagesToSend manager.priorityQueue.count now : Op T)
  have hcount := (getMessagesToSend_count clock manager hinit manager.priorityQueue.count now).2
  rw [Nat.sub_self, MessagePriorityQueue.count_eq_card, Multiset.card_eq_zero] at hcount
  rw [stock, step, waiting, hcount, Multiset.map_zero, Multiset.sum_zero, Nat.zero_add] at hstock
  exact hstock

end Limit

def meter (clock : ℕ → ℚ) (limit : Limit) :
    Quotas.Meter (step clock : NetworkTrafficManager Q → Op T → NetworkTrafficManager Q) where
  counter := limit.sentThisSecond
  stock := limit.stock
  letIn manager op := limit.total (letIn manager op)
  handed manager op := limit.total (handedOut clock manager op)
  resets := limit.Resets
  live manager := manager.initialized = true
  counter_reset manager op h := by
    cases op with
    | processMessage message => exact h.elim
    | getMessagesToSend maxCount now =>
      rw [step, limit.getMessagesToSend_sentThisSecond clock manager h.1, if_pos h.2]
  counter_kept manager op h := by
    cases op with
    | processMessage message => exact limit.processMessage_sentThisSecond clock manager message
    | getMessagesToSend maxCount now =>
      by_cases hinit : manager.initialized = true
      · rw [step, limit.getMessagesToSend_sentThisSecond clock manager hinit,
          if_neg fun hsecond => h ⟨hinit, hsecond⟩]
        rfl
      · rw [step, handedOut, getMessagesToSend, if_pos hinit]
        rfl
  stock_step manager op := limit.step_stock clock manager op
  letIn_only manager op h := by
    cases op with
    | processMessage message => exact ⟨rfl, id⟩
    | getMessagesToSend maxCount now => exact absurd rfl h
  live_step manager op h := by
    cases op with
    | processMessage message =>
      simp only [step, processMessage]
      split_ifs <;> exact h
    | getMessagesToSend maxCount now => exact (getMessagesToSend_count clock manager h maxCount now).1
  drains manager h := ⟨_, limit.drain clock manager h 0⟩

theorem value_step (clock : ℕ → ℚ) (limit : Limit) (manager : NetworkTrafficManager Q) (op : Op T) :
    limit.value (step clock manager op) = limit.value manager := by
  cases op with
  | processMessage message =>
    simp only [step, processMessage]
    cases limit <;> split_ifs <;> rfl
  | getMessagesToSend maxCount now =>
    simp only [step, getMessagesToSend, updateTrafficStats]
    cases limit <;> split_ifs <;> rfl

def Fits (manager : NetworkTrafficManager Q) (op : Op T) : Prop :=
  ∀ message ∈ letIn manager op, ∀ limit : Limit,
    limit.sentThisSecond manager + limit.stock manager + limit.weight message ≤ limit.value manager

/-- Whatever call comes next at any point of the run, no more bytes and messages than the limits
allow have been handed out since the last reset. -/
def WithinLimits (clock : ℕ → ℚ) (manager : NetworkTrafficManager Q) (ops : List (Op T)) : Prop :=
  ∀ (limit : Limit) (before segment : List (Op T)), before ++ segment <+: ops →
    limit.sentThisSecond (Run.run (step clock) manager before) = 0 →
    Run.Along (step clock) (fun manager op => ¬ limit.Resets manager op)
      (Run.run (step clock) manager before) segment →
    ∀ op, limit.total (Run.collect (step clock) (handedOut clock)
      (Run.run (step clock) manager before) (segment ++ [op])) ≤ limit.value manager

theorem total_collect (clock : ℕ → ℚ) (limit : Limit) (manager : NetworkTrafficManager Q)
    (ops : List (Op T)) :
    limit.total (Run.collect (step clock) (handedOut clock) manager ops) =
      Run.total (step clock) (meter clock limit).handed manager ops := by
  induction ops generalizing manager with
  | nil => rfl
  | cons op ops ih =>
    rw [Run.collect, Run.total, ← ih, Limit.total, List.map_append, List.sum_append]
    rfl

theorem withinLimits_iff_within (clock : ℕ → ℚ) (manager : NetworkTrafficManager Q)
    (ops : List (Op T)) :
    WithinLimits clock manager ops ↔
      ∀ limit : Limit, (meter clock limit).Within (limit.value manager) manager ops := by
  simp only [WithinLimits, total_collect]
  rfl

theorem fits_iff (clock : ℕ → ℚ) {manager : NetworkTrafficManager Q}
    (h : ∀ limit : Limit, limit.sentThisSecond manager + limit.stock manager ≤ limit.value manager)
    (op : Op T) :
    Fits manager op ↔ ∀ limit : Limit, (meter clock limit).Fits (limit.value manager) manager op := by
  cases op with
  | processMessage message =>
    simp only [Fits, Quotas.Meter.Fits, meter, letIn]
    split_ifs
    · simp only [List.mem_singleton, forall_eq, Limit.total, List.map_cons, List.map_nil,
        List.sum_cons, List.sum_nil, Nat.add_zero]
      refine forall_congr' fun limit => ⟨fun hfits _ => hfits, fun hfits => ?_⟩
      by_cases hnone : limit.weight message = 0
      · rw [hnone]
        exact h limit
      · exact hfits hnone
    · exact iff_of_true (fun message hm => absurd hm List.not_mem_nil) fun limit hsome => absurd rfl hsome
  | getMessagesToSend maxCount now =>
    exact iff_of_true (fun message hm => absurd hm List.not_mem_nil) fun limit hsome => absurd rfl hsome

theorem along_fits_iff (clock : ℕ → ℚ) {manager : NetworkTrafficManager Q}
    (h : ∀ limit : Limit, limit.sentThisSecond manager + limit.stock manager ≤ limit.value manager)
    (ops : List (Op T)) :
    Run.Along (step clock) Fits manager ops ↔
      ∀ limit : Limit, Run.Along (step clock) ((meter clock limit).Fits (limit.value manager))
        manager ops := by
  have hcongr : Run.Along (step clock) Fits manager ops ↔ Run.Along (step clock)
      (fun s op => ∀ limit : Limit, (meter clock limit).Fits (limit.value manager) s op)
        manager ops := by
    refine Run.along_congr_of_step (I := fun s => ∀ limit : Limit,
      limit.value s = limit.value manager ∧
        limit.sentThisSecond s + limit.stock s ≤ limit.value manager)
      (fun s op hs => ⟨?_, fun hfits limit => ⟨?_, ?_⟩⟩) fun limit => ⟨rfl, h limit⟩
    · rw [fits_iff clock fun limit => (hs limit).1.symm ▸ (hs limit).2]
      exact forall_congr' fun limit => by rw [(hs limit).1]
    · rw [value_step, (hs limit).1]
    · exact (meter clock limit).fits_step (hs limit).2 (hfits limit)
  rw [hcongr]
  constructor
  · exact fun hall limit => (Run.along_of_step (I := fun _ => True)
      (fun _ _ _ hp => ⟨trivial, hp limit⟩) trivial hall).2
  · exact fun hall => Run.along_forall hall

/-- From the start, a run keeps within the limits exactly if every message that is let in fits. -/
theorem withinLimits_iff (clock : ℕ → ℚ) (maxQueueSize bandwidthLimit messageRateLimit : ℕ) (now : ℚ)
    (ops : List (Op T)) :
    WithinLimits clock (initial maxQueueSize bandwidthLimit messageRateLimit now :
      NetworkTrafficManager Q) ops ↔
      Run.Along (step clock) Fits (initial maxQueueSize bandwidthLimit messageRateLimit now :
        NetworkTrafficManager Q) ops := by
  generalize hmanager : (initial maxQueueSize bandwidthLimit messageRateLimit now :
    NetworkTrafficManager Q) = manager
  have hzero : ∀ limit : Limit, limit.sentThisSecond manager = 0 := by
    rintro (_ | _) <;> rw [← hmanager] <;> rfl
  have hempty : ∀ limit : Limit, limit.stock manager = 0 := by
    intro limit
    rw [← hmanager, Limit.stock, waiting, initial, MessagePriorityQueue.waiting,
      MessagePriorityQueue.initial, BagQueue.bag_empty]
    rfl
  rw [withinLimits_iff_within, along_fits_iff clock fun limit => ?_]
  · refine forall_congr' fun limit => Quotas.Meter.within_iff ?_ (hzero limit) ?_ ops
    · rw [← hmanager]
      rfl
    · exact (hempty limit).trans_le (Nat.zero_le _)
  · rw [hzero, hempty]
    exact Nat.zero_le _

theorem not_withinLimits_burst :
    ¬ WithinLimits (fun n => n / 1000)
      (initial 1000 1024 1 0 : NetworkTrafficManager (SortedQueue fun a b : PrioritizedMessage ℕ =>
        MessagePriorityQueue.messageComparator b a))
      [.processMessage { messageId := 1 }, .processMessage { messageId := 2 }] := by
  intro h
  have hboth := h .rate [] [.processMessage { messageId := 1 }, .processMessage { messageId := 2 }]
    (List.prefix_refl _) rfl ⟨id, id, trivial⟩ (.getMessagesToSend 2 0)
  revert hboth
  decide +kernel

def Accounted (manager : NetworkTrafficManager Q) : Prop :=
  manager.stats.totalMessagesProcessed =
    manager.stats.messagesSent + manager.stats.messagesDropped + manager.priorityQueue.count

/-- The limits let the message through, but the queue is full and refuses it silently. -/
def Refused (manager : NetworkTrafficManager Q) : Op T → Prop
  | .processMessage message =>
    manager.initialized = true ∧ manager.canSendMessage message = true ∧
      manager.priorityQueue.maxQueueSize ≤ manager.priorityQueue.count
  | .getMessagesToSend _ _ => False

theorem updateTrafficStats_counts (manager : NetworkTrafficManager Q) (now : ℚ) :
    (manager.updateTrafficStats now).stats.totalMessagesProcessed =
        manager.stats.totalMessagesProcessed ∧
      (manager.updateTrafficStats now).stats.messagesSent = manager.stats.messagesSent ∧
      (manager.updateTrafficStats now).stats.messagesDropped = manager.stats.messagesDropped := by
  rw [updateTrafficStats]
  split_ifs <;> exact ⟨rfl, rfl, rfl⟩

theorem processMessage_of_canSend (clock : ℕ → ℚ) {manager : NetworkTrafficManager Q}
    {message : PrioritizedMessage T} (hinit : manager.initialized = true)
    (hcan : manager.canSendMessage message = true) :
    manager.processMessage clock message = { manager with
      stats := { manager.stats with
        totalMessagesProcessed := manager.stats.totalMessagesProcessed + 1 }
      priorityQueue := manager.priorityQueue.pushMessage clock message } := by
  rw [processMessage, if_neg (not_not.mpr hinit)]
  exact if_neg (not_not.mpr hcan)

theorem pushMessage_count (clock : ℕ → ℚ) (queue : MessagePriorityQueue Q)
    (message : PrioritizedMessage T) :
    (queue.pushMessage clock message).count =
      queue.count + if queue.count < queue.maxQueueSize then 1 else 0 := by
  have hpush := congrArg Multiset.card (queue.pushMessage_waiting clock message)
  rw [Multiset.card_add, ← MessagePriorityQueue.count_eq_card,
    ← MessagePriorityQueue.count_eq_card] at hpush
  rw [hpush]
  split_ifs <;> rfl

theorem processMessage_accounted (clock : ℕ → ℚ) {manager : NetworkTrafficManager Q}
    (h : manager.Accounted) (message : PrioritizedMessage T) :
    (manager.processMessage clock message).Accounted ↔
      ¬ manager.Refused (.processMessage message) := by
  rw [Accounted] at h
  by_cases hinit : manager.initialized = true
  swap
  · rw [processMessage, if_pos hinit]
    exact iff_of_true h fun hrefused => hinit hrefused.1
  by_cases hcan : manager.canSendMessage message = true
  · rw [processMessage_of_canSend clock hinit hcan, Accounted, Refused]
    dsimp only
    rw [pushMessage_count]
    split_ifs with hroom
    · refine iff_of_true (by omega) fun hrefused => ?_
      exact absurd hroom (not_lt.mpr hrefused.2.2)
    · exact iff_of_false (by omega) fun hnot => hnot ⟨hinit, hcan, not_lt.mp hroom⟩
  · have hprocess : manager.processMessage clock message = { manager with
        stats := { manager.stats with
          totalMessagesProcessed := manager.stats.totalMessagesProcessed + 1
          messagesDropped := manager.stats.messagesDropped + 1
          bytesDropped := manager.stats.bytesDropped + message.data.length } } := by
      rw [processMessage, if_neg (not_not.mpr hinit)]
      exact if_pos hcan
    rw [hprocess, Accounted]
    dsimp only
    exact iff_of_true (by omega) fun hrefused => hcan hrefused.2.1

theorem getMessagesToSend_counts (clock : ℕ → ℚ) {manager : NetworkTrafficManager Q}
    (hinit : manager.initialized = true) (maxCount : ℕ) (now : ℚ) :
    let r := manager.getMessagesToSend clock maxCount now
    r.2.stats.totalMessagesProcessed = manager.stats.totalMessagesProcessed ∧
      r.2.stats.messagesSent = manager.stats.messagesSent + r.1.length ∧
      r.2.stats.messagesDropped = manager.stats.messagesDropped := by
  rw [getMessagesToSend, if_neg (not_not.mpr hinit)]
  exact updateTrafficStats_counts _ now

theorem getMessagesToSend_accounted (clock : ℕ → ℚ) {manager : NetworkTrafficManager Q}
    (h : manager.Accounted) (maxCount : ℕ) (now : ℚ) :
    (manager.getMessagesToSend clock maxCount now).2.Accounted := by
  by_cases hinit : manager.initialized = true
  · have hwaiting := congrArg Multiset.card (getMessagesToSend_waiting clock manager maxCount now)
    rw [Multiset.card_add, card_sentAll, waiting, waiting, ← MessagePriorityQueue.count_eq_card,
      ← MessagePriorityQueue.count_eq_card] at hwaiting
    obtain ⟨hprocessed, hsent, hdropped⟩ := getMessagesToSend_counts clock hinit maxCount now
    rw [Accounted] at h ⊢
    rw [hprocessed, hsent, hdropped]
    omega
  · rw [getMessagesToSend, if_pos hinit]
    exact h

/-- The counts add up after every call exactly if the queue never refuses what the limits let
through. -/
theorem accounted_along_iff (clock : ℕ → ℚ) {manager : NetworkTrafficManager Q}
    (h : manager.Accounted) (ops : List (Op T)) :
    Run.Along (step clock) (fun manager op => (step clock manager op).Accounted) manager ops ↔
      Run.Along (step clock) (fun manager op => ¬ manager.Refused op) manager ops := by
  refine Run.along_iff_of_step (K := fun _ => True) (Q := fun _ _ => True)
    (fun manager op _ h _ => ⟨trivial, ?_⟩) trivial h (Run.along_of_forall _ fun _ _ => trivial)
  cases op with
  | processMessage message => exact processMessage_accounted clock h message
  | getMessagesToSend maxCount now =>
    exact iff_of_true (getMessagesToSend_accounted clock h maxCount now) id

theorem accounted_along_fresh :
    let manager : NetworkTrafficManager (SortedQueue fun a b : PrioritizedMessage ℕ =>
      MessagePriorityQueue.messageComparator b a) := initial 1000 1024 1 0
    Run.Along (step fun n => n / 1000)
      (fun manager op => (step (fun n => n / 1000) manager op).Accounted) manager
      [.processMessage { messageId := 1 }, .getMessagesToSend 5 0,
        .processMessage { messageId := 2 }] := by
  intro manager
  have hstart : manager.Accounted := rfl
  refine (accounted_along_iff (fun n => n / 1000) hstart _).mpr ?_
  refine ⟨fun h => ?_, id, fun h => ?_, trivial⟩
  · exact absurd h.2.2 (by decide +kernel)
  · exact absurd h.2.1 (by decide +kernel)

structure Filled (limit : ℕ) (message : PrioritizedMessage T) (n : ℕ)
    (manager : NetworkTrafficManager Q) : Prop where
  initialized : manager.initialized = true
  canSend : manager.canSendMessage message = true
  processed : manager.stats.totalMessagesProcessed = n
  sent : manager.stats.messagesSent = 0
  dropped : manager.stats.messagesDropped = 0
  limit_eq : manager.priorityQueue.maxQueueSize = limit
  count_eq : manager.priorityQueue.count = min n limit

theorem Filled.step {clock : ℕ → ℚ} {limit : ℕ} {message : PrioritizedMessage T} {n : ℕ}
    {manager : NetworkTrafficManager Q} (h : manager.Filled limit message n) :
    (step clock manager (.processMessage message)).Filled limit message (n + 1) := by
  have hcount := pushMessage_count clock manager.priorityQueue message
  have hlimit := h.limit_eq
  have hn := h.count_eq
  rw [NetworkTrafficManager.step, processMessage_of_canSend clock h.initialized h.canSend]
  refine ⟨h.initialized, h.canSend, congrArg (· + 1) h.processed, h.sent, h.dropped, ?_, ?_⟩
  · dsimp only
    rw [MessagePriorityQueue.pushMessage]
    split_ifs <;> exact hlimit
  · dsimp only
    rw [hcount]
    split_ifs <;> omega

theorem Filled.run (clock : ℕ → ℚ) {limit : ℕ} {message : PrioritizedMessage T} {n : ℕ}
    {manager : NetworkTrafficManager Q} (h : manager.Filled limit message n) (k : ℕ) :
    (Run.run (NetworkTrafficManager.step clock) manager
      (List.replicate k (.processMessage message))).Filled limit message (n + k) := by
  induction k generalizing n manager with
  | zero => exact h
  | succ k ih =>
    rw [List.replicate_succ, Run.run, ← Nat.succ_add_eq_add_succ]
    exact ih h.step

theorem not_accounted_full :
    ¬ ∀ ops : List (Op ℕ), (Run.run (step fun n => n / 1000)
      (initial 1000 1024 1000 0 : NetworkTrafficManager (SortedQueue fun a b : PrioritizedMessage ℕ =>
        MessagePriorityQueue.messageComparator b a)) ops).Accounted := by
  intro h
  have hempty : Filled 1000 ({ messageId := 1 } : PrioritizedMessage ℕ) 0
      (initial 1000 1024 1000 0 : NetworkTrafficManager (SortedQueue fun a b : PrioritizedMessage ℕ =>
        MessagePriorityQueue.messageComparator b a)) :=
    ⟨rfl, by decide, rfl, rfl, rfl, rfl, rfl⟩
  have hfilled := hempty.run (fun n => n / 1000) 1001
  have haccounted := h (List.replicate 1001 (.processMessage { messageId := 1 }))
  rw [Accounted, hfilled.processed, hfilled.sent, hfilled.dropped, hfilled.count_eq] at haccounted
  omega

end WitcherMP.Messages.NetworkTrafficManager
