import WitcherMP.Protocol.Pending
import WitcherMP.Messages.Traffic
import WitcherMP.Batching.Room

/-! The way out: the traffic manager lets messages into its queue, the batching collects what the
queue hands over, and packets are made of what is ready. -/

namespace WitcherMP.Protocol

open Compression Messages Batching

def maxMessagesPerPacket : ℕ := 100

structure Configuration where
  maxQueueSize : ℕ := 1000
  bandwidthLimit : ℕ := 1024 * 1024
  messageRateLimit : ℕ := 1000
  trafficShapingEnabled : Bool := true
  priorityEnabled : Bool := true
  compressionEnabled : Bool := true
  batchingEnabled : Bool := true
  compressionLevel : CompressionLevel := .balanced
  compression : DataCompression
  batching : BatchConfig := {}

section Stages
variable [Inhabited MessageTypes]

/-- What the stages rely on: the compression of batches, the clocks of the batching and of the
queue, and the sorting routine. -/
structure Surroundings where
  dc : DataCompression
  clock : ℕ → ℚ
  queueClock : ℕ → ℚ
  std : StdSort (PrioritizedMessage MessageTypes) sendOrder

structure Outbound (Q : Type) where
  traffic : NetworkTrafficManager Q
  protocol : ProtocolState

namespace ProtocolState
variable (dc : DataCompression) (clock : ℕ → ℚ)
  (std : StdSort (PrioritizedMessage MessageTypes) sendOrder)

def inOrder (s : ProtocolState) (messages : List (PrioritizedMessage MessageTypes)) :
    List (PrioritizedMessage MessageTypes) :=
  if s.priorityEnabled then std.sort messages else messages

def loads (s : ProtocolState) (messages : List (PrioritizedMessage MessageTypes)) :
    List (List (PrioritizedMessage MessageTypes)) :=
  if ¬ s.initialized then [] else if messages = [] then [] else
  match s.batchingEnabled, s.batching with
  | true, some batching =>
    let batching := (s.inOrder std messages).foldl (fun b m => (b.addMessage dc clock m).1) batching
    (batching.getReadyBatches.1.filter fun batch => batch.messages ≠ []).map BatchedMessage.carries
  | _, _ => (s.inOrder std messages).map fun m => [m]

end ProtocolState

namespace Outbound
variable {Q : Type} [BagQueue (PrioritizedMessage MessageTypes) Q]

def initial (configuration : Configuration) (now : ℚ) : Outbound Q where
  traffic := {
    initialized := true
    priorityQueue := MessagePriorityQueue.initial configuration.maxQueueSize
    bandwidthLimit := configuration.bandwidthLimit
    messageRateLimit := configuration.messageRateLimit
    trafficShapingEnabled := configuration.trafficShapingEnabled
    lastBandwidthReset := now
    lastRateReset := now }
  protocol := .initial true configuration.priorityEnabled configuration.compressionEnabled
    configuration.batchingEnabled configuration.compressionLevel (some configuration.compression)
    (some (.initial configuration.batching now))

section Calls
variable (e : Surroundings)

def sendMessage (s : Outbound Q) (message : PrioritizedMessage MessageTypes) : Outbound Q :=
  if ¬ s.protocol.initialized then s
  else { s with traffic := s.traffic.processMessage e.queueClock message }

def getPacketsToSend (s : Outbound Q) (stamp : ℕ → UInt32) (now : ℚ) :
    List NetworkPacket × Outbound Q :=
  if ¬ s.protocol.initialized then ([], s) else
  let messages := s.traffic.getMessagesToSend e.queueClock maxMessagesPerPacket now
  let packets := s.protocol.getPacketsToSend e.dc e.clock e.std stamp messages.1
  (packets.1, { traffic := messages.2, protocol := packets.2 })

inductive Op [Inhabited MessageTypes]
  | sendMessage (message : PrioritizedMessage MessageTypes)
  | getPacketsToSend (stamp : ℕ → UInt32) (now : ℚ)

def step (s : Outbound Q) : Op → Outbound Q
  | .sendMessage message => s.sendMessage e message
  | .getPacketsToSend stamp now => (s.getPacketsToSend e stamp now).2

def accepted (s : Outbound Q) : Op → Option (PrioritizedMessage MessageTypes)
  | .sendMessage message =>
    if s.protocol.initialized && s.traffic.accepts message then some message.sent else none
  | .getPacketsToSend _ _ => none

def handed (s : Outbound Q) (now : ℚ) : List (PrioritizedMessage MessageTypes) :=
  (s.traffic.getMessagesToSend e.queueClock maxMessagesPerPacket now).1

def deliveries (s : Outbound Q) :
    Op → Option (List (NetworkPacket × List (PrioritizedMessage MessageTypes)))
  | .sendMessage _ => none
  | .getPacketsToSend stamp now => some ((s.getPacketsToSend e stamp now).1.zip
      (s.protocol.loads e.dc e.clock e.std (s.handed e now)))

def carried (s : Outbound Q) (ops : List Op) : List (PrioritizedMessage MessageTypes) :=
  (Run.gather (step e) (deliveries e) s ops).flatten.flatMap Prod.snd

def acceptedAll (s : Outbound Q) (ops : List Op) : List (PrioritizedMessage MessageTypes) :=
  Run.gather (step e) accepted s ops

def handedAll (s : Outbound Q) (ops : List Op) : List (List (PrioritizedMessage MessageTypes)) :=
  Run.gather (step e) (fun
    | _, .sendMessage _ => none
    | s, .getPacketsToSend _ now => some (s.protocol.inOrder e.std (s.handed e now))) s ops

end Calls
end Outbound

section Packets
variable {dc : DataCompression} {clock : ℕ → ℚ}
  {std : StdSort (PrioritizedMessage MessageTypes) sendOrder} {s : ProtocolState}
  {messages : List (PrioritizedMessage MessageTypes)} {b : SmartBatching}

def OptimizedNetworkProtocol.Loaded (p : OptimizedNetworkProtocol) (packet : NetworkPacket)
    (load : List (PrioritizedMessage MessageTypes)) : Prop :=
  load ≠ [] → packet.data = (p.payload (OptimizedNetworkProtocol.serializeMessages load)).1

theorem OptimizedNetworkProtocol.loaded_createEach (p : OptimizedNetworkProtocol)
    (stamp : ℕ → UInt32) (flags : UInt16) (i : ℕ)
    {groups loads : List (List (PrioritizedMessage MessageTypes))}
    (h : List.Forall₂ (fun group load => load ≠ [] → group = load) groups loads) :
    List.Forall₂ p.Loaded (p.createEach stamp flags i groups).1 loads := by
  induction h generalizing p i with
  | nil => exact .nil
  | cons hload _ ih =>
    refine .cons (fun hne => ?_) (ih (p.createPacket (stamp i) _).2 (i + 1))
    rw [← hload hne]
    rfl

theorem BatchedMessage.messages_of_carries_ne_nil {batch : BatchedMessage} (h : batch.carries ≠ []) :
    batch.messages = batch.carries := by
  rw [BatchedMessage.carries] at h ⊢
  split_ifs at h ⊢ with hcompressed
  · exact absurd rfl h
  · rfl

namespace ProtocolState

variable (dc clock std) in
theorem loaded_getPacketsToSend (s : ProtocolState) (stamp : ℕ → UInt32)
    (messages : List (PrioritizedMessage MessageTypes)) :
    List.Forall₂ s.Loaded (s.getPacketsToSend dc clock std stamp messages).1
      (s.loads dc clock std messages) := by
  rw [getPacketsToSend, loads]
  by_cases hinit : s.initialized = true
  swap
  · rw [if_pos hinit, if_pos hinit]
    exact .nil
  by_cases hnil : messages = []
  · rw [if_neg (not_not.mpr hinit), if_neg (not_not.mpr hinit), if_pos hnil, if_pos hnil]
    exact .nil
  rw [if_neg (not_not.mpr hinit), if_neg (not_not.mpr hinit), if_neg hnil, if_neg hnil]
  dsimp only
  rw [createPackets, if_neg hnil]
  have hsingle : ∀ ms : List (PrioritizedMessage MessageTypes), List.Forall₂ s.Loaded
      (s.createEach stamp 0 0 (ms.map fun m => [m])).1 (ms.map fun m => [m]) := fun ms =>
    s.loaded_createEach stamp 0 0 (List.forall₂_same.mpr fun _ _ _ => rfl)
  cases hon : s.batchingEnabled with
  | false => exact hsingle _
  | true =>
    cases hbatching : s.batching with
    | none => exact hsingle _
    | some b =>
      refine s.loaded_createEach stamp PacketFlags.batch 0 ?_
      rw [List.filter_map, List.forall₂_map_left_iff, List.forall₂_map_right_iff]
      exact List.forall₂_same.mpr fun _ _ => BatchedMessage.messages_of_carries_ne_nil

theorem inOrder_perm (s : ProtocolState) (messages : List (PrioritizedMessage MessageTypes)) :
    (s.inOrder std messages).Perm messages := by
  rw [inOrder]
  split_ifs
  · exact std.perm messages
  · exact .refl _

theorem flatten_carries (batches : List BatchedMessage) :
    ((batches.filter fun batch => batch.messages ≠ []).map BatchedMessage.carries).flatten =
      batches.flatMap BatchedMessage.carries := by
  induction batches with
  | nil => rfl
  | cons batch batches ih =>
    rw [List.flatMap_cons, ← ih]
    by_cases hempty : batch.messages = []
    · have hcarries : batch.carries = [] := by
        rw [BatchedMessage.carries, hempty, ite_self]
      rw [List.filter_cons_of_neg (by simpa using hempty), hcarries, List.nil_append]
    · rw [List.filter_cons_of_pos (by simpa using hempty), List.map_cons, List.flatten_cons]

variable (dc clock std) in
theorem loads_batching (s : ProtocolState) (hinit : s.initialized = true) (hon : s.batchingEnabled = true)
    (hbatching : s.batching = some b) (hready : b.readyBatches = [])
    (stamp : ℕ → UInt32) (messages : List (PrioritizedMessage MessageTypes)) :
    let b' := (s.inOrder std messages).foldl (fun b m => (b.addMessage dc clock m).1) b
    (s.loads dc clock std messages).flatten = b'.readyBatches.flatMap BatchedMessage.carries ∧
      (s.getPacketsToSend dc clock std stamp messages).2.batching =
        some { b' with readyBatches := [] } := by
  rw [loads, getPacketsToSend, if_neg (not_not.mpr hinit), if_neg (not_not.mpr hinit)]
  by_cases hnil : messages = []
  · have horder : s.inOrder std [] = [] := (inOrder_perm s []).eq_nil
    rw [if_pos hnil, if_pos hnil, hnil, horder, List.foldl_nil]
    refine ⟨by rw [hready]; rfl, hbatching.trans (congrArg some ?_)⟩
    rw [← hready]
  · rw [if_neg hnil, if_neg hnil, hon, hbatching, createPackets, if_neg hnil, hon, hbatching]
    exact ⟨flatten_carries _, rfl⟩

theorem loads_single (hinit : s.initialized = true) (hoff : s.batchingEnabled = false)
    (messages : List (PrioritizedMessage MessageTypes)) :
    (s.loads dc clock std messages).flatten = s.inOrder std messages := by
  rw [loads, if_neg (not_not.mpr hinit), hoff]
  by_cases hnil : messages = []
  · rw [if_pos hnil, hnil, (inOrder_perm s []).eq_nil]
    rfl
  · rw [if_neg hnil]
    simp [← List.flatMap_def]

variable (dc clock std) in
theorem settings_getPacketsToSend (s : ProtocolState) (stamp : ℕ → UInt32)
    (messages : List (PrioritizedMessage MessageTypes)) :
    let s' := (s.getPacketsToSend dc clock std stamp messages).2
    s'.initialized = s.initialized ∧ s'.batchingEnabled = s.batchingEnabled ∧
      s'.priorityEnabled = s.priorityEnabled := by
  rw [getPacketsToSend]
  split_ifs with hinit hnil
  · exact ⟨rfl, rfl, rfl⟩
  · rw [createPackets, if_neg hnil]
    cases hon : s.batchingEnabled with
    | false => exact ⟨rfl, rfl, rfl⟩
    | true => cases hbatching : s.batching with
      | none => exact ⟨rfl, rfl, rfl⟩
      | some b => exact ⟨rfl, rfl, rfl⟩
  · exact ⟨rfl, rfl, rfl⟩

end ProtocolState
end Packets

namespace Outbound
variable {Q : Type} [BagQueue (PrioritizedMessage MessageTypes) Q] {e : Surroundings}
  {s : Outbound Q} {ops : List Op} {configuration : Configuration}

theorem acceptedAll_sendMessage (message : PrioritizedMessage MessageTypes) :
    acceptedAll e s (.sendMessage message :: ops) =
      (s.accepted (.sendMessage message)).toList ++
        acceptedAll e (step e s (.sendMessage message)) ops := rfl

theorem acceptedAll_getPacketsToSend (stamp : ℕ → UInt32) (now : ℚ) :
    acceptedAll e s (.getPacketsToSend stamp now :: ops) =
      acceptedAll e (step e s (.getPacketsToSend stamp now)) ops := rfl

theorem handedAll_getPacketsToSend (stamp : ℕ → UInt32) (now : ℚ) :
    handedAll e s (.getPacketsToSend stamp now :: ops) =
      s.protocol.inOrder e.std (s.handed e now) ::
        handedAll e (step e s (.getPacketsToSend stamp now)) ops := rfl

structure Steady (configuration : Configuration) (s : Outbound Q) : Prop where
  initialized : s.protocol.initialized = true
  batchingEnabled : s.protocol.batchingEnabled = configuration.batchingEnabled

theorem Steady.step (h : Steady configuration s) (op : Op) : Steady configuration (step e s op) := by
  cases op with
  | sendMessage message =>
    rw [Outbound.step, Outbound.sendMessage, if_neg (not_not.mpr h.initialized)]
    exact ⟨h.1, h.2⟩
  | getPacketsToSend stamp now =>
    rw [Outbound.step, Outbound.getPacketsToSend, if_neg (not_not.mpr h.initialized)]
    obtain ⟨hinit, hbatching, -⟩ := s.protocol.settings_getPacketsToSend e.dc e.clock e.std stamp
      (s.handed e now)
    exact ⟨hinit.trans h.1, hbatching.trans h.2⟩

structure SameIntake (s t : Outbound Q) : Prop where
  traffic : t.traffic = s.traffic
  initialized : t.protocol.initialized = s.protocol.initialized
  priorityEnabled : t.protocol.priorityEnabled = s.protocol.priorityEnabled

theorem SameIntake.step {t : Outbound Q} (h : SameIntake s t) (op : Op) :
    SameIntake (step e s op) (step e t op) := by
  cases op with
  | sendMessage message =>
    rw [Outbound.step, Outbound.step, Outbound.sendMessage, Outbound.sendMessage, h.initialized]
    by_cases hinit : s.protocol.initialized = true
    · rw [if_neg (not_not.mpr hinit), if_neg (not_not.mpr hinit), h.traffic]
      exact ⟨rfl, h.initialized, h.priorityEnabled⟩
    · rwa [if_pos hinit, if_pos hinit]
  | getPacketsToSend stamp now =>
    rw [Outbound.step, Outbound.step, Outbound.getPacketsToSend, Outbound.getPacketsToSend,
      h.initialized, h.traffic]
    by_cases hinit : s.protocol.initialized = true
    · rw [if_neg (not_not.mpr hinit), if_neg (not_not.mpr hinit)]
      obtain ⟨hon, -, hpriority⟩ := s.protocol.settings_getPacketsToSend e.dc e.clock e.std stamp
        (s.handed e now)
      obtain ⟨hon', -, hpriority'⟩ := t.protocol.settings_getPacketsToSend e.dc e.clock e.std stamp
        (s.handed e now)
      refine ⟨rfl, ?_, ?_⟩
      · exact hon'.trans (h.initialized.trans hon.symm)
      · exact hpriority'.trans (h.priorityEnabled.trans hpriority.symm)
    · rwa [if_pos hinit, if_pos hinit]

theorem SameIntake.handedAll_eq {t : Outbound Q} (h : SameIntake s t) (ops : List Op) :
    handedAll e t ops = handedAll e s ops := by
  induction ops generalizing s t with
  | nil => rfl
  | cons op ops ih =>
    have hrest := ih (h.step (e := e) op)
    cases op with
    | sendMessage message => exact hrest
    | getPacketsToSend stamp now =>
      rw [handedAll_getPacketsToSend, handedAll_getPacketsToSend, hrest, handed, handed, h.traffic,
        ProtocolState.inOrder, ProtocolState.inOrder, h.priorityEnabled]

theorem handedAll_initial (configuration configuration' : Configuration)
    (hqueue : configuration'.maxQueueSize = configuration.maxQueueSize)
    (hbandwidth : configuration'.bandwidthLimit = configuration.bandwidthLimit)
    (hrate : configuration'.messageRateLimit = configuration.messageRateLimit)
    (hshaping : configuration'.trafficShapingEnabled = configuration.trafficShapingEnabled)
    (hpriority : configuration'.priorityEnabled = configuration.priorityEnabled) (now : ℚ)
    (ops : List Op) : handedAll e (initial configuration' now : Outbound Q) ops =
      handedAll e (initial configuration now : Outbound Q) ops := by
  have htraffic : (initial configuration' now : Outbound Q).traffic =
      (initial configuration now).traffic := by
    rw [initial, initial, hqueue, hbandwidth, hrate, hshaping]
  have hsame : SameIntake (initial configuration now : Outbound Q) (initial configuration' now) :=
    ⟨htraffic, rfl, hpriority⟩
  exact hsame.handedAll_eq ops

theorem Steady.waiting_sendMessage (h : Steady configuration s)
    (message : PrioritizedMessage MessageTypes) :
    (Outbound.step e s (.sendMessage message)).traffic.waiting =
      s.traffic.waiting + (s.accepted (.sendMessage message)).toList := by
  rw [Outbound.step, Outbound.sendMessage, if_neg (not_not.mpr h.initialized), accepted,
    h.initialized, Bool.true_and]
  dsimp only
  rw [NetworkTrafficManager.processMessage_waiting]
  split_ifs <;> rfl

theorem Steady.waiting_getPacketsToSend (h : Steady configuration s) (stamp : ℕ → UInt32) (now : ℚ) :
    sentAll (s.protocol.inOrder e.std (s.handed e now)) +
      (Outbound.step e s (.getPacketsToSend stamp now)).traffic.waiting = s.traffic.waiting := by
  have horder : sentAll (s.protocol.inOrder e.std (s.handed e now)) = sentAll (s.handed e now) :=
    Multiset.coe_eq_coe.mpr ((ProtocolState.inOrder_perm s.protocol _).map _)
  rw [horder, Outbound.step, Outbound.getPacketsToSend, if_neg (not_not.mpr h.initialized)]
  exact s.traffic.getMessagesToSend_waiting e.queueClock maxMessagesPerPacket now

theorem Steady.carried_getPacketsToSend (h : Steady configuration s) (stamp : ℕ → UInt32) (now : ℚ)
    (ops : List Op) : carried e s (.getPacketsToSend stamp now :: ops) =
      (s.protocol.loads e.dc e.clock e.std (s.handed e now)).flatten ++
        carried e (Outbound.step e s (.getPacketsToSend stamp now)) ops := by
  have hlength := (s.protocol.loaded_getPacketsToSend e.dc e.clock e.std stamp
    (s.handed e now)).length_eq
  rw [carried, Run.gather, deliveries, getPacketsToSend, if_neg (not_not.mpr h.initialized)]
  rw [handed] at hlength ⊢
  dsimp only
  rw [Option.toList_some, List.singleton_append, List.flatten_cons, List.flatMap_append,
    List.flatMap_def, List.map_snd_zip hlength.ge]
  rfl

theorem Steady.carried_single (h : Steady configuration s)
    (hoff : configuration.batchingEnabled = false) (ops : List Op) :
    sentAll (carried e s ops) + (Run.run (Outbound.step e) s ops).traffic.waiting =
      s.traffic.waiting + acceptedAll e s ops := by
  induction ops generalizing s with
  | nil => exact (add_comm _ _)
  | cons op ops ih =>
    have hrest := ih (h.step (e := e) op)
    cases op with
    | sendMessage message =>
      rw [h.waiting_sendMessage, add_assoc, Multiset.coe_add] at hrest
      exact hrest
    | getPacketsToSend stamp now =>
      rw [h.carried_getPacketsToSend, sentAll_append,
        ProtocolState.loads_single h.initialized (h.batchingEnabled.trans hoff),
        ← h.waiting_getPacketsToSend stamp now, add_assoc, add_assoc,
        acceptedAll_getPacketsToSend, ← hrest]
      rfl

section Batching
variable {b : SmartBatching}
open SmartBatching

/-- Between two calls the batching has no batch ready. -/
structure Fetched (configuration : Configuration) (s : Outbound Q) (b : SmartBatching) : Prop
    extends Steady configuration s where
  batching : s.protocol.batching = some b
  untimed : Untimed configuration.batching b
  ready : b.readyBatches = []

theorem Fetched.sendMessage (h : Fetched configuration s b)
    (message : PrioritizedMessage MessageTypes) :
    Fetched configuration (step e s (.sendMessage message)) b := by
  refine ⟨h.toSteady.step _, ?_, h.untimed, h.ready⟩
  rw [step, Outbound.sendMessage, if_neg (not_not.mpr h.initialized)]
  exact h.batching

theorem Fetched.getPacketsToSend (hon : configuration.batchingEnabled = true)
    (h : Fetched configuration s b) (stamp : ℕ → UInt32) (now : ℚ) :
    let b' := (s.protocol.inOrder e.std (s.handed e now)).foldl
      (fun b m => (b.addMessage e.dc e.clock m).1) b
    (s.protocol.loads e.dc e.clock e.std (s.handed e now)).flatten ++ b'.pendingMessages = b'.stock ∧
      Fetched configuration (step e s (.getPacketsToSend stamp now))
        { b' with readyBatches := [] } := by
  obtain ⟨hloads, hbatching⟩ := s.protocol.loads_batching e.dc e.clock e.std h.initialized
    (h.batchingEnabled.trans hon) h.batching h.ready stamp (s.handed e now)
  obtain ⟨huntimed, -⟩ := length_stock_foldl_le e.dc e.clock h.untimed
    (s.protocol.inOrder e.std (s.handed e now))
  refine ⟨congrArg (· ++ _) hloads, h.toSteady.step _, ?_,
    ⟨huntimed.1, huntimed.2, huntimed.3, huntimed.4⟩, rfl⟩
  rw [step, Outbound.getPacketsToSend, if_neg (not_not.mpr h.initialized)]
  exact hbatching

omit [BagQueue (PrioritizedMessage MessageTypes) Q] in
theorem Fetched.stock_eq (h : Fetched configuration s b) : b.stock = b.pendingMessages := by
  rw [stock, h.ready]
  rfl

theorem Fetched.length_carried_le (hon : configuration.batchingEnabled = true)
    (h : Fetched configuration s b) (ops : List Op) :
    (carried e s ops).length ≤
      b.pendingMessages.length + s.traffic.waiting.card + (acceptedAll e s ops).length := by
  induction ops generalizing s b with
  | nil => exact Nat.zero_le _
  | cons op ops ih =>
    cases op with
    | sendMessage message =>
      have hrest := ih (h.sendMessage (e := e) message)
      rw [h.waiting_sendMessage, Multiset.card_add, Multiset.coe_card] at hrest
      rw [acceptedAll_sendMessage, List.length_append]
      refine hrest.trans (le_of_eq ?_)
      omega
    | getPacketsToSend stamp now =>
      obtain ⟨hloads, hnext⟩ := h.getPacketsToSend (e := e) hon stamp now
      obtain ⟨-, hstock⟩ := length_stock_foldl_le e.dc e.clock h.untimed
        (s.protocol.inOrder e.std (s.handed e now))
      have hrest := ih hnext
      have hwaiting := congrArg Multiset.card (h.waiting_getPacketsToSend (e := e) stamp now)
      rw [Multiset.card_add, card_sentAll] at hwaiting
      rw [← hloads, h.stock_eq, List.length_append] at hstock
      rw [h.carried_getPacketsToSend, List.length_append, acceptedAll_getPacketsToSend]
      dsimp only at hrest
      omega

omit [BagQueue (PrioritizedMessage MessageTypes) Q] in
theorem Fetched.mirrors (h : Fetched configuration s b) :
    Mirrors configuration.batching ⟨b.pendingMessages, [], b.reads⟩ b where
  untimed := h.untimed
  waiting := rfl
  made := by
    rw [h.ready]
    rfl
  reads := rfl
  full := by
    rw [h.ready]
    exact List.forall_mem_nil _

theorem Fetched.length_carried_lt (stamp : ℕ → UInt32) (hon : configuration.batchingEnabled = true)
    (h : Fetched configuration s b) {now : ℚ}
    (hlost : ¬ Run.Along (Room.enter e.clock configuration.batching)
      (Room.Sound e.dc e.clock configuration.batching) ⟨b.pendingMessages, [], b.reads⟩
      (s.protocol.inOrder e.std (s.handed e now))) (ops : List Op) :
    (carried e s (.getPacketsToSend stamp now :: ops)).length <
      b.pendingMessages.length + (s.protocol.inOrder e.std (s.handed e now)).length +
        (step e s (.getPacketsToSend stamp now)).traffic.waiting.card +
        (acceptedAll e (step e s (.getPacketsToSend stamp now)) ops).length := by
  obtain ⟨hloads, hnext⟩ := h.getPacketsToSend (e := e) hon stamp now
  have hstock := h.mirrors.length_foldl_lt hlost
  have hcarried := hnext.length_carried_le (e := e) hon ops
  rw [← hloads, h.stock_eq, List.length_append] at hstock
  rw [h.carried_getPacketsToSend, List.length_append]
  dsimp only at hcarried
  omega

theorem Fetched.carried_iff (hon : configuration.batchingEnabled = true)
    (h : Fetched configuration s b) {ops : List Op}
    (hempty : (Run.run (step e) s ops).traffic.waiting = 0) :
    sentAll (carried e s ops) =
        sentAll b.pendingMessages + s.traffic.waiting + acceptedAll e s ops ↔
      Room.Passes e.dc e.clock configuration.batching ⟨b.pendingMessages, [], b.reads⟩
        (handedAll e s ops) := by
  induction ops generalizing s b with
  | nil =>
    have hwaiting : s.traffic.waiting = 0 := hempty
    change 0 = sentAll b.pendingMessages + s.traffic.waiting + 0 ↔ b.pendingMessages = []
    rw [hwaiting, add_zero, add_zero, eq_comm, ← Multiset.card_eq_zero, card_sentAll,
      List.length_eq_zero_iff]
  | cons op ops ih =>
    cases op with
    | sendMessage message =>
      have hrest := ih (h.sendMessage (e := e) message) hempty
      rw [h.waiting_sendMessage, ← add_assoc, add_assoc (_ + _), Multiset.coe_add] at hrest
      exact hrest
    | getPacketsToSend stamp now =>
      obtain ⟨hloads, hnext⟩ := h.getPacketsToSend (e := e) hon stamp now
      have hrest := ih hnext hempty
      have hwaiting := h.waiting_getPacketsToSend (e := e) stamp now
      rw [h.carried_getPacketsToSend, sentAll_append, acceptedAll_getPacketsToSend,
        handedAll_getPacketsToSend, Room.Passes, ← hwaiting]
      by_cases hsound : Run.Along (Room.enter e.clock configuration.batching)
          (Room.Sound e.dc e.clock configuration.batching) ⟨b.pendingMessages, [], b.reads⟩
          (s.protocol.inOrder e.std (s.handed e now))
      · obtain ⟨hafter, hperm⟩ := h.mirrors.foldl hsound
        rw [← hloads, h.stock_eq] at hperm
        have hsent : sentAll _ = sentAll _ := Multiset.coe_eq_coe.mpr (hperm.map PrioritizedMessage.sent)
        rw [sentAll_append, sentAll_append] at hsent
        dsimp only at hrest ⊢
        rw [and_iff_right hsound, ← hafter.waiting, ← hafter.reads, ← add_assoc, ← hsent, add_assoc,
          add_assoc, add_right_inj, ← add_assoc]
        exact hrest
      · have hlost := h.length_carried_lt stamp hon hsound ops
        refine iff_of_false (fun heq => ?_) fun hpasses => hsound hpasses.1
        have hcard := congrArg Multiset.card heq
        rw [h.carried_getPacketsToSend, List.length_append] at hlost
        simp only [Multiset.card_add, card_sentAll, Multiset.coe_card] at hcard
        omega

end Batching

/-- The packets returned carry every message accepted exactly once. -/
def Delivers (e : Surroundings) (s : Outbound Q) (ops : List Op) : Prop :=
  sentAll (carried e s ops) = acceptedAll e s ops

instance decidableDelivers (e : Surroundings) (s : Outbound Q) (ops : List Op) :
    Decidable (Delivers e s ops) := inferInstanceAs (Decidable (_ = _))

theorem waiting_eq_zero_iff (traffic : NetworkTrafficManager Q) :
    traffic.waiting = 0 ↔ traffic.priorityQueue.hasMessages = false := by
  rw [NetworkTrafficManager.waiting, ← Multiset.card_eq_zero, ← MessagePriorityQueue.count_eq_card,
    MessagePriorityQueue.hasMessages, decide_eq_false_iff_not, not_not]
  rfl

/-- Whatever is sent and fetched, once the traffic queue is empty every message accepted has come
out exactly once, if batching is off, or if the messages pass through the batching. -/
theorem delivers_all_iff (e : Surroundings) (configuration : Configuration) (now : ℚ) {ops : List Op}
    (hempty : (Run.run (step e) (initial configuration now : Outbound Q)
      ops).traffic.priorityQueue.hasMessages = false) :
    Delivers e (initial configuration now : Outbound Q) ops ↔
      (configuration.batchingEnabled → Room.Passes e.dc e.clock configuration.batching {}
        (handedAll e (initial configuration now : Outbound Q) ops)) := by
  rw [← waiting_eq_zero_iff] at hempty
  have hsteady : Steady configuration (initial configuration now : Outbound Q) := ⟨rfl, rfl⟩
  have hwaiting : (initial configuration now : Outbound Q).traffic.waiting = 0 := by
    rw [NetworkTrafficManager.waiting, initial, MessagePriorityQueue.waiting,
      MessagePriorityQueue.initial, BagQueue.bag_empty]
    rfl
  cases hon : configuration.batchingEnabled with
  | false =>
    have hall := hsteady.carried_single (e := e) hon ops
    rw [hempty, hwaiting, add_zero, zero_add] at hall
    exact iff_of_true hall fun h => absurd h Bool.false_ne_true
  | true =>
    have hfetched : Fetched configuration (initial configuration now : Outbound Q)
        (.initial configuration.batching now) := ⟨hsteady, rfl, ⟨rfl, rfl, rfl, rfl⟩, rfl⟩
    have hall := hfetched.carried_iff hon hempty
    have hpending : sentAll (SmartBatching.initial configuration.batching now).pendingMessages = 0 :=
      rfl
    rw [hwaiting, add_zero, hpending, zero_add] at hall
    exact hall.trans ⟨fun h _ => h, fun h => h rfl⟩

theorem emptied_run (h : Steady configuration s) (htraffic : s.traffic.initialized = true)
    (hops : ∀ op ∈ ops, ∃ stamp now, op = .getPacketsToSend stamp now)
    (hcount : s.traffic.priorityQueue.count ≤ maxMessagesPerPacket * ops.length) :
    (Run.run (step e) s ops).traffic.priorityQueue.hasMessages = false := by
  induction ops generalizing s with
  | nil => exact MessagePriorityQueue.hasMessages_of_count (Nat.le_zero.mp hcount)
  | cons op ops ih =>
    obtain ⟨⟨stamp, now, rfl⟩, hrest⟩ := List.forall_mem_cons.mp hops
    obtain ⟨hinit, hleft⟩ := s.traffic.getMessagesToSend_count e.queueClock htraffic
      maxMessagesPerPacket now
    have hnext : (step e s (.getPacketsToSend stamp now)).traffic =
        (s.traffic.getMessagesToSend e.queueClock maxMessagesPerPacket now).2 := by
      rw [step, getPacketsToSend, if_neg (not_not.mpr h.initialized)]
    refine ih (h.step _) (hnext ▸ hinit) hrest ?_
    rw [List.length_cons, Nat.mul_succ] at hcount
    rw [hnext, hleft]
    omega

end Outbound
end Stages

namespace Outbound

theorem delivers_filled :
    letI : Inhabited MessageTypes := ⟨.batchMessage⟩
    let e : Surroundings := {
      dc := ⟨true, 64⟩, clock := fun n => n / 1000, queueClock := fun n => n / 1000
      std := .insertion sendOrder }
    let s : Outbound (SortedQueue fun a b : PrioritizedMessage MessageTypes =>
        MessagePriorityQueue.messageComparator b a) :=
      initial { compression := ⟨true, 64⟩, batching := { type := .size, maxSize := 4 } } 0
    let ops : List Op := [.sendMessage { messageId := 1, data := [1, 2] },
      .sendMessage { messageId := 2, data := [3, 4] }, .getPacketsToSend (fun _ => 0) 1]
    (carried e s ops).map (fun m => m.messageId) = [1, 2] ∧ Delivers e s ops := by
  intro e s ops
  refine ⟨by decide +kernel, ?_⟩
  exact (@delivers_all_iff ⟨.batchMessage⟩ _ _ e
    { compression := ⟨true, 64⟩, batching := { type := .size, maxSize := 4 } } 0 ops
    (by decide +kernel)).mpr fun _ => by decide +kernel

theorem not_delivers_interval :
    letI : Inhabited MessageTypes := ⟨.batchMessage⟩
    let e : Surroundings := {
      dc := ⟨true, 64⟩, clock := fun n => n / 1000, queueClock := fun n => n / 1000
      std := .insertion sendOrder }
    let s : Outbound (SortedQueue fun a b : PrioritizedMessage MessageTypes =>
        MessagePriorityQueue.messageComparator b a) := initial { compression := ⟨true, 64⟩ } 0
    let ops : List Op := [.sendMessage { messageId := 1, data := [1, 2] },
      .getPacketsToSend (fun _ => 0) 1, .getPacketsToSend (fun _ => 0) 2]
    (Run.run (step e) s ops).traffic.priorityQueue.hasMessages = false ∧ ¬ Delivers e s ops := by
  decide +kernel

end Outbound
end WitcherMP.Protocol
