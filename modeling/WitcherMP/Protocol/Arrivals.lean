import WitcherMP.Lib.Loops
import WitcherMP.Protocol.Outbound
import WitcherMP.Protocol.Pieces
import WitcherMP.Protocol.Records

/-! The way to the peer, from the queue to the callback for received messages: packets go out as
bytes, and the peer makes packets of the bytes again, checks them and takes the messages out. Without
compression nothing is lost on this way. -/

namespace WitcherMP.Protocol
open Compression Messages Batching OptimizedNetworkProtocol

section Ends
variable [Inhabited MessageTypes]

/-- The end that receives. A callback is set, and `messageReceived` is what it was given. -/
structure Inbound where
  initialized : Bool
  protocol : OptimizedNetworkProtocol
  packetsReceived : UInt32 := 0
  bytesReceived : UInt32 := 0
  messageReceived : List (PrioritizedMessage MessageTypes) := []

namespace Inbound

/-- `none` stands for a fault of the decoder. -/
def processReceivedPacket (r : Inbound) (packet : NetworkPacket) :
    Option (List (PrioritizedMessage MessageTypes) × Inbound) :=
  if ¬ r.initialized then some ([], r)
  else if ¬ validatePacket packet then some ([], r)
  else
    (r.protocol.extractMessages packet).map fun messages => (messages, { r with
      packetsReceived := r.packetsReceived + 1
      bytesReceived := r.bytesReceived + .ofNat packet.data.length
      messageReceived := r.messageReceived ++ messages })

/-- A packet comes as bytes; `padding` is what the byte outside its fields holds. -/
def receive (padding : UInt8) (r : Inbound) (data : List UInt8) : Option Inbound :=
  (r.processReceivedPacket (ProtocolUtils.deserializePacket padding data).packet).map Prod.snd

def arrived (r : Inbound) : List (UInt32 × MessageTypes × List UInt8) :=
  r.messageReceived.map content

end Inbound

/-- A packet that says just these messages, uncompressed, and is sealed. -/
structure Plainly (packet : NetworkPacket) (load : List (PrioritizedMessage MessageTypes)) : Prop where
  magic : packet.header.magic = 0xDEADBEEF
  version : packet.header.version = protocolVersion
  dataSize : packet.header.dataSize = .ofNat packet.data.length
  checksum : packet.header.checksum = calculateChecksum packet.data
  flags : packet.header.flags &&& PacketFlags.compressed = 0
  data : packet.data = serializeMessages load

section Packet
variable {packet : NetworkPacket} {load : List (PrioritizedMessage MessageTypes)}

theorem Plainly.validatePacket (h : Plainly packet load) (hsize : packet.data.length < 2 ^ 32) :
    validatePacket packet = true :=
  validatePacket_iff.mpr ⟨h.magic, h.version, by rw [h.dataSize, UInt32.toNat_ofNat_of_lt' hsize],
    h.checksum.symm⟩

theorem Plainly.extractMessages (h : Plainly packet load) (hsize : packet.data.length < 2 ^ 32)
    (p : OptimizedNetworkProtocol) :
    ∃ messages, p.extractMessages packet = some messages ∧ messages.map content = load.map content := by
  have hraw : p.messageData packet = some packet.data := if_neg (not_not.mpr h.flags)
  have hsize' : (serializeMessages load).length < 2 ^ 32 := h.data ▸ hsize
  have hloop := extractLoop_serializeMessages (s := [])
    (fun m (hm : m ∈ load) => (length_data_le_serializeMessages hm).trans_lt hsize') (by decide) le_rfl
  rw [List.append_nil] at hloop
  refine ⟨_, ?_, hloop⟩
  rw [extractMessages_eq fun hnil => hraw.trans (congrArg some hnil), hraw, h.data]
  rfl

omit [Inhabited MessageTypes] in
theorem deserializePacket_serializePacket (hsize : packet.header.dataSize.toNat = packet.data.length)
    (padding padding' : UInt8) :
    (ProtocolUtils.deserializePacket padding (ProtocolUtils.serializePacket ⟨packet, padding'⟩)).packet
      = { header := packet.header, data := packet.data } := by
  have hlength := ProtocolUtils.length_serializePacket ⟨packet, padding'⟩
  have hread : headerLayout.read (ProtocolUtils.serializePacket ⟨packet, padding'⟩)
      = (packet.header, padding') := headerLayout.read_write (packet.header, padding') packet.data
  have hdrop : (ProtocolUtils.serializePacket ⟨packet, padding'⟩).drop sizeofPacketHeader = packet.data :=
    List.drop_left' ((headerLayout.length_write _).trans width_headerLayout)
  rw [ProtocolUtils.deserializePacket, hread, if_neg (by rw [hlength]; omega)]
  dsimp only
  rw [if_pos (by rw [hlength, hsize]), hdrop, hsize, List.take_length]

theorem Plainly.receive (h : Plainly packet load) (hsize : packet.data.length < 2 ^ 32)
    {r : Inbound} (hinit : r.initialized = true) (padding padding' : UInt8) :
    ∃ r', r.receive padding (ProtocolUtils.serializePacket ⟨packet, padding'⟩) = some r' ∧
      r'.initialized = true ∧ r'.arrived = r.arrived ++ load.map content ∧
      r'.packetsReceived = r.packetsReceived + 1 := by
  have hplain : Plainly { header := packet.header, data := packet.data } load :=
    ⟨h.magic, h.version, h.dataSize, h.checksum, h.flags, h.data⟩
  obtain ⟨messages, hextract, hcontent⟩ := hplain.extractMessages hsize r.protocol
  have hsame : packet.header.dataSize.toNat = packet.data.length := by
    rw [h.dataSize, UInt32.toNat_ofNat_of_lt' hsize]
  refine ⟨{ r with
    packetsReceived := r.packetsReceived + 1
    bytesReceived := r.bytesReceived + .ofNat packet.data.length
    messageReceived := r.messageReceived ++ messages }, ?_, hinit, ?_, rfl⟩
  · rw [Inbound.receive, deserializePacket_serializePacket hsame, Inbound.processReceivedPacket,
      if_neg (not_not.mpr hinit), if_neg (not_not.mpr (hplain.validatePacket hsize)), hextract]
    rfl
  · rw [Inbound.arrived, List.map_append, hcontent]
    rfl

end Packet

section Created
variable {p : OptimizedNetworkProtocol}

theorem plainly_createPacket (hoff : p.compressionEnabled = false) (now : UInt32)
    (messages : List (PrioritizedMessage MessageTypes)) :
    Plainly (p.createPacket now messages).1 messages := by
  have hraw : p.payload (serializeMessages messages) = (serializeMessages messages, false) := by
    unfold OptimizedNetworkProtocol.payload
    rw [hoff]
  rw [createPacket, hraw]
  exact ⟨rfl, rfl, rfl, rfl, (by decide : (0 : UInt16) &&& PacketFlags.compressed = 0), rfl⟩

theorem plainly_createEach (hoff : p.compressionEnabled = false) {flags : UInt16}
    (hflags : flags &&& PacketFlags.compressed = 0) (stamp : ℕ → UInt32) (i : ℕ)
    (groups : List (List (PrioritizedMessage MessageTypes))) :
    List.Forall₂ Plainly (p.createEach stamp flags i groups).1 groups := by
  induction groups generalizing p i with
  | nil => exact .nil
  | cons messages groups ih =>
    have hnext : (p.createPacket (stamp i) messages).2.compressionEnabled = false := hoff
    obtain ⟨hmagic, hversion, hsize, hsum, hplain, hdata⟩ := plainly_createPacket hoff (stamp i) messages
    exact .cons ⟨hmagic, hversion, hsize, hsum, flags_or.mpr ⟨hplain, hflags⟩, hdata⟩
      (ih hnext (i + 1))

end Created

structure Whole (b : SmartBatching) : Prop where
  off : b.config.enableCompression = false
  ready : ∀ batch ∈ b.readyBatches, batch.isCompressed = false

section Batches
variable {b : SmartBatching} (dc : DataCompression) (clock : ℕ → ℚ)
open SmartBatching

theorem Whole.congr {b' : SmartBatching} (h : Whole b) (hconfig : b'.config = b.config)
    (hready : ∀ batch ∈ b'.readyBatches, batch ∈ b.readyBatches) : Whole b' :=
  ⟨by rw [hconfig, h.off], fun batch hbatch => h.ready batch (hready batch hbatch)⟩

theorem Whole.pushBatch (h : Whole b) (messages : List (PrioritizedMessage MessageTypes)) :
    Whole (pushBatch dc clock b messages) := by
  have hplain : (createBatch dc clock b messages).1.isCompressed = false := by
    rw [createBatch, h.off]
    rfl
  refine ⟨h.off, fun batch hbatch => ?_⟩
  rcases List.mem_append.mp hbatch with hbatch | hbatch
  · exact h.ready batch hbatch
  · rw [List.mem_singleton.mp hbatch]
    exact hplain

theorem Whole.processSizeBatching (h : Whole b) : Whole (processSizeBatching dc clock b) := by
  have hrest : Whole { b with pendingMessages :=
      (takeFitting b.config.maxSize b.config.maxMessages 0 0 b.pendingMessages).2 } :=
    h.congr rfl fun _ hbatch => hbatch
  rw [SmartBatching.processSizeBatching]
  split
  · exact hrest
  · exact hrest.pushBatch dc clock _

theorem Whole.processPriorityBatching (h : Whole b) : Whole (processPriorityBatching dc clock b) := by
  have hfold : ∀ groups : List (List (PrioritizedMessage MessageTypes)), ∀ b : SmartBatching, Whole b →
      Whole (groups.foldl (fun b group => if group = [] then b else
        SmartBatching.pushBatch dc clock b group) b) := by
    intro groups
    induction groups with
    | nil => exact fun b hb => hb
    | cons group groups ih =>
      intro b hb
      rw [List.foldl_cons]
      refine ih _ ?_
      split_ifs
      · exact hb
      · exact hb.pushBatch dc clock group
  rw [SmartBatching.processPriorityBatching]
  split_ifs
  · exact h
  · exact (hfold _ b h).congr rfl fun _ hbatch => hbatch

theorem Whole.processIntervalBatching (h : Whole b) : Whole (processIntervalBatching dc clock b) := by
  rw [SmartBatching.processIntervalBatching]
  dsimp only
  split_ifs
  · exact h.congr rfl fun _ hbatch => hbatch
  · exact (h.pushBatch dc clock b.pendingMessages).congr rfl fun _ hbatch => hbatch
  · exact h

theorem Whole.processMixedBatching (h : Whole b) : Whole (processMixedBatching dc clock b) := by
  rw [SmartBatching.processMixedBatching]
  split_ifs
  · exact (h.processSizeBatching dc clock).congr rfl fun _ hbatch => hbatch
  · exact h

theorem Whole.processBatches (h : Whole b) (deltaTime : ℚ) :
    Whole (processBatches dc clock b deltaTime).1 := by
  rw [SmartBatching.processBatches]
  split_ifs
  · exact h
  · have hclean : ∀ b : SmartBatching, Whole b → Whole (cleanupExpiredBatches clock b).1 := by
      refine fun b hb => hb.congr rfl fun batch hbatch => ?_
      exact (sortOut_perm clock b.config.maxWaitTime b.reads b.readyBatches).mem_iff.mp
        (List.mem_append_right _ hbatch)
    have hlater : Whole { b with accumulatedTime := b.accumulatedTime + deltaTime } :=
      h.congr rfl fun _ hbatch => hbatch
    refine hclean _ ?_
    dsimp only
    cases b.config.type with
    | interval => exact hlater.processIntervalBatching dc clock
    | size => exact hlater.processSizeBatching dc clock
    | priority => exact hlater.processPriorityBatching dc clock
    | mixed => exact hlater.processMixedBatching dc clock

theorem Whole.addMessage (h : Whole b) (message : PrioritizedMessage MessageTypes) :
    Whole (addMessage dc clock b message).1 := by
  have hlonger : Whole { b with pendingMessages := b.pendingMessages ++ [message] } :=
    h.congr rfl fun _ hbatch => hbatch
  rw [SmartBatching.addMessage]
  dsimp only
  split_ifs
  · exact hlonger.processBatches dc clock 0
  · exact hlonger
  · exact h

theorem Whole.foldl (h : Whole b) (messages : List (PrioritizedMessage MessageTypes)) :
    Whole (messages.foldl (fun b m => (b.addMessage dc clock m).1) b) := by
  induction messages generalizing b with
  | nil => exact h
  | cons m messages ih => exact ih (h.addMessage dc clock m)

theorem Whole.loads (h : Whole b) :
    (b.readyBatches.filter fun batch => batch.messages ≠ []).map BatchedMessage.carries
      = (b.readyBatches.map BatchedMessage.messages).filter (· ≠ []) := by
  rw [List.filter_map]
  refine List.map_congr_left fun batch hbatch => ?_
  rw [BatchedMessage.carries, h.ready batch (List.mem_of_mem_filter hbatch)]
  rfl

end Batches

structure ProtocolState.Raw (s : ProtocolState) : Prop where
  compressionEnabled : s.compressionEnabled = false
  batching : ∀ b, s.batching = some b → Whole b

section Made
variable {dc : DataCompression} {clock : ℕ → ℚ}
  {std : StdSort (PrioritizedMessage MessageTypes) sendOrder} {s : ProtocolState}

theorem compressionEnabled_createEach (p : OptimizedNetworkProtocol) (stamp : ℕ → UInt32)
    (flags : UInt16) (i : ℕ) (groups : List (List (PrioritizedMessage MessageTypes))) :
    (p.createEach stamp flags i groups).2.compressionEnabled = p.compressionEnabled := by
  induction groups generalizing p i with
  | nil => rfl
  | cons messages groups ih => exact ih (p.createPacket (stamp i) messages).2 (i + 1)

theorem ProtocolState.Raw.getPacketsToSend (h : s.Raw) (stamp : ℕ → UInt32)
    (messages : List (PrioritizedMessage MessageTypes)) :
    List.Forall₂ Plainly (s.getPacketsToSend dc clock std stamp messages).1
        (s.loads dc clock std messages) ∧
      (s.getPacketsToSend dc clock std stamp messages).2.Raw := by
  rw [ProtocolState.getPacketsToSend, ProtocolState.loads]
  by_cases hinit : s.initialized = true
  swap
  · rw [if_pos hinit, if_pos hinit]
    exact ⟨.nil, h⟩
  by_cases hnil : messages = []
  · rw [if_neg (not_not.mpr hinit), if_neg (not_not.mpr hinit), if_pos hnil, if_pos hnil]
    exact ⟨.nil, h⟩
  rw [if_neg (not_not.mpr hinit), if_neg (not_not.mpr hinit), if_neg hnil, if_neg hnil]
  dsimp only
  rw [ProtocolState.createPackets, if_neg hnil]
  have hkept : ∀ flags groups, (s.createEach stamp flags 0 groups).2.compressionEnabled = false :=
    fun flags groups => (compressionEnabled_createEach _ stamp flags 0 groups).trans
      h.compressionEnabled
  have hsingle : ∀ ms : List (PrioritizedMessage MessageTypes), List.Forall₂ Plainly
      (s.createEach stamp 0 0 (ms.map fun m => [m])).1 (ms.map fun m => [m]) := fun ms =>
    plainly_createEach h.compressionEnabled (by decide) stamp 0 _
  cases hon : s.batchingEnabled with
  | false => exact ⟨hsingle _, hkept _ _, h.batching⟩
  | true =>
    cases hbatching : s.batching with
    | none =>
      refine ⟨hsingle _, hkept _ _, fun b hb => ?_⟩
      cases hb
    | some b =>
      have hwhole := (h.batching b hbatching).foldl dc clock (s.inOrder std messages)
      have hloads := hwhole.loads
      refine ⟨?_, hkept _ _, ?_⟩
      · dsimp only [SmartBatching.getReadyBatches]
        rw [hloads]
        exact plainly_createEach h.compressionEnabled (by decide) stamp 0 _
      · intro b' hb'
        cases hb'
        exact hwhole.congr rfl fun _ hbatch => absurd hbatch List.not_mem_nil

end Made

namespace Outbound
variable {Q : Type} [BagQueue (PrioritizedMessage MessageTypes) Q] {e : Surroundings}
  {s : Outbound Q} {ops : List Op} {configuration : Configuration}

def deliveredAll (e : Surroundings) (s : Outbound Q) (ops : List Op) :
    List (NetworkPacket × List (PrioritizedMessage MessageTypes)) :=
  (Run.gather (step e) (deliveries e) s ops).flatten

theorem raw_initial (hpackets : configuration.compressionEnabled = false)
    (hbatches : configuration.batching.enableCompression = false) (now : ℚ) :
    (initial configuration now : Outbound Q).protocol.Raw where
  compressionEnabled := hpackets
  batching b hb := by
    cases hb
    exact ⟨hbatches, nofun⟩

theorem raw_step (h : s.protocol.Raw) (op : Op) : (step e s op).protocol.Raw := by
  cases op with
  | sendMessage message =>
    rw [step, sendMessage]
    split_ifs <;> exact h
  | getPacketsToSend stamp now =>
    rw [step, getPacketsToSend]
    split_ifs
    · exact (h.getPacketsToSend stamp _).2
    · exact h

theorem plainly_deliveries (h : s.protocol.Raw) {op : Op}
    {delivered : List (NetworkPacket × List (PrioritizedMessage MessageTypes))}
    (hop : s.deliveries e op = some delivered) : ∀ d ∈ delivered, Plainly d.1 d.2 := by
  cases op with
  | sendMessage message => exact absurd hop nofun
  | getPacketsToSend stamp now =>
    cases hop
    rw [getPacketsToSend]
    split_ifs with hinit
    · exact fun d hd => (List.forall₂_iff_zip.mp (h.getPacketsToSend stamp _).1).2 hd
    · exact fun d hd => absurd hd List.not_mem_nil

theorem plainly_deliveredAll (h : s.protocol.Raw) (ops : List Op) :
    ∀ d ∈ deliveredAll e s ops, Plainly d.1 d.2 := by
  induction ops generalizing s with
  | nil => exact nofun
  | cons op ops ih =>
    intro d hd
    rw [deliveredAll, Run.gather, List.flatten_append] at hd
    rcases List.mem_append.mp hd with hd | hd
    · obtain ⟨delivered, hdelivered, hd⟩ := List.mem_flatten.mp hd
      exact plainly_deliveries h (Option.mem_toList.mp hdelivered) d hd
    · exact ih (raw_step h op) d hd

end Outbound

theorem Inbound.runs_receive {ds : List (NetworkPacket × List (PrioritizedMessage MessageTypes))}
    (hplain : ∀ d ∈ ds, Plainly d.1 d.2) (hsize : ∀ d ∈ ds, d.1.data.length < 2 ^ 32)
    {r : Inbound} (hinit : r.initialized = true) (padding : UInt8) (padding' : NetworkPacket → UInt8) :
    ∃ r', Loops.runs (receive padding) r
        (ds.map fun d => ProtocolUtils.serializePacket ⟨d.1, padding' d.1⟩) = some r' ∧
      r'.arrived = r.arrived ++ (ds.flatMap Prod.snd).map content ∧
      r'.packetsReceived = r.packetsReceived + .ofNat ds.length := by
  induction ds generalizing r with
  | nil => exact ⟨r, rfl, (List.append_nil _).symm, (UInt32.add_zero _).symm⟩
  | cons d ds ih =>
    obtain ⟨hd, hds⟩ := List.forall_mem_cons.mp hplain
    obtain ⟨hsd, hsds⟩ := List.forall_mem_cons.mp hsize
    obtain ⟨r₁, hreceive, hinit₁, harrived, hcount⟩ := hd.receive hsd hinit padding (padding' d.1)
    obtain ⟨r', hruns, harrived', hcount'⟩ := ih hds hsds hinit₁
    refine ⟨r', ?_, ?_, ?_⟩
    · rw [List.map_cons, Loops.runs, hreceive]
      exact hruns
    · rw [harrived', harrived, List.flatMap_cons, List.map_append, List.append_assoc]
    · rw [hcount', hcount, List.length_cons, UInt32.add_assoc, UInt32.add_comm 1]
      exact congrArg _ (UInt32.ofNat_add _ _).symm

namespace Outbound
variable {Q : Type} [BagQueue (PrioritizedMessage MessageTypes) Q]

omit [BagQueue (PrioritizedMessage MessageTypes) Q] in
theorem content_of_sentAll {ms ns : List (PrioritizedMessage MessageTypes)}
    (h : sentAll ms = (ns : Multiset _)) : (ms.map content).Perm (ns.map content) := by
  have hcontent := congrArg (Multiset.map content) h
  rw [sentAll, Multiset.map_coe, List.map_map] at hcontent
  exact Multiset.coe_eq_coe.mp hcontent

theorem sentAll_carried (e : Surroundings) (configuration : Configuration) (now : ℚ) {ops : List Op}
    (hempty : (Run.run (step e) (initial configuration now : Outbound Q)
      ops).traffic.priorityQueue.hasMessages = false)
    (hpasses : configuration.batchingEnabled → Room.Passes e.dc e.clock configuration.batching {}
      (handedAll e (initial configuration now : Outbound Q) ops)) :
    sentAll (carried e (initial configuration now : Outbound Q) ops)
      = acceptedAll e (initial configuration now : Outbound Q) ops := by
  rw [← waiting_eq_zero_iff] at hempty
  have hsteady : Steady configuration (initial configuration now : Outbound Q) := ⟨rfl, rfl⟩
  have hwaiting : (initial configuration now : Outbound Q).traffic.waiting = 0 := by
    rw [NetworkTrafficManager.waiting, initial, MessagePriorityQueue.waiting,
      MessagePriorityQueue.initial, BagQueue.bag_empty]
    rfl
  cases hon : configuration.batchingEnabled with
  | false =>
    have hall := hsteady.carried_single (e := e) hon ops
    rwa [hempty, hwaiting, add_zero, zero_add] at hall
  | true =>
    have hfetched : Fetched configuration (initial configuration now : Outbound Q)
        (.initial configuration.batching now) := ⟨hsteady, rfl, ⟨rfl, rfl, rfl, rfl⟩, rfl⟩
    have hall := (hfetched.carried_iff hon hempty).mpr (hpasses hon)
    have hpending : sentAll (SmartBatching.initial configuration.batching now).pendingMessages = 0 :=
      rfl
    rwa [hwaiting, add_zero, hpending, zero_add] at hall

/-- With compression off, whichever packets of a run the network brings, in whatever order and however
often, the peer takes each and gets just the messages it carries, in that order. If it brings each
packet once, after the traffic queue is empty, and batching is off or lets the messages through, the
peer has every message accepted exactly once. -/
theorem arrives_run (e : Surroundings) (configuration : Configuration) (now : ℚ) (ops : List Op)
    (hpackets : configuration.compressionEnabled = false)
    (hbatches : configuration.batching.enableCompression = false)
    (hsize : ∀ d ∈ deliveredAll e (initial configuration now : Outbound Q) ops,
      d.1.data.length < 2 ^ 32)
    {ds : List (NetworkPacket × List (PrioritizedMessage MessageTypes))}
    (hbrought : ∀ d ∈ ds, d ∈ deliveredAll e (initial configuration now : Outbound Q) ops)
    {r : Inbound} (hinit : r.initialized = true) (padding : UInt8)
    (padding' : NetworkPacket → UInt8) :
    ∃ r', Loops.runs (Inbound.receive padding) r
        (ds.map fun d => ProtocolUtils.serializePacket ⟨d.1, padding' d.1⟩) = some r' ∧
      r'.arrived = r.arrived ++ (ds.flatMap Prod.snd).map content ∧
      r'.packetsReceived = r.packetsReceived + .ofNat ds.length ∧
      (ds.Perm (deliveredAll e (initial configuration now : Outbound Q) ops) →
        (Run.run (step e) (initial configuration now : Outbound Q)
          ops).traffic.priorityQueue.hasMessages = false →
        (configuration.batchingEnabled → Room.Passes e.dc e.clock configuration.batching {}
          (handedAll e (initial configuration now : Outbound Q) ops)) →
        r'.arrived.Perm (r.arrived ++
          (acceptedAll e (initial configuration now : Outbound Q) ops).map content)) := by
  have hraw := raw_initial (Q := Q) hpackets hbatches now
  have hplain := plainly_deliveredAll (e := e) hraw ops
  obtain ⟨r', hruns, harrived, hcount⟩ := Inbound.runs_receive
    (fun d hd => hplain d (hbrought d hd)) (fun d hd => hsize d (hbrought d hd)) hinit padding padding'
  refine ⟨r', hruns, harrived, hcount, fun hperm hempty hpasses => ?_⟩
  have hall := content_of_sentAll (sentAll_carried e configuration now hempty hpasses)
  rw [harrived]
  exact (((hperm.flatMap_right Prod.snd).map content).trans hall).append_left r.arrived

end Outbound
end Ends

theorem Outbound.arrives_run_overtaken :
    letI : Inhabited MessageTypes := ⟨.batchMessage⟩
    let e : Surroundings := {
      dc := ⟨true, 64⟩, clock := fun n => n / 1000, queueClock := fun n => n / 1000
      std := .insertion sendOrder }
    let s : Outbound (SortedQueue fun a b : PrioritizedMessage MessageTypes =>
        MessagePriorityQueue.messageComparator b a) :=
      initial { compression := ⟨true, 64⟩, compressionEnabled := false, batchingEnabled := false
                batching := { enableCompression := false } } 0
    let ops : List Op := [.sendMessage { messageId := 1, data := [1, 2] },
      .sendMessage { messageId := 2, data := [3] }, .getPacketsToSend (fun _ => 0) 1]
    let ds := (deliveredAll e s ops).drop 1 ++ deliveredAll e s ops
    let r : Inbound := ⟨true, s.protocol.toOptimizedNetworkProtocol, 0, 0, []⟩
    ∃ r', Loops.runs (Inbound.receive 0) r
        (ds.map fun d => ProtocolUtils.serializePacket ⟨d.1, 0⟩) = some r' ∧
      r'.arrived.map Prod.fst = [2, 1, 2] := by
  intro e s ops ds r
  obtain ⟨r', hruns, harrived, -, -⟩ := @arrives_run ⟨.batchMessage⟩ _ _ e
    { compression := ⟨true, 64⟩, compressionEnabled := false, batchingEnabled := false
      batching := { enableCompression := false } } 0 ops
    rfl rfl (by decide +kernel) ds
    (List.forall_mem_append.mpr ⟨fun _ hd => List.mem_of_mem_drop hd, fun _ hd => hd⟩) r rfl 0
    fun _ => 0
  refine ⟨r', hruns, ?_⟩
  rw [harrived]
  decide +kernel

end WitcherMP.Protocol
