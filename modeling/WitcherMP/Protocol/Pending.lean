import WitcherMP.Protocol.Defs
import WitcherMP.Batching.Defs
import WitcherMP.Lib.Word32
import Mathlib.Data.Prod.Lex

/-! The packets the protocol has handed out and waits for. The messages of a call are those the
traffic manager has ready; readings of the clock are arguments, floats are exact, and the
callbacks only observe. -/

namespace WitcherMP.Protocol

open Compression Messages Batching

namespace PacketFlags

def batch : UInt16 := (1 : UInt16) <<< 8

end PacketFlags

structure NetworkStats where
  packetsSent : UInt32 := 0
  packetsLost : UInt32 := 0
  packetsRetransmitted : UInt32 := 0
  bytesSent : UInt32 := 0
  averageLatency : ℚ := 0
  maxLatency : ℚ := 0
  packetLossRate : ℚ := 0
deriving DecidableEq

/-- The protocol with its queues. Nothing takes packets off `sendQueue`. -/
structure ProtocolState [Inhabited MessageTypes] extends OptimizedNetworkProtocol where
  initialized : Bool
  priorityEnabled : Bool
  batchingEnabled : Bool
  batching : Option SmartBatching
  sendQueue : List NetworkPacket := []
  pendingPackets : OrdMap UInt32 NetworkPacket := .empty
  stats : NetworkStats := {}

def sendOrder [Inhabited MessageTypes] (message : PrioritizedMessage MessageTypes) : ℕ ×ₗ ℕ :=
  toLex (message.classification.priority.value, message.classification.urgency.value)

/-- More than a second since the packet was sent, or since the epoch if it never was. -/
def overdue (now : ℚ) (packet : NetworkPacket) : Bool :=
  (now - packet.sendTime) * 1000 > 1000 && ¬ packet.isAcknowledged

namespace OptimizedNetworkProtocol
variable [Inhabited MessageTypes]

def createEach (p : OptimizedNetworkProtocol) (stamp : ℕ → UInt32) (flags : UInt16) :
    ℕ → List (List (PrioritizedMessage MessageTypes)) → List NetworkPacket × OptimizedNetworkProtocol
  | _, [] => ([], p)
  | i, messages :: groups =>
    let created := p.createPacket (stamp i) messages
    let packet : NetworkPacket := { created.1 with header := { created.1.header with
      flags := created.1.header.flags ||| flags } }
    let rest := createEach created.2 stamp flags (i + 1) groups
    (packet :: rest.1, rest.2)

end OptimizedNetworkProtocol

namespace ProtocolState
variable [Inhabited MessageTypes] (dc : DataCompression) (clock : ℕ → ℚ)
  (std : StdSort (PrioritizedMessage MessageTypes) sendOrder)

def initial (initialized priorityEnabled compressionEnabled batchingEnabled : Bool)
    (compressionLevel : CompressionLevel) (compression : Option DataCompression)
    (batching : Option SmartBatching) : ProtocolState where
  nextPacketId := 1
  nextSequenceNumber := 1
  compressionEnabled := compressionEnabled
  compressionLevel := compressionLevel
  compression := compression
  initialized := initialized
  priorityEnabled := priorityEnabled
  batchingEnabled := batchingEnabled
  batching := batching

/-- With batching, only what the batching system has ready goes out; the rest stays with it. -/
def createPackets (s : ProtocolState) (stamp : ℕ → UInt32)
    (messages : List (PrioritizedMessage MessageTypes)) : List NetworkPacket × ProtocolState :=
  if messages = [] then ([], s) else
  let processedMessages := if s.priorityEnabled then std.sort messages else messages
  match s.batchingEnabled, s.batching with
  | true, some batching =>
    let batching := processedMessages.foldl (fun b m => (b.addMessage dc clock m).1) batching
    let ready := batching.getReadyBatches
    let groups := (ready.1.map BatchedMessage.messages).filter (· ≠ [])
    let created := s.createEach stamp PacketFlags.batch 0 groups
    (created.1, { s with toOptimizedNetworkProtocol := created.2, batching := some ready.2 })
  | _, _ =>
    let created := s.createEach stamp 0 0 (processedMessages.map fun m => [m])
    (created.1, { s with toOptimizedNetworkProtocol := created.2 })

def getPacketsToSend (s : ProtocolState) (stamp : ℕ → UInt32)
    (messages : List (PrioritizedMessage MessageTypes)) : List NetworkPacket × ProtocolState :=
  if ¬ s.initialized then ([], s)
  else if messages = [] then ([], s)
  else
    let created := s.createPackets dc clock std stamp messages
    let packets := created.1
    let s := created.2
    (packets, { s with
      sendQueue := s.sendQueue ++ packets
      pendingPackets := s.pendingPackets.insertAll (fun packet => packet.header.packetId) packets
      stats := { s.stats with
        packetsSent := s.stats.packetsSent + .ofNat packets.length
        bytesSent := s.stats.bytesSent + .ofNat (packets.map fun packet => packet.data.length).sum } })

def markPacketSent (s : ProtocolState) (packetId : UInt32) (now : ℚ) : ProtocolState :=
  match s.pendingPackets.find? packetId with
  | none => s
  | some packet =>
    { s with pendingPackets := s.pendingPackets.insert packetId { packet with sendTime := now } }

def markPacketAcknowledged (s : ProtocolState) (packetId : UInt32) (now : ℚ) : ProtocolState :=
  match s.pendingPackets.find? packetId with
  | none => s
  | some packet =>
    let latency := (now - packet.sendTime) * 1000
    { s with
      stats := { s.stats with
        averageLatency := (s.stats.averageLatency + latency) / 2
        maxLatency := max s.stats.maxLatency latency }
      pendingPackets := s.pendingPackets.erase packetId }

def markPacketLost (s : ProtocolState) (packetId : UInt32) : ProtocolState :=
  match s.pendingPackets.find? packetId with
  | none => s
  | some _ =>
    let packetsLost := s.stats.packetsLost + 1
    { s with
      stats := { s.stats with
        packetsLost := packetsLost
        packetLossRate := packetsLost.toNat / s.stats.packetsSent.toNat }
      pendingPackets := s.pendingPackets.erase packetId }

def handleRetransmission (s : ProtocolState) (now : ℚ) : ProtocolState :=
  let late := (s.pendingPackets.entries.map Prod.snd).filter (overdue now)
  { s with
    sendQueue := s.sendQueue ++ late
    stats := { s.stats with
      packetsRetransmitted := s.stats.packetsRetransmitted + .ofNat late.length }
    pendingPackets := s.pendingPackets.filter fun _ packet => ¬ overdue now packet }

end ProtocolState
end WitcherMP.Protocol
