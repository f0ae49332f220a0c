import WitcherMP.Compression.Defs
import WitcherMP.Lib.Sorting
import WitcherMP.Messages.Queue

/-! The network protocol: packets of messages, with or without compression, and fragments of
packets that are too large. Readings of the clock are arguments. -/

namespace WitcherMP.Protocol

open Compression Messages

def protocolVersion : UInt32 := 1

def maxPacketSize : ℕ := 1024 * 1024

/-- The types of packets: any byte converts to one. -/
structure PacketType where
  value : UInt8
deriving DecidableEq

namespace PacketType

def data : PacketType := ⟨0⟩
def acknowledgment : PacketType := ⟨1⟩
def heartbeat : PacketType := ⟨2⟩
def compression : PacketType := ⟨3⟩
def batch : PacketType := ⟨4⟩
def control : PacketType := ⟨5⟩

end PacketType

namespace PacketFlags

def compressed : UInt16 := (1 : UInt16) <<< 0
def fragmented : UInt16 := (1 : UInt16) <<< 4
def lastFragment : UInt16 := (1 : UInt16) <<< 5

end PacketFlags

structure PacketHeader where
  magic : UInt32 := 0xDEADBEEF
  version : UInt32 := protocolVersion
  packetId : UInt32 := 0
  sequenceNumber : UInt32 := 0
  timestamp : UInt32 := 0
  type : PacketType := .data
  flags : UInt16 := 0
  dataSize : UInt32 := 0
  checksum : UInt32 := 0
deriving DecidableEq

/-- The size of a header in memory: seven words, and a byte and a half word in an eighth. -/
def sizeofPacketHeader : ℕ := 32

structure NetworkPacket where
  header : PacketHeader := {}
  data : List UInt8 := []
  sendTime : ℚ := 0
  ackTime : ℚ := 0
  retryCount : UInt32 := 0
  isAcknowledged : Bool := false
deriving DecidableEq

structure OptimizedNetworkProtocol where
  nextPacketId : UInt32
  nextSequenceNumber : UInt32
  compressionEnabled : Bool
  compressionLevel : CompressionLevel
  compression : Option DataCompression

def checksumFrom (place : ℕ) : List UInt8 → UInt32
  | [] => 0
  | b :: bs => .ofNat (b.toNat * (place + 1)) + checksumFrom (place + 1) bs

def calculateChecksum (data : List UInt8) : UInt32 := checksumFrom 0 data

def NetworkPacket.setData (packet : NetworkPacket) (data : List UInt8) : NetworkPacket :=
  { packet with
    data := data
    header := { packet.header with
      dataSize := .ofNat data.length
      checksum := calculateChecksum data } }

namespace OptimizedNetworkProtocol

section Messages
variable [Inhabited MessageTypes]

def record (message : PrioritizedMessage MessageTypes) : List UInt8 :=
  Bytes.le32 message.messageId.toNat ++ Bytes.le32 message.type.value.toNat ++
    Bytes.le32 message.data.length ++ message.data

def serializeMessages (messages : List (PrioritizedMessage MessageTypes)) : List UInt8 :=
  messages.flatMap record

def payload (p : OptimizedNetworkProtocol) (messageData : List UInt8) : List UInt8 × Bool :=
  match p.compressionEnabled, p.compression with
  | true, some dc =>
    let compressedData := dc.compress messageData .lz4 p.compressionLevel
    if compressedData.length < messageData.length then (compressedData, true)
    else (messageData, false)
  | _, _ => (messageData, false)

def createPacket (p : OptimizedNetworkProtocol) (now : UInt32)
    (messages : List (PrioritizedMessage MessageTypes)) :
    NetworkPacket × OptimizedNetworkProtocol :=
  let sent := payload p (serializeMessages messages)
  let packet : NetworkPacket := { header := {
    packetId := p.nextPacketId
    sequenceNumber := p.nextSequenceNumber
    timestamp := now
    type := .data
    flags := if sent.2 then PacketFlags.compressed else 0 } }
  (packet.setData sent.1, { p with
    nextPacketId := p.nextPacketId + 1
    nextSequenceNumber := p.nextSequenceNumber + 1 })

def extractLoop : ℕ → List UInt8 → List (PrioritizedMessage MessageTypes)
  | 0, _ => []
  | fuel + 1, messageData =>
    if 12 ≤ messageData.length then
      let dataSize := Bytes.readLE32 (messageData.drop 8)
      let rest := messageData.drop 12
      if dataSize > rest.length then []
      else
        { messageId := .ofNat (Bytes.readLE32 messageData)
          type := ⟨.ofNat (Bytes.readLE32 (messageData.drop 4))⟩
          data := rest.take dataSize } :: extractLoop fuel (rest.drop dataSize)
    else []

def messageData (p : OptimizedNetworkProtocol) (packet : NetworkPacket) : Option (List UInt8) :=
  if packet.header.flags &&& PacketFlags.compressed ≠ 0 then
    match p.compression with
    | some dc => dc.decompress packet.data
    | none => some packet.data
  else some packet.data

def extractMessages (p : OptimizedNetworkProtocol) (packet : NetworkPacket) :
    Option (List (PrioritizedMessage MessageTypes)) :=
  if packet.data = [] then some []
  else (p.messageData packet).map fun data => extractLoop data.length data

end Messages

def fragmentSize : ℕ := maxPacketSize - sizeofPacketHeader

def fragmentPacket (packet : NetworkPacket) : List NetworkPacket :=
  if packet.data.length ≤ maxPacketSize then [packet]
  else
    let numFragments := (packet.data.length + fragmentSize - 1) / fragmentSize
    (List.range numFragments).map fun i =>
      let last := if i = numFragments - 1 then PacketFlags.lastFragment else 0
      -- every fragment keeps the packet's own sequence number
      let fragment : NetworkPacket := { packet with header := { packet.header with
        flags := packet.header.flags ||| PacketFlags.fragmented ||| last } }
      fragment.setData ((packet.data.drop (i * fragmentSize)).take fragmentSize)

/-- The fragments are put in the order of a sorting routine for the sequence numbers. -/
def defragmentPacket (std : StdSort NetworkPacket fun packet => packet.header.sequenceNumber.toNat)
    (fragments : List NetworkPacket) : NetworkPacket :=
  match std.sort fragments with
  | [] => {}
  | first :: others =>
    let combined : NetworkPacket := { first with header := { first.header with
      flags := first.header.flags &&& ~~~ PacketFlags.fragmented &&& ~~~ PacketFlags.lastFragment } }
    combined.setData (first.data ++ others.flatMap fun fragment => fragment.data)

end OptimizedNetworkProtocol
end WitcherMP.Protocol
