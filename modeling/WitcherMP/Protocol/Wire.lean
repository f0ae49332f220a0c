import WitcherMP.Lib.Layouts
import WitcherMP.Protocol.Defs

/-! Packets as bytes. The header goes out as it lies in memory; bytes too few for a header give a
fresh packet, which passes every check. -/

namespace WitcherMP.Protocol

/-- A packet as it lies in memory: the byte between `type` and `flags` belongs to no field. -/
structure Stored where
  packet : NetworkPacket
  padding : UInt8

def headerLayout : Layout (PacketHeader × UInt8) :=
  (Layout.word32.pair <| .pair .word32 <| .pair .word32 <| .pair .word32 <| .pair .word32 <|
    .pair .byte <| .pair .byte <| .pair .word16 <| .pair .word32 .word32).map
    (fun v => ({
      magic := v.1
      version := v.2.1
      packetId := v.2.2.1
      sequenceNumber := v.2.2.2.1
      timestamp := v.2.2.2.2.1
      type := ⟨v.2.2.2.2.2.1⟩
      flags := v.2.2.2.2.2.2.2.1
      dataSize := v.2.2.2.2.2.2.2.2.1
      checksum := v.2.2.2.2.2.2.2.2.2 }, v.2.2.2.2.2.2.1))
    (fun v => (v.1.magic, v.1.version, v.1.packetId, v.1.sequenceNumber, v.1.timestamp,
      v.1.type.value, v.2, v.1.flags, v.1.dataSize, v.1.checksum))
    (fun _ => rfl) (fun _ => rfl)

theorem width_headerLayout : headerLayout.width = sizeofPacketHeader := rfl

namespace OptimizedNetworkProtocol

def verifyChecksum (packet : NetworkPacket) : Bool :=
  calculateChecksum packet.data = packet.header.checksum

def validatePacket (packet : NetworkPacket) : Bool :=
  if packet.header.magic ≠ 0xDEADBEEF then false
  else if packet.header.version ≠ protocolVersion then false
  else if packet.header.dataSize.toNat ≠ packet.data.length then false
  else if ¬ verifyChecksum packet then false
  else true

theorem validatePacket_iff {packet : NetworkPacket} :
    validatePacket packet = true ↔
      packet.header.magic = 0xDEADBEEF ∧ packet.header.version = protocolVersion ∧
        packet.header.dataSize.toNat = packet.data.length ∧
        calculateChecksum packet.data = packet.header.checksum := by
  simp only [validatePacket, verifyChecksum, decide_eq_true_eq]
  by_cases hmagic : packet.header.magic = 0xDEADBEEF <;>
    by_cases hversion : packet.header.version = protocolVersion <;>
      by_cases hsize : packet.header.dataSize.toNat = packet.data.length <;>
        simp [hmagic, hversion, hsize]

theorem validatePacket_setData {packet : NetworkPacket} {data : List UInt8}
    (hmagic : packet.header.magic = 0xDEADBEEF) (hversion : packet.header.version = protocolVersion)
    (hsize : data.length < 2 ^ 32) : validatePacket (packet.setData data) = true :=
  validatePacket_iff.mpr ⟨hmagic, hversion, UInt32.toNat_ofNat_of_lt' hsize, rfl⟩

end OptimizedNetworkProtocol

namespace ProtocolUtils

def serializePacket (stored : Stored) : List UInt8 :=
  headerLayout.write (stored.packet.header, stored.padding) ++ stored.packet.data

def deserializePacket (padding : UInt8) (data : List UInt8) : Stored :=
  if data.length < sizeofPacketHeader then ⟨{}, padding⟩
  else
    let read := headerLayout.read data
    let packet : NetworkPacket := { header := read.1 }
    if data.length ≥ sizeofPacketHeader + packet.header.dataSize.toNat then
      ⟨{ packet with
        data := (data.drop sizeofPacketHeader).take packet.header.dataSize.toNat }, read.2⟩
    else ⟨packet, read.2⟩

def isValidPacket (packet : NetworkPacket) : Bool :=
  packet.header.magic = 0xDEADBEEF && packet.header.version = protocolVersion &&
    packet.header.dataSize.toNat = packet.data.length

/-- Neither check rejects the packet. -/
def Accepted (packet : NetworkPacket) : Prop :=
  isValidPacket packet = true ∧ OptimizedNetworkProtocol.validatePacket packet = true

theorem Accepted.dataSize_eq {packet : NetworkPacket} (h : Accepted packet) :
    packet.header.dataSize.toNat = packet.data.length := by
  have hvalid := h.1
  rw [isValidPacket, Bool.and_eq_true, decide_eq_true_eq] at hvalid
  exact hvalid.2

theorem accepted_default : Accepted {} := ⟨by decide, by decide⟩

theorem length_serializePacket (stored : Stored) :
    (serializePacket stored).length = sizeofPacketHeader + stored.packet.data.length := by
  rw [serializePacket, List.length_append, headerLayout.length_write, width_headerLayout]

theorem deserializePacket_of_short {data : List UInt8} (h : data.length < sizeofPacketHeader)
    (padding : UInt8) : deserializePacket padding data = ⟨{}, padding⟩ := if_pos h

theorem header_deserializePacket {data : List UInt8} (h : sizeofPacketHeader ≤ data.length)
    (padding : UInt8) :
    ((deserializePacket padding data).packet.header, (deserializePacket padding data).padding) =
      headerLayout.read data := by
  rw [deserializePacket, if_neg (not_lt.mpr h)]
  dsimp only
  split <;> rfl

theorem data_of_accepted {data : List UInt8} (h : sizeofPacketHeader ≤ data.length) {padding : UInt8}
    (hacc : Accepted (deserializePacket padding data).packet) :
    (deserializePacket padding data).packet.data = (data.drop sizeofPacketHeader).take
      (deserializePacket padding data).packet.header.dataSize.toNat := by
  have hsize := hacc.dataSize_eq
  rw [deserializePacket, if_neg (not_lt.mpr h)] at hsize ⊢
  dsimp only at hsize ⊢
  split_ifs at hsize ⊢
  · rfl
  · rw [hsize, List.length_nil, List.take_zero]

theorem serializePacket_begins {data : List UInt8} (h : sizeofPacketHeader ≤ data.length)
    {padding : UInt8} (hacc : Accepted (deserializePacket padding data).packet) :
    serializePacket (deserializePacket padding data) <+: data := by
  rw [serializePacket, header_deserializePacket h, data_of_accepted h hacc,
    headerLayout.write_read data h, width_headerLayout, ← List.take_add]
  exact List.take_prefix _ _

def Truncation (data : List UInt8) : Prop :=
  ∃ stored, Accepted stored.packet ∧ data <+: serializePacket stored ∧
    data.length < (serializePacket stored).length

theorem not_accepted_of_truncation {data : List UInt8} (h : sizeofPacketHeader ≤ data.length)
    (htrunc : Truncation data) (padding : UInt8) :
    ¬ Accepted (deserializePacket padding data).packet := by
  intro hacc
  obtain ⟨stored, hstored, ⟨rest, hrest⟩, hlt⟩ := htrunc
  have hheader : (deserializePacket padding data).packet.header = stored.packet.header := by
    have hread := headerLayout.read_write (stored.packet.header, stored.padding) stored.packet.data
    rw [← serializePacket, ← hrest, headerLayout.read_append h, ← header_deserializePacket h padding]
      at hread
    exact congrArg Prod.fst hread
  have hlen := (serializePacket_begins h hacc).length_le
  rw [length_serializePacket, ← hacc.dataSize_eq, hheader, hstored.dataSize_eq,
    ← length_serializePacket] at hlen
  omega

/-- Of the front parts of accepted packets exactly those are rejected that have a whole header, and
exactly the bytes that are as long as a header are not taken for a packet that they do not hold. -/
theorem rejected_iff_header (padding : UInt8) (data : List UInt8) :
    (Truncation data → (¬ Accepted (deserializePacket padding data).packet ↔
      sizeofPacketHeader ≤ data.length)) ∧
    ((Accepted (deserializePacket padding data).packet →
      serializePacket (deserializePacket padding data) <+: data) ↔
      sizeofPacketHeader ≤ data.length) := by
  by_cases h : sizeofPacketHeader ≤ data.length
  · exact ⟨fun htrunc => iff_of_true (not_accepted_of_truncation h htrunc padding) h,
      iff_of_true (serializePacket_begins h) h⟩
  · have hfresh := deserializePacket_of_short (not_le.mp h) padding
    have hacc : Accepted (deserializePacket padding data).packet := hfresh ▸ accepted_default
    refine ⟨fun _ => iff_of_false (not_not.mpr hacc) h, iff_of_false (fun hbegins => ?_) h⟩
    have hlen := (hbegins hacc).length_le
    rw [length_serializePacket] at hlen
    omega

theorem not_rejected_empty :
    ¬ ∀ (padding : UInt8) (data : List UInt8),
      (Truncation data → ¬ Accepted (deserializePacket padding data).packet) ∧
      (Accepted (deserializePacket padding data).packet →
        serializePacket (deserializePacket padding data) <+: data) := by
  intro h
  have hempty := (h 0 []).1 ⟨⟨{}, 0⟩, ⟨by decide, by decide⟩, List.nil_prefix, by decide⟩
  exact hempty ⟨by decide, by decide⟩

end ProtocolUtils
end WitcherMP.Protocol
