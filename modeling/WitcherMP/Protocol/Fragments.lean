import WitcherMP.Lib.Words
import WitcherMP.Protocol.Defs

/-! Fragments and their reassembly. All fragments of a packet carry its sequence number, so that
sorting by it says nothing about their order. -/

namespace WitcherMP.Protocol.OptimizedNetworkProtocol

variable {packet : NetworkPacket}

theorem numFragments_spec (h : maxPacketSize < packet.data.length) :
    ∃ count, (packet.data.length + fragmentSize - 1) / fragmentSize = count + 1 ∧ 0 < count ∧
      count * fragmentSize < packet.data.length ∧
      packet.data.length ≤ (count + 1) * fragmentSize := by
  have hmax : maxPacketSize = 1048576 := by decide
  have hsize : fragmentSize = 1048544 := by decide
  rw [hmax] at h
  rw [hsize]
  refine ⟨(packet.data.length + 1048544 - 1) / 1048544 - 1, ?_, ?_, ?_, ?_⟩ <;> omega

theorem fragmentPacket_spec (h : maxPacketSize < packet.data.length) :
    (fragmentPacket packet).map NetworkPacket.data =
        Words.pieces fragmentSize ((packet.data.length + fragmentSize - 1) / fragmentSize)
          packet.data ∧
      ∀ fragment ∈ fragmentPacket packet,
        fragment.header.sequenceNumber = packet.header.sequenceNumber := by
  rw [fragmentPacket, if_neg (not_le.mpr h)]
  refine ⟨?_, fun fragment hf => ?_⟩
  · rw [List.map_map]
    rfl
  · obtain ⟨i, -, rfl⟩ := List.mem_map.mp hf
    rfl

theorem defragmentPacket_data
    (std : StdSort NetworkPacket fun packet => packet.header.sequenceNumber.toNat)
    (fragments : List NetworkPacket) :
    (defragmentPacket std fragments).data =
      ((std.sort fragments).map NetworkPacket.data).flatten := by
  rw [defragmentPacket]
  split
  · next hnil => rw [hnil]; rfl
  · next hcons =>
    rw [hcons]
    simp only [NetworkPacket.setData, List.map_cons, List.flatten_cons, List.flatMap_def]

/-- However the fragments arrive, and whatever the sorting routine does with equal keys, the
data are put together again. -/
def Restored (packet : NetworkPacket) : Prop :=
  ∀ (std : StdSort NetworkPacket fun packet => packet.header.sequenceNumber.toNat)
    (fragments : List NetworkPacket), fragments.Perm (fragmentPacket packet) →
      (defragmentPacket std fragments).data = packet.data

theorem restored_of_rotate (h : maxPacketSize < packet.data.length)
    (hturn : packet.data.rotate fragmentSize = packet.data) : Restored packet := by
  intro std fragments hperm
  obtain ⟨count, hcount, hpos, hlt, hle⟩ := numFragments_spec h
  obtain ⟨hpieces, -⟩ := fragmentPacket_spec h
  rw [hcount] at hpieces
  rw [defragmentPacket_data]
  refine (Words.perm_pieces_iff hpos hlt hle).mpr hturn _ ?_
  rw [← hpieces]
  exact ((std.perm fragments).trans hperm).map _

theorem rotate_of_restored (h : maxPacketSize < packet.data.length) (hr : Restored packet) :
    packet.data.rotate fragmentSize = packet.data := by
  obtain ⟨count, hcount, hpos, hlt, hle⟩ := numFragments_spec h
  obtain ⟨hpieces, hsame⟩ := fragmentPacket_spec h
  rw [hcount] at hpieces
  refine (Words.perm_pieces_iff hpos hlt hle).mp fun ls hls => ?_
  rw [← hpieces] at hls
  obtain ⟨fragments, rfl, hperm⟩ :=
    (congrFun (congrFun (List.eq_map_comp_perm NetworkPacket.data) ls) _).mpr hls
  have hkeys : ∀ a ∈ fragments, ∀ b ∈ fragments,
      a.header.sequenceNumber.toNat ≤ b.header.sequenceNumber.toNat := by
    intro a ha b hb
    rw [hsame a (hperm.mem_iff.mp ha), hsame b (hperm.mem_iff.mp hb)]
  rw [← hr (.insertion _) fragments hperm, defragmentPacket_data, StdSort.insertion_eq_self hkeys]

/-- A packet too large to go in one piece is restored from every order of its fragments exactly
when its data look the same turned round by one fragment. -/
theorem restored_iff_rotate (h : maxPacketSize < packet.data.length) :
    Restored packet ↔ packet.data.rotate fragmentSize = packet.data :=
  ⟨rotate_of_restored h, restored_of_rotate h⟩

theorem restored_iff_rotate_zeros :
    Restored { data := List.replicate (maxPacketSize + 1) 0 } :=
  (restored_iff_rotate (by simp)).mpr (List.rotate_replicate _ _ _)

theorem not_restored_marked :
    ¬ ∀ packet : NetworkPacket, maxPacketSize < packet.data.length → Restored packet := by
  intro h
  have hmax : maxPacketSize = 1048576 := by decide
  have hsize : fragmentSize = 1048544 := by decide
  have hlen : (List.replicate maxPacketSize (0 : UInt8) ++ [1]).length = 1048577 := by
    rw [List.length_append, List.length_replicate, List.length_singleton, hmax]
  have hturn := rotate_of_restored (by simp)
    (h { data := List.replicate maxPacketSize 0 ++ [1] } (by simp))
  have hbyte := congrArg (fun d => d[32]?) hturn
  dsimp only at hbyte
  rw [List.getElem?_rotate (by rw [hlen]; omega), hlen, hsize,
    List.getElem?_append_right (by rw [List.length_replicate, hmax]),
    List.getElem?_append_left (by rw [List.length_replicate, hmax]; omega),
    List.getElem?_replicate_of_lt (by rw [hmax]; omega), List.length_replicate, hmax] at hbyte
  exact absurd hbyte (by decide)

end WitcherMP.Protocol.OptimizedNetworkProtocol
