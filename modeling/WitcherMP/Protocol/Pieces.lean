import WitcherMP.Protocol.Fragments
import WitcherMP.Protocol.Wire

/-! What the fragments of a packet are on their own: valid packets, flagged, and on the wire no
longer than the limit. A packet within the limit goes out as it is, whatever its header adds, and
a packet flagged as a last fragment hands the flag on to all its fragments. -/

namespace WitcherMP.Protocol.OptimizedNetworkProtocol

variable {packet : NetworkPacket}

def fragmentAt (packet : NetworkPacket) (last i : ℕ) : NetworkPacket :=
  NetworkPacket.setData
    { packet with header := { packet.header with
      flags := packet.header.flags ||| PacketFlags.fragmented |||
        (if i = last then PacketFlags.lastFragment else 0) } }
    ((packet.data.drop (i * fragmentSize)).take fragmentSize)

theorem fragmentPacket_split (h : maxPacketSize < packet.data.length) :
    ∃ last, 0 < last ∧ last * fragmentSize < packet.data.length ∧
      packet.data.length ≤ (last + 1) * fragmentSize ∧
      fragmentPacket packet = (List.range (last + 1)).map (fragmentAt packet last) := by
  obtain ⟨last, hcount, hpos, hlt, hle⟩ := numFragments_spec h
  refine ⟨last, hpos, hlt, hle, ?_⟩
  rw [fragmentPacket, if_neg (not_le.mpr h), hcount]
  rfl

theorem length_fragmentAt_le (packet : NetworkPacket) (last i : ℕ) :
    (fragmentAt packet last i).data.length ≤ fragmentSize :=
  List.length_take_le _ _

theorem validatePacket_fragmentAt (hvalid : validatePacket packet = true) (last i : ℕ) :
    validatePacket (fragmentAt packet last i) = true := by
  obtain ⟨hmagic, hversion, -, -⟩ := validatePacket_iff.mp hvalid
  have hfits : fragmentSize < 2 ^ 32 := by decide
  exact validatePacket_setData hmagic hversion ((length_fragmentAt_le packet last i).trans_lt hfits)

theorem fragmentAt_data_ne_nil {last i : ℕ} (hlt : last * fragmentSize < packet.data.length)
    (hi : i ≤ last) : (fragmentAt packet last i).data ≠ [] := by
  have hstart : i * fragmentSize ≤ last * fragmentSize := Nat.mul_le_mul_right _ hi
  have hsize : 0 < fragmentSize := by decide
  apply List.ne_nil_of_length_pos
  change 0 < ((packet.data.drop (i * fragmentSize)).take fragmentSize).length
  rw [List.length_take, List.length_drop]
  omega

theorem flags_or {a b flag : UInt16} :
    (a ||| b) &&& flag = 0 ↔ a &&& flag = 0 ∧ b &&& flag = 0 := by
  have hdistrib : (a ||| b) &&& flag = a &&& flag ||| b &&& flag :=
    UInt16.toBitVec_inj.mp BitVec.and_or_distrib_right
  rw [hdistrib, UInt16.or_eq_zero_iff]

theorem fragmented_fragmentAt (packet : NetworkPacket) (last i : ℕ) :
    (fragmentAt packet last i).header.flags &&& PacketFlags.fragmented ≠ 0 := by
  intro hzero
  have hown := (flags_or.mp (flags_or.mp hzero).1).2
  exact absurd hown (by decide)

theorem lastFragment_fragmentAt (packet : NetworkPacket) (last i : ℕ) :
    (fragmentAt packet last i).header.flags &&& PacketFlags.lastFragment ≠ 0 ↔
      i = last ∨ packet.header.flags &&& PacketFlags.lastFragment ≠ 0 := by
  have hother : PacketFlags.fragmented &&& PacketFlags.lastFragment = 0 := by decide
  have hown : PacketFlags.lastFragment &&& PacketFlags.lastFragment ≠ 0 := by decide
  change (_ ||| _ ||| _) &&& _ ≠ 0 ↔ _
  rw [Ne, flags_or, flags_or]
  split
  · next heq => exact iff_of_true (fun h => hown h.2) (Or.inl heq)
  · next hne =>
    have hzero : (0 : UInt16) &&& PacketFlags.lastFragment = 0 := by decide
    simp only [hother, hzero, hne, and_true, false_or]

structure Parts (packet : NetworkPacket) (fragments : List NetworkPacket) : Prop where
  concat : (fragments.map NetworkPacket.data).flatten = packet.data
  nonempty : packet.data ≠ [] → ∀ fragment ∈ fragments, fragment.data ≠ []
  valid : ∀ fragment ∈ fragments, validatePacket fragment = true
  fragmented : 1 < fragments.length → ∀ fragment ∈ fragments,
    fragment.header.flags &&& PacketFlags.fragmented ≠ 0
  lastFragment : 1 < fragments.length → ∀ (i : ℕ) (h : i < fragments.length),
    fragments[i].header.flags &&& PacketFlags.lastFragment ≠ 0 ↔ i + 1 = fragments.length

theorem parts_of_within (hvalid : validatePacket packet = true)
    (h : packet.data.length ≤ maxPacketSize) : Parts packet (fragmentPacket packet) := by
  rw [fragmentPacket, if_pos h]
  exact {
    concat := by simp
    nonempty := fun hne => List.forall_mem_singleton.mpr hne
    valid := List.forall_mem_singleton.mpr hvalid
    fragmented := fun hlt => absurd hlt (lt_irrefl 1)
    lastFragment := fun hlt => absurd hlt (lt_irrefl 1) }

theorem parts_fragments {last : ℕ} (hvalid : validatePacket packet = true)
    (hlt : last * fragmentSize < packet.data.length)
    (hle : packet.data.length ≤ (last + 1) * fragmentSize)
    (hflag : packet.header.flags &&& PacketFlags.lastFragment = 0) :
    Parts packet ((List.range (last + 1)).map (fragmentAt packet last)) where
  concat := by
    have hcut := Words.flatten_pieces fragmentSize (last + 1) packet.data
    rw [List.take_of_length_le hle] at hcut
    rw [List.map_map]
    exact hcut
  nonempty := by
    intro _
    rw [List.forall_mem_map]
    intro i hi
    exact fragmentAt_data_ne_nil hlt (Nat.le_of_lt_succ (List.mem_range.mp hi))
  valid := by
    rw [List.forall_mem_map]
    intro i _
    exact validatePacket_fragmentAt hvalid last i
  fragmented := by
    intro _
    rw [List.forall_mem_map]
    intro i _
    exact fragmented_fragmentAt packet last i
  lastFragment := by
    intro _ i hi
    rw [List.getElem_map, List.getElem_range, lastFragment_fragmentAt,
      or_iff_left (not_not.mpr hflag), List.length_map, List.length_range, Nat.add_right_cancel_iff]

theorem flag_of_parts {last : ℕ} (hpos : 0 < last)
    (h : Parts packet ((List.range (last + 1)).map (fragmentAt packet last))) :
    packet.header.flags &&& PacketFlags.lastFragment = 0 := by
  by_contra hflag
  have hlength : ((List.range (last + 1)).map (fragmentAt packet last)).length = last + 1 := by
    rw [List.length_map, List.length_range]
  have hfirst := h.lastFragment (by omega) 0 (by omega)
  rw [List.getElem_map, List.getElem_range, lastFragment_fragmentAt, hlength] at hfirst
  have hzero := hfirst.mp (Or.inr hflag)
  omega

theorem parts_iff_of_split (hvalid : validatePacket packet = true)
    (h : maxPacketSize < packet.data.length) :
    Parts packet (fragmentPacket packet) ↔
      packet.header.flags &&& PacketFlags.lastFragment = 0 := by
  obtain ⟨last, hpos, hlt, hle, hsplit⟩ := fragmentPacket_split h
  rw [hsplit]
  exact ⟨flag_of_parts hpos, parts_fragments hvalid hlt hle⟩

/-- The fragments of a valid packet are its parts exactly if it goes out whole or does not bring
the flag of a last fragment along. -/
theorem parts_iff (hvalid : validatePacket packet = true) :
    Parts packet (fragmentPacket packet) ↔
      packet.data.length ≤ maxPacketSize ∨ packet.header.flags &&& PacketFlags.lastFragment = 0 := by
  by_cases h : packet.data.length ≤ maxPacketSize
  · exact iff_of_true (parts_of_within hvalid h) (Or.inl h)
  · rw [parts_iff_of_split hvalid (not_le.mp h), or_iff_right h]

theorem parts_iff_zeros :
    let packet := NetworkPacket.setData {} (List.replicate (maxPacketSize + 1) 0)
    Parts packet (fragmentPacket packet) ↔
      packet.data.length ≤ maxPacketSize ∨ packet.header.flags &&& PacketFlags.lastFragment = 0 :=
  parts_iff (validatePacket_setData rfl rfl (by rw [List.length_replicate]; decide))

theorem not_parts_flagged :
    ¬ ∀ packet : NetworkPacket, validatePacket packet = true → Parts packet (fragmentPacket packet) := by
  intro h
  have hlarge : maxPacketSize < (List.replicate (maxPacketSize + 1) (0 : UInt8)).length := by simp
  have hvalid : validatePacket (NetworkPacket.setData
      { header := { flags := PacketFlags.lastFragment } } (List.replicate (maxPacketSize + 1) 0)) =
        true :=
    validatePacket_setData rfl rfl (by rw [List.length_replicate]; decide)
  exact absurd ((parts_iff_of_split hvalid hlarge).mp (h _ hvalid)) (by decide)

/-- A packet goes out within the limit exactly if there is room for the header, or it is split. -/
theorem serializePacket_within_iff (packet : NetworkPacket) :
    (∀ fragment ∈ fragmentPacket packet, ∀ padding : UInt8,
        (ProtocolUtils.serializePacket ⟨fragment, padding⟩).length ≤ maxPacketSize) ↔
      packet.data.length ≤ maxPacketSize - sizeofPacketHeader ∨
        maxPacketSize < packet.data.length := by
  have hmax : maxPacketSize = 1048576 := by decide
  have hheader : sizeofPacketHeader = 32 := rfl
  have hsize : fragmentSize = 1048544 := by decide
  by_cases h : packet.data.length ≤ maxPacketSize
  · rw [fragmentPacket, if_pos h, List.forall_mem_singleton]
    simp only [ProtocolUtils.length_serializePacket, hheader, forall_const]
    omega
  · refine iff_of_true ?_ (Or.inr (not_le.mp h))
    obtain ⟨last, -, -, -, hsplit⟩ := fragmentPacket_split (not_le.mp h)
    rw [hsplit, List.forall_mem_map]
    intro i _ padding
    have hle := length_fragmentAt_le packet last i
    rw [ProtocolUtils.length_serializePacket]
    dsimp only
    omega

theorem not_serializePacket_within_largest :
    ¬ ∀ packet : NetworkPacket, ∀ fragment ∈ fragmentPacket packet, ∀ padding : UInt8,
      (ProtocolUtils.serializePacket ⟨fragment, padding⟩).length ≤ maxPacketSize := by
  intro h
  obtain ⟨packet, hlen⟩ : ∃ packet : NetworkPacket, packet.data.length = maxPacketSize :=
    ⟨{ data := List.replicate maxPacketSize 0 }, List.length_replicate⟩
  have hwhole : packet ∈ fragmentPacket packet := by
    rw [fragmentPacket, if_pos hlen.le]
    exact List.mem_singleton_self packet
  have hle := h packet packet hwhole 0
  rw [ProtocolUtils.length_serializePacket, hlen] at hle
  exact absurd hle (by decide)

end WitcherMP.Protocol.OptimizedNetworkProtocol
