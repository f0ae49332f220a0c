import WitcherMP.Compression.RoundTrip
import WitcherMP.Protocol.Framing

/-! What a receiver makes of a compressed packet. It decodes the upper half of the compressed
size with the messages, so that they arrive two bytes late. -/

namespace WitcherMP.Protocol.OptimizedNetworkProtocol

open Compression Messages

/-- There is a codec, and it saves more than the ten bytes of the header. -/
def Pays (p : OptimizedNetworkProtocol) (data : List UInt8) : Prop :=
  ∃ dc, p.compression = some dc ∧ dc.initialized = true ∧ dc.minCompressionSize ≤ data.length ∧
    (compressLZ4 data).length + 10 < data.length

variable {p : OptimizedNetworkProtocol} {data : List UInt8}

theorem payload_of_pays {dc : DataCompression} (hdc : p.compression = some dc)
    (hsaves : dc.Saves .lz4 data) : payload { p with compressionEnabled := true } data =
      (dc.compress data .lz4 p.compressionLevel, true) := by
  have hlt := (DataCompression.length_compress_lt_iff p.compressionLevel).mpr hsaves
  simp only [payload, hdc]
  rw [if_pos hlt]

theorem payload_of_not_pays (h : ¬ p.Pays data) :
    payload { p with compressionEnabled := true } data = (data, false) := by
  cases hdc : p.compression with
  | none => simp only [payload]
  | some dc =>
    simp only [payload]
    refine if_neg fun hlt => h ?_
    exact ⟨dc, hdc, (DataCompression.length_compress_lt_iff p.compressionLevel).mp hlt⟩

theorem messageData_raw {packet : NetworkPacket} (h : packet.header.flags = 0) :
    p.messageData packet = some packet.data := by
  rw [messageData, h, if_neg (by decide)]

theorem messageData_compressed {packet : NetworkPacket} {dc : DataCompression}
    (hdc : p.compression = some dc) (h : packet.header.flags = PacketFlags.compressed) :
    p.messageData packet = dc.decompress packet.data := by
  rw [messageData, h, if_pos (by decide), hdc]

/-- Two bytes in front of the data, which the data go on with themselves: those of the compressed
size, which must not be an escape. -/
def Echoes (data : List UInt8) : Prop :=
  (compressLZ4 data).length < 2 ^ 23 ∧
    data <+: .ofNat ((compressLZ4 data).length / 65536) :: 0 :: data

theorem echoes_iff_zero (h : (compressLZ4 data).length < 65536) :
    Echoes data ↔ ∀ b ∈ data, b = 0 := by
  rw [Echoes, Nat.div_eq_of_lt h]
  constructor
  · rintro ⟨-, hdata⟩ b hb
    simpa using Words.mem_of_prefix_append (w := [0, 0]) (List.cons_ne_nil _ _) hdata hb
  · intro hzero
    refine ⟨by omega, ?_⟩
    have hnone : UInt8.ofNat 0 = 0 := rfl
    rw [List.eq_replicate_of_mem hzero, hnone]
    refine ⟨List.replicate 2 0, ?_⟩
    rw [← List.replicate_succ, ← List.replicate_succ, ← List.replicate_add]

section Messages
variable [Inhabited MessageTypes]

theorem extractMessages_eq {packet : NetworkPacket}
    (h : packet.data = [] → p.messageData packet = some []) :
    p.extractMessages packet =
      (p.messageData packet).map fun data => extractLoop data.length data := by
  rw [extractMessages]
  split
  · next hnil =>
    rw [h hnil]
    rfl
  · rfl

def received (p : OptimizedNetworkProtocol) (now : UInt32)
    (messages : List (PrioritizedMessage MessageTypes)) :
    Option (List (UInt32 × MessageTypes × List UInt8)) :=
  (p.extractMessages (p.createPacket now messages).1).map (List.map content)

/-- The receiver extracts the same with compression enabled as with it disabled. -/
def Invisible (p : OptimizedNetworkProtocol) (now : UInt32)
    (messages : List (PrioritizedMessage MessageTypes)) : Prop :=
  received { p with compressionEnabled := true } now messages =
    received { p with compressionEnabled := false } now messages

theorem received_of_raw {now : UInt32} {messages : List (PrioritizedMessage MessageTypes)}
    (h : p.payload (serializeMessages messages) = (serializeMessages messages, false)) :
    received p now messages =
      some ((extractLoop (serializeMessages messages).length (serializeMessages messages)).map
        content) := by
  rw [received, createPacket, h, extractMessages_eq fun hnil => (messageData_raw rfl).trans
    (congrArg some hnil), messageData_raw rfl]
  rfl

theorem received_disabled (p : OptimizedNetworkProtocol) (now : UInt32)
    (messages : List (PrioritizedMessage MessageTypes)) :
    received { p with compressionEnabled := false } now messages =
      some ((extractLoop (serializeMessages messages).length (serializeMessages messages)).map
        content) :=
  received_of_raw rfl

theorem received_of_pays {now : UInt32} {messages : List (PrioritizedMessage MessageTypes)}
    (h : p.Pays (serializeMessages messages)) :
    received { p with compressionEnabled := true } now messages =
      (decompressLZ4 (.ofNat ((compressLZ4 (serializeMessages messages)).length / 65536) ::
        .ofNat ((compressLZ4 (serializeMessages messages)).length / 16777216) ::
          compressLZ4 (serializeMessages messages))).map
        fun data => (extractLoop data.length data).map content := by
  obtain ⟨dc, hdc, hi, hmin, hlt⟩ := h
  have hframed : dc.Framed .lz4 (serializeMessages messages) :=
    ⟨hmin, (length_compressLZ4_lt _).mp (by omega)⟩
  have hsent := DataCompression.compress_of_framed hi hframed p.compressionLevel
  have hne : dc.compress (serializeMessages messages) .lz4 p.compressionLevel ≠ [] := by
    rw [hsent]
    exact List.cons_ne_nil _ _
  rw [received, createPacket, payload_of_pays hdc ⟨hi, hmin, hlt⟩,
    extractMessages_eq fun hnil => absurd hnil hne,
    messageData_compressed (p := { p with compressionEnabled := true }) hdc rfl]
  dsimp only [NetworkPacket.setData]
  rw [hsent, DataCompression.decompress_framed hi, Option.map_map]
  rfl

theorem compressLZ4_large {messages : List (PrioritizedMessage MessageTypes)}
    (h : (compressLZ4 (serializeMessages messages)).length < 2 ^ 24) :
    ∀ m ∈ messages, m.data.length < 2 ^ 32 := by
  intro m hm
  have hle := length_data_le_serializeMessages hm
  have hratio := (matches_compressLZ4 (serializeMessages messages)).length_le
  omega

theorem invisible_of_echoes {now : UInt32} {messages : List (PrioritizedMessage MessageTypes)}
    (h : p.Pays (serializeMessages messages)) (he : Echoes (serializeMessages messages)) :
    p.Invisible now messages := by
  have hsize := compressLZ4_large (he.1.trans (by decide))
  have hzero := Bytes.fourth_eq_zero (he.1.trans (by decide))
  have hraw := extractLoop_serializeMessages hsize (s := []) (by decide) le_rfl
  rw [List.append_nil] at hraw
  rw [Invisible, received_of_pays h, received_disabled, hzero, decompressLZ4_of_echo he.1 he.2,
    Option.map_some, hraw]
  obtain ⟨s, hs⟩ := he.2
  have hslen : s.length = 2 := by
    have hlen := congrArg List.length hs
    simp only [List.length_append, List.length_cons] at hlen
    omega
  rw [← hs, extractLoop_serializeMessages hsize (by omega) le_rfl]

theorem echoes_of_invisible {now : UInt32} {messages : List (PrioritizedMessage MessageTypes)}
    (h : p.Pays (serializeMessages messages))
    (hsmall : (compressLZ4 (serializeMessages messages)).length < 2 ^ 24)
    (hinv : p.Invisible now messages) : Echoes (serializeMessages messages) := by
  have hsize := compressLZ4_large hsmall
  rw [Invisible, received_of_pays h, received_disabled] at hinv
  have hzero := Bytes.fourth_eq_zero hsmall
  have hraw := extractLoop_serializeMessages hsize (s := []) (by decide) le_rfl
  rw [List.append_nil] at hraw
  rw [hzero, hraw, Option.map_eq_some_iff] at hinv
  obtain ⟨out, hout, hcontent⟩ := hinv
  have hdata : serializeMessages messages <+: out := by
    rw [← serializeMessages_congr hcontent]
    exact serializeMessages_extractLoop _ _
  exact echo_of_begins hsmall hout hdata

/-- Compression is invisible where it does not pay, or where the messages echo the size; and
nowhere else, but perhaps where the compressed messages take 16 MiB. -/
theorem invisible_iff_echoes (p : OptimizedNetworkProtocol) (now : UInt32)
    (messages : List (PrioritizedMessage MessageTypes)) :
    (¬ p.Pays (serializeMessages messages) ∨ Echoes (serializeMessages messages) →
      p.Invisible now messages) ∧
    (p.Invisible now messages →
      ¬ p.Pays (serializeMessages messages) ∨ Echoes (serializeMessages messages) ∨
        2 ^ 24 ≤ (compressLZ4 (serializeMessages messages)).length) := by
  by_cases hpays : p.Pays (serializeMessages messages)
  · refine ⟨fun h => invisible_of_echoes hpays (h.resolve_left (not_not.mpr hpays)), fun h => ?_⟩
    by_cases hsmall : (compressLZ4 (serializeMessages messages)).length < 2 ^ 24
    · exact Or.inr (Or.inl (echoes_of_invisible hpays hsmall h))
    · exact Or.inr (Or.inr (not_lt.mp hsmall))
  · refine ⟨fun _ => ?_, fun _ => Or.inl hpays⟩
    rw [Invisible, received_of_raw (payload_of_not_pays hpays), received_disabled]

end Messages

theorem not_invisible_chat :
    ¬ ∀ (_ : Inhabited MessageTypes) (p : OptimizedNetworkProtocol) (now : UInt32)
      (messages : List (PrioritizedMessage MessageTypes)), p.Invisible now messages := by
  intro h
  have hchat := h ⟨.batchMessage⟩ ⟨1, 1, true, .balanced, some ⟨true, 64⟩⟩ 0
    [@PrioritizedMessage.mk MessageTypes ⟨.batchMessage⟩ 7 ⟨40⟩ (List.replicate 100 65) {} 0 0 0]
  revert hchat
  unfold Invisible
  decide +kernel

end WitcherMP.Protocol.OptimizedNetworkProtocol
