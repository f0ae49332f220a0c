import WitcherMP.Lib.Traced
import WitcherMP.Protocol.Compressed
import WitcherMP.Protocol.Wire

/-! Records read at an offset into the bytes, as the receiver goes through them, and packets that
go out without compression. -/

namespace WitcherMP.Protocol.OptimizedNetworkProtocol

open Messages

def readWord (bytes : List UInt8) (offset : ℕ) : Traced UInt32 := do
  let word ← Traced.getRange bytes offset 4
  return .ofNat (Bytes.readLE32 word)

theorem toOption_readWord {bytes : List UInt8} {offset : ℕ} (h : offset + 4 ≤ bytes.length) :
    (readWord bytes offset).toOption = some (.ofNat (Bytes.readLE32 (bytes.drop offset))) := by
  have htake : Bytes.readLE32 ((bytes.drop offset).take 4) = Bytes.readLE32 (bytes.drop offset) := by
    have hlen : 4 ≤ (bytes.drop offset).length := by
      rw [List.length_drop]
      omega
    rw [← Bytes.le32_readLE32 hlen, ← List.append_nil (Bytes.le32 _), Bytes.readLE32_le32,
      Nat.mod_eq_of_lt (Bytes.readLE32_lt _)]
  rw [readWord, Traced.toOption_bind, Traced.toOption_getRange, if_pos (Or.inr h), Option.bind_some,
    Traced.toOption_pure, htake]

section Messages
variable [Inhabited MessageTypes]

def readRecord (messageData : List UInt8) (offset : ℕ) :
    Traced (Option (PrioritizedMessage MessageTypes × ℕ)) :=
  if offset + 12 ≤ messageData.length then do
    let messageId ← readWord messageData offset
    let messageType ← readWord messageData (offset + 4)
    let dataSize ← readWord messageData (offset + 8)
    if offset + 12 + dataSize.toNat > messageData.length then return none
    else do
      let data ← Traced.getRange messageData (offset + 12) dataSize.toNat
      return some ({ messageId := messageId, type := ⟨messageType⟩, data := data },
        offset + 12 + dataSize.toNat)
  else return none

def extractRounds : ℕ → List UInt8 → ℕ → Traced (Option (List (PrioritizedMessage MessageTypes)))
  | 0, _, _ => return none
  | rounds + 1, messageData, offset => do
    match ← readRecord messageData offset with
    | none => return some []
    | some (message, offset) => do
      let messages ← extractRounds rounds messageData offset
      return messages.map (message :: ·)

theorem toOption_readRecord (bytes : List UInt8) (offset : ℕ) :
    (readRecord bytes offset).toOption =
      some ((firstRecord (bytes.drop offset)).map fun p =>
        (p.1, offset + 12 + p.1.data.length)) := by
  rw [readRecord, firstRecord]
  by_cases h12 : offset + 12 ≤ bytes.length
  · have hsize : (UInt32.ofNat (Bytes.readLE32 (bytes.drop (offset + 8)))).toNat =
        Bytes.readLE32 (bytes.drop (offset + 8)) :=
      UInt32.toNat_ofNat_of_lt' (Bytes.readLE32_lt _)
    rw [if_pos h12]
    simp only [Traced.toOption_bind, toOption_readWord (show offset + 4 ≤ bytes.length by omega),
      toOption_readWord (show offset + 4 + 4 ≤ bytes.length by omega),
      toOption_readWord (show offset + 8 + 4 ≤ bytes.length by omega), Option.bind_some, hsize,
      List.drop_drop, List.length_drop]
    split
    · next hlt =>
      rw [if_neg (by omega)]
      rfl
    · next hle =>
      rw [if_pos (by omega), Traced.toOption_bind, Traced.toOption_getRange,
        if_pos (Or.inr (not_lt.mp hle)), Option.bind_some, Traced.toOption_pure, Option.map_some,
        List.length_take, List.length_drop, min_eq_left (by omega)]
  · rw [if_neg h12, if_neg (by rw [List.length_drop]; omega)]
    rfl

theorem drop_of_firstRecord {bytes rest : List UInt8} {offset : ℕ}
    {m : PrioritizedMessage MessageTypes} (h : firstRecord (bytes.drop offset) = some (m, rest)) :
    bytes.drop (offset + 12 + m.data.length) = rest := by
  rw [Nat.add_assoc, ← List.drop_drop, ← (record_firstRecord h).1, List.drop_left' (length_record m)]

theorem toOption_extractRounds {rounds : ℕ} {bytes : List UInt8} {offset : ℕ}
    (hinside : offset ≤ bytes.length) (h : bytes.length < offset + 12 * rounds) :
    (extractRounds rounds bytes offset).toOption =
      some (some (extractLoop rounds (bytes.drop offset))) := by
  induction rounds generalizing offset with
  | zero => omega
  | succ rounds ih =>
    rw [extractRounds, Traced.toOption_bind, toOption_readRecord, Option.bind_some]
    cases hfirst : firstRecord (bytes.drop offset) with
    | none =>
      rw [extractLoop_of_none hfirst]
      rfl
    | some p =>
      have hlen := congrArg List.length (record_firstRecord hfirst).1
      rw [List.length_append, length_record, List.length_drop] at hlen
      rw [Option.map_some, extractLoop_of_some hfirst]
      dsimp only
      rw [Traced.toOption_bind, ih (by omega) (by omega), drop_of_firstRecord hfirst]
      rfl

/-- Whatever the data of a packet that is not decompressed, the loop ends without a read outside
them, and takes all records off their front. -/
theorem extractMessages_hostile (p : OptimizedNetworkProtocol) {packet : NetworkPacket}
    (hraw : packet.header.flags &&& PacketFlags.compressed = 0 ∨ p.compression = none) :
    ∃ (messages : List (PrioritizedMessage MessageTypes)) (rest : List UInt8),
      p.extractMessages packet = some messages ∧
      (∀ rounds, packet.data.length < 12 * rounds →
        (extractRounds rounds packet.data 0).Safe ∧
        (extractRounds rounds packet.data 0).value = some messages) ∧
      serializeMessages messages ++ rest = packet.data ∧
      ¬ BeginsRecord rest := by
  have hdata : p.messageData packet = some packet.data := by
    rw [messageData]
    rcases hraw with hflag | hnone
    · rw [if_neg (not_not.mpr hflag)]
    · rw [hnone, ite_self]
  have hrounds : packet.data.length < 12 * (packet.data.length + 1) := by omega
  obtain ⟨rest, hrest, hbegins⟩ := extractLoop_rest hrounds
  refine ⟨extractLoop (packet.data.length + 1) packet.data, rest, ?_, fun rounds h => ?_, hrest,
    hbegins⟩
  · rw [extractMessages]
    split
    · next hnil =>
      rw [hnil]
      rfl
    · next hne =>
      have hpos := List.length_pos_iff.mpr hne
      rw [hdata, Option.map_some]
      exact congrArg some (extractLoop_congr (by omega) hrounds)
  · rw [← Traced.toOption_eq_some_iff, toOption_extractRounds (Nat.zero_le _) (by omega),
      List.drop_zero, extractLoop_congr h hrounds]

omit [Inhabited MessageTypes] in
theorem extractMessages_hostile_announced :
    letI : Inhabited MessageTypes := ⟨.batchMessage⟩
    ∃ (messages : List (PrioritizedMessage MessageTypes)) (rest : List UInt8),
      extractMessages ⟨1, 1, true, .balanced, none⟩ { data := List.replicate 12 1 } = some messages ∧
      (∀ rounds, (List.replicate 12 (1 : UInt8)).length < 12 * rounds →
        (extractRounds rounds (List.replicate 12 1) 0).Safe ∧
        (extractRounds rounds (List.replicate 12 1) 0).value = some messages) ∧
      serializeMessages messages ++ rest = List.replicate 12 1 ∧
      ¬ BeginsRecord rest :=
  @extractMessages_hostile ⟨.batchMessage⟩ ⟨1, 1, true, .balanced, none⟩
    { data := List.replicate 12 1 } (Or.inl rfl)

/-- A packet sent without compression is valid, and every receiver extracts the messages. -/
theorem extractMessages_createPacket_plain {p : OptimizedNetworkProtocol}
    (hoff : p.compressionEnabled = false) {messages : List (PrioritizedMessage MessageTypes)}
    (hsize : (serializeMessages messages).length < 2 ^ 32) (now : UInt32)
    (receiver : OptimizedNetworkProtocol) :
    validatePacket (p.createPacket now messages).1 = true ∧
      ∃ extracted, receiver.extractMessages (p.createPacket now messages).1 = some extracted ∧
        extracted.map content = messages.map content := by
  have hraw : p.payload (serializeMessages messages) = (serializeMessages messages, false) := by
    unfold payload
    rw [hoff]
  have hdata : (p.createPacket now messages).1.data = serializeMessages messages := by
    rw [createPacket, hraw]
    rfl
  have hflags : (p.createPacket now messages).1.header.flags = 0 := by
    rw [createPacket, hraw]
    rfl
  constructor
  · rw [createPacket, hraw]
    exact validatePacket_setData rfl rfl hsize
  · have hmessages := extractLoop_serializeMessages (s := [])
      (fun m hm => (length_data_le_serializeMessages hm).trans_lt hsize) (by decide) le_rfl
    rw [List.append_nil] at hmessages
    have hraw := messageData_raw (p := receiver) hflags
    refine ⟨_, ?_, hmessages⟩
    rw [extractMessages_eq fun hnil => hraw.trans (congrArg some hnil), hraw, hdata]
    rfl

omit [Inhabited MessageTypes] in
theorem extractMessages_createPacket_plain_two :
    letI : Inhabited MessageTypes := ⟨.batchMessage⟩
    let p : OptimizedNetworkProtocol := ⟨1, 1, false, .balanced, none⟩
    let messages : List (PrioritizedMessage MessageTypes) :=
      [{ messageId := 7, type := ⟨40⟩, data := [1, 2] }, { messageId := 8, type := ⟨41⟩ }]
    validatePacket (p.createPacket 0 messages).1 = true ∧
      ∃ extracted, p.extractMessages (p.createPacket 0 messages).1 = some extracted ∧
        extracted.map content = messages.map content :=
  @extractMessages_createPacket_plain ⟨.batchMessage⟩ ⟨1, 1, false, .balanced, none⟩ rfl
    [@PrioritizedMessage.mk MessageTypes ⟨.batchMessage⟩ 7 ⟨40⟩ [1, 2] {} 0 0 0,
      @PrioritizedMessage.mk MessageTypes ⟨.batchMessage⟩ 8 ⟨41⟩ [] {} 0 0 0] (by decide) 0 _

end Messages
end WitcherMP.Protocol.OptimizedNetworkProtocol
