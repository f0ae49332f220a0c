import WitcherMP.Compression.Strays
import WitcherMP.Optimizers.Defs

/-! Which messages come back from an optimizer. The header is compressed with the body, and what
is decoded becomes the body: the header is dropped only where it is mistaken for that of a frame. -/

namespace WitcherMP.Optimizers

open Compression Networking

variable {dc : DataCompression} {algorithm : CompressionAlgorithm} {level : CompressionLevel}
  {msg : Message MessageType}

def headerBytes (msg : Message MessageType) : List UInt8 :=
  Bytes.le32 msg.header.id.value.toNat ++ Bytes.le32 msg.header.size.toNat

def tag (msg : Message MessageType) : UInt8 := .ofNat msg.header.id.value.toNat

theorem serializeMessage_eq (msg : Message MessageType) :
    serializeMessage msg = headerBytes msg ++ msg.body := rfl

theorem length_headerBytes (msg : Message MessageType) : (headerBytes msg).length = 8 := rfl

theorem length_serializeMessage (msg : Message MessageType) :
    (serializeMessage msg).length = 8 + msg.size := by
  rw [serializeMessage_eq, List.length_append, length_headerBytes]
  rfl

theorem decompressMessageWith_compressMessageWith (dc : DataCompression)
    (algorithm : CompressionAlgorithm) (level : CompressionLevel) (msg : Message MessageType) :
    decompressMessageWith dc (compressMessageWith dc algorithm level msg) = some msg ↔
      msg.Sized ∧
        dc.decompress (dc.compress (serializeMessage msg) algorithm level) = some msg.body := by
  obtain ⟨⟨id, size⟩, body⟩ := msg
  rw [decompressMessageWith, compressMessageWith, Option.map_eq_some_iff]
  constructor
  · rintro ⟨out, hout, heq⟩
    simp only [Message.mk.injEq, MessageHeader.mk.injEq, true_and] at heq
    obtain ⟨rfl, rfl⟩ := heq
    exact ⟨rfl, hout⟩
  · rintro ⟨hsized, hout⟩
    have hsize : size = .ofNat body.length := hsized
    refine ⟨body, hout, ?_⟩
    rw [hsize]

theorem decompress_serializeMessage (hi : dc.initialized) (h₂ : 2 ≤ msg.size) :
    dc.decompress (serializeMessage msg) =
      if tag msg = CompressionAlgorithm.zlib.value then some (decompressZlib msg.body)
      else if tag msg = CompressionAlgorithm.lz4.value ∨ tag msg = CompressionAlgorithm.lz4hc.value then
        decompressLZ4 msg.body
      else some (serializeMessage msg) := by
  have hlen := length_serializeMessage msg
  have hne : serializeMessage msg ≠ [] := List.ne_nil_of_length_pos (by omega)
  have hdrop : (serializeMessage msg).drop 8 = msg.body := rfl
  have hhead : (serializeMessage msg).headD 0 = tag msg := rfl
  rw [DataCompression.decompress, if_neg (by simp [hi, hne]), if_neg (by omega), if_neg (by omega)]
  dsimp only
  rw [hdrop, hhead]
  by_cases hlz4 : tag msg = CompressionAlgorithm.lz4.value
  · simp only [hlz4, if_true, true_or]
  · simp only [hlz4, if_false, false_or]

/-- A message sent as it is, with an id that reads as the tag of a codec, and a body that the
decoder of this codec leaves as it is. -/
def Restorable (dc : DataCompression) (algorithm : CompressionAlgorithm)
    (msg : Message MessageType) : Prop :=
  msg.Sized ∧ dc.initialized = true ∧ ¬ dc.Framed algorithm (serializeMessage msg) ∧
    2 ≤ msg.size ∧
      (tag msg = CompressionAlgorithm.zlib.value ∧ (∀ b ∈ msg.body.dropLast.dropLast, b ≠ 0xFF) ∨
        (tag msg = CompressionAlgorithm.lz4.value ∨ tag msg = CompressionAlgorithm.lz4hc.value) ∧
          Plain msg.body)

/-- The decoder meets escapes in the header of a message that was compressed, or high bytes early in
the body of one that was not; or the message has 8 MiB. -/
def Unforeseen (dc : DataCompression) (algorithm : CompressionAlgorithm)
    (msg : Message MessageType) : Prop :=
  msg.Sized ∧ dc.initialized = true ∧
    (dc.Framed algorithm (serializeMessage msg) ∧
        (2 ^ 23 ≤ (serializeMessage msg).length ∨
          ∃ b ∈ headerBytes msg, DataCompression.Escape algorithm b) ∨
      ¬ dc.Framed algorithm (serializeMessage msg) ∧ 2 ≤ msg.size ∧
        (tag msg = CompressionAlgorithm.lz4.value ∨ tag msg = CompressionAlgorithm.lz4hc.value) ∧
          Early msg.body)

theorem restored_of_restorable (h : Restorable dc algorithm msg) (level : CompressionLevel) :
    decompressMessageWith dc (compressMessageWith dc algorithm level msg) = some msg := by
  obtain ⟨hsized, hi, hf, h₂, hbody⟩ := h
  rw [decompressMessageWith_compressMessageWith, DataCompression.compress_of_not_framed hf,
    decompress_serializeMessage hi h₂]
  refine ⟨hsized, ?_⟩
  rcases hbody with ⟨htag, hplain⟩ | ⟨htag, hplain⟩
  · rw [if_pos htag, (decompressZlib_eq_self_iff msg.body).mpr hplain]
  · rw [if_neg (by rcases htag with htag | htag <;> rw [htag] <;> decide), if_pos htag,
      decompressLZ4_of_plain hplain]

theorem restorable_of_restored
    (h : decompressMessageWith dc (compressMessageWith dc algorithm level msg) = some msg) :
    Restorable dc algorithm msg ∨ Unforeseen dc algorithm msg := by
  obtain ⟨hsized, hout⟩ := (decompressMessageWith_compressMessageWith ..).mp h
  have hlen := length_serializeMessage msg
  have hlonger : serializeMessage msg ≠ msg.body := by
    intro heq
    have hsize := congrArg List.length heq
    rw [hlen, Message.size] at hsize
    omega
  by_cases hi : dc.initialized = true
  swap
  · rw [DataCompression.compress, if_pos (Or.inl hi), DataCompression.decompress,
      if_pos (Or.inl hi)] at hout
    exact absurd (Option.some.inj hout) hlonger
  by_cases hf : dc.Framed algorithm (serializeMessage msg)
  · refine Or.inr ⟨hsized, hi, Or.inl ⟨hf, ?_⟩⟩
    by_contra hnot
    rw [not_or, not_le] at hnot
    exact DataCompression.decompress_framed_ne_tail hi hf hnot.1
      (fun b hb hescape => hnot.2 ⟨b, hb, hescape⟩) level hout
  rw [DataCompression.compress_of_not_framed hf] at hout
  by_cases h₂ : 2 ≤ msg.size
  · rw [decompress_serializeMessage hi h₂] at hout
    split_ifs at hout with hzlib hlz4
    · have hplain := (decompressZlib_eq_self_iff msg.body).mp (Option.some.inj hout)
      exact Or.inl ⟨hsized, hi, hf, h₂, Or.inl ⟨hzlib, hplain⟩⟩
    · rcases plain_or_early_of_eq_self hout with hplain | hearly
      · exact Or.inl ⟨hsized, hi, hf, h₂, Or.inr ⟨hlz4, hplain⟩⟩
      · exact Or.inr ⟨hsized, hi, Or.inr ⟨hf, h₂, hlz4, hearly⟩⟩
    · exact absurd (Option.some.inj hout) hlonger
  · have hne : serializeMessage msg ≠ [] := List.ne_nil_of_length_pos (by omega)
    rw [DataCompression.decompress, if_neg (by simp [hi, hne]), if_neg (by omega),
      if_pos (by omega)] at hout
    cases hout

/-- With either optimizer, the messages that come back are, if compression is enabled, those sent
as they are under an id that stands for a codec that leaves the body as it is; and perhaps a few
others. -/
theorem decompressMessage_compressMessage (dc : DataCompression) (float log2f : ℚ → ℚ)
    (msg : Message MessageType) :
    (∀ optimizer : NetworkOptimizerImpl,
      (optimizer.compressionEnabled = false ∨ Restorable dc .lz4 msg →
        optimizer.decompressMessage dc (optimizer.compressMessage dc msg) = some msg) ∧
      (optimizer.decompressMessage dc (optimizer.compressMessage dc msg) = some msg →
        optimizer.compressionEnabled = false ∨ Restorable dc .lz4 msg ∨ Unforeseen dc .lz4 msg)) ∧
    ∀ optimizer : DynamicNetworkOptimizer,
      let algorithm := DynamicNetworkOptimizer.chooseCompressionAlgorithm float
        (DynamicNetworkOptimizer.analyzeMessage float log2f msg)
      (optimizer.compressionEnabled = false ∨ Restorable dc algorithm msg →
        optimizer.decompressMessage dc (optimizer.compressMessage float log2f dc msg) = some msg) ∧
      (optimizer.decompressMessage dc (optimizer.compressMessage float log2f dc msg) = some msg →
        optimizer.compressionEnabled = false ∨ Restorable dc algorithm msg ∨
          Unforeseen dc algorithm msg) := by
  constructor
  · rintro ⟨enabled⟩
    cases enabled with
    | false => exact ⟨fun _ => rfl, fun _ => Or.inl rfl⟩
    | true =>
      refine ⟨fun h => ?_, fun h => Or.inr (restorable_of_restored h)⟩
      exact restored_of_restorable (h.resolve_left (by decide)) .balanced
  · rintro ⟨enabled⟩
    cases enabled with
    | false => exact ⟨fun _ => rfl, fun _ => Or.inl rfl⟩
    | true =>
      refine ⟨fun h => ?_, fun h => Or.inr (restorable_of_restored h)⟩
      exact restored_of_restorable (h.resolve_left (by decide)) _

theorem not_decompressMessage_compressMessage :
    (¬ ∀ (dc : DataCompression) (optimizer : NetworkOptimizerImpl) (msg : Message MessageType),
      optimizer.decompressMessage dc (optimizer.compressMessage dc msg) = some msg) ∧
    ¬ ∃ float log2f : ℚ → ℚ, ∀ (dc : DataCompression) (optimizer : DynamicNetworkOptimizer)
      (msg : Message MessageType),
      optimizer.decompressMessage dc (optimizer.compressMessage float log2f dc msg) = some msg := by
  have hthree : decompressMessageWith ⟨true, 64⟩ (compressMessageWith ⟨true, 64⟩ .lz4 .balanced
      ⟨⟨.clientConnect, 3⟩, [1, 2, 3]⟩) ≠ some ⟨⟨.clientConnect, 3⟩, [1, 2, 3]⟩ := by decide
  have hfast : decompressMessageWith ⟨true, 64⟩ (compressMessageWith ⟨true, 64⟩ .lz4 .fast
      ⟨⟨.clientConnect, 3⟩, [1, 2, 3]⟩) ≠ some ⟨⟨.clientConnect, 3⟩, [1, 2, 3]⟩ := by decide
  constructor
  · intro h
    exact hthree (h ⟨true, 64⟩ {} ⟨⟨.clientConnect, 3⟩, [1, 2, 3]⟩)
  · rintro ⟨float, log2f, h⟩
    exact hfast (h ⟨true, 64⟩ {} ⟨⟨.clientConnect, 3⟩, [1, 2, 3]⟩)

end WitcherMP.Optimizers
