import WitcherMP.Compression.RoundTrip

/-! Data sent as their differences from the previous ones. Data of another length are sent as they
are, and nothing tells the receiver so. -/

namespace WitcherMP.Compression.CompressionUtils

def quickCompress (dc : DataCompression) (data : List UInt8) : List UInt8 :=
  dc.compress data .lz4 .fast

def quickDecompress (dc : DataCompression) (compressedData : List UInt8) : Option (List UInt8) :=
  dc.decompress compressedData

def compressDelta (dc : DataCompression) (current previous : List UInt8) : List UInt8 :=
  if current.length ≠ previous.length then current
  else quickCompress dc (Bytes.xor current previous)

def decompressDelta (dc : DataCompression) (delta previous : List UInt8) : Option (List UInt8) :=
  (quickDecompress dc delta).map fun decompressedDelta =>
    if decompressedDelta.length ≠ previous.length then previous
    else Bytes.xor decompressedDelta previous

variable {dc : DataCompression} {current previous delta out : List UInt8}

theorem length_decompressDelta (h : decompressDelta dc delta previous = some out) :
    out.length = previous.length := by
  obtain ⟨d, -, rfl⟩ := Option.map_eq_some_iff.mp h
  split_ifs with hlen
  · rfl
  · exact Bytes.length_xor (not_not.mp hlen)

theorem decompressDelta_eq_some_iff (h : current.length = previous.length) :
    decompressDelta dc delta previous = some current ↔
      ∃ d, dc.decompress delta = some d ∧
        (d = Bytes.xor current previous ∨ d.length ≠ previous.length ∧ current = previous) := by
  rw [decompressDelta, quickDecompress, Option.map_eq_some_iff]
  refine exists_congr fun d => and_congr_right fun _ => ?_
  have hdelta : (Bytes.xor current previous).length = previous.length := Bytes.length_xor h
  split_ifs with hlen
  · have hne : d ≠ Bytes.xor current previous := by
      rintro rfl
      exact hlen hdelta
    rw [or_iff_right hne, and_iff_right hlen, eq_comm]
  · have hback : current = Bytes.xor (Bytes.xor current previous) previous := (Bytes.xor_xor h).symm
    rw [or_iff_left fun hwrong => hlen hwrong.1]
    conv_lhs => rw [hback]
    exact Bytes.xor_right_inj (not_not.mp hlen) hdelta

/-- Nothing has changed, and the differences go out in a frame: they come back two bytes too long,
and the receiver keeps what it had. -/
def Unchanged (dc : DataCompression) (current previous : List UInt8) : Prop :=
  current = previous ∧ dc.Framed .lz4 (Bytes.xor current previous) ∧
    (compressLZ4 (Bytes.xor current previous)).length < 2 ^ 23

theorem decompressDelta_of_unchanged (hi : dc.initialized) (h : Unchanged dc current previous) :
    decompressDelta dc (compressDelta dc current previous) previous = some current := by
  obtain ⟨rfl, hframed, hn⟩ := h
  have hzero : ∀ b ∈ Bytes.xor current current, b = 0 := fun b => Bytes.eq_zero_of_mem_xor_self
  have hlen : (Bytes.xor current current).length = current.length := Bytes.length_xor rfl
  rw [compressDelta, if_neg (not_not.mpr rfl), decompressDelta_eq_some_iff rfl, quickCompress,
    DataCompression.decompress_compress_framed hi hframed (Or.inl rfl) (by omega)]
  have hb := Bytes.third_low hn
  have hlow : ∀ b ∈ Bytes.xor current current, ¬ (0x80 : UInt8) ≤ b := by
    intro b hmem
    rw [hzero b hmem]
    decide
  have hwhole := decompressLZ4_low_behind hb hlow
  refine ⟨_, hwhole, Or.inr ⟨?_, rfl⟩⟩
  rw [List.length_cons, List.length_cons, hlen]
  omega

theorem unchanged_of_decompress {d : List UInt8}
    (hd : dc.decompress (dc.compress (Bytes.xor current current) .lz4 .fast) = some d) :
    dc.Unmistakable .lz4 (Bytes.xor current current) ∨ Unchanged dc current current ∨
      dc.Doubtful .lz4 (Bytes.xor current current) := by
  have hzero : ∀ b ∈ Bytes.xor current current, b = 0 := fun b => Bytes.eq_zero_of_mem_xor_self
  by_cases hf : dc.Framed .lz4 (Bytes.xor current current)
  · have hlt := (length_compressLZ4_lt _).mpr hf.2
    by_cases hn : (compressLZ4 (Bytes.xor current current)).length < 2 ^ 23
    · exact Or.inr (Or.inl ⟨rfl, hf, hn⟩)
    · exact Or.inr (Or.inr (Or.inl ⟨hf, by omega⟩))
  · refine Or.inl fun hi => ⟨hf, ?_⟩
    rw [DataCompression.compress_of_not_framed hf] at hd
    by_cases h₈ : (Bytes.xor current current).length < 8
    · exact Or.inl h₈
    · refine Or.inr ⟨?_, fun codec hcodec hhead => ?_⟩
      · by_contra h₁₀
        have hne : Bytes.xor current current ≠ [] := List.ne_nil_of_length_pos (by omega)
        rw [DataCompression.decompress, if_neg (by simp [hi, hne]), if_neg h₈,
          if_pos (not_le.mp h₁₀)] at hd
        cases hd
      · have htag := hzero codec.value (List.mem_of_head? hhead)
        revert htag hcodec
        cases codec <;> decide

/-- The data come back if they are as long as the previous ones and their differences cannot be
mistaken, or if nothing has changed; and otherwise only by chance. -/
theorem decompressDelta_compressDelta (dc : DataCompression) (current previous : List UInt8) :
    (current.length = previous.length ∧ (dc.Unmistakable .lz4 (Bytes.xor current previous) ∨
        Unchanged dc current previous) →
      decompressDelta dc (compressDelta dc current previous) previous = some current) ∧
    (decompressDelta dc (compressDelta dc current previous) previous = some current →
      current.length = previous.length ∧ (dc.Unmistakable .lz4 (Bytes.xor current previous) ∨
        Unchanged dc current previous ∨ dc.Doubtful .lz4 (Bytes.xor current previous))) := by
  constructor
  · rintro ⟨hlen, hback⟩
    by_cases hunchanged : dc.initialized = true ∧ Unchanged dc current previous
    · exact decompressDelta_of_unchanged hunchanged.1 hunchanged.2
    · have hclear : dc.Unmistakable .lz4 (Bytes.xor current previous) := fun hi =>
        hback.resolve_right (fun h => hunchanged ⟨hi, h⟩) hi
      rw [decompressDelta_eq_some_iff hlen, compressDelta, if_neg (not_not.mpr hlen), quickCompress,
        DataCompression.decompress_of_unmistakable hclear]
      exact ⟨_, rfl, Or.inl rfl⟩
  · intro h
    have hlen : current.length = previous.length := length_decompressDelta h
    refine ⟨hlen, ?_⟩
    rw [decompressDelta_eq_some_iff hlen, compressDelta, if_neg (not_not.mpr hlen),
      quickCompress] at h
    obtain ⟨d, hd, rfl | ⟨hwrong, rfl⟩⟩ := h
    · have hback := (dc.decompress_compress .lz4 .fast (Bytes.xor current previous)).2 hd
      exact hback.imp id Or.inr
    · exact unchanged_of_decompress hd

theorem not_decompressDelta_compressDelta :
    ¬ ∀ (dc : DataCompression) (current previous : List UInt8),
      decompressDelta dc (compressDelta dc current previous) previous = some current := by
  intro h
  have hones := h ⟨true, 64⟩ (List.replicate 64 1) (List.replicate 64 0)
  revert hones
  decide +kernel

end WitcherMP.Compression.CompressionUtils
