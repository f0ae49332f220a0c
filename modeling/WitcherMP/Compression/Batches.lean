import WitcherMP.Compression.RoundTrip
import WitcherMP.Lib.Frames

/-! Packets compressed together. The receiver cuts what it decodes into packets again, which
forgives a few bytes behind the last one, and none in front of the first. -/

namespace WitcherMP.Compression.DataCompression

def compressBatch (dc : DataCompression) (packets : List (List UInt8)) : List UInt8 :=
  if packets = [] then [] else dc.compress (Frames.frames packets) .lz4hc .high

def decompressBatch (dc : DataCompression) (compressedBatch : List UInt8) :
    Option (List (List UInt8)) :=
  (dc.decompress compressedBatch).map fun decompressedData =>
    Frames.cut decompressedData.length decompressedData

variable {dc : DataCompression} {packets : List (List UInt8)} {batch : List UInt8}

theorem compressBatch_eq (dc : DataCompression) (packets : List (List UInt8)) :
    dc.compressBatch packets = dc.compress (Frames.frames packets) .lz4hc .high := by
  rw [compressBatch]
  split_ifs with hnil
  · rw [hnil, Frames.frames_nil, compress, if_pos (Or.inr rfl)]
  · rfl

theorem decompressBatch_eq_some_iff : dc.decompressBatch batch = some packets ↔
    (∀ p ∈ packets, Frames.Short p) ∧ ∃ out, dc.decompress batch = some out ∧
      ∃ s, out = Frames.frames packets ++ s ∧ Frames.Incomplete s := by
  rw [decompressBatch, Option.map_eq_some_iff]
  constructor
  · rintro ⟨out, hout, hcut⟩
    obtain ⟨hshort, hfront⟩ := (Frames.cut_eq_iff le_rfl).mp hcut
    exact ⟨hshort, out, hout, hfront⟩
  · rintro ⟨hshort, out, hout, hfront⟩
    exact ⟨out, hout, (Frames.cut_eq_iff le_rfl).mpr ⟨hshort, hfront⟩⟩

/-- The packets go out in a frame, and their bytes go on with themselves behind the upper half of
the compressed size: two bytes are left over behind the last packet. -/
def Shifted (dc : DataCompression) (packets : List (List UInt8)) : Prop :=
  dc.Framed .lz4hc (Frames.frames packets) ∧
    (compressLZ4 (Frames.frames packets)).length < 2 ^ 23 ∧
      Frames.frames packets <+:
        .ofNat ((compressLZ4 (Frames.frames packets)).length / 65536) :: 0 :: Frames.frames packets

theorem decompressBatch_of_shifted (hi : dc.initialized)
    (hshort : ∀ p ∈ packets, Frames.Short p) (h : dc.Shifted packets) :
    dc.decompressBatch (dc.compressBatch packets) = some packets := by
  obtain ⟨hframed, hn, hecho⟩ := h
  rw [compressBatch_eq, decompressBatch_eq_some_iff,
    decompress_compress_framed hi hframed (Or.inr rfl) (by omega), decompressLZ4_of_echo hn hecho]
  refine ⟨hshort, _, rfl, ?_⟩
  obtain ⟨s, hs⟩ := hecho
  refine ⟨s, hs.symm, Or.inl ?_⟩
  have hlen := congrArg List.length hs
  simp only [List.length_append, List.length_cons] at hlen
  omega

theorem shifted_of_begins {out : List UInt8} (hi : dc.initialized)
    (hf : dc.Framed .lz4hc (Frames.frames packets))
    (hn : (compressLZ4 (Frames.frames packets)).length < 2 ^ 24)
    (hout : dc.decompress (dc.compress (Frames.frames packets) .lz4hc .high) = some out)
    (hbegins : Frames.frames packets <+: out) : dc.Shifted packets := by
  rw [decompress_compress_framed hi hf (Or.inr rfl) hn] at hout
  exact ⟨hf, echo_of_begins hn hout hbegins⟩

/-- The packets come back if each has a length that fits its header, and their bytes cannot be
mistaken or go on with themselves; and otherwise only by chance, where the decoder meets escapes in
bytes sent as they are, or where the compressed bytes take 16 MiB. -/
theorem decompressBatch_compressBatch (dc : DataCompression) (packets : List (List UInt8)) :
    ((∀ p ∈ packets, Frames.Short p) ∧
        (dc.Unmistakable .lz4hc (Frames.frames packets) ∨ dc.Shifted packets) →
      dc.decompressBatch (dc.compressBatch packets) = some packets) ∧
    (dc.decompressBatch (dc.compressBatch packets) = some packets →
      (∀ p ∈ packets, Frames.Short p) ∧
        (dc.Unmistakable .lz4hc (Frames.frames packets) ∨ dc.Shifted packets ∨
          dc.Doubtful .lz4hc (Frames.frames packets) ∧
            (dc.Framed .lz4hc (Frames.frames packets) →
              2 ^ 24 ≤ (compressLZ4 (Frames.frames packets)).length))) := by
  constructor
  · rintro ⟨hshort, hback⟩
    by_cases hshifted : dc.initialized = true ∧ dc.Shifted packets
    · exact decompressBatch_of_shifted hshifted.1 hshort hshifted.2
    · have hclear : dc.Unmistakable .lz4hc (Frames.frames packets) := fun hi =>
        hback.resolve_right (fun h => hshifted ⟨hi, h⟩) hi
      rw [compressBatch_eq, decompressBatch_eq_some_iff, decompress_of_unmistakable hclear]
      exact ⟨hshort, _, rfl, [], (List.append_nil _).symm, Or.inl (by decide)⟩
  · intro h
    rw [compressBatch_eq, decompressBatch_eq_some_iff] at h
    obtain ⟨hshort, out, hout, s, hs, -⟩ := h
    have hbegins : Frames.frames packets <+: out := ⟨s, hs.symm⟩
    refine ⟨hshort, ?_⟩
    by_cases hi : dc.initialized
    swap
    · exact Or.inl fun hi' => absurd hi' hi
    by_cases hf : dc.Framed .lz4hc (Frames.frames packets)
    · by_cases hn : (compressLZ4 (Frames.frames packets)).length < 2 ^ 24
      · exact Or.inr (Or.inl (shifted_of_begins hi hf hn hout hbegins))
      · have hlt := (length_compressLZ4_lt _).mpr hf.2
        exact Or.inr (Or.inr ⟨Or.inl ⟨hf, by omega⟩, fun _ => not_lt.mp hn⟩)
    · rw [compress_of_not_framed hf] at hout
      rcases unmistakable_of_begins hi hf hout hbegins with hclear | hdoubt
      · exact Or.inl hclear
      · exact Or.inr (Or.inr ⟨hdoubt, fun h => absurd h hf⟩)

theorem not_decompressBatch_compressBatch :
    ¬ ∀ (dc : DataCompression) (packets : List (List UInt8)),
      dc.decompressBatch (dc.compressBatch packets) = some packets := by
  intro h
  have hletters := h ⟨true, 64⟩ [List.replicate 100 65]
  revert hletters
  decide +kernel

end WitcherMP.Compression.DataCompression
