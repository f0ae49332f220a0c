import WitcherMP.Compression.RoundTrip

/-! How many bytes the codecs save, and whether that pays for the ten bytes of the header. -/

namespace WitcherMP.Compression

def runsSavedLoop : ℕ → List UInt8 → ℕ
  | fuel + 1, current :: data =>
    let count := runLength current 254 data + 1
    (if count > 3 then count - 3 else 0) + runsSavedLoop fuel (data.drop (count - 1))
  | _, _ => 0

def runsSaved (data : List UInt8) : ℕ := runsSavedLoop data.length data

def matchesSavedLoop : ℕ → List UInt8 → List UInt8 → ℕ
  | fuel + 1, done, b :: rest =>
    let found := findMatch done (b :: rest)
    if found.1 ≥ 3 then
      found.1 - 2 +
        matchesSavedLoop fuel (done ++ (b :: rest).take found.1) ((b :: rest).drop found.1)
    else matchesSavedLoop fuel (done ++ [b]) rest
  | _, _, _ => 0

def matchesSaved (data : List UInt8) : ℕ := matchesSavedLoop data.length [] data

theorem length_compressZlib (data : List UInt8) :
    (compressZlib data).length + runsSaved data = data.length := by
  have key : ∀ {fuel : ℕ} (data : List UInt8), data.length ≤ fuel →
      (compressZlibLoop fuel data).length + runsSavedLoop fuel data = data.length := by
    intro fuel
    induction fuel with
    | zero =>
      intro data h
      exact (Nat.le_zero.mp h).symm
    | succ fuel ih =>
      intro data h
      cases data with
      | nil => rfl
      | cons current data =>
        have hrun := (runLength_spec current 254 data).2.2
        rw [List.length_cons] at h
        rw [compressZlibLoop, runsSavedLoop]
        simp only [Nat.add_sub_cancel]
        have hrest := ih (data.drop (runLength current 254 data)) (by rw [List.length_drop]; omega)
        rw [List.length_drop] at hrest
        rw [List.length_append, List.length_cons]
        split
        · simp only [List.length_cons, List.length_nil]
          omega
        · rw [List.length_replicate]
          omega
  exact key data le_rfl

theorem length_compressLZ4 (data : List UInt8) :
    (compressLZ4 data).length + matchesSaved data = data.length := by
  have key : ∀ {fuel : ℕ} (done rest : List UInt8), rest.length ≤ fuel →
      (compressLZ4Loop fuel done rest).length + matchesSavedLoop fuel done rest = rest.length := by
    intro fuel
    induction fuel with
    | zero =>
      intro done rest h
      exact (Nat.le_zero.mp h).symm
    | succ fuel ih =>
      intro done rest h
      cases rest with
      | nil => rfl
      | cons b rest =>
        rw [List.length_cons] at h
        rw [compressLZ4Loop, matchesSavedLoop]
        split
        · next h3 =>
          have hle := (findMatch_spec done (b :: rest) (by omega)).le_rest
          have hrest := ih (done ++ (b :: rest).take (findMatch done (b :: rest)).1)
            ((b :: rest).drop (findMatch done (b :: rest)).1)
            (by rw [List.length_drop, List.length_cons]; omega)
          rw [List.length_drop] at hrest
          rw [List.length_append]
          simp only [List.length_cons, List.length_nil] at hrest hle ⊢
          omega
        · have hrest := ih (done ++ [b]) rest (Nat.le_of_succ_le_succ h)
          rw [List.length_cons, List.length_cons]
          omega
  exact key [] data le_rfl

/-- Bytes below 0x80 come back from the matches, and never take more room. -/
theorem compressLZ4_low {data : List UInt8} (h : ∀ b ∈ data, b < 0x80) :
    decompressLZ4 (compressLZ4 data) = some data ∧ (compressLZ4 data).length ≤ data.length := by
  have hplain : Plain data := plain_of_low fun b hb => UInt8.not_le.mpr (h b hb)
  have hlen := length_compressLZ4 data
  exact ⟨decompressLZ4_compressLZ4 hplain, by omega⟩

theorem compressLZ4_low_letters :
    decompressLZ4 (compressLZ4 [97, 98, 99, 97, 98, 99, 97, 98, 99]) =
        some [97, 98, 99, 97, 98, 99, 97, 98, 99] ∧
      (compressLZ4 [97, 98, 99, 97, 98, 99, 97, 98, 99]).length ≤ 9 :=
  compressLZ4_low (by decide +kernel)

namespace DataCompression

def saved : CompressionAlgorithm → List UInt8 → ℕ
  | .zlib, data => runsSaved data
  | .lz4, data => matchesSaved data
  | .lz4hc, data => matchesSaved data
  | .none, _ => 0
  | .gzip, _ => 0

theorem length_encode (algorithm : CompressionAlgorithm) (data : List UInt8) :
    (encode algorithm data).length + saved algorithm data = data.length := by
  cases algorithm with
  | zlib => exact length_compressZlib data
  | lz4 => exact length_compressLZ4 data
  | lz4hc => exact length_compressLZ4 data
  | none => rfl
  | gzip => rfl

def Pays (dc : DataCompression) (algorithm : CompressionAlgorithm) (data : List UInt8) : Prop :=
  dc.initialized → dc.minCompressionSize ≤ data.length →
    saved algorithm data = 0 ∨ 10 ≤ saved algorithm data

instance decidablePays (dc : DataCompression) (algorithm : CompressionAlgorithm)
    (data : List UInt8) : Decidable (dc.Pays algorithm data) :=
  inferInstanceAs (Decidable (_ → _ → _))

/-- What is sent is no longer than the data exactly where the codec pays for the header. -/
theorem length_compress_le_iff (dc : DataCompression) (algorithm : CompressionAlgorithm)
    (level : CompressionLevel) (data : List UInt8) :
    (dc.compress data algorithm level).length ≤ data.length ↔ dc.Pays algorithm data := by
  have hlen := length_encode algorithm data
  have hshrinks := length_encode_lt algorithm data
  by_cases hi : dc.initialized
  · by_cases hframed : dc.Framed algorithm data
    · have hlt := hshrinks.mpr hframed.2
      rw [compress_of_framed hi hframed]
      simp only [Pays, hi, hframed.1, forall_const, List.length_append, List.length_cons,
        List.length_nil, Bytes.length_le32]
      omega
    · rw [compress_of_not_framed hframed]
      refine iff_of_true le_rfl fun _ hmin => Or.inl ?_
      have hnone : ¬ (encode algorithm data).length < data.length := fun hlt =>
        hframed ⟨hmin, hshrinks.mp hlt⟩
      omega
  · rw [compress, if_pos (Or.inl hi)]
    exact iff_of_true le_rfl fun h => absurd h hi

theorem not_length_compress_le :
    ¬ ∀ (dc : DataCompression) (algorithm : CompressionAlgorithm) (level : CompressionLevel)
      (data : List UInt8), (dc.compress data algorithm level).length ≤ data.length := by
  intro h
  have hrun := h ⟨true, 64⟩ .zlib .fast
    ((List.range 60).map (fun i => .ofNat i) ++ List.replicate 4 0xAA)
  revert hrun
  decide

end DataCompression
end WitcherMP.Compression
