import WitcherMP.Assets.Defs
import WitcherMP.Compression.RoundTrip
import WitcherMP.Lib.Run

/-! What compression leaves of an asset. The checksum is that of the data before, and is compared
with that of the data as they are. -/

namespace WitcherMP.Assets.AssetLoader
open Compression

/-- The asset passes its check, and has its data back once it is no longer compressed. -/
def Intact (original : List UInt8) (state : AssetLoader × AssetData) : Prop :=
  (¬ state.2.isCompressed → state.2.data = original) ∧ verifyAssetIntegrity state.2

/-- Data are compressed only where they are sent as they are, and decompressed only where they
cannot be taken for a frame. -/
def Harmless : AssetLoader × AssetData → Op → Prop
  | (s, assetData), .compressAsset algorithm => s.initialized → ¬ assetData.isCompressed →
    s.compression.initialized → ¬ s.compression.Framed algorithm assetData.data
  | (s, assetData), .optimizeAsset => s.initialized → ¬ assetData.isCompressed →
    s.compression.initialized → ¬ s.compression.Framed .lz4 assetData.data
  | (s, assetData), .decompressAsset => s.initialized → assetData.isCompressed →
    s.compression.Untagged assetData.data

variable {s : AssetLoader} {assetData : AssetData} {algorithm : CompressionAlgorithm}

def Keeps (assetData assetData' : AssetData) : Prop :=
  assetData'.data = assetData.data ∧ assetData'.checksum = assetData.checksum

theorem keeps_compressAsset (h : Harmless (s, assetData) (.compressAsset algorithm)) :
    Keeps assetData (s.compressAsset assetData algorithm).2.1 := by
  rw [compressAsset]
  split_ifs with hinit hcompressed
  · exact ⟨rfl, rfl⟩
  · refine ⟨?_, rfl⟩
    by_cases hc : s.compression.initialized
    · exact DataCompression.compress_of_not_framed (h hinit hcompressed hc) .balanced
    · exact if_pos (Or.inl hc)
  · exact ⟨rfl, rfl⟩

theorem keeps_optimizeAsset (h : Harmless (s, assetData) .optimizeAsset) :
    Keeps assetData (s.optimizeAsset assetData).2.1 := by
  rw [optimizeAsset]
  split_ifs
  · exact ⟨rfl, rfl⟩
  · exact keeps_compressAsset h
  · exact ⟨rfl, rfl⟩

theorem keeps_decompressAsset (h : Harmless (s, assetData) .decompressAsset) {r}
    (hr : s.decompressAsset assetData = some r) : Keeps assetData r.2.1 := by
  rw [decompressAsset] at hr
  split_ifs at hr with hinit hcompressed
  · rw [DataCompression.decompress_of_untagged (h hinit hcompressed)] at hr
    rw [← Option.some.inj hr]
    exact ⟨rfl, rfl⟩
  · rw [← Option.some.inj hr]
    exact ⟨rfl, rfl⟩
  · rw [← Option.some.inj hr]
    exact ⟨rfl, rfl⟩

theorem keeps_step {state state' : AssetLoader × AssetData} {op : Op} (h : Harmless state op)
    (hstep : step state op = some state') : Keeps state.2 state'.2 := by
  obtain ⟨s, assetData⟩ := state
  cases op with
  | compressAsset algorithm =>
    rw [← Option.some.inj hstep]
    exact keeps_compressAsset h
  | optimizeAsset =>
    rw [← Option.some.inj hstep]
    exact keeps_optimizeAsset h
  | decompressAsset =>
    obtain ⟨r, hr, rfl⟩ := Option.map_eq_some_iff.mp hstep
    exact keeps_decompressAsset h hr

theorem verifyAssetIntegrity_compressAsset (hinit : s.initialized)
    (hcompressed : ¬ assetData.isCompressed) (hsum : verifyAssetIntegrity assetData) :
    verifyAssetIntegrity (s.compressAsset assetData algorithm).2.1 ↔
      calculateChecksum (s.compression.compress assetData.data algorithm .balanced) =
        calculateChecksum assetData.data := by
  rw [verifyAssetIntegrity, decide_eq_true_eq] at hsum
  rw [compressAsset, if_neg (not_not.mpr hinit), if_neg hcompressed, verifyAssetIntegrity,
    decide_eq_true_eq, hsum]

theorem decompressAsset_compressAsset (hinit : s.initialized) (hc : s.compression.initialized)
    (hcompressed : ¬ assetData.isCompressed)
    (hframed : s.compression.Framed algorithm assetData.data) (hlen : assetData.data.length < 2 ^ 23)
    {r} (hr : s.decompressAsset (s.compressAsset assetData algorithm).2.1 = some r) :
    r.2.1.data ≠ assetData.data := by
  rw [compressAsset, if_neg (not_not.mpr hinit), if_neg hcompressed, decompressAsset,
    if_neg (not_not.mpr hinit), if_neg (not_not.mpr rfl)] at hr
  obtain ⟨data, hdata, rfl⟩ := Option.map_eq_some_iff.mp hr
  rintro rfl
  exact DataCompression.decompress_framed_ne hc hframed hlen .balanced hdata

/-- Where no call makes or takes anything for a frame, the asset passes its check throughout, and
its data are back whenever it is not compressed. -/
theorem intact_throughout (s : AssetLoader) (assetData : AssetData) {ops : List Op}
    (hsum : verifyAssetIntegrity assetData) (h : Run.AtEach step Harmless (s, assetData) ops) :
    Run.Throughout step (Intact assetData.data) (s, assetData) ops := by
  have hkeeps := Run.throughout_of_atEach (I := fun state => Keeps assetData state.2)
    (fun state op state' hi hop hstep => ?_) ⟨rfl, rfl⟩ h
  · refine hkeeps.mono fun state hstate => ⟨fun _ => hstate.1, ?_⟩
    rw [verifyAssetIntegrity, hstate.1, hstate.2]
    exact hsum
  · obtain ⟨hdata, hchecksum⟩ := keeps_step hop hstep
    exact ⟨hdata.trans hi.1, hchecksum.trans hi.2⟩

theorem intact_throughout_ten :
    Run.Throughout step (Intact [0, 1, 2, 3, 4, 5, 6, 7, 8, 9])
      ({ initialized := true, compression := ⟨true, 64⟩ },
        { data := [0, 1, 2, 3, 4, 5, 6, 7, 8, 9], checksum := 0x456CD746 })
      [.compressAsset .zlib, .optimizeAsset, .decompressAsset, .optimizeAsset] := by
  have hsmall : ∀ algorithm, ¬ DataCompression.Framed ⟨true, 64⟩ algorithm
      [0, 1, 2, 3, 4, 5, 6, 7, 8, 9] := fun algorithm h => absurd h.1 (by decide)
  refine intact_throughout { initialized := true, compression := ⟨true, 64⟩ }
    { data := [0, 1, 2, 3, 4, 5, 6, 7, 8, 9], checksum := 0x456CD746 }
    (by decide +kernel) ⟨fun _ _ _ => hsmall .zlib, fun s₁ h₁ => ?_⟩
  obtain rfl := Option.some.inj h₁
  refine ⟨fun _ h => absurd rfl h, fun s₂ h₂ => ?_⟩
  obtain rfl := Option.some.inj h₂
  refine ⟨fun _ _ _ => Or.inr (by decide), fun s₃ h₃ => ?_⟩
  obtain rfl := Option.some.inj h₃
  exact ⟨fun _ _ _ => hsmall .lz4, fun _ _ => trivial⟩

theorem not_intact_throughout :
    ¬ ∀ (s : AssetLoader) (assetData : AssetData) (ops : List Op), ¬ assetData.isCompressed →
      verifyAssetIntegrity assetData →
        Run.Throughout step (Intact assetData.data) (s, assetData) ops := by
  intro h
  have hhalf : (List.replicate 32 0).foldl crcByte 0xFFFFFFFF = 0xE6F5AA52 := by decide +kernel
  have hsum : calculateChecksum (List.replicate 64 0) = 0x758D6336 := by
    rw [calculateChecksum, show List.replicate 64 (0 : UInt8) = List.replicate 32 0 ++ List.replicate 32 0
      from rfl, List.foldl_append, hhalf]
    decide +kernel
  have hzeros := (h { initialized := true, compression := ⟨true, 64⟩ }
    { data := List.replicate 64 0, checksum := 0x758D6336 } [.compressAsset .zlib] Bool.false_ne_true
    (decide_eq_true hsum)).final rfl
  have hverify := hzeros.2
  revert hverify
  decide +kernel

end WitcherMP.Assets.AssetLoader
