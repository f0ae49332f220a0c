import WitcherMP.Assets.Defs

/-! Which bundles load: a path is asked for the extension of an asset and for that of a bundle. -/

namespace WitcherMP.Assets.AssetLoader
open Saves (Files)

variable (isSeparator : Char → Bool) (memory : ℕ → List UInt8) (files : Files)

structure IsBundle (bytes : List UInt8) : Prop where
  header : 32 ≤ bytes.length
  magic : bytes.take 4 = [0x42, 0x4E, 0x44, 0x4C]
  contents : 32 + 32 * Bytes.readLE32 (bytes.drop 8) ≤ bytes.length

def Legitimate (bundlePath : String) : Prop :=
  ∃ bytes, files bundlePath = some bytes ∧ bytes.length ≤ maxBundleSize ∧ IsBundle bytes ∧
    toLower (getFileExtension isSeparator bundlePath) ∈ supportedBundleExtensions

theorem extensions_disjoint : ∀ e ∈ supportedAssetExtensions, e ∉ supportedBundleExtensions := by
  decide

theorem not_isValidAssetFile_of_validateBundleFile {bundlePath : String}
    (h : validateBundleFile isSeparator files bundlePath) :
    ¬ isValidAssetFile isSeparator bundlePath := by
  intro hvalid
  rw [validateBundleFile] at h
  rw [isValidAssetFile] at hvalid
  split at h
  · cases h
  · split_ifs at h hvalid
    exact extensions_disjoint _ (of_decide_eq_true hvalid) (of_decide_eq_true h)

theorem validateBundleFile_of_legitimate {bundlePath : String}
    (h : Legitimate isSeparator files bundlePath) : validateBundleFile isSeparator files bundlePath := by
  obtain ⟨bytes, hbytes, hsize, -, hextension⟩ := h
  rw [validateBundleFile, hbytes]
  dsimp only
  rw [if_neg (not_lt.mpr hsize)]
  exact decide_eq_true hextension

/-- No file is loaded as a bundle, and the bundles stay as they are. -/
theorem loadBundle_refuses (s : AssetLoader) (bundlePath : String) :
    ¬ (s.loadBundle isSeparator memory files bundlePath).2 ∧
      (s.loadBundle isSeparator memory files bundlePath).1.loadedBundles = s.loadedBundles := by
  rw [loadBundle]
  split_ifs with hinit hvalid
  · have hinvalid : ¬ validateBundleFile isSeparator files bundlePath := fun h =>
      not_isValidAssetFile_of_validateBundleFile isSeparator files h hvalid
    rw [loadBundleInternal, if_pos hinvalid]
    exact ⟨Bool.false_ne_true, rfl⟩
  · exact ⟨id, rfl⟩
  · exact ⟨id, rfl⟩

theorem not_loadBundle_of_legitimate :
    ¬ ∀ (isSeparator : Char → Bool) (memory : ℕ → List UInt8) (files : Files) (s : AssetLoader)
      (bundlePath : String), s.initialized → Legitimate isSeparator files bundlePath →
        (s.loadBundle isSeparator memory files bundlePath).2 := by
  intro h
  let bytes : List UInt8 := [0x42, 0x4E, 0x44, 0x4C, 1] ++ List.replicate 27 0
  have hload := h (· = '/') (fun _ => [])
    (fun path => if path = "mods/blob.bundle" then some bytes else none)
    { initialized := true } "mods/blob.bundle" rfl
    ⟨bytes, by decide, by decide, ⟨by decide, by decide, by decide⟩, by decide⟩
  revert hload
  decide

end WitcherMP.Assets.AssetLoader
