import WitcherMP.Compression.Defs
import WitcherMP.Saves.Defs
import Mathlib.Data.String.Basic

/-! The asset loader: bundles that are loaded from files, and assets that are compressed and
checked. Callbacks, log lines and the bridge to the game are left out, and so is what is done with
loaded assets. The file system is an argument, and what buffers hold before they are read into. -/

namespace WitcherMP.Assets
open Compression
open Saves (Files nameOf)

structure AssetData where
  name : String := ""
  data : List UInt8 := []
  originalSize : ℕ := 0
  compressedSize : ℕ := 0
  isCompressed : Bool := false
  checksum : UInt32 := 0
deriving DecidableEq

structure BundleInfo where
  name : String := ""
  path : String := ""
  assets : List String := []
  totalSize : ℕ := 0
  isLoaded : Bool := false
  version : UInt32 := 0
deriving DecidableEq

structure AssetLoader where
  initialized : Bool := false
  lastError : String := ""
  loadedBundles : OrdMap String BundleInfo := .empty
  compression : DataCompression := ⟨false, 64⟩
deriving DecidableEq

def supportedBundleExtensions : List String := [".bundle", ".pak", ".archive"]

def supportedAssetExtensions : List String :=
  [".ws", ".w2ent", ".w2mesh", ".w2rig", ".w2animev", ".w2mi", ".w2p", ".w2scene", ".w2beh",
    ".w2behtree", ".w2quest", ".w2phase", ".w2job", ".w2l", ".w2p", ".w2w", ".w2x", ".w2fx", ".w2mg",
    ".w2em", ".w2et", ".w2pe", ".w2sm", ".w2beh", ".w2behtree", ".w2quest", ".w2phase", ".w2job",
    ".w2l", ".w2p", ".w2w", ".w2x", ".w2fx", ".w2mg", ".w2em", ".w2et", ".w2pe", ".w2sm"]

def maxBundleSize : ℕ := 1024 * 1024 * 1024

section Paths
variable (isSeparator : Char → Bool)

def getFileName (filePath : String) : String :=
  .ofList (filePath.toList.reverse.takeWhile fun c => ¬ isSeparator c).reverse

def getFileExtension (filePath : String) : String :=
  let name := (getFileName isSeparator filePath).toList
  let extension := (name.reverse.takeWhile (· ≠ '.')).reverse
  if name = ['.', '.'] ∨ name.length ≤ extension.length + 1 then ""
  else .ofList ('.' :: extension)

def toLower (s : String) : String := .ofList (s.toList.map Char.toLower)

end Paths

namespace AssetLoader

def setError (s : AssetLoader) (error : String) : AssetLoader := { s with lastError := error }

/-- Thirty-two bytes are read over what is there; the file may end before. -/
def readBuffer (bytes : List UInt8) (position : ℕ) (memory : List UInt8) : List UInt8 :=
  let read := (bytes.drop position).take 32
  read ++ memory.drop read.length

def entryAsset (entry : List UInt8) : Option String :=
  let fileName := (entry.take 16).takeWhile (· ≠ 0)
  let size := Bytes.readLE32 (entry.drop 20)
  if fileName ≠ [] ∧ size > 0 then some (nameOf fileName) else none

/-- The size is asked for at the end of the file, and is lost where a read went past it. -/
def parseBundle (isSeparator : Char → Bool) (memory : ℕ → List UInt8) (bundlePath : String)
    (bytes : List UInt8) : BundleInfo :=
  let header := readBuffer bytes 0 (memory 0)
  if header.take 4 ≠ [0x42, 0x4E, 0x44, 0x4C] then
    { name := getFileName isSeparator bundlePath, path := bundlePath, totalSize := bytes.length
      isLoaded := true, version := 1, assets := ["asset1", "asset2", "asset3"] }
  else
    let numFiles := Bytes.readLE32 (header.drop 8)
    let rounds := min numFiles 1000
    { name := getFileName isSeparator bundlePath, path := bundlePath
      version := .ofNat (Bytes.readLE32 (header.drop 4))
      assets := (List.range rounds).filterMap fun i =>
        entryAsset (readBuffer bytes (32 + 32 * i) (memory (i + 1)))
      totalSize := if 32 + 32 * rounds ≤ bytes.length then bytes.length else 2 ^ 64 - 1
      isLoaded := true }

section Loading
variable (isSeparator : Char → Bool) (memory : ℕ → List UInt8) (files : Files)

def parseBundleFile (bundlePath : String) : Option BundleInfo :=
  (files bundlePath).map (parseBundle isSeparator memory bundlePath)

def isValidAssetFile (filePath : String) : Bool :=
  if filePath = "" then false else
  toLower (getFileExtension isSeparator filePath) ∈ supportedAssetExtensions

def validateBundleFile (bundlePath : String) : Bool :=
  match files bundlePath with
  | none => false
  | some bytes =>
    if bytes.length > maxBundleSize then false else
    toLower (getFileExtension isSeparator bundlePath) ∈ supportedBundleExtensions

def loadBundleInternal (s : AssetLoader) (bundlePath : String) : AssetLoader × Option BundleInfo :=
  if ¬ validateBundleFile isSeparator files bundlePath then
    (s.setError ("Invalid bundle file: " ++ bundlePath), none)
  else
    match parseBundleFile isSeparator memory files bundlePath with
    | none => (s.setError ("Failed to parse bundle file: " ++ bundlePath), none)
    | some bundleInfo => (s, some bundleInfo)

def loadBundle (s : AssetLoader) (bundlePath : String) : AssetLoader × Bool :=
  if ¬ s.initialized then (s.setError "AssetLoader not initialized", false)
  else if ¬ isValidAssetFile isSeparator bundlePath then
    (s.setError ("Invalid bundle file: " ++ bundlePath), false)
  else
    match loadBundleInternal isSeparator memory files s bundlePath with
    | (s, none) => (s.setError ("Failed to load bundle: " ++ bundlePath), false)
    | (s, some bundleInfo) =>
      ({ s with loadedBundles := s.loadedBundles.insert bundleInfo.name bundleInfo }, true)

end Loading

def crcByte (crc : UInt32) (byte : UInt8) : UInt32 :=
  (List.range 8).foldl
    (fun crc _ => if crc &&& 1 ≠ 0 then (crc >>> 1) ^^^ 0xEDB88320 else crc >>> 1)
    (crc ^^^ byte.toUInt32)

def calculateChecksum (data : List UInt8) : UInt32 := ~~~ (data.foldl crcByte 0xFFFFFFFF)

def verifyAssetIntegrity (assetData : AssetData) : Bool :=
  calculateChecksum assetData.data = assetData.checksum

def compressAsset (s : AssetLoader) (assetData : AssetData) (algorithm : CompressionAlgorithm) :
    AssetLoader × AssetData × Bool :=
  if ¬ s.initialized then (s.setError "AssetLoader not initialized", assetData, false)
  else if assetData.isCompressed then (s.setError "Asset already compressed", assetData, false)
  else
    let data := s.compression.compress assetData.data algorithm .balanced
    (s, { assetData with
      originalSize := assetData.data.length
      data := data
      compressedSize := data.length
      isCompressed := true }, true)

/-- `none` where decompression reads past the end or divides by zero. -/
def decompressAsset (s : AssetLoader) (assetData : AssetData) :
    Option (AssetLoader × AssetData × Bool) :=
  if ¬ s.initialized then some (s.setError "AssetLoader not initialized", assetData, false)
  else if ¬ assetData.isCompressed then some (s.setError "Asset not compressed", assetData, false)
  else (s.compression.decompress assetData.data).map fun data =>
    (s, { assetData with data := data, isCompressed := false }, true)

def optimizeAsset (s : AssetLoader) (assetData : AssetData) : AssetLoader × AssetData × Bool :=
  if ¬ s.initialized then (s.setError "AssetLoader not initialized", assetData, false)
  else if ¬ assetData.isCompressed then s.compressAsset assetData .lz4
  else (s, assetData, true)

inductive Op
  | compressAsset (algorithm : CompressionAlgorithm)
  | optimizeAsset
  | decompressAsset

def step : AssetLoader × AssetData → Op → Option (AssetLoader × AssetData)
  | (s, assetData), .compressAsset algorithm =>
    let (s, assetData, _) := s.compressAsset assetData algorithm
    some (s, assetData)
  | (s, assetData), .optimizeAsset =>
    let (s, assetData, _) := s.optimizeAsset assetData
    some (s, assetData)
  | (s, assetData), .decompressAsset =>
    (s.decompressAsset assetData).map fun (s, assetData, _) => (s, assetData)

end AssetLoader
end WitcherMP.Assets
