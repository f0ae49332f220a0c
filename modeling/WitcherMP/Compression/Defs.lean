import WitcherMP.Lib.Bytes

/-! Data compression: the two placeholder codecs and the framing around them. Statistics and
timing are left out, and so is the level, which the codecs ignore. -/

namespace WitcherMP.Compression

inductive CompressionAlgorithm
  | none | zlib | lz4 | lz4hc | gzip
deriving DecidableEq

def CompressionAlgorithm.value : CompressionAlgorithm → UInt8
  | none => 0
  | zlib => 1
  | lz4 => 2
  | lz4hc => 3
  | gzip => 4

inductive CompressionLevel
  | fast | balanced | high | maximum
deriving DecidableEq

def CompressionLevel.value : CompressionLevel → UInt8
  | fast => 1
  | balanced => 2
  | high => 3
  | maximum => 4

def runLength (current : UInt8) : ℕ → List UInt8 → ℕ
  | limit + 1, b :: bs => if b = current then runLength current limit bs + 1 else 0
  | _, _ => 0

/-- The loop of `compressZlib`; `fuel` bounds the rounds, each of which consumes a byte. -/
def compressZlibLoop : ℕ → List UInt8 → List UInt8
  | fuel + 1, current :: data =>
    let count := runLength current 254 data + 1
    (if count > 3 then [0xFF, .ofNat count, current] else List.replicate count current) ++
      compressZlibLoop fuel (data.drop (count - 1))
  | _, _ => []

def compressZlib (data : List UInt8) : List UInt8 := compressZlibLoop data.length data

/-- An escape needs two more bytes; a late one is an ordinary byte. -/
def decompressZlib : List UInt8 → List UInt8
  | b :: count :: value :: bs =>
    if b = 0xFF then List.replicate count.toNat value ++ decompressZlib bs
    else b :: decompressZlib (count :: value :: bs)
  | bs => bs

def matchLength : ℕ → List UInt8 → List UInt8 → ℕ
  | limit + 1, a :: as, b :: bs => if a = b then matchLength limit as bs + 1 else 0
  | _, _, _ => 0

/-- The first longest match for `rest` among the last bytes of `done`: length and distance. -/
def findMatch (done rest : List UInt8) : ℕ × ℕ :=
  (List.range' (done.length - 255) (min done.length 255)).foldl
    (fun best j =>
      let len := matchLength 15 (done.drop j) rest
      if len > best.1 then (len, done.length - j) else best)
    (0, 0)

def compressLZ4Loop : ℕ → List UInt8 → List UInt8 → List UInt8
  | fuel + 1, done, b :: rest =>
    let found := findMatch done (b :: rest)
    if found.1 ≥ 3 then
      [0x80 ||| .ofNat (found.1 - 3), .ofNat found.2] ++
        compressLZ4Loop fuel (done ++ (b :: rest).take found.1) ((b :: rest).drop found.1)
    else b :: compressLZ4Loop fuel (done ++ [b]) rest
  | _, _, _ => []

def compressLZ4 (data : List UInt8) : List UInt8 := compressLZ4Loop data.length [] data

/-- Copy `length` bytes from `distance` back, over and over where the copy is longer. -/
def copyBack (out : List UInt8) (length distance : ℕ) : List UInt8 :=
  (List.range length).map fun j => out.getD (out.length - distance + j % distance) 0

/-- The loop of `decompressLZ4`; `none` stands for the division by a zero distance. -/
def decompressLZ4Loop : List UInt8 → List UInt8 → Option (List UInt8)
  | [], out => some out
  | [b], out => some (out ++ [b])
  | b :: distance :: bs, out =>
    if b &&& 0x80 ≠ 0 then
      if distance.toNat ≤ out.length then
        if distance = 0 then none
        else
          decompressLZ4Loop bs (out ++ copyBack out ((b &&& 0x7F) + 3).toNat distance.toNat)
      else decompressLZ4Loop bs (out ++ [b])
    else decompressLZ4Loop (distance :: bs) (out ++ [b])

def decompressLZ4 (compressed : List UInt8) : Option (List UInt8) := decompressLZ4Loop compressed []

structure DataCompression where
  initialized : Bool
  minCompressionSize : ℕ
deriving DecidableEq

namespace DataCompression

def isCompressible (data : List UInt8) (minSize : ℕ) : Bool := data.length ≥ minSize

def encode : CompressionAlgorithm → List UInt8 → List UInt8
  | .zlib => compressZlib
  | .lz4 => compressLZ4
  | .lz4hc => compressLZ4
  | .none => id
  | .gzip => id

def compress (dc : DataCompression) (data : List UInt8) (algorithm : CompressionAlgorithm)
    (level : CompressionLevel) : List UInt8 :=
  if ¬ dc.initialized ∨ data = [] then data else
  if ¬ isCompressible data dc.minCompressionSize then data else
  let compressedData := encode algorithm data
  if compressedData.length ≥ data.length then data else
  [algorithm.value, level.value] ++ Bytes.le32 data.length ++ Bytes.le32 compressedData.length ++
    compressedData

/-- The tag in the first byte decides the codec, whatever the caller asks for. The sizes are
read from the bytes 2 to 9 of anything that has at least 8, so `none` stands for a read past
the end as well. -/
def decompress (dc : DataCompression) (compressedData : List UInt8) : Option (List UInt8) :=
  if ¬ dc.initialized ∨ compressedData = [] then some compressedData else
  if compressedData.length < 8 then some compressedData else
  if compressedData.length < 10 then none else
  -- the header that was put in front has 10 bytes
  let dataToDecompress := compressedData.drop 8
  let tag := compressedData.headD 0
  if tag = CompressionAlgorithm.zlib.value then some (decompressZlib dataToDecompress)
  else if tag = CompressionAlgorithm.lz4.value then decompressLZ4 dataToDecompress
  else if tag = CompressionAlgorithm.lz4hc.value then decompressLZ4 dataToDecompress
  else some compressedData

end DataCompression
end WitcherMP.Compression
