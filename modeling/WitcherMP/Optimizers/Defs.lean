import WitcherMP.Compression.Defs
import WitcherMP.Networking.Defs

/-! The optimizers of network messages: one with a fixed codec, and one that chooses by what the
bytes look like. Statistics and the thresholds they set, which nothing reads, timing and log lines
are left out. Floats are rationals, rounded to a float after each operation; what the rounding and
the logarithm give are parameters. -/

namespace WitcherMP.Optimizers

open Compression Networking

structure MessageType where
  value : UInt32
deriving DecidableEq

namespace MessageType

def clientConnect : MessageType := ⟨0⟩

def clientDisconnect : MessageType := ⟨1⟩

def clientMessage : MessageType := ⟨2⟩

end MessageType

scoped instance inhabitedMessageType : Inhabited MessageType := ⟨.clientConnect⟩

def serializeMessage (msg : Message MessageType) : List UInt8 :=
  Bytes.le32 msg.header.id.value.toNat ++ Bytes.le32 msg.header.size.toNat ++ msg.body

def compressMessageWith (dc : DataCompression) (algorithm : CompressionAlgorithm)
    (level : CompressionLevel) (originalMessage : Message MessageType) : Message MessageType :=
  let messageData := serializeMessage originalMessage
  let compressedData := dc.compress messageData algorithm level
  { header := { id := originalMessage.header.id, size := .ofNat compressedData.length }
    body := compressedData }

def decompressMessageWith (dc : DataCompression) (compressedMessage : Message MessageType) :
    Option (Message MessageType) :=
  (dc.decompress compressedMessage.body).map fun decompressedData =>
    { header := { id := compressedMessage.header.id, size := .ofNat decompressedData.length }
      body := decompressedData }

structure NetworkOptimizerImpl where
  compressionEnabled : Bool := true
deriving DecidableEq

namespace NetworkOptimizerImpl

def compressMessage (dc : DataCompression) (optimizer : NetworkOptimizerImpl)
    (originalMessage : Message MessageType) : Message MessageType :=
  if ¬ optimizer.compressionEnabled then originalMessage else
  compressMessageWith dc .lz4 .balanced originalMessage

def decompressMessage (dc : DataCompression) (optimizer : NetworkOptimizerImpl)
    (compressedMessage : Message MessageType) : Option (Message MessageType) :=
  if ¬ optimizer.compressionEnabled then some compressedMessage else
  decompressMessageWith dc compressedMessage

end NetworkOptimizerImpl

structure DynamicNetworkOptimizer where
  compressionEnabled : Bool := true
deriving DecidableEq

structure DataCharacteristics where
  entropy : ℚ := 0
  repetition : ℚ := 0
  compressibility : ℚ := 0

structure MessageCharacteristics where
  size : ℕ
  type : MessageType
  entropy : ℚ
  repetition : ℚ
  compressibility : ℚ

namespace DynamicNetworkOptimizer

section Analysis
variable (float log2f : ℚ → ℚ)

/-- Empty data have no characteristics; their defaults are not given in the source, and not used. -/
def analyzeData (data : List UInt8) : DataCharacteristics :=
  if data = [] then {} else
  let byteCounts := (List.range 256).map fun byte => data.count (.ofNat byte)
  let entropy := byteCounts.foldl
    (fun entropy count =>
      if count > 0 then
        let probability := float (float count / float data.length)
        float (entropy - float (probability * log2f probability))
      else entropy)
    0
  let repetitions := (List.range' 1 (data.length - 1)).countP fun i =>
    data.getD i 0 = data.getD (i - 1) 0
  { entropy := float (entropy / 8)
    repetition := float (float repetitions / float data.length)
    compressibility := float (1 - float (entropy / 8)) }

def analyzeMessage (message : Message MessageType) : MessageCharacteristics :=
  let dataChar := analyzeData float log2f message.body
  { size := message.body.length
    type := message.header.id
    entropy := dataChar.entropy
    repetition := dataChar.repetition
    compressibility := dataChar.compressibility }

def chooseCompressionAlgorithm (characteristics : MessageCharacteristics) : CompressionAlgorithm :=
  if characteristics.size < 64 then .lz4
  else if characteristics.entropy < float (3 / 10) then .zlib
  else if characteristics.repetition > float (4 / 10) then .lz4hc
  else .lz4

def chooseCompressionLevel (characteristics : MessageCharacteristics) : CompressionLevel :=
  if characteristics.size < 128 then .fast
  else if characteristics.compressibility > float (7 / 10) then .high
  else .balanced

def compressMessage (dc : DataCompression) (optimizer : DynamicNetworkOptimizer)
    (originalMessage : Message MessageType) : Message MessageType :=
  if ¬ optimizer.compressionEnabled then originalMessage else
  let characteristics := analyzeMessage float log2f originalMessage
  let algorithm := chooseCompressionAlgorithm float characteristics
  let level := chooseCompressionLevel float characteristics
  compressMessageWith dc algorithm level originalMessage

end Analysis

def decompressMessage (dc : DataCompression) (optimizer : DynamicNetworkOptimizer)
    (compressedMessage : Message MessageType) : Option (Message MessageType) :=
  if ¬ optimizer.compressionEnabled then some compressedMessage else
  decompressMessageWith dc compressedMessage

/-- The four codecs are, loop for loop, those of the data compression. -/
def compressRLE (data : List UInt8) : List UInt8 := compressZlib data

def decompressRLE (data : List UInt8) : List UInt8 := decompressZlib data

def compressLZ77 (data : List UInt8) : List UInt8 := compressLZ4 data

def decompressLZ77 (data : List UInt8) : Option (List UInt8) := decompressLZ4 data

def hasEscape : List UInt8 → Bool
  | b :: count :: value :: bs => b = 0xFF ∧ count > 3 ∨ hasEscape (count :: value :: bs)
  | _ => false

/-- The bound of the loop is unsigned: with less than two bytes it reads past the end. -/
def isRLECompressed (data : List UInt8) : Option Bool :=
  if data.length < 2 then none else some (hasEscape data)

def isLZ77Compressed (data : List UInt8) : Option Bool :=
  if data.length < 1 then none else some (data.dropLast.any fun b => b &&& 0x80 ≠ 0)

def applyDynamicCompression (dc : DataCompression) (float log2f : ℚ → ℚ) (data : List UInt8) :
    List UInt8 :=
  if data = [] then data else
  let characteristics := analyzeData float log2f data
  if characteristics.entropy < 1 / 2 then compressRLE data
  else if characteristics.repetition > float (3 / 10) then compressLZ77 data
  else dc.compress data .lz4 .balanced

def applyDynamicDecompression (dc : DataCompression) (data : List UInt8) : Option (List UInt8) :=
  if data = [] then some data else do
  if ← isRLECompressed data then some (decompressRLE data)
  else if ← isLZ77Compressed data then decompressLZ77 data
  else dc.decompress data

end DynamicNetworkOptimizer
end WitcherMP.Optimizers
