import WitcherMP.Optimizers.Defs
import WitcherMP.Protocol.Records

/-! Batches of network messages: serialized one behind the other, and read back from an offset that
the sizes in the headers move on. -/

namespace WitcherMP.Optimizers.NetworkOptimizerImpl

open Compression Networking
open Protocol.OptimizedNetworkProtocol (readWord toOption_readWord)

def serializeBatch (messages : List (Message MessageType)) : List UInt8 :=
  messages.flatMap serializeMessage

def compressBatch (dc : DataCompression) (messages : List (Message MessageType)) : List UInt8 :=
  if messages = [] then [] else dc.compress (serializeBatch messages) .lz4 .high

def deserializeMessage (data : List UInt8) (offset : ℕ) :
    Traced (Option (Message MessageType) × ℕ) :=
  if offset + 8 > data.length then return (none, offset)
  else do
    let id ← readWord data offset
    let size ← readWord data (offset + 4)
    let offset := offset + 8
    if offset + size.toNat > data.length then return (none, offset)
    else do
      let body ← Traced.getRange data offset size.toNat
      return (some { header := { id := ⟨id⟩, size := size }, body := body }, offset + size.toNat)

def deserializeRounds : ℕ → List UInt8 → ℕ → Traced (Option (List (Message MessageType) × ℕ))
  | 0, _, _ => return none
  | rounds + 1, data, offset =>
    if offset < data.length then do
      match ← deserializeMessage data offset with
      | (none, offset) => return some ([], offset)
      | (some msg, offset) => do
        let rest ← deserializeRounds rounds data offset
        return rest.map fun r => (msg :: r.1, r.2)
    else return some ([], offset)

/-- Every round but the last takes eight bytes at least. -/
def decompressBatch (dc : DataCompression) (compressedBatch : List UInt8) :
    Option (List (Message MessageType)) :=
  if compressedBatch = [] then some [] else do
  let decompressedBatch ← dc.decompress compressedBatch
  let r ← (deserializeRounds (decompressedBatch.length + 1) decompressedBatch 0).value
  some r.1

/-- The header counts the bytes of the body. -/
def Counted (msg : Message MessageType) : Prop := msg.header.size.toNat = msg.body.length

theorem serializeMessage_append (msg : Message MessageType) (behind : List UInt8) :
    serializeMessage msg ++ behind =
      Bytes.le32 msg.header.id.value.toNat ++
        (Bytes.le32 msg.header.size.toNat ++ (msg.body ++ behind)) := by
  simp [serializeMessage]

theorem toOption_deserializeMessage {msg : Message MessageType} (h : Counted msg)
    {data behind : List UInt8} {offset : ℕ}
    (hdata : data.drop offset = serializeMessage msg ++ behind) :
    (deserializeMessage data offset).toOption =
      some (some msg, offset + (serializeMessage msg).length) := by
  rw [serializeMessage_append] at hdata
  have hlen := congrArg List.length hdata
  have hsize : msg.header.size.toNat = msg.body.length := h
  simp only [List.length_drop, List.length_append, Bytes.length_le32] at hlen
  have hid : (readWord data offset).toOption = some msg.header.id.value := by
    rw [toOption_readWord (by omega), hdata, Bytes.readLE32_le32,
      Nat.mod_eq_of_lt msg.header.id.value.toNat_lt, UInt32.ofNat_toNat]
  have hword : (readWord data (offset + 4)).toOption = some msg.header.size := by
    rw [toOption_readWord (by omega), ← List.drop_drop, hdata,
      List.drop_left' (Bytes.length_le32 _), Bytes.readLE32_le32,
      Nat.mod_eq_of_lt msg.header.size.toNat_lt, UInt32.ofNat_toNat]
  have hbody : (data.drop (offset + 8)).take msg.header.size.toNat = msg.body := by
    rw [show offset + 8 = offset + 4 + 4 by rfl, ← List.drop_drop, ← List.drop_drop, hdata,
      List.drop_left' (Bytes.length_le32 _), List.drop_left' (Bytes.length_le32 _), hsize,
      List.take_left]
  have hrange : (Traced.getRange data (offset + 8) msg.header.size.toNat).toOption =
      some msg.body := by
    rw [Traced.toOption_getRange, if_pos (Or.inr (by omega)), hbody]
  have hend : offset + 8 + msg.header.size.toNat = offset + (serializeMessage msg).length := by
    simp only [serializeMessage, List.length_append, Bytes.length_le32]
    omega
  rw [deserializeMessage, if_neg (by omega)]
  simp only [Traced.toOption_bind, hid, hword, Option.bind_some]
  rw [if_neg (by omega), Traced.toOption_bind, hrange, Option.bind_some, Traced.toOption_pure, hend]

theorem toOption_deserializeRounds {messages : List (Message MessageType)}
    (h : ∀ msg ∈ messages, Counted msg) {data : List UInt8} {offset rounds : ℕ}
    (hinside : offset ≤ data.length) (hdata : data.drop offset = serializeBatch messages)
    (hrounds : messages.length < rounds) :
    (deserializeRounds rounds data offset).toOption = some (some (messages, data.length)) := by
  induction messages generalizing offset rounds with
  | nil =>
    obtain ⟨rounds, rfl⟩ := Nat.exists_eq_succ_of_ne_zero (Nat.ne_of_gt hrounds)
    have hend : data.length = offset := hinside.antisymm' (List.drop_eq_nil_iff.mp hdata)
    rw [deserializeRounds, if_neg (by omega), Traced.toOption_pure, hend]
  | cons msg messages ih =>
    obtain ⟨rounds, rfl⟩ := Nat.exists_eq_succ_of_ne_zero (Nat.ne_of_gt (Nat.zero_lt_of_lt hrounds))
    have hfirst : data.drop offset = serializeMessage msg ++ serializeBatch messages := hdata
    have hlen := congrArg List.length hfirst
    have hpos : 8 ≤ (serializeMessage msg).length := by
      simp only [serializeMessage, List.length_append, Bytes.length_le32]
      omega
    rw [List.length_drop, List.length_append] at hlen
    have hmsg : Counted msg := h msg (List.mem_cons_self ..)
    have hrest : (deserializeRounds rounds data (offset + (serializeMessage msg).length)).toOption =
        some (some (messages, data.length)) := by
      apply ih (fun m hm => h m (List.mem_cons_of_mem _ hm)) (by omega)
      · rw [← List.drop_drop, hfirst, List.drop_left]
      · simpa using hrounds
    rw [deserializeRounds, if_pos (by omega), Traced.toOption_bind,
      toOption_deserializeMessage hmsg hfirst, Option.bind_some]
    dsimp only
    rw [Traced.toOption_bind, hrest, Option.bind_some, Traced.toOption_pure, Option.map_some]

/-- A batch is read back whole, with as many rounds as it has messages and one more. -/
theorem deserializeRounds_serializeBatch {messages : List (Message MessageType)}
    (h : ∀ msg ∈ messages, msg.header.size.toNat = msg.body.length) {rounds : ℕ}
    (hrounds : messages.length < rounds) :
    let data := serializeBatch messages
    (deserializeRounds rounds data 0).Safe ∧
      (deserializeRounds rounds data 0).value = some (messages, data.length) :=
  Traced.toOption_eq_some_iff.mp (toOption_deserializeRounds h (Nat.zero_le _) rfl hrounds)

theorem deserializeRounds_serializeBatch_two :
    let messages : List (Message MessageType) :=
      [⟨⟨.clientMessage, 0⟩, []⟩, ⟨⟨.clientConnect, 2⟩, [5, 6]⟩]
    let data := serializeBatch messages
    (deserializeRounds 3 data 0).Safe ∧
      (deserializeRounds 3 data 0).value = some (messages, data.length) :=
  deserializeRounds_serializeBatch (by decide) (by decide)

theorem length_le_serializeBatch (messages : List (Message MessageType)) :
    messages.length ≤ (serializeBatch messages).length := by
  induction messages with
  | nil => exact Nat.zero_le _
  | cons msg messages ih =>
    have hbatch : serializeBatch (msg :: messages) =
        serializeMessage msg ++ serializeBatch messages := rfl
    simp only [hbatch, serializeMessage, List.length_append, List.length_cons, Bytes.length_le32]
    omega

theorem decompressBatch_of_restored {dc : DataCompression} {messages : List (Message MessageType)}
    (h : ∀ msg ∈ messages, Counted msg)
    (hdc : dc.decompress (dc.compress (serializeBatch messages) .lz4 .high) =
      some (serializeBatch messages)) :
    decompressBatch dc (compressBatch dc messages) = some messages := by
  by_cases hnil : messages = []
  · rw [compressBatch, if_pos hnil, decompressBatch, if_pos rfl, hnil]
  have hpos : 0 < (serializeBatch messages).length :=
    (List.length_pos_iff.mpr hnil).trans_le (length_le_serializeBatch messages)
  have hne : dc.compress (serializeBatch messages) .lz4 .high ≠ [] := by
    intro hempty
    rw [hempty, DataCompression.decompress, if_pos (Or.inr rfl), Option.some.injEq] at hdc
    rw [← hdc] at hpos
    exact absurd hpos (Nat.lt_irrefl 0)
  have hread := toOption_deserializeRounds h (Nat.zero_le _) (List.drop_zero ..)
    (Nat.lt_succ_of_le (length_le_serializeBatch messages))
  rw [compressBatch, if_neg hnil, decompressBatch, if_neg hne, hdc]
  show (deserializeRounds _ _ 0).value.bind _ = _
  rw [(Traced.toOption_eq_some_iff.mp hread).2]
  rfl

end WitcherMP.Optimizers.NetworkOptimizerImpl
