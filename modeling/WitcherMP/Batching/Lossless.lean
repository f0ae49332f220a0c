import WitcherMP.Batching.Bounds
import WitcherMP.Lib.Frames

/-! What a compressed batch still tells about its messages. Their data go into it behind their
lengths, their ids and types do not. -/

namespace WitcherMP.Batching

open Compression Messages

section Lossless
variable [Inhabited MessageTypes]

def identity (message : PrioritizedMessage MessageTypes) : UInt32 × MessageTypes × List UInt8 :=
  (message.messageId, message.type, message.data)

def payload (batch : BatchedMessage) : List (List UInt8) := batch.messages.map fun m => m.data

namespace SmartBatching

theorem batchData_eq_frames (ms : List (PrioritizedMessage MessageTypes)) :
    batchData ms = Frames.frames (ms.map fun m => m.data) := by
  rw [batchData, Frames.frames, List.flatMap_map]
  rfl

theorem batchData_congr {ms ms' : List (PrioritizedMessage MessageTypes)}
    (h : (ms.map fun m => m.data) = ms'.map fun m => m.data) : batchData ms = batchData ms' := by
  rw [batchData_eq_frames, batchData_eq_frames, h]

variable {dc : DataCompression} (clock : ℕ → ℚ)

theorem isCompressed_createBatch_iff (b : SmartBatching)
    (ms : List (PrioritizedMessage MessageTypes)) :
    (createBatch dc clock b ms).1.isCompressed = true ↔
      b.config.enableCompression = true ∧ dc.Saves .lz4 (batchData ms) := by
  have hholds := createBatch_holds dc clock b ms
  rw [Holds] at hholds
  split_ifs at hholds with hsaves
  · exact iff_of_true hholds.1 hsaves
  · exact iff_of_false (Bool.eq_false_iff.mp hholds.1) hsaves

theorem payload_createBatch {b : SmartBatching} {ms : List (PrioritizedMessage MessageTypes)}
    (hon : b.config.enableCompression = true) (hsaves : dc.Saves .lz4 (batchData ms)) :
    payload (createBatch dc clock b ms).1 = [dc.compress (batchData ms) .lz4 .balanced] := by
  rw [payload, createBatch]
  dsimp only
  rw [if_pos hon, compressBatch]
  dsimp only
  rw [if_pos ((DataCompression.length_compress_lt_iff .balanced).mpr hsaves)]
  rfl

/-- Both lists are sent compressed, and the receiver gets the same for both. -/
def Confused (dc : DataCompression) (clock : ℕ → ℚ) (b b' : SmartBatching)
    (ms ms' : List (PrioritizedMessage MessageTypes)) : Prop :=
  (createBatch dc clock b ms).1.isCompressed = true ∧
    (createBatch dc clock b' ms').1.isCompressed = true ∧
    payload (createBatch dc clock b ms).1 = payload (createBatch dc clock b' ms').1

def renumbered (ms : List (PrioritizedMessage MessageTypes)) :
    List (PrioritizedMessage MessageTypes) :=
  ms.map fun m => { m with messageId := m.messageId + 1 }

theorem identity_renumbered_ne {ms : List (PrioritizedMessage MessageTypes)} (h : ms ≠ []) :
    (renumbered ms).map identity ≠ ms.map identity := by
  cases ms with
  | nil => exact absurd rfl h
  | cons m ms =>
    rw [renumbered, List.map_cons, List.map_cons, List.map_cons]
    intro heq
    have hid : m.messageId + 1 = m.messageId :=
      congrArg Prod.fst (List.head_eq_of_cons_eq heq)
    have hval := congrArg UInt32.toNat hid
    rw [UInt32.toNat_add] at hval
    have hlt := m.messageId.toNat_lt
    simp only [UInt32.reduceToNat] at hval
    omega

/-- A list of messages is never confused with another exactly if it is not compressed: its data
under other ids go out as the same bytes. -/
theorem never_confused_iff (dc : DataCompression) (clock : ℕ → ℚ) (b : SmartBatching)
    (ms : List (PrioritizedMessage MessageTypes)) :
    (∀ (b' : SmartBatching) (ms' : List (PrioritizedMessage MessageTypes)),
      ms'.map identity ≠ ms.map identity → ¬ Confused dc clock b b' ms ms') ↔
      ¬ (b.config.enableCompression = true ∧ dc.Saves .lz4 (batchData ms)) := by
  constructor
  · rintro h ⟨hon, hsaves⟩
    have hdata : batchData (renumbered ms) = batchData ms :=
      batchData_congr (by rw [renumbered, List.map_map]; rfl)
    have hsaves' : dc.Saves .lz4 (batchData (renumbered ms)) := hdata ▸ hsaves
    refine h b (renumbered ms) (identity_renumbered_ne (ne_nil_of_saves hsaves)) ⟨?_, ?_, ?_⟩
    · exact (isCompressed_createBatch_iff clock b ms).mpr ⟨hon, hsaves⟩
    · exact (isCompressed_createBatch_iff clock b _).mpr ⟨hon, hsaves'⟩
    · rw [payload_createBatch clock hon hsaves, payload_createBatch clock hon hsaves', hdata]
  · rintro h b' ms' - ⟨hcompressed, -⟩
    exact h ((isCompressed_createBatch_iff clock b ms).mp hcompressed)

theorem not_confused_of_low {b b' : SmartBatching}
    {ms ms' : List (PrioritizedMessage MessageTypes)}
    (hshort : ∀ m ∈ ms ++ ms', Frames.Short m.data)
    (hlow : ∀ byte ∈ batchData ms ++ batchData ms', ¬ 0x80 ≤ byte)
    (hne : (ms.map fun m => m.data) ≠ ms'.map fun m => m.data) :
    ¬ Confused dc clock b b' ms ms' := by
  rintro ⟨hcompressed, hcompressed', hpayload⟩
  obtain ⟨hon, hsaves⟩ := (isCompressed_createBatch_iff clock b ms).mp hcompressed
  obtain ⟨hon', hsaves'⟩ := (isCompressed_createBatch_iff clock b' ms').mp hcompressed'
  rw [payload_createBatch clock hon hsaves, payload_createBatch clock hon' hsaves'] at hpayload
  rw [List.forall_mem_append] at hshort hlow
  have hdata := DataCompression.eq_of_compress_eq hsaves hsaves' hlow.1 hlow.2
    (List.head_eq_of_cons_eq hpayload)
  rw [batchData_eq_frames, batchData_eq_frames] at hdata
  exact hne (Frames.frames_injective (by simpa using hshort.1) (by simpa using hshort.2) hdata)

end SmartBatching
end Lossless

namespace SmartBatching

theorem not_never_confused :
    let _ : Inhabited MessageTypes := ⟨.batchMessage⟩
    ¬ ∀ (b b' : SmartBatching) (ms ms' : List (PrioritizedMessage MessageTypes)),
      ms'.map identity ≠ ms.map identity → ¬ Confused ⟨true, 64⟩ (fun n => n / 1000) b b' ms ms' := by
  intro inst h
  have hletters := h (initial {} 0) (initial {} 0)
    [{ messageId := 1, data := List.replicate 100 65 }]
    [{ messageId := 2, data := List.replicate 100 65 }] (by decide +kernel)
  revert hletters
  unfold Confused
  decide +kernel

end SmartBatching
end WitcherMP.Batching
