import WitcherMP.Lib.Neighbours
import Mathlib.Algebra.BigOperators.Group.List.Basic

/-! Groups of messages: cutting one into pieces that fit, joining pieces, and sorting out the
messages that occur twice. A size is a value that adds up and can be compared as a number. -/

namespace WitcherMP.Batching.SmartBatchingImpl

open Neighbours (unique Convex)

structure BatchedMessage (S : Type) where
  id : UInt32
  size : S
  priority : UInt32
  data : List UInt8

variable {S : Type}

def same (a b : BatchedMessage S) : Prop := a.id = b.id ∧ a.data = b.data

instance : DecidableRel (same (S := S)) := fun _ _ => instDecidableAnd

theorem same_equivalence : Equivalence (same (S := S)) where
  refl _ := ⟨rfl, rfl⟩
  symm h := ⟨h.1.symm, h.2.symm⟩
  trans h h' := ⟨h.1.trans h'.1, h.2.trans h'.2⟩

def rank (msg : BatchedMessage S) : ℕᵒᵈ := OrderDual.toDual msg.priority.toNat

structure BatchedMessageGroup (S : Type) [AddMonoid S] where
  messages : List (BatchedMessage S) := []
  totalSize : S := 0
  priority : UInt32 := 0

variable [AddMonoid S]

def mergeBatches (batches : List (BatchedMessageGroup S)) : BatchedMessageGroup S :=
  batches.foldl (fun merged batch =>
    { messages := merged.messages ++ batch.messages
      totalSize := merged.totalSize + batch.totalSize
      priority := max merged.priority batch.priority }) {}

def splitRound (value : S → ℕ) (priority : UInt32) (maxSize : ℕ)
    (s : List (BatchedMessageGroup S) × BatchedMessageGroup S) (msg : BatchedMessage S) :
    List (BatchedMessageGroup S) × BatchedMessageGroup S :=
  let full := maxSize < value (s.2.totalSize + msg.size) ∧ s.2.messages ≠ []
  let output := if full then s.1 ++ [s.2] else s.1
  let current := if full then { priority := priority } else s.2
  (output, { current with
    messages := current.messages ++ [msg]
    totalSize := current.totalSize + msg.size })

def flush (s : List (BatchedMessageGroup S) × BatchedMessageGroup S) :
    List (BatchedMessageGroup S) :=
  if s.2.messages = [] then s.1 else s.1 ++ [s.2]

def splitBatch (value : S → ℕ) (batch : BatchedMessageGroup S) (maxSize : ℕ) :
    List (BatchedMessageGroup S) :=
  flush (batch.messages.foldl (splitRound value batch.priority maxSize)
    ([], { priority := batch.priority }))

def optimizeBatch (std : StdSort (BatchedMessage S) rank) (batch : BatchedMessageGroup S) :
    BatchedMessageGroup S :=
  let messages := unique same (std.sort batch.messages)
  { batch with
    messages := messages
    totalSize := messages.foldl (fun total msg => total + msg.size) 0 }

def sizes (messages : List (BatchedMessage S)) : S := (messages.map BatchedMessage.size).sum

structure Piece (value : S → ℕ) (priority : UInt32) (maxSize : ℕ)
    (batch : BatchedMessageGroup S) : Prop where
  total : batch.totalSize = sizes batch.messages
  priority : batch.priority = priority
  fits : value batch.totalSize ≤ maxSize ∨ batch.messages.length ≤ 1

structure Split (value : S → ℕ) (priority : UInt32) (maxSize : ℕ) (taken : List (BatchedMessage S))
    (s : List (BatchedMessageGroup S) × BatchedMessageGroup S) : Prop where
  messages : s.1.flatMap BatchedMessageGroup.messages ++ s.2.messages = taken
  output : ∀ p ∈ s.1, p.messages ≠ [] ∧ Piece value priority maxSize p
  current : Piece value priority maxSize s.2

theorem sizes_append (ms : List (BatchedMessage S)) (msg : BatchedMessage S) :
    sizes (ms ++ [msg]) = sizes ms + msg.size := by
  simp [sizes]

theorem foldl_size (ms : List (BatchedMessage S)) (total : S) :
    ms.foldl (fun total msg => total + msg.size) total = total + sizes ms := by
  induction ms generalizing total with
  | nil => simp [sizes]
  | cons msg ms ih => simp [ih, sizes, add_assoc]

theorem Split.round {value : S → ℕ} {priority : UInt32} {maxSize : ℕ}
    {taken : List (BatchedMessage S)}
    {s : List (BatchedMessageGroup S) × BatchedMessageGroup S}
    (h : Split value priority maxSize taken s) (msg : BatchedMessage S) :
    Split value priority maxSize (taken ++ [msg]) (splitRound value priority maxSize s msg) := by
  by_cases hfull : maxSize < value (s.2.totalSize + msg.size) ∧ s.2.messages ≠ []
  · rw [splitRound, if_pos hfull, if_pos hfull]
    refine ⟨?_, fun p hp => ?_, ⟨by simp [sizes], rfl, .inr (by simp)⟩⟩
    · simp [← h.messages]
    · rcases List.mem_append.mp hp with hp | hp
      · exact h.output p hp
      · rw [List.mem_singleton.mp hp]
        exact ⟨hfull.2, h.current⟩
  · rw [splitRound, if_neg hfull, if_neg hfull]
    refine ⟨?_, h.output, ⟨?_, h.current.priority, ?_⟩⟩
    · simp [← h.messages]
    · show s.2.totalSize + msg.size = sizes (s.2.messages ++ [msg])
      rw [sizes_append, h.current.total]
    · rcases not_and_or.mp hfull with hfits | hempty
      · exact .inl (not_lt.mp hfits)
      · rw [not_not] at hempty
        exact .inr (by simp [hempty])

theorem split_foldl {value : S → ℕ} {priority : UInt32} {maxSize : ℕ}
    (ms : List (BatchedMessage S)) {taken : List (BatchedMessage S)}
    {s : List (BatchedMessageGroup S) × BatchedMessageGroup S}
    (h : Split value priority maxSize taken s) :
    Split value priority maxSize (taken ++ ms)
      (ms.foldl (splitRound value priority maxSize) s) := by
  induction ms generalizing taken s with
  | nil => simpa using h
  | cons msg ms ih => simpa using ih (h.round msg)

theorem Split.flush {value : S → ℕ} {priority : UInt32} {maxSize : ℕ}
    {taken : List (BatchedMessage S)}
    {s : List (BatchedMessageGroup S) × BatchedMessageGroup S}
    (h : Split value priority maxSize taken s) :
    (SmartBatchingImpl.flush s).flatMap BatchedMessageGroup.messages = taken ∧
      ∀ p ∈ SmartBatchingImpl.flush s, p.messages ≠ [] ∧ Piece value priority maxSize p := by
  unfold SmartBatchingImpl.flush
  split
  · next hempty =>
      have hmessages := h.messages
      rw [hempty, List.append_nil] at hmessages
      exact ⟨hmessages, h.output⟩
  · next hne =>
      refine ⟨by simpa using h.messages, fun p hp => ?_⟩
      rcases List.mem_append.mp hp with hp | hp
      · exact h.output p hp
      · rw [List.mem_singleton.mp hp]
        exact ⟨hne, h.current⟩

theorem splitBatch_pieces (value : S → ℕ) (batch : BatchedMessageGroup S) (maxSize : ℕ) :
    (splitBatch value batch maxSize).flatMap BatchedMessageGroup.messages = batch.messages ∧
      ∀ p ∈ splitBatch value batch maxSize,
        p.messages ≠ [] ∧ Piece value batch.priority maxSize p := by
  have hstart : Split value batch.priority maxSize []
      ([], ({ priority := batch.priority } : BatchedMessageGroup S)) :=
    ⟨rfl, by simp, ⟨rfl, rfl, .inr (Nat.zero_le 1)⟩⟩
  have hend := split_foldl batch.messages hstart
  rw [List.nil_append] at hend
  exact hend.flush

theorem foldl_merge (batches : List (BatchedMessageGroup S)) (merged : BatchedMessageGroup S) :
    let whole := batches.foldl (fun merged batch =>
      { messages := merged.messages ++ batch.messages
        totalSize := merged.totalSize + batch.totalSize
        priority := max merged.priority batch.priority }) merged
    whole.messages = merged.messages ++ batches.flatMap BatchedMessageGroup.messages ∧
      whole.totalSize = merged.totalSize + (batches.map BatchedMessageGroup.totalSize).sum := by
  induction batches generalizing merged with
  | nil => simp
  | cons batch batches ih => simp [ih, add_assoc]

theorem sum_totalSize {batches : List (BatchedMessageGroup S)}
    (h : ∀ p ∈ batches, p.totalSize = sizes p.messages) :
    (batches.map BatchedMessageGroup.totalSize).sum =
      sizes (batches.flatMap BatchedMessageGroup.messages) := by
  induction batches with
  | nil => rfl
  | cons p batches ih =>
    have hrest := ih fun q hq => h q (List.mem_cons_of_mem _ hq)
    simp [hrest, h p (List.mem_cons_self ..), sizes]

theorem splitBatch_merges (value : S → ℕ) (batch : BatchedMessageGroup S) (maxSize : ℕ) :
    let pieces := splitBatch value batch maxSize
    pieces.flatMap BatchedMessageGroup.messages = batch.messages ∧
      (∀ p ∈ pieces, p.messages ≠ [] ∧ p.totalSize = sizes p.messages ∧
        p.priority = batch.priority ∧ (value p.totalSize ≤ maxSize ∨ p.messages.length = 1)) ∧
      (mergeBatches pieces).messages = batch.messages ∧
      (mergeBatches pieces).totalSize = sizes batch.messages := by
  obtain ⟨hmessages, hpieces⟩ := splitBatch_pieces value batch maxSize
  obtain ⟨hmerged, htotal⟩ := foldl_merge (splitBatch value batch maxSize) {}
  refine ⟨hmessages, fun p hp => ?_, ?_, ?_⟩
  · obtain ⟨hne, hpiece⟩ := hpieces p hp
    refine ⟨hne, hpiece.total, hpiece.priority, hpiece.fits.imp_right fun hle => ?_⟩
    exact hle.antisymm (List.length_pos_iff.mpr hne)
  · rw [mergeBatches, hmerged, hmessages]
    rfl
  · rw [mergeBatches, htotal, sum_totalSize fun p hp => (hpieces p hp).2.total, hmessages]
    exact zero_add _

def Optimized (batch optimized : BatchedMessageGroup S) : Prop :=
  optimized.messages.Pairwise (fun a b => ¬ same a b) ∧
    (∀ msg ∈ batch.messages, ∃ kept ∈ optimized.messages, same msg kept) ∧
    optimized.totalSize = sizes optimized.messages

theorem optimizeBatch_keeps (std : StdSort (BatchedMessage S) rank) (batch : BatchedMessageGroup S) :
    ∀ msg ∈ batch.messages, ∃ kept ∈ (optimizeBatch std batch).messages, same msg kept := by
  intro msg hmsg
  have hsorted : msg ∈ std.sort batch.messages := (std.perm batch.messages).mem_iff.mpr hmsg
  exact Neighbours.exists_mem_unique same_equivalence hsorted

theorem optimizeBatch_totalSize (std : StdSort (BatchedMessage S) rank)
    (batch : BatchedMessageGroup S) :
    (optimizeBatch std batch).totalSize = sizes (optimizeBatch std batch).messages := by
  show List.foldl _ 0 _ = _
  rw [foldl_size, zero_add]
  rfl

theorem optimized_iff_convex (batch : BatchedMessageGroup S) :
    (∀ std, Optimized batch (optimizeBatch std batch)) ↔ Convex same rank batch.messages := by
  rw [← Neighbours.forall_sort_pairwise_unique_iff same_equivalence]
  refine forall_congr' fun std => ⟨fun h => h.1, fun h => ⟨h, ?_, ?_⟩⟩
  · exact optimizeBatch_keeps std batch
  · exact optimizeBatch_totalSize std batch

theorem not_optimized_repeated :
    ¬ ∀ (batch : BatchedMessageGroup ℕ) (std : StdSort (BatchedMessage ℕ) rank),
      Optimized batch (optimizeBatch std batch) := by
  intro h
  have hrepeated := (h ⟨[⟨1, 1, 2, [7]⟩, ⟨2, 1, 1, [8]⟩, ⟨1, 1, 0, [7]⟩], 3, 2⟩ (.insertion rank)).1
  revert hrepeated
  decide +kernel

end WitcherMP.Batching.SmartBatchingImpl
