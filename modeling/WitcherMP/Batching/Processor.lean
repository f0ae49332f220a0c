import WitcherMP.Batching.Defs
import WitcherMP.Lib.Firsts
import WitcherMP.Lib.Word32
import WitcherMP.Protocol.Records

/-! The processor of batches: messages as bytes behind a count, and back, and what it leaves out
of a batch. -/

namespace WitcherMP.Batching

open Messages
open Protocol.OptimizedNetworkProtocol (record readWord readRecord)

structure BatchProcessor where
  initialized : Bool := false
  compressionEnabled : Bool := true
  deduplicationEnabled : Bool := true
  optimizationEnabled : Bool := true

namespace BatchProcessor
variable [Inhabited MessageTypes]

def serializeMessages (messages : List (PrioritizedMessage MessageTypes)) : List UInt8 :=
  Bytes.le32 messages.length ++ messages.flatMap record

def deserializeRounds : ℕ → List UInt8 → ℕ → Traced (List (PrioritizedMessage MessageTypes))
  | 0, _, _ => return []
  | rounds + 1, data, offset => do
    match ← readRecord data offset with
    | none => return []
    | some (message, offset) => do
      let messages ← deserializeRounds rounds data offset
      return message :: messages

def deserializeMessages (data : List UInt8) : Traced (List (PrioritizedMessage MessageTypes)) :=
  if data.length < 4 then return []
  else do
    let messageCount ← readWord data 0
    deserializeRounds messageCount.toNat data 4

def deduplicateStep (kept : List (PrioritizedMessage MessageTypes) ×
      OrdMap UInt32 (PrioritizedMessage MessageTypes)) (message : PrioritizedMessage MessageTypes) :
    List (PrioritizedMessage MessageTypes) × OrdMap UInt32 (PrioritizedMessage MessageTypes) :=
  if (kept.2.find? message.messageId).isNone then
    (kept.1 ++ [message], kept.2.insert message.messageId message)
  else kept

def deduplicateMessages (p : BatchProcessor) (messages : List (PrioritizedMessage MessageTypes)) :
    List (PrioritizedMessage MessageTypes) :=
  if ¬ p.deduplicationEnabled then messages
  else (messages.foldl deduplicateStep ([], .empty)).1

def areMessagesSimilar (a b : PrioritizedMessage MessageTypes) : Bool :=
  a.type = b.type && a.data.length = b.data.length && a.data.isPrefixOf b.data

def mergeSimilarMessages (a _b : PrioritizedMessage MessageTypes) :
    PrioritizedMessage MessageTypes := a

def mergeInto (message : PrioritizedMessage MessageTypes) :
    List (PrioritizedMessage MessageTypes) → Option (List (PrioritizedMessage MessageTypes))
  | [] => none
  | c :: cs =>
    if areMessagesSimilar message c then some (mergeSimilarMessages c message :: cs)
    else (mergeInto message cs).map (c :: ·)

def compressSimilarMessages (p : BatchProcessor)
    (messages : List (PrioritizedMessage MessageTypes)) : List (PrioritizedMessage MessageTypes) :=
  if ¬ p.optimizationEnabled then messages
  else messages.foldl (fun compressed message =>
    (mergeInto message compressed).getD (compressed ++ [message])) []

def kind (message : PrioritizedMessage MessageTypes) : MessageTypes × List UInt8 :=
  (message.type, message.data)

theorem areMessagesSimilar_iff (a b : PrioritizedMessage MessageTypes) :
    areMessagesSimilar a b = true ↔ kind a = kind b := by
  simp only [areMessagesSimilar, kind, Bool.and_eq_true, decide_eq_true_eq, List.isPrefixOf_iff_prefix,
    Prod.mk.injEq, and_assoc]
  refine and_congr_right fun _ => ⟨fun h => h.2.eq_of_length h.1, fun h => ?_⟩
  rw [h]
  exact ⟨rfl, List.prefix_rfl⟩

theorem mergeInto_eq (message : PrioritizedMessage MessageTypes)
    (cs : List (PrioritizedMessage MessageTypes)) :
    mergeInto message cs = if kind message ∈ cs.map kind then some cs else none := by
  induction cs with
  | nil => rfl
  | cons c cs ih =>
    rw [mergeInto, ih]
    simp only [List.map_cons, List.mem_cons]
    by_cases hsame : kind message = kind c
    · rw [if_pos ((areMessagesSimilar_iff _ _).mpr hsame), if_pos (Or.inl hsame)]
      rfl
    · rw [if_neg (mt (areMessagesSimilar_iff _ _).mp hsame)]
      simp only [hsame, false_or]
      split <;> rfl

theorem compressSimilarMessages_eq {p : BatchProcessor} (h : p.optimizationEnabled = true)
    (messages : List (PrioritizedMessage MessageTypes)) :
    p.compressSimilarMessages messages = firsts kind messages := by
  rw [compressSimilarMessages, if_neg (not_not.mpr h)]
  induction messages using List.reverseRecOn with
  | nil => rfl
  | append_singleton messages message ih =>
    rw [List.foldl_concat, ih, mergeInto_eq, Firsts.firsts_concat]
    simp only [Firsts.mem_map_firsts]
    split
    · rw [List.append_nil]
      rfl
    · rfl

theorem deduplicateRounds_spec (messages : List (PrioritizedMessage MessageTypes)) :
    (messages.foldl deduplicateStep ([], .empty)).1 = firsts PrioritizedMessage.messageId messages ∧
      ∀ k, ((messages.foldl deduplicateStep ([], .empty)).2.find? k).isNone ↔
        k ∉ messages.map PrioritizedMessage.messageId := by
  induction messages using List.reverseRecOn with
  | nil => exact ⟨rfl, fun k => ⟨fun _ => List.not_mem_nil, fun _ => rfl⟩⟩
  | append_singleton messages message ih =>
    obtain ⟨hkept, hmap⟩ := ih
    rw [List.foldl_concat, deduplicateStep, Firsts.firsts_concat]
    simp only [hmap, List.map_append, List.map_singleton, List.mem_append, List.mem_singleton]
    split
    · next hnew =>
      refine ⟨congrArg (· ++ [message]) hkept, fun k => ?_⟩
      dsimp only
      rw [OrdMap.find?_insert]
      split
      · next heq => simp [heq]
      · next hne => rw [hmap]; simp [Ne.symm hne]
    · next hold =>
      rw [not_not] at hold
      refine ⟨by rw [hkept, if_pos hold, List.append_nil], fun k => ?_⟩
      rw [hmap]
      constructor
      · rintro hk (hm | rfl)
        · exact hk hm
        · exact hk hold
      · exact fun hk hm => hk (Or.inl hm)

theorem deduplicateMessages_eq {p : BatchProcessor} (h : p.deduplicationEnabled = true)
    (messages : List (PrioritizedMessage MessageTypes)) :
    p.deduplicateMessages messages = firsts PrioritizedMessage.messageId messages := by
  rw [deduplicateMessages, if_neg (not_not.mpr h)]
  exact (deduplicateRounds_spec messages).1

/-- With both enabled, each keeps exactly the first messages of their kind, or of their id; once
more changes nothing, and no kind or id is left twice. -/
theorem firsts_kept {p : BatchProcessor} (hoptimization : p.optimizationEnabled = true)
    (hdeduplication : p.deduplicationEnabled = true)
    (messages : List (PrioritizedMessage MessageTypes)) :
    (p.compressSimilarMessages messages = firsts kind messages ∧
      p.compressSimilarMessages (p.compressSimilarMessages messages) =
        p.compressSimilarMessages messages ∧
      (p.compressSimilarMessages messages).Pairwise fun a b => areMessagesSimilar a b = false) ∧
    (p.deduplicateMessages messages = firsts PrioritizedMessage.messageId messages ∧
      p.deduplicateMessages (p.deduplicateMessages messages) = p.deduplicateMessages messages ∧
      (p.deduplicateMessages messages).Pairwise fun a b => a.messageId ≠ b.messageId) := by
  simp only [compressSimilarMessages_eq hoptimization, deduplicateMessages_eq hdeduplication,
    Firsts.firsts_firsts, true_and]
  constructor
  · apply (List.pairwise_map.mp (Firsts.nodup_firsts kind messages)).imp
    intro a b hne
    exact Bool.eq_false_of_not_eq_true (mt (areMessagesSimilar_iff a b).mp hne)
  · exact List.pairwise_map.mp (Firsts.nodup_firsts PrioritizedMessage.messageId messages)

omit [Inhabited MessageTypes] in
theorem firsts_kept_three :
    letI : Inhabited MessageTypes := ⟨.batchMessage⟩
    let p : BatchProcessor := {}
    let messages : List (PrioritizedMessage MessageTypes) :=
      [{ messageId := 1, data := [5] }, { messageId := 2, data := [5] }, { messageId := 1 }]
    (p.compressSimilarMessages messages = firsts kind messages ∧
      p.compressSimilarMessages (p.compressSimilarMessages messages) =
        p.compressSimilarMessages messages ∧
      (p.compressSimilarMessages messages).Pairwise fun a b => areMessagesSimilar a b = false) ∧
    (p.deduplicateMessages messages = firsts PrioritizedMessage.messageId messages ∧
      p.deduplicateMessages (p.deduplicateMessages messages) = p.deduplicateMessages messages ∧
      (p.deduplicateMessages messages).Pairwise fun a b => a.messageId ≠ b.messageId) :=
  letI : Inhabited MessageTypes := ⟨.batchMessage⟩
  firsts_kept rfl rfl _

section Bytes
open Protocol.OptimizedNetworkProtocol hiding serializeMessages

theorem toOption_deserializeRounds (rounds : ℕ) (data : List UInt8) (offset : ℕ) :
    (deserializeRounds rounds data offset).toOption =
      some (extractLoop rounds (data.drop offset)) := by
  induction rounds generalizing offset with
  | zero => exact Traced.toOption_pure []
  | succ rounds ih =>
    rw [deserializeRounds, Traced.toOption_bind, toOption_readRecord, Option.bind_some]
    cases hfirst : firstRecord (data.drop offset) with
    | none =>
      rw [extractLoop_of_none hfirst]
      exact Traced.toOption_pure []
    | some p =>
      rw [Option.map_some, extractLoop_of_some hfirst]
      dsimp only
      rw [Traced.toOption_bind, ih, drop_of_firstRecord hfirst]
      rfl

theorem toOption_deserializeMessages (data : List UInt8) :
    (deserializeMessages data).toOption =
      some (extractLoop (Bytes.readLE32 data) (data.drop 4)) := by
  rw [deserializeMessages]
  split
  · next hshort =>
    have hnone : firstRecord (data.drop 4) = none := by
      refine if_neg fun h => ?_
      rw [List.length_drop] at h
      omega
    rw [extractLoop_of_none hnone]
    exact Traced.toOption_pure []
  · next hcount =>
    rw [Traced.toOption_bind, toOption_readWord (by omega), Option.bind_some, List.drop_zero,
      UInt32.toNat_ofNat_of_lt' (Bytes.readLE32_lt _)]
    exact toOption_deserializeRounds _ data 4

theorem deserialize_serialize {messages : List (PrioritizedMessage MessageTypes)}
    (hcount : messages.length < 2 ^ 32) (hsize : ∀ m ∈ messages, m.data.length < 2 ^ 32) :
    (deserializeMessages (serializeMessages messages)).value.map content = messages.map content := by
  obtain ⟨-, hvalue⟩ := Traced.toOption_eq_some_iff.mp
    (toOption_deserializeMessages (serializeMessages messages))
  have hread := extractLoop_append hsize 0 []
  rw [Nat.add_zero, List.append_nil] at hread
  rw [hvalue, serializeMessages, Bytes.readLE32_le32, Nat.mod_eq_of_lt hcount,
    List.drop_left' (Bytes.length_le32 _)]
  exact hread.trans (List.append_nil _)

theorem bounds_of_deserialize {messages : List (PrioritizedMessage MessageTypes)}
    (h : (deserializeMessages (serializeMessages messages)).value.map content =
      messages.map content) :
    messages.length < 2 ^ 32 ∧ ∀ m ∈ messages, m.data.length < 2 ^ 32 := by
  obtain ⟨-, hvalue⟩ := Traced.toOption_eq_some_iff.mp
    (toOption_deserializeMessages (serializeMessages messages))
  rw [hvalue] at h
  constructor
  · have hlen := congrArg List.length h
    rw [List.length_map, List.length_map] at hlen
    rw [← hlen]
    exact (length_extractLoop_le _ _).trans_lt (Bytes.readLE32_lt _)
  · intro m hm
    have hcontent : content m ∈ messages.map content := List.mem_map_of_mem hm
    rw [← h] at hcontent
    obtain ⟨n, hn, heq⟩ := List.mem_map.mp hcontent
    have hdata : n.data = m.data := congrArg (fun c => c.2.2) heq
    rw [← hdata]
    exact length_data_extractLoop hn

/-- Messages come back as they were exactly if their number and all their sizes fit 32 bits. From
any bytes, nothing outside is read, no more messages come than announced, and their records stand
behind the count. -/
theorem deserializeMessages_spec :
    (∀ messages : List (PrioritizedMessage MessageTypes),
      (deserializeMessages (serializeMessages messages)).value.map content = messages.map content ↔
        messages.length < 2 ^ 32 ∧ ∀ m ∈ messages, m.data.length < 2 ^ 32) ∧
    ∀ data : List UInt8,
      (deserializeMessages data).Safe ∧
      (deserializeMessages data).value.length ≤ Bytes.readLE32 data ∧
      (deserializeMessages data).value.flatMap record <+: data.drop 4 := by
  refine ⟨fun messages => ⟨bounds_of_deserialize, fun h => deserialize_serialize h.1 h.2⟩,
    fun data => ?_⟩
  obtain ⟨hsafe, hvalue⟩ := Traced.toOption_eq_some_iff.mp (toOption_deserializeMessages data)
  rw [hvalue]
  exact ⟨hsafe, length_extractLoop_le _ _, serializeMessages_extractLoop _ _⟩

omit [Inhabited MessageTypes] in
theorem not_deserialize_serialize_large :
    ¬ ∀ (_ : Inhabited MessageTypes) (messages : List (PrioritizedMessage MessageTypes)),
      (deserializeMessages (serializeMessages messages)).value.map content =
        messages.map content := by
  intro h
  obtain ⟨zeros, hzeros⟩ : ∃ zeros : List UInt8, zeros.length = 2 ^ 32 :=
    ⟨List.replicate (2 ^ 32) 0, List.length_replicate⟩
  have hlarge := h ⟨.batchMessage⟩ [@PrioritizedMessage.mk MessageTypes ⟨.batchMessage⟩ 7 ⟨40⟩ zeros
    {} 0 0 0]
  have hsize := (@bounds_of_deserialize ⟨.batchMessage⟩ _ hlarge).2 _ (List.mem_singleton_self _)
  exact hsize.ne hzeros

end Bytes

end BatchProcessor
end WitcherMP.Batching
