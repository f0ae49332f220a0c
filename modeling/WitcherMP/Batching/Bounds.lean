import WitcherMP.Batching.Ledger
import WitcherMP.Compression.RoundTrip
import WitcherMP.Lib.Pointwise

/-! How large the batches get that are put behind the ready ones. Only the strategies that gather
by size look at the limits; by interval, by priority and in a flush everything goes that waits. -/

namespace WitcherMP.Batching

open Compression Messages

section Bounds
variable [Inhabited MessageTypes]

/-- Not more messages than the configuration allows, and not more bytes, unless there is but one
message. -/
def BatchConfig.Allows (config : BatchConfig) (batch : BatchedMessage) : Prop :=
  batch.messages.length ≤ config.maxMessages ∧
    (1 < batch.messages.length → batch.totalSize ≤ config.maxSize)

def sizeOf (messages : List (PrioritizedMessage MessageTypes)) : ℕ :=
  (messages.map fun m => m.data.length).sum

theorem takeFitting_within (maxSize maxMessages currentSize count : ℕ)
    (ms : List (PrioritizedMessage MessageTypes)) :
    let taken := (takeFitting maxSize maxMessages currentSize count ms).1
    taken ≠ [] → currentSize + sizeOf taken ≤ maxSize ∧ count + taken.length ≤ maxMessages := by
  induction ms generalizing currentSize count with
  | nil => exact fun h => absurd rfl h
  | cons m ms ih =>
    rw [takeFitting]
    split
    · next hfits =>
      intro taken _
      have hrest := ih (currentSize + m.data.length) (count + 1)
      dsimp only [taken]
      rw [sizeOf, List.map_cons, List.sum_cons, ← sizeOf, List.length_cons]
      by_cases hnil : (takeFitting maxSize maxMessages (currentSize + m.data.length) (count + 1)
          ms).1 = []
      · rw [hnil]
        exact ⟨hfits.1, hfits.2⟩
      · obtain ⟨hsize, hcount⟩ := hrest hnil
        exact ⟨by omega, by omega⟩
    · exact fun h => absurd rfl h

namespace SmartBatching

def GathersBySize (b : SmartBatching) : Op → Prop
  | .addMessage _ => b.config.type = .size ∨ b.config.type = .mixed
  | .processBatches _ => b.config.type = .size ∨ b.config.type = .mixed
  | _ => False

def nonempty (messages : List (PrioritizedMessage MessageTypes)) :
    List (List (PrioritizedMessage MessageTypes)) :=
  if messages = [] then [] else [messages]

def gathered (b : SmartBatching) : List (List (PrioritizedMessage MessageTypes)) :=
  let fitting := (takeFitting b.config.maxSize b.config.maxMessages 0 0 b.pendingMessages).1
  match b.config.type with
  | .interval => if b.accumulatedTime ≥ b.currentInterval then nonempty b.pendingMessages else []
  | .size => nonempty fitting
  | .priority => (groupByPriority b.pendingMessages).filter fun group => group ≠ []
  | .mixed =>
    if b.accumulatedTime ≥ b.currentInterval ∨ reachesSize b.pendingMessages b.config.maxSize then
      nonempty fitting
    else []

section Clock
variable (dc : DataCompression) (clock : ℕ → ℚ)

def strategy (b : SmartBatching) (deltaTime : ℚ) : SmartBatching :=
  let b := { b with accumulatedTime := b.accumulatedTime + deltaTime }
  match b.config.type with
  | .interval => processIntervalBatching dc clock b
  | .size => processSizeBatching dc clock b
  | .priority => processPriorityBatching dc clock b
  | .mixed => processMixedBatching dc clock b

theorem processBatches_eq (b : SmartBatching) (deltaTime : ℚ) :
    processBatches dc clock b deltaTime =
      if ¬ b.initialized ∨ b.pendingMessages = [] then (b, [])
      else cleanupExpiredBatches clock (strategy dc clock b deltaTime) := by
  rfl

def Holds (config : BatchConfig) (ms : List (PrioritizedMessage MessageTypes))
    (batch : BatchedMessage) : Prop :=
  if config.enableCompression = true ∧ dc.Saves .lz4 (batchData ms) then
    batch.isCompressed = true ∧ batch.messages.length = 1
  else batch.isCompressed = false ∧ batch.messages = ms ∧ batch.totalSize = sizeOf ms

theorem createBatch_holds (b : SmartBatching) (ms : List (PrioritizedMessage MessageTypes)) :
    Holds dc b.config ms (createBatch dc clock b ms).1 := by
  rw [createBatch, Holds]
  dsimp only
  cases hon : b.config.enableCompression with
  | false =>
    rw [if_neg (fun h => Bool.false_ne_true h.1), if_neg Bool.false_ne_true]
    exact ⟨rfl, rfl, rfl⟩
  | true =>
    rw [if_pos rfl, compressBatch]
    dsimp only
    have hlt : (dc.compress (batchData ms) .lz4 .balanced).length < (batchData ms).length ↔
        dc.Saves .lz4 (batchData ms) := DataCompression.length_compress_lt_iff .balanced
    by_cases hsaves : dc.Saves .lz4 (batchData ms)
    · rw [if_pos ⟨rfl, hsaves⟩, if_pos (hlt.mpr hsaves)]
      exact ⟨rfl, rfl⟩
    · rw [if_neg fun h => hsaves h.2, if_neg fun h => hsaves (hlt.mp h)]
      exact ⟨rfl, rfl, rfl⟩

def Placed (b : SmartBatching) (lists : List (List (PrioritizedMessage MessageTypes)))
    (b' : SmartBatching) : Prop :=
  ∃ batches, b'.readyBatches = b.readyBatches ++ batches ∧
    List.Forall₂ (Holds dc b.config) lists batches

variable {dc}

theorem Placed.none {b b' : SmartBatching} (h : b'.readyBatches = b.readyBatches) :
    Placed dc b [] b' := ⟨[], by rw [h, List.append_nil], .nil⟩

theorem placed_pushBatch (b : SmartBatching) (ms : List (PrioritizedMessage MessageTypes)) :
    Placed dc b [ms] (pushBatch dc clock b ms) :=
  ⟨_, rfl, .cons (createBatch_holds dc clock b ms) .nil⟩

theorem placed_pushGroups (groups : List (List (PrioritizedMessage MessageTypes)))
    (b : SmartBatching) :
    Placed dc b (groups.filter fun group => group ≠ [])
      (groups.foldl (fun b group => if group = [] then b else pushBatch dc clock b group) b) := by
  induction groups generalizing b with
  | nil => exact .none rfl
  | cons group groups ih =>
    rw [List.foldl_cons]
    by_cases hnil : group = []
    · rw [if_pos hnil, List.filter_cons_of_neg (by simpa using hnil)]
      exact ih b
    · rw [if_neg hnil, List.filter_cons_of_pos (by simpa using hnil)]
      obtain ⟨batches, hready, hholds⟩ := ih (pushBatch dc clock b group)
      refine ⟨_ :: batches, ?_, .cons (createBatch_holds dc clock b group) hholds⟩
      rw [hready, pushBatch, List.append_assoc]
      rfl

theorem placed_processSizeBatching (b : SmartBatching) :
    Placed dc b
      (nonempty (takeFitting b.config.maxSize b.config.maxMessages 0 0 b.pendingMessages).1)
      (processSizeBatching dc clock b) := by
  rw [processSizeBatching, nonempty]
  split
  · exact .none rfl
  · exact placed_pushBatch clock _ _

theorem placed_strategy (b : SmartBatching) (deltaTime : ℚ) :
    Placed dc b (gathered { b with accumulatedTime := b.accumulatedTime + deltaTime })
      (strategy dc clock b deltaTime) := by
  rw [strategy, gathered]
  dsimp only
  split
  · rw [processIntervalBatching]
    dsimp only
    split
    · rw [nonempty]
      split
      · exact .none rfl
      · exact placed_pushBatch clock _ _
    · exact .none rfl
  · exact placed_processSizeBatching clock _
  · rw [processPriorityBatching]
    dsimp only
    split
    · next hnil =>
      rw [hnil]
      exact .none rfl
    · exact placed_pushGroups clock _ _
  · rw [processMixedBatching]
    dsimp only
    split
    · exact placed_processSizeBatching clock _
    · exact .none rfl

def reached (b : SmartBatching) : Op → Option (SmartBatching × ℚ)
  | .addMessage message =>
    let b := { b with pendingMessages := b.pendingMessages ++ [message] }
    if b.initialized ∧ shouldCreateBatch b then some (b, 0) else none
  | .processBatches deltaTime =>
    if ¬ b.initialized ∨ b.pendingMessages = [] then none else some (b, deltaTime)
  | _ => none

def gatheredBy (b : SmartBatching) : Op → List (List (PrioritizedMessage MessageTypes))
  | .forceFlush => if b.initialized then nonempty b.pendingMessages else []
  | .shutdown => if b.initialized then nonempty b.pendingMessages else []
  | op => (reached b op).elim [] fun r =>
    gathered { r.1 with accumulatedTime := r.1.accumulatedTime + r.2 }

variable (dc) in
def placing (b : SmartBatching) : Op → SmartBatching
  | .forceFlush => forceFlush dc clock b
  | .shutdown => forceFlush dc clock b
  | op => (reached b op).elim b fun r => strategy dc clock r.1 r.2

variable (dc) in
def placedBy (b : SmartBatching) (op : Op) : List BatchedMessage :=
  (placing dc clock b op).readyBatches.drop b.readyBatches.length

theorem reached_eq {b b' : SmartBatching} {op : Op} {deltaTime : ℚ}
    (h : reached b op = some (b', deltaTime)) :
    b'.readyBatches = b.readyBatches ∧ b'.config = b.config := by
  cases op with
  | addMessage message =>
    rw [reached] at h
    dsimp only at h
    split at h
    · obtain rfl := congrArg Prod.fst (Option.some.inj h)
      exact ⟨rfl, rfl⟩
    · cases h
  | processBatches deltaTime =>
    rw [reached] at h
    split at h
    · cases h
    · obtain rfl := congrArg Prod.fst (Option.some.inj h)
      exact ⟨rfl, rfl⟩
  | _ => cases h

theorem placed_due (b : SmartBatching) (op : Op) :
    Placed dc b
      ((reached b op).elim [] fun r =>
        gathered { r.1 with accumulatedTime := r.1.accumulatedTime + r.2 })
      ((reached b op).elim b fun r => strategy dc clock r.1 r.2) := by
  cases hreached : reached b op with
  | none => exact .none rfl
  | some r =>
    obtain ⟨hready, hconfig⟩ := reached_eq hreached
    obtain ⟨batches, hplaced, hholds⟩ := placed_strategy clock r.1 r.2
    exact ⟨batches, hready ▸ hplaced, hconfig ▸ hholds⟩

theorem placed_forceFlush (b : SmartBatching) :
    Placed dc b (if b.initialized then nonempty b.pendingMessages else [])
      (forceFlush dc clock b) := by
  rw [forceFlush]
  by_cases hacts : ¬ b.initialized = true ∨ b.pendingMessages = []
  · have hnone : (if b.initialized then nonempty b.pendingMessages else []) = [] := by
      rcases hacts with h | h <;> simp [h, nonempty]
    rw [if_pos hacts, hnone]
    exact .none rfl
  · rw [if_neg hacts]
    rw [not_or, not_not] at hacts
    rw [if_pos hacts.1, nonempty, if_neg hacts.2]
    exact placed_pushBatch clock b b.pendingMessages

theorem placed_placing (b : SmartBatching) (op : Op) :
    Placed dc b (gatheredBy b op) (placing dc clock b op) := by
  cases op with
  | forceFlush => exact placed_forceFlush clock b
  | shutdown => exact placed_forceFlush clock b
  | _ => exact placed_due clock b _

theorem placedBy_holds (b : SmartBatching) (op : Op) :
    List.Forall₂ (Holds dc b.config) (gatheredBy b op) (placedBy dc clock b op) := by
  obtain ⟨batches, hready, hholds⟩ := placed_placing clock b op
  rwa [placedBy, hready, List.drop_left]

theorem mem_cleanup {b : SmartBatching} {batch : BatchedMessage}
    (h : batch ∈ (cleanupExpiredBatches clock b).1.readyBatches) : batch ∈ b.readyBatches :=
  (sortOut_perm clock b.config.maxWaitTime b.reads b.readyBatches).subset
    (List.mem_append_right _ h)

theorem mem_processBatches {b : SmartBatching} {deltaTime : ℚ} {batch : BatchedMessage}
    (h : batch ∈ (processBatches dc clock b deltaTime).1.readyBatches) :
    batch ∈ (placing dc clock b (.processBatches deltaTime)).readyBatches := by
  show batch ∈
    ((reached b (.processBatches deltaTime)).elim b fun r => strategy dc clock r.1 r.2).readyBatches
  rw [processBatches_eq] at h
  rw [reached]
  split_ifs at h ⊢ with hidle
  · exact h
  · exact mem_cleanup clock h

theorem mem_addMessage {b : SmartBatching} {message : PrioritizedMessage MessageTypes}
    {batch : BatchedMessage} (h : batch ∈ (addMessage dc clock b message).1.readyBatches) :
    batch ∈ (placing dc clock b (.addMessage message)).readyBatches := by
  show batch ∈
    ((reached b (.addMessage message)).elim b fun r => strategy dc clock r.1 r.2).readyBatches
  rw [addMessage] at h
  rw [reached]
  dsimp only at h ⊢
  by_cases hinit : b.initialized = true
  · rw [if_neg (not_not.mpr hinit)] at h
    split at h
    · next hcreate =>
      rw [if_pos ⟨hinit, hcreate⟩]
      rw [processBatches_eq, if_neg (by simp [hinit])] at h
      exact mem_cleanup clock h
    · next hcreate =>
      rw [if_neg fun hboth => hcreate hboth.2]
      exact h
  · rw [if_pos hinit] at h
    rwa [if_neg fun hboth => hinit hboth.1]

theorem mem_shutdown {b : SmartBatching} {batch : BatchedMessage}
    (h : batch ∈ (shutdown dc clock b).readyBatches) :
    batch ∈ (placing dc clock b .shutdown).readyBatches := by
  rw [shutdown] at h
  split at h
  · next hoff =>
    show batch ∈ (forceFlush dc clock b).readyBatches
    rwa [forceFlush, if_pos (Or.inl hoff)]
  · exact absurd h List.not_mem_nil

theorem mem_readyBatches_step {a : Account} {op : Op} {batch : BatchedMessage}
    (h : batch ∈ (a.step dc clock op).batching.readyBatches) :
    batch ∈ a.batching.readyBatches ∨ batch ∈ placedBy dc clock a.batching op := by
  have hplaced : batch ∈ (placing dc clock a.batching op).readyBatches := by
    cases op with
    | addMessage message => exact mem_addMessage clock h
    | processBatches deltaTime => exact mem_processBatches clock h
    | getReadyBatches => exact absurd h List.not_mem_nil
    | clearBatches => exact absurd h List.not_mem_nil
    | initializeSystem config =>
      simp only [Account.step, initializeSystem] at h
      split_ifs at h <;> exact h
    | shutdown => exact mem_shutdown clock h
    | updateNetworkConditions congestionLevel latency =>
      simp only [Account.step, updateNetworkConditions, adjustBatchingParameters,
        calculateOptimalInterval, adjustIntervalBasedOnLatency,
        adjustIntervalBasedOnCongestion] at h
      split_ifs at h <;> exact h
    | _ => exact h
  obtain ⟨batches, hready, -⟩ := placed_placing clock a.batching op
  rw [placedBy, hready, List.drop_left]
  rwa [hready, List.mem_append] at hplaced

def Fits (config : BatchConfig) (ms : List (PrioritizedMessage MessageTypes)) : Prop :=
  ms.length ≤ config.maxMessages ∧ (1 < ms.length → sizeOf ms ≤ config.maxSize)

def Merges (dc : DataCompression) (config : BatchConfig)
    (ms : List (PrioritizedMessage MessageTypes)) : Prop :=
  config.enableCompression = true ∧ dc.Saves .lz4 (batchData ms) ∧ 1 ≤ config.maxMessages

theorem ne_nil_of_saves {ms : List (PrioritizedMessage MessageTypes)}
    (h : dc.Saves .lz4 (batchData ms)) : ms ≠ [] := by
  rintro rfl
  exact absurd h.2.2 (Nat.not_lt_zero _)

theorem Holds.allows_iff {config : BatchConfig} {ms : List (PrioritizedMessage MessageTypes)}
    {batch : BatchedMessage} (h : Holds dc config ms batch) :
    config.Allows batch ↔ Fits config ms ∨ Merges dc config ms := by
  rw [Holds] at h
  split_ifs at h with hsaves
  · rw [BatchConfig.Allows, h.2]
    constructor
    · exact fun hallows => Or.inr ⟨hsaves.1, hsaves.2, hallows.1⟩
    · rintro (hfits | hmerges)
      · have hpos := List.length_pos_iff.mpr (ne_nil_of_saves hsaves.2)
        exact ⟨hpos.trans_le hfits.1, fun hlt => absurd hlt (lt_irrefl 1)⟩
      · exact ⟨hmerges.2.2, fun hlt => absurd hlt (lt_irrefl 1)⟩
  · rw [BatchConfig.Allows, h.2.1, h.2.2]
    exact (or_iff_left fun hmerges => hsaves ⟨hmerges.1, hmerges.2.1⟩).symm

theorem mem_nonempty {ms ns : List (PrioritizedMessage MessageTypes)} (h : ns ∈ nonempty ms) :
    ns = ms ∧ ms ≠ [] := by
  rw [nonempty] at h
  split at h
  · exact absurd h List.not_mem_nil
  · next hne => exact ⟨List.mem_singleton.mp h, hne⟩

theorem fits_of_gathersBySize {b : SmartBatching} {op : Op} (h : GathersBySize b op)
    {ms : List (PrioritizedMessage MessageTypes)} (hms : ms ∈ gatheredBy b op) :
    Fits b.config ms := by
  have hfitting : ∀ b' : SmartBatching, b'.config = b.config →
      ms ∈ nonempty (takeFitting b'.config.maxSize b'.config.maxMessages 0 0 b'.pendingMessages).1 →
      Fits b.config ms := by
    intro b' hconfig hmem
    obtain ⟨rfl, hne⟩ := mem_nonempty hmem
    obtain ⟨hsize, hcount⟩ := takeFitting_within _ _ _ _ _ hne
    rw [hconfig] at hsize hcount ⊢
    exact ⟨by omega, fun _ => by omega⟩
  have hreached : (b.config.type = .size ∨ b.config.type = .mixed) →
      ms ∈ ((reached b op).elim [] fun r =>
        gathered { r.1 with accumulatedTime := r.1.accumulatedTime + r.2 }) → Fits b.config ms := by
    intro htype hmem
    cases hreached : reached b op with
    | none =>
      rw [hreached] at hmem
      exact absurd hmem List.not_mem_nil
    | some r =>
      obtain ⟨-, hconfig⟩ := reached_eq hreached
      rw [hreached, Option.elim_some, gathered, hconfig] at hmem
      refine hfitting r.1 hconfig ?_
      rcases htype with htype | htype
      · rw [htype] at hmem
        rwa [hconfig]
      · rw [htype] at hmem
        dsimp only at hmem
        split at hmem
        · rwa [hconfig]
        · exact absurd hmem List.not_mem_nil
  cases op with
  | addMessage message => exact hreached h hms
  | processBatches deltaTime => exact hreached h hms
  | _ => exact h.elim

theorem placedBy_allows_iff (b : SmartBatching) (op : Op) :
    (∀ batch ∈ placedBy dc clock b op, b.config.Allows batch) ↔
      ∀ ms ∈ gatheredBy b op, Fits b.config ms ∨ Merges dc b.config ms :=
  forall_iff_of_forall₂ (placedBy_holds clock b op) fun _ _ h => h.allows_iff

end Clock
end SmartBatching

namespace Account
open SmartBatching

/-- In every run the batches that are gathered by size are within the limits; every other batch
holds all that a flush, an interval or a priority brought together. -/
theorem placed_along (dc : DataCompression) (clock : ℕ → ℚ) (config : BatchConfig) (now : ℚ)
    (ops : List Op) :
    Run.Along (step dc clock) (fun a op => ∀ batch ∈ placedBy dc clock a.batching op,
      (GathersBySize a.batching op → a.batching.config.Allows batch) ∧
        ∃ ms ∈ gatheredBy a.batching op, Holds dc a.batching.config ms batch)
      (start config now) ops := by
  refine (Run.along_of_step (P := fun _ _ => True) (I := fun _ => True)
    (fun a op _ _ => ⟨trivial, fun batch hbatch => ?_⟩) trivial
    (Run.along_of_forall _ fun _ _ => trivial)).2
  obtain ⟨ms, hms, hholds⟩ := exists_of_forall₂ (placedBy_holds clock a.batching op) hbatch
  exact ⟨fun hsize => hholds.allows_iff.mpr (Or.inl (fits_of_gathersBySize hsize hms)),
    ms, hms, hholds⟩

end Account
end Bounds

namespace Account
open SmartBatching

theorem not_placed_within_interval :
    let _ : Inhabited MessageTypes := ⟨.batchMessage⟩
    ¬ ∀ (config : BatchConfig) (ops : List Op), 1 ≤ config.maxMessages →
      Run.Along (step ⟨true, 64⟩ fun n => n / 1000)
        (fun a op => ∀ batch ∈ placedBy ⟨true, 64⟩ (fun n => n / 1000) a.batching op,
          a.batching.config.Allows batch) (start config 0) ops := by
  intro inst h
  have hinterval := (h { maxSize := 3, enableCompression := false }
    [.addMessage { messageId := 1, data := [1, 2] }, .addMessage { messageId := 2, data := [3, 4] },
      .processBatches 100] (by decide)).2.2.1
  revert hinterval
  unfold BatchConfig.Allows
  decide +kernel

end Account
end WitcherMP.Batching
