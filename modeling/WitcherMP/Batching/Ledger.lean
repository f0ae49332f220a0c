import WitcherMP.Batching.Defs
import WitcherMP.Lib.Run
import Mathlib.Data.Multiset.Bind

/-! Every message added to the batching comes out exactly once or is still waiting; and in the
order it was added, as long as nothing is grouped by priority. -/

namespace WitcherMP.Batching

open Compression Messages

section Parts
variable {T : Type} [Inhabited T]

theorem takeFitting_append (maxSize maxMessages currentSize count : ℕ)
    (ms : List (PrioritizedMessage T)) :
    (takeFitting maxSize maxMessages currentSize count ms).1 ++
      (takeFitting maxSize maxMessages currentSize count ms).2 = ms := by
  induction ms generalizing currentSize count with
  | nil => rfl
  | cons m ms ih =>
    rw [takeFitting]
    split
    · rw [List.cons_append, ih]
    · rfl

def grouped (groups : OrdMap ℕ (List (PrioritizedMessage T))) : Multiset (PrioritizedMessage T) :=
  groups.sumOver fun (_ : ℕ) (group : List (PrioritizedMessage T)) => (group : Multiset _)

theorem grouped_insert (groups : OrdMap ℕ (List (PrioritizedMessage T))) (k : ℕ)
    (m : PrioritizedMessage T) :
    grouped (groups.insert k (groups.getD k [] ++ [m])) = grouped groups + {m} := by
  have hinsert := OrdMap.sumOver_insert
    (fun (_ : ℕ) (group : List (PrioritizedMessage T)) => (group : Multiset (PrioritizedMessage T)))
    groups k (groups.getD k [] ++ [m])
  rw [← Multiset.coe_add, Multiset.coe_singleton, OrdMap.getD] at hinsert
  rw [grouped, grouped, OrdMap.getD]
  cases hfind : groups.find? k with
  | none =>
    rw [hfind] at hinsert
    simpa only [Option.elim_none, Option.getD_none, Multiset.coe_nil, zero_add, add_zero] using hinsert
  | some group =>
    rw [hfind, Option.elim_some, Option.getD_some, add_comm (group : Multiset _) {m},
      ← add_assoc] at hinsert
    exact add_right_cancel hinsert

theorem groupByPriority_perm (ms : List (PrioritizedMessage T)) :
    (groupByPriority ms).flatten.Perm ms := by
  have key : ∀ (ms : List (PrioritizedMessage T)) (groups : OrdMap ℕ (List (PrioritizedMessage T))),
      grouped (ms.foldl (fun groups m =>
        let priority := m.classification.priority.value
        groups.insert priority (groups.getD priority [] ++ [m])) groups) = grouped groups + ↑ms := by
    intro ms
    induction ms with
    | nil => exact fun groups => (add_zero _).symm
    | cons m ms ih =>
      intro groups
      rw [List.foldl_cons, ih, grouped_insert, add_assoc, Multiset.singleton_add, Multiset.cons_coe]
  have hsum := key ms OrdMap.empty
  rw [grouped, grouped, OrdMap.sumOver_empty, zero_add] at hsum
  rw [← Multiset.coe_eq_coe, ← hsum, groupByPriority, ← Multiset.coe_join, Multiset.join,
    Multiset.sum_coe, List.map_map, OrdMap.sumOver]
  rfl

end Parts

section Ledger
variable [Inhabited MessageTypes]

def contents (batches : List BatchedMessage) : List (PrioritizedMessage MessageTypes) :=
  batches.flatMap fun batch => batch.messages

theorem contents_append (as bs : List BatchedMessage) :
    contents (as ++ bs) = contents as ++ contents bs := List.flatMap_append

namespace SmartBatching
variable (dc : DataCompression) (clock : ℕ → ℚ)

def held (b : SmartBatching) : List (PrioritizedMessage MessageTypes) :=
  contents b.readyBatches ++ b.pendingMessages

structure Plain (b : SmartBatching) : Prop where
  initialized : b.initialized = true
  uncompressed : b.config.enableCompression = false

theorem pushBatch_spec {b : SmartBatching} (h : b.Plain)
    (ms : List (PrioritizedMessage MessageTypes)) :
    contents (pushBatch dc clock b ms).readyBatches = contents b.readyBatches ++ ms ∧
      (pushBatch dc clock b ms).pendingMessages = b.pendingMessages ∧
      (pushBatch dc clock b ms).Plain := by
  rw [pushBatch, createBatch, h.uncompressed]
  refine ⟨?_, rfl, h.initialized, h.uncompressed⟩
  refine (contents_append _ _).trans ?_
  simp [contents, updateStatistics]

theorem processIntervalBatching_held {b : SmartBatching} (h : b.Plain) :
    held (processIntervalBatching dc clock b) = held b ∧
      (processIntervalBatching dc clock b).Plain := by
  rw [processIntervalBatching]
  split
  · obtain ⟨hready, -, hplain⟩ := pushBatch_spec dc clock h b.pendingMessages
    split
    · exact ⟨rfl, h.1, h.2⟩
    · refine ⟨?_, hplain.1, hplain.2⟩
      rw [held, held, List.append_nil]
      exact hready
  · exact ⟨rfl, h⟩

theorem processSizeBatching_held {b : SmartBatching} (h : b.Plain) :
    held (processSizeBatching dc clock b) = held b ∧ (processSizeBatching dc clock b).Plain := by
  rw [processSizeBatching]
  have htake := takeFitting_append b.config.maxSize b.config.maxMessages 0 0 b.pendingMessages
  generalize takeFitting b.config.maxSize b.config.maxMessages 0 0 b.pendingMessages = r at htake
  have hplain : ({ b with pendingMessages := r.2 } : SmartBatching).Plain := ⟨h.1, h.2⟩
  split
  · next hnil =>
    rw [hnil, List.nil_append] at htake
    rw [held, held, ← htake]
    exact ⟨rfl, hplain⟩
  · obtain ⟨hready, hpending, hplain'⟩ := pushBatch_spec dc clock hplain r.1
    rw [held, hready, hpending, List.append_assoc, htake]
    exact ⟨rfl, hplain'⟩

theorem processMixedBatching_held {b : SmartBatching} (h : b.Plain) :
    held (processMixedBatching dc clock b) = held b ∧ (processMixedBatching dc clock b).Plain := by
  rw [processMixedBatching]
  split
  · obtain ⟨hheld, hplain⟩ := processSizeBatching_held dc clock h
    exact ⟨hheld, hplain.1, hplain.2⟩
  · exact ⟨rfl, h⟩

theorem pushGroups_spec (groups : List (List (PrioritizedMessage MessageTypes))) {b : SmartBatching}
    (h : b.Plain) :
    let b' := groups.foldl (fun b group => if group = [] then b else pushBatch dc clock b group) b
    contents b'.readyBatches = contents b.readyBatches ++ groups.flatten ∧ b'.Plain := by
  induction groups generalizing b with
  | nil => exact ⟨(List.append_nil _).symm, h⟩
  | cons group groups ih =>
    rw [List.foldl_cons, List.flatten_cons]
    split
    · next hnil =>
      rw [hnil, List.nil_append]
      exact ih h
    · obtain ⟨hready, -, hplain⟩ := pushBatch_spec dc clock h group
      rw [← List.append_assoc, ← hready]
      exact ih hplain

theorem processPriorityBatching_held {b : SmartBatching} (h : b.Plain) :
    (held (processPriorityBatching dc clock b)).Perm (held b) ∧
      (processPriorityBatching dc clock b).Plain := by
  rw [processPriorityBatching]
  split
  · exact ⟨.rfl, h⟩
  · obtain ⟨hready, hplain⟩ := pushGroups_spec dc clock (groupByPriority b.pendingMessages) h
    refine ⟨?_, hplain.1, hplain.2⟩
    rw [held, held, List.append_nil]
    dsimp only
    rw [hready]
    exact (groupByPriority_perm b.pendingMessages).append_left _

theorem sortOut_perm (maxWaitTime : ℚ) (reads : ℕ) (batches : List BatchedMessage) :
    ((sortOut clock maxWaitTime reads batches).2 ++ (sortOut clock maxWaitTime reads batches).1).Perm
      batches := by
  induction batches generalizing reads with
  | nil => exact .rfl
  | cons batch batches ih =>
    rw [sortOut]
    split
    · exact List.perm_middle.trans ((ih (reads + 1)).cons batch)
    · exact (ih (reads + 1)).cons batch

theorem sortOut_eq {maxWaitTime : ℚ} {reads : ℕ} {batches : List BatchedMessage}
    (h : (sortOut clock maxWaitTime reads batches).2 = []) :
    (sortOut clock maxWaitTime reads batches).1 = batches := by
  induction batches generalizing reads with
  | nil => rfl
  | cons batch batches ih =>
    rw [sortOut] at h ⊢
    split at h
    · next hage => rw [if_pos hage, ih h]
    · cases h

structure Moved (ordered : Prop) (before : List (PrioritizedMessage MessageTypes))
    (r : SmartBatching × List BatchedMessage) : Prop where
  perm : (contents r.2 ++ held r.1).Perm before
  held_eq : ordered → r.2 = [] → held r.1 = before
  plain : r.1.Plain

section Moved
variable {clock}

theorem Moved.of_held {ordered : Prop} {before : List (PrioritizedMessage MessageTypes)}
    {b : SmartBatching} (h : held b = before) (hplain : b.Plain) : Moved ordered before (b, []) where
  perm := .of_eq h
  held_eq _ _ := h
  plain := hplain

theorem cleanupExpiredBatches_moved {ordered : Prop}
    {before : List (PrioritizedMessage MessageTypes)} {b : SmartBatching}
    (hperm : (held b).Perm before) (heq : ordered → held b = before) (hplain : b.Plain) :
    Moved ordered before (cleanupExpiredBatches clock b) where
  perm := by
    have hsort := (sortOut_perm clock b.config.maxWaitTime b.reads b.readyBatches).flatMap_right
      fun batch => batch.messages
    rw [cleanupExpiredBatches, held, ← List.append_assoc, ← contents_append]
    exact (hsort.append_right b.pendingMessages).trans hperm
  held_eq hordered hnone := by
    rw [← heq hordered, cleanupExpiredBatches, held, held]
    dsimp only
    rw [sortOut_eq clock hnone]
  plain := ⟨hplain.1, hplain.2⟩

end Moved

theorem processBatches_moved {b : SmartBatching} (h : b.Plain) (deltaTime : ℚ) :
    Moved (b.config.type = .priority → b.pendingMessages = []) (held b)
      (processBatches dc clock b deltaTime) := by
  rw [processBatches]
  split
  · exact .of_held rfl h
  · next hacts =>
    rw [not_or] at hacts
    have hplain :
        ({ b with accumulatedTime := b.accumulatedTime + deltaTime } : SmartBatching).Plain :=
      ⟨h.1, h.2⟩
    dsimp only
    split
    · obtain ⟨heq, hplain⟩ := processIntervalBatching_held dc clock hplain
      exact cleanupExpiredBatches_moved (.of_eq heq) (fun _ => heq) hplain
    · obtain ⟨heq, hplain⟩ := processSizeBatching_held dc clock hplain
      exact cleanupExpiredBatches_moved (.of_eq heq) (fun _ => heq) hplain
    · next htype =>
      obtain ⟨hperm, hplain⟩ := processPriorityBatching_held dc clock hplain
      exact cleanupExpiredBatches_moved hperm (fun hnot => absurd (hnot htype) hacts.2) hplain
    · obtain ⟨heq, hplain⟩ := processMixedBatching_held dc clock hplain
      exact cleanupExpiredBatches_moved (.of_eq heq) (fun _ => heq) hplain

theorem addMessage_moved {b : SmartBatching} (h : b.Plain)
    (message : PrioritizedMessage MessageTypes) :
    Moved (b.config.type ≠ .priority) (held b ++ [message]) (addMessage dc clock b message) := by
  have hplain :
      ({ b with pendingMessages := b.pendingMessages ++ [message] } : SmartBatching).Plain :=
    ⟨h.1, h.2⟩
  have hadd : held { b with pendingMessages := b.pendingMessages ++ [message] } =
      held b ++ [message] := (List.append_assoc ..).symm
  rw [addMessage, if_neg (by simp [h.1])]
  dsimp only
  split
  · obtain ⟨hperm, heq, hplain'⟩ := processBatches_moved dc clock hplain 0
    rw [hadd] at hperm heq
    exact ⟨hperm, fun htype => heq fun h => absurd h htype, hplain'⟩
  · exact .of_held hadd hplain

theorem forceFlush_held {b : SmartBatching} (h : b.Plain) :
    held (forceFlush dc clock b) = held b ∧ (forceFlush dc clock b).Plain := by
  rw [forceFlush]
  split
  · exact ⟨rfl, h⟩
  · obtain ⟨hready, -, hplain⟩ := pushBatch_spec dc clock h b.pendingMessages
    refine ⟨?_, hplain.1, hplain.2⟩
    rw [held, held, List.append_nil]
    exact hready

theorem updateNetworkConditions_held {b : SmartBatching} (h : b.Plain) (congestionLevel latency : ℚ) :
    held (updateNetworkConditions clock b congestionLevel latency) = held b ∧
      (updateNetworkConditions clock b congestionLevel latency).Plain := by
  simp only [updateNetworkConditions, adjustBatchingParameters, calculateOptimalInterval,
    adjustIntervalBasedOnLatency, adjustIntervalBasedOnCongestion]
  split_ifs <;> exact ⟨rfl, h.1, h.2⟩

end SmartBatching

structure Account where
  batching : SmartBatching
  added : List (PrioritizedMessage MessageTypes)
  handedOut : List BatchedMessage
  dropped : List BatchedMessage

namespace Account
open SmartBatching
variable (dc : DataCompression) (clock : ℕ → ℚ)

def start (config : BatchConfig) (now : ℚ) : Account := ⟨initial config now, [], [], []⟩

def step (a : Account) : Op → Account
  | .initializeSystem config => { a with batching := initializeSystem a.batching config }
  | .shutdown => { a with batching := shutdown dc clock a.batching }
  | .addMessage message =>
    let r := addMessage dc clock a.batching message
    { a with batching := r.1, added := a.added ++ [message], dropped := a.dropped ++ r.2 }
  | .processBatches deltaTime =>
    let r := processBatches dc clock a.batching deltaTime
    { a with batching := r.1, dropped := a.dropped ++ r.2 }
  | .forceFlush => { a with batching := forceFlush dc clock a.batching }
  | .getReadyBatches =>
    let r := getReadyBatches a.batching
    { a with batching := r.2, handedOut := a.handedOut ++ r.1 }
  | .clearBatches => { a with batching := clearBatches a.batching }
  | .resetStats => { a with batching := resetStats a.batching }
  | .setConfig config => { a with batching := setConfig a.batching config }
  | .setBatchType type => { a with batching := setBatchType a.batching type }
  | .setInterval intervalMs => { a with batching := setInterval a.batching intervalMs }
  | .setMaxSize maxSize => { a with batching := setMaxSize a.batching maxSize }
  | .setMaxMessages maxMessages => { a with batching := setMaxMessages a.batching maxMessages }
  | .enableAdaptiveBatching enable => { a with batching := enableAdaptiveBatching a.batching enable }
  | .updateNetworkConditions congestionLevel latency =>
    { a with batching := updateNetworkConditions clock a.batching congestionLevel latency }

/-- Every message added is handed out, dropped or held, each exactly once. -/
structure Balanced (a : Account) : Prop where
  plain : a.batching.Plain
  perm : (contents a.handedOut ++ (contents a.dropped ++ held a.batching)).Perm a.added

/-- The messages stand in the order they were added, unless some are dropped. -/
def InOrder (a : Account) : Prop :=
  a.dropped = [] → contents a.handedOut ++ held a.batching = a.added

/-- A call that throws nothing away and leaves compression off. -/
def Uncompressed : Op → Prop
  | .shutdown => False
  | .clearBatches => False
  | .setConfig config => config.enableCompression = false
  | _ => True

def Groups (a : Account) : Op → Prop
  | .addMessage _ => a.batching.config.type = .priority
  | .processBatches _ => a.batching.config.type = .priority ∧ a.batching.pendingMessages ≠ []
  | _ => False

instance decidableGroups (a : Account) : ∀ op, Decidable (a.Groups op)
  | .addMessage _ => inferInstanceAs (Decidable (_ = _))
  | .processBatches _ => inferInstanceAs (Decidable (_ ∧ _))
  | .initializeSystem _ => isFalse id
  | .shutdown => isFalse id
  | .forceFlush => isFalse id
  | .getReadyBatches => isFalse id
  | .clearBatches => isFalse id
  | .resetStats => isFalse id
  | .setConfig _ => isFalse id
  | .setBatchType _ => isFalse id
  | .setInterval _ => isFalse id
  | .setMaxSize _ => isFalse id
  | .setMaxMessages _ => isFalse id
  | .enableAdaptiveBatching _ => isFalse id
  | .updateNetworkConditions _ _ => isFalse id

variable {dc clock} {a : Account}

theorem Balanced.moved (h : a.Balanced) {ordered : Prop}
    {new : List (PrioritizedMessage MessageTypes)} {r : SmartBatching × List BatchedMessage}
    (hmoved : Moved ordered (held a.batching ++ new) r) :
    let a' : Account :=
      { a with batching := r.1, added := a.added ++ new, dropped := a.dropped ++ r.2 }
    a'.Balanced ∧ (ordered → a.InOrder → a'.InOrder) := by
  refine ⟨⟨hmoved.plain, ?_⟩, fun hordered hin hnone => ?_⟩
  · dsimp only
    rw [contents_append, List.append_assoc (contents a.dropped)]
    refine (((hmoved.perm.append_left _).append_left _).trans ?_).trans (h.perm.append_right new)
    simp only [List.append_assoc, List.Perm.refl]
  · obtain ⟨hdropped, hr⟩ := List.append_eq_nil_iff.mp hnone
    dsimp only
    rw [hmoved.held_eq hordered hr, ← List.append_assoc, hin hdropped]

theorem Balanced.same (h : a.Balanced) {b : SmartBatching} (hheld : held b = held a.batching)
    (hplain : b.Plain) {ordered : Prop} :
    ({ a with batching := b } : Account).Balanced ∧
      (ordered → a.InOrder → ({ a with batching := b } : Account).InOrder) := by
  refine ⟨⟨hplain, ?_⟩, fun _ hin hnone => ?_⟩
  · dsimp only
    rw [hheld]
    exact h.perm
  · dsimp only
    rw [hheld]
    exact hin hnone

theorem Balanced.step (h : a.Balanced) {op : Op} (hop : Uncompressed op) :
    (step dc clock a op).Balanced ∧
      (¬ a.Groups op → a.InOrder → (step dc clock a op).InOrder) := by
  have hplain := h.plain
  cases op with
  | initializeSystem config =>
    have hsame : initializeSystem a.batching config = a.batching := if_pos hplain.1
    rw [Account.step, hsame]
    exact ⟨h, fun _ => id⟩
  | shutdown => exact hop.elim
  | clearBatches => exact hop.elim
  | resetStats => exact h.same (b := resetStats a.batching) rfl ⟨hplain.1, hplain.2⟩
  | addMessage message =>
    obtain ⟨hb, hin⟩ := h.moved (addMessage_moved dc clock hplain message)
    exact ⟨hb, hin⟩
  | processBatches deltaTime =>
    have hmoved := processBatches_moved dc clock hplain deltaTime
    rw [← List.append_nil (held a.batching)] at hmoved
    obtain ⟨hb, hin⟩ := h.moved hmoved
    rw [List.append_nil] at hb hin
    exact ⟨hb, fun hgroups => hin fun htype => by_contra fun hne => hgroups ⟨htype, hne⟩⟩
  | forceFlush =>
    obtain ⟨hheld, hplain'⟩ := forceFlush_held dc clock hplain
    exact h.same hheld hplain'
  | getReadyBatches =>
    have hmove : contents (a.handedOut ++ a.batching.readyBatches) ++ a.batching.pendingMessages =
        contents a.handedOut ++ held a.batching := by
      rw [contents_append, List.append_assoc, held]
    refine ⟨⟨⟨hplain.1, hplain.2⟩, ?_⟩, fun _ hin hnone => ?_⟩
    · refine List.Perm.trans ?_ h.perm
      have hswap : (contents a.dropped ++ contents a.batching.readyBatches).Perm
          (contents a.batching.readyBatches ++ contents a.dropped) := List.perm_append_comm
      have hswap := hswap.append_right a.batching.pendingMessages
      simp only [List.append_assoc] at hswap
      rw [Account.step, getReadyBatches]
      dsimp only
      rw [contents_append, List.append_assoc]
      exact hswap.symm.append_left _
    · exact hmove.trans (hin hnone)
  | setConfig config => exact h.same (b := setConfig a.batching config) rfl ⟨hplain.1, hop⟩
  | setBatchType type => exact h.same (b := setBatchType a.batching type) rfl ⟨hplain.1, hplain.2⟩
  | setInterval intervalMs =>
    exact h.same (b := setInterval a.batching intervalMs) rfl ⟨hplain.1, hplain.2⟩
  | setMaxSize maxSize => exact h.same (b := setMaxSize a.batching maxSize) rfl ⟨hplain.1, hplain.2⟩
  | setMaxMessages maxMessages =>
    exact h.same (b := setMaxMessages a.batching maxMessages) rfl ⟨hplain.1, hplain.2⟩
  | enableAdaptiveBatching enable =>
    exact h.same (b := enableAdaptiveBatching a.batching enable) rfl ⟨hplain.1, hplain.2⟩
  | updateNetworkConditions congestionLevel latency =>
    obtain ⟨hheld, hplain'⟩ := updateNetworkConditions_held clock hplain congestionLevel latency
    exact h.same hheld hplain'

theorem balanced_start {config : BatchConfig} (h : config.enableCompression = false) (now : ℚ) :
    (start config now).Balanced :=
  ⟨⟨rfl, h⟩, .rfl⟩

theorem run_accounted (dc : DataCompression) (clock : ℕ → ℚ) {config : BatchConfig}
    (h : config.enableCompression = false) (now : ℚ) {ops : List Op}
    (hops : ∀ op ∈ ops, Uncompressed op) :
    (Run.run (step dc clock) (start config now) ops).Balanced ∧
      (Run.Along (step dc clock) (fun a op => ¬ a.Groups op) (start config now) ops →
        (Run.run (step dc clock) (start config now) ops).InOrder) := by
  have hall : Run.Along (step dc clock) (fun _ op => Uncompressed op) (start config now) ops :=
    Run.along_of_forall _ hops
  refine ⟨?_, fun hnone => ?_⟩
  · refine (Run.along_of_step (Q := fun _ _ => True) (fun a op hb hop => ⟨?_, trivial⟩)
      (balanced_start h now) hall).1
    exact (hb.step hop).1
  · refine (Run.along_of_step (Q := fun _ _ => True) (I := fun a => a.Balanced ∧ a.InOrder)
      (fun a op hb hop => ⟨?_, trivial⟩) ⟨balanced_start h now, fun _ => rfl⟩ (hall.and hnone)).1.2
    exact ⟨(hb.1.step hop.1).1, (hb.1.step hop.1).2 hop.2 hb.2⟩

/-- Where no batch has expired either, the batches handed out, those ready and the messages
pending hold every message added exactly once, and in order where no call groups by priority. -/
theorem run_exactly_once (dc : DataCompression) (clock : ℕ → ℚ) {config : BatchConfig}
    (h : config.enableCompression = false) (now : ℚ) {ops : List Op}
    (hops : ∀ op ∈ ops, Uncompressed op)
    (hdropped : (Run.run (step dc clock) (start config now) ops).dropped = []) :
    let a := Run.run (step dc clock) (start config now) ops
    (contents a.handedOut : Multiset (PrioritizedMessage MessageTypes)) +
        contents a.batching.readyBatches + a.batching.pendingMessages = a.added ∧
      (Run.Along (step dc clock) (fun a op => ¬ a.Groups op) (start config now) ops →
        contents (a.handedOut ++ a.batching.readyBatches) ++ a.batching.pendingMessages =
          a.added) := by
  obtain ⟨hb, hin⟩ := run_accounted dc clock h now hops
  refine ⟨?_, fun hnone => ?_⟩
  · have hperm := hb.perm
    rw [hdropped] at hperm
    rw [Multiset.coe_add, Multiset.coe_add, List.append_assoc]
    exact Multiset.coe_eq_coe.mpr hperm
  · rw [← hin hnone hdropped, contents_append, List.append_assoc, held]

def mixedCalls : List Op :=
  [.addMessage { messageId := 1, data := [1, 2] }, .setMaxMessages 1,
    .addMessage { messageId := 2, data := [3, 4] }, .setBatchType .interval, .processBatches 100,
    .getReadyBatches, .addMessage { messageId := 3 }, .forceFlush]

end Account
end Ledger

namespace Account

theorem run_exactly_once_mixed :
    letI : Inhabited MessageTypes := ⟨.batchMessage⟩
    let a := Run.run (step ⟨true, 64⟩ fun n => n / 100)
      (start { type := .size, maxSize := 3, enableCompression := false } 0) mixedCalls
    (contents (a.handedOut ++ a.batching.readyBatches) ++ a.batching.pendingMessages).map
      (fun m => m.messageId) = [1, 2, 3] := by
  have horder := (@run_exactly_once ⟨.batchMessage⟩ ⟨true, 64⟩ (fun n => n / 100)
    { type := .size, maxSize := 3, enableCompression := false } rfl 0 (@mixedCalls ⟨.batchMessage⟩)
    (by simp [mixedCalls, Uncompressed]) (by decide +kernel)).2 (by decide +kernel)
  exact congrArg (List.map (@PrioritizedMessage.messageId _ ⟨MessageTypes.batchMessage⟩)) horder

end Account
end WitcherMP.Batching
