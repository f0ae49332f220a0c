import WitcherMP.Batching.Ledger

/-! What has to go right for the batching to pass on every message: the batches take all that
waits, none of them shrinks under compression, and none grows old before it is fetched. -/

namespace WitcherMP.Batching

open Compression Messages

variable [Inhabited MessageTypes]

def BatchedMessage.carries (batch : BatchedMessage) : List (PrioritizedMessage MessageTypes) :=
  if batch.isCompressed then [] else batch.messages

def SmartBatching.stock (b : SmartBatching) : List (PrioritizedMessage MessageTypes) :=
  b.readyBatches.flatMap BatchedMessage.carries ++ b.pendingMessages

structure Room where
  waiting : List (PrioritizedMessage MessageTypes) := []
  made : List ℚ := []
  reads : ℕ := 0

namespace Room

section Room
variable (dc : DataCompression) (clock : ℕ → ℚ) (config : BatchConfig)

def due (waiting : List (PrioritizedMessage MessageTypes)) : Bool :=
  match config.type with
  | .interval => config.intervalMs ≤ 0
  | .size => reachesSize waiting config.maxSize
  | .priority => true
  | .mixed => config.intervalMs ≤ 0 || reachesSize waiting config.maxSize

def cut (waiting : List (PrioritizedMessage MessageTypes)) :
    List (List (PrioritizedMessage MessageTypes)) × List (PrioritizedMessage MessageTypes) :=
  let r := match config.type with
    | .interval => ([waiting], [])
    | .priority => (groupByPriority waiting, [])
    | .size | .mixed =>
      let r := takeFitting config.maxSize config.maxMessages 0 0 waiting
      ([r.1], r.2)
  (r.1.filter (· ≠ []), r.2)

def Shrinks (group : List (PrioritizedMessage MessageTypes)) : Prop :=
  config.enableCompression ∧
    (dc.compress (SmartBatching.batchData group) .lz4 .balanced).length
      < (SmartBatching.batchData group).length

instance decidableShrinks (group : List (PrioritizedMessage MessageTypes)) :
    Decidable (Shrinks dc config group) := inferInstanceAs (Decidable (_ ∧ _))

def Timely : ℕ → List ℚ → Prop
  | _, [] => True
  | reads, t :: made => (clock reads - t) * 1000 ≤ config.maxWaitTime ∧ Timely (reads + 1) made

instance decidableTimely : ∀ reads made, Decidable (Timely clock config reads made)
  | _, [] => isTrue trivial
  | reads, _ :: made =>
    have : Decidable (Timely clock config (reads + 1) made) := decidableTimely (reads + 1) made
    inferInstanceAs (Decidable (_ ∧ Timely clock config (reads + 1) made))

def makeAll (room : Room) (groups : List (List (PrioritizedMessage MessageTypes))) : List ℚ :=
  room.made ++ (List.range' room.reads groups.length).map clock

def enter (room : Room) (message : PrioritizedMessage MessageTypes) : Room :=
  let waiting := room.waiting ++ [message]
  if due config waiting then
    let r := cut config waiting
    let made := makeAll clock room r.1
    { waiting := r.2, made := made, reads := room.reads + r.1.length + made.length }
  else { room with waiting := waiting }

/-- The batches that a message sets off carry their messages, and none has to be dropped. -/
def Sound (room : Room) (message : PrioritizedMessage MessageTypes) : Prop :=
  let waiting := room.waiting ++ [message]
  due config waiting →
    (∀ group ∈ (cut config waiting).1, ¬ Shrinks dc config group) ∧
      Timely clock config (room.reads + (cut config waiting).1.length)
        (makeAll clock room (cut config waiting).1)

instance decidableSound (room : Room) (message : PrioritizedMessage MessageTypes) :
    Decidable (Sound dc clock config room message) := inferInstanceAs (Decidable (_ → _ ∧ _))

/-- The lists of messages pass one after the other, the ready batches being fetched in between,
and leave nothing waiting. -/
def Passes : Room → List (List (PrioritizedMessage MessageTypes)) → Prop
  | room, [] => room.waiting = []
  | room, messages :: rest =>
    Run.Along (enter clock config) (Sound dc clock config) room messages ∧
      Passes { Run.run (enter clock config) room messages with made := [] } rest

instance decidablePasses : ∀ room messages, Decidable (Passes dc clock config room messages)
  | room, [] => inferInstanceAs (Decidable (room.waiting = []))
  | room, messages :: rest =>
    have : Decidable (Passes dc clock config
        { Run.run (enter clock config) room messages with made := [] } rest) :=
      decidablePasses _ rest
    inferInstanceAs (Decidable (_ ∧ _))

end Room

section Groups
variable {dc : DataCompression} {clock : ℕ → ℚ} {config : BatchConfig}
  {waiting : List (PrioritizedMessage MessageTypes)}

theorem cut_perm (config : BatchConfig) (waiting : List (PrioritizedMessage MessageTypes)) :
    ((cut config waiting).1.flatten ++ (cut config waiting).2).Perm waiting := by
  have htake := takeFitting_append config.maxSize config.maxMessages 0 0 waiting
  rw [cut, List.flatten_filter_ne_nil]
  cases config.type with
  | interval => simp
  | priority => simpa using groupByPriority_perm waiting
  | size => simp [htake]
  | mixed => simp [htake]

theorem cut_ne_nil {group : List (PrioritizedMessage MessageTypes)}
    (h : group ∈ (cut config waiting).1) : group ≠ [] := by
  rw [cut] at h
  simpa using (List.mem_filter.mp h).2

def kept (dc : DataCompression) (config : BatchConfig)
    (group : List (PrioritizedMessage MessageTypes)) : List (PrioritizedMessage MessageTypes) :=
  if Shrinks dc config group then [] else group

theorem flatMap_kept_eq {groups : List (List (PrioritizedMessage MessageTypes))}
    (h : ∀ group ∈ groups, ¬ Shrinks dc config group) :
    groups.flatMap (kept dc config) = groups.flatten := by
  rw [List.flatMap_def]
  refine congrArg List.flatten ((List.map_congr_left fun group hgroup => ?_).trans (List.map_id _))
  exact if_neg (h group hgroup)

variable (dc config) in
theorem length_flatMap_kept_le (groups : List (List (PrioritizedMessage MessageTypes))) :
    (groups.flatMap (kept dc config)).length ≤ groups.flatten.length := by
  induction groups with
  | nil => exact le_rfl
  | cons group groups ih =>
    rw [List.flatMap_cons, List.flatten_cons, List.length_append, List.length_append]
    refine Nat.add_le_add ?_ ih
    rw [kept]
    split_ifs
    · exact Nat.zero_le _
    · exact le_rfl

theorem length_flatMap_kept_lt {groups : List (List (PrioritizedMessage MessageTypes))}
    (hne : ∀ group ∈ groups, group ≠ []) {group : List (PrioritizedMessage MessageTypes)}
    (hgroup : group ∈ groups) (hshrinks : Shrinks dc config group) :
    (groups.flatMap (kept dc config)).length < groups.flatten.length := by
  obtain ⟨as, bs, rfl⟩ := List.append_of_mem hgroup
  have hpos := List.length_pos_iff.mpr (hne group hgroup)
  have has := length_flatMap_kept_le dc config as
  have hbs := length_flatMap_kept_le dc config bs
  have hnil : kept dc config group = [] := if_pos hshrinks
  rw [List.flatMap_append, List.flatMap_cons, hnil, List.flatten_append, List.flatten_cons,
    List.nil_append, List.length_append, List.length_append, List.length_append]
  omega

end Groups

section Interval
variable {dc : DataCompression} {clock : ℕ → ℚ} {config : BatchConfig}

variable (dc clock) in
theorem run_enter_interval (htype : config.type = .interval) (hpos : 0 < config.intervalMs)
    (room : Room) (messages : List (PrioritizedMessage MessageTypes)) :
    Run.run (enter clock config) room messages =
        { room with waiting := room.waiting ++ messages } ∧
      Run.Along (enter clock config) (Sound dc clock config) room messages := by
  have hnot : ∀ waiting : List (PrioritizedMessage MessageTypes), due config waiting = false := by
    intro waiting
    rw [due, htype]
    exact decide_eq_false (not_le.mpr hpos)
  induction messages generalizing room with
  | nil =>
    refine ⟨?_, trivial⟩
    rw [List.append_nil]
    rfl
  | cons m messages ih =>
    have henter : enter clock config room m = { room with waiting := room.waiting ++ [m] } := by
      rw [enter, hnot, if_neg Bool.false_ne_true]
    obtain ⟨hrun, halong⟩ := ih { room with waiting := room.waiting ++ [m] }
    rw [Run.run, Run.Along, henter, hrun]
    refine ⟨?_, fun hdue => absurd ((hnot _).symm.trans hdue) Bool.false_ne_true, halong⟩
    rw [List.append_assoc, List.singleton_append]

theorem passes_interval_iff (htype : config.type = .interval) (hpos : 0 < config.intervalMs)
    (room : Room) (calls : List (List (PrioritizedMessage MessageTypes))) :
    Passes dc clock config room calls ↔ room.waiting = [] ∧ ∀ messages ∈ calls, messages = [] := by
  induction calls generalizing room with
  | nil => exact (and_iff_left (List.forall_mem_nil _)).symm
  | cons messages calls ih =>
    obtain ⟨hrun, halong⟩ := run_enter_interval dc clock htype hpos room messages
    rw [Passes, and_iff_right halong, hrun, ih, List.append_eq_nil_iff, List.forall_mem_cons,
      and_assoc]

end Interval

end Room

namespace SmartBatching
open Room

section Expired
variable {clock : ℕ → ℚ} {config : BatchConfig} {batches : List BatchedMessage}

theorem timely_iff (reads : ℕ) (batches : List BatchedMessage) :
    Timely clock config reads (batches.map BatchedMessage.timestamp) ↔
      (sortOut clock config.maxWaitTime reads batches).2 = [] := by
  induction batches generalizing reads with
  | nil => exact iff_of_true trivial rfl
  | cons batch batches ih =>
    rw [List.map_cons, Timely, sortOut]
    by_cases hage : (clock reads - batch.timestamp) * 1000 ≤ config.maxWaitTime
    · rw [if_pos hage, ih, and_iff_right hage]
    · rw [if_neg hage]
      exact iff_of_false (fun h => hage h.1) (List.cons_ne_nil _ _)

theorem length_carries_sortOut (clock : ℕ → ℚ) (maxWaitTime : ℚ) (reads : ℕ)
    (batches : List BatchedMessage) :
    ((sortOut clock maxWaitTime reads batches).2.flatMap BatchedMessage.carries).length +
      ((sortOut clock maxWaitTime reads batches).1.flatMap BatchedMessage.carries).length
        = (batches.flatMap BatchedMessage.carries).length := by
  have hperm := (sortOut_perm clock maxWaitTime reads batches).flatMap_right
    BatchedMessage.carries
  rw [← List.length_append, ← List.flatMap_append]
  exact hperm.length_eq

theorem length_carries_lt {reads : ℕ} (hfull : ∀ batch ∈ batches, batch.carries ≠ [])
    (h : ¬ Timely clock config reads (batches.map BatchedMessage.timestamp)) :
    ((sortOut clock config.maxWaitTime reads batches).1.flatMap BatchedMessage.carries).length
      < (batches.flatMap BatchedMessage.carries).length := by
  rw [timely_iff] at h
  have hlength := length_carries_sortOut clock config.maxWaitTime reads batches
  obtain ⟨batch, dropped, hdropped⟩ := List.exists_cons_of_ne_nil h
  have hmem : batch ∈ batches := (sortOut_perm clock config.maxWaitTime reads batches).subset
    (List.mem_append_left _ (hdropped ▸ List.mem_cons_self ..))
  have hpos := List.length_pos_iff.mpr (hfull batch hmem)
  rw [hdropped, List.flatMap_cons, List.length_append] at hlength
  omega

end Expired

section Steps
variable (dc : DataCompression) (clock : ℕ → ℚ) {config : BatchConfig} {b b' : SmartBatching}

structure Untimed (config : BatchConfig) (b : SmartBatching) : Prop where
  initialized : b.initialized = true
  config_eq : b.config = config
  accumulatedTime : b.accumulatedTime = 0
  currentInterval : b.currentInterval = config.intervalMs

structure Made (dc : DataCompression) (clock : ℕ → ℚ) (config : BatchConfig) (b : SmartBatching)
    (groups : List (List (PrioritizedMessage MessageTypes)))
    (waiting : List (PrioritizedMessage MessageTypes)) (b' : SmartBatching) : Prop where
  untimed : Untimed config b'
  pending : b'.pendingMessages = waiting
  reads : b'.reads = b.reads + groups.length
  ready : ∃ batches, b'.readyBatches = b.readyBatches ++ batches ∧
    batches.map BatchedMessage.timestamp = (List.range' b.reads groups.length).map clock ∧
    batches.map BatchedMessage.carries = groups.map (kept dc config)

theorem timestamp_createBatch (b : SmartBatching)
    (group : List (PrioritizedMessage MessageTypes)) :
    (createBatch dc clock b group).1.timestamp = clock b.reads := by
  rw [createBatch]
  dsimp only
  split_ifs
  · rw [compressBatch]
    dsimp only
    split_ifs <;> rfl
  · rfl

theorem carries_createBatch (h : b.config = config)
    (group : List (PrioritizedMessage MessageTypes)) :
    (createBatch dc clock b group).1.carries = kept dc config group := by
  rw [createBatch, kept, ← h]
  dsimp only
  by_cases henable : b.config.enableCompression = true
  · rw [if_pos henable, compressBatch]
    dsimp only
    by_cases hshrinks : (dc.compress (batchData group) .lz4 .balanced).length
        < (batchData group).length
    · rw [if_pos hshrinks, if_pos ⟨henable, hshrinks⟩]
      rfl
    · rw [if_neg hshrinks, if_neg fun h => hshrinks h.2]
      rfl
  · rw [if_neg henable, if_neg fun h => henable h.1]
    rfl

theorem made_pushBatch (h : Untimed config b) (group : List (PrioritizedMessage MessageTypes)) :
    Made dc clock config b [group] b.pendingMessages (pushBatch dc clock b group) := by
  refine ⟨⟨h.1, h.2, h.3, h.4⟩, rfl, rfl, [(createBatch dc clock b group).1], rfl, ?_, ?_⟩
  · exact congrArg (fun t => [t]) (timestamp_createBatch dc clock b group)
  · exact congrArg (fun ms => [ms]) (carries_createBatch dc clock h.config_eq group)

variable {dc clock} in
theorem Made.refl (h : Untimed config b) : Made dc clock config b [] b.pendingMessages b :=
  ⟨h, rfl, rfl, [], (List.append_nil _).symm, rfl, rfl⟩

variable {dc clock} in
theorem Made.trans {as bs : List (List (PrioritizedMessage MessageTypes))}
    {ws ws' : List (PrioritizedMessage MessageTypes)} {b'' : SmartBatching}
    (h : Made dc clock config b as ws b') (h' : Made dc clock config b' bs ws' b'') :
    Made dc clock config b (as ++ bs) ws' b'' := by
  obtain ⟨batches, hready, htimes, hcarries⟩ := h.ready
  obtain ⟨batches', hready', htimes', hcarries'⟩ := h'.ready
  refine ⟨h'.untimed, h'.pending, ?_, batches ++ batches', ?_, ?_, ?_⟩
  · rw [h'.reads, h.reads, List.length_append, Nat.add_assoc]
  · rw [hready', hready, List.append_assoc]
  · rw [List.map_append, htimes, htimes', h.reads, ← List.map_append, List.length_append,
      List.range'_append_1]
  · rw [List.map_append, List.map_append, hcarries, hcarries']

theorem made_pushGroups (groups : List (List (PrioritizedMessage MessageTypes)))
    (h : Untimed config b) :
    Made dc clock config b (groups.filter (· ≠ [])) b.pendingMessages
      (groups.foldl (fun b group => if group = [] then b else pushBatch dc clock b group) b) := by
  induction groups generalizing b with
  | nil => exact .refl h
  | cons group groups ih =>
    rw [List.foldl_cons]
    split_ifs with hnil
    · rw [List.filter_cons_of_neg (by simpa using hnil)]
      exact ih h
    · rw [List.filter_cons_of_pos (by simpa using hnil)]
      have hfirst := made_pushBatch dc clock h group
      have hrest := hfirst.trans (ih hfirst.untimed)
      rwa [hfirst.pending] at hrest

variable {dc clock} in
theorem Made.congr {groups : List (List (PrioritizedMessage MessageTypes))}
    {ws ws' : List (PrioritizedMessage MessageTypes)} {b'' : SmartBatching}
    (h : Made dc clock config b groups ws b') (huntimed : Untimed config b'')
    (hpending : b''.pendingMessages = ws') (hreads : b''.reads = b'.reads)
    (hready : b''.readyBatches = b'.readyBatches) : Made dc clock config b groups ws' b'' :=
  ⟨huntimed, hpending, hreads.trans h.reads, hready ▸ h.ready⟩

theorem made_processSizeBatching (h : Untimed config b) :
    Made dc clock config b
      ([(takeFitting config.maxSize config.maxMessages 0 0 b.pendingMessages).1].filter (· ≠ []))
      (takeFitting config.maxSize config.maxMessages 0 0 b.pendingMessages).2
      (processSizeBatching dc clock b) := by
  obtain rfl := h.config_eq
  rw [processSizeBatching]
  generalize takeFitting b.config.maxSize b.config.maxMessages 0 0 b.pendingMessages = r
  have hrest : Untimed b.config { b with pendingMessages := r.2 } := ⟨h.1, h.2, h.3, h.4⟩
  have hgroup := made_pushGroups dc clock [r.1] hrest
  exact ⟨hgroup.untimed, hgroup.pending, hgroup.reads, hgroup.ready⟩

theorem made_strategy (h : Untimed config b) (hne : b.pendingMessages ≠ [])
    (hdue : due config b.pendingMessages = true) :
    Made dc clock config b (cut config b.pendingMessages).1 (cut config b.pendingMessages).2
      (match config.type with
        | .interval => processIntervalBatching dc clock b
        | .size => processSizeBatching dc clock b
        | .priority => processPriorityBatching dc clock b
        | .mixed => processMixedBatching dc clock b) := by
  rw [due] at hdue
  rw [cut]
  cases htype : config.type with
  | interval =>
    simp only [htype, decide_eq_true_eq] at hdue ⊢
    have htime : b.accumulatedTime ≥ b.currentInterval := by
      rw [h.accumulatedTime, h.currentInterval]
      exact hdue
    rw [processIntervalBatching, if_pos htime, if_neg hne]
    have hall := made_pushGroups dc clock [b.pendingMessages] h
    rw [List.foldl_cons, if_neg hne, List.foldl_nil] at hall
    exact hall.congr ⟨hall.untimed.1, hall.untimed.2, rfl, hall.untimed.4⟩ rfl rfl rfl
  | size => exact made_processSizeBatching dc clock h
  | priority =>
    dsimp only
    rw [processPriorityBatching, if_neg hne]
    have hall := made_pushGroups dc clock (groupByPriority b.pendingMessages) h
    exact hall.congr ⟨hall.untimed.1, hall.untimed.2, hall.untimed.3, hall.untimed.4⟩ rfl rfl rfl
  | mixed =>
    simp only [htype, Bool.or_eq_true, decide_eq_true_eq] at hdue ⊢
    rw [processMixedBatching, if_pos]
    · have hall := made_processSizeBatching dc clock h
      exact hall.congr ⟨hall.untimed.1, hall.untimed.2, rfl, hall.untimed.4⟩ hall.pending rfl rfl
    · rw [h.accumulatedTime, h.currentInterval, h.config_eq]
      exact hdue

theorem shouldCreateBatch_eq (h : Untimed config b) (hne : b.pendingMessages ≠ []) :
    shouldCreateBatch b = due config b.pendingMessages := by
  rw [shouldCreateBatch, if_neg hne, h.config_eq, h.accumulatedTime, h.currentInterval]
  cases htype : config.type <;> simp only [due, htype]

theorem addMessage_cases (h : Untimed config b) (message : PrioritizedMessage MessageTypes) :
    due config (b.pendingMessages ++ [message]) = false ∧ (addMessage dc clock b message).1 =
        { b with pendingMessages := b.pendingMessages ++ [message] } ∨
      due config (b.pendingMessages ++ [message]) = true ∧ ∃ b',
        Made dc clock config b (cut config (b.pendingMessages ++ [message])).1
          (cut config (b.pendingMessages ++ [message])).2 b' ∧
        (addMessage dc clock b message).1 = (cleanupExpiredBatches clock b').1 := by
  obtain rfl := h.config_eq
  have hne : b.pendingMessages ++ [message] ≠ [] := by simp
  have hadded : Untimed b.config { b with pendingMessages := b.pendingMessages ++ [message] } :=
    ⟨h.1, rfl, h.3, h.4⟩
  rw [addMessage, if_neg (not_not.mpr h.initialized)]
  dsimp only
  rw [shouldCreateBatch_eq hadded hne]
  dsimp only
  cases hdue : due b.config (b.pendingMessages ++ [message]) with
  | false => exact Or.inl ⟨rfl, rfl⟩
  | true =>
    have htime : Untimed b.config { b with
        pendingMessages := b.pendingMessages ++ [message]
        accumulatedTime := b.accumulatedTime + 0 } :=
      ⟨h.1, rfl, (add_zero _).trans h.3, h.4⟩
    have hmade := made_strategy dc clock htime hne hdue
    rw [if_pos rfl, processBatches, if_neg (by simp [h.initialized])]
    exact Or.inr ⟨rfl, _, ⟨hmade.untimed, hmade.pending, hmade.reads, hmade.ready⟩, rfl⟩

variable {dc clock} in
theorem Made.carries_eq {groups : List (List (PrioritizedMessage MessageTypes))}
    {ws : List (PrioritizedMessage MessageTypes)} (h : Made dc clock config b groups ws b') :
    b'.readyBatches.flatMap BatchedMessage.carries =
      b.readyBatches.flatMap BatchedMessage.carries ++ groups.flatMap (kept dc config) := by
  obtain ⟨batches, hready, -, hcarries⟩ := h.ready
  rw [hready, List.flatMap_append, List.flatMap_def (f := kept dc config), ← hcarries,
    ← List.flatMap_def]

theorem length_kept_cut_le (config : BatchConfig) (waiting : List (PrioritizedMessage MessageTypes)) :
    ((cut config waiting).1.flatMap (kept dc config)).length + (cut config waiting).2.length
      ≤ waiting.length := by
  have hperm := (cut_perm config waiting).length_eq
  have hkept := length_flatMap_kept_le dc config (cut config waiting).1
  rw [List.length_append] at hperm
  omega

theorem length_stock_cleanup_le (b : SmartBatching) :
    (stock (cleanupExpiredBatches clock b).1).length ≤ (stock b).length := by
  have hlength := length_carries_sortOut clock b.config.maxWaitTime b.reads b.readyBatches
  rw [stock, stock, List.length_append, List.length_append, cleanupExpiredBatches]
  dsimp only
  omega

theorem length_stock_addMessage_le (h : Untimed config b)
    (message : PrioritizedMessage MessageTypes) :
    Untimed config (addMessage dc clock b message).1 ∧
      (stock (addMessage dc clock b message).1).length ≤ (stock b).length + 1 := by
  rcases addMessage_cases dc clock h message with ⟨-, heq⟩ | ⟨-, b', hmade, heq⟩
  · rw [heq]
    refine ⟨⟨h.1, h.2, h.3, h.4⟩, le_of_eq ?_⟩
    rw [stock, stock, ← List.append_assoc, List.length_append, List.length_singleton]
  · rw [heq]
    have hu := hmade.untimed
    refine ⟨⟨hu.1, hu.2, hu.3, hu.4⟩, (length_stock_cleanup_le clock b').trans ?_⟩
    have hcut := length_kept_cut_le dc config (b.pendingMessages ++ [message])
    rw [List.length_append, List.length_singleton] at hcut
    rw [stock, stock, hmade.carries_eq, hmade.pending, List.length_append, List.length_append,
      List.length_append]
    omega

structure Mirrors (config : BatchConfig) (room : Room) (b : SmartBatching) : Prop where
  untimed : Untimed config b
  waiting : b.pendingMessages = room.waiting
  made : b.readyBatches.map BatchedMessage.timestamp = room.made
  reads : b.reads = room.reads
  full : ∀ batch ∈ b.readyBatches, batch.carries ≠ []

variable {dc clock} {room : Room} {message : PrioritizedMessage MessageTypes}

theorem Mirrors.made_eq (h : Mirrors config room b)
    {groups : List (List (PrioritizedMessage MessageTypes))}
    {ws : List (PrioritizedMessage MessageTypes)} (hmade : Made dc clock config b groups ws b') :
    b'.readyBatches.map BatchedMessage.timestamp = makeAll clock room groups := by
  obtain ⟨batches, hready, htimes, -⟩ := hmade.ready
  rw [hready, List.map_append, htimes, h.made, h.reads, makeAll]

theorem Mirrors.full_made (h : Mirrors config room b)
    {groups : List (List (PrioritizedMessage MessageTypes))}
    {ws : List (PrioritizedMessage MessageTypes)} (hmade : Made dc clock config b groups ws b')
    (hne : ∀ group ∈ groups, group ≠ []) (hkeep : ∀ group ∈ groups, ¬ Shrinks dc config group) :
    ∀ batch ∈ b'.readyBatches, batch.carries ≠ [] := by
  obtain ⟨batches, hready, -, hcarries⟩ := hmade.ready
  intro batch hbatch
  rw [hready] at hbatch
  rcases List.mem_append.mp hbatch with hold | hnew
  · exact h.full batch hold
  · have hmem := List.mem_map_of_mem (f := BatchedMessage.carries) hnew
    rw [hcarries] at hmem
    obtain ⟨group, hgroup, heq⟩ := List.mem_map.mp hmem
    rw [← heq, kept, if_neg (hkeep group hgroup)]
    exact hne group hgroup

theorem Mirrors.addMessage (h : Mirrors config room b) (hsound : Sound dc clock config room message) :
    Mirrors config (enter clock config room message) (addMessage dc clock b message).1 ∧
      (stock (SmartBatching.addMessage dc clock b message).1).Perm (stock b ++ [message]) := by
  rw [Sound, ← h.waiting] at hsound
  rw [enter, ← h.waiting]
  rcases addMessage_cases dc clock h.untimed message with ⟨hdue, heq⟩ | ⟨hdue, b', hmade, heq⟩
  · rw [heq, hdue, if_neg Bool.false_ne_true]
    refine ⟨⟨⟨h.1.1, h.1.2, h.1.3, h.1.4⟩, rfl, h.made, h.reads, h.full⟩, .of_eq ?_⟩
    rw [stock, stock, List.append_assoc]
  · obtain ⟨hkeep, htimely⟩ := hsound hdue
    have hfull := h.full_made hmade (fun _ => cut_ne_nil) hkeep
    have hu := hmade.untimed
    have hcut := cut_perm config (b.pendingMessages ++ [message])
    rw [← h.made_eq hmade, ← h.reads, ← hmade.reads, timely_iff, ← hu.config_eq] at htimely
    have hsame := sortOut_eq clock htimely
    have hreads : (cleanupExpiredBatches clock b').1.reads = room.reads +
        (cut config (b.pendingMessages ++ [message])).1.length +
          (makeAll clock room (cut config (b.pendingMessages ++ [message])).1).length := by
      rw [← h.made_eq hmade, List.length_map, ← h.reads, ← hmade.reads]
      rfl
    rw [heq, hdue, if_pos rfl]
    refine ⟨⟨⟨hu.1, hu.2, hu.3, hu.4⟩, hmade.pending, ?_, hreads, ?_⟩, ?_⟩
    · exact (congrArg (List.map BatchedMessage.timestamp) hsame).trans (h.made_eq hmade)
    · exact fun batch hbatch => hfull batch (hsame ▸ hbatch)
    · have hstock : stock (cleanupExpiredBatches clock b').1 = stock b' :=
        congrArg (fun batches => batches.flatMap BatchedMessage.carries ++ b'.pendingMessages) hsame
      rw [hstock, stock, stock, hmade.carries_eq, hmade.pending, flatMap_kept_eq hkeep,
        List.append_assoc, List.append_assoc]
      exact hcut.append_left _

theorem Mirrors.length_stock_lt (h : Mirrors config room b)
    (hlost : ¬ Sound dc clock config room message) :
    (stock (SmartBatching.addMessage dc clock b message).1).length < (stock b).length + 1 := by
  rw [Sound, ← h.waiting] at hlost
  rcases addMessage_cases dc clock h.untimed message with ⟨hdue, heq⟩ | ⟨hdue, b', hmade, heq⟩
  · exact absurd (fun h => absurd (hdue.symm.trans h) Bool.false_ne_true) hlost
  have hperm := (cut_perm config (b.pendingMessages ++ [message])).length_eq
  rw [List.length_append, List.length_append, List.length_singleton] at hperm
  have hstock : (stock b').length = (b.readyBatches.flatMap BatchedMessage.carries).length +
      ((cut config (b.pendingMessages ++ [message])).1.flatMap (kept dc config)).length +
        (cut config (b.pendingMessages ++ [message])).2.length := by
    rw [stock, hmade.carries_eq, hmade.pending, List.length_append, List.length_append]
  have hbefore : (stock b).length = (b.readyBatches.flatMap BatchedMessage.carries).length +
      b.pendingMessages.length := List.length_append
  rw [heq]
  by_cases hkeep : ∀ group ∈ (cut config (b.pendingMessages ++ [message])).1,
      ¬ Shrinks dc config group
  · have htimely := fun h => hlost fun _ => ⟨hkeep, h⟩
    have hfull := h.full_made hmade (fun _ => cut_ne_nil) hkeep
    have hu := hmade.untimed
    rw [← h.made_eq hmade, ← h.reads, ← hmade.reads] at htimely
    have hdropped := length_carries_lt hfull htimely
    rw [flatMap_kept_eq hkeep] at hstock
    have hafter : (stock (cleanupExpiredBatches clock b').1).length < (stock b').length := by
      rw [stock, stock, List.length_append, List.length_append, cleanupExpiredBatches, hu.config_eq]
      exact Nat.add_lt_add_right hdropped _
    omega
  · obtain ⟨group, hgroup⟩ := not_forall.mp hkeep
    obtain ⟨hgroup, hshrinks⟩ := Classical.not_imp.mp hgroup
    have hlt := length_flatMap_kept_lt (fun _ => cut_ne_nil) hgroup (not_not.mp hshrinks)
    have hle := length_stock_cleanup_le clock b'
    omega

variable (dc clock) in
theorem length_stock_foldl_le (h : Untimed config b)
    (messages : List (PrioritizedMessage MessageTypes)) :
    Untimed config (messages.foldl (fun b m => (SmartBatching.addMessage dc clock b m).1) b) ∧
      (stock (messages.foldl (fun b m => (SmartBatching.addMessage dc clock b m).1) b)).length
        ≤ (stock b).length + messages.length := by
  induction messages generalizing b with
  | nil => exact ⟨h, le_rfl⟩
  | cons m messages ih =>
    obtain ⟨huntimed, hle⟩ := length_stock_addMessage_le dc clock h m
    obtain ⟨huntimed', hle'⟩ := ih huntimed
    rw [List.foldl_cons, List.length_cons]
    exact ⟨huntimed', by omega⟩

theorem Mirrors.foldl (h : Mirrors config room b) {messages : List (PrioritizedMessage MessageTypes)}
    (hsound : Run.Along (enter clock config) (Sound dc clock config) room messages) :
    Mirrors config (Run.run (enter clock config) room messages)
        (messages.foldl (fun b m => (SmartBatching.addMessage dc clock b m).1) b) ∧
      (stock (messages.foldl (fun b m => (SmartBatching.addMessage dc clock b m).1) b)).Perm
        (stock b ++ messages) := by
  induction messages generalizing room b with
  | nil => exact ⟨h, .of_eq (List.append_nil _).symm⟩
  | cons m messages ih =>
    obtain ⟨hmirrors, hperm⟩ := h.addMessage hsound.1
    obtain ⟨hmirrors', hperm'⟩ := ih hmirrors hsound.2
    refine ⟨hmirrors', hperm'.trans ?_⟩
    have := hperm.append_right messages
    rwa [List.append_assoc] at this

theorem Mirrors.length_foldl_lt (h : Mirrors config room b)
    {messages : List (PrioritizedMessage MessageTypes)}
    (hlost : ¬ Run.Along (enter clock config) (Sound dc clock config) room messages) :
    (stock (messages.foldl (fun b m => (SmartBatching.addMessage dc clock b m).1) b)).length
      < (stock b).length + messages.length := by
  induction messages generalizing room b with
  | nil => exact absurd trivial hlost
  | cons m messages ih =>
    rw [List.foldl_cons, List.length_cons]
    by_cases hsound : Sound dc clock config room m
    · obtain ⟨hmirrors, hperm⟩ := h.addMessage hsound
      have hlength := hperm.length_eq
      have hlt := ih hmirrors fun hrest => hlost ⟨hsound, hrest⟩
      rw [List.length_append, List.length_singleton] at hlength
      omega
    · have hlt := h.length_stock_lt hsound
      obtain ⟨huntimed, -⟩ := length_stock_addMessage_le dc clock h.untimed m
      obtain ⟨-, hle⟩ := length_stock_foldl_le dc clock huntimed messages
      omega

end Steps

end SmartBatching
end WitcherMP.Batching
