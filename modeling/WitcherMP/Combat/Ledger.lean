import WitcherMP.Combat.Defs
import WitcherMP.Lib.Fates

/-! What becomes of the actions that wait: one is processed with its batch, or swept out when it is
too old, or it still waits. None is ever added, since a call that adds one never returns. -/

namespace WitcherMP.Combat
open Fates

def unmarked (actions : List CombatAction) : List CombatAction := actions.filter (! ·.processed)

def withCall (action : CombatAction) : CombatAction × Option BridgeCall := (action, bridgeCall action)

namespace CombatOptimizer

section Queues
variable (s : CombatOptimizer) (p p' : CombatPriority) (l : List CombatAction)

theorem queue_setQueue : (s.setQueue p l).queue p' = if p = p' then l else s.queue p' := by
  cases p <;> cases p' <;> rfl

structure Alike (s s' : CombatOptimizer) : Prop where
  initialized : s'.initialized = s.initialized
  processing : s'.processing = s.processing
  maxQueueSize : s'.maxQueueSize = s.maxQueueSize
  batchSize : s'.batchSize = s.batchSize
  totalActions : s'.stats.totalActions = s.stats.totalActions
  droppedActions : s'.stats.droppedActions = s.stats.droppedActions
  queueMutex : s'.queueMutex = s.queueMutex

theorem alike_setQueue : Alike s (s.setQueue p l) := by
  cases p <;> exact ⟨rfl, rfl, rfl, rfl, rfl, rfl, rfl⟩

end Queues

theorem Alike.trans {s s' s'' : CombatOptimizer} (h : Alike s s') (h' : Alike s' s'') : Alike s s'' :=
  ⟨h'.initialized.trans h.initialized, h'.processing.trans h.processing,
    h'.maxQueueSize.trans h.maxQueueSize, h'.batchSize.trans h.batchSize,
    h'.totalActions.trans h.totalActions, h'.droppedActions.trans h.droppedActions,
    h'.queueMutex.trans h.queueMutex⟩

theorem processBatch_spec (s : CombatOptimizer) (batch : List CombatAction) :
    Alike s (s.processBatch batch).1 ∧ (∀ p, (s.processBatch batch).1.queue p = s.queue p) ∧
      (s.processBatch batch).2 = (unmarked batch).map withCall := by
  induction batch generalizing s with
  | nil => exact ⟨⟨rfl, rfl, rfl, rfl, rfl, rfl, rfl⟩, fun _ => rfl, rfl⟩
  | cons action batch ih =>
    rw [processBatch, unmarked, List.filter_cons]
    by_cases hmark : action.processed
    · simp only [hmark, not_true_eq_false, if_false, Bool.not_true, Bool.false_eq_true]
      exact ih s
    · obtain ⟨halike, hqueue, hhandled⟩ := ih (s.processAction action).1
      simp only [hmark, if_true, Bool.not_false]
      refine ⟨⟨halike.1, halike.2, halike.3, halike.4, halike.5, halike.6, halike.7⟩, fun p => ?_, ?_⟩
      · exact (hqueue p).trans (by cases p <;> rfl)
      · exact congrArg ((action, bridgeCall action) :: ·) hhandled

theorem processActionQueue_spec (s : CombatOptimizer) (p : CombatPriority) :
    Alike s (s.processActionQueue p).1 ∧
      (∀ p', (s.processActionQueue p).1.queue p'
        = if p = p' then (s.queue p).drop s.batchSize.toNat else s.queue p') ∧
      (s.processActionQueue p).2
        = (unmarked ((s.queue p).take s.batchSize.toNat)).map withCall := by
  unfold processActionQueue
  split_ifs with hempty
  · refine ⟨⟨rfl, rfl, rfl, rfl, rfl, rfl, rfl⟩, fun p' => ?_, ?_⟩
    · split_ifs with hp
      · rw [hempty, List.drop_nil, ← hp, hempty]
      · rfl
    · rw [hempty, List.take_nil]
      rfl
  · obtain ⟨halike, hqueue, hhandled⟩ :=
      s.processBatch_spec ((s.queue p).take (min s.batchSize.toNat (s.queue p).length))
    dsimp only
    refine ⟨halike.trans (alike_setQueue ..), fun p' => ?_, ?_⟩
    · rw [queue_setQueue, hqueue]
      split_ifs
      · rcases le_total s.batchSize.toNat (s.queue p).length with hle | hle
        · rw [min_eq_left hle]
        · rw [min_eq_right hle, List.drop_length, List.drop_of_length_le hle]
      · rfl
    · rw [hhandled, ← List.take_eq_take_min]

theorem addAction_of_not {s : CombatOptimizer} (h : ¬ s.initialized) (action : CombatAction) :
    s.addAction action = (s, some false) := by
  rw [addAction, if_pos h]

theorem addAction_of_initialized {s : CombatOptimizer} (h : s.initialized) (action : CombatAction) :
    s.addAction action = ({ s with queueMutex := true }, none) := by
  rw [addAction, if_neg (not_not.mpr h)]
  cases hheld : s.queueMutex with
  | true =>
    have hlock : s.lock = none := if_pos hheld
    have hsame : { s with queueMutex := true } = s := by rw [← hheld]
    rw [hlock, hsame]
  | false =>
    have hlock : s.lock = some { s with queueMutex := true } :=
      if_neg fun hlocked => Bool.false_ne_true (hheld.symm.trans hlocked)
    rw [hlock]
    rfl

theorem addAction_ne_true (s : CombatOptimizer) (action : CombatAction) :
    (s.addAction action).2 ≠ some true := by
  by_cases h : s.initialized
  · rw [addAction_of_initialized h]
    exact nofun
  · rw [addAction_of_not h]
    exact fun heq => Bool.false_ne_true (Option.some.inj heq)

theorem addAction_keeps (s : CombatOptimizer) (action : CombatAction) :
    (∀ p, (s.addAction action).1.queue p = s.queue p) ∧ (s.addAction action).1.stats = s.stats ∧
      (s.addAction action).1.maxQueueSize = s.maxQueueSize := by
  by_cases h : s.initialized
  · rw [addAction_of_initialized h]
    exact ⟨fun p => by cases p <;> rfl, rfl, rfl⟩
  · rw [addAction_of_not h]
    exact ⟨fun p => rfl, rfl, rfl⟩

structure Partly (s s' : CombatOptimizer) (done : List CombatPriority)
    (handled : List (CombatAction × Option BridgeCall)) : Prop where
  alike : Alike s s'
  queue : ∀ p, s'.queue p = if p ∈ done then (s.queue p).drop s.batchSize.toNat else s.queue p
  handled : handled
    = (done.flatMap fun p => unmarked ((s.queue p).take s.batchSize.toNat)).map withCall

theorem Partly.next {s s' : CombatOptimizer} {done : List CombatPriority}
    {handled : List (CombatAction × Option BridgeCall)} (h : Partly s s' done handled)
    {p : CombatPriority} (hp : p ∉ done) :
    Partly s (s'.processActionQueue p).1 (done ++ [p]) (handled ++ (s'.processActionQueue p).2) := by
  obtain ⟨halike, hqueue, hhandled⟩ := s'.processActionQueue_spec p
  rw [h.alike.batchSize] at hqueue hhandled
  have hat : s'.queue p = s.queue p := (h.queue p).trans (if_neg hp)
  refine ⟨h.alike.trans halike, fun p' => ?_, ?_⟩
  · rw [hqueue, h.queue p', hat]
    by_cases hp' : p = p'
    · simp [hp']
    · simp [hp', Ne.symm hp']
  · rw [hhandled, hat, h.handled, ← List.map_append, List.flatMap_append, List.flatMap_singleton]

def priorities : List CombatPriority := [.critical, .high, .medium, .low]

theorem processQueues_spec (s : CombatOptimizer) :
    Partly s s.processQueues.1 priorities s.processQueues.2 := by
  have hstart : Partly s s [] [] :=
    ⟨⟨rfl, rfl, rfl, rfl, rfl, rfl, rfl⟩, fun _ => rfl, rfl⟩
  have hcritical := hstart.next (p := .critical) (by decide)
  have hhigh := hcritical.next (p := .high) (by decide)
  have hmedium := hhigh.next (p := .medium) (by decide)
  exact hmedium.next (p := .low) (by decide)

theorem mem_priorities (p : CombatPriority) : p ∈ priorities := by cases p <;> decide

def entered (s : CombatOptimizer) : CombatOptimizer := { s with processing := true }

theorem queue_entered (s : CombatOptimizer) (p : CombatPriority) : s.entered.queue p = s.queue p := by
  cases p <;> rfl

structure Batched (s s' : CombatOptimizer) (handled : List (CombatAction × Option BridgeCall)) : Prop where
  alike : Alike s.entered s'
  queue : ∀ p, s'.queue p = (s.queue p).drop s.batchSize.toNat
  handled : handled
    = (priorities.flatMap fun p => unmarked ((s.queue p).take s.batchSize.toNat)).map withCall

theorem processQueues_entered (s : CombatOptimizer) :
    Batched s s.entered.processQueues.1 s.entered.processQueues.2 := by
  obtain ⟨halike, hqueue, hhandled⟩ := s.entered.processQueues_spec
  refine ⟨halike, fun p => ?_, ?_⟩
  · rw [hqueue, if_pos (mem_priorities p), queue_entered]
    rfl
  · rw [hhandled]
    simp only [queue_entered]
    rfl

def swept (s : CombatOptimizer) (startTime now endTime : ℤ) : CombatOptimizer :=
  let s := { s with
    criticalQueue := cleanupQueue now s.criticalQueue
    highQueue := cleanupQueue now s.highQueue
    mediumQueue := cleanupQueue now s.mediumQueue
    lowQueue := cleanupQueue now s.lowQueue
    queueMutex := false }
  { s.updateStatistics (.ofInt ((endTime - startTime).tdiv 1000000)) with processing := false }

theorem queue_swept (s : CombatOptimizer) (startTime now endTime : ℤ) (p : CombatPriority) :
    (s.swept startTime now endTime).queue p = cleanupQueue now (s.queue p) := by
  cases p <;> rfl

theorem processActions_cases (s : CombatOptimizer) (startTime now endTime : ℤ) :
    (s.processActions startTime now endTime = (s, some false, []) ∧
        ¬ (s.initialized = true ∧ s.processing = false)) ∨
      ∃ s' handled, Batched s s' handled ∧ s.initialized = true ∧ s.processing = false ∧
        s.processActions startTime now endTime =
          if s.queueMutex then (s', none, handled)
          else (s'.swept startTime now endTime, some true, handled) := by
  by_cases hopen : s.initialized = true ∧ s.processing = false
  · right
    have hbatched := s.processQueues_entered
    rw [processActions, if_neg (by simp [hopen.1, hopen.2]), ← entered]
    generalize s.entered.processQueues = r at hbatched ⊢
    obtain ⟨s', handled⟩ := r
    refine ⟨s', handled, hbatched, hopen.1, hopen.2, ?_⟩
    have hmutex : s'.queueMutex = s.queueMutex := hbatched.alike.queueMutex
    dsimp only
    rw [cleanupOldActions, lock, hmutex]
    cases s.queueMutex <;> rfl
  · left
    refine ⟨?_, hopen⟩
    have hrefused : ¬ s.initialized = true ∨ s.processing = true := by
      rwa [Classical.not_and_iff_not_or_not, Bool.not_eq_false] at hopen
    rw [processActions, if_pos hrefused]

inductive Fate
  | processed | expired (now : ℤ)
deriving DecidableEq

def Meets (clocks : List ℤ) (action : CombatAction) : Fate → Prop
  | .processed => True
  | .expired now => now ∈ clocks ∧ now - action.timestamp > maxAge

def accepted (s : CombatOptimizer) : CombatOp → List CombatAction
  | .addAction action => if (s.addAction action).2 = some true then [action] else []
  | .processActions .. => []

def handled (s : CombatOptimizer) : CombatOp → List (CombatAction × Option BridgeCall)
  | .addAction _ => []
  | .processActions startTime now endTime => (s.processActions startTime now endTime).2.2

def clocks (ops : List CombatOp) : List ℤ :=
  ops.filterMap fun
    | .addAction _ => none
    | .processActions _ now _ => some now

def additions (ops : List CombatOp) : ℕ :=
  ops.countP fun
    | .addAction _ => true
    | .processActions .. => false

def ofPriority (p : CombatPriority) (actions : List CombatAction) : List CombatAction :=
  actions.filter (·.priority = p)

/-- A system at work, between two calls, with every action in the queue of its priority and none of
them done. -/
structure Ready (s : CombatOptimizer) : Prop where
  initialized : s.initialized = true
  idle : s.processing = false
  free : s.queueMutex = false
  sorted : ∀ p, ∀ action ∈ s.queue p, action.priority = p
  undone : ∀ p, ∀ action ∈ s.queue p, action.processed = false

section Steps
variable {s : CombatOptimizer} {op : CombatOp}

theorem ready_of_empty (hinit : s.initialized = true) (hidle : s.processing = false)
    (hfree : s.queueMutex = false) (hempty : ∀ p, s.queue p = []) : s.Ready := by
  have hnone : ∀ p, ∀ action, action ∉ s.queue p := fun p action haction =>
    List.not_mem_nil (hempty p ▸ haction)
  exact ⟨hinit, hidle, hfree, fun p a ha => absurd ha (hnone p a), fun p a ha => absurd ha (hnone p a)⟩

theorem Ready.processActions_eq (h : s.Ready) (startTime now endTime : ℤ) :
    ∃ s' handled, Batched s s' handled ∧
      s.processActions startTime now endTime = (s'.swept startTime now endTime, some true, handled) := by
  obtain ⟨-, hclosed⟩ | ⟨s', handled, hbatched, -, -, heq⟩ := s.processActions_cases startTime now endTime
  · exact absurd ⟨h.initialized, h.idle⟩ hclosed
  · refine ⟨s', handled, hbatched, ?_⟩
    rw [heq, h.free, if_neg Bool.false_ne_true]

theorem Ready.combatStep (h : s.Ready) (startTime now endTime : ℤ) :
    (combatStep s (.processActions startTime now endTime)).Ready := by
  obtain ⟨s', handled, hbatched, heq⟩ := h.processActions_eq startTime now endTime
  have hmem : ∀ p, ∀ action ∈ (s'.swept startTime now endTime).queue p, action ∈ s.queue p := by
    intro p action haction
    rw [queue_swept, hbatched.queue] at haction
    exact List.mem_of_mem_drop (List.mem_of_mem_filter haction)
  rw [CombatOptimizer.combatStep, heq]
  refine ⟨?_, rfl, rfl, fun p a ha => h.sorted p a (hmem p a ha), fun p a ha => h.undone p a (hmem p a ha)⟩
  exact hbatched.alike.initialized.trans h.initialized

theorem Ready.unmarked_take (h : s.Ready) (p : CombatPriority) :
    unmarked ((s.queue p).take s.batchSize.toNat) = (s.queue p).take s.batchSize.toNat := by
  refine List.filter_eq_self.mpr fun a ha => ?_
  rw [h.undone p a (List.mem_of_mem_take ha)]
  rfl

theorem Ready.ofPriority_handled (h : s.Ready) (startTime now endTime : ℤ) (p : CombatPriority) :
    ofPriority p ((s.handled (.processActions startTime now endTime)).map Prod.fst)
      = (s.queue p).take s.batchSize.toNat := by
  obtain ⟨s', handled, hbatched, heq⟩ := h.processActions_eq startTime now endTime
  have hbatch (p' : CombatPriority) : ofPriority p ((s.queue p').take s.batchSize.toNat)
      = if p' = p then (s.queue p').take s.batchSize.toNat else [] := by
    have hpriority : ∀ a ∈ (s.queue p').take s.batchSize.toNat, a.priority = p' :=
      fun a ha => h.sorted p' a (List.mem_of_mem_take ha)
    split_ifs with hp
    · exact List.filter_eq_self.mpr fun a ha => decide_eq_true ((hpriority a ha).trans hp)
    · exact List.filter_eq_nil_iff.mpr fun a ha heq =>
        hp ((hpriority a ha).symm.trans (of_decide_eq_true heq))
  have hfst : (fun a : CombatAction => (withCall a).1) = id := rfl
  rw [CombatOptimizer.handled, heq, hbatched.handled, List.map_map, Function.comp_def, hfst, List.map_id]
  simp only [priorities, List.flatMap_cons, List.flatMap_nil, List.append_nil, h.unmarked_take]
  simp only [ofPriority, List.filter_append] at hbatch ⊢
  rw [hbatch, hbatch, hbatch, hbatch]
  cases p <;> simp

theorem Ready.account (h : s.Ready) {p : CombatPriority} {times : List ℤ}
    {book : Book CombatAction Fate} {came out : List CombatAction}
    (hbook : Account (Meets times) .processed book came (s.queue p) out) (startTime now endTime : ℤ) :
    ∃ book', Account (Meets (times ++ [now])) .processed book' came
      ((CombatOptimizer.combatStep s (.processActions startTime now endTime)).queue p)
      (out ++ ofPriority p ((s.handled (.processActions startTime now endTime)).map Prod.fst)) := by
  obtain ⟨s', handled, hbatched, heq⟩ := h.processActions_eq startTime now endTime
  have hmore : ∀ a x, Meets times a x → Meets (times ++ [now]) a x := by
    rintro a (_ | clock) hx
    · trivial
    · exact ⟨List.mem_append_left _ hx.1, hx.2⟩
  have hold (action : CombatAction) (hage : decide (now - action.timestamp > maxAge) = true) :
      Meets (times ++ [now]) action (.expired now) :=
    ⟨List.mem_append_right _ (List.mem_singleton_self now), of_decide_eq_true hage⟩
  have hlost : Fate.expired now ≠ .processed := nofun
  have hdue (action : CombatAction) : Meets (times ++ [now]) action .processed := trivial
  have hswept := ((hbook.mono hmore).drain hdue s.batchSize.toNat).sweep hlost hold
  have hall : ((s.queue p).take s.batchSize.toNat).filter (fun _ => Fate.processed = .processed)
      = (s.queue p).take s.batchSize.toNat := List.filter_eq_self.mpr fun _ _ => rfl
  have hsame : cleanupQueue now ((s.queue p).drop s.batchSize.toNat)
      = ((s.queue p).drop s.batchSize.toNat).filter
          fun action => !decide (now - action.timestamp > maxAge) :=
    List.filter_congr fun action _ => decide_not
  rw [h.ofPriority_handled, CombatOptimizer.combatStep, heq, queue_swept, hbatched.queue, hsame]
  exact ⟨_, hall ▸ hswept⟩

theorem stats_combatStep (s : CombatOptimizer) (op : CombatOp) :
    (combatStep s op).stats.totalActions = s.stats.totalActions ∧
      (combatStep s op).stats.droppedActions = s.stats.droppedActions := by
  cases op with
  | addAction action =>
    rw [combatStep, (s.addAction_keeps action).2.1]
    exact ⟨rfl, rfl⟩
  | processActions startTime now endTime =>
    rw [combatStep]
    obtain ⟨heq, -⟩ | ⟨s', handled, hbatched, -, -, heq⟩ := s.processActions_cases startTime now endTime
    · rw [heq]
      exact ⟨rfl, rfl⟩
    · have htotal : s'.stats.totalActions = s.stats.totalActions := hbatched.alike.totalActions
      have hdropped : s'.stats.droppedActions = s.stats.droppedActions := hbatched.alike.droppedActions
      rw [heq]
      cases s.queueMutex <;> exact ⟨htotal, hdropped⟩

theorem stats_run (s : CombatOptimizer) (ops : List CombatOp) :
    (Run.run combatStep s ops).stats.totalActions = s.stats.totalActions ∧
      (Run.run combatStep s ops).stats.droppedActions = s.stats.droppedActions :=
  Run.invariant_run (I := fun t => t.stats.totalActions = s.stats.totalActions ∧
      t.stats.droppedActions = s.stats.droppedActions)
    (fun t op h => ⟨(stats_combatStep t op).1.trans h.1, (stats_combatStep t op).2.trans h.2⟩)
    ⟨rfl, rfl⟩ ops

theorem collect_accepted (s : CombatOptimizer) (ops : List CombatOp) :
    Run.collect combatStep accepted s ops = [] := by
  refine List.eq_nil_iff_forall_not_mem.mpr ?_
  refine Run.forall_mem_collect (P := fun _ => False) (fun t op a ha => ?_) s ops
  cases op with
  | addAction action =>
    rw [accepted, if_neg (t.addAction_ne_true action)] at ha
    exact List.not_mem_nil ha
  | processActions startTime now endTime => exact List.not_mem_nil ha

end Steps

/-- Of the actions that waited at the start or were accepted, those of each priority that were
processed, in order, and those that still wait behind them are a part; each of the others was too old
when it was swept out; and the calls that add are counted. -/
structure Accounted (s₀ : CombatOptimizer) (ops : List CombatOp) : Prop where
  inOrder : ∀ p, (ofPriority p ((Run.collect combatStep handled s₀ ops).map Prod.fst)
    ++ (Run.run combatStep s₀ ops).queue p).Sublist
      (s₀.queue p ++ ofPriority p (Run.collect combatStep accepted s₀ ops))
  fates : ∀ p, ∃ book, Account (Meets (clocks ops)) .processed book
    (s₀.queue p ++ ofPriority p (Run.collect combatStep accepted s₀ ops))
    ((Run.run combatStep s₀ ops).queue p)
    (ofPriority p ((Run.collect combatStep handled s₀ ops).map Prod.fst))
  counted : (Run.run combatStep s₀ ops).stats.totalActions.toNat
      + (Run.run combatStep s₀ ops).stats.droppedActions.toNat
    = s₀.stats.totalActions.toNat + s₀.stats.droppedActions.toNat + additions ops

section Runs
variable {s : CombatOptimizer} {ops : List CombatOp}

theorem Ready.account_run (h : s.Ready) (hops : ∀ action, .addAction action ∉ ops)
    {p : CombatPriority} {times : List ℤ} {book : Book CombatAction Fate} {came out : List CombatAction}
    (hbook : Account (Meets times) .processed book came (s.queue p) out) :
    ∃ book', Account (Meets (times ++ clocks ops)) .processed book' came
      ((Run.run CombatOptimizer.combatStep s ops).queue p)
      (out ++ ofPriority p ((Run.collect CombatOptimizer.combatStep handled s ops).map Prod.fst)) := by
  induction ops generalizing s times book out with
  | nil =>
    refine ⟨book, ?_⟩
    simpa [Run.collect, Run.run, clocks, ofPriority] using hbook
  | cons op ops ih =>
    cases op with
    | addAction action => exact absurd List.mem_cons_self (hops action)
    | processActions startTime now endTime =>
      obtain ⟨book', hbook'⟩ := h.account hbook startTime now endTime
      obtain ⟨book'', hbook''⟩ := ih (h.combatStep startTime now endTime)
        (fun action hmem => hops action (List.mem_cons_of_mem _ hmem)) hbook'
      refine ⟨book'', ?_⟩
      have hclocks : clocks (.processActions startTime now endTime :: ops) = [now] ++ clocks ops := rfl
      rw [hclocks, Run.collect, Run.run, List.map_append, ofPriority, List.filter_append,
        ← List.append_assoc, ← List.append_assoc]
      exact hbook''

theorem account_append {book : Book CombatAction Fate} {came line out : List CombatAction}
    (h : Account (Meets []) .processed book came line out) (actions : List CombatAction) :
    ∃ book', Account (Meets []) .processed book' (came ++ actions) (line ++ actions) out := by
  induction actions generalizing book came line with
  | nil =>
    rw [List.append_nil, List.append_nil]
    exact ⟨book, h⟩
  | cons action actions ih =>
    have hnext := ih (h.push action)
    rwa [List.append_assoc, List.append_assoc] at hnext

theorem additions_eq_zero_iff : additions ops = 0 ↔ ∀ action, .addAction action ∉ ops := by
  rw [additions, List.countP_eq_zero]
  constructor
  · exact fun h action hmem => h _ hmem rfl
  · rintro h (action | ⟨startTime, now, endTime⟩) hmem
    · exact absurd hmem (h action)
    · exact Bool.false_ne_true

theorem Ready.accounted_iff (h : s.Ready) : Accounted s ops ↔ additions ops = 0 := by
  obtain ⟨htotal, hdropped⟩ := stats_run s ops
  constructor
  · intro hall
    have hcounted := hall.counted
    rw [htotal, hdropped] at hcounted
    omega
  · intro hnone
    have hfates (p : CombatPriority) : ∃ book, Account (Meets (clocks ops)) .processed book (s.queue p)
        ((Run.run CombatOptimizer.combatStep s ops).queue p)
        (ofPriority p ((Run.collect CombatOptimizer.combatStep handled s ops).map Prod.fst)) := by
      obtain ⟨book, hbook⟩ := account_append account_nil (s.queue p)
      exact h.account_run (additions_eq_zero_iff.mp hnone) hbook
    have hcame (p : CombatPriority) :
        s.queue p ++ ofPriority p (Run.collect CombatOptimizer.combatStep accepted s ops) = s.queue p := by
      rw [collect_accepted]
      exact List.append_nil _
    refine ⟨fun p => ?_, fun p => ?_, ?_⟩
    · obtain ⟨book, hbook⟩ := hfates p
      rw [hcame]
      exact hbook.sublist
    · rw [hcame]
      exact hfates p
    · rw [htotal, hdropped, hnone, Nat.add_zero]

end Runs

/-- From any state at work, a run is accounted for at every point exactly if nothing is added in it. -/
theorem accounted_run_iff {s : CombatOptimizer} (h : s.Ready) (ops : List CombatOp) :
    (∀ n, Accounted s (ops.take n)) ↔ ∀ action, .addAction action ∉ ops := by
  constructor
  · intro hall
    have hwhole := hall ops.length
    rw [List.take_length] at hwhole
    exact additions_eq_zero_iff.mp (h.accounted_iff.mp hwhole)
  · intro hnone n
    refine h.accounted_iff.mpr (additions_eq_zero_iff.mpr fun action hmem => ?_)
    exact hnone action (List.mem_of_mem_take hmem)

theorem accounted_run_iff_idle :
    Accounted { initialized := true } [.processActions 1 2 3, .processActions 4 5 6] := by
  have hempty (p : CombatPriority) : ({ initialized := true } : CombatOptimizer).queue p = [] := by
    cases p <;> rfl
  have hready : ({ initialized := true } : CombatOptimizer).Ready := ready_of_empty rfl rfl rfl hempty
  have hall := (accounted_run_iff hready [.processActions 1 2 3, .processActions 4 5 6]).mpr
    fun action => by simp
  exact hall 2

theorem not_accounted_add :
    ¬ Accounted { initialized := true } [.addAction {}] ∧
      (({ initialized := true } : CombatOptimizer).addAction {}).2 = none := by
  refine ⟨fun h => ?_, by decide⟩
  have hcounted := h.counted
  revert hcounted
  decide

end CombatOptimizer
end WitcherMP.Combat
