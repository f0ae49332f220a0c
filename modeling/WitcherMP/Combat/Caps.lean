import WitcherMP.Combat.Ledger

/-! How full the queues get. Each has a cap of its own, and together the caps come to more than the
size; but a call that adds an action stops at the lock, so the queues only ever lose actions. -/

namespace WitcherMP.Combat.CombatOptimizer

def Bounded (s : CombatOptimizer) : Prop := s.totalSize ≤ s.maxQueueSize.toNat

instance (s : CombatOptimizer) : Decidable s.Bounded := inferInstanceAs (Decidable (_ ≤ _))

variable {s s' : CombatOptimizer}

theorem totalSize_le (h : ∀ p, (s'.queue p).length ≤ (s.queue p).length) :
    s'.totalSize ≤ s.totalSize := by
  have hcritical : s'.criticalQueue.length ≤ s.criticalQueue.length := h .critical
  have hhigh : s'.highQueue.length ≤ s.highQueue.length := h .high
  have hmedium : s'.mediumQueue.length ≤ s.mediumQueue.length := h .medium
  have hlow : s'.lowQueue.length ≤ s.lowQueue.length := h .low
  unfold totalSize
  omega

theorem length_combatStep_le (s : CombatOptimizer) (op : CombatOp) (p : CombatPriority) :
    ((combatStep s op).queue p).length ≤ (s.queue p).length := by
  cases op with
  | addAction action => rw [combatStep, (s.addAction_keeps action).1]
  | processActions startTime now endTime =>
    rw [combatStep]
    obtain ⟨heq, -⟩ | ⟨s', handled, hbatched, -, -, heq⟩ := s.processActions_cases startTime now endTime
    · rw [heq]
    · have hdropped : (s'.queue p).length ≤ (s.queue p).length := by
        rw [hbatched.queue]
        exact (List.drop_sublist ..).length_le
      rw [heq]
      cases s.queueMutex with
      | true => exact hdropped
      | false =>
        have hswept := queue_swept s' startTime now endTime p
        change ((s'.swept startTime now endTime).queue p).length ≤ _
        rw [hswept]
        exact Nat.le_trans (List.length_filter_le ..) hdropped

theorem maxQueueSize_combatStep (s : CombatOptimizer) (op : CombatOp) :
    (combatStep s op).maxQueueSize = s.maxQueueSize := by
  cases op with
  | addAction action => exact (s.addAction_keeps action).2.2
  | processActions startTime now endTime =>
    rw [combatStep]
    obtain ⟨heq, -⟩ | ⟨s', handled, hbatched, -, -, heq⟩ := s.processActions_cases startTime now endTime
    · rw [heq]
    · have hsize : s'.maxQueueSize = s.maxQueueSize := hbatched.alike.maxQueueSize
      rw [heq]
      cases s.queueMutex <;> exact hsize

theorem Bounded.combatStep (h : s.Bounded) (op : CombatOp) : (combatStep s op).Bounded := by
  rw [Bounded, maxQueueSize_combatStep]
  exact Nat.le_trans (totalSize_le (s.length_combatStep_le op)) h

/-- From any state within the size, every run stays within it. -/
theorem bounded_run (h : s.Bounded) (ops : List CombatOp) : (Run.run combatStep s ops).Bounded :=
  Run.invariant_run (fun _ op hs => hs.combatStep op) h ops

theorem bounded_run_four :
    (Run.run combatStep { initialized := true, maxQueueSize := 4 }
      [.addAction { priority := .low }, .addAction { priority := .medium },
        .addAction { priority := .medium }, .addAction { priority := .high },
        .addAction { priority := .critical }]).Bounded :=
  bounded_run (by decide) _

end WitcherMP.Combat.CombatOptimizer
