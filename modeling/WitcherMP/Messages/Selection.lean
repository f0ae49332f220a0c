import WitcherMP.Messages.Ledger

/-! What the selection by priority hands out and what it leaves. It counts only after it has taken
a message, so that of none it still takes one. -/

namespace WitcherMP.Messages.MessagePriorityQueue

variable {T : Type} [Inhabited T] {Q : Type} [BagQueue (PrioritizedMessage T) Q]

def contents (queue : MessagePriorityQueue Q) : Multiset (PrioritizedMessage T) :=
  BagQueue.bag queue.messageQueue

theorem contents_pushBack (queue : MessagePriorityQueue Q) (ms : List (PrioritizedMessage T)) :
    contents (pushBack queue ms) = ↑ms + contents queue :=
  BagQueue.bag_pushAll queue.messageQueue ms

theorem contents_of_not_hasMessages {queue : MessagePriorityQueue Q}
    (h : hasMessages queue = false) : contents queue = 0 := by
  rw [hasMessages, decide_eq_false_iff_not, not_not, BagQueue.size_eq] at h
  exact Multiset.card_eq_zero.mp h

section Clock
variable (clock : ℕ → ℚ)

structure Selection.Sorted (priority : MessagePriority) (l : Selection T Q) : Prop where
  messages : ∀ m ∈ l.messages, m.classification.priority = priority
  tempMessages : ∀ m ∈ l.tempMessages, m.classification.priority ≠ priority

theorem forall_mem_concat {P : PrioritizedMessage T → Prop} {ms : List (PrioritizedMessage T)}
    {m : PrioritizedMessage T} (hms : ∀ x ∈ ms, P x) (hm : P m) : ∀ x ∈ ms ++ [m], P x :=
  List.forall_mem_append.mpr ⟨hms, List.forall_mem_singleton.mpr hm⟩

theorem selectByPriority_sorted (priority : MessagePriority) (maxCount fuel : ℕ)
    {l : Selection T Q} (h : l.Sorted priority) :
    (selectByPriority clock priority maxCount fuel l).Sorted priority := by
  induction fuel generalizing l with
  | zero => exact h
  | succ fuel ih =>
    rw [selectByPriority]
    split
    case isFalse => exact h
    case isTrue =>
      dsimp only
      split
      · next hpriority =>
        have htaken := forall_mem_concat h.messages hpriority
        split
        · exact ⟨htaken, h.tempMessages⟩
        · exact ih ⟨htaken, h.tempMessages⟩
      · next hother => exact ih ⟨h.messages, forall_mem_concat h.tempMessages hother⟩

theorem length_selectByPriority_le (priority : MessagePriority) (maxCount fuel : ℕ)
    {l : Selection T Q} (h : l.messages.length < max maxCount 1) :
    (selectByPriority clock priority maxCount fuel l).messages.length ≤ max maxCount 1 := by
  induction fuel generalizing l with
  | zero => exact h.le
  | succ fuel ih =>
    rw [selectByPriority]
    split
    case isFalse => exact h.le
    case isTrue =>
      dsimp only
      split
      · split
        · simp only [List.length_append, List.length_singleton]
          omega
        · next hfew =>
          simp only [List.length_append, List.length_singleton] at hfew
          apply ih
          simp only [List.length_append, List.length_singleton]
          omega
      · exact ih h

def selected (priority : MessagePriority) (maxCount : ℕ) (queue : MessagePriorityQueue Q) :
    Selection T Q :=
  selectByPriority clock priority maxCount (BagQueue.size queue.messageQueue) ⟨[], [], queue⟩

theorem selected_sorted (priority : MessagePriority) (maxCount : ℕ)
    (queue : MessagePriorityQueue Q) : (selected clock priority maxCount queue).Sorted priority :=
  selectByPriority_sorted clock priority maxCount _
    ⟨fun _ h => absurd h List.not_mem_nil, fun _ h => absurd h List.not_mem_nil⟩

theorem selected_kept (priority : MessagePriority) (maxCount : ℕ)
    (queue : MessagePriorityQueue Q) :
    Selection.Kept ⟨[], [], queue⟩ (selected clock priority maxCount queue) :=
  selectByPriority_kept clock priority maxCount _ _

theorem selected_stops (priority : MessagePriority) (maxCount : ℕ)
    (queue : MessagePriorityQueue Q) :
    contents (selected clock priority maxCount queue).queue = 0 ∨
      (selected clock priority maxCount queue).messages ≠ [] ∧
        maxCount ≤ (selected clock priority maxCount queue).messages.length := by
  have hstops := selectByPriority_stops clock priority maxCount (l := ⟨[], [], queue⟩) le_rfl
  exact hstops.imp_left contents_of_not_hasMessages

theorem exists_contents_of_mem_messages {priority : MessagePriority} {maxCount : ℕ}
    {queue : MessagePriorityQueue Q} {m : PrioritizedMessage T}
    (hm : m ∈ (selected clock priority maxCount queue).messages) :
    ∃ x ∈ contents queue, x.classification = m.classification := by
  have hsent : m.sent ∈ waiting queue := by
    have hheld := (selected_kept clock priority maxCount queue).1
    rw [Selection.held, Selection.held, sentAll_nil, zero_add, zero_add] at hheld
    rw [← hheld, Multiset.mem_add, Multiset.mem_add]
    exact Or.inl (Or.inl (Multiset.mem_coe.mpr (List.mem_map_of_mem hm)))
  obtain ⟨x, hx, heq⟩ := Multiset.mem_map.mp hsent
  exact ⟨x, hx, congrArg (fun m => m.classification) heq⟩

theorem exists_tempMessages_of_mem_contents {priority : MessagePriority} {maxCount : ℕ}
    {queue : MessagePriorityQueue Q}
    (hnone : (selected clock priority maxCount queue).messages = [])
    {x : PrioritizedMessage T} (hx : x ∈ contents queue) :
    ∃ m ∈ (selected clock priority maxCount queue).tempMessages,
      m.classification = x.classification := by
  have hend := (selected_stops clock priority maxCount queue).resolve_right fun h => h.1 hnone
  have hempty : waiting (selected clock priority maxCount queue).queue = 0 := by
    rw [waiting, ← contents, hend, Multiset.map_zero]
  have hsent : x.sent ∈ waiting queue := Multiset.mem_map_of_mem _ hx
  have hheld := (selected_kept clock priority maxCount queue).1
  rw [Selection.held, Selection.held, hnone, hempty, sentAll_nil, zero_add, zero_add, zero_add,
    add_zero] at hheld
  rw [← hheld] at hsent
  obtain ⟨m, hm, heq⟩ := List.mem_map.mp (Multiset.mem_coe.mp hsent)
  exact ⟨m, hm, congrArg (fun m => m.classification) heq⟩

/-- At most as many messages as asked for, all of the priority, and if they are fewer, none of it
is left. -/
def Selects (priority : MessagePriority) (maxCount : ℕ) (queue : MessagePriorityQueue Q) : Prop :=
  let r := popMessagesByPriority clock priority maxCount queue
  r.1.length ≤ maxCount ∧ (∀ m ∈ r.1, m.classification.priority = priority) ∧
    (r.1.length < maxCount → ∀ m ∈ contents r.2, m.classification.priority ≠ priority)

variable {clock} {priority : MessagePriority} {maxCount : ℕ} {queue : MessagePriorityQueue Q}

theorem selects_of_pos (hpos : 0 < maxCount) : Selects clock priority maxCount queue := by
  obtain ⟨hmessages, htemp⟩ := selected_sorted clock priority maxCount queue
  have hle : (selected clock priority maxCount queue).messages.length ≤ max maxCount 1 :=
    length_selectByPriority_le clock priority maxCount _ (by rw [List.length_nil]; omega)
  refine ⟨hle.trans (by omega), hmessages, fun hfew m hm => ?_⟩
  have hend := (selected_stops clock priority maxCount queue).resolve_right
    fun h => absurd h.2 (not_le.mpr hfew)
  rw [popMessagesByPriority, contents_pushBack, ← selected, hend, add_zero] at hm
  exact htemp m hm

theorem selects_of_none (hnone : ∀ m ∈ contents queue, m.classification.priority ≠ priority) :
    Selects clock priority 0 queue := by
  obtain ⟨hmessages, -⟩ := selected_sorted clock priority 0 queue
  have hnil : (selected clock priority 0 queue).messages = [] := by
    apply List.eq_nil_iff_forall_not_mem.mpr
    intro m hm
    obtain ⟨x, hx, heq⟩ := exists_contents_of_mem_messages clock hm
    exact hnone x hx (heq ▸ hmessages m hm)
  exact ⟨(congrArg List.length hnil).le, hmessages, fun hlt => absurd hlt (Nat.not_lt_zero _)⟩

theorem none_of_selects_zero (h : Selects clock priority 0 queue) :
    ∀ m ∈ contents queue, m.classification.priority ≠ priority := by
  intro x hx hpriority
  have hnil : (selected clock priority 0 queue).messages = [] :=
    List.eq_nil_of_length_eq_zero (Nat.le_zero.mp h.1)
  obtain ⟨m, hm, heq⟩ := exists_tempMessages_of_mem_contents clock hnil hx
  exact (selected_sorted clock priority 0 queue).tempMessages m hm (heq ▸ hpriority)

/-- It does as asked exactly if it is asked for some messages, or there is none to take. -/
theorem selects_iff (clock : ℕ → ℚ) (priority : MessagePriority) (maxCount : ℕ)
    (queue : MessagePriorityQueue Q) :
    Selects clock priority maxCount queue ↔
      maxCount ≠ 0 ∨ ∀ m ∈ contents queue, m.classification.priority ≠ priority := by
  rcases Nat.eq_zero_or_pos maxCount with rfl | hpos
  · rw [or_iff_right (not_not.mpr rfl)]
    exact ⟨none_of_selects_zero, selects_of_none⟩
  · exact iff_of_true (selects_of_pos hpos) (Or.inl hpos.ne')

theorem not_selects_zero :
    ¬ ∀ (clock : ℕ → ℚ) (priority : MessagePriority) (maxCount : ℕ)
      (queue : MessagePriorityQueue (SortedQueue fun a b : PrioritizedMessage ℕ =>
        messageComparator b a)), Selects clock priority maxCount queue := by
  intro h
  have hnone := none_of_selects_zero
    (h (fun n => n) .medium 0 (pushMessage (fun n => n) (initial 1) { messageId := 1 }))
  exact absurd hnone (by decide +kernel)

end Clock
end WitcherMP.Messages.MessagePriorityQueue
