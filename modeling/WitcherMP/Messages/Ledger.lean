import WitcherMP.Messages.Queue
import WitcherMP.Lib.Run
import Mathlib.Algebra.Order.Group.Multiset
import Mathlib.Tactic.Abel

/-! No message is lost or handed out twice, whatever the underlying queue does with its
order, and the queue never outgrows its limit. -/

namespace WitcherMP.Messages

section Sent
variable {T : Type} [Inhabited T]

def PrioritizedMessage.sent (message : PrioritizedMessage T) : PrioritizedMessage T :=
  { message with timestamp := 0, age := 0 }

def sentAll (messages : List (PrioritizedMessage T)) : Multiset (PrioritizedMessage T) :=
  ↑(messages.map PrioritizedMessage.sent)

@[simp] theorem sentAll_nil : sentAll ([] : List (PrioritizedMessage T)) = 0 := rfl

theorem sentAll_cons (m : PrioritizedMessage T) (ms : List (PrioritizedMessage T)) :
    sentAll (m :: ms) = m.sent ::ₘ sentAll ms := rfl

theorem sentAll_append (ms ns : List (PrioritizedMessage T)) :
    sentAll (ms ++ ns) = sentAll ms + sentAll ns := by
  rw [sentAll, List.map_append, ← Multiset.coe_add]
  rfl

end Sent

namespace MessagePriorityQueue
variable {T : Type} [Inhabited T] {Q : Type} [BagQueue (PrioritizedMessage T) Q]

def waiting (queue : MessagePriorityQueue Q) : Multiset (PrioritizedMessage T) :=
  (BagQueue.bag queue.messageQueue).map PrioritizedMessage.sent

def count (queue : MessagePriorityQueue Q) : ℕ := BagQueue.size queue.messageQueue

theorem count_eq_card (queue : MessagePriorityQueue Q) :
    queue.count = (waiting queue).card := by
  rw [count, BagQueue.size_eq, waiting, Multiset.card_map]

def SameLimits (queue queue' : MessagePriorityQueue Q) : Prop :=
  queue'.maxQueueSize = queue.maxQueueSize ∧
    queue'.stats.droppedMessages = queue.stats.droppedMessages

theorem SameLimits.refl (queue : MessagePriorityQueue Q) : SameLimits queue queue := ⟨rfl, rfl⟩

theorem SameLimits.trans {a b c : MessagePriorityQueue Q} (h : SameLimits a b)
    (h' : SameLimits b c) : SameLimits a c := ⟨h'.1.trans h.1, h'.2.trans h.2⟩

section Clock
variable (clock : ℕ → ℚ)

theorem hasMessages_iff (queue : MessagePriorityQueue Q) :
    hasMessages queue = true ↔ ∃ top, BagQueue.top? queue.messageQueue = some top := by
  rw [hasMessages, decide_eq_true_eq]
  cases h : BagQueue.top? queue.messageQueue with
  | none => simp [BagQueue.size_eq, BagQueue.bag_of_top?_none _ h]
  | some top =>
    have hpop := BagQueue.size_pop h
    exact iff_of_true (by omega) ⟨top, rfl⟩

theorem hasMessages_of_count {queue : MessagePriorityQueue Q} (h : queue.count = 0) :
    hasMessages queue = false := by
  rw [hasMessages, decide_eq_false_iff_not, not_not]
  exact h

theorem pushMessage_waiting (queue : MessagePriorityQueue Q) (message : PrioritizedMessage T) :
    waiting (pushMessage clock queue message) = waiting queue +
      if queue.count < queue.maxQueueSize then {message.sent} else 0 := by
  rw [pushMessage, count]
  by_cases hfull : queue.maxQueueSize ≤ BagQueue.size queue.messageQueue
  · rw [if_pos hfull, if_neg (not_lt.mpr hfull), add_zero]
    rfl
  · rw [if_neg hfull, if_pos (not_le.mp hfull), waiting, BagQueue.bag_push, Multiset.map_cons,
      add_comm, Multiset.singleton_add]
    rfl

theorem popMessage_waiting {queue : MessagePriorityQueue Q} (h : hasMessages queue = true) :
    (popMessage clock queue).1.sent ::ₘ waiting (popMessage clock queue).2 = waiting queue ∧
      SameLimits queue (popMessage clock queue).2 ∧
      (popMessage clock queue).2.count + 1 = queue.count := by
  obtain ⟨top, htop⟩ := (hasMessages_iff queue).mp h
  simp only [popMessage, htop]
  refine ⟨?_, ⟨rfl, rfl⟩, BagQueue.size_pop htop⟩
  rw [waiting, waiting, ← BagQueue.bag_pop _ _ htop, Multiset.map_cons]
  rfl

theorem popMessages_waiting (maxCount : ℕ) (queue : MessagePriorityQueue Q) :
    sentAll (popMessages clock maxCount queue).1 + waiting (popMessages clock maxCount queue).2 =
        waiting queue ∧
      SameLimits queue (popMessages clock maxCount queue).2 := by
  induction maxCount generalizing queue with
  | zero => exact ⟨by simp [popMessages], .refl queue⟩
  | succ maxCount ih =>
    rw [popMessages]
    split
    case isFalse => exact ⟨by simp, .refl queue⟩
    case isTrue h =>
      obtain ⟨hpop, hsame, -⟩ := popMessage_waiting clock h
      obtain ⟨hrest, hsame'⟩ := ih (popMessage clock queue).2
      refine ⟨?_, hsame.trans hsame'⟩
      rw [sentAll_cons, Multiset.cons_add, hrest, hpop]

theorem popMessages_count (maxCount : ℕ) (queue : MessagePriorityQueue Q) :
    (popMessages clock maxCount queue).2.count = queue.count - maxCount := by
  induction maxCount generalizing queue with
  | zero => rfl
  | succ maxCount ih =>
    rw [popMessages]
    split_ifs with hmore
    · obtain ⟨-, -, hcount⟩ := popMessage_waiting clock hmore
      dsimp only
      rw [ih]
      omega
    · have hnone : queue.count = 0 := by
        rw [hasMessages, decide_eq_true_eq, not_not] at hmore
        exact hmore
      dsimp only
      rw [hnone, Nat.zero_sub]

def Selection.held (l : Selection T Q) : Multiset (PrioritizedMessage T) :=
  sentAll l.messages + sentAll l.tempMessages + waiting l.queue

def Selection.Kept (l l' : Selection T Q) : Prop :=
  l'.held = l.held ∧ SameLimits l.queue l'.queue

theorem Selection.Kept.refl (l : Selection T Q) : Kept l l := ⟨rfl, .refl l.queue⟩

theorem Selection.Kept.trans {a b c : Selection T Q} (h : Kept a b) (h' : Kept b c) : Kept a c :=
  ⟨h'.1.trans h.1, h.2.trans h'.2⟩

theorem Selection.kept_take {l : Selection T Q} (h : hasMessages l.queue = true)
    {queue : MessagePriorityQueue Q} (hw : waiting queue = waiting (popMessage clock l.queue).2)
    (hsame : SameLimits (popMessage clock l.queue).2 queue) :
    Kept l { l with messages := l.messages ++ [(popMessage clock l.queue).1], queue := queue } := by
  obtain ⟨hpop, hsame', -⟩ := popMessage_waiting clock h
  refine ⟨?_, hsame'.trans hsame⟩
  rw [held, held, sentAll_append, sentAll_cons, sentAll_nil, hw, ← hpop]
  simp only [Multiset.add_cons, Multiset.cons_add, add_zero]

theorem Selection.kept_skip {l : Selection T Q} (h : hasMessages l.queue = true) :
    Kept l { l with
      tempMessages := l.tempMessages ++ [(popMessage clock l.queue).1]
      queue := (popMessage clock l.queue).2 } := by
  obtain ⟨hpop, hsame, -⟩ := popMessage_waiting clock h
  refine ⟨?_, hsame⟩
  rw [held, held, sentAll_append, sentAll_cons, sentAll_nil, ← hpop]
  simp only [Multiset.add_cons, Multiset.cons_add, add_zero]

theorem selectByPriority_kept (priority : MessagePriority) (maxCount fuel : ℕ)
    (l : Selection T Q) : l.Kept (selectByPriority clock priority maxCount fuel l) := by
  induction fuel generalizing l with
  | zero => exact .refl l
  | succ fuel ih =>
    rw [selectByPriority]
    split
    case isFalse => exact .refl l
    case isTrue h =>
    dsimp only
    split
    · have htake := Selection.kept_take clock h rfl (.refl _)
      split
      · exact htake
      · exact htake.trans (ih _)
    · exact (Selection.kept_skip clock h).trans (ih _)

theorem selectExpired_kept (fuel : ℕ) (l : Selection T Q) :
    l.Kept (selectExpired clock fuel l) := by
  induction fuel generalizing l with
  | zero => exact .refl l
  | succ fuel ih =>
    rw [selectExpired]
    split
    case isFalse => exact .refl l
    case isTrue h =>
    dsimp only
    split
    · exact (Selection.kept_take clock h rfl ⟨rfl, rfl⟩).trans (ih _)
    · exact (Selection.kept_skip clock h).trans (ih _)

theorem selectExpired_drains {fuel : ℕ} {l : Selection T Q} (h : l.queue.count ≤ fuel) :
    hasMessages (selectExpired clock fuel l).queue = false := by
  induction fuel generalizing l with
  | zero => exact hasMessages_of_count (Nat.le_zero.mp h)
  | succ fuel ih =>
    rw [selectExpired]
    split
    case isFalse hno => simpa using hno
    case isTrue hyes =>
      obtain ⟨-, -, hcount⟩ := popMessage_waiting clock hyes
      dsimp only
      split <;> refine ih ?_ <;> simp only [count] at h hcount ⊢ <;> omega

theorem selectByPriority_stops (priority : MessagePriority) (maxCount : ℕ) {fuel : ℕ}
    {l : Selection T Q} (h : l.queue.count ≤ fuel) :
    hasMessages (selectByPriority clock priority maxCount fuel l).queue = false ∨
      (selectByPriority clock priority maxCount fuel l).messages ≠ [] ∧
        maxCount ≤ (selectByPriority clock priority maxCount fuel l).messages.length := by
  induction fuel generalizing l with
  | zero => exact Or.inl (hasMessages_of_count (Nat.le_zero.mp h))
  | succ fuel ih =>
    rw [selectByPriority]
    split
    case isFalse hno => exact Or.inl (by simpa using hno)
    case isTrue hyes =>
      obtain ⟨-, -, hcount⟩ := popMessage_waiting clock hyes
      dsimp only
      split
      · split
        · next hfull => exact Or.inr ⟨List.append_ne_nil_of_right_ne_nil _ (List.cons_ne_nil _ _), hfull⟩
        · refine ih ?_
          simp only [count] at h hcount ⊢
          omega
      · refine ih ?_
        simp only [count] at h hcount ⊢
        omega

theorem selectByPriority_drains (priority : MessagePriority) (maxCount : ℕ) {fuel : ℕ}
    {l : Selection T Q} (h : l.queue.count ≤ fuel) :
    hasMessages (selectByPriority clock priority maxCount fuel l).queue = false ∨
      maxCount ≤ (selectByPriority clock priority maxCount fuel l).messages.length :=
  (selectByPriority_stops clock priority maxCount h).imp_right And.right

theorem waiting_pushBack (queue : MessagePriorityQueue Q) (ms : List (PrioritizedMessage T)) :
    waiting (pushBack queue ms) = sentAll ms + waiting queue := by
  rw [waiting, pushBack, BagQueue.bag_pushAll, Multiset.map_add, Multiset.map_coe]
  rfl

theorem Selection.Kept.pushBack {queue : MessagePriorityQueue Q} {l : Selection T Q}
    (h : Kept ⟨[], [], queue⟩ l) :
    sentAll l.messages + waiting (pushBack l.queue l.tempMessages) = waiting queue ∧
      SameLimits queue (MessagePriorityQueue.pushBack l.queue l.tempMessages) := by
  refine ⟨?_, h.2⟩
  have hheld := h.1
  rw [held, held, sentAll_nil, zero_add, zero_add] at hheld
  rw [waiting_pushBack, ← add_assoc, hheld]

structure Account (T : Type) [Inhabited T] (Q : Type) where
  queue : MessagePriorityQueue Q
  pushed : Multiset (PrioritizedMessage T)
  refused : Multiset (PrioritizedMessage T)
  returned : Multiset (PrioritizedMessage T)

/-- One call and its entry in the account. A pop of the empty queue hands out a default
message that nobody pushed. -/
def step (a : Account T Q) : Op T → Account T Q
  | .push message =>
    { a with
      queue := pushMessage clock a.queue message
      pushed := message.sent ::ₘ a.pushed
      refused :=
        if a.queue.maxQueueSize ≤ a.queue.count then message.sent ::ₘ a.refused else a.refused }
  | .pop =>
    { a with
      queue := (popMessage clock a.queue).2
      returned :=
        if hasMessages a.queue then (popMessage clock a.queue).1.sent ::ₘ a.returned
        else a.returned }
  | .popMany maxCount =>
    { a with
      queue := (popMessages clock maxCount a.queue).2
      returned := sentAll (popMessages clock maxCount a.queue).1 + a.returned }
  | .popByPriority priority maxCount =>
    { a with
      queue := (popMessagesByPriority clock priority maxCount a.queue).2
      returned := sentAll (popMessagesByPriority clock priority maxCount a.queue).1 + a.returned }
  | .popExpired =>
    { a with
      queue := (popExpiredMessages clock a.queue).2
      returned := sentAll (popExpiredMessages clock a.queue).1 + a.returned }

/-- Every message pushed is refused, returned or waiting, the refusals are counted, and the
queue is within its limit. -/
structure Balanced (maxQueueSize : ℕ) (a : Account T Q) : Prop where
  pushed_eq : a.pushed = a.refused + a.returned + waiting a.queue
  dropped_eq : a.queue.stats.droppedMessages = a.refused.card
  limit_eq : a.queue.maxQueueSize = maxQueueSize
  count_le : a.queue.count ≤ maxQueueSize

variable {clock} {maxQueueSize : ℕ} {a : Account T Q}

theorem Balanced.hand_out (h : Balanced maxQueueSize a) {queue : MessagePriorityQueue Q}
    {o : Multiset (PrioritizedMessage T)} (hout : o + waiting queue = waiting a.queue)
    (hsame : SameLimits a.queue queue) :
    Balanced maxQueueSize { a with queue := queue, returned := o + a.returned } where
  pushed_eq := by
    change a.pushed = a.refused + (o + a.returned) + waiting queue
    rw [h.pushed_eq, ← hout]
    abel
  dropped_eq := hsame.2.trans h.dropped_eq
  limit_eq := hsame.1.trans h.limit_eq
  count_le := by
    have hle := h.count_le
    rw [count_eq_card, ← hout, Multiset.card_add] at hle
    rw [count_eq_card]
    exact le_of_add_le_right hle

theorem Balanced.push (h : Balanced maxQueueSize a) (message : PrioritizedMessage T) :
    Balanced maxQueueSize (step clock a (.push message)) := by
  have hpush := pushMessage_waiting clock a.queue message
  by_cases hfull : a.queue.maxQueueSize ≤ BagQueue.size a.queue.messageQueue
  · rw [step, pushMessage, count, if_pos hfull, if_pos hfull]
    refine ⟨?_, ?_, h.limit_eq, h.count_le⟩
    · change message.sent ::ₘ a.pushed = message.sent ::ₘ a.refused + a.returned + waiting a.queue
      rw [h.pushed_eq, Multiset.cons_add, Multiset.cons_add]
    · rw [Multiset.card_cons, ← h.dropped_eq]
  · rw [if_pos (not_le.mp hfull : a.queue.count < a.queue.maxQueueSize), pushMessage,
      if_neg hfull] at hpush
    rw [step, pushMessage, count, if_neg hfull, if_neg hfull]
    refine ⟨?_, h.dropped_eq, h.limit_eq, ?_⟩
    · rw [hpush, add_comm (waiting a.queue), Multiset.singleton_add, Multiset.add_cons, h.pushed_eq]
    · have hmax := h.limit_eq
      rw [count, BagQueue.size_push]
      omega

theorem Balanced.step (h : Balanced maxQueueSize a) (op : Op T) :
    Balanced maxQueueSize (step clock a op) := by
  cases op with
  | push message => exact h.push message
  | pop =>
    rw [MessagePriorityQueue.step]
    split
    · next hyes =>
      obtain ⟨hpop, hsame, -⟩ := popMessage_waiting clock hyes
      have hout := h.hand_out (o := {(popMessage clock a.queue).1.sent}) hpop hsame
      rwa [Multiset.singleton_add] at hout
    · next hno =>
      have htop : BagQueue.top? a.queue.messageQueue = none := by
        rw [hasMessages_iff, not_exists] at hno
        exact Option.eq_none_iff_forall_ne_some.mpr hno
      rw [popMessage, htop]
      exact h
  | popMany maxCount =>
    obtain ⟨hout, hsame⟩ := popMessages_waiting clock maxCount a.queue
    exact h.hand_out hout hsame
  | popByPriority priority maxCount =>
    obtain ⟨hout, hsame⟩ := (selectByPriority_kept clock priority maxCount
      (BagQueue.size a.queue.messageQueue) ⟨[], [], a.queue⟩).pushBack
    exact h.hand_out hout hsame
  | popExpired =>
    obtain ⟨hout, hsame⟩ := (selectExpired_kept clock
      (BagQueue.size a.queue.messageQueue) ⟨[], [], a.queue⟩).pushBack
    exact h.hand_out hout hsame

theorem balanced_initial (maxQueueSize : ℕ) :
    Balanced maxQueueSize (⟨initial maxQueueSize, 0, 0, 0⟩ : Account T Q) where
  pushed_eq := by
    rw [waiting, initial, BagQueue.bag_empty]
    rfl
  dropped_eq := rfl
  limit_eq := rfl
  count_le := by
    rw [count_eq_card, waiting, initial, BagQueue.bag_empty]
    exact Nat.zero_le _

end Clock

/-- Over every run of calls, with any clock and any queue that behaves as a bag, the
account balances. -/
theorem run_balanced (clock : ℕ → ℚ) (maxQueueSize : ℕ) (ops : List (Op T)) :
    Balanced maxQueueSize
      (Run.run (step clock) (⟨initial maxQueueSize, 0, 0, 0⟩ : Account T Q) ops) :=
  Run.invariant_run (fun _ op h => h.step op) (balanced_initial maxQueueSize) ops

example :
    ((Run.run (step fun n => n)
      (⟨initial 2, 0, 0, 0⟩ : Account ℕ (SortedQueue fun a b : PrioritizedMessage ℕ =>
        messageComparator b a))
      [.push { messageId := 1 }, .push { messageId := 2, classification := { priority := .high } },
        .push { messageId := 3 }, .pop]).returned.map fun m => m.messageId) = {2} := by
  decide +kernel

end MessagePriorityQueue
end WitcherMP.Messages
