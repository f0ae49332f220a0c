import WitcherMP.Lib.Heaps
import WitcherMP.Messages.Order
import WitcherMP.Messages.Selection
import Mathlib.Data.List.Lemmas

/-! Whose turn it is among messages of one class. The age that is to tell is set when a message is
popped, so among messages that only wait it is zero, and the queue may hand out any of them. -/

namespace WitcherMP.Messages

variable {T : Type} [Inhabited T]

def PrioritizedMessage.asPushed (message : PrioritizedMessage T) : PrioritizedMessage T :=
  { message with age := 0 }

def PrioritizedMessage.sameClass (a b : PrioritizedMessage T) : Bool :=
  a.classification.priority = b.classification.priority &&
    a.classification.urgency = b.classification.urgency &&
    a.classification.importance = b.classification.importance

namespace MessagePriorityQueue

section InTurn
variable [DecidableEq T]

/-- Each message handed out is the first of its class among those that wait, in the order in which
they were pushed. -/
def InTurn : List (PrioritizedMessage T) → List (PrioritizedMessage T) → Prop
  | _, [] => True
  | log, m :: ms => log.find? m.sameClass = some m.asPushed ∧ InTurn (log.erase m.asPushed) ms

instance decidableInTurn : ∀ log ms : List (PrioritizedMessage T), Decidable (InTurn log ms)
  | _, [] => isTrue trivial
  | log, m :: ms =>
    have : Decidable (InTurn (log.erase m.asPushed) ms) := decidableInTurn _ ms
    inferInstanceAs (Decidable
      (log.find? m.sameClass = some m.asPushed ∧ InTurn (log.erase m.asPushed) ms))

end InTurn

section Clock
variable (clock : ℕ → ℚ)

def aged (reads : ℕ) (message : PrioritizedMessage T) : PrioritizedMessage T :=
  { message with age := clock reads - message.timestamp }

variable {Q : Type}

structure Line (T : Type) [Inhabited T] (Q : Type) where
  queue : MessagePriorityQueue Q
  log : List (PrioritizedMessage T)

def stored (queue : MessagePriorityQueue Q) (message : PrioritizedMessage T) :
    PrioritizedMessage T :=
  { message with timestamp := clock queue.reads, age := 0 }

section Calls
variable [BagQueue (PrioritizedMessage T) Q]

/-- What a call hands out, and the queue after it. The default message that a pop of the empty
queue returns is none that waited. -/
def call (queue : MessagePriorityQueue Q) :
    Op T → List (PrioritizedMessage T) × MessagePriorityQueue Q
  | .push message => ([], pushMessage clock queue message)
  | .pop =>
    let r := popMessage clock queue
    (if hasMessages queue then [r.1] else [], r.2)
  | .popMany maxCount => popMessages clock maxCount queue
  | .popByPriority priority maxCount => popMessagesByPriority clock priority maxCount queue
  | .popExpired => popExpiredMessages clock queue

def entered (queue : MessagePriorityQueue Q) : Op T → List (PrioritizedMessage T)
  | .push message => if queue.maxQueueSize ≤ queue.count then [] else [stored clock queue message]
  | _ => []

def Line.step [DecidableEq T] (l : Line T Q) (op : Op T) : Line T Q where
  queue := (call clock l.queue op).2
  log := (l.log ++ entered clock l.queue op).diff
    ((call clock l.queue op).1.map PrioritizedMessage.asPushed)

end Calls

section Rounds
variable [BagQueue (PrioritizedMessage T) Q] (hands : PrioritizedMessage T → Bool)

/-- A call that takes messages out goes round by round: the top gets its age, and is handed out or set
aside, until enough are handed out or none is left. -/
inductive Rounds : ℕ → Q → ℕ → List (PrioritizedMessage T) → List (PrioritizedMessage T) →
    Q → ℕ → Prop
  | full (q : Q) (reads : ℕ) : Rounds 0 q reads [] [] q reads
  | empty {limit : ℕ} {q : Q} {reads : ℕ} (htop : BagQueue.top? q = none) :
    Rounds limit q reads [] [] q reads
  | hand {limit : ℕ} {q q' : Q} {reads reads' : ℕ} {t : PrioritizedMessage T}
    {ms aside : List (PrioritizedMessage T)} (htop : BagQueue.top? q = some t)
    (ht : hands (aged clock reads t) = true)
    (rest : Rounds limit (BagQueue.pop q) (reads + 1) ms aside q' reads') :
    Rounds (limit + 1) q reads (aged clock reads t :: ms) aside q' reads'
  | pass {limit : ℕ} {q q' : Q} {reads reads' : ℕ} {t : PrioritizedMessage T}
    {ms aside : List (PrioritizedMessage T)} (htop : BagQueue.top? q = some t)
    (ht : hands (aged clock reads t) = false)
    (rest : Rounds (limit + 1) (BagQueue.pop q) (reads + 1) ms aside q' reads') :
    Rounds (limit + 1) q reads ms (aged clock reads t :: aside) q' reads'

variable {clock} {hands}

theorem Rounds.bag_eq {limit reads reads' : ℕ} {q q' : Q}
    {ms aside : List (PrioritizedMessage T)}
    (h : Rounds clock hands limit q reads ms aside q' reads') :
    (BagQueue.bag q).map PrioritizedMessage.asPushed =
      ↑(ms.map PrioritizedMessage.asPushed) + (↑(aside.map PrioritizedMessage.asPushed) +
        (BagQueue.bag q').map PrioritizedMessage.asPushed) := by
  induction h with
  | full => simp
  | empty => simp
  | hand htop _ _ ih =>
    rw [← BagQueue.bag_pop _ _ htop, Multiset.map_cons, ih, List.map_cons, ← Multiset.cons_coe,
      Multiset.cons_add]
    rfl
  | pass htop _ _ ih =>
    rw [← BagQueue.bag_pop _ _ htop, Multiset.map_cons, ih, List.map_cons, ← Multiset.cons_coe,
      Multiset.cons_add, Multiset.add_cons]
    rfl

theorem popMessage_of_top (clock : ℕ → ℚ) {queue : MessagePriorityQueue Q} {t : PrioritizedMessage T}
    (htop : BagQueue.top? queue.messageQueue = some t) :
    (popMessage clock queue).1 = aged clock queue.reads t ∧
      (popMessage clock queue).2.messageQueue = BagQueue.pop queue.messageQueue ∧
      (popMessage clock queue).2.reads = queue.reads + 1 := by
  rw [popMessage, htop]
  exact ⟨rfl, rfl, rfl⟩

theorem top?_of_not_hasMessages {queue : MessagePriorityQueue Q}
    (h : ¬ hasMessages queue = true) : BagQueue.top? queue.messageQueue = none := by
  rw [hasMessages_iff, not_exists] at h
  exact Option.eq_none_iff_forall_ne_some.mpr h

theorem rounds_popMessages (maxCount : ℕ) (queue : MessagePriorityQueue Q) :
    Rounds clock (fun _ => true) maxCount queue.messageQueue queue.reads
      (popMessages clock maxCount queue).1 []
      (popMessages clock maxCount queue).2.messageQueue
      (popMessages clock maxCount queue).2.reads := by
  induction maxCount generalizing queue with
  | zero => exact .full _ _
  | succ maxCount ih =>
    rw [popMessages]
    split
    case isFalse hno => exact .empty (top?_of_not_hasMessages hno)
    case isTrue hyes =>
      obtain ⟨t, htop⟩ := (hasMessages_iff queue).mp hyes
      obtain ⟨hmessage, hqueue, hreads⟩ := popMessage_of_top clock htop
      have hrest := ih (popMessage clock queue).2
      rw [hqueue, hreads] at hrest
      dsimp only
      rw [hmessage]
      exact .hand htop rfl hrest

theorem top?_of_count {queue : MessagePriorityQueue Q} (h : queue.count ≤ 0) :
    BagQueue.top? queue.messageQueue = none := by
  apply top?_of_not_hasMessages
  rw [hasMessages_of_count (Nat.le_zero.mp h)]
  exact Bool.false_ne_true

def Selection.RoundsTo (clock : ℕ → ℚ) (hands : PrioritizedMessage T → Bool) (limit : ℕ)
    (l l' : Selection T Q) : Prop :=
  ∃ ms aside, l'.messages = l.messages ++ ms ∧ l'.tempMessages = l.tempMessages ++ aside ∧
    Rounds clock hands limit l.queue.messageQueue l.queue.reads ms aside
      l'.queue.messageQueue l'.queue.reads

namespace Selection.RoundsTo
variable {limit : ℕ} {l l' : Selection T Q}

theorem full (l : Selection T Q) : RoundsTo clock hands 0 l l :=
  ⟨[], [], (List.append_nil _).symm, (List.append_nil _).symm, .full _ _⟩

theorem empty (htop : BagQueue.top? l.queue.messageQueue = none) :
    RoundsTo clock hands limit l l :=
  ⟨[], [], (List.append_nil _).symm, (List.append_nil _).symm, .empty htop⟩

theorem hand {queue : MessagePriorityQueue Q} (h : hasMessages l.queue = true)
    (hqueue : queue.messageQueue = (popMessage clock l.queue).2.messageQueue)
    (hreads : queue.reads = (popMessage clock l.queue).2.reads)
    (ht : hands (popMessage clock l.queue).1 = true)
    (rest : RoundsTo clock hands limit
      { l with messages := l.messages ++ [(popMessage clock l.queue).1], queue := queue } l') :
    RoundsTo clock hands (limit + 1) l l' := by
  obtain ⟨t, htop⟩ := (hasMessages_iff l.queue).mp h
  obtain ⟨hmessage, hqueue', hreads'⟩ := popMessage_of_top clock htop
  obtain ⟨ms, aside, hms, haside, hrounds⟩ := rest
  dsimp only at hms haside hrounds
  rw [hqueue, hreads, hqueue', hreads'] at hrounds
  rw [hmessage] at ht hms
  refine ⟨_, aside, ?_, haside, .hand htop ht hrounds⟩
  rw [hms, List.append_assoc, List.singleton_append]

theorem pass (h : hasMessages l.queue = true) (ht : hands (popMessage clock l.queue).1 = false)
    (rest : RoundsTo clock hands (limit + 1)
      { l with
        tempMessages := l.tempMessages ++ [(popMessage clock l.queue).1]
        queue := (popMessage clock l.queue).2 } l') :
    RoundsTo clock hands (limit + 1) l l' := by
  obtain ⟨t, htop⟩ := (hasMessages_iff l.queue).mp h
  obtain ⟨hmessage, hqueue, hreads⟩ := popMessage_of_top clock htop
  obtain ⟨ms, aside, hms, haside, hrounds⟩ := rest
  dsimp only at hms haside hrounds
  rw [hqueue, hreads] at hrounds
  rw [hmessage] at ht haside
  refine ⟨ms, _, hms, ?_, .pass htop ht hrounds⟩
  rw [haside, List.append_assoc, List.singleton_append]

theorem start {queue : MessagePriorityQueue Q} (h : RoundsTo clock hands limit ⟨[], [], queue⟩ l) :
    Rounds clock hands limit queue.messageQueue queue.reads l.messages l.tempMessages
      l.queue.messageQueue l.queue.reads := by
  obtain ⟨ms, aside, hms, haside, hrounds⟩ := h
  rw [List.nil_append] at hms haside
  rwa [hms, haside]

end Selection.RoundsTo

open Selection in
theorem rounds_selectByPriority (clock : ℕ → ℚ) (priority : MessagePriority) (maxCount : ℕ)
    {fuel : ℕ} {l : Selection T Q} (hfuel : l.queue.count ≤ fuel)
    (hfew : l.messages.length < max maxCount 1) :
    RoundsTo clock (fun m => m.classification.priority = priority)
      (max maxCount 1 - l.messages.length) l
      (selectByPriority clock priority maxCount fuel l) := by
  induction fuel generalizing l with
  | zero => exact .empty (top?_of_count hfuel)
  | succ fuel ih =>
    rw [selectByPriority]
    split
    case isFalse hno => exact .empty (top?_of_not_hasMessages hno)
    case isTrue hyes =>
      obtain ⟨-, -, hcount⟩ := popMessage_waiting clock hyes
      have hfuel' : (popMessage clock l.queue).2.count ≤ fuel := by omega
      obtain ⟨left, hleft⟩ : ∃ left, max maxCount 1 - l.messages.length = left + 1 :=
        ⟨max maxCount 1 - l.messages.length - 1, by omega⟩
      dsimp only
      split
      · next hpriority =>
        rw [hleft]
        refine .hand hyes rfl rfl (decide_eq_true hpriority) ?_
        split
        · next hfull =>
          rw [List.length_append, List.length_singleton] at hfull
          obtain rfl : left = 0 := by omega
          exact .full _
        · next hmore =>
          rw [List.length_append, List.length_singleton] at hmore
          have hrest := ih (l := { l with
            messages := l.messages ++ [(popMessage clock l.queue).1]
            queue := (popMessage clock l.queue).2 }) hfuel'
            (by rw [List.length_append, List.length_singleton]; omega)
          rw [List.length_append, List.length_singleton] at hrest
          obtain rfl : left = max maxCount 1 - (l.messages.length + 1) := by omega
          exact hrest
      · next hother =>
        have hrest := ih (l := { l with
          tempMessages := l.tempMessages ++ [(popMessage clock l.queue).1]
          queue := (popMessage clock l.queue).2 }) hfuel' hfew
        dsimp only at hrest
        rw [hleft] at hrest ⊢
        exact .pass hyes (decide_eq_false hother) hrest

open Selection in
theorem rounds_selectExpired (clock : ℕ → ℚ) {fuel limit : ℕ} {l : Selection T Q}
    (hfuel : l.queue.count ≤ fuel) (hlimit : l.queue.count ≤ limit) :
    RoundsTo clock isMessageExpired limit l (selectExpired clock fuel l) := by
  induction fuel generalizing l limit with
  | zero => exact .empty (top?_of_count hfuel)
  | succ fuel ih =>
    rw [selectExpired]
    split
    case isFalse hno => exact .empty (top?_of_not_hasMessages hno)
    case isTrue hyes =>
      obtain ⟨-, -, hcount⟩ := popMessage_waiting clock hyes
      have hfuel' : (popMessage clock l.queue).2.count ≤ fuel := by omega
      obtain ⟨left, rfl⟩ : ∃ left, limit = left + 1 := ⟨limit - 1, by omega⟩
      dsimp only
      split
      · next hexpired =>
        refine .hand hyes rfl rfl hexpired (ih hfuel' ?_)
        change (popMessage clock l.queue).2.count ≤ left
        omega
      · next hvalid =>
        refine .pass hyes (Bool.eq_false_of_not_eq_true hvalid) (ih hfuel' ?_)
        change (popMessage clock l.queue).2.count ≤ left + 1
        omega

def handsOut : Op T → PrioritizedMessage T → Bool
  | .popByPriority priority _ => fun m => m.classification.priority = priority
  | .popExpired => isMessageExpired
  | _ => fun _ => true

def limitOf (queue : MessagePriorityQueue Q) : Op T → ℕ
  | .push _ => 0
  | .pop => 1
  | .popMany maxCount => maxCount
  | .popByPriority _ maxCount => max maxCount 1
  | .popExpired => queue.count

theorem rounds_call (clock : ℕ → ℚ) (queue : MessagePriorityQueue Q) {op : Op T}
    (hop : ∀ message, op ≠ .push message) :
    ∃ (aside : List (PrioritizedMessage T)) (q' : Q) (reads' : ℕ),
      Rounds clock (handsOut op) (limitOf queue op) queue.messageQueue queue.reads
        (call clock queue op).1 aside q' reads' ∧
      (call clock queue op).2.messageQueue = BagQueue.pushAll q' aside := by
  cases op with
  | push message => exact absurd rfl (hop message)
  | pop =>
    rw [call]
    dsimp only
    split
    · next hyes =>
      obtain ⟨t, htop⟩ := (hasMessages_iff queue).mp hyes
      obtain ⟨hmessage, hqueue, hreads⟩ := popMessage_of_top clock htop
      rw [hmessage]
      exact ⟨[], _, _, .hand htop rfl (.full _ _), hqueue⟩
    · next hno =>
      have htop := top?_of_not_hasMessages hno
      refine ⟨[], _, _, .empty htop, ?_⟩
      rw [popMessage, htop]
      rfl
  | popMany maxCount => exact ⟨[], _, _, rounds_popMessages maxCount queue, rfl⟩
  | popByPriority priority maxCount =>
    have hfew : ([] : List (PrioritizedMessage T)).length < max maxCount 1 := by
      rw [List.length_nil]
      omega
    exact ⟨_, _, _, (rounds_selectByPriority clock priority maxCount le_rfl hfew).start, rfl⟩
  | popExpired => exact ⟨_, _, _, (rounds_selectExpired clock le_rfl le_rfl).start, rfl⟩

end Rounds

section Turns
variable [DecidableEq T]

/-- In each round, whichever message the comparator allows on top, if it is handed out it is the
first of its class; and in the end the comparator orders what is left, the messages set aside
having got their ages. -/
def Sure (hands : PrioritizedMessage T → Bool) : ℕ → ℕ → Multiset (PrioritizedMessage T) →
    List (PrioritizedMessage T) → List (PrioritizedMessage T) → ℕ → Prop
  | rounds + 1, limit + 1, bag, aside, log, reads =>
    ∀ t ∈ bag, (∀ a ∈ bag, messageComparator t a = false) →
      if hands (aged clock reads t) then
        log.find? (aged clock reads t).sameClass = some (aged clock reads t).asPushed ∧
          Sure hands rounds limit (bag.erase t) aside (log.erase (aged clock reads t).asPushed)
            (reads + 1)
      else
        Sure hands rounds (limit + 1) (bag.erase t) (aside ++ [aged clock reads t]) log (reads + 1)
  | _, _, bag, aside, _, _ =>
    Comparable messageComparator ((aside : Multiset (PrioritizedMessage T)) + bag)

instance decidableSure (hands : PrioritizedMessage T → Bool) : ∀ rounds limit bag aside log reads,
    Decidable (Sure clock hands rounds limit bag aside log reads)
  | rounds + 1, limit + 1, bag, aside, log, reads =>
    have : ∀ limit bag aside log reads,
        Decidable (Sure clock hands rounds limit bag aside log reads) :=
      decidableSure hands rounds
    inferInstanceAs (Decidable (∀ t ∈ bag, (∀ a ∈ bag, messageComparator t a = false) →
      if hands (aged clock reads t) then
        log.find? (aged clock reads t).sameClass = some (aged clock reads t).asPushed ∧
          Sure clock hands rounds limit (bag.erase t) aside
            (log.erase (aged clock reads t).asPushed) (reads + 1)
      else
        Sure clock hands rounds (limit + 1) (bag.erase t) (aside ++ [aged clock reads t]) log
          (reads + 1)))
  | 0, _, bag, aside, _, _ =>
    inferInstanceAs (Decidable (Comparable messageComparator
      ((aside : Multiset (PrioritizedMessage T)) + bag)))
  | _ + 1, 0, bag, aside, _, _ =>
    inferInstanceAs (Decidable (Comparable messageComparator
      ((aside : Multiset (PrioritizedMessage T)) + bag)))

variable [BagQueue (PrioritizedMessage T) Q]

/-- The condition on a call: the comparator orders the messages, and whoever may be handed out is
the first of their class. -/
def Settled (l : Line T Q) : Op T → Prop
  | .push message => l.queue.count < l.queue.maxQueueSize →
    Comparable messageComparator (stored clock l.queue message ::ₘ contents l.queue)
  | op => Comparable messageComparator (contents l.queue) ∧
    Sure clock (handsOut op) l.queue.count (limitOf l.queue op) (contents l.queue) [] l.log
      l.queue.reads

instance (l : Line T Q) (op : Op T) : Decidable (Settled clock l op) := by
  cases op <;> unfold Settled <;> infer_instance

def Logged (l : Line T Q) : Prop :=
  (contents l.queue).map PrioritizedMessage.asPushed = ↑l.log

variable {clock} {l : Line T Q}

theorem Logged.push (h : Logged l) (message : PrioritizedMessage T) :
    Logged (l.step clock (.push message)) := by
  rw [Logged, Line.step, call, entered, List.map_nil, List.diff_nil, pushMessage, count]
  split
  · rw [List.append_nil]
    exact h
  · rw [← Multiset.coe_add, ← h, contents, BagQueue.bag_push, Multiset.map_cons, add_comm,
      Multiset.coe_singleton, Multiset.singleton_add]
    rfl

theorem Logged.take (h : Logged l) {op : Op T} (hop : ∀ message, op ≠ .push message) :
    Logged (l.step clock op) := by
  obtain ⟨aside, q', reads', hrounds, hqueue⟩ := rounds_call clock l.queue hop
  have hentered : entered clock l.queue op = [] := by
    cases op with
    | push message => exact absurd rfl (hop message)
    | pop => rfl
    | popMany => rfl
    | popByPriority => rfl
    | popExpired => rfl
  rw [Logged, Line.step, hentered, List.append_nil, ← Multiset.coe_sub, ← h, contents, contents,
    hqueue, BagQueue.bag_pushAll, hrounds.bag_eq, Multiset.map_add, Multiset.map_coe,
    add_tsub_cancel_left]

theorem Logged.step (h : Logged l) (op : Op T) : Logged (l.step clock op) := by
  cases op with
  | push message => exact h.push message
  | pop => exact h.take fun _ => by simp
  | popMany maxCount => exact h.take fun _ => by simp
  | popByPriority priority maxCount => exact h.take fun _ => by simp
  | popExpired => exact h.take fun _ => by simp

theorem run_logged (clock : ℕ → ℚ) (maxQueueSize : ℕ) (ops : List (Op T)) :
    Logged (Run.run (Line.step clock) (⟨initial maxQueueSize, []⟩ : Line T Q) ops) := by
  have hstart : Logged (⟨initial maxQueueSize, []⟩ : Line T Q) := by
    rw [Logged, contents, initial, BagQueue.bag_empty]
    rfl
  exact Run.invariant_run (I := Logged) (fun _ op h => Logged.step h op) hstart ops

end Turns

section Std
variable [DecidableEq T] [StdQueue (messageComparator (T := T)) Q] {clock}
  {hands : PrioritizedMessage T → Bool}

theorem sure_full {rounds reads : ℕ} {bag : Multiset (PrioritizedMessage T)}
    {aside log : List (PrioritizedMessage T)} :
    Sure clock hands rounds 0 bag aside log reads ↔
      Comparable messageComparator ((aside : Multiset (PrioritizedMessage T)) + bag) := by
  cases rounds <;> exact Iff.rfl

theorem sure_empty {limit reads : ℕ} {bag : Multiset (PrioritizedMessage T)}
    {aside log : List (PrioritizedMessage T)} :
    Sure clock hands 0 limit bag aside log reads ↔
      Comparable messageComparator ((aside : Multiset (PrioritizedMessage T)) + bag) := by
  cases limit <;> exact Iff.rfl

omit [DecidableEq T] in
theorem ordered_next {q : Q} {t : PrioritizedMessage T} (htop : BagQueue.top? q = some t)
    (hordered : StdQueue.Ordered q) (hcomp : Comparable messageComparator (BagQueue.bag q)) :
    StdQueue.Ordered (BagQueue.pop q) ∧
      Comparable messageComparator (BagQueue.bag (BagQueue.pop q)) := by
  refine ⟨StdQueue.ordered_pop q hordered hcomp, hcomp.mono fun a ha => ?_⟩
  rw [← BagQueue.bag_pop q t htop]
  exact Multiset.mem_cons_of_mem ha

theorem Sure.next {q : Q} {t : PrioritizedMessage T} {limit reads : ℕ}
    {aside log : List (PrioritizedMessage T)} (htop : BagQueue.top? q = some t)
    (hordered : StdQueue.Ordered q) (hcomp : Comparable messageComparator (BagQueue.bag q))
    (h : Sure clock hands (BagQueue.size q) (limit + 1) (BagQueue.bag q) aside log reads) :
    if hands (aged clock reads t) then
      log.find? (aged clock reads t).sameClass = some (aged clock reads t).asPushed ∧
        Sure clock hands (BagQueue.size (BagQueue.pop q)) limit (BagQueue.bag (BagQueue.pop q))
          aside (log.erase (aged clock reads t).asPushed) (reads + 1)
    else
      Sure clock hands (BagQueue.size (BagQueue.pop q)) (limit + 1)
        (BagQueue.bag (BagQueue.pop q)) (aside ++ [aged clock reads t]) log (reads + 1) := by
  have hbag := BagQueue.bag_pop q t htop
  have hmem : t ∈ BagQueue.bag q := by
    rw [← hbag]
    exact Multiset.mem_cons_self t _
  rw [← BagQueue.size_pop htop] at h
  have hround := h t hmem (StdQueue.top_best q t hordered hcomp htop)
  rwa [← hbag, Multiset.erase_cons_head] at hround

theorem Rounds.inTurn {limit reads reads' : ℕ} {q q' : Q}
    {ms others aside log : List (PrioritizedMessage T)}
    (h : Rounds clock hands limit q reads ms others q' reads') (hordered : StdQueue.Ordered q)
    (hcomp : Comparable messageComparator (BagQueue.bag q))
    (hsure : Sure clock hands (BagQueue.size q) limit (BagQueue.bag q) aside log reads) :
    InTurn log ms ∧ StdQueue.Ordered q' ∧ Comparable messageComparator
        (((aside ++ others : List _) : Multiset (PrioritizedMessage T)) + BagQueue.bag q') := by
  induction h generalizing aside log with
  | full =>
    rw [List.append_nil]
    exact ⟨trivial, hordered, sure_full.mp hsure⟩
  | empty htop =>
    rw [BagQueue.size_eq, BagQueue.bag_of_top?_none _ htop, Multiset.card_zero] at hsure
    rw [List.append_nil, BagQueue.bag_of_top?_none _ htop]
    exact ⟨trivial, hordered, sure_empty.mp hsure⟩
  | hand htop ht _ ih =>
    obtain ⟨hordered', hcomp'⟩ := ordered_next htop hordered hcomp
    have hnext := hsure.next htop hordered hcomp
    rw [if_pos ht] at hnext
    obtain ⟨hturn, hleft⟩ := ih hordered' hcomp' hnext.2
    exact ⟨⟨hnext.1, hturn⟩, hleft⟩
  | pass htop ht _ ih =>
    obtain ⟨hordered', hcomp'⟩ := ordered_next htop hordered hcomp
    have hnext := hsure.next htop hordered hcomp
    rw [if_neg (Bool.eq_false_iff.mp ht)] at hnext
    have hrest := ih hordered' hcomp' hnext
    rwa [List.append_assoc, List.singleton_append] at hrest

omit [DecidableEq T] in
theorem ordered_pushAll {q : Q} {ms : List (PrioritizedMessage T)} (h : StdQueue.Ordered q)
    (hcomp : Comparable messageComparator
      ((ms : Multiset (PrioritizedMessage T)) + BagQueue.bag q)) :
    StdQueue.Ordered (BagQueue.pushAll q ms) := by
  induction ms generalizing q with
  | nil => exact h
  | cons m ms ih =>
    have hpush : BagQueue.bag (BagQueue.push q m) = m ::ₘ BagQueue.bag q := BagQueue.bag_push q m
    rw [← Multiset.cons_coe, Multiset.cons_add] at hcomp
    refine ih (q := BagQueue.push q m) (StdQueue.ordered_push q m h ?_) ?_
    · rw [hpush]
      exact hcomp.mono fun a ha => Multiset.mem_of_le
        (Multiset.cons_le_cons m (Multiset.le_add_left _ _)) ha
    · rwa [hpush, Multiset.add_cons]

variable {l : Line T Q} {op : Op T}

theorem Settled.push {message : PrioritizedMessage T} (h : Settled clock l (.push message))
    (hordered : StdQueue.Ordered l.queue.messageQueue) :
    StdQueue.Ordered (pushMessage clock l.queue message).messageQueue := by
  rw [pushMessage]
  split
  · exact hordered
  · next hroom =>
    have hcomp := h (not_le.mp hroom)
    rw [contents, ← BagQueue.bag_push] at hcomp
    exact StdQueue.ordered_push _ _ hordered hcomp

theorem inTurn_of_sure (hop : ∀ message, op ≠ .push message)
    (hcomp : Comparable messageComparator (contents l.queue))
    (hsure : Sure clock (handsOut op) l.queue.count (limitOf l.queue op) (contents l.queue) [] l.log
      l.queue.reads) (hordered : StdQueue.Ordered l.queue.messageQueue) :
    StdQueue.Ordered (call clock l.queue op).2.messageQueue ∧
      InTurn l.log (call clock l.queue op).1 := by
  obtain ⟨aside, q', reads', hrounds, hqueue⟩ := rounds_call clock l.queue hop
  obtain ⟨hturn, hordered', hcomp'⟩ := hrounds.inTurn hordered hcomp hsure
  rw [List.nil_append] at hcomp'
  rw [hqueue]
  exact ⟨ordered_pushAll hordered' hcomp', hturn⟩

theorem Settled.step (h : Settled clock l op)
    (hordered : StdQueue.Ordered l.queue.messageQueue) :
    StdQueue.Ordered (l.step clock op).queue.messageQueue ∧
      InTurn l.log (call clock l.queue op).1 := by
  cases op with
  | push message => exact ⟨h.push hordered, trivial⟩
  | pop => exact inTurn_of_sure (fun _ => by simp) h.1 h.2 hordered
  | popMany maxCount => exact inTurn_of_sure (fun _ => by simp) h.1 h.2 hordered
  | popByPriority priority maxCount => exact inTurn_of_sure (fun _ => by simp) h.1 h.2 hordered
  | popExpired => exact inTurn_of_sure (fun _ => by simp) h.1 h.2 hordered

/-- In every run whose calls all meet the condition, among messages of one class the one pushed
first is handed out first. -/
theorem run_inTurn (clock : ℕ → ℚ) (maxQueueSize : ℕ) {ops : List (Op T)}
    (h : Run.Along (Line.step clock) (Settled clock) (⟨initial maxQueueSize, []⟩ : Line T Q) ops) :
    Run.Along (Line.step clock) (fun l op => InTurn l.log (call clock l.queue op).1)
      (⟨initial maxQueueSize, []⟩ : Line T Q) ops := by
  have hstep : ∀ (l : Line T Q) (op : Op T), StdQueue.Ordered l.queue.messageQueue →
      Settled clock l op → StdQueue.Ordered (l.step clock op).queue.messageQueue ∧
        InTurn l.log (call clock l.queue op).1 :=
    fun _ _ hordered hsettled => hsettled.step hordered
  exact (Run.along_of_step (I := fun l => StdQueue.Ordered l.queue.messageQueue) hstep
    StdQueue.ordered_empty h).2

end Std

section Aging
variable {clock} {hands : PrioritizedMessage T → Bool} {line : List (PrioritizedMessage T)}
  {t : PrioritizedMessage T}

/-- Of two waiting messages of one class, the one that was pushed first has the greater age. -/
def Aging (line : List (PrioritizedMessage T)) : Prop :=
  line.Pairwise fun a b => a.sameClass b = true → b.age < a.age

/-- No two importances are so near that the comparator takes them for one. -/
def Graded (bag : Multiset (PrioritizedMessage T)) : Prop :=
  ∀ a ∈ bag, ∀ b ∈ bag, |a.classification.importance - b.classification.importance| ≤ 1 / 100 →
    a.classification.importance = b.classification.importance

theorem Graded.comparable {bag : Multiset (PrioritizedMessage T)} (h : Graded bag) :
    Comparable messageComparator bag := by
  have hε : (0 : ℚ) ≤ 1 / 100 := by norm_num
  simp only [Comparable, messageComparator_iff]
  rw [WeakOrders.weakOn_lexBy]
  simp only [WeakOrders.weakOn_lexBy, WeakOrders.weakOn_tolerant hε]
  rintro _ _ a ⟨⟨ha, -⟩, -⟩ b ⟨⟨hb, -⟩, -⟩ c ⟨⟨hc, -⟩, -⟩ ⟨hab, hbc, hnear, hnear', hfar⟩
  have heq := h b hb a ha (abs_le.mpr ⟨by linarith, hnear⟩)
  have heq' := h c hc b hb (abs_le.mpr ⟨by linarith, hnear'⟩)
  dsimp only at hfar
  rw [heq', heq, sub_self] at hfar
  exact absurd hε (not_le.mpr hfar)

theorem Graded.mono {bag bag' : Multiset (PrioritizedMessage T)} (h : Graded bag)
    (hsub : ∀ a ∈ bag', ∃ b ∈ bag, b.classification = a.classification) : Graded bag' := by
  intro a ha b hb
  obtain ⟨a', ha', haa'⟩ := hsub a ha
  obtain ⟨b', hb', hbb'⟩ := hsub b hb
  rw [← haa', ← hbb']
  exact h a' ha' b' hb'

theorem Aging.first {front back : List (PrioritizedMessage T)} (h : Aging (front ++ t :: back))
    (hbest : ∀ a ∈ front ++ t :: back, messageComparator t a = false) :
    ∀ a ∈ front, t.sameClass a = false := by
  intro a ha
  apply Bool.eq_false_of_not_eq_true
  intro hclass
  have hbelow := hbest a (List.mem_append_left _ ha)
  rw [PrioritizedMessage.sameClass, Bool.and_eq_true, Bool.and_eq_true, decide_eq_true_eq,
    decide_eq_true_eq, decide_eq_true_eq] at hclass
  obtain ⟨⟨hpriority, hurgency⟩, himportance⟩ := hclass
  have holder := (List.pairwise_append.mp h).2.2 a ha t (List.mem_cons_self ..)
    (by simp [PrioritizedMessage.sameClass, hpriority, hurgency, himportance])
  rw [messageComparator, if_neg (not_not.mpr hpriority), if_neg (not_not.mpr hurgency),
    himportance, sub_self, abs_zero, if_neg (by norm_num), decide_eq_false_iff_not] at hbelow
  exact hbelow holder

theorem Aging.asPushed_not_mem {front : List (PrioritizedMessage T)}
    (hfirst : ∀ a ∈ front, t.sameClass a = false) :
    t.asPushed ∉ front.map PrioritizedMessage.asPushed := by
  intro hmem
  obtain ⟨a, ha, heq⟩ := List.mem_map.mp hmem
  have hself : t.sameClass t = true := by simp [PrioritizedMessage.sameClass]
  have hclass : t.sameClass a.asPushed = t.sameClass t.asPushed := by rw [heq]
  exact Bool.false_ne_true ((hfirst a ha).symm.trans (hclass.trans hself))

variable [DecidableEq T] {rounds limit reads : ℕ} {aside log : List (PrioritizedMessage T)}

theorem sure_of_aging
    (hhands : ∀ a b : PrioritizedMessage T, a.sameClass b = true → hands a = hands b)
    (hgraded : Graded (↑aside + ↑line : Multiset (PrioritizedMessage T))) (haging : Aging line)
    (hlog : log.filter hands = (line.filter hands).map PrioritizedMessage.asPushed) :
    Sure clock hands rounds limit ↑line aside log reads := by
  induction rounds generalizing limit line aside log reads with
  | zero => exact sure_empty.mpr hgraded.comparable
  | succ rounds ih =>
    cases limit with
    | zero => exact sure_full.mpr hgraded.comparable
    | succ limit =>
      intro t ht hbest
      obtain ⟨front, back, rfl⟩ := List.append_of_mem (Multiset.mem_coe.mp ht)
      have hfirst := haging.first hbest
      have hself : t.sameClass t = true := by simp [PrioritizedMessage.sameClass]
      have hnot : t ∉ front := fun hmem => Bool.false_ne_true ((hfirst t hmem).symm.trans hself)
      have herase : (↑(front ++ t :: back) : Multiset (PrioritizedMessage T)).erase t =
          ↑(front ++ back) := by
        rw [Multiset.coe_erase, List.erase_append_right _ hnot, List.erase_cons_head]
      have hrest : Aging (front ++ back) :=
        haging.sublist ((List.sublist_cons_self t back).append_left front)
      have hhand : hands (aged clock reads t) = hands t := hhands _ _ hself
      rw [herase, hhand]
      split
      · next ht =>
        have hsplit : log.filter hands = (front.filter hands).map PrioritizedMessage.asPushed ++
            t.asPushed :: (back.filter hands).map PrioritizedMessage.asPushed := by
          rw [hlog, List.filter_append, List.filter_cons_of_pos ht, List.map_append, List.map_cons]
        have hearlier : ∀ a ∈ front.filter hands, t.sameClass a = false :=
          fun a ha => hfirst a (List.mem_of_mem_filter ha)
        refine ⟨?_, ih (hgraded.mono fun a ha => ⟨a, ?_, rfl⟩) hrest ?_⟩
        · have hfind : log.find? t.sameClass = (log.filter hands).find? t.sameClass := by
            rw [List.find?_filter]
            congr 1
            funext a
            by_cases ha : t.sameClass a = true
            · simp [ha, ← hhands t a ha, ht]
            · simp [ha]
          show log.find? t.sameClass = some t.asPushed
          rw [hfind, hsplit, List.find?_append, List.find?_eq_none.mpr, Option.none_or]
          · exact List.find?_cons_of_pos hself
          · intro a ha
            obtain ⟨a, hmem, rfl⟩ := List.mem_map.mp ha
            rw [Bool.not_eq_true]
            exact hearlier a hmem
        · simp only [Multiset.mem_add, Multiset.mem_coe, List.mem_append, List.mem_cons] at ha ⊢
          tauto
        · show (log.erase t.asPushed).filter hands = _
          rw [← List.erase_filter, hsplit, List.erase_append_right _ (Aging.asPushed_not_mem hearlier),
            List.erase_cons_head, List.filter_append, List.map_append]
      · next ht =>
        refine ih (hgraded.mono fun a ha => ?_) hrest ?_
        · simp only [Multiset.mem_add, Multiset.mem_coe, List.mem_append, List.mem_cons,
            List.not_mem_nil, or_false] at ha
          rcases ha with (ha | rfl) | ha
          · exact ⟨a, by simp [ha], rfl⟩
          · exact ⟨t, by simp, rfl⟩
          · exact ⟨a, by simp; tauto, rfl⟩
        · rw [hlog, List.filter_append, List.filter_append, List.filter_cons_of_neg ht]

variable {Q : Type} [BagQueue (PrioritizedMessage T) Q] {l : Line T Q}

theorem settled_of_aging {op : Op T} (hpush : ∀ message, op ≠ .push message)
    (hexpired : op ≠ .popExpired) (hline : (line : Multiset (PrioritizedMessage T)) = contents l.queue)
    (hlog : l.log = line.map PrioritizedMessage.asPushed) (hgraded : Graded (contents l.queue))
    (haging : Aging line) : Settled clock l op := by
  have hhands : ∀ a b : PrioritizedMessage T, a.sameClass b = true →
      handsOut op a = handsOut op b := by
    intro a b hclass
    cases op with
    | popByPriority priority =>
      simp only [PrioritizedMessage.sameClass, Bool.and_eq_true, decide_eq_true_eq] at hclass
      simp only [handsOut, hclass.1.1]
    | popExpired => exact absurd rfl hexpired
    | _ => rfl
  have hfilter : l.log.filter (handsOut op) =
      (line.filter (handsOut op)).map PrioritizedMessage.asPushed := by
    rw [hlog, List.filter_map]
    congr 2
    funext a
    exact hhands _ _ (by simp [PrioritizedMessage.sameClass, PrioritizedMessage.asPushed])
  have hsure : ∀ rounds limit, Sure clock (handsOut op) rounds limit (contents l.queue) [] l.log
      l.queue.reads := by
    intro rounds limit
    rw [← hline]
    refine sure_of_aging hhands ?_ haging hfilter
    rwa [Multiset.coe_nil, zero_add, hline]
  cases op with
  | push message => exact absurd rfl (hpush message)
  | pop => exact ⟨hgraded.comparable, hsure _ _⟩
  | popMany => exact ⟨hgraded.comparable, hsure _ _⟩
  | popByPriority => exact ⟨hgraded.comparable, hsure _ _⟩
  | popExpired => exact absurd rfl hexpired

end Aging

end Clock

def calledAside : List (Op ℕ) :=
  [.push { messageId := 1 }, .push { messageId := 2 }, .popByPriority .critical 1, .pop, .pop]

theorem run_inTurn_aside :
    Run.Along (Line.step fun n => 10 * min n 2)
      (fun l op => InTurn l.log (call (fun n => 10 * min n 2) l.queue op).1)
      (⟨initial 10, []⟩ : Line ℕ (StdHeap messageComparator)) calledAside :=
  run_inTurn (fun n => 10 * min n 2) 10 (by decide +kernel)

theorem not_run_inTurn_four :
    ¬ ∀ (clock : ℕ → ℚ) (maxQueueSize : ℕ) (ops : List (Op ℕ)),
      Run.Along (Line.step clock) (fun l op => InTurn l.log (call clock l.queue op).1)
        (⟨initial maxQueueSize, []⟩ : Line ℕ (StdHeap messageComparator)) ops := by
  intro h
  have hfour := h (fun n => n) 10 [.push { messageId := 1 }, .push { messageId := 2 },
    .push { messageId := 3 }, .push { messageId := 4 }, .pop, .pop]
  exact absurd hfour (by decide +kernel)

end MessagePriorityQueue
end WitcherMP.Messages
