import WitcherMP.Lib.WeakOrders
import WitcherMP.Messages.Queue

/-! When the order of the messages is one that a priority queue can work with. The tolerance for
the importance lets it creep: of three messages each two neighbours may count as equal while the
outer ones do not. -/

namespace WitcherMP.Messages

open WeakOrders

theorem MessagePriority.value_inj {p q : MessagePriority} : p.value = q.value ↔ p = q := by
  cases p <;> cases q <;> simp [MessagePriority.value]

theorem MessageUrgency.value_inj {u v : MessageUrgency} : u.value = v.value ↔ u = v := by
  cases u <;> cases v <;> simp [MessageUrgency.value]

namespace MessagePriorityQueue
variable {T : Type} [Inhabited T]

theorem messageComparator_iff (a b : PrioritizedMessage T) :
    messageComparator a b = true ↔
      lexBy (fun m : PrioritizedMessage T => OrderDual.toDual m.classification.priority.value)
        (lexBy (fun m : PrioritizedMessage T => OrderDual.toDual m.classification.urgency.value)
          (tolerant (1 / 100) (fun m => m.classification.importance) fun m => m.age)) a b := by
  rw [messageComparator]
  by_cases hp : a.classification.priority = b.classification.priority
  · rw [if_neg (not_not.mpr hp), lexBy_of_eq (by rw [hp])]
    by_cases hu : a.classification.urgency = b.classification.urgency
    · rw [if_neg (not_not.mpr hu), lexBy_of_eq (by rw [hu]), tolerant]
      split_ifs <;> simp
    · have hne : a.classification.urgency.value ≠ b.classification.urgency.value :=
        fun h => hu (MessageUrgency.value_inj.mp h)
      rw [if_pos hu, lexBy]
      simp [hne]
  · have hne : a.classification.priority.value ≠ b.classification.priority.value :=
      fun h => hp (MessagePriority.value_inj.mp h)
    rw [if_pos hp, lexBy]
    simp [hne]

/-- Three messages of one priority and urgency that count as equally important in turn, but not
the first and the last. -/
def CreepingImportance (a b c : PrioritizedMessage T) : Prop :=
  a.classification.priority = b.classification.priority ∧
    b.classification.priority = c.classification.priority ∧
    a.classification.urgency = b.classification.urgency ∧
    b.classification.urgency = c.classification.urgency ∧
    Creeps (1 / 100) (fun m : PrioritizedMessage T => m.classification.importance) a b c

/-- The messages of a set are in a strict weak order exactly if the age tells apart those whose
importance creeps. -/
theorem messageComparator_strictWeakOrder_iff (S : Set (PrioritizedMessage T)) :
    IsStrictWeakOrder S (fun a b => messageComparator (a : PrioritizedMessage T) b = true) ↔
      ∀ a ∈ S, ∀ b ∈ S, ∀ c ∈ S, CreepingImportance a b c → a.age < b.age ∨ b.age < c.age := by
  simp only [messageComparator_iff]
  rw [← weakOn_iff, weakOn_lexBy]
  simp only [weakOn_lexBy]
  have hε : (0 : ℚ) ≤ 1 / 100 := by norm_num
  simp only [weakOn_tolerant hε]
  constructor
  · rintro h a ha b hb c hc ⟨hab, hbc, hab', hbc', hcreeps⟩
    exact h _ _ a ⟨⟨ha, congrArg _ (congrArg MessagePriority.value (hab.trans hbc))⟩,
      congrArg _ (congrArg MessageUrgency.value (hab'.trans hbc'))⟩ b
      ⟨⟨hb, congrArg _ (congrArg MessagePriority.value hbc)⟩,
        congrArg _ (congrArg MessageUrgency.value hbc')⟩ c ⟨⟨hc, rfl⟩, rfl⟩ hcreeps
  · rintro h k l a ⟨⟨ha, hka⟩, hla⟩ b ⟨⟨hb, hkb⟩, hlb⟩ c ⟨⟨hc, hkc⟩, hlc⟩ hcreeps
    exact h a ha b hb c hc ⟨MessagePriority.value_inj.mp (hka.trans hkb.symm),
      MessagePriority.value_inj.mp (hkb.trans hkc.symm),
      MessageUrgency.value_inj.mp (hla.trans hlb.symm),
      MessageUrgency.value_inj.mp (hlb.trans hlc.symm), hcreeps⟩

theorem not_messageComparator_strictWeakOrder :
    let _ : Inhabited MessageTypes := ⟨.batchMessage⟩
    ¬ ∀ S : Set (PrioritizedMessage MessageTypes),
      IsStrictWeakOrder S
        fun a b => messageComparator (a : PrioritizedMessage MessageTypes) b = true := by
  intro inst h
  have hall := (h Set.univ).incomp_trans ⟨{ classification := { importance := 0 } }, trivial⟩
    ⟨{ classification := { importance := 1 / 100 } }, trivial⟩
    ⟨{ classification := { importance := 2 / 100 } }, trivial⟩
  revert hall
  decide +kernel

end MessagePriorityQueue
end WitcherMP.Messages
