import WitcherMP.Inventory.Worn
import Mathlib.Data.Multiset.Bind

/-! The permanent buffs against the effects of what is worn. Equipping and unequipping keep the
two together; a removal that uses up a worn stack takes off the item and leaves its effects. -/

namespace WitcherMP.Inventory
open InventorySystem

def applyBuff (buffs : Multiset CName) : Event → Multiset CName
  | .addBuff effect _ => effect ::ₘ buffs
  | .removeBuff effect => buffs.erase effect
  | _ => buffs

def applyBuffs (buffs : Multiset CName) (events : List Event) : Multiset CName :=
  events.foldl applyBuff buffs

section Events
variable {buffs : Multiset CName}

theorem applyBuffs_append (buffs : Multiset CName) (es es' : List Event) :
    applyBuffs buffs (es ++ es') = applyBuffs (applyBuffs buffs es) es' := List.foldl_append

theorem applyBuffs_of_quiet {es : List Event} (h : ∀ e ∈ es, ∀ buffs, applyBuff buffs e = buffs) :
    applyBuffs buffs es = buffs :=
  List.foldlRecOn (motive := fun b => b = buffs) es _ rfl fun b hb e he => by rw [h e he b, hb]

theorem applyBuffs_applyItemEffects (buffs : Multiset CName) (itemData : ItemData) :
    applyBuffs buffs (applyItemEffects itemData) = buffs + itemData.effects := by
  unfold applyItemEffects
  generalize itemData.effects = effects
  induction effects generalizing buffs with
  | nil => exact (add_zero buffs).symm
  | cons effect effects ih =>
    rw [List.map_cons, applyBuffs, List.foldl_cons]
    refine (ih (effect ::ₘ buffs)).trans ?_
    rw [← Multiset.cons_coe, Multiset.add_cons, Multiset.cons_add]

theorem applyBuffs_removeItemEffects (buffs : Multiset CName) (itemData : ItemData) :
    applyBuffs buffs (removeItemEffects itemData) = buffs - itemData.effects := by
  unfold removeItemEffects
  generalize itemData.effects = effects
  induction effects generalizing buffs with
  | nil => exact (tsub_zero buffs).symm
  | cons effect effects ih =>
    rw [List.map_cons, applyBuffs, List.foldl_cons]
    refine (ih (buffs.erase effect)).trans ?_
    rw [← Multiset.cons_coe, Multiset.sub_cons]

end Events

/-- What is worn has these effects, each as often as it is worn. -/
def effectsOf (items : Multiset ItemData) : Multiset CName := items.bind fun item => item.effects

theorem effectsOf_cons (item : ItemData) (items : Multiset ItemData) :
    effectsOf (item ::ₘ items) = item.effects + effectsOf items := Multiset.cons_bind ..

theorem effectsOf_add (items items' : Multiset ItemData) :
    effectsOf (items + items') = effectsOf items + effectsOf items' := Multiset.add_bind ..

theorem effectsOf_replicate_eq_zero_iff (n : ℕ) (item : ItemData) :
    effectsOf (Multiset.replicate n item) = 0 ↔ n = 0 ∨ item.effects = [] := by
  induction n with
  | zero => exact iff_of_true rfl (Or.inl rfl)
  | succ n ih =>
    rw [Multiset.replicate_succ, effectsOf_cons,
      add_eq_zero_iff_of_nonneg (Multiset.zero_le _) (Multiset.zero_le _), Multiset.coe_eq_zero, ih]
    simp only [Nat.add_eq_zero_iff, one_ne_zero, and_false, false_or]
    exact ⟨And.left, fun h => ⟨h, Or.inr h⟩⟩

theorem applyBuffs_unequip_slot (buffs : Multiset CName) (slot : InventorySlot)
    (category : ItemCategory) :
    applyBuffs buffs (unequipItemByCategory [slot] category).2 = buffs - effectsOf
      (((wornItem slot).elim 0 fun item => {item} : Multiset ItemData).filter
        fun item => item.category = category) := by
  simp only [unequipItemByCategory, List.flatMap_cons, List.flatMap_nil, List.append_nil, wears_eq]
  cases hworn : wornItem slot with
  | none =>
    rw [Option.any_none, Option.elim_none, Multiset.filter_zero, effectsOf, Multiset.zero_bind,
      tsub_zero]
    cases slot.item <;> rfl
  | some item =>
    have hitem : slot.item = some item := by
      unfold wornItem at hworn
      split at hworn
      · exact hworn
      · cases hworn
    rw [hitem, Option.any_some, Option.elim_some, Multiset.filter_singleton]
    by_cases hc : item.category = category
    · simp only [hc, decide_true, if_true]
      rw [applyBuffs_append, applyBuffs_removeItemEffects, effectsOf, Multiset.singleton_bind]
      rfl
    · simp only [hc, decide_false, if_false, Bool.false_eq_true]
      exact (tsub_zero buffs).symm

theorem applyBuffs_unequipItemByCategory (buffs : Multiset CName) (slots : List InventorySlot)
    (category : ItemCategory) :
    applyBuffs buffs (unequipItemByCategory slots category).2
      = buffs - effectsOf ((worn slots).filter fun item => item.category = category) := by
  induction slots generalizing buffs with
  | nil => exact (tsub_zero buffs).symm
  | cons slot slots ih =>
    have hsplit : (unequipItemByCategory (slot :: slots) category).2
        = (unequipItemByCategory [slot] category).2 ++ (unequipItemByCategory slots category).2 := by
      simp only [unequipItemByCategory, List.flatMap_cons, List.flatMap_nil, List.append_nil]
    rw [hsplit, applyBuffs_append, applyBuffs_unequip_slot, ih, worn_cons, Multiset.filter_add,
      effectsOf_add, tsub_add_eq_tsub_tsub]

structure BuffedPlayer where
  client : InventorySystem
  buffs : Multiset CName

namespace BuffedPlayer

def step (p : BuffedPlayer) (op : Op) : Option BuffedPlayer :=
  (p.client.call op).map fun o => ⟨o.system, applyBuffs p.buffs o.events⟩

def Exact (p : BuffedPlayer) : Prop := p.buffs = effectsOf (worn p.client.inventorySlots)

/-- No removal uses up a worn stack of an item with effects. -/
def KeepsEffects (sys : InventorySystem) : Op → Prop
  | .remove itemId quantity => ∀ itemData, sys.getItemData itemId = some itemData →
    itemData.effects = [] ∨ KeepsWorn itemId sys.inventorySlots quantity
  | _ => True

variable {p p' : BuffedPlayer} {op : Op}

theorem exact_step_iff (hd : p.client.Dressed) (h : p.Exact) (hstep : p.step op = some p') :
    p'.client.Dressed ∧ (p'.Exact ↔ KeepsEffects p.client op) := by
  obtain ⟨o, ho, rfl⟩ := Option.map_eq_some_iff.mp hstep
  refine ⟨(dressed_call hd ho).2, ?_⟩
  unfold Exact at h ⊢
  cases op with
  | add itemId quantity =>
    obtain ⟨-, -, hworn, hev⟩ := addItem_worn hd.tidy ho
    refine iff_of_true ?_ trivial
    dsimp only
    rw [hworn, ← h]
    refine applyBuffs_of_quiet fun e he buffs => ?_
    obtain ⟨n, rfl⟩ := hev e he
    rfl
  | remove itemId quantity =>
    obtain rfl := Option.some.inj ho
    obtain ⟨-, -, hev, hworn⟩ := removeItem_worn hd.tidy itemId quantity
    have hquiet : applyBuffs p.buffs (p.client.removeItem itemId quantity).events = p.buffs :=
      applyBuffs_of_quiet fun e he buffs => by rw [hev e he]; rfl
    dsimp only
    rw [hquiet, h]
    rcases hworn with ⟨hno, hworn⟩ | ⟨itemData, n, hitem, hworn, hn⟩
    · rw [hworn]
      refine iff_of_true rfl fun itemData hitem => ?_
      exact absurd (hno.symm.trans hitem) (Option.some_ne_none _).symm
    · rw [hworn, effectsOf_add, add_eq_left, effectsOf_replicate_eq_zero_iff, hn, or_comm]
      constructor
      · intro hkeeps itemData' hitem'
        obtain rfl := Option.some.inj (hitem.symm.trans hitem')
        exact hkeeps
      · exact fun hkeeps => hkeeps itemData hitem
  | equip itemId =>
    obtain rfl := Option.some.inj ho
    refine iff_of_true ?_ trivial
    rcases equipItem_worn hd.tidy itemId with heq | ⟨itemData, -, -, -, hworn, hev⟩
    · rw [heq]
      exact h
    · have hall := Multiset.filter_add_not (fun item : ItemData => item.category = itemData.category)
        (worn p.client.inventorySlots)
      dsimp only
      rw [hev, hworn, applyBuffs_append, applyBuffs_append, applyBuffs_unequipItemByCategory,
        applyBuffs_applyItemEffects, effectsOf_cons, h]
      nth_rewrite 1 [← hall]
      rw [effectsOf_add, add_tsub_cancel_left, add_comm]
      rfl
  | unequip itemId =>
    obtain rfl := Option.some.inj ho
    refine iff_of_true ?_ trivial
    rcases unequipItem_worn hd.tidy itemId with heq | ⟨item, -, -, hworn, hev⟩
    · rw [heq]
      exact h
    · dsimp only
      rw [hev, applyBuffs_append, applyBuffs_removeItemEffects, h, hworn, effectsOf_cons,
        add_tsub_cancel_left]
      rfl

/-- Throughout a run the buffs are the effects of what is worn exactly if no removal of the run
uses up a worn stack of an item with effects. -/
theorem exact_throughout_iff (items : List ItemData) (ops : List Op) :
    Run.Throughout step Exact ⟨initializeSystem items, 0⟩ ops ↔
      Run.AtEach step (fun p op => KeepsEffects p.client op) ⟨initializeSystem items, 0⟩ ops := by
  have hstart : Exact ⟨initializeSystem items, 0⟩ := by
    unfold Exact
    rw [worn_initializeSystem]
    rfl
  refine Run.throughout_iff_atEach_of_returning (K := fun p : BuffedPlayer => p.client.Dressed)
    (Q := fun _ => True) (fun p op hd h _ => ⟨fun hnone => ?_, fun p' hp' => exact_step_iff hd h hp'⟩)
    (dressed_initializeSystem items) hstart fun _ _ => trivial
  cases op with
  | remove itemId quantity => cases hnone
  | _ => trivial

theorem not_exact_thrown :
    ¬ Run.Throughout step Exact ⟨initializeSystem [⟨"sword", .weapon, 2, 1, true, ["strength"]⟩], 0⟩
      [.add "sword" 1, .equip "sword", .remove "sword" 1] := by
  intro h
  have hleft : (([.add "sword" 1, .equip "sword", .remove "sword" 1] : List Op).foldlM step
      ⟨initializeSystem [⟨"sword", .weapon, 2, 1, true, ["strength"]⟩], 0⟩).map
        (fun p => (p.buffs, effectsOf (worn p.client.inventorySlots))) = some ({"strength"}, 0) := by
    decide +kernel
  obtain ⟨p, hp, hpair⟩ := Option.map_eq_some_iff.mp hleft
  rw [Prod.mk.injEq] at hpair
  have hexact := h.final hp
  rw [Exact, hpair.1, hpair.2] at hexact
  exact Multiset.singleton_ne_zero _ hexact

end BuffedPlayer
end WitcherMP.Inventory
