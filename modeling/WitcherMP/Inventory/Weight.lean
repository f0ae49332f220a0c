import WitcherMP.Inventory.Database
import WitcherMP.Lib.Run

/-! In every reachable state the booked weight is the load carried, within the limit, and
every stack is within its stack size. -/

namespace WitcherMP.Inventory
open InventorySlot

namespace InventorySystem

structure Sound (sys : InventorySystem) : Prop where
  table : ValidTable sys.items
  valid : ∀ slot ∈ sys.inventorySlots, slot.Valid sys.items
  weight : sys.currentWeight = total ItemData.weight sys.inventorySlots
  le_maxWeight : sys.currentWeight ≤ sys.maxWeight

theorem total_initializeSlot (f : ItemData → ℚ) (is : List ℕ) :
    total f (is.map initializeSlot) = 0 := by
  induction is with
  | nil => rfl
  | cons i is ih => rw [List.map_cons, total_cons, ih, measure_of_none rfl, add_zero]

theorem sound_initializeSystem {items : List ItemData} (ht : ValidTable items) :
    (initializeSystem items).Sound where
  table := ht
  valid slot hslot := by
    obtain ⟨i, -, rfl⟩ := List.mem_map.mp hslot
    exact Or.inl ⟨rfl, rfl⟩
  weight := (total_initializeSlot ItemData.weight _).symm
  le_maxWeight := by norm_num [initializeSystem]

section Step
variable {sys : InventorySystem} {itemId : CName} {itemData : ItemData}

theorem getItemData_eq_some (h : sys.getItemData itemId = some itemData) :
    itemData ∈ sys.items ∧ itemData.id = itemId :=
  ⟨List.mem_of_find?_eq_some h, by simpa using List.find?_some h⟩

theorem forall_fitting_iff (hitem : sys.getItemData itemId = some itemData)
    {fits P : ItemData → Prop} (hfit : fits itemData) :
    (∀ item, sys.getItemData itemId = some item → fits item → P item) ↔ P itemData := by
  constructor
  · exact fun h => h itemData hitem hfit
  · intro h item hitem' _
    obtain rfl := Option.some.inj (hitem.symm.trans hitem')
    exact h

theorem Sound.of_moved (hs : sys.Sound) {slots : List InventorySlot} {n : ℤ}
    (hmoved : Moved sys.items itemData sys.inventorySlots slots n) {w : ℚ}
    (hw : w = sys.currentWeight + itemData.weight * n) (hle : w ≤ sys.maxWeight) :
    Sound { sys with inventorySlots := slots, currentWeight := w } where
  table := hs.table
  valid := hmoved.valid
  weight := by rw [hmoved.total, ← hs.weight, hw]
  le_maxWeight := hle

theorem load_le (hmem : itemData ∈ sys.items) (hs : sys.Sound) {n quantity : ℤ}
    (hle : n ≤ max quantity 0)
    (hfit : ¬ sys.currentWeight + itemData.weight * quantity > sys.maxWeight) :
    sys.currentWeight + itemData.weight * n ≤ sys.maxWeight := by
  have hw := hs.table.weight_nonneg itemData hmem
  have hmax := hs.le_maxWeight
  rcases le_max_iff.mp hle with h | h
  · have hmul : itemData.weight * n ≤ itemData.weight * quantity :=
      mul_le_mul_of_nonneg_left (by exact_mod_cast h) hw
    linarith
  · have hmul : itemData.weight * n ≤ 0 :=
      mul_nonpos_of_nonneg_of_nonpos hw (by exact_mod_cast h)
    linarith

theorem sound_addItem (hs : sys.Sound) (itemId : CName) (quantity : ℤ) :
    ∃ o, sys.addItem itemId quantity = some o ∧ o.system.Sound := by
  unfold addItem
  split
  · exact ⟨_, rfl, hs⟩
  case h_2 itemData hitem =>
  obtain ⟨hmem, rfl⟩ := getItemData_eq_some hitem
  dsimp only
  split
  · exact ⟨_, rfl, hs⟩
  next hfit =>
  obtain ⟨n, hn, hle, hmoved, hq, hw⟩ :=
    fillStacks_moved hs.table hmem hs.valid quantity sys.currentWeight
  split
  · exact ⟨_, rfl, hs.of_moved hmoved hw (hw ▸ load_le hmem hs hle hfit)⟩
  · obtain ⟨ns, r, hns, hle', hr, hmoved', hw', -⟩ := fillEmptySlots_moved hs.table hmem itemData.id
      hmoved.valid (Nat.lt_succ_of_le List.countP_le_length)
      (fillStacks itemData itemData.id sys.inventorySlots quantity sys.currentWeight).quantity
      (fillStacks itemData itemData.id sys.inventorySlots quantity sys.currentWeight).weight
    have hweight : r.2.1 = sys.currentWeight + itemData.weight * (n + ns.sum : ℤ) := by
      rw [hw', hw]
      push_cast
      ring
    have hall : n + ns.sum ≤ max quantity 0 := by
      rw [hq] at hle'
      omega
    rw [hr]
    exact ⟨_, rfl, hs.of_moved (hmoved.trans hmoved') hweight
      (hweight ▸ load_le hmem hs hall hfit)⟩

theorem sound_removeItem (hs : sys.Sound) (itemId : CName) (quantity : ℤ) :
    (sys.removeItem itemId quantity).system.Sound := by
  unfold removeItem
  split
  · exact hs
  case h_2 itemData hitem =>
  obtain ⟨hmem, rfl⟩ := getItemData_eq_some hitem
  obtain ⟨n, hn, -, hmoved, -, hw⟩ :=
    drainStacks_moved hs.table hmem hs.valid quantity sys.currentWeight
  have hload : 0 ≤ itemData.weight * n :=
    mul_nonneg (hs.table.weight_nonneg itemData hmem) (by exact_mod_cast hn)
  have hle := hs.le_maxWeight
  have hsound := hs.of_moved hmoved (w := sys.currentWeight - itemData.weight * n)
    (by push_cast; ring) (by linarith)
  dsimp only
  rw [hw]
  split <;> exact hsound

def contents (slots : List InventorySlot) : List (Option ItemData × ℤ) :=
  slots.map fun slot => (slot.item, slot.quantity)

theorem contents_map {g : InventorySlot → InventorySlot}
    (hg : ∀ slot, (g slot).item = slot.item ∧ (g slot).quantity = slot.quantity)
    (slots : List InventorySlot) : contents (slots.map g) = contents slots := by
  rw [contents, List.map_map]
  exact List.map_congr_left fun slot _ => Prod.ext (hg slot).1 (hg slot).2

theorem contents_modify {g : InventorySlot → InventorySlot}
    (hg : ∀ slot, (g slot).item = slot.item ∧ (g slot).quantity = slot.quantity)
    (slots : List InventorySlot) (i : ℕ) : contents (slots.modify i g) = contents slots := by
  induction slots generalizing i with
  | nil => simp
  | cons slot slots ih =>
    cases i with
    | zero =>
      rw [List.modify_zero_cons]
      exact congrArg (· :: contents slots) (Prod.ext (hg slot).1 (hg slot).2)
    | succ i =>
      rw [List.modify_succ_cons]
      exact congrArg (_ :: ·) (ih i)

theorem total_eq_of_contents {slots slots' : List InventorySlot}
    (h : contents slots' = contents slots) (f : ItemData → ℚ) : total f slots' = total f slots := by
  have hread : ∀ slots, total f slots =
      ((contents slots).map fun c => measure f ⟨c.1, c.2, false, 0⟩).sum := by
    intro slots
    rw [contents, List.map_map]
    rfl
  rw [hread, hread, h]

theorem Sound.of_contents (hs : sys.Sound) {slots : List InventorySlot}
    (h : contents slots = contents sys.inventorySlots) :
    Sound { sys with inventorySlots := slots } where
  table := hs.table
  valid slot hslot := by
    have hmem : (slot.item, slot.quantity) ∈ contents sys.inventorySlots :=
      h ▸ List.mem_map_of_mem hslot
    obtain ⟨slot₀, hslot₀, heq⟩ := List.mem_map.mp hmem
    have hv := hs.valid slot₀ hslot₀
    rw [Prod.mk.injEq] at heq
    rwa [Valid, heq.1, heq.2] at hv
  weight := by rw [total_eq_of_contents h, ← hs.weight]
  le_maxWeight := hs.le_maxWeight

structure Rearranged (sys : InventorySystem) (o : Outcome) : Prop where
  system : ∃ slots, o.system = { sys with inventorySlots := slots } ∧
    contents slots = contents sys.inventorySlots
  events : ∀ e ∈ o.events, ∀ itemId quantity added, e ≠ .inventoryChange itemId quantity added

theorem Rearranged.unchanged (sys : InventorySystem) : Rearranged sys ⟨sys, false, []⟩ :=
  ⟨⟨sys.inventorySlots, rfl, rfl⟩, by simp⟩

theorem Rearranged.sound {o : Outcome} (h : Rearranged sys o) (hs : sys.Sound) : o.system.Sound := by
  obtain ⟨slots, hsys, hcontents⟩ := h.system
  rw [hsys]
  exact hs.of_contents hcontents

theorem equipItem_rearranged (sys : InventorySystem) (itemId : CName) :
    Rearranged sys (sys.equipItem itemId) := by
  unfold equipItem
  split
  · exact .unchanged sys
  split
  · exact .unchanged sys
  split
  · exact .unchanged sys
  refine ⟨⟨_, rfl, (contents_modify (fun slot => ?_) _ _).trans (contents_map (fun slot => ?_) _)⟩,
    fun e he itemId' quantity added heq => ?_⟩
  · exact ⟨rfl, rfl⟩
  · split <;> exact ⟨rfl, rfl⟩
  · subst heq
    simp only [unequipItemByCategory, applyItemEffects, removeItemEffects, List.mem_append,
      List.mem_flatMap, List.mem_map, List.mem_singleton, reduceCtorEq, and_false, exists_false,
      or_false] at he
    obtain ⟨slot, -, hslot⟩ := he
    split at hslot
    · split at hslot <;> simp at hslot
    · simp at hslot

theorem unequipItem_rearranged (sys : InventorySystem) (itemId : CName) :
    Rearranged sys (sys.unequipItem itemId) := by
  unfold unequipItem
  split
  · exact .unchanged sys
  split
  · exact .unchanged sys
  next slot hslot =>
  split
  · exact .unchanged sys
  refine ⟨⟨_, rfl, contents_modify (fun slot => ?_) _ _⟩, fun e he itemId' quantity added heq => ?_⟩
  · exact ⟨rfl, rfl⟩
  · subst heq
    cases hitem : slot.item <;> simp [hitem, removeItemEffects] at he

theorem sound_step (hs : sys.Sound) (op : Op) : ∃ sys', sys.step op = some sys' ∧ sys'.Sound := by
  cases op with
  | add itemId quantity =>
    obtain ⟨o, ho, hsound⟩ := sound_addItem hs itemId quantity
    exact ⟨o.system, by rw [step, call, ho, Option.map_some], hsound⟩
  | remove itemId quantity => exact ⟨_, rfl, sound_removeItem hs itemId quantity⟩
  | equip itemId => exact ⟨_, rfl, (equipItem_rearranged sys itemId).sound hs⟩
  | unequip itemId => exact ⟨_, rfl, (unequipItem_rearranged sys itemId).sound hs⟩

end Step

/-- Every run of calls returns, and leaves the booked weight equal to the load in the slots,
within the limit, and every stack between nothing and its stack size. -/
theorem run_within_limits {items : List ItemData} (ht : ValidTable items) (ops : List Op) :
    ∃ sys, ops.foldlM step (initializeSystem items) = some sys ∧
      sys.currentWeight = total ItemData.weight sys.inventorySlots ∧
      sys.currentWeight ≤ sys.maxWeight ∧
      ∀ slot ∈ sys.inventorySlots, 0 ≤ slot.quantity ∧
        ∀ item, slot.item = some item → slot.quantity ≤ item.stackSize := by
  obtain ⟨sys, hrun, hs⟩ :=
    Run.foldlM_of_step (fun sys op hs => sound_step hs op) (sound_initializeSystem ht) ops
  refine ⟨sys, hrun, hs.weight, hs.le_maxWeight, fun slot hslot => ?_⟩
  rcases hs.valid slot hslot with ⟨hnone, hzero⟩ | ⟨item, -, hsome, hpos, hle⟩
  · refine ⟨hzero.ge, fun item hitem => ?_⟩
    rw [hnone] at hitem
    cases hitem
  · refine ⟨hpos.le, fun item' hitem' => ?_⟩
    rw [hsome, Option.some.injEq] at hitem'
    exact hitem' ▸ hle

theorem run_within_limits_database :
    ∃ sys, [Op.add "food_bread" 30, .add "food_bread" 15, .remove "food_bread" 50,
        .add "steel_sword_basic" 2, .equip "steel_sword_basic"].foldlM step
        (initializeSystem initializeItemsDatabase) = some sys ∧
      sys.currentWeight = total ItemData.weight sys.inventorySlots ∧
      sys.currentWeight ≤ sys.maxWeight ∧
      ∀ slot ∈ sys.inventorySlots, 0 ≤ slot.quantity ∧
        ∀ item, slot.item = some item → slot.quantity ≤ item.stackSize :=
  run_within_limits validTable_initializeItemsDatabase _

end InventorySystem
end WitcherMP.Inventory
