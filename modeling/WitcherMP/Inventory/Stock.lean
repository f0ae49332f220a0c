import WitcherMP.Inventory.Defs
import Mathlib.Algebra.Order.BigOperators.Group.List
import Mathlib.Data.List.Nodup
import Mathlib.Tactic.Ring
import Mathlib.Tactic.Linarith

/-! What is in the slots. `total f` adds up `f` over everything held: with weights it is the
load, with the indicator of an item id it is the item count. The loops are specified by
the one amount they move. -/

namespace WitcherMP.Inventory

structure ValidTable (items : List ItemData) : Prop where
  ids : (items.map ItemData.id).Nodup
  stackSize_pos : ∀ item ∈ items, 0 < item.stackSize
  weight_nonneg : ∀ item ∈ items, 0 ≤ item.weight

theorem ValidTable.eq_of_id {items : List ItemData} (ht : ValidTable items) {a b : ItemData}
    (ha : a ∈ items) (hb : b ∈ items) (hid : a.id = b.id) : a = b :=
  List.inj_on_of_nodup_map ht.ids ha hb hid

namespace InventorySlot

def Valid (items : List ItemData) (slot : InventorySlot) : Prop :=
  (slot.item = none ∧ slot.quantity = 0) ∨
    ∃ item ∈ items, slot.item = some item ∧ 0 < slot.quantity ∧ slot.quantity ≤ item.stackSize

def measure (f : ItemData → ℚ) (slot : InventorySlot) : ℚ :=
  if slot.isEmpty then 0 else slot.item.elim 0 fun item => f item * slot.quantity

section Valid
variable {items : List ItemData} {slot : InventorySlot} {f : ItemData → ℚ} {itemData : ItemData}

theorem valid_of_stack (hmem : itemData ∈ items) (hitem : slot.item = some itemData)
    (hpos : 0 < slot.quantity) (hle : slot.quantity ≤ itemData.stackSize) : Valid items slot :=
  Or.inr ⟨itemData, hmem, hitem, hpos, hle⟩

theorem measure_of_none (h : slot.item = none) : slot.measure f = 0 := by
  simp [measure, isEmpty, h]

theorem measure_of_stack (hitem : slot.item = some itemData) (hpos : 0 < slot.quantity) :
    slot.measure f = f itemData * slot.quantity := by
  simp [measure, isEmpty, hitem, not_le.mpr hpos]

theorem valid_setQuantity (hmem : itemData ∈ items) (hitem : slot.item = some itemData) {n : ℤ}
    (hpos : 0 < n) (hle : n ≤ itemData.stackSize) : Valid items { slot with quantity := n } :=
  valid_of_stack hmem hitem hpos hle

theorem measure_setQuantity (hitem : slot.item = some itemData) {n : ℤ} (hpos : 0 < n) :
    measure f { slot with quantity := n } = f itemData * n := by
  have h : ({ slot with quantity := n } : InventorySlot).item = some itemData := hitem
  exact measure_of_stack h hpos

theorem Valid.of_holds (ht : ValidTable items) (hmem : itemData ∈ items) (hv : slot.Valid items)
    (hh : slot.holds itemData.id) :
    slot.item = some itemData ∧ 0 < slot.quantity ∧ slot.quantity ≤ itemData.stackSize := by
  rcases hv with ⟨hnone, -⟩ | ⟨item, hitem, hsome, hpos, hle⟩
  · simp [holds, hnone] at hh
  · have hid : item.id = itemData.id := by
      simpa [holds, hsome, isEmpty, hpos] using hh
    obtain rfl := ht.eq_of_id hitem hmem hid
    exact ⟨hsome, hpos, hle⟩

theorem Valid.of_isEmpty (hv : slot.Valid items) (he : slot.isEmpty) :
    slot.item = none ∧ slot.quantity = 0 := by
  rcases hv with h | ⟨item, -, hsome, hpos, -⟩
  · exact h
  · simp [isEmpty, hsome, not_le.mpr hpos] at he

end Valid
end InventorySlot

open InventorySlot

/-- The sum of `f` over every unit held. -/
def total (f : ItemData → ℚ) (slots : List InventorySlot) : ℚ := (slots.map (measure f)).sum

@[simp] theorem total_nil (f : ItemData → ℚ) : total f [] = 0 := rfl

@[simp] theorem total_cons (f : ItemData → ℚ) (slot : InventorySlot) (slots : List InventorySlot) :
    total f (slot :: slots) = slot.measure f + total f slots := rfl

structure Moved (items : List ItemData) (itemData : ItemData) (slots slots' : List InventorySlot)
    (n : ℤ) : Prop where
  valid : ∀ slot ∈ slots', slot.Valid items
  total : ∀ f, total f slots' = total f slots + f itemData * n
  length : slots'.length = slots.length

namespace Moved
variable {items : List ItemData} {itemData : ItemData} {slots slots' slots'' : List InventorySlot}
  {m n : ℤ} {slot slot' : InventorySlot}

theorem refl (itemData : ItemData) (hv : ∀ slot ∈ slots, slot.Valid items) :
    Moved items itemData slots slots 0 :=
  ⟨hv, fun f => by simp, rfl⟩

theorem trans (h : Moved items itemData slots slots' m) (h' : Moved items itemData slots' slots'' n) :
    Moved items itemData slots slots'' (m + n) :=
  ⟨h'.valid, fun f => by rw [h'.total, h.total]; push_cast; ring, h'.length.trans h.length⟩

theorem cons (slot : InventorySlot) (h : Moved items itemData slots slots' n)
    (hv : slot'.Valid items)
    (hm : ∀ f, slot'.measure f = slot.measure f + f itemData * m) :
    Moved items itemData (slot :: slots) (slot' :: slots') (m + n) where
  valid := List.forall_mem_cons.mpr ⟨hv, h.valid⟩
  total f := by
    rw [total_cons, total_cons, hm, h.total]
    push_cast
    ring
  length := congrArg (· + 1) h.length

theorem cons_same (h : Moved items itemData slots slots' n) (hv : slot.Valid items) :
    Moved items itemData (slot :: slots) (slot :: slots') n := by
  have h' := h.cons slot (m := 0) hv fun f => by simp
  rwa [zero_add] at h'

end Moved

namespace InventorySystem
variable {items : List ItemData} {itemData : ItemData} {slots : List InventorySlot}
  {quantity : ℤ} {weight : ℚ}

theorem fillStacks_moved (ht : ValidTable items) (hmem : itemData ∈ items)
    (hv : ∀ slot ∈ slots, slot.Valid items) (quantity : ℤ) (weight : ℚ) :
    ∃ n, 0 ≤ n ∧ n ≤ max quantity 0 ∧
      Moved items itemData slots (fillStacks itemData itemData.id slots quantity weight).slots n ∧
      (fillStacks itemData itemData.id slots quantity weight).quantity = quantity - n ∧
      (fillStacks itemData itemData.id slots quantity weight).weight =
        weight + itemData.weight * n := by
  induction slots generalizing quantity weight with
  | nil =>
    exact ⟨0, le_rfl, le_max_right _ _, .refl itemData hv, by simp [fillStacks], by simp [fillStacks]⟩
  | cons slot slots ih =>
    obtain ⟨hslot, hslots⟩ := List.forall_mem_cons.mp hv
    rw [fillStacks]
    split
    case isFalse =>
      obtain ⟨n, hn, hle, hmoved, hq, hw⟩ := ih hslots quantity weight
      exact ⟨n, hn, hle, hmoved.cons_same hslot, hq, hw⟩
    case isTrue hadd =>
      obtain ⟨hitem, hpos, -⟩ := hslot.of_holds ht hmem hadd.1
      set canAdd := min quantity (itemData.stackSize - slot.quantity) with hcan
      have hroom : canAdd ≤ itemData.stackSize - slot.quantity := min_le_right _ _
      have hask : canAdd ≤ quantity := min_le_left _ _
      have hcan0 : 0 < canAdd := hadd.2
      have hnew : ({ slot with quantity := slot.quantity + canAdd } : InventorySlot).Valid items :=
        valid_setQuantity hmem hitem (by omega) (by omega)
      have hmeasure : ∀ f, ({ slot with quantity := slot.quantity + canAdd } : InventorySlot).measure f
          = slot.measure f + f itemData * canAdd := by
        intro f
        rw [measure_setQuantity hitem (by omega), measure_of_stack hitem hpos]
        push_cast
        ring
      split
      · refine ⟨canAdd, hcan0.le, hask.trans (le_max_left _ _), ?_, rfl, rfl⟩
        have h := (Moved.refl itemData hslots).cons slot hnew hmeasure
        rwa [add_zero] at h
      · obtain ⟨n, hn, hle, hmoved, hq, hw⟩ :=
          ih hslots (quantity - canAdd) (weight + itemData.weight * canAdd)
        refine ⟨canAdd + n, by omega, by omega, hmoved.cons slot hnew hmeasure, ?_, ?_⟩
        · rw [Fill.cons, hq]
          ring
        · rw [Fill.cons, hw]
          push_cast
          ring

theorem addItem_of_isEmpty {slot : InventorySlot} (he : slot.isEmpty) (itemData : ItemData) (n : ℤ) :
    (slot.addItem itemData n).1 = { slot with item := some itemData, quantity := n } := by
  simp [InventorySlot.addItem, canAddItem, he]

theorem countP_openStack (itemData : ItemData) {i : ℕ} (hi : findEmptySlot slots = some i) {n : ℤ}
    (hn : 0 < n) :
    (slots.modify i fun slot => (slot.addItem itemData n).1).countP isEmpty + 1
      = slots.countP isEmpty := by
  induction slots generalizing i with
  | nil => cases hi
  | cons slot slots ih =>
    rw [findEmptySlot, List.findIdx?_cons] at hi
    split at hi
    case isTrue he =>
      obtain rfl : 0 = i := Option.some.inj hi
      have hfull : (slot.addItem itemData n).1.isEmpty = false := by
        rw [addItem_of_isEmpty he]
        simp [isEmpty, hn]
      rw [List.modify_zero_cons, List.countP_cons_of_neg (by simp [hfull]),
        List.countP_cons_of_pos he]
    case isFalse he =>
      obtain ⟨j, hj, rfl⟩ := Option.map_eq_some_iff.mp hi
      rw [List.modify_succ_cons, List.countP_cons_of_neg he, List.countP_cons_of_neg he, ih hj]

theorem modify_moved (hmem : itemData ∈ items) (hv : ∀ slot ∈ slots, slot.Valid items) {i : ℕ}
    (hi : findEmptySlot slots = some i) {n : ℤ} (hn : 0 < n) (hle : n ≤ itemData.stackSize) :
    Moved items itemData slots (slots.modify i fun slot => (slot.addItem itemData n).1) n := by
  induction slots generalizing i with
  | nil => cases hi
  | cons slot slots ih =>
    obtain ⟨hslot, hslots⟩ := List.forall_mem_cons.mp hv
    rw [findEmptySlot, List.findIdx?_cons] at hi
    split at hi
    case isTrue he =>
      obtain rfl : 0 = i := Option.some.inj hi
      obtain ⟨hitem, -⟩ := hslot.of_isEmpty he
      rw [List.modify_zero_cons, addItem_of_isEmpty he]
      have hnew : ({ slot with item := some itemData, quantity := n } : InventorySlot).Valid items :=
        valid_of_stack hmem rfl hn hle
      have h := (Moved.refl itemData hslots).cons slot (m := n) hnew fun f => by
        rw [measure_of_none hitem, zero_add]
        exact measure_of_stack rfl hn
      rwa [add_zero] at h
    case isFalse =>
      obtain ⟨j, hj, rfl⟩ := Option.map_eq_some_iff.mp hi
      rw [List.modify_succ_cons]
      exact (ih hslots hj).cons_same hslot

theorem fillEmptySlots_moved (ht : ValidTable items) (hmem : itemData ∈ items) (itemId : CName)
    {fuel : ℕ} (hv : ∀ slot ∈ slots, slot.Valid items) (hfuel : slots.countP isEmpty < fuel)
    (quantity : ℤ) (weight : ℚ) :
    ∃ ns r, 0 ≤ List.sum ns ∧ List.sum ns ≤ max quantity 0 ∧
      fillEmptySlots itemData itemId fuel slots quantity weight = some r ∧
      Moved items itemData slots r.1 ns.sum ∧ r.2.1 = weight + itemData.weight * ns.sum ∧
      r.2.2.2 = ns.map (fun n => .inventoryChange itemId n true) ∧
      (r.2.2.1 = true ∧ ns.sum = max quantity 0 ∧
          ns.sum ≤ itemData.stackSize * slots.countP isEmpty ∨
        r.2.2.1 = false ∧ ns.sum = itemData.stackSize * slots.countP isEmpty ∧
          ns.sum < quantity) := by
  induction fuel generalizing slots quantity weight with
  | zero => omega
  | succ fuel ih =>
    rw [fillEmptySlots]
    split
    case isFalse hq =>
      have hroom : 0 ≤ itemData.stackSize * (slots.countP isEmpty : ℤ) :=
        mul_nonneg (ht.stackSize_pos itemData hmem).le (Int.natCast_nonneg _)
      refine ⟨[], _, le_rfl, le_max_right _ _, rfl, .refl itemData hv, by simp, rfl,
        Or.inl ⟨rfl, ?_, hroom⟩⟩
      exact (max_eq_right (not_lt.mp hq)).symm
    case isTrue hq =>
      have hstack := ht.stackSize_pos itemData hmem
      split
      case h_1 hnone =>
        refine ⟨[], _, le_rfl, le_max_right _ _, rfl, .refl itemData hv, by simp, rfl,
          Or.inr ⟨rfl, ?_, hq⟩⟩
        have hcount : slots.countP isEmpty = 0 :=
          List.countP_eq_zero.mpr fun slot hslot => by
            simpa using List.findIdx?_eq_none_iff.mp hnone slot hslot
        rw [hcount, Nat.cast_zero, mul_zero, List.sum_nil]
      case h_2 i hi =>
        set canAdd := min quantity itemData.stackSize with hcan
        have hpos : 0 < canAdd := lt_min hq hstack
        have hask : canAdd ≤ quantity := min_le_left _ _
        have hmoved := modify_moved hmem hv hi hpos (min_le_right _ _)
        have hcount := countP_openStack itemData hi hpos
        obtain ⟨ns, r, hn, hle, hr, hmoved', hw, hev, hplaced⟩ :=
          ih hmoved.valid (by omega) (quantity - canAdd) (weight + itemData.weight * canAdd)
        refine ⟨canAdd :: ns, (r.1, r.2.1, r.2.2.1, .inventoryChange itemId canAdd true :: r.2.2.2),
          ?_, ?_, ?_, ?_, ?_, ?_, ?_⟩
        · rw [List.sum_cons]
          omega
        · rw [List.sum_cons]
          omega
        · simp only [hr, Option.map_some]
        · rw [List.sum_cons]
          exact hmoved.trans hmoved'
        · rw [List.sum_cons, hw]
          push_cast
          ring
        · rw [List.map_cons, hev]
        · rw [List.sum_cons]
          set rest := slots.modify i fun slot => (slot.addItem itemData canAdd).1 with hrest
          have hopen : itemData.stackSize * (slots.countP isEmpty : ℤ) =
              itemData.stackSize + itemData.stackSize * (rest.countP isEmpty : ℤ) := by
            rw [← hcount]
            push_cast
            ring
          have hfit : canAdd ≤ itemData.stackSize := min_le_right _ _
          rcases hplaced with ⟨hr, hsum, hroom⟩ | ⟨hr, hsum, hlt⟩
          · exact Or.inl ⟨hr, by omega, by omega⟩
          · exact Or.inr ⟨hr, by omega, by omega⟩

theorem drainStacks_moved (ht : ValidTable items) (hmem : itemData ∈ items)
    (hv : ∀ slot ∈ slots, slot.Valid items) (remaining : ℤ) (weight : ℚ) :
    ∃ n, 0 ≤ n ∧ n ≤ max remaining 0 ∧
      Moved items itemData slots (drainStacks itemData itemData.id slots remaining weight).1 (-n) ∧
      (drainStacks itemData itemData.id slots remaining weight).2.1 = remaining - n ∧
      (drainStacks itemData itemData.id slots remaining weight).2.2 =
        weight - itemData.weight * n := by
  induction slots generalizing remaining weight with
  | nil =>
    exact ⟨0, le_rfl, le_max_right _ _, .refl itemData hv, by simp [drainStacks], by simp [drainStacks]⟩
  | cons slot slots ih =>
    obtain ⟨hslot, hslots⟩ := List.forall_mem_cons.mp hv
    rw [drainStacks]
    split
    case isFalse => exact ⟨0, le_rfl, le_max_right _ _, .refl itemData hv, by simp, by simp⟩
    case isTrue hrem =>
    split
    case isFalse =>
      obtain ⟨n, hn, hle, hmoved, hq, hw⟩ := ih hslots remaining weight
      exact ⟨n, hn, hle, hmoved.cons_same hslot, hq, hw⟩
    case isTrue hh =>
      obtain ⟨hitem, hpos, hstack⟩ := hslot.of_holds ht hmem hh
      set canRemove := min remaining slot.quantity with hcan
      have hpos' : 0 < canRemove := lt_min hrem hpos
      have hask : canRemove ≤ remaining := min_le_left _ _
      have hheld : canRemove ≤ slot.quantity := min_le_right _ _
      obtain ⟨n, hn, hle, hmoved, hq, hw⟩ :=
        ih hslots (remaining - canRemove) (weight - itemData.weight * canRemove)
      have hslot' : (slot.removeItem canRemove).1.Valid items ∧
          ∀ f, (slot.removeItem canRemove).1.measure f =
            slot.measure f + f itemData * (-canRemove : ℤ) := by
        rw [InventorySlot.removeItem, if_neg (not_lt.mpr hheld)]
        split
        · next hall =>
          refine ⟨Or.inl ⟨rfl, rfl⟩, fun f => ?_⟩
          have heq : canRemove = slot.quantity := by omega
          rw [measure_of_none rfl, measure_of_stack hitem hpos, heq]
          push_cast
          ring
        · next hleft =>
          refine ⟨valid_setQuantity hmem hitem (by omega) (by omega), fun f => ?_⟩
          rw [measure_setQuantity hitem (by omega), measure_of_stack hitem hpos]
          push_cast
          ring
      refine ⟨canRemove + n, by omega, by omega, ?_, ?_, ?_⟩
      · have h := hmoved.cons slot hslot'.1 hslot'.2
        rwa [show -(canRemove + n) = -canRemove + -n by ring]
      · rw [hq]
        ring
      · rw [hw]
        push_cast
        ring

end InventorySystem
end WitcherMP.Inventory
