import WitcherMP.Inventory.Mirror
import Mathlib.Data.Multiset.Filter
import Mathlib.Algebra.Order.Group.Multiset
import Mathlib.Tactic.Abel

/-! What is worn, as a bag of items. Adding leaves it alone, removing takes out what it empties,
and equipping replaces whatever is worn under the category. -/

namespace WitcherMP.Inventory.InventorySystem

def wornItem (slot : InventorySlot) : Option ItemData :=
  if slot.isEquipped ∧ ¬ slot.isEmpty then slot.item else none

def worn (slots : List InventorySlot) : Multiset ItemData := slots.filterMap wornItem

structure Tidy (items : List ItemData) (slot : InventorySlot) : Prop where
  known : ∀ item, slot.item = some item → items.find? (fun a => a.id = item.id) = some item
  unmarked : slot.isEmpty → slot.isEquipped = false
  equippable : slot.isEquipped → ∀ item, slot.item = some item → item.isEquippable

section Worn
variable {slot slot' : InventorySlot} {slots slots' : List InventorySlot} {itemData : ItemData}

theorem worn_cons (slot : InventorySlot) (slots : List InventorySlot) :
    worn (slot :: slots) = (wornItem slot).elim 0 (fun item => {item}) + worn slots := by
  unfold worn
  cases h : wornItem slot with
  | none => rw [List.filterMap_cons_none h, Option.elim_none, zero_add]
  | some item =>
    rw [List.filterMap_cons_some h, Option.elim_some, ← Multiset.cons_coe, Multiset.singleton_add]

theorem wornItem_of_unmarked (h : slot.isEquipped = false) : wornItem slot = none :=
  if_neg fun hc => Bool.false_ne_true (h.symm.trans hc.1)

theorem wornItem_of_marked (he : slot.isEquipped) (hfull : slot.isEmpty = false) :
    wornItem slot = slot.item := if_pos ⟨he, by rw [hfull]; exact Bool.false_ne_true⟩

theorem wornItem_mark (hfull : slot.isEmpty = false) :
    wornItem { slot with isEquipped := true } = slot.item :=
  if_pos ⟨rfl, by rw [Bool.not_eq_true]; exact hfull⟩

theorem worn_eq_of_map (h : slots'.map wornItem = slots.map wornItem) : worn slots' = worn slots := by
  have hread : ∀ slots : List InventorySlot,
      slots.filterMap wornItem = (slots.map wornItem).filterMap id :=
    fun slots => by rw [List.filterMap_map, Function.id_comp]
  rw [worn, worn, hread, hread, h]

theorem worn_modify {g : InventorySlot → InventorySlot} {i : ℕ} (h : slots[i]? = some slot) :
    worn (slots.modify i g) + (wornItem slot).elim 0 (fun item => {item})
      = worn slots + (wornItem (g slot)).elim 0 (fun item => {item}) := by
  induction slots generalizing i with
  | nil => cases h
  | cons slot' slots ih =>
    cases i with
    | zero =>
      obtain rfl : slot' = slot := Option.some.inj h
      rw [List.modify_zero_cons, worn_cons, worn_cons]
      abel
    | succ i =>
      rw [List.modify_succ_cons, worn_cons, worn_cons, add_assoc, ih h, add_assoc]

theorem wears_eq (category : ItemCategory) (slot : InventorySlot) :
    wears category slot = (wornItem slot).any fun item => item.category = category := by
  unfold wears wornItem
  cases slot.isEmpty <;> cases slot.isEquipped <;> rfl

theorem countP_wears (category : ItemCategory) (slots : List InventorySlot) :
    slots.countP (wears category) = ((worn slots).map ItemData.category).count category := by
  rw [Multiset.count_map, worn, Multiset.filter_coe, Multiset.coe_card, ← List.countP_eq_length_filter,
    List.countP_filterMap]
  refine List.countP_congr fun slot _ => ?_
  rw [wears_eq]
  cases wornItem slot <;> simp [eq_comm]

theorem mem_worn {item : ItemData} : item ∈ worn slots ↔ ∃ slot ∈ slots, wornItem slot = some item :=
  Multiset.mem_coe.trans List.mem_filterMap

end Worn

section Loops
variable {items : List ItemData} {itemData : ItemData} {itemId : CName} {slot : InventorySlot}
  {slots : List InventorySlot}

theorem isEmpty_setQuantity (hfull : slot.isEmpty = false) {n : ℤ} (hn : 0 < n) :
    ({ slot with quantity := n } : InventorySlot).isEmpty = false := by
  rw [InventorySlot.isEmpty, Bool.or_eq_false_iff] at hfull ⊢
  exact ⟨hfull.1, decide_eq_false (not_le.mpr hn)⟩

theorem wornItem_setQuantity (hfull : slot.isEmpty = false) {n : ℤ} (hn : 0 < n) :
    wornItem { slot with quantity := n } = wornItem slot := by
  unfold wornItem
  rw [hfull, isEmpty_setQuantity hfull hn]

theorem Tidy.setQuantity (h : Tidy items slot) (hfull : slot.isEmpty = false) {n : ℤ} (hn : 0 < n) :
    Tidy items { slot with quantity := n } where
  known := h.known
  unmarked hempty := by
    rw [isEmpty_setQuantity hfull hn] at hempty
    exact absurd hempty Bool.false_ne_true
  equippable := h.equippable

theorem isEmpty_of_holds (h : slot.holds itemId) : slot.isEmpty = false := by
  rw [InventorySlot.holds, Bool.and_eq_true, Bool.not_eq_true'] at h
  exact h.1

theorem quantity_pos_of_holds (h : slot.holds itemId) : 0 < slot.quantity := by
  have hfull := isEmpty_of_holds h
  rw [InventorySlot.isEmpty, Bool.or_eq_false_iff] at hfull
  exact not_le.mp (of_decide_eq_false hfull.2)

theorem exists_item_of_full (hfull : slot.isEmpty = false) : ∃ item, slot.item = some item := by
  rw [InventorySlot.isEmpty, Bool.or_eq_false_iff, Option.isNone_eq_false_iff] at hfull
  exact Option.isSome_iff_exists.mp hfull.1

theorem Tidy.item_of_holds (h : Tidy items slot) (hh : slot.holds itemId)
    (hitem : items.find? (fun a => a.id = itemId) = some itemData) : slot.item = some itemData := by
  rw [InventorySlot.holds, Bool.and_eq_true, Option.any_eq_true] at hh
  obtain ⟨item, hsome, hid⟩ := hh.2
  rw [decide_eq_true_eq] at hid
  have hknown := h.known item hsome
  rw [hid, hitem] at hknown
  rw [hsome, ← hknown]

variable (itemData itemId) in
theorem fillStacks_tidy (quantity : ℤ) (weight : ℚ) (ht : ∀ slot ∈ slots, Tidy items slot) :
    ∀ slot ∈ (fillStacks itemData itemId slots quantity weight).slots, Tidy items slot := by
  induction slots generalizing quantity weight with
  | nil => exact ht
  | cons slot slots ih =>
    obtain ⟨hslot, hslots⟩ := List.forall_mem_cons.mp ht
    rw [fillStacks]
    split
    case isTrue hadd =>
      have hpos := quantity_pos_of_holds hadd.1
      have hslot' := hslot.setQuantity (isEmpty_of_holds hadd.1) (add_pos hpos hadd.2)
      split
      · exact List.forall_mem_cons.mpr ⟨hslot', hslots⟩
      · exact List.forall_mem_cons.mpr ⟨hslot', ih _ _ hslots⟩
    case isFalse => exact List.forall_mem_cons.mpr ⟨hslot, ih _ _ hslots⟩

variable (itemData itemId) in
theorem map_wornItem_fillStacks (slots : List InventorySlot) (quantity : ℤ) (weight : ℚ) :
    (fillStacks itemData itemId slots quantity weight).slots.map wornItem = slots.map wornItem := by
  induction slots generalizing quantity weight with
  | nil => rfl
  | cons slot slots ih =>
    rw [fillStacks]
    split
    case isTrue hadd =>
      have hpos := quantity_pos_of_holds hadd.1
      have hworn := wornItem_setQuantity (isEmpty_of_holds hadd.1) (add_pos hpos hadd.2)
      split
      · rw [List.map_cons, List.map_cons, hworn]
      · rw [Fill.cons, List.map_cons, List.map_cons, hworn, ih]
    case isFalse => rw [Fill.cons, List.map_cons, List.map_cons, ih]

theorem openStack_tidy (hitem : items.find? (fun a => a.id = itemData.id) = some itemData) {i : ℕ}
    (hi : findEmptySlot slots = some i) (n : ℤ) (ht : ∀ slot ∈ slots, Tidy items slot) :
    (∀ slot ∈ slots.modify i fun slot => (slot.addItem itemData n).1, Tidy items slot) ∧
      (slots.modify i fun slot => (slot.addItem itemData n).1).map wornItem = slots.map wornItem := by
  induction slots generalizing i with
  | nil => cases hi
  | cons slot slots ih =>
    obtain ⟨hslot, hslots⟩ := List.forall_mem_cons.mp ht
    rw [findEmptySlot, List.findIdx?_cons] at hi
    split at hi
    case isTrue he =>
      obtain rfl : 0 = i := Option.some.inj hi
      have hunmarked := hslot.unmarked he
      have hworn : wornItem { slot with item := some itemData, quantity := n } = none :=
        wornItem_of_unmarked hunmarked
      rw [List.modify_zero_cons, addItem_of_isEmpty he, List.map_cons, List.map_cons, hworn,
        wornItem_of_unmarked hunmarked]
      refine ⟨List.forall_mem_cons.mpr ⟨⟨fun item h => ?_, fun _ => hunmarked, fun hmarked => ?_⟩,
        hslots⟩, rfl⟩
      · obtain rfl := Option.some.inj h
        exact hitem
      · exact absurd (hunmarked.symm.trans hmarked) Bool.false_ne_true
    case isFalse =>
      obtain ⟨j, hj, rfl⟩ := Option.map_eq_some_iff.mp hi
      obtain ⟨htidy, hmap⟩ := ih hj hslots
      rw [List.modify_succ_cons]
      exact ⟨List.forall_mem_cons.mpr ⟨hslot, htidy⟩, congrArg (_ :: ·) hmap⟩

theorem fillEmptySlots_tidy (hitem : items.find? (fun a => a.id = itemData.id) = some itemData)
    {fuel : ℕ} {quantity : ℤ} {weight : ℚ} {r : List InventorySlot × ℚ × Bool × List Event}
    (ht : ∀ slot ∈ slots, Tidy items slot)
    (h : fillEmptySlots itemData itemId fuel slots quantity weight = some r) :
    (∀ slot ∈ r.1, Tidy items slot) ∧ r.1.map wornItem = slots.map wornItem ∧
      ∀ e ∈ r.2.2.2, ∃ n, e = .inventoryChange itemId n true := by
  induction fuel generalizing slots quantity weight r with
  | zero => cases h
  | succ fuel ih =>
    rw [fillEmptySlots] at h
    split at h
    case isFalse =>
      obtain rfl := Option.some.inj h
      exact ⟨ht, rfl, List.forall_mem_nil _⟩
    case isTrue =>
    split at h
    case h_1 =>
      obtain rfl := Option.some.inj h
      exact ⟨ht, rfl, List.forall_mem_nil _⟩
    case h_2 i hi =>
      obtain ⟨r', hr', rfl⟩ := Option.map_eq_some_iff.mp h
      obtain ⟨ht', hmap⟩ := openStack_tidy hitem hi (min quantity itemData.stackSize) ht
      obtain ⟨hr, hworn, hev⟩ := ih ht' hr'
      exact ⟨hr, hworn.trans hmap, List.forall_mem_cons.mpr ⟨⟨_, rfl⟩, hev⟩⟩

theorem fillEmptySlots_returns (hstack : 0 < itemData.stackSize) {fuel : ℕ}
    (hfuel : slots.countP InventorySlot.isEmpty < fuel) (quantity : ℤ) (weight : ℚ) :
    ∃ r, fillEmptySlots itemData itemId fuel slots quantity weight = some r := by
  induction fuel generalizing slots quantity weight with
  | zero => exact absurd hfuel (Nat.not_lt_zero _)
  | succ fuel ih =>
    rw [fillEmptySlots]
    split
    case isFalse => exact ⟨_, rfl⟩
    case isTrue hq =>
    split
    case h_1 => exact ⟨_, rfl⟩
    case h_2 i hi =>
      have hcount := countP_openStack itemData hi (lt_min hq hstack)
      have hless := Nat.lt_of_succ_lt_succ (hcount ▸ hfuel)
      obtain ⟨r, hr⟩ := ih hless (quantity - min quantity itemData.stackSize)
        (weight + itemData.weight * (min quantity itemData.stackSize : ℤ))
      dsimp only
      exact ⟨_, by rw [hr, Option.map_some]⟩

/-- No stack of the item that is worn is used up by taking that many. -/
def KeepsWorn (itemId : CName) (slots : List InventorySlot) (quantity : ℤ) : Prop :=
  ∀ (i : ℕ) (slot : InventorySlot), slots[i]? = some slot → slot.holds itemId → slot.isEquipped →
    quantity < count itemId (slots.take (i + 1))

theorem keepsWorn_cons {quantity : ℤ} : KeepsWorn itemId (slot :: slots) quantity ↔
    (slot.holds itemId → slot.isEquipped → quantity < slot.quantity) ∧
      KeepsWorn itemId slots (quantity - if slot.holds itemId then slot.quantity else 0) := by
  have hnil : count itemId [] = 0 := rfl
  constructor
  · intro h
    refine ⟨fun hh he => ?_, fun i slot' hi hh he => ?_⟩
    · have hfirst := h 0 slot rfl hh he
      rwa [List.take_succ_cons, List.take_zero, count_cons, if_pos hh, hnil, add_zero] at hfirst
    · have hrest := h (i + 1) slot' hi hh he
      rw [List.take_succ_cons, count_cons] at hrest
      omega
  · rintro ⟨hfirst, hrest⟩ i slot' hi hh he
    cases i with
    | zero =>
      obtain rfl : slot = slot' := Option.some.inj hi
      rw [List.take_succ_cons, List.take_zero, count_cons, if_pos hh, hnil, add_zero]
      exact hfirst hh he
    | succ i =>
      have hrest := hrest i slot' hi hh he
      rw [List.take_succ_cons, count_cons]
      omega

theorem keepsWorn_of_nonpos {quantity : ℤ} (h : quantity ≤ 0) : KeepsWorn itemId slots quantity := by
  induction slots generalizing quantity with
  | nil => exact fun _ _ hi => nomatch hi
  | cons slot slots ih =>
    refine keepsWorn_cons.mpr ⟨fun hh _ => h.trans_lt (quantity_pos_of_holds hh), ih ?_⟩
    split
    · next hh =>
      have hpos := quantity_pos_of_holds hh
      omega
    · omega

theorem removeItem_all (slot : InventorySlot) : (slot.removeItem slot.quantity).1 =
    { slot with item := none, quantity := 0, isEquipped := false } := by
  rw [InventorySlot.removeItem, if_neg (lt_irrefl _), if_pos (by omega)]

theorem removeItem_part {n : ℤ} (h : n < slot.quantity) :
    (slot.removeItem n).1 = { slot with quantity := slot.quantity - n } := by
  rw [InventorySlot.removeItem, if_neg (not_lt.mpr h.le), if_neg (by omega)]

theorem drainStacks_of_nonpos (slots : List InventorySlot) {remaining : ℤ} (h : remaining ≤ 0)
    (weight : ℚ) : drainStacks itemData itemId slots remaining weight = (slots, remaining, weight) := by
  cases slots with
  | nil => rfl
  | cons slot slots => exact if_neg (not_lt.mpr h)

theorem tidy_of_none (hitem : slot.item = none) (hmark : slot.isEquipped = false) :
    Tidy items slot where
  known item h := absurd (hitem.symm.trans h) (Option.some_ne_none item).symm
  unmarked _ := hmark
  equippable h := absurd (hmark.symm.trans h) Bool.false_ne_true

theorem drainStacks_worn (hitem : items.find? (fun a => a.id = itemId) = some itemData)
    (ht : ∀ slot ∈ slots, Tidy items slot) (remaining : ℤ) (weight : ℚ) :
    (∀ slot ∈ (drainStacks itemData itemId slots remaining weight).1, Tidy items slot) ∧
      ∃ n, worn slots = worn (drainStacks itemData itemId slots remaining weight).1
          + Multiset.replicate n itemData ∧
        (n = 0 ↔ KeepsWorn itemId slots remaining) := by
  induction slots generalizing remaining weight with
  | nil => exact ⟨ht, 0, rfl, iff_of_true rfl fun _ _ hi => nomatch hi⟩
  | cons slot slots ih =>
    obtain ⟨hslot, hslots⟩ := List.forall_mem_cons.mp ht
    by_cases hrem : remaining > 0
    · rw [drainStacks, if_pos hrem]
      by_cases hh : slot.holds itemId
      · rw [if_pos hh]
        dsimp only
        have hfull := isEmpty_of_holds hh
        have hstack := hslot.item_of_holds hh hitem
        rcases le_or_gt slot.quantity remaining with hall | hpart
        · rw [min_eq_right hall, removeItem_all]
          obtain ⟨htidy, n, hworn, hn⟩ :=
            ih hslots (remaining - slot.quantity) (weight - itemData.weight * (slot.quantity : ℤ))
          refine ⟨List.forall_mem_cons.mpr ⟨tidy_of_none rfl rfl, htidy⟩, ?_⟩
          have hclear : wornItem { slot with item := none, quantity := 0, isEquipped := false } = none :=
            wornItem_of_unmarked rfl
          rw [keepsWorn_cons, if_pos hh, worn_cons, worn_cons, hclear, Option.elim_none, zero_add, hworn]
          cases he : slot.isEquipped with
          | false =>
            rw [wornItem_of_unmarked he, Option.elim_none, zero_add]
            exact ⟨n, rfl, hn.trans (and_iff_right fun _ h => absurd h Bool.false_ne_true).symm⟩
          | true =>
            have hmarked : wornItem slot = some itemData :=
              (wornItem_of_marked he hfull).trans hstack
            refine ⟨n + 1, ?_, iff_of_false n.succ_ne_zero fun h => ?_⟩
            · rw [hmarked, Option.elim_some, Multiset.replicate_succ, ← Multiset.singleton_add]
              abel
            · exact absurd (h.1 hh rfl) (not_lt.mpr hall)
        · rw [min_eq_left hpart.le, removeItem_part hpart, sub_self, drainStacks_of_nonpos slots le_rfl]
          have hleft : 0 < slot.quantity - remaining := sub_pos.mpr hpart
          refine ⟨List.forall_mem_cons.mpr ⟨hslot.setQuantity hfull hleft, hslots⟩, 0, ?_, ?_⟩
          · rw [worn_cons, worn_cons, wornItem_setQuantity hfull hleft, Multiset.replicate_zero,
              add_zero]
          · refine iff_of_true rfl (keepsWorn_cons.mpr ⟨fun _ _ => hpart, keepsWorn_of_nonpos ?_⟩)
            rw [if_pos hh]
            omega
      · rw [if_neg hh]
        obtain ⟨htidy, n, hworn, hn⟩ := ih hslots remaining weight
        refine ⟨List.forall_mem_cons.mpr ⟨hslot, htidy⟩, n, ?_, ?_⟩
        · rw [worn_cons, worn_cons, hworn, add_assoc]
        · rw [keepsWorn_cons, if_neg hh, sub_zero, hn]
          exact (and_iff_right fun h => absurd h hh).symm
    · rw [drainStacks_of_nonpos _ (not_lt.mp hrem)]
      refine ⟨ht, 0, ?_, iff_of_true rfl (keepsWorn_of_nonpos (not_lt.mp hrem))⟩
      rw [Multiset.replicate_zero, add_zero]

end Loops

def TidySlots (sys : InventorySystem) : Prop := ∀ slot ∈ sys.inventorySlots, Tidy sys.items slot

section Calls
variable {sys : InventorySystem} {itemId : CName} {quantity : ℤ} {o : Outcome}

theorem addItem_worn (ht : sys.TidySlots) (h : sys.addItem itemId quantity = some o) :
    o.system.items = sys.items ∧ o.system.TidySlots ∧
      worn o.system.inventorySlots = worn sys.inventorySlots ∧
      ∀ e ∈ o.events, ∃ n, e = .inventoryChange itemId n true := by
  unfold addItem at h
  split at h
  · obtain rfl := Option.some.inj h
    exact ⟨rfl, ht, rfl, List.forall_mem_nil _⟩
  case h_2 itemData hitem =>
  have hid := (getItemData_eq_some hitem).2
  dsimp only at h
  split at h
  · obtain rfl := Option.some.inj h
    exact ⟨rfl, ht, rfl, List.forall_mem_nil _⟩
  have hfill := fillStacks_tidy itemData itemId quantity sys.currentWeight ht
  have hworn := map_wornItem_fillStacks itemData itemId sys.inventorySlots quantity
    sys.currentWeight
  split at h
  · obtain rfl := Option.some.inj h
    exact ⟨rfl, hfill, worn_eq_of_map hworn, List.forall_mem_singleton.mpr ⟨_, rfl⟩⟩
  · obtain ⟨r, hr, rfl⟩ := Option.map_eq_some_iff.mp h
    obtain ⟨htidy, hmap, hev⟩ := fillEmptySlots_tidy (hid ▸ hitem) hfill hr
    exact ⟨rfl, htidy, worn_eq_of_map (hmap.trans hworn), hev⟩

theorem addItem_returns (hstack : ∀ item ∈ sys.items, 0 < item.stackSize) (itemId : CName)
    (quantity : ℤ) : ∃ o, sys.addItem itemId quantity = some o := by
  unfold addItem
  split
  · exact ⟨_, rfl⟩
  case h_2 itemData hitem =>
  dsimp only
  split
  · exact ⟨_, rfl⟩
  split
  · exact ⟨_, rfl⟩
  · obtain ⟨r, hr⟩ := fillEmptySlots_returns (hstack itemData (getItemData_eq_some hitem).1)
      (Nat.lt_succ_of_le List.countP_le_length)
      (fillStacks itemData itemId sys.inventorySlots quantity sys.currentWeight).quantity
      (fillStacks itemData itemId sys.inventorySlots quantity sys.currentWeight).weight
    exact ⟨_, by rw [hr, Option.map_some]⟩

theorem removeItem_worn (ht : sys.TidySlots) (itemId : CName) (quantity : ℤ) :
    (sys.removeItem itemId quantity).system.items = sys.items ∧
      (sys.removeItem itemId quantity).system.TidySlots ∧
      (∀ e ∈ (sys.removeItem itemId quantity).events, e = .inventoryChange itemId quantity false) ∧
      (sys.getItemData itemId = none ∧
        worn (sys.removeItem itemId quantity).system.inventorySlots = worn sys.inventorySlots ∨
      ∃ itemData n, sys.getItemData itemId = some itemData ∧ worn sys.inventorySlots
          = worn (sys.removeItem itemId quantity).system.inventorySlots
            + Multiset.replicate n itemData ∧
        (n = 0 ↔ KeepsWorn itemId sys.inventorySlots quantity)) := by
  unfold removeItem
  split
  · next hno => exact ⟨rfl, ht, List.forall_mem_nil _, Or.inl ⟨hno, rfl⟩⟩
  next itemData hitem =>
  obtain ⟨htidy, n, hworn, hn⟩ := drainStacks_worn hitem ht quantity sys.currentWeight
  dsimp only
  split
  · exact ⟨rfl, htidy, List.forall_mem_nil _, Or.inr ⟨itemData, n, hitem, hworn, hn⟩⟩
  · exact ⟨rfl, htidy, List.forall_mem_singleton.mpr rfl, Or.inr ⟨itemData, n, hitem, hworn, hn⟩⟩

theorem findItemSlot_eq_some {slots : List InventorySlot} {i : ℕ}
    (h : findItemSlot slots itemId = some i) : ∃ slot, slots[i]? = some slot ∧ slot.holds itemId := by
  obtain ⟨hlt, hholds, -⟩ := List.findIdx?_eq_some_iff_getElem.mp h
  exact ⟨slots[i], List.getElem?_eq_getElem hlt, hholds⟩

theorem forall_mem_modify {α : Type*} {p : α → Prop} {l : List α} {i : ℕ} {g : α → α}
    (h : ∀ a ∈ l, p a) (hi : ∀ a, l[i]? = some a → p (g a)) : ∀ a ∈ l.modify i g, p a := by
  intro a ha
  obtain ⟨j, hj⟩ := List.mem_iff_getElem?.mp ha
  rw [List.getElem?_modify, Option.map_eq_map, Option.map_eq_some_iff] at hj
  obtain ⟨b, hb, rfl⟩ := hj
  split
  · next hij => exact hi b (hij ▸ hb)
  · exact h b (List.mem_of_getElem? hb)

def takeOff (category : ItemCategory) (slot : InventorySlot) : InventorySlot :=
  if wears category slot then { slot with isEquipped := false } else slot

theorem unequipItemByCategory_fst (slots : List InventorySlot) (category : ItemCategory) :
    (unequipItemByCategory slots category).1 = slots.map (takeOff category) := rfl

@[simp] theorem takeOff_item (category : ItemCategory) (slot : InventorySlot) :
    (takeOff category slot).item = slot.item := by
  unfold takeOff
  split <;> rfl

@[simp] theorem takeOff_isEmpty (category : ItemCategory) (slot : InventorySlot) :
    (takeOff category slot).isEmpty = slot.isEmpty := by
  unfold takeOff
  split <;> rfl

theorem Tidy.unmark {items : List ItemData} {slot : InventorySlot} (h : Tidy items slot) :
    Tidy items { slot with isEquipped := false } where
  known := h.known
  unmarked _ := rfl
  equippable h := absurd h Bool.false_ne_true

theorem Tidy.takeOff {items : List ItemData} {slot : InventorySlot} (h : Tidy items slot)
    (category : ItemCategory) : Tidy items (takeOff category slot) := by
  unfold InventorySystem.takeOff
  split
  · exact h.unmark
  · exact h

theorem wornItem_takeOff (category : ItemCategory) (slot : InventorySlot) :
    wornItem (takeOff category slot) = (wornItem slot).filter fun item => item.category ≠ category := by
  unfold takeOff
  rw [wears_eq]
  cases h : wornItem slot with
  | none => rw [Option.any_none, if_neg Bool.false_ne_true, h, Option.filter_none]
  | some item =>
    rw [Option.any_some, Option.filter_some]
    by_cases hc : item.category = category
    · rw [if_pos (decide_eq_true hc), if_neg (by simp [hc])]
      exact wornItem_of_unmarked rfl
    · rw [if_neg (by simp [hc]), if_pos (by simp [hc]), h]

theorem worn_takeOff (category : ItemCategory) (slots : List InventorySlot) :
    worn (slots.map (takeOff category))
      = (worn slots).filter fun item => item.category ≠ category := by
  rw [worn, worn, Multiset.filter_coe, List.filter_filterMap, List.filterMap_map]
  congr 2
  funext slot
  exact wornItem_takeOff category slot

theorem equipItem_worn (ht : sys.TidySlots) (itemId : CName) :
    sys.equipItem itemId = ⟨sys, false, []⟩ ∨
    ∃ itemData, sys.getItemData itemId = some itemData ∧
      (sys.equipItem itemId).system.items = sys.items ∧ (sys.equipItem itemId).system.TidySlots ∧
      worn (sys.equipItem itemId).system.inventorySlots
        = itemData ::ₘ (worn sys.inventorySlots).filter
            (fun item => item.category ≠ itemData.category) ∧
      (sys.equipItem itemId).events
        = (unequipItemByCategory sys.inventorySlots itemData.category).2
            ++ applyItemEffects itemData ++ [.itemEquipped itemId true] := by
  unfold equipItem
  split
  · exact Or.inl rfl
  next itemData hitem =>
  split
  · exact Or.inl rfl
  next hequippable =>
  split
  · exact Or.inl rfl
  next i hi =>
  right
  obtain ⟨slot, hslot, hholds⟩ := findItemSlot_eq_some hi
  have hstack : slot.item = some itemData :=
    (ht slot (List.mem_of_getElem? hslot)).item_of_holds hholds hitem
  have hoff : (unequipItemByCategory sys.inventorySlots itemData.category).1[i]?
      = some (takeOff itemData.category slot) := by
    rw [unequipItemByCategory_fst, List.getElem?_map, hslot, Option.map_some]
  have hfull := (takeOff_isEmpty itemData.category slot).trans (isEmpty_of_holds hholds)
  have hitem' := (takeOff_item itemData.category slot).trans hstack
  have hbefore : wornItem (takeOff itemData.category slot) = none := by
    rw [wornItem_takeOff, wornItem]
    split
    · rw [hstack, Option.filter_some, if_neg (by simp)]
    · rfl
  have hafter : wornItem { takeOff itemData.category slot with isEquipped := true }
      = some itemData := (wornItem_mark hfull).trans hitem'
  refine ⟨itemData, hitem, rfl, forall_mem_modify (fun slot' hslot' => ?_) fun slot' hslot' => ?_,
    ?_, rfl⟩
  · rw [unequipItemByCategory_fst] at hslot'
    obtain ⟨slot₀, hslot₀, rfl⟩ := List.mem_map.mp hslot'
    exact (ht slot₀ hslot₀).takeOff itemData.category
  · obtain rfl := Option.some.inj (hoff.symm.trans hslot')
    have htidy := (ht slot (List.mem_of_getElem? hslot)).takeOff itemData.category
    refine ⟨htidy.known, fun hempty => absurd (hfull.symm.trans hempty) Bool.false_ne_true,
      fun _ item h => ?_⟩
    obtain rfl := Option.some.inj (hitem'.symm.trans h)
    exact not_not.mp hequippable
  · have hmodify := worn_modify (g := fun slot => { slot with isEquipped := true }) hoff
    rw [hbefore, hafter, Option.elim_none, Option.elim_some, add_zero, unequipItemByCategory_fst,
      worn_takeOff] at hmodify
    rw [← Multiset.singleton_add, add_comm]
    exact hmodify

theorem unequipItem_worn (ht : sys.TidySlots) (itemId : CName) :
    sys.unequipItem itemId = ⟨sys, false, []⟩ ∨
    ∃ item, (sys.unequipItem itemId).system.items = sys.items ∧
      (sys.unequipItem itemId).system.TidySlots ∧
      worn sys.inventorySlots = item ::ₘ worn (sys.unequipItem itemId).system.inventorySlots ∧
      (sys.unequipItem itemId).events = removeItemEffects item ++ [.itemEquipped itemId false] := by
  unfold unequipItem
  split
  · exact Or.inl rfl
  next i hi =>
  obtain ⟨slot, hslot, hholds⟩ := findItemSlot_eq_some hi
  rw [hslot]
  dsimp only
  split
  · exact Or.inl rfl
  next hmarked =>
  right
  have hfull := isEmpty_of_holds hholds
  obtain ⟨item, hitem⟩ := exists_item_of_full hfull
  have hbefore : wornItem slot = some item :=
    (wornItem_of_marked (not_not.mp hmarked) hfull).trans hitem
  have hafter : wornItem { slot with isEquipped := false } = none := wornItem_of_unmarked rfl
  refine ⟨item, rfl, forall_mem_modify ht fun slot' hslot' => ?_, ?_, ?_⟩
  · obtain rfl := Option.some.inj (hslot.symm.trans hslot')
    exact (ht slot (List.mem_of_getElem? hslot)).unmark
  · have hmodify := worn_modify (g := fun slot => { slot with isEquipped := false }) hslot
    rw [hbefore, hafter, Option.elim_none, Option.elim_some, add_zero] at hmodify
    rw [← hmodify, ← Multiset.singleton_add, add_comm]
  · rw [hitem]
    rfl

end Calls

/-- Tidy slots, and nothing worn twice under a category. -/
structure Dressed (sys : InventorySystem) : Prop where
  tidy : sys.TidySlots
  once : ((worn sys.inventorySlots).map ItemData.category).Nodup

section Runs
variable {items : List ItemData} {sys : InventorySystem} {op : Op} {o : Outcome}

theorem unmarked_initializeSystem (items : List ItemData) :
    ∀ slot ∈ (initializeSystem items).inventorySlots, slot.item = none ∧ slot.isEquipped = false := by
  intro slot hslot
  obtain ⟨i, -, rfl⟩ := List.mem_map.mp hslot
  exact ⟨rfl, rfl⟩

theorem worn_initializeSystem (items : List ItemData) :
    worn (initializeSystem items).inventorySlots = 0 :=
  Multiset.eq_zero_of_forall_notMem fun item h => by
    obtain ⟨slot, hslot, hitem⟩ := mem_worn.mp h
    rw [wornItem_of_unmarked (unmarked_initializeSystem items slot hslot).2] at hitem
    cases hitem

theorem dressed_initializeSystem (items : List ItemData) : (initializeSystem items).Dressed where
  tidy slot hslot :=
    have h := unmarked_initializeSystem items slot hslot
    tidy_of_none h.1 h.2
  once := by
    rw [worn_initializeSystem, Multiset.map_zero]
    exact Multiset.nodup_zero

theorem Dressed.of_le (h : sys.Dressed) {sys' : InventorySystem} (ht : sys'.TidySlots)
    (hle : worn sys'.inventorySlots ≤ worn sys.inventorySlots) : sys'.Dressed :=
  ⟨ht, Multiset.nodup_of_le (Multiset.map_le_map hle) h.once⟩

theorem dressed_call (h : sys.Dressed) (hcall : sys.call op = some o) :
    o.system.items = sys.items ∧ o.system.Dressed := by
  cases op with
  | add itemId quantity =>
    obtain ⟨hitems, htidy, hworn, -⟩ := addItem_worn h.tidy hcall
    exact ⟨hitems, h.of_le htidy hworn.le⟩
  | remove itemId quantity =>
    obtain rfl := Option.some.inj hcall
    obtain ⟨hitems, htidy, -, hworn⟩ := removeItem_worn h.tidy itemId quantity
    refine ⟨hitems, h.of_le htidy ?_⟩
    rcases hworn with ⟨-, hworn⟩ | ⟨itemData, n, -, hworn, -⟩
    · exact hworn.le
    · rw [hworn]
      exact Multiset.le_add_right _ _
  | equip itemId =>
    obtain rfl := Option.some.inj hcall
    rcases equipItem_worn h.tidy itemId with heq | ⟨itemData, -, hitems, htidy, hworn, -⟩
    · rw [heq]
      exact ⟨rfl, h⟩
    · refine ⟨hitems, htidy, ?_⟩
      rw [hworn, Multiset.map_cons, Multiset.nodup_cons]
      refine ⟨fun hmem => ?_, Multiset.nodup_of_le (Multiset.map_le_map (Multiset.filter_le _ _))
        h.once⟩
      obtain ⟨item, hitem, hcategory⟩ := Multiset.mem_map.mp hmem
      exact (Multiset.mem_filter.mp hitem).2 hcategory
  | unequip itemId =>
    obtain rfl := Option.some.inj hcall
    rcases unequipItem_worn h.tidy itemId with heq | ⟨item, hitems, htidy, hworn, -⟩
    · rw [heq]
      exact ⟨rfl, h⟩
    · exact ⟨hitems, h.of_le htidy (hworn ▸ Multiset.le_cons_self _ _)⟩

theorem call_returns (hstack : ∀ item ∈ sys.items, 0 < item.stackSize) (op : Op) :
    ∃ o, sys.call op = some o := by
  cases op with
  | add itemId quantity => exact addItem_returns hstack itemId quantity
  | remove itemId quantity => exact ⟨_, rfl⟩
  | equip itemId => exact ⟨_, rfl⟩
  | unequip itemId => exact ⟨_, rfl⟩

/-- Over a table whose stacks hold something, every run of calls returns, with nothing but stacks
of equippable items marked as equipped, and at most one of them in each category. -/
theorem run_dressed {items : List ItemData} (hstack : ∀ item ∈ items, 0 < item.stackSize)
    (ops : List Op) : ∃ sys, ops.foldlM step (initializeSystem items) = some sys ∧
      (∀ slot ∈ sys.inventorySlots, slot.isEquipped →
        slot.isEmpty = false ∧ ∃ item, slot.item = some item ∧ item.isEquippable) ∧
      ∀ category, sys.inventorySlots.countP (wears category) ≤ 1 := by
  have hstep : ∀ (sys : InventorySystem) (op : Op),
      (sys.Dressed ∧ ∀ item ∈ sys.items, 0 < item.stackSize) →
      ∃ sys', step sys op = some sys' ∧ sys'.Dressed ∧ ∀ item ∈ sys'.items, 0 < item.stackSize := by
    intro sys op h
    obtain ⟨o, ho⟩ := call_returns h.2 op
    obtain ⟨hitems, hdressed⟩ := dressed_call h.1 ho
    exact ⟨o.system, by rw [InventorySystem.step, ho, Option.map_some], hdressed, hitems ▸ h.2⟩
  obtain ⟨sys, hrun, hdressed, -⟩ :=
    Run.foldlM_of_step hstep ⟨dressed_initializeSystem items, hstack⟩ ops
  refine ⟨sys, hrun, fun slot hslot hmarked => ?_, fun category => ?_⟩
  · have htidy := hdressed.tidy slot hslot
    have hfull : slot.isEmpty = false := by
      rw [← Bool.not_eq_true]
      exact fun hempty => Bool.false_ne_true ((htidy.unmarked hempty).symm.trans hmarked)
    obtain ⟨item, hitem⟩ := exists_item_of_full hfull
    exact ⟨hfull, item, hitem, htidy.equippable hmarked item hitem⟩
  · rw [countP_wears]
    exact Multiset.nodup_iff_count_le_one.mp hdressed.once category

theorem run_dressed_database :
    ∃ sys, [Op.add "steel_sword_basic" 1, .equip "steel_sword_basic", .add "dagger_basic" 2,
        .equip "dagger_basic", .remove "dagger_basic" 1, .add "heavy_armor_basic" 1,
        .equip "dagger_basic", .unequip "dagger_basic"].foldlM step
        (initializeSystem initializeItemsDatabase) = some sys ∧
      (∀ slot ∈ sys.inventorySlots, slot.isEquipped →
        slot.isEmpty = false ∧ ∃ item, slot.item = some item ∧ item.isEquippable) ∧
      ∀ category, sys.inventorySlots.countP (wears category) ≤ 1 :=
  run_dressed validTable_initializeItemsDatabase.stackSize_pos _

end Runs

end WitcherMP.Inventory.InventorySystem
