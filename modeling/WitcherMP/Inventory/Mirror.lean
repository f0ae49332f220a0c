import WitcherMP.Inventory.Weight

/-! A server that books every notified change mirrors the client counts exactly as long as
no call tops up more than one stack and no removal comes up short half way. -/

namespace WitcherMP.Inventory
open InventorySlot

def applyChange (server : CName → ℤ) : Event → CName → ℤ
  | .inventoryChange itemId quantity added =>
    Function.update server itemId
      (if added then server itemId + quantity else server itemId - quantity)
  | _ => server

def applyChanges (server : CName → ℤ) (events : List Event) : CName → ℤ :=
  events.foldl applyChange server

theorem applyChanges_added (server : CName → ℤ) (itemId : CName) (ns : List ℤ) :
    applyChanges server (ns.map fun n => .inventoryChange itemId n true) =
      Function.update server itemId (server itemId + ns.sum) := by
  induction ns generalizing server with
  | nil => simp [applyChanges]
  | cons n ns ih =>
    have h := ih (applyChange server (.inventoryChange itemId n true))
    rw [applyChanges] at h
    rw [applyChanges, List.map_cons, List.foldl_cons, h]
    simp [applyChange, add_assoc]

structure World where
  client : InventorySystem
  server : CName → ℤ

namespace World

def step (w : World) (op : InventorySystem.Op) : Option World :=
  (w.client.call op).map fun o => ⟨o.system, applyChanges w.server o.events⟩

def InSync (w : World) : Prop := ∀ itemId, w.server itemId = w.client.getItemCount itemId

end World

namespace InventorySystem

def unit (itemId : CName) (item : ItemData) : ℚ := if item.id = itemId then 1 else 0

def count (itemId : CName) (slots : List InventorySlot) : ℤ :=
  slots.foldl (fun count slot => if slot.holds itemId then count + slot.quantity else count) 0

theorem getItemCount_eq (sys : InventorySystem) (itemId : CName) :
    sys.getItemCount itemId = count itemId sys.inventorySlots := rfl

theorem measure_unit (itemId : CName) (slot : InventorySlot) :
    slot.measure (unit itemId) = ((if slot.holds itemId then slot.quantity else 0 : ℤ) : ℚ) := by
  unfold InventorySlot.measure holds unit
  cases slot.isEmpty <;> cases slot.item <;> simp

theorem count_cast (itemId : CName) (slots : List InventorySlot) :
    (count itemId slots : ℚ) = total (unit itemId) slots := by
  have key : ∀ acc : ℤ, ((slots.foldl (fun count slot =>
      if slot.holds itemId then count + slot.quantity else count) acc : ℤ) : ℚ) =
      acc + total (unit itemId) slots := by
    induction slots with
    | nil => simp
    | cons slot slots ih =>
      intro acc
      rw [List.foldl_cons, ih, total_cons, measure_unit]
      split
      · push_cast
        ring
      · push_cast
        ring
  rw [count]
  simpa using key 0

theorem count_cons (itemId : CName) (slot : InventorySlot) (slots : List InventorySlot) :
    count itemId (slot :: slots) =
      (if slot.holds itemId then slot.quantity else 0) + count itemId slots := by
  have h : (count itemId (slot :: slots) : ℚ) =
      ((if slot.holds itemId then slot.quantity else 0 : ℤ) : ℚ) + count itemId slots := by
    rw [count_cast, total_cons, measure_unit, count_cast]
  exact_mod_cast h

section Counts
variable {items : List ItemData} {itemData : ItemData} {slots slots' : List InventorySlot} {n : ℤ}

theorem count_of_moved (h : Moved items itemData slots slots' n) (itemId : CName) :
    count itemId slots' = count itemId slots + if itemData.id = itemId then n else 0 := by
  have hq : (count itemId slots' : ℚ) =
      count itemId slots + ((if itemData.id = itemId then n else 0 : ℤ) : ℚ) := by
    rw [count_cast, count_cast, h.total, unit]
    split <;> simp
  exact_mod_cast hq

theorem quantity_nonneg {slot : InventorySlot} (hv : slot.Valid items) : 0 ≤ slot.quantity := by
  rcases hv with ⟨-, h⟩ | ⟨_, -, -, h, -⟩ <;> omega

theorem count_nonneg (hv : ∀ slot ∈ slots, slot.Valid items) (itemId : CName) :
    0 ≤ count itemId slots := by
  induction slots with
  | nil => exact le_rfl
  | cons slot slots ih =>
    obtain ⟨hslot, hslots⟩ := List.forall_mem_cons.mp hv
    have hrest := ih hslots
    have hq := quantity_nonneg hslot
    rw [count_cons]
    split <;> omega

end Counts

def firstRoom (itemData : ItemData) (itemId : CName) : List InventorySlot → Option ℤ
  | [] => none
  | slot :: slots =>
    if slot.holds itemId ∧ 0 < itemData.stackSize - slot.quantity then
      some (itemData.stackSize - slot.quantity)
    else firstRoom itemData itemId slots

section Loops
variable (itemData : ItemData) (itemId : CName) (slots : List InventorySlot)

theorem fillStacks_last_le (quantity : ℤ) (weight : ℚ) :
    (fillStacks itemData itemId slots quantity weight).last.getD 0 ≤
      quantity - (fillStacks itemData itemId slots quantity weight).quantity := by
  induction slots generalizing quantity weight with
  | nil => simp [fillStacks]
  | cons slot slots ih =>
    rw [fillStacks]
    split
    case isTrue h =>
      split
      · simp
      · have hrest := ih (quantity - min quantity (itemData.stackSize - slot.quantity))
          (weight + itemData.weight *
            (min quantity (itemData.stackSize - slot.quantity) : ℤ))
        have hpos := h.2
        simp only [Fill.cons]
        omega
    case isFalse => exact ih quantity weight

theorem fillStacks_notified_iff {quantity : ℤ} (hq : 0 < quantity) (weight : ℚ) :
    (fillStacks itemData itemId slots quantity weight).last.getD 0 =
        quantity - (fillStacks itemData itemId slots quantity weight).quantity ↔
      ∀ room, firstRoom itemData itemId slots = some room → quantity ≤ room := by
  induction slots with
  | nil => simp [fillStacks, firstRoom]
  | cons slot slots ih =>
    rw [fillStacks, firstRoom]
    by_cases h : slot.holds itemId ∧ 0 < itemData.stackSize - slot.quantity
    · have h' : slot.holds itemId ∧ min quantity (itemData.stackSize - slot.quantity) > 0 :=
        ⟨h.1, lt_min hq h.2⟩
      rw [if_pos h', if_pos h]
      simp only [Option.some.injEq, forall_eq']
      split
      · next hall => simp only [Option.getD_some]; omega
      · next hleft =>
        have hrest := fillStacks_last_le itemData itemId slots
          (quantity - min quantity (itemData.stackSize - slot.quantity))
          (weight + itemData.weight * (min quantity (itemData.stackSize - slot.quantity) : ℤ))
        have hpos := h'.2
        simp only [Fill.cons]
        omega
    · have h' : ¬ (slot.holds itemId ∧ min quantity (itemData.stackSize - slot.quantity) > 0) :=
        fun hc => h ⟨hc.1, (lt_min_iff.mp hc.2).2⟩
      rw [if_neg h', if_neg h]
      exact ih

theorem count_drainStacks {items : List ItemData} (ht : ValidTable items)
    (hmem : itemData ∈ items) (hv : ∀ slot ∈ slots, slot.Valid items) (remaining : ℤ) (weight : ℚ)
    (h : 0 < (drainStacks itemData itemData.id slots remaining weight).2.1) :
    count itemData.id (drainStacks itemData itemData.id slots remaining weight).1 = 0 := by
  induction slots generalizing remaining weight with
  | nil => rfl
  | cons slot slots ih =>
    obtain ⟨hslot, hslots⟩ := List.forall_mem_cons.mp hv
    rw [drainStacks] at h ⊢
    split at h
    case isFalse hrem => exact absurd h hrem
    case isTrue hrem =>
    rw [if_pos hrem]
    split at h
    case isFalse hh =>
      rw [if_neg hh, count_cons, if_neg hh, ih hslots _ _ h]
      rfl
    case isTrue hh =>
      rw [if_pos hh, count_cons, ih hslots _ _ h]
      obtain ⟨n, hn, -, -, hleft, -⟩ := drainStacks_moved ht hmem hslots
        (remaining - min remaining slot.quantity)
        (weight - itemData.weight * (min remaining slot.quantity : ℤ))
      have hall : slot.quantity ≤ min remaining slot.quantity := by
        dsimp only at h
        omega
      have hempty : (slot.removeItem (min remaining slot.quantity)).1.holds itemData.id = false := by
        rw [InventorySlot.removeItem, if_neg (not_lt.mpr (min_le_right _ _)),
          if_pos (by omega)]
        rfl
      rw [hempty]
      rfl

end Loops

/-- The calls after which client and server still agree. An addition must not top up a stack
it leaves unnotified; a removal must find enough, or nothing. -/
def Mirrored (sys : InventorySystem) : Op → Prop
  | .add itemId quantity => ∀ itemData, sys.getItemData itemId = some itemData →
    sys.currentWeight + itemData.weight * quantity ≤ sys.maxWeight →
    ∀ room, firstRoom itemData itemId sys.inventorySlots = some room → quantity ≤ room
  | .remove itemId quantity => sys.getItemData itemId ≠ none →
    quantity ≤ sys.getItemCount itemId ∨ sys.getItemCount itemId = 0
  | _ => True

def Positive : Op → Prop
  | .add _ quantity => 0 < quantity
  | .remove _ quantity => 0 < quantity
  | _ => True

end InventorySystem

namespace World
open InventorySystem
variable {w : World} {itemData : ItemData} {slots : List InventorySlot} {n m : ℤ}

theorem inSync_iff (hsync : w.InSync) {weight : ℚ}
    (hmoved : Moved w.client.items itemData w.client.inventorySlots slots n) :
    InSync ⟨{ w.client with inventorySlots := slots, currentWeight := weight },
      Function.update w.server itemData.id (w.server itemData.id + m)⟩ ↔ m = n := by
  have hcount := count_of_moved hmoved
  constructor
  · intro h
    have hid := h itemData.id
    dsimp only at hid
    rw [getItemCount_eq, hcount, if_pos rfl, Function.update_self, hsync, getItemCount_eq] at hid
    omega
  · rintro rfl itemId
    dsimp only
    rw [getItemCount_eq, hcount]
    by_cases hid : itemData.id = itemId
    · subst hid
      rw [Function.update_self, if_pos rfl, hsync, getItemCount_eq]
    · rw [Function.update_of_ne (Ne.symm hid), if_neg hid, add_zero, hsync, getItemCount_eq]

theorem addItem_inSync_iff (hs : w.client.Sound) (hsync : w.InSync) (itemId : CName)
    {quantity : ℤ} (hq : 0 < quantity) :
    ∃ w', w.step (.add itemId quantity) = some w' ∧ w'.client.Sound ∧
      (w'.InSync ↔ Mirrored w.client (.add itemId quantity)) := by
  obtain ⟨o, ho, hsound⟩ := sound_addItem hs itemId quantity
  refine ⟨⟨o.system, applyChanges w.server o.events⟩, ?_, hsound, ?_⟩
  · rw [step, call, ho, Option.map_some]
  unfold InventorySystem.addItem at ho
  split at ho
  · next hno =>
    obtain rfl := Option.some.inj ho
    exact iff_of_true hsync fun itemData h => absurd (hno.symm.trans h) (by simp)
  next itemData hitem =>
  obtain ⟨hmem, rfl⟩ := getItemData_eq_some hitem
  dsimp only at ho
  split at ho
  · next hheavy =>
    obtain rfl := Option.some.inj ho
    refine iff_of_true hsync fun itemData' h hle => absurd hle ?_
    obtain rfl := Option.some.inj (hitem.symm.trans h)
    exact not_le.mpr hheavy
  next hfit =>
  have hmirrored : Mirrored w.client (.add itemData.id quantity) ↔
      ∀ room, firstRoom itemData itemData.id w.client.inventorySlots = some room →
        quantity ≤ room := forall_fitting_iff hitem (not_lt.mp hfit)
  rw [hmirrored, ← fillStacks_notified_iff itemData itemData.id w.client.inventorySlots hq
    w.client.currentWeight]
  obtain ⟨n, hn, hle, hmoved, hleft, hw⟩ :=
    fillStacks_moved hs.table hmem hs.valid quantity w.client.currentWeight
  rw [hleft, Int.sub_sub_self]
  split at ho
  · next canAdd hlast =>
    obtain rfl := Option.some.inj ho
    rw [hlast, Option.getD_some]
    exact inSync_iff hsync hmoved
  · next hlast =>
    obtain ⟨ns, r, -, -, hr, hmoved', -, hev, -⟩ := fillEmptySlots_moved hs.table hmem itemData.id
      hmoved.valid (Nat.lt_succ_of_le List.countP_le_length)
      (fillStacks itemData itemData.id w.client.inventorySlots quantity
        w.client.currentWeight).quantity
      (fillStacks itemData itemData.id w.client.inventorySlots quantity
        w.client.currentWeight).weight
    rw [hr, Option.map_some] at ho
    obtain rfl := Option.some.inj ho
    dsimp only
    rw [hlast, Option.getD_none, hev, applyChanges_added,
      inSync_iff hsync (hmoved.trans hmoved')]
    omega

theorem removeItem_inSync_iff (hs : w.client.Sound) (hsync : w.InSync) (itemId : CName)
    {quantity : ℤ} (hq : 0 < quantity) :
    ∃ w', w.step (.remove itemId quantity) = some w' ∧ w'.client.Sound ∧
      (w'.InSync ↔ Mirrored w.client (.remove itemId quantity)) := by
  refine ⟨_, rfl, sound_removeItem hs itemId quantity, ?_⟩
  unfold Mirrored InventorySystem.removeItem
  split
  · next hno => exact iff_of_true hsync fun h => absurd hno h
  next itemData hitem =>
  obtain ⟨hmem, rfl⟩ := getItemData_eq_some hitem
  obtain ⟨n, hn, hle, hmoved, hleft, -⟩ :=
    drainStacks_moved hs.table hmem hs.valid quantity w.client.currentWeight
  have hcount := count_of_moved hmoved itemData.id
  have hnonneg := count_nonneg hmoved.valid itemData.id
  have hshort := count_drainStacks itemData w.client.inventorySlots hs.table hmem hs.valid quantity
    w.client.currentWeight
  rw [if_pos rfl] at hcount
  rw [hleft] at hshort
  dsimp only
  rw [hleft, getItemCount_eq, hitem]
  split
  · next hrest =>
    have hsame : applyChanges w.server [] =
        Function.update w.server itemData.id (w.server itemData.id + 0) := by
      rw [add_zero, Function.update_eq_self]
      rfl
    dsimp only
    rw [hsame, inSync_iff hsync hmoved]
    have hzero := hshort hrest
    simp only [ne_eq, reduceCtorEq, not_false_eq_true, forall_const]
    omega
  · next hrest =>
    have hsame : applyChanges w.server [.inventoryChange itemData.id quantity false] =
        Function.update w.server itemData.id (w.server itemData.id + -quantity) := by
      simp [applyChanges, applyChange, sub_eq_add_neg]
    dsimp only
    rw [hsame, inSync_iff hsync hmoved]
    simp only [ne_eq, reduceCtorEq, not_false_eq_true, forall_const]
    omega

theorem rearranged_inSync {o : Outcome} (h : Rearranged w.client o) (hsync : w.InSync) :
    InSync ⟨o.system, applyChanges w.server o.events⟩ := by
  obtain ⟨slots, hsys, hcontents⟩ := h.system
  have hserver : ∀ events : List Event,
      (∀ e ∈ events, ∀ itemId quantity added, e ≠ .inventoryChange itemId quantity added) →
      ∀ server, applyChanges server events = server := by
    intro events
    induction events with
    | nil => exact fun _ _ => rfl
    | cons e events ih =>
      intro hquiet server
      obtain ⟨he, hevents⟩ := List.forall_mem_cons.mp hquiet
      have hfirst : applyChange server e = server := by
        cases e with
        | inventoryChange itemId quantity added => exact absurd rfl (he itemId quantity added)
        | _ => rfl
      rw [applyChanges, List.foldl_cons, hfirst]
      exact ih hevents server
  intro itemId
  have hcount : count itemId slots = count itemId w.client.inventorySlots := by
    have h := total_eq_of_contents hcontents (unit itemId)
    rw [← count_cast, ← count_cast] at h
    exact_mod_cast h
  rw [hserver o.events h.events, hsys, getItemCount_eq, hcount]
  exact hsync itemId

theorem step_inSync_iff (hs : w.client.Sound) (hsync : w.InSync) {op : Op} (hop : Positive op) :
    ∃ w', w.step op = some w' ∧ w'.client.Sound ∧ (w'.InSync ↔ Mirrored w.client op) := by
  cases op with
  | add itemId quantity => exact addItem_inSync_iff hs hsync itemId hop
  | remove itemId quantity => exact removeItem_inSync_iff hs hsync itemId hop
  | equip itemId =>
    have h := equipItem_rearranged w.client itemId
    exact ⟨_, rfl, h.sound hs, iff_of_true (rearranged_inSync h hsync) trivial⟩
  | unequip itemId =>
    have h := unequipItem_rearranged w.client itemId
    exact ⟨_, rfl, h.sound hs, iff_of_true (rearranged_inSync h hsync) trivial⟩

theorem inSync_initializeSystem (items : List ItemData) :
    InSync ⟨initializeSystem items, fun _ => 0⟩ := by
  intro itemId
  have h : (count itemId (initializeSystem items).inventorySlots : ℚ) = 0 := by
    rw [count_cast]
    exact total_initializeSlot _ _
  rw [getItemCount_eq]
  exact_mod_cast h.symm

/-- From any state the client can be in, with the server in agreement, the two stay in
agreement through a run of calls exactly when every call of it is mirrored. -/
theorem run_inSync_iff {items : List ItemData} (ht : ValidTable items) (before : List Op) {w : World}
    (hreach : before.foldlM InventorySystem.step (initializeSystem items) = some w.client)
    (hsync : w.InSync) {ops : List Op} (hpos : ∀ op ∈ ops, Positive op) :
    Run.Throughout step InSync w ops ↔
      Run.AtEach step (fun w op => Mirrored (client w) op) w ops := by
  obtain ⟨client, hrun, hs⟩ :=
    Run.foldlM_of_step (fun sys op hs => sound_step hs op) (sound_initializeSystem ht) before
  obtain rfl := Option.some.inj (hreach.symm.trans hrun)
  exact Run.throughout_iff_atEach (K := fun w : World => w.client.Sound) (Q := Positive)
    (fun w op hs hsync hop => step_inSync_iff hs hsync hop) hs hsync hpos

theorem run_inSync_iff_database :
    Run.Throughout step InSync ⟨initializeSystem initializeItemsDatabase, fun _ => 0⟩
        [.add "food_bread" 15, .add "food_bread" 5, .remove "food_bread" 12] ↔
      Run.AtEach step (fun w op => Mirrored (client w) op)
        ⟨initializeSystem initializeItemsDatabase, fun _ => 0⟩
        [.add "food_bread" 15, .add "food_bread" 5, .remove "food_bread" 12] :=
  run_inSync_iff validTable_initializeItemsDatabase [] rfl
    (inSync_initializeSystem _) (by simp [Positive])

theorem not_inSync_database :
    ¬ Run.Throughout step InSync ⟨initializeSystem initializeItemsDatabase, fun _ => 0⟩
      [.add "food_bread" 15, .add "food_bread" 10] := by
  intro h
  have hbooks : (([.add "food_bread" 15, .add "food_bread" 10] : List Op).foldlM step
      ⟨initializeSystem initializeItemsDatabase, fun _ => 0⟩).map
        (fun w => (w.server "food_bread", w.client.getItemCount "food_bread")) = some (20, 25) := by
    decide +kernel
  obtain ⟨w, hw, hpair⟩ := Option.map_eq_some_iff.mp hbooks
  have hsync := h.final hw "food_bread"
  rw [Prod.mk.injEq] at hpair
  omega

end World
end WitcherMP.Inventory
