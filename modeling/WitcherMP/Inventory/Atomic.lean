import WitcherMP.Inventory.Mirror

/-! Additions and removals that are done whole or not at all. Both loops move stock before they
know whether the slots, or the stock, will do, so that a call that fails may have moved some. -/

namespace WitcherMP.Inventory.InventorySystem
open InventorySlot

/-- The call has changed the stock of the item by just that much, or has changed nothing. -/
structure AllOrNothing (sys : InventorySystem) (itemId : CName) (change : ℤ) (o : Outcome) :
    Prop where
  stock : o.result = true → ∀ id,
    o.system.getItemCount id = sys.getItemCount id + if itemId = id then change else 0
  weight : o.result = true → ∀ itemData, sys.getItemData itemId = some itemData →
    o.system.currentWeight = sys.currentWeight + itemData.weight * change
  nothing : o.result = false → o.system = sys

def stackRoom (itemData : ItemData) (slots : List InventorySlot) : ℤ :=
  (slots.map fun slot =>
    if slot.holds itemData.id then itemData.stackSize - slot.quantity else 0).sum

def room (itemData : ItemData) (slots : List InventorySlot) : ℤ :=
  stackRoom itemData slots + itemData.stackSize * slots.countP isEmpty

section Loops
variable {items : List ItemData} {itemData : ItemData} {slots : List InventorySlot}

theorem stackRoom_cons (slot : InventorySlot) : stackRoom itemData (slot :: slots) =
    (if slot.holds itemData.id then itemData.stackSize - slot.quantity else 0) +
      stackRoom itemData slots := rfl

theorem stackRoom_nonneg (ht : ValidTable items) (hmem : itemData ∈ items)
    (hv : ∀ slot ∈ slots, slot.Valid items) : 0 ≤ stackRoom itemData slots := by
  induction slots with
  | nil => exact le_rfl
  | cons slot slots ih =>
    obtain ⟨hslot, hslots⟩ := List.forall_mem_cons.mp hv
    have hrest := ih hslots
    rw [stackRoom_cons]
    split
    · next hholds =>
      have hle := (hslot.of_holds ht hmem hholds).2.2
      omega
    · omega

theorem room_eq_zero (ht : ValidTable items) (hmem : itemData ∈ items)
    (hv : ∀ slot ∈ slots, slot.Valid items) (hfull : room itemData slots = 0) :
    stackRoom itemData slots = 0 ∧ slots.countP isEmpty = 0 := by
  have hsize := ht.stackSize_pos itemData hmem
  have hstacks := stackRoom_nonneg ht hmem hv
  have hempty : 0 ≤ itemData.stackSize * (slots.countP isEmpty : ℤ) :=
    mul_nonneg hsize.le (Int.natCast_nonneg _)
  rw [room] at hfull
  have hprod : itemData.stackSize * (slots.countP isEmpty : ℤ) = 0 := by omega
  refine ⟨by omega, ?_⟩
  exact_mod_cast (mul_eq_zero.mp hprod).resolve_left hsize.ne'

theorem isEmpty_of_stack {slot : InventorySlot} (hitem : slot.item = some itemData)
    (hpos : 0 < slot.quantity) : slot.isEmpty = false := by
  simp [isEmpty, hitem, hpos]

theorem fillStacks_left (ht : ValidTable items) (hmem : itemData ∈ items)
    (hv : ∀ slot ∈ slots, slot.Valid items) {quantity : ℤ} (hq : 0 < quantity) (weight : ℚ) :
    let fill := fillStacks itemData itemData.id slots quantity weight
    fill.quantity = max (quantity - stackRoom itemData slots) 0 ∧
      (fill.last = none ↔ 0 < fill.quantity) ∧
      fill.slots.countP isEmpty = slots.countP isEmpty := by
  induction slots generalizing quantity weight with
  | nil =>
    refine ⟨?_, iff_of_true rfl hq, rfl⟩
    show quantity = max (quantity - 0) 0
    omega
  | cons slot slots ih =>
    obtain ⟨hslot, hslots⟩ := List.forall_mem_cons.mp hv
    have hrest := stackRoom_nonneg ht hmem hslots
    rw [fillStacks, stackRoom_cons]
    split
    · next hadd =>
      obtain ⟨hitem, hpos, hle⟩ := hslot.of_holds ht hmem hadd.1
      rw [if_pos hadd.1]
      set canAdd := min quantity (itemData.stackSize - slot.quantity) with hcan
      have hkept : ∀ rest,
          List.countP isEmpty ({ slot with quantity := slot.quantity + canAdd } :: rest)
            = List.countP isEmpty rest := by
        intro rest
        have hmore : 0 < slot.quantity + canAdd := add_pos hpos hadd.2
        exact List.countP_cons_of_neg (by simp [isEmpty, hitem, hmore])
      have hbefore : List.countP isEmpty (slot :: slots) = List.countP isEmpty slots :=
        List.countP_cons_of_neg (by simp [isEmpty_of_stack hitem hpos])
      split
      · next hall =>
        refine ⟨?_, iff_of_false (Option.some_ne_none _) (not_lt.mpr hall), ?_⟩
        · show quantity - canAdd = _
          omega
        · rw [hkept, hbefore]
      · next hmore =>
        obtain ⟨hleft, hlast, hcount⟩ :=
          ih hslots (not_le.mp hmore) (weight + itemData.weight * canAdd)
        refine ⟨?_, hlast, ?_⟩
        · show Fill.quantity _ = _
          rw [Fill.cons, hleft]
          omega
        · show List.countP isEmpty (_ :: Fill.slots _) = _
          rw [hkept, hbefore, hcount]
    · next hskip =>
      obtain ⟨hleft, hlast, hcount⟩ := ih hslots hq weight
      refine ⟨?_, hlast, ?_⟩
      · show Fill.quantity _ = _
        rw [Fill.cons, hleft]
        split
        · next hholds =>
          have hle := (hslot.of_holds ht hmem hholds).2.2
          have hfull : ¬ min quantity (itemData.stackSize - slot.quantity) > 0 :=
            fun h => hskip ⟨hholds, h⟩
          omega
        · omega
      · show List.countP isEmpty (_ :: Fill.slots _) = _
        rw [List.countP_cons, List.countP_cons, hcount]

theorem fillStacks_of_full (ht : ValidTable items) (hmem : itemData ∈ items)
    (hv : ∀ slot ∈ slots, slot.Valid items) (hfull : stackRoom itemData slots = 0) (quantity : ℤ)
    (weight : ℚ) :
    fillStacks itemData itemData.id slots quantity weight = ⟨slots, quantity, weight, none⟩ := by
  induction slots with
  | nil => rfl
  | cons slot slots ih =>
    obtain ⟨hslot, hslots⟩ := List.forall_mem_cons.mp hv
    have hrest := stackRoom_nonneg ht hmem hslots
    rw [stackRoom_cons] at hfull
    have hskip : ¬ (slot.holds itemData.id ∧
        min quantity (itemData.stackSize - slot.quantity) > 0) := by
      rintro ⟨hholds, hpos⟩
      rw [if_pos hholds] at hfull
      omega
    have hstacks : stackRoom itemData slots = 0 := by
      split at hfull
      · next hholds =>
        have hle := (hslot.of_holds ht hmem hholds).2.2
        omega
      · omega
    rw [fillStacks, if_neg hskip, ih hslots hstacks]
    rfl

theorem fillEmptySlots_of_full (itemId : CName) (hfull : slots.countP isEmpty = 0) {quantity : ℤ}
    (hq : 0 < quantity) (weight : ℚ) (fuel : ℕ) :
    fillEmptySlots itemData itemId (fuel + 1) slots quantity weight =
      some (slots, weight, false, []) := by
  have hnone : findEmptySlot slots = none :=
    List.findIdx?_eq_none_iff.mpr fun slot hslot => by
      simpa using List.countP_eq_zero.mp hfull slot hslot
  rw [fillEmptySlots, if_pos hq, hnone]

theorem fillEmptySlots_fillStacks (ht : ValidTable items) (hmem : itemData ∈ items)
    (hv : ∀ slot ∈ slots, slot.Valid items) {quantity : ℤ} (hq : 0 < quantity) (weight : ℚ)
    (hnone : (fillStacks itemData itemData.id slots quantity weight).last = none) :
    let fill := fillStacks itemData itemData.id slots quantity weight
    ∃ n r, fillEmptySlots itemData itemData.id (fill.slots.length + 1) fill.slots fill.quantity
        fill.weight = some r ∧
      Moved items itemData slots r.1 n ∧ r.2.1 = weight + itemData.weight * n ∧
      (r.2.2.1 = true ∧ n = quantity ∧ quantity ≤ room itemData slots ∨
        r.2.2.1 = false ∧ n = room itemData slots ∧ room itemData slots < quantity) := by
  intro fill
  obtain ⟨m, hm, hmle, hmoved, hleft, hw⟩ := fillStacks_moved ht hmem hv quantity weight
  obtain ⟨hquantity, hlast, hcount⟩ := fillStacks_left ht hmem hv hq weight
  have hpos : 0 < fill.quantity := hlast.mp hnone
  have hmax : fill.quantity = max (quantity - stackRoom itemData slots) 0 := hquantity
  have hrest : fill.quantity = quantity - m := hleft
  obtain ⟨ns, r, hns, hle, hr, hmoved', hw', -, hplaced⟩ :=
    fillEmptySlots_moved ht hmem itemData.id hmoved.valid
      (Nat.lt_succ_of_le List.countP_le_length) fill.quantity fill.weight
  rw [hcount] at hplaced
  refine ⟨m + ns.sum, r, hr, hmoved.trans hmoved', ?_, ?_⟩
  · rw [hw', hw]
    push_cast
    ring
  · rw [room]
    rcases hplaced with ⟨hresult, hsum, hroom⟩ | ⟨hresult, hsum, hlt⟩
    · exact Or.inl ⟨hresult, by omega, by omega⟩
    · exact Or.inr ⟨hresult, by omega, by omega⟩

theorem drainStacks_of_none (hnone : ∀ slot ∈ slots, slot.holds itemData.id = false)
    (remaining : ℤ) (weight : ℚ) :
    drainStacks itemData itemData.id slots remaining weight = (slots, remaining, weight) := by
  induction slots generalizing remaining weight with
  | nil => rfl
  | cons slot slots ih =>
    obtain ⟨hslot, hslots⟩ := List.forall_mem_cons.mp hnone
    rw [drainStacks]
    split
    · rw [if_neg (by simp [hslot]), ih hslots]
    · rfl

theorem holds_of_count_eq_zero (ht : ValidTable items) (hmem : itemData ∈ items)
    (hv : ∀ slot ∈ slots, slot.Valid items) (hzero : count itemData.id slots = 0) :
    ∀ slot ∈ slots, slot.holds itemData.id = false := by
  induction slots with
  | nil => simp
  | cons slot slots ih =>
    obtain ⟨hslot, hslots⟩ := List.forall_mem_cons.mp hv
    have hrest := count_nonneg hslots itemData.id
    rw [count_cons] at hzero
    have hholds : slot.holds itemData.id = false := by
      by_contra hholds
      rw [Bool.not_eq_false] at hholds
      rw [if_pos hholds] at hzero
      have hpos := (hslot.of_holds ht hmem hholds).2.1
      omega
    rw [hholds, if_neg Bool.false_ne_true, zero_add] at hzero
    exact List.forall_mem_cons.mpr ⟨hholds, ih hslots hzero⟩

end Loops

def Placeable (sys : InventorySystem) (itemId : CName) (quantity : ℤ) : Prop :=
  ∀ itemData, sys.getItemData itemId = some itemData →
    sys.currentWeight + itemData.weight * quantity ≤ sys.maxWeight →
      quantity ≤ room itemData sys.inventorySlots ∨ room itemData sys.inventorySlots = 0

def Removable (sys : InventorySystem) (itemId : CName) (quantity : ℤ) : Prop :=
  sys.getItemData itemId ≠ none →
    quantity ≤ sys.getItemCount itemId ∨ sys.getItemCount itemId = 0

section Calls
variable {sys : InventorySystem} {itemData : ItemData} {slots : List InventorySlot}
  {n change : ℤ} {w : ℚ} {events : List Event}

theorem allOrNothing_refused (sys : InventorySystem) (itemId : CName) (change : ℤ) :
    AllOrNothing sys itemId change ⟨sys, false, []⟩ :=
  ⟨fun h => absurd h Bool.false_ne_true, fun h => absurd h Bool.false_ne_true, fun _ => rfl⟩

theorem allOrNothing_of_moved (hitem : sys.getItemData itemData.id = some itemData)
    (hmoved : Moved sys.items itemData sys.inventorySlots slots n)
    (hw : w = sys.currentWeight + itemData.weight * n) (hn : n = change) :
    AllOrNothing sys itemData.id change
      ⟨{ sys with inventorySlots := slots, currentWeight := w }, true, events⟩ := by
  refine ⟨fun _ id => ?_, fun _ item hitem' => ?_, fun h => absurd h.symm Bool.false_ne_true⟩
  · rw [getItemCount_eq, getItemCount_eq, count_of_moved hmoved, hn]
  · rw [hitem, Option.some.injEq] at hitem'
    rw [← hitem', hw, hn]

theorem not_allOrNothing_of_moved
    (hmoved : Moved sys.items itemData sys.inventorySlots slots n) (hn : n ≠ 0) :
    ¬ AllOrNothing sys itemData.id change
      ⟨{ sys with inventorySlots := slots, currentWeight := w }, false, events⟩ := by
  intro h
  have hslots : slots = sys.inventorySlots := congrArg inventorySlots (h.nothing rfl)
  have hcount := count_of_moved hmoved itemData.id
  rw [hslots, if_pos rfl] at hcount
  omega

theorem addItem_allOrNothing_iff (hs : sys.Sound) (itemId : CName) {quantity : ℤ}
    (hq : 0 < quantity) :
    ∃ o, sys.addItem itemId quantity = some o ∧
      (AllOrNothing sys itemId quantity o ↔ Placeable sys itemId quantity) := by
  unfold addItem
  split
  · next hno =>
    exact ⟨_, rfl, iff_of_true (allOrNothing_refused sys itemId _)
      fun itemData h => absurd (hno.symm.trans h) (by simp)⟩
  next itemData hitem =>
  obtain ⟨hmem, rfl⟩ := getItemData_eq_some hitem
  dsimp only
  split
  · next hheavy =>
    refine ⟨_, rfl, iff_of_true (allOrNothing_refused sys _ _) fun itemData' h hle => ?_⟩
    rw [hitem, Option.some.injEq] at h
    exact absurd (h ▸ hle) (not_le.mpr hheavy)
  next hfit =>
  have hplaceable : Placeable sys itemData.id quantity ↔
      quantity ≤ room itemData sys.inventorySlots ∨ room itemData sys.inventorySlots = 0 :=
    forall_fitting_iff hitem (not_lt.mp hfit)
  rw [hplaceable]
  split
  · next canAdd hsome =>
    obtain ⟨n, hn, hle, hmoved, hleft, hw⟩ :=
      fillStacks_moved hs.table hmem hs.valid quantity sys.currentWeight
    obtain ⟨hquantity, hlast, -⟩ :=
      fillStacks_left hs.table hmem hs.valid hq sys.currentWeight
    have hdone : ¬ 0 < (fillStacks itemData itemData.id sys.inventorySlots quantity
        sys.currentWeight).quantity := fun h => by
      rw [hlast.mpr h] at hsome
      cases hsome
    have hempty : 0 ≤ itemData.stackSize * (sys.inventorySlots.countP isEmpty : ℤ) :=
      mul_nonneg (hs.table.stackSize_pos itemData hmem).le (Int.natCast_nonneg _)
    refine ⟨_, rfl, iff_of_true (allOrNothing_of_moved hitem hmoved hw (by omega)) (Or.inl ?_)⟩
    rw [room]
    omega
  · next hnone =>
    by_cases hfull : room itemData sys.inventorySlots = 0
    · obtain ⟨hstacks, hempty⟩ := room_eq_zero hs.table hmem hs.valid hfull
      rw [fillStacks_of_full hs.table hmem hs.valid hstacks,
        fillEmptySlots_of_full itemData.id hempty hq]
      exact ⟨_, rfl, iff_of_true (allOrNothing_refused sys _ _) (Or.inr hfull)⟩
    · obtain ⟨n, ⟨slots, weight, result, events⟩, hr, hmoved, hw, hplaced⟩ :=
        fillEmptySlots_fillStacks hs.table hmem hs.valid hq sys.currentWeight hnone
      rw [hr]
      refine ⟨_, rfl, ?_⟩
      rcases hplaced with ⟨rfl, hall, hroom⟩ | ⟨rfl, hpart, hlt⟩
      · exact iff_of_true (allOrNothing_of_moved hitem hmoved hw hall) (Or.inl hroom)
      · have hmore : n ≠ 0 := hpart.trans_ne hfull
        exact iff_of_false (not_allOrNothing_of_moved hmoved hmore) fun h =>
          h.elim (not_le.mpr hlt) hfull

theorem removeItem_allOrNothing_iff (hs : sys.Sound) (itemId : CName) {quantity : ℤ}
    (hq : 0 < quantity) :
    AllOrNothing sys itemId (-quantity) (sys.removeItem itemId quantity) ↔
      Removable sys itemId quantity := by
  unfold Removable removeItem
  split
  · next hno => exact iff_of_true (allOrNothing_refused sys itemId _) fun h => absurd hno h
  next itemData hitem =>
  obtain ⟨hmem, rfl⟩ := getItemData_eq_some hitem
  obtain ⟨n, hn, hle, hmoved, hleft, hw⟩ :=
    drainStacks_moved hs.table hmem hs.valid quantity sys.currentWeight
  have hcount := count_of_moved hmoved itemData.id
  have hnonneg := count_nonneg hmoved.valid itemData.id
  have hshort := count_drainStacks itemData sys.inventorySlots hs.table hmem hs.valid quantity
    sys.currentWeight
  rw [if_pos rfl] at hcount
  rw [hleft] at hshort
  dsimp only
  rw [hleft, getItemCount_eq, hitem]
  split
  · next hrest =>
    have hall : count itemData.id sys.inventorySlots = n := by
      have hzero := hshort hrest
      omega
    by_cases hnone : count itemData.id sys.inventorySlots = 0
    · have hsame := drainStacks_of_none (holds_of_count_eq_zero hs.table hmem hs.valid hnone)
        quantity sys.currentWeight
      rw [hsame]
      exact iff_of_true (allOrNothing_refused sys _ _) fun _ => Or.inr hnone
    · refine iff_of_false (not_allOrNothing_of_moved hmoved (by omega)) fun h => ?_
      rcases h (Option.some_ne_none itemData) with h | h
      · omega
      · exact hnone h
  · next hrest =>
    have hall : n = quantity := by omega
    refine iff_of_true (allOrNothing_of_moved hitem hmoved ?_ (by rw [hall])) fun _ => Or.inl ?_
    · rw [hw]
      push_cast
      ring
    · omega

end Calls

/-- In whatever state calls have led to, an addition is done whole or not at all just if there is
room for it or no room at all, and a removal just if there is enough or nothing at all. -/
theorem run_allOrNothing_iff {items : List ItemData} (ht : ValidTable items) (ops : List Op)
    {sys : InventorySystem} (hrun : ops.foldlM step (initializeSystem items) = some sys)
    (itemId : CName) {quantity : ℤ} (hq : 0 < quantity) :
    (∃ o, sys.addItem itemId quantity = some o ∧
      (AllOrNothing sys itemId quantity o ↔ Placeable sys itemId quantity)) ∧
    (AllOrNothing sys itemId (-quantity) (sys.removeItem itemId quantity) ↔
      Removable sys itemId quantity) := by
  obtain ⟨sys', hrun', hs⟩ :=
    Run.foldlM_of_step (fun sys op hs => sound_step hs op) (sound_initializeSystem ht) ops
  obtain rfl : sys' = sys := Option.some.inj (hrun'.symm.trans hrun)
  exact ⟨addItem_allOrNothing_iff hs itemId hq, removeItem_allOrNothing_iff hs itemId hq⟩

theorem run_allOrNothing_iff_bread :
    (∃ o, (initializeSystem initializeItemsDatabase).addItem "food_bread" 25 = some o ∧
      (AllOrNothing (initializeSystem initializeItemsDatabase) "food_bread" 25 o ↔
        Placeable (initializeSystem initializeItemsDatabase) "food_bread" 25)) ∧
    (AllOrNothing (initializeSystem initializeItemsDatabase) "food_bread" (-25)
        ((initializeSystem initializeItemsDatabase).removeItem "food_bread" 25) ↔
      Removable (initializeSystem initializeItemsDatabase) "food_bread" 25) :=
  run_allOrNothing_iff validTable_initializeItemsDatabase [] rfl "food_bread" (by decide)

theorem not_allOrNothing_bread :
    ¬ ∀ (ops : List Op) (sys : InventorySystem),
      ops.foldlM step (initializeSystem initializeItemsDatabase) = some sys →
        ∀ (itemId : CName) (quantity : ℤ), 0 < quantity →
          AllOrNothing sys itemId (-quantity) (sys.removeItem itemId quantity) := by
  intro h
  obtain ⟨sys, hrun, hs⟩ := Run.foldlM_of_step (fun sys op hs => sound_step hs op)
    (sound_initializeSystem validTable_initializeItemsDatabase) [.add "food_bread" 1]
  have hloaf : (([.add "food_bread" 1] : List Op).foldlM step
      (initializeSystem initializeItemsDatabase)).map (fun sys =>
        ((sys.removeItem "food_bread" 2).result,
          (sys.removeItem "food_bread" 2).system.getItemCount "food_bread",
          sys.getItemCount "food_bread")) = some (false, 0, 1) := by
    decide +kernel
  rw [hrun, Option.map_some, Option.some.injEq, Prod.mk.injEq, Prod.mk.injEq] at hloaf
  obtain ⟨hfalse, hgone, hhad⟩ := hloaf
  have hsame := (h _ sys hrun "food_bread" 2 (by decide)).nothing hfalse
  rw [hsame, hhad] at hgone
  exact absurd hgone (by decide)

end WitcherMP.Inventory.InventorySystem
