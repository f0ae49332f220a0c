import Mathlib.Algebra.Order.Field.Rat

/-! The client inventory: slots of stacked items under a weight limit, and the messages its
operations send to the server manager and the buff system. Log lines, the player handle and
the item texts are left out; weights are exact. -/

namespace WitcherMP.Inventory

abbrev CName := String

inductive ItemCategory
  | none | weapon | armor | consumable | ingredient | quest | misc
deriving DecidableEq

structure ItemData where
  id : CName
  category : ItemCategory
  weight : ℚ
  stackSize : ℤ
  isEquippable : Bool
  effects : List CName
deriving DecidableEq

inductive Event
  | inventoryChange (itemId : CName) (quantity : ℤ) (added : Bool)
  | itemEquipped (itemId : CName) (equipped : Bool)
  | addBuff (effect : CName) (duration : ℤ)
  | removeBuff (effect : CName)
deriving DecidableEq

structure InventorySlot where
  item : Option ItemData
  quantity : ℤ
  isEquipped : Bool
  slotIndex : ℕ
deriving DecidableEq

namespace InventorySlot

def initializeSlot (slotIdx : ℕ) : InventorySlot where
  item := none
  quantity := 0
  isEquipped := false
  slotIndex := slotIdx

def isEmpty (slot : InventorySlot) : Bool := slot.item.isNone || slot.quantity ≤ 0

def canAddItem (slot : InventorySlot) (itemData : ItemData) (count : ℤ) : Bool :=
  if slot.isEmpty then true else
  match slot.item with
  | some item => if item.id = itemData.id then slot.quantity + count ≤ item.stackSize else false
  | none => false

def addItem (slot : InventorySlot) (itemData : ItemData) (count : ℤ) : InventorySlot × Bool :=
  if ¬ slot.canAddItem itemData count then (slot, false) else
  if slot.isEmpty then ({ slot with item := some itemData, quantity := count }, true)
  else ({ slot with quantity := slot.quantity + count }, true)

def removeItem (slot : InventorySlot) (count : ℤ) : InventorySlot × Bool :=
  if slot.quantity < count then (slot, false) else
  if slot.quantity - count ≤ 0 then
    ({ slot with item := none, quantity := 0, isEquipped := false }, true)
  else ({ slot with quantity := slot.quantity - count }, true)

def holds (slot : InventorySlot) (itemId : CName) : Bool :=
  !slot.isEmpty && slot.item.any (fun item => item.id = itemId)

end InventorySlot

structure InventorySystem where
  items : List ItemData
  inventorySlots : List InventorySlot
  maxSlots : ℕ
  maxWeight : ℚ
  currentWeight : ℚ
deriving DecidableEq

structure Outcome where
  system : InventorySystem
  result : Bool
  events : List Event
deriving DecidableEq

namespace InventorySystem

def initializeSystem (items : List ItemData) : InventorySystem where
  items := items
  inventorySlots := (List.range 100).map InventorySlot.initializeSlot
  maxSlots := 100
  maxWeight := 200
  currentWeight := 0

def getItemData (sys : InventorySystem) (itemId : CName) : Option ItemData :=
  sys.items.find? fun item => item.id = itemId

def findEmptySlot (slots : List InventorySlot) : Option ℕ :=
  slots.findIdx? fun slot => slot.isEmpty

def findItemSlot (slots : List InventorySlot) (itemId : CName) : Option ℕ :=
  slots.findIdx? fun slot => slot.holds itemId

def getItemCount (sys : InventorySystem) (itemId : CName) : ℤ :=
  sys.inventorySlots.foldl
    (fun count slot => if slot.holds itemId then count + slot.quantity else count) 0

structure Fill where
  slots : List InventorySlot
  quantity : ℤ
  weight : ℚ
  last : Option ℤ

def Fill.cons (slot : InventorySlot) (rest : Fill) : Fill :=
  { rest with slots := slot :: rest.slots }

def fillStacks (itemData : ItemData) (itemId : CName) : List InventorySlot → ℤ → ℚ → Fill
  | [], quantity, weight => ⟨[], quantity, weight, none⟩
  | slot :: slots, quantity, weight =>
    let canAdd := min quantity (itemData.stackSize - slot.quantity)
    if slot.holds itemId ∧ canAdd > 0 then
      let slot := { slot with quantity := slot.quantity + canAdd }
      let weight := weight + itemData.weight * canAdd
      -- only the step that places the last of it returns through the notification
      if quantity - canAdd ≤ 0 then ⟨slot :: slots, quantity - canAdd, weight, some canAdd⟩
      else .cons slot (fillStacks itemData itemId slots (quantity - canAdd) weight)
    else .cons slot (fillStacks itemData itemId slots quantity weight)

/-- The second loop of `addItem`: open new stacks. Running out of `fuel` stands for a loop
that does not end. -/
def fillEmptySlots (itemData : ItemData) (itemId : CName) :
    ℕ → List InventorySlot → ℤ → ℚ → Option (List InventorySlot × ℚ × Bool × List Event)
  | 0, _, _, _ => none
  | fuel + 1, slots, quantity, weight =>
    if quantity > 0 then
      match findEmptySlot slots with
      | none => some (slots, weight, false, [])
      | some i =>
        let canAdd := min quantity itemData.stackSize
        (fillEmptySlots itemData itemId fuel
          (slots.modify i fun slot => (slot.addItem itemData canAdd).1)
          (quantity - canAdd) (weight + itemData.weight * canAdd)).map fun r =>
            (r.1, r.2.1, r.2.2.1, .inventoryChange itemId canAdd true :: r.2.2.2)
    else some (slots, weight, true, [])

def addItem (sys : InventorySystem) (itemId : CName) (quantity : ℤ) : Option Outcome :=
  match sys.getItemData itemId with
  | none => some ⟨sys, false, []⟩
  | some itemData =>
    let totalWeight := itemData.weight * quantity
    if sys.currentWeight + totalWeight > sys.maxWeight then some ⟨sys, false, []⟩ else
    let fill := fillStacks itemData itemId sys.inventorySlots quantity sys.currentWeight
    match fill.last with
    | some canAdd =>
      some ⟨{ sys with inventorySlots := fill.slots, currentWeight := fill.weight }, true,
        [.inventoryChange itemId canAdd true]⟩
    | none =>
      -- every round of the second loop uses up an empty slot
      (fillEmptySlots itemData itemId (fill.slots.length + 1) fill.slots fill.quantity
        fill.weight).map fun r =>
          ⟨{ sys with inventorySlots := r.1, currentWeight := r.2.1 }, r.2.2.1, r.2.2.2⟩

def drainStacks (itemData : ItemData) (itemId : CName) :
    List InventorySlot → ℤ → ℚ → List InventorySlot × ℤ × ℚ
  | [], remaining, weight => ([], remaining, weight)
  | slot :: slots, remaining, weight =>
    if remaining > 0 then
      if slot.holds itemId then
        let canRemove := min remaining slot.quantity
        let rest := drainStacks itemData itemId slots (remaining - canRemove)
          (weight - itemData.weight * canRemove)
        ((slot.removeItem canRemove).1 :: rest.1, rest.2)
      else
        let rest := drainStacks itemData itemId slots remaining weight
        (slot :: rest.1, rest.2)
    else (slot :: slots, remaining, weight)

def removeItem (sys : InventorySystem) (itemId : CName) (quantity : ℤ) : Outcome :=
  match sys.getItemData itemId with
  | none => ⟨sys, false, []⟩
  | some itemData =>
    let r := drainStacks itemData itemId sys.inventorySlots quantity sys.currentWeight
    let sys := { sys with inventorySlots := r.1, currentWeight := r.2.2 }
    -- what was taken before the stacks ran out stays taken
    if r.2.1 > 0 then ⟨sys, false, []⟩ else ⟨sys, true, [.inventoryChange itemId quantity false]⟩

def applyItemEffects (itemData : ItemData) : List Event :=
  itemData.effects.map fun effect => .addBuff effect (-1)

def removeItemEffects (itemData : ItemData) : List Event :=
  itemData.effects.map .removeBuff

def wears (category : ItemCategory) (slot : InventorySlot) : Bool :=
  !slot.isEmpty && slot.isEquipped && slot.item.any (fun item => item.category = category)

def unequipItemByCategory (slots : List InventorySlot) (category : ItemCategory) :
    List InventorySlot × List Event :=
  (slots.map fun slot => if wears category slot then { slot with isEquipped := false } else slot,
   slots.flatMap fun slot =>
    match slot.item with
    | some item =>
      if wears category slot then removeItemEffects item ++ [.itemEquipped item.id false] else []
    | none => [])

def equipItem (sys : InventorySystem) (itemId : CName) : Outcome :=
  match sys.getItemData itemId with
  | none => ⟨sys, false, []⟩
  | some itemData =>
    if ¬ itemData.isEquippable then ⟨sys, false, []⟩ else
    match findItemSlot sys.inventorySlots itemId with
    | none => ⟨sys, false, []⟩
    | some i =>
      let r := unequipItemByCategory sys.inventorySlots itemData.category
      ⟨{ sys with inventorySlots := r.1.modify i fun slot => { slot with isEquipped := true } },
       true, r.2 ++ applyItemEffects itemData ++ [.itemEquipped itemId true]⟩

def unequipItem (sys : InventorySystem) (itemId : CName) : Outcome :=
  match findItemSlot sys.inventorySlots itemId with
  | none => ⟨sys, false, []⟩
  | some i =>
    match sys.inventorySlots[i]? with
    | none => ⟨sys, false, []⟩
    | some slot =>
      if ¬ slot.isEquipped then ⟨sys, false, []⟩ else
      ⟨{ sys with
          inventorySlots := sys.inventorySlots.modify i fun slot => { slot with isEquipped := false } },
       true, (slot.item.elim [] removeItemEffects) ++ [.itemEquipped itemId false]⟩

inductive Op
  | add (itemId : CName) (quantity : ℤ)
  | remove (itemId : CName) (quantity : ℤ)
  | equip (itemId : CName)
  | unequip (itemId : CName)

/-- One call; `none` for a call that does not return. -/
def call (sys : InventorySystem) : Op → Option Outcome
  | .add itemId quantity => sys.addItem itemId quantity
  | .remove itemId quantity => some (sys.removeItem itemId quantity)
  | .equip itemId => some (sys.equipItem itemId)
  | .unequip itemId => some (sys.unequipItem itemId)

def step (sys : InventorySystem) (op : Op) : Option InventorySystem :=
  (sys.call op).map Outcome.system

end InventorySystem
end WitcherMP.Inventory
