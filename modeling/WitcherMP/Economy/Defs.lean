import WitcherMP.Lib.OrdMap
import WitcherMP.Lib.Word32
import WitcherMP.Lib.Run
import Mathlib.Data.Rat.Floor
import Mathlib.Order.Basic

/-! The shared economy: currencies, player and merchant inventories, and the trading
operations. Change times, log lines and the wealth callback write no economy state
and are left out. The conversion of a `uint32_t` to `float` is a parameter; the products that follow it
are exact, since the multipliers are 1 and 1/2. -/

namespace WitcherMP.Economy

inductive CurrencyType
  | gold | silver | copper | crowns
deriving DecidableEq

def CurrencyType.value : CurrencyType → ℕ
  | gold => 0
  | silver => 1
  | copper => 2
  | crowns => 3

theorem CurrencyType.value_injective : Function.Injective CurrencyType.value := by
  intro a b h
  cases a <;> cases b <;> cases h <;> rfl

instance linearOrderCurrencyType : LinearOrder CurrencyType where
  le a b := a.value ≤ b.value
  lt a b := a.value < b.value
  le_refl a := le_refl a.value
  le_trans _ _ _ := le_trans (α := ℕ)
  le_antisymm _ _ h₁ h₂ := CurrencyType.value_injective (le_antisymm h₁ h₂)
  le_total a b := le_total a.value b.value
  lt_iff_le_not_ge a b := lt_iff_le_not_ge (a := a.value)
  toDecidableLE a b := inferInstanceAs (Decidable (a.value ≤ b.value))
  toDecidableEq := inferInstance
  toDecidableLT a b := inferInstanceAs (Decidable (a.value < b.value))

inductive TransactionType
  | buy | sell | trade | gift | loot
deriving DecidableEq

structure ItemData where
  itemId : UInt32
  value : UInt32
  weight : UInt32
  isSellable : Bool
deriving DecidableEq

structure PlayerEconomyData where
  playerId : UInt32
  currencies : OrdMap CurrencyType UInt32
  inventory : OrdMap UInt32 UInt32
  totalWeight : UInt32
  maxWeight : UInt32
deriving DecidableEq

structure MerchantData where
  merchantId : UInt32
  inventory : OrdMap UInt32 UInt32
  buyPrices : OrdMap UInt32 UInt32
  sellPrices : OrdMap UInt32 UInt32
  goldAmount : UInt32
  isActive : Bool
deriving DecidableEq

structure TransactionData where
  transactionId : UInt32
  playerId : UInt32
  merchantId : UInt32
  type : TransactionType
  itemId : UInt32
  quantity : UInt32
  price : UInt32
  currency : CurrencyType
  isCompleted : Bool
deriving DecidableEq

structure GlobalEconomy where
  items : OrdMap UInt32 ItemData
  playerEconomies : OrdMap UInt32 PlayerEconomyData
  merchants : OrdMap UInt32 MerchantData
  transactions : List TransactionData
  tradingEnabled : Bool
  giftingEnabled : Bool
  totalTransactions : UInt32
  nextTransactionId : UInt32
deriving DecidableEq

namespace GlobalEconomy

def getItem (s : GlobalEconomy) (itemId : UInt32) : Option ItemData := s.items.find? itemId

def getPlayerEconomy (s : GlobalEconomy) (playerId : UInt32) : Option PlayerEconomyData :=
  s.playerEconomies.find? playerId

def getMerchant (s : GlobalEconomy) (merchantId : UInt32) : Option MerchantData :=
  s.merchants.find? merchantId

def getCurrency (s : GlobalEconomy) (playerId : UInt32) (currency : CurrencyType) : UInt32 :=
  match s.getPlayerEconomy playerId with
  | none => 0
  | some player => player.currencies.getD currency 0

def getItemQuantity (s : GlobalEconomy) (playerId itemId : UInt32) : UInt32 :=
  match s.getPlayerEconomy playerId with
  | none => 0
  | some player => player.inventory.getD itemId 0

def canPlayerAfford (s : GlobalEconomy) (playerId : UInt32) (currency : CurrencyType)
    (amount : UInt32) : Bool :=
  amount ≤ s.getCurrency playerId currency

def canPlayerCarry (s : GlobalEconomy) (playerId itemId quantity : UInt32) : Bool :=
  match s.getPlayerEconomy playerId, s.getItem itemId with
  | some player, some item => player.totalWeight + item.weight * quantity ≤ player.maxWeight
  | _, _ => false

def setPlayer (s : GlobalEconomy) (playerId : UInt32) (player : PlayerEconomyData) :
    GlobalEconomy :=
  { s with playerEconomies := s.playerEconomies.insert playerId player }

def setMerchant (s : GlobalEconomy) (merchantId : UInt32) (merchant : MerchantData) :
    GlobalEconomy :=
  { s with merchants := s.merchants.insert merchantId merchant }

def addCurrency (s : GlobalEconomy) (playerId : UInt32) (currency : CurrencyType)
    (amount : UInt32) : GlobalEconomy × Bool :=
  match s.getPlayerEconomy playerId with
  | none => (s, false)
  | some player =>
    (s.setPlayer playerId { player with
      currencies := player.currencies.insert currency (player.currencies.getD currency 0 + amount) },
     true)

def removeCurrency (s : GlobalEconomy) (playerId : UInt32) (currency : CurrencyType)
    (amount : UInt32) : GlobalEconomy × Bool :=
  match s.getPlayerEconomy playerId with
  | none => (s, false)
  | some player =>
    if s.canPlayerAfford playerId currency amount then
      (s.setPlayer playerId { player with
        currencies := player.currencies.insert currency (player.currencies.getD currency 0 - amount) },
       true)
    else (s, false)

def addItemToInventory (s : GlobalEconomy) (playerId itemId quantity : UInt32) :
    GlobalEconomy × Bool :=
  match s.getPlayerEconomy playerId, s.getItem itemId with
  | some player, some item =>
    -- product and sum wrap in 32 bits
    let additionalWeight := item.weight * quantity
    if player.totalWeight + additionalWeight > player.maxWeight then (s, false)
    else
      (s.setPlayer playerId { player with
        inventory := player.inventory.insert itemId (player.inventory.getD itemId 0 + quantity)
        totalWeight := player.totalWeight + additionalWeight },
       true)
  | _, _ => (s, false)

def takeFrom (inventory : OrdMap UInt32 UInt32) (itemId held quantity : UInt32) :
    OrdMap UInt32 UInt32 :=
  if held - quantity = 0 then inventory.erase itemId else inventory.insert itemId (held - quantity)

def removeItemFromInventory (s : GlobalEconomy) (playerId itemId quantity : UInt32) :
    GlobalEconomy × Bool :=
  match s.getPlayerEconomy playerId, s.getItem itemId with
  | some player, some item =>
    match player.inventory.find? itemId with
    | none => (s, false)
    | some held =>
      if held < quantity then (s, false)
      else
        (s.setPlayer playerId { player with
          inventory := takeFrom player.inventory itemId held quantity
          totalWeight := player.totalWeight - item.weight * quantity },
         true)
  | _, _ => (s, false)

section Price
variable (toFloat : UInt32 → ℚ)

/-- `static_cast<uint32_t>` of a floating-point value. C++ does not say what it is from 2^32 on, which
a value near the limit is rounded to. -/
def castUInt32 (x : ℚ) : UInt32 := UInt32.ofNat ⌊x⌋.toNat

def getMerchantMultiplier (_merchantId : UInt32) : ℚ := 1

def calculateBasePrice (s : GlobalEconomy) (itemId : UInt32) : UInt32 :=
  match s.getItem itemId with
  | none => 0
  | some item => item.value

def calculateBuyPrice (s : GlobalEconomy) (itemId merchantId : UInt32) : UInt32 :=
  match s.getItem itemId, s.getMerchant merchantId with
  | some _, some merchant =>
    match merchant.buyPrices.find? itemId with
    | some price => price
    | none =>
      castUInt32 (toFloat (s.calculateBasePrice itemId) * getMerchantMultiplier merchantId)
  | _, _ => 0

def calculateSellPrice (s : GlobalEconomy) (itemId merchantId : UInt32) : UInt32 :=
  match s.getItem itemId, s.getMerchant merchantId with
  | some _, some merchant =>
    match merchant.sellPrices.find? itemId with
    | some price => price
    | none =>
      let sellDiscount : ℚ := 1 / 2
      castUInt32 (toFloat (s.calculateBasePrice itemId) * getMerchantMultiplier merchantId
        * sellDiscount)
  | _, _ => 0

def validateTransaction (t : TransactionData) : Bool :=
  t.playerId ≠ 0 && t.merchantId ≠ 0 && t.itemId ≠ 0 && t.quantity > 0

def processTransaction (t : TransactionData) : Bool :=
  if ¬ validateTransaction t then false else true

def completeTransaction (s : GlobalEconomy) (t : TransactionData) : GlobalEconomy :=
  { s with
    transactions := s.transactions ++ [{ t with isCompleted := true }]
    totalTransactions := s.totalTransactions + 1 }

def newTransaction (s : GlobalEconomy) (type : TransactionType)
    (playerId merchantId itemId quantity price : UInt32) : TransactionData where
  transactionId := s.nextTransactionId
  playerId := playerId
  merchantId := merchantId
  type := type
  itemId := itemId
  quantity := quantity
  price := price
  currency := .gold
  isCompleted := false

def buyItem (s : GlobalEconomy) (playerId merchantId itemId quantity : UInt32) :
    GlobalEconomy × Bool :=
  if ¬ s.tradingEnabled then (s, false) else
  match s.getPlayerEconomy playerId, s.getMerchant merchantId, s.getItem itemId with
  | some _, some merchant, some _ =>
    if ¬ merchant.isActive then (s, false) else
    match merchant.inventory.find? itemId with
    | none => (s, false)
    | some stock =>
      if stock < quantity then (s, false) else
      let totalPrice := s.calculateBuyPrice toFloat itemId merchantId * quantity
      if ¬ s.canPlayerAfford playerId .gold totalPrice then (s, false) else
      if ¬ s.canPlayerCarry playerId itemId quantity then (s, false) else
      let t := s.newTransaction .buy playerId merchantId itemId quantity totalPrice
      let s := { s with nextTransactionId := s.nextTransactionId + 1 }
      if processTransaction t then
        -- neither result is looked at: the guards above stand in for them
        let s := (s.removeCurrency playerId .gold totalPrice).1
        let s := (s.addItemToInventory playerId itemId quantity).1
        let s := s.setMerchant merchantId { merchant with
          inventory := takeFrom merchant.inventory itemId stock quantity
          goldAmount := merchant.goldAmount + totalPrice }
        (s.completeTransaction t, true)
      else (s, false)
  | _, _, _ => (s, false)

def sellItem (s : GlobalEconomy) (playerId merchantId itemId quantity : UInt32) :
    GlobalEconomy × Bool :=
  if ¬ s.tradingEnabled then (s, false) else
  match s.getPlayerEconomy playerId, s.getMerchant merchantId, s.getItem itemId with
  | some _, some merchant, some item =>
    if ¬ merchant.isActive then (s, false) else
    if s.getItemQuantity playerId itemId < quantity then (s, false) else
    if ¬ item.isSellable then (s, false) else
    let totalPrice := s.calculateSellPrice toFloat itemId merchantId * quantity
    if merchant.goldAmount < totalPrice then (s, false) else
    let t := s.newTransaction .sell playerId merchantId itemId quantity totalPrice
    let s := { s with nextTransactionId := s.nextTransactionId + 1 }
    if processTransaction t then
      let s := (s.removeItemFromInventory playerId itemId quantity).1
      let s := (s.addCurrency playerId .gold totalPrice).1
      let s := s.setMerchant merchantId { merchant with
        inventory := merchant.inventory.insert itemId (merchant.inventory.getD itemId 0 + quantity)
        goldAmount := merchant.goldAmount - totalPrice }
      (s.completeTransaction t, true)
    else (s, false)
  | _, _, _ => (s, false)

/-- One round of the trading loops: both results are ignored by the caller. -/
def moveItem (fromId toId : UInt32) (s : GlobalEconomy) (e : UInt32 × UInt32) : GlobalEconomy :=
  let s := (s.removeItemFromInventory fromId e.1 e.2).1
  (s.addItemToInventory toId e.1 e.2).1

def holdsAll (s : GlobalEconomy) (playerId : UInt32) (items : OrdMap UInt32 UInt32) : Bool :=
  items.entries.all fun e => ¬ s.getItemQuantity playerId e.1 < e.2

def tradeItems (s : GlobalEconomy) (player1Id player2Id : UInt32)
    (items1 items2 : OrdMap UInt32 UInt32) : GlobalEconomy × Bool :=
  if ¬ s.tradingEnabled then (s, false) else
  match s.getPlayerEconomy player1Id, s.getPlayerEconomy player2Id with
  | some _, some _ =>
    if ¬ s.holdsAll player1Id items1 then (s, false) else
    if ¬ s.holdsAll player2Id items2 then (s, false) else
    -- no weight limit is looked at before the loops
    let s := items1.entries.foldl (moveItem player1Id player2Id) s
    let s := items2.entries.foldl (moveItem player2Id player1Id) s
    (s, true)
  | _, _ => (s, false)

def giftItem (s : GlobalEconomy) (fromPlayerId toPlayerId itemId quantity : UInt32) :
    GlobalEconomy × Bool :=
  if ¬ s.giftingEnabled then (s, false) else
  match s.getPlayerEconomy fromPlayerId, s.getPlayerEconomy toPlayerId with
  | some _, some _ =>
    if s.getItemQuantity fromPlayerId itemId < quantity then (s, false) else
    if ¬ s.canPlayerCarry toPlayerId itemId quantity then (s, false) else
    let s := (s.removeItemFromInventory fromPlayerId itemId quantity).1
    let s := (s.addItemToInventory toPlayerId itemId quantity).1
    (s, true)
  | _, _ => (s, false)

inductive Op
  | buy (playerId merchantId itemId quantity : UInt32)
  | sell (playerId merchantId itemId quantity : UInt32)
  | trade (player1Id player2Id : UInt32) (items1 items2 : OrdMap UInt32 UInt32)
  | gift (fromPlayerId toPlayerId itemId quantity : UInt32)

def apply (s : GlobalEconomy) : Op → GlobalEconomy × Bool
  | .buy p m i q => s.buyItem toFloat p m i q
  | .sell p m i q => s.sellItem toFloat p m i q
  | .trade p₁ p₂ is₁ is₂ => s.tradeItems p₁ p₂ is₁ is₂
  | .gift p₁ p₂ i q => s.giftItem p₁ p₂ i q

def step (s : GlobalEconomy) (op : Op) : GlobalEconomy := (s.apply toFloat op).1

end Price
end GlobalEconomy
end WitcherMP.Economy
