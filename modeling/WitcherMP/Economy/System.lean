import WitcherMP.Economy.Defs

/-! The economy with everything that is done to it besides trading: items and merchants that
come and go, values that rise, merchants that restock. The passing of time is an argument, and
so are the dice, which know the items that may be traded. The names and the currency prices of
the items, which nothing here reads, are left out. -/

namespace WitcherMP.Economy

structure EconomyStats where
  totalGoldCirculation : UInt32 := 0
  activeMerchants : UInt32 := 0
  totalItems : UInt32 := 0
deriving DecidableEq

structure EconomySystem extends GlobalEconomy where
  initialized : Bool
  inflationRate : ℚ := 1 / 100
  stats : EconomyStats := {}
  nextItemId : UInt32 := 1
  nextMerchantId : UInt32 := 1
deriving DecidableEq

namespace GlobalEconomy

def setItem (s : GlobalEconomy) (itemId : UInt32) (item : ItemData) : GlobalEconomy :=
  { s with items := s.items.insert itemId item }

def calculateItemValue (s : GlobalEconomy) (itemId : UInt32) : UInt32 :=
  match s.getItem itemId with
  | none => 0
  | some item => item.value

def restockItem (dice : UInt32 → Option (Fin 5)) (merchant : MerchantData)
    (e : UInt32 × ItemData) : MerchantData :=
  match merchant.inventory.find? e.2.itemId, dice e.1 with
  | none, some n =>
    { merchant with inventory := merchant.inventory.insert e.2.itemId (.ofNat (n + 1)) }
  | _, _ => merchant

def restockMerchant (s : GlobalEconomy) (merchantId : UInt32) (dice : UInt32 → Option (Fin 5)) :
    GlobalEconomy :=
  match s.getMerchant merchantId with
  | none => s
  | some merchant =>
    if ¬ merchant.isActive then s
    else s.setMerchant merchantId (s.items.entries.foldl (restockItem dice) merchant)

section Price
variable (toFloat : UInt32 → ℚ)

def priceItem (merchantId : UInt32) (s : GlobalEconomy) (e : UInt32 × UInt32) : GlobalEconomy :=
  match s.getItem e.1, s.getMerchant merchantId with
  | some _, some merchant =>
    s.setMerchant merchantId { merchant with
      buyPrices := merchant.buyPrices.insert e.1 (s.calculateBuyPrice toFloat e.1 merchantId)
      sellPrices := merchant.sellPrices.insert e.1 (s.calculateSellPrice toFloat e.1 merchantId) }
  | _, _ => s

def updateMerchantPrices (s : GlobalEconomy) (merchantId : UInt32) : GlobalEconomy :=
  match s.getMerchant merchantId with
  | none => s
  | some merchant => merchant.inventory.entries.foldl (priceItem toFloat merchantId) s

def updateAllMerchantPrices (s : GlobalEconomy) : GlobalEconomy :=
  s.merchants.entries.foldl (fun s e => s.updateMerchantPrices toFloat e.1) s

/-! `floatMul` is the product of a count and a `float`, cut down to an integer again. -/

variable (floatMul : UInt32 → ℚ → UInt32)

def inflate (inflationRate : ℚ) (item : ItemData) : ItemData :=
  { item with value := floatMul item.value (1 + inflationRate) }

def updateItemPrices (s : GlobalEconomy) (inflationRate : ℚ) : GlobalEconomy :=
  let s := { s with items := s.items.mapValues (inflate floatMul inflationRate) }
  s.updateAllMerchantPrices toFloat

def rebalanceItem (s : GlobalEconomy) (e : UInt32 × ItemData) : GlobalEconomy :=
  match s.getItem e.1 with
  | none => s
  | some item => s.setItem e.1 { item with value := s.calculateItemValue item.itemId }

def rebalanceEconomy (s : GlobalEconomy) : GlobalEconomy :=
  (s.items.entries.foldl rebalanceItem s).updateAllMerchantPrices toFloat

end Price

def resetPlayer (player : PlayerEconomyData) : PlayerEconomyData :=
  { player with
    currencies := ((player.currencies.insert .gold 100).insert .silver 0).insert .copper 0
    inventory := .empty
    totalWeight := 0 }

/-- Prices on file outlive the reset. -/
def resetMerchant (merchant : MerchantData) : MerchantData :=
  { merchant with inventory := .empty, goldAmount := 1000 }

def resetEconomy (s : GlobalEconomy) : GlobalEconomy :=
  { s with
    playerEconomies := s.playerEconomies.mapValues resetPlayer
    merchants := s.merchants.mapValues resetMerchant
    transactions := [] }

end GlobalEconomy

namespace EconomySystem

def initial (initialized : Bool) : EconomySystem where
  items := .empty
  playerEconomies := .empty
  merchants := .empty
  transactions := []
  tradingEnabled := true
  giftingEnabled := true
  totalTransactions := 0
  nextTransactionId := 1
  initialized := initialized

/-- An item or merchant under id 0 gets the next id, whatever is under it. -/
def assignedId (id next : UInt32) : UInt32 := if id = 0 then next else id

def nextAfter (id next : UInt32) : UInt32 := if id = 0 then next + 1 else next

def addItem (s : EconomySystem) (item : ItemData) : EconomySystem :=
  if ¬ s.initialized then s else
  let itemId := assignedId item.itemId s.nextItemId
  { s with
    nextItemId := nextAfter item.itemId s.nextItemId
    items := s.items.insert itemId { item with itemId := itemId }
    stats := { s.stats with totalItems := s.stats.totalItems + 1 } }

def removeItem (s : EconomySystem) (itemId : UInt32) : EconomySystem :=
  match s.items.find? itemId with
  | none => s
  | some _ =>
    { s with
      items := s.items.erase itemId
      stats := { s.stats with totalItems := s.stats.totalItems - 1 } }

def addMerchant (s : EconomySystem) (merchant : MerchantData) : EconomySystem :=
  if ¬ s.initialized then s else
  let merchantId := assignedId merchant.merchantId s.nextMerchantId
  { s with
    nextMerchantId := nextAfter merchant.merchantId s.nextMerchantId
    merchants := s.merchants.insert merchantId { merchant with merchantId := merchantId }
    stats := { s.stats with activeMerchants := s.stats.activeMerchants + 1 } }

def removeMerchant (s : EconomySystem) (merchantId : UInt32) : EconomySystem :=
  match s.merchants.find? merchantId with
  | none => s
  | some _ =>
    { s with
      merchants := s.merchants.erase merchantId
      stats := { s.stats with activeMerchants := s.stats.activeMerchants - 1 } }

def newPlayer (playerId : UInt32) : PlayerEconomyData where
  playerId := playerId
  currencies := OrdMap.empty.insert .gold 100
  inventory := .empty
  totalWeight := 0
  maxWeight := 1000

def addPlayer (s : EconomySystem) (playerId : UInt32) : EconomySystem :=
  if ¬ s.initialized then s
  else { s with playerEconomies := s.playerEconomies.insert playerId (newPlayer playerId) }

def removePlayer (s : EconomySystem) (playerId : UInt32) : EconomySystem :=
  { s with playerEconomies := s.playerEconomies.erase playerId }

def updateEconomyStats (s : EconomySystem) : EconomySystem :=
  let players := s.playerEconomies.entries.foldl
    (fun gold e => gold + s.getCurrency e.1 .gold) 0
  let circulation := s.merchants.entries.foldl (fun gold e => gold + e.2.goldAmount) players
  { s with stats := { s.stats with totalGoldCirculation := circulation } }

/-- `due` says whether it is time to restock, and `old` which transactions are a day old. -/
def processEconomyUpdate (s : EconomySystem) (due : Bool)
    (dice : UInt32 → UInt32 → Option (Fin 5)) (old : TransactionData → Bool) : EconomySystem :=
  if ¬ s.initialized then s else
  let restocked := s.merchants.entries.foldl (fun t e => t.restockMerchant e.1 (dice e.1))
    s.toGlobalEconomy
  let s := if due then { s with toGlobalEconomy := restocked } else s
  let s := s.updateEconomyStats
  { s with transactions := s.transactions.filter fun t => ¬ old t }

inductive Registration
  | addItem (item : ItemData)
  | removeItem (itemId : UInt32)
  | addMerchant (merchant : MerchantData)
  | removeMerchant (merchantId : UInt32)

def register (s : EconomySystem) : Registration → EconomySystem
  | .addItem item => s.addItem item
  | .removeItem i => s.removeItem i
  | .addMerchant merchant => s.addMerchant merchant
  | .removeMerchant m => s.removeMerchant m

inductive Op
  | register (call : Registration)
  | trade (call : GlobalEconomy.Op)
  | addPlayer (playerId : UInt32)
  | removePlayer (playerId : UInt32)
  | addCurrency (playerId : UInt32) (currency : CurrencyType) (amount : UInt32)
  | removeCurrency (playerId : UInt32) (currency : CurrencyType) (amount : UInt32)
  | addItemToInventory (playerId itemId quantity : UInt32)
  | removeItemFromInventory (playerId itemId quantity : UInt32)
  | restockMerchant (merchantId : UInt32) (dice : UInt32 → Option (Fin 5))
  | updateMerchantPrices (merchantId : UInt32)
  | updateItemPrices
  | applyInflation (rate : ℚ)
  | processEconomyUpdate (due : Bool) (dice : UInt32 → UInt32 → Option (Fin 5))
      (old : TransactionData → Bool)
  | rebalanceEconomy
  | resetEconomy
  | setInflationRate (rate : ℚ)
  | enableTrading (enable : Bool)
  | enableGifting (enable : Bool)

variable (toFloat : UInt32 → ℚ) (floatMul : UInt32 → ℚ → UInt32)

def step (s : EconomySystem) : Op → EconomySystem
  | .register call => s.register call
  | .trade call => { s with toGlobalEconomy := s.toGlobalEconomy.step toFloat call }
  | .addPlayer p => s.addPlayer p
  | .removePlayer p => s.removePlayer p
  | .addCurrency p c n => { s with toGlobalEconomy := (s.addCurrency p c n).1 }
  | .removeCurrency p c n => { s with toGlobalEconomy := (s.removeCurrency p c n).1 }
  | .addItemToInventory p i q => { s with toGlobalEconomy := (s.addItemToInventory p i q).1 }
  | .removeItemFromInventory p i q =>
    { s with toGlobalEconomy := (s.removeItemFromInventory p i q).1 }
  | .restockMerchant m dice => { s with toGlobalEconomy := s.restockMerchant m dice }
  | .updateMerchantPrices m => { s with toGlobalEconomy := s.updateMerchantPrices toFloat m }
  | .updateItemPrices =>
    { s with toGlobalEconomy := s.updateItemPrices toFloat floatMul s.inflationRate }
  | .applyInflation rate =>
    { s with
      inflationRate := rate
      toGlobalEconomy := s.updateItemPrices toFloat floatMul rate }
  | .processEconomyUpdate due dice old => s.processEconomyUpdate due dice old
  | .rebalanceEconomy => { s with toGlobalEconomy := s.rebalanceEconomy toFloat }
  | .resetEconomy => { s with toGlobalEconomy := s.resetEconomy }
  | .setInflationRate rate => { s with inflationRate := max 0 (min 1 rate) }
  | .enableTrading enable => { s with tradingEnabled := enable }
  | .enableGifting enable => { s with giftingEnabled := enable }

end EconomySystem
end WitcherMP.Economy
