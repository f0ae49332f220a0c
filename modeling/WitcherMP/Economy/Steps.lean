import WitcherMP.Economy.Defs

/-! What one call can do. Each operation either leaves the books as they are or writes
the entries named here; later modules never unfold an operation. -/

namespace WitcherMP.Economy

namespace PlayerEconomyData

def gold (player : PlayerEconomyData) : UInt32 := player.currencies.getD .gold 0

def quantity (player : PlayerEconomyData) (itemId : UInt32) : UInt32 :=
  player.inventory.getD itemId 0

def setGold (player : PlayerEconomyData) (amount : UInt32) : PlayerEconomyData :=
  { player with currencies := player.currencies.insert .gold amount }

def gain (player : PlayerEconomyData) (itemId quantity load : UInt32) : PlayerEconomyData :=
  { player with
    inventory := player.inventory.insert itemId (player.quantity itemId + quantity)
    totalWeight := player.totalWeight + load }

def lose (player : PlayerEconomyData) (itemId quantity load : UInt32) : PlayerEconomyData :=
  { player with
    inventory := GlobalEconomy.takeFrom player.inventory itemId (player.quantity itemId) quantity
    totalWeight := player.totalWeight - load }

end PlayerEconomyData

namespace MerchantData

def quantity (merchant : MerchantData) (itemId : UInt32) : UInt32 :=
  merchant.inventory.getD itemId 0

def sold (merchant : MerchantData) (itemId quantity price : UInt32) : MerchantData :=
  { merchant with
    inventory := GlobalEconomy.takeFrom merchant.inventory itemId (merchant.quantity itemId) quantity
    goldAmount := merchant.goldAmount + price }

def bought (merchant : MerchantData) (itemId quantity price : UInt32) : MerchantData :=
  { merchant with
    inventory := merchant.inventory.insert itemId (merchant.quantity itemId + quantity)
    goldAmount := merchant.goldAmount - price }

end MerchantData

namespace GlobalEconomy

theorem getD_takeFrom (m : OrdMap UInt32 UInt32) (i j q : UInt32) :
    (takeFrom m i (m.getD i 0) q).getD j 0 = if i = j then m.getD i 0 - q else m.getD j 0 := by
  unfold takeFrom
  split_ifs with h₁ h₂ h₃
  · rw [OrdMap.getD_erase, if_pos h₂, h₁]
  · rw [OrdMap.getD_erase, if_neg h₂]
  · rw [OrdMap.getD_insert, if_pos h₃]
  · rw [OrdMap.getD_insert, if_neg h₃]

end GlobalEconomy

namespace PlayerEconomyData

@[simp] theorem gold_setGold (x : PlayerEconomyData) (a : UInt32) : (x.setGold a).gold = a := by
  rw [gold, setGold, OrdMap.getD_insert, if_pos rfl]

@[simp] theorem gold_gain (x : PlayerEconomyData) (i q l : UInt32) :
    (x.gain i q l).gold = x.gold := rfl

@[simp] theorem quantity_setGold (x : PlayerEconomyData) (a i : UInt32) :
    (x.setGold a).quantity i = x.quantity i := rfl

theorem quantity_gain (x : PlayerEconomyData) (i q l j : UInt32) :
    (x.gain i q l).quantity j = if i = j then x.quantity i + q else x.quantity j :=
  OrdMap.getD_insert ..

theorem quantity_lose (x : PlayerEconomyData) (i q l j : UInt32) :
    (x.lose i q l).quantity j = if i = j then x.quantity i - q else x.quantity j :=
  GlobalEconomy.getD_takeFrom x.inventory i j q

end PlayerEconomyData

namespace MerchantData

theorem quantity_sold (x : MerchantData) (i q r j : UInt32) :
    (x.sold i q r).quantity j = if i = j then x.quantity i - q else x.quantity j :=
  GlobalEconomy.getD_takeFrom x.inventory i j q

theorem quantity_bought (x : MerchantData) (i q r j : UInt32) :
    (x.bought i q r).quantity j = if i = j then x.quantity i + q else x.quantity j :=
  OrdMap.getD_insert ..

end MerchantData

namespace GlobalEconomy
variable {s : GlobalEconomy} {p i q : UInt32} {player : PlayerEconomyData} {item : ItemData}

@[simp] theorem getPlayerEconomy_setPlayer (s : GlobalEconomy) (p p' : UInt32)
    (x : PlayerEconomyData) :
    (s.setPlayer p x).getPlayerEconomy p' = if p = p' then some x else s.getPlayerEconomy p' :=
  OrdMap.find?_insert ..

theorem getPlayerEconomy_setPlayer_self (s : GlobalEconomy) (p : UInt32) (x : PlayerEconomyData) :
    (s.setPlayer p x).getPlayerEconomy p = some x := OrdMap.find?_insert_self ..

@[simp] theorem setPlayer_setPlayer (s : GlobalEconomy) (p : UInt32) (x y : PlayerEconomyData) :
    (s.setPlayer p x).setPlayer p y = s.setPlayer p y := by
  simp only [setPlayer, OrdMap.insert_insert]

theorem getItemQuantity_eq (hp : s.getPlayerEconomy p = some player) (i : UInt32) :
    s.getItemQuantity p i = player.quantity i := by
  rw [getItemQuantity, hp]
  rfl

theorem getCurrency_gold (hp : s.getPlayerEconomy p = some player) :
    s.getCurrency p .gold = player.gold := by
  rw [getCurrency, hp]
  rfl

theorem canPlayerCarry_eq (hp : s.getPlayerEconomy p = some player) (hi : s.getItem i = some item) :
    s.canPlayerCarry p i q = decide (player.totalWeight + item.weight * q ≤ player.maxWeight) := by
  rw [canPlayerCarry, hp, hi]

theorem addCurrency_gold (hp : s.getPlayerEconomy p = some player) (a : UInt32) :
    s.addCurrency p .gold a = (s.setPlayer p (player.setGold (player.gold + a)), true) := by
  rw [addCurrency, hp]
  rfl

theorem removeCurrency_gold (hp : s.getPlayerEconomy p = some player) {a : UInt32}
    (ha : a ≤ player.gold) :
    s.removeCurrency p .gold a = (s.setPlayer p (player.setGold (player.gold - a)), true) := by
  have hafford : s.canPlayerAfford p .gold a = true := by
    rw [canPlayerAfford, getCurrency_gold hp]
    exact decide_eq_true ha
  rw [removeCurrency, hp]
  exact if_pos hafford

theorem addItemToInventory_eq (hp : s.getPlayerEconomy p = some player)
    (hi : s.getItem i = some item) (hw : player.totalWeight + item.weight * q ≤ player.maxWeight) :
    s.addItemToInventory p i q = (s.setPlayer p (player.gain i q (item.weight * q)), true) := by
  rw [addItemToInventory, hp, hi]
  exact if_neg (not_lt.mpr hw)

theorem addItemToInventory_of_heavy (hp : s.getPlayerEconomy p = some player)
    (hi : s.getItem i = some item) (hw : ¬ player.totalWeight + item.weight * q ≤ player.maxWeight) :
    s.addItemToInventory p i q = (s, false) := by
  rw [addItemToInventory, hp, hi]
  exact if_pos (not_le.mp hw)

theorem addItemToInventory_of_unknown (hi : s.getItem i = none) :
    s.addItemToInventory p i q = (s, false) := by
  unfold addItemToInventory
  split
  · simp_all
  · rfl

theorem removeItemFromInventory_of_unknown (hi : s.getItem i = none) :
    s.removeItemFromInventory p i q = (s, false) := by
  unfold removeItemFromInventory
  split
  · simp_all
  · rfl

theorem find?_of_le_quantity {x : PlayerEconomyData} (hq : q ≠ 0) (h : q ≤ x.quantity i) :
    x.inventory.find? i = some (x.quantity i) := by
  rw [PlayerEconomyData.quantity, OrdMap.getD] at h ⊢
  cases hf : x.inventory.find? i with
  | some held => rfl
  | none =>
    rw [hf] at h
    exact absurd (UInt32.le_antisymm h UInt32.zero_le) hq

theorem removeItemFromInventory_eq (hp : s.getPlayerEconomy p = some player)
    (hi : s.getItem i = some item) (hq : q ≠ 0) (h : q ≤ player.quantity i) :
    s.removeItemFromInventory p i q = (s.setPlayer p (player.lose i q (item.weight * q)), true) := by
  simp only [removeItemFromInventory, hp, hi, find?_of_le_quantity hq h, if_neg (not_lt.mpr h)]
  rfl

theorem addItemToInventory_cases (s : GlobalEconomy) (p i q : UInt32) :
    s.addItemToInventory p i q = (s, false) ∨
    ∃ player item, s.getPlayerEconomy p = some player ∧ s.getItem i = some item ∧
      player.totalWeight + item.weight * q ≤ player.maxWeight ∧
      s.addItemToInventory p i q = (s.setPlayer p (player.gain i q (item.weight * q)), true) := by
  cases hi : s.getItem i with
  | none => exact Or.inl (addItemToInventory_of_unknown hi)
  | some item =>
    cases hp : s.getPlayerEconomy p with
    | none => exact Or.inl (by rw [addItemToInventory, hp, hi])
    | some player =>
      by_cases hw : player.totalWeight + item.weight * q ≤ player.maxWeight
      · exact Or.inr ⟨player, item, rfl, rfl, hw, addItemToInventory_eq hp hi hw⟩
      · exact Or.inl (addItemToInventory_of_heavy hp hi hw)

theorem removeItemFromInventory_cases (s : GlobalEconomy) (p i q : UInt32) :
    s.removeItemFromInventory p i q = (s, false) ∨
    ∃ player item, s.getPlayerEconomy p = some player ∧ s.getItem i = some item ∧
      q ≤ player.quantity i ∧
      s.removeItemFromInventory p i q = (s.setPlayer p (player.lose i q (item.weight * q)), true) := by
  cases hi : s.getItem i with
  | none => exact Or.inl (removeItemFromInventory_of_unknown hi)
  | some item =>
    cases hp : s.getPlayerEconomy p with
    | none => exact Or.inl (by rw [removeItemFromInventory, hp, hi])
    | some player =>
      cases hf : player.inventory.find? i with
      | none => exact Or.inl (by simp only [removeItemFromInventory, hp, hi, hf])
      | some held =>
        have hquantity : player.quantity i = held := by
          rw [PlayerEconomyData.quantity, OrdMap.getD, hf]
          rfl
        subst hquantity
        by_cases hq : player.quantity i < q
        · exact Or.inl (by simp only [removeItemFromInventory, hp, hi, hf, if_pos hq])
        · refine Or.inr ⟨player, item, rfl, rfl, not_lt.mp hq, ?_⟩
          simp only [removeItemFromInventory, hp, hi, hf, if_neg hq]
          rfl

structure Lost (x x' : PlayerEconomyData) (i q load : UInt32) : Prop where
  quantity : ∀ j, x'.quantity j = if i = j then x.quantity i - q else x.quantity j
  totalWeight : x'.totalWeight = x.totalWeight - load
  currencies : x'.currencies = x.currencies
  maxWeight : x'.maxWeight = x.maxWeight

theorem setPlayer_self (hp : s.getPlayerEconomy p = some player) : s.setPlayer p player = s := by
  rw [setPlayer, OrdMap.insert_of_find? hp]

theorem removeItemFromInventory_held (hp : s.getPlayerEconomy p = some player)
    (hi : s.getItem i = some item) (hq : q ≤ player.quantity i) :
    ∃ x', Lost player x' i q (item.weight * q) ∧
      (s.removeItemFromInventory p i q).1 = s.setPlayer p x' := by
  have hlose : Lost player (player.lose i q (item.weight * q)) i q (item.weight * q) :=
    ⟨PlayerEconomyData.quantity_lose player i q _, rfl, rfl, rfl⟩
  by_cases h0 : q = 0
  · subst h0
    rcases removeItemFromInventory_cases s p i 0 with h | ⟨x, y, hx, hy, -, h⟩
    · refine ⟨player, ⟨fun j => ?_, by simp, rfl, rfl⟩, by rw [h, setPlayer_self hp]⟩
      split_ifs with hij
      · simp [hij]
      · rfl
    · obtain rfl : player = x := Option.some.inj (hp.symm.trans hx)
      obtain rfl : item = y := Option.some.inj (hi.symm.trans hy)
      exact ⟨_, hlose, by rw [h]⟩
  · exact ⟨_, hlose, by rw [removeItemFromInventory_eq hp hi h0 hq]⟩

theorem moveItem_induct {I : GlobalEconomy → Prop}
    (hgain : ∀ s p i q l player, s.getPlayerEconomy p = some player → I s →
      I (s.setPlayer p (player.gain i q l)))
    (hlose : ∀ s p i q l player, s.getPlayerEconomy p = some player → I s →
      I (s.setPlayer p (player.lose i q l)))
    (fromId toId : UInt32) (es : List (UInt32 × UInt32)) {s : GlobalEconomy} (hs : I s) :
    I (es.foldl (moveItem fromId toId) s) := by
  induction es generalizing s with
  | nil => exact hs
  | cons e es ih =>
    apply ih
    have hr : I (s.removeItemFromInventory fromId e.1 e.2).1 := by
      rcases removeItemFromInventory_cases s fromId e.1 e.2 with h | ⟨x, y, hp, -, -, h⟩ <;> rw [h]
      · exact hs
      · exact hlose s fromId e.1 e.2 _ x hp hs
    rw [moveItem]
    rcases addItemToInventory_cases (s.removeItemFromInventory fromId e.1 e.2).1 toId e.1 e.2 with
      h | ⟨x, y, hp, -, -, h⟩ <;> rw [h]
    · exact hr
    · exact hgain _ toId e.1 e.2 _ x hp hr

def SameBooks (s s' : GlobalEconomy) : Prop :=
  s'.items = s.items ∧ s'.playerEconomies = s.playerEconomies ∧ s'.merchants = s.merchants

def Rewrote (s s' : GlobalEconomy) (p : UInt32) (player : PlayerEconomyData) (m : UInt32)
    (merchant : MerchantData) : Prop :=
  s'.items = s.items ∧ s'.playerEconomies = s.playerEconomies.insert p player ∧
    s'.merchants = s.merchants.insert m merchant

theorem SameBooks.refl (s : GlobalEconomy) : SameBooks s s := ⟨rfl, rfl, rfl⟩

theorem processTransaction_quantity {t : TransactionData} (h : processTransaction t = true) :
    t.quantity ≠ 0 := by
  have hv : validateTransaction t = true := by
    by_contra hv
    rw [processTransaction, if_pos hv] at h
    exact Bool.false_ne_true h
  simp only [validateTransaction, Bool.and_eq_true, decide_eq_true_eq] at hv
  exact (ne_of_lt hv.2).symm

def BuyOutcome (toFloat : UInt32 → ℚ) (s : GlobalEconomy) (p m i q : UInt32)
    (r : GlobalEconomy × Bool) : Prop :=
  (r.2 = false ∧ SameBooks s r.1) ∨
  ∃ player merchant item,
    s.getPlayerEconomy p = some player ∧ s.getMerchant m = some merchant ∧
    s.getItem i = some item ∧ q ≠ 0 ∧ q ≤ merchant.quantity i ∧
    s.calculateBuyPrice toFloat i m * q ≤ player.gold ∧
    player.totalWeight + item.weight * q ≤ player.maxWeight ∧ r.2 = true ∧
    Rewrote s r.1 p
      ((player.setGold (player.gold - s.calculateBuyPrice toFloat i m * q)).gain i q
        (item.weight * q)) m
      (merchant.sold i q (s.calculateBuyPrice toFloat i m * q))

theorem buyItem_outcome (toFloat : UInt32 → ℚ) (s : GlobalEconomy) (p m i q : UInt32) :
    BuyOutcome toFloat s p m i q (s.buyItem toFloat p m i q) := by
  have rejected : BuyOutcome toFloat s p m i q (s, false) := Or.inl ⟨rfl, SameBooks.refl s⟩
  unfold buyItem
  split
  · exact rejected
  split
  case h_2 => exact rejected
  case h_1 player merchant item hp hm hi =>
  split
  · exact rejected
  split
  · exact rejected
  case h_2 stock hstock =>
  have hquantity : merchant.quantity i = stock := by
    rw [MerchantData.quantity, OrdMap.getD, hstock]
    rfl
  split
  · exact rejected
  next hs =>
  dsimp only
  split
  · exact rejected
  next hafford =>
  split
  · exact rejected
  next hcarry =>
  split
  case isFalse => exact Or.inl ⟨rfl, rfl, rfl, rfl⟩
  case isTrue hv =>
  have hgold : s.calculateBuyPrice toFloat i m * q ≤ player.gold := by
    simpa only [canPlayerAfford, getCurrency_gold hp, decide_eq_true_eq, not_not] using hafford
  have hweight : player.totalWeight + item.weight * q ≤ player.maxWeight := by
    simpa only [canPlayerCarry_eq hp hi, decide_eq_true_eq, not_not] using hcarry
  refine Or.inr ⟨player, merchant, item, hp, hm, hi, processTransaction_quantity hv,
    hquantity ▸ not_lt.mp hs, hgold, hweight, rfl, ?_⟩
  have hr := removeCurrency_gold
    (s := { s with nextTransactionId := s.nextTransactionId + 1 }) hp hgold
  have had := addItemToInventory_eq
    (getPlayerEconomy_setPlayer_self { s with nextTransactionId := s.nextTransactionId + 1 } p
      (player.setGold (player.gold - s.calculateBuyPrice toFloat i m * q))) hi hweight
  simp only [hr, had, setPlayer_setPlayer, ← hquantity]
  exact ⟨rfl, rfl, rfl⟩

def SellOutcome (toFloat : UInt32 → ℚ) (s : GlobalEconomy) (p m i q : UInt32)
    (r : GlobalEconomy × Bool) : Prop :=
  (r.2 = false ∧ SameBooks s r.1) ∨
  ∃ player merchant item,
    s.getPlayerEconomy p = some player ∧ s.getMerchant m = some merchant ∧
    s.getItem i = some item ∧ q ≠ 0 ∧ q ≤ player.quantity i ∧
    s.calculateSellPrice toFloat i m * q ≤ merchant.goldAmount ∧ r.2 = true ∧
    Rewrote s r.1 p
      ((player.lose i q (item.weight * q)).setGold
        (player.gold + s.calculateSellPrice toFloat i m * q)) m
      (merchant.bought i q (s.calculateSellPrice toFloat i m * q))

theorem sellItem_outcome (toFloat : UInt32 → ℚ) (s : GlobalEconomy) (p m i q : UInt32) :
    SellOutcome toFloat s p m i q (s.sellItem toFloat p m i q) := by
  have rejected : SellOutcome toFloat s p m i q (s, false) := Or.inl ⟨rfl, SameBooks.refl s⟩
  unfold sellItem
  split
  · exact rejected
  split
  case h_2 => exact rejected
  case h_1 player merchant item hp hm hi =>
  split
  · exact rejected
  split
  · exact rejected
  next hs =>
  split
  · exact rejected
  dsimp only
  split
  · exact rejected
  next hgold =>
  split
  case isFalse => exact Or.inl ⟨rfl, rfl, rfl, rfl⟩
  case isTrue hv =>
  rw [getItemQuantity_eq hp, not_lt] at hs
  have hq : q ≠ 0 := processTransaction_quantity hv
  refine Or.inr ⟨player, merchant, item, hp, hm, hi, hq, hs, not_lt.mp hgold, rfl, ?_⟩
  have hr := removeItemFromInventory_eq
    (s := { s with nextTransactionId := s.nextTransactionId + 1 }) hp hi hq hs
  have had := addCurrency_gold
    (getPlayerEconomy_setPlayer_self { s with nextTransactionId := s.nextTransactionId + 1 } p
      (player.lose i q (item.weight * q))) (s.calculateSellPrice toFloat i m * q)
  simp only [hr, had, setPlayer_setPlayer]
  exact ⟨rfl, rfl, rfl⟩

theorem tradeItems_cases (s : GlobalEconomy) (p₁ p₂ : UInt32) (is₁ is₂ : OrdMap UInt32 UInt32) :
    (s.tradeItems p₁ p₂ is₁ is₂ = (s, false) ∧ ∀ x₁ x₂, s.tradingEnabled →
      s.getPlayerEconomy p₁ = some x₁ → s.getPlayerEconomy p₂ = some x₂ →
        s.holdsAll p₁ is₁ → ¬ s.holdsAll p₂ is₂) ∨
    ∃ x₁ x₂, s.tradingEnabled ∧ s.getPlayerEconomy p₁ = some x₁ ∧
      s.getPlayerEconomy p₂ = some x₂ ∧ s.holdsAll p₁ is₁ ∧ s.holdsAll p₂ is₂ ∧
      s.tradeItems p₁ p₂ is₁ is₂
        = (is₂.entries.foldl (moveItem p₂ p₁) (is₁.entries.foldl (moveItem p₁ p₂) s), true) := by
  unfold tradeItems
  split
  · next hoff => exact Or.inl ⟨rfl, fun _ _ hon => absurd hon hoff⟩
  next hon =>
  split
  case h_2 hno => exact Or.inl ⟨rfl, fun x₁ x₂ _ hp₁ hp₂ => (hno x₁ x₂ hp₁ hp₂).elim⟩
  case h_1 x₁ x₂ hp₁ hp₂ =>
  split
  · next h₁ => exact Or.inl ⟨rfl, fun _ _ _ _ _ h => absurd h h₁⟩
  next h₁ =>
  split
  · next h₂ => exact Or.inl ⟨rfl, fun _ _ _ _ _ _ => h₂⟩
  next h₂ =>
  rw [not_not] at hon h₁ h₂
  exact Or.inr ⟨x₁, x₂, hon, hp₁, hp₂, h₁, h₂, rfl⟩

theorem giftItem_cases (s : GlobalEconomy) (p₁ p₂ i q : UInt32) :
    s.giftItem p₁ p₂ i q = (s, false) ∨
    ∃ x₁ x₂, s.getPlayerEconomy p₁ = some x₁ ∧ s.getPlayerEconomy p₂ = some x₂ ∧
      q ≤ x₁.quantity i ∧ s.canPlayerCarry p₂ i q ∧
      s.giftItem p₁ p₂ i q = (moveItem p₁ p₂ s (i, q), true) := by
  unfold giftItem
  split
  · exact Or.inl rfl
  split
  case h_2 => exact Or.inl rfl
  case h_1 x₁ x₂ hp₁ hp₂ =>
  split
  · exact Or.inl rfl
  next hq =>
  split
  · exact Or.inl rfl
  next hcarry =>
  rw [getItemQuantity_eq hp₁, not_lt] at hq
  exact Or.inr ⟨x₁, x₂, hp₁, hp₂, hq, not_not.mp hcarry, rfl⟩

def GiftOutcome (s : GlobalEconomy) (p₁ p₂ i q : UInt32) (r : GlobalEconomy × Bool) : Prop :=
  (r.2 = false ∧ SameBooks s r.1) ∨
  ∃ x₁ x₁' x₂ item, s.getPlayerEconomy p₁ = some x₁ ∧ s.getPlayerEconomy p₂ = some x₂ ∧
    s.getItem i = some item ∧ q ≤ x₁.quantity i ∧ Lost x₁ x₁' i q (item.weight * q) ∧
    r = ((s.setPlayer p₁ x₁').setPlayer p₂ (x₂.gain i q (item.weight * q)), true)

theorem giftItem_outcome (s : GlobalEconomy) {p₁ p₂ : UInt32} (hne : p₁ ≠ p₂) (i q : UInt32) :
    GiftOutcome s p₁ p₂ i q (s.giftItem p₁ p₂ i q) := by
  rcases giftItem_cases s p₁ p₂ i q with hr | ⟨x₁, x₂, hp₁, hp₂, hq, hcarry, hr⟩
  · rw [hr]
    exact Or.inl ⟨rfl, SameBooks.refl s⟩
  cases hi : s.getItem i with
  | none => simp [canPlayerCarry, hp₂, hi] at hcarry
  | some item =>
    have hw : x₂.totalWeight + item.weight * q ≤ x₂.maxWeight := by
      simpa only [canPlayerCarry_eq hp₂ hi, decide_eq_true_eq] using hcarry
    obtain ⟨x₁', hlost, hremoved⟩ := removeItemFromInventory_held hp₁ hi hq
    refine Or.inr ⟨x₁, x₁', x₂, item, hp₁, hp₂, hi, hq, hlost, ?_⟩
    have hp₂' : (s.setPlayer p₁ x₁').getPlayerEconomy p₂ = some x₂ := by
      rw [getPlayerEconomy_setPlayer, if_neg hne, hp₂]
    rw [hr, moveItem, hremoved, addItemToInventory_eq hp₂' hi hw]

def market : GlobalEconomy where
  items := .ofList [(7, ⟨7, 50, 10, true⟩), (8, ⟨8, 5, 2, true⟩)]
  playerEconomies := .ofList
    [(1, ⟨1, .ofList [(.gold, 120)], .ofList [(8, 5)], 10, 40⟩),
     (2, ⟨2, .ofList [(.gold, 100)], .empty, 0, 25⟩)]
  merchants := .ofList [(3, ⟨3, .ofList [(7, 5)], .empty, .empty, 1000, true⟩)]
  transactions := []
  tradingEnabled := true
  giftingEnabled := true
  totalTransactions := 0
  nextTransactionId := 1

end GlobalEconomy
end WitcherMP.Economy
