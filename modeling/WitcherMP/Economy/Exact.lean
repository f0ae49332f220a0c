import WitcherMP.Economy.Atomic

/-! The economy in 32 bits against exact arithmetic: one purchase, one sale and one item added
agree with it exactly where nothing that passes the checks overflows. -/

namespace WitcherMP.Economy.GlobalEconomy

def maxWeightOf (s : GlobalEconomy) (playerId : UInt32) : UInt32 :=
  match s.getPlayerEconomy playerId with
  | none => 0
  | some player => player.maxWeight

def loadOf (s : GlobalEconomy) (itemId n : UInt32) : ℕ := (s.itemWeight itemId).toNat * n.toNat

section Trading
variable (toFloat : UInt32 → ℚ) (s : GlobalEconomy) (p m i q : UInt32)

def buyTotal : ℕ := (s.calculateBuyPrice toFloat i m).toNat * q.toNat

def sellTotal : ℕ := (s.calculateSellPrice toFloat i m).toNat * q.toNat

/-- A purchase that goes through could be paid and carried, and moved just what it should. -/
def BuysExactly : Prop :=
  (s.buyItem toFloat p m i q).2 = true →
    let s' := (s.buyItem toFloat p m i q).1
    s.buyTotal toFloat m i q ≤ (s.getCurrency p .gold).toNat ∧
    (s.weightOf p).toNat + s.loadOf i q ≤ (s.maxWeightOf p).toNat ∧
    Exchange (holdings s) (holdings s') (.merchant m) (.player p) i q.toNat
      (s.buyTotal toFloat m i q) ∧
    (s'.weightOf p).toNat = (s.weightOf p).toNat + s.loadOf i q

def SellsExactly : Prop :=
  (s.sellItem toFloat p m i q).2 = true →
    let s' := (s.sellItem toFloat p m i q).1
    s.sellTotal toFloat m i q ≤ (s.merchantGold m).toNat ∧
    Exchange (holdings s) (holdings s') (.player p) (.merchant m) i q.toNat
      (s.sellTotal toFloat m i q) ∧
    (s'.weightOf p).toNat + s.loadOf i q = (s.weightOf p).toNat

def AddsExactly : Prop :=
  (s.addItemToInventory p i q).2 = true →
    let s' := (s.addItemToInventory p i q).1
    (s.weightOf p).toNat + s.loadOf i q ≤ (s.maxWeightOf p).toNat ∧
    (s'.getItemQuantity p i).toNat = (s.getItemQuantity p i).toNat + q.toNat ∧
    (s'.weightOf p).toNat = (s.weightOf p).toNat + s.loadOf i q

structure BuyChecks : Prop where
  trading : s.tradingEnabled
  valid : p ≠ 0 ∧ m ≠ 0 ∧ i ≠ 0 ∧ q ≠ 0
  active : ∃ merchant, s.getMerchant m = some merchant ∧ merchant.isActive
  stocked : q ≤ s.merchantQuantity m i
  affordable : s.canPlayerAfford p .gold (s.calculateBuyPrice toFloat i m * q)
  carriable : s.canPlayerCarry p i q

structure SellChecks : Prop where
  trading : s.tradingEnabled
  valid : p ≠ 0 ∧ m ≠ 0 ∧ i ≠ 0 ∧ q ≠ 0
  active : ∃ merchant, s.getMerchant m = some merchant ∧ merchant.isActive
  sellable : ∃ item, s.getItem i = some item ∧ item.isSellable
  held : q ≤ s.getItemQuantity p i
  affordable : s.calculateSellPrice toFloat i m * q ≤ s.merchantGold m

def BuyFits : Prop :=
  (s.weightOf p).toNat + s.loadOf i q < 2 ^ 32 ∧
  (s.getItemQuantity p i).toNat + q.toNat < 2 ^ 32 ∧
  (s.merchantGold m).toNat + s.buyTotal toFloat m i q < 2 ^ 32

def SellFits : Prop :=
  s.loadOf i q ≤ (s.weightOf p).toNat ∧
  (s.merchantQuantity m i).toNat + q.toNat < 2 ^ 32 ∧
  (s.getCurrency p .gold).toNat + s.sellTotal toFloat m i q < 2 ^ 32

def AddFits : Prop :=
  (s.weightOf p).toNat + s.loadOf i q < 2 ^ 32 ∧
  (s.getItemQuantity p i).toNat + q.toNat < 2 ^ 32

instance : Decidable (AddFits s p i q) := inferInstanceAs (Decidable (_ ∧ _))

end Trading

variable {toFloat : UInt32 → ℚ} {s : GlobalEconomy} {p m i q : UInt32}

theorem validateTransaction_iff (t : TransactionData) : validateTransaction t = true ↔
    t.playerId ≠ 0 ∧ t.merchantId ≠ 0 ∧ t.itemId ≠ 0 ∧ t.quantity ≠ 0 := by
  simp only [validateTransaction, Bool.and_eq_true, decide_eq_true_eq, and_assoc, ne_eq,
    gt_iff_lt, UInt32.pos_iff_ne_zero]

theorem processTransaction_eq (t : TransactionData) : processTransaction t = validateTransaction t := by
  unfold processTransaction
  cases validateTransaction t <;> rfl

theorem BuyChecks.entry (h : BuyChecks toFloat s p m i q) {merchant : MerchantData}
    (hm : s.getMerchant m = some merchant) :
    merchant.inventory.find? i = some (merchant.quantity i) := by
  have hstock := h.stocked
  rw [merchantQuantity_eq hm, MerchantData.quantity, OrdMap.getD] at hstock
  rw [MerchantData.quantity, OrdMap.getD]
  cases hf : merchant.inventory.find? i with
  | some stock => rfl
  | none =>
    rw [hf] at hstock
    exact absurd (UInt32.le_antisymm hstock UInt32.zero_le) h.valid.2.2.2

theorem canPlayerCarry_found (h : s.canPlayerCarry p i q) :
    ∃ player item, s.getPlayerEconomy p = some player ∧ s.getItem i = some item := by
  unfold canPlayerCarry at h
  split at h
  · next player item hp hi => exact ⟨player, item, hp, hi⟩
  · exact absurd h Bool.false_ne_true

theorem buyItem_result (h : BuyChecks toFloat s p m i q) : (s.buyItem toFloat p m i q).2 = true := by
  obtain ⟨player, item, hp, hi⟩ := canPlayerCarry_found h.carriable
  obtain ⟨merchant, hm, hactive⟩ := h.active
  have hstock : q ≤ merchant.quantity i := merchantQuantity_eq hm i ▸ h.stocked
  unfold buyItem
  rw [if_neg (not_not.mpr h.trading), hp, hm, hi]
  dsimp only
  rw [if_neg (not_not.mpr hactive), h.entry hm]
  dsimp only
  rw [if_neg (not_lt.mpr hstock), if_neg (not_not.mpr h.affordable),
    if_neg (not_not.mpr h.carriable), if_pos]
  rw [processTransaction_eq, validateTransaction_iff]
  exact h.valid

theorem buyChecks_of_result (h : (s.buyItem toFloat p m i q).2 = true) :
    BuyChecks toFloat s p m i q := by
  have hfalse : ∀ {x : GlobalEconomy}, ¬ (x, false).2 = true := fun h => Bool.false_ne_true h
  unfold buyItem at h
  split at h
  · exact absurd h hfalse
  next htrading =>
  split at h
  case h_2 => exact absurd h hfalse
  case h_1 player merchant item hp hm hi =>
  split at h
  · exact absurd h hfalse
  next hactive =>
  split at h
  · exact absurd h hfalse
  case h_2 stock hstock =>
  split at h
  · exact absurd h hfalse
  next hle =>
  dsimp only at h
  split at h
  · exact absurd h hfalse
  next hafford =>
  split at h
  · exact absurd h hfalse
  next hcarry =>
  split at h
  case isFalse => exact absurd h hfalse
  case isTrue hv =>
  rw [processTransaction_eq, validateTransaction_iff] at hv
  refine ⟨not_not.mp htrading, hv, ⟨merchant, hm, not_not.mp hactive⟩, ?_, not_not.mp hafford,
    not_not.mp hcarry⟩
  rw [merchantQuantity_eq hm, MerchantData.quantity, OrdMap.getD, hstock]
  exact not_lt.mp hle

theorem sellItem_result (h : SellChecks toFloat s p m i q) :
    (s.sellItem toFloat p m i q).2 = true := by
  obtain ⟨merchant, hm, hactive⟩ := h.active
  obtain ⟨item, hi, hsellable⟩ := h.sellable
  have hgold := h.affordable
  rw [merchantGold_eq hm] at hgold
  have hheld := h.held
  unfold sellItem
  rw [if_neg (not_not.mpr h.trading), hm, hi]
  cases hp : s.getPlayerEconomy p with
  | none =>
    rw [getItemQuantity, hp] at hheld
    exact absurd (UInt32.le_antisymm hheld UInt32.zero_le) h.valid.2.2.2
  | some player =>
    dsimp only
    rw [if_neg (not_not.mpr hactive), if_neg (not_lt.mpr hheld), if_neg (not_not.mpr hsellable),
      if_neg (not_lt.mpr hgold), if_pos]
    rw [processTransaction_eq, validateTransaction_iff]
    exact h.valid

theorem sellChecks_of_result (h : (s.sellItem toFloat p m i q).2 = true) :
    SellChecks toFloat s p m i q := by
  have hfalse : ∀ {x : GlobalEconomy}, ¬ (x, false).2 = true := fun h => Bool.false_ne_true h
  unfold sellItem at h
  split at h
  · exact absurd h hfalse
  next htrading =>
  split at h
  case h_2 => exact absurd h hfalse
  case h_1 player merchant item hp hm hi =>
  split at h
  · exact absurd h hfalse
  next hactive =>
  split at h
  · exact absurd h hfalse
  next hheld =>
  split at h
  · exact absurd h hfalse
  next hsellable =>
  dsimp only at h
  split at h
  · exact absurd h hfalse
  next hgold =>
  split at h
  case isFalse => exact absurd h hfalse
  case isTrue hv =>
  rw [processTransaction_eq, validateTransaction_iff] at hv
  refine ⟨not_not.mp htrading, hv, ⟨merchant, hm, not_not.mp hactive⟩,
    ⟨item, hi, not_not.mp hsellable⟩, not_lt.mp hheld, ?_⟩
  rw [merchantGold_eq hm]
  exact not_lt.mp hgold

theorem addItemToInventory_result :
    (s.addItemToInventory p i q).2 = true ↔ s.canPlayerCarry p i q = true := by
  unfold addItemToInventory canPlayerCarry
  split
  · dsimp only
    split_ifs with hw
    · exact iff_of_false id fun h => absurd (of_decide_eq_true h) (not_le.mpr hw)
    · exact iff_of_true rfl (decide_eq_true (not_lt.mp hw))
  · exact iff_of_false Bool.false_ne_true Bool.false_ne_true

theorem maxWeightOf_eq {player : PlayerEconomyData} (hp : s.getPlayerEconomy p = some player) :
    s.maxWeightOf p = player.maxWeight := by
  rw [maxWeightOf, hp]

theorem carried_of_canPlayerCarry (h : s.canPlayerCarry p i q)
    (hfit : (s.weightOf p).toNat + s.loadOf i q < 2 ^ 32) :
    (s.weightOf p).toNat + s.loadOf i q ≤ (s.maxWeightOf p).toNat := by
  obtain ⟨player, item, hp, hi⟩ := canPlayerCarry_found h
  rw [canPlayerCarry_eq hp hi, decide_eq_true_eq, UInt32.le_iff_toNat_le] at h
  rw [loadOf, weightOf_eq hp, itemWeight_eq hi] at hfit ⊢
  have hload := mul_fits (a := item.weight) (b := q) (by omega)
  rw [Word32.toNat_add (by rwa [hload]), hload] at h
  rwa [maxWeightOf_eq hp]

theorem buysExactly_iff :
    BuysExactly toFloat s p m i q ↔ (BuyChecks toFloat s p m i q → BuyFits toFloat s p m i q) := by
  constructor
  · intro h hchecks
    obtain ⟨-, hcarry, hmoved, -⟩ := h (buyItem_result hchecks)
    refine ⟨hcarry.trans_lt (UInt32.toNat_lt _), ?_, ?_⟩
    · exact hmoved.received ▸ UInt32.toNat_lt _
    · exact hmoved.earned ▸ UInt32.toNat_lt _
  · intro h hresult
    have hchecks := buyChecks_of_result hresult
    obtain ⟨hweight, hroom, htill⟩ := h hchecks
    have hfits : Fits toFloat s (.buy p m i q) := fun _ =>
      ⟨(Nat.le_add_left _ _).trans_lt htill, (Nat.le_add_left _ _).trans_lt hweight, hweight,
        hroom, htill⟩
    have hatomic : AllOrNothing s _ _ _ _ _ _ := atomic_buyItem hfits
    have hmoved := hatomic.2 hresult
    refine ⟨?_, carried_of_canPlayerCarry hchecks.carriable hweight, hmoved.exchange,
      hmoved.receiver_weight p rfl⟩
    have hpaid := hmoved.exchange.paid
    exact Nat.le.intro ((Nat.add_comm _ _).trans hpaid)

theorem sellsExactly_iff :
    SellsExactly toFloat s p m i q ↔
      (SellChecks toFloat s p m i q → SellFits toFloat s p m i q) := by
  constructor
  · intro h hchecks
    obtain ⟨-, hmoved, hweight⟩ := h (sellItem_result hchecks)
    refine ⟨?_, ?_, ?_⟩
    · exact Nat.le.intro ((Nat.add_comm _ _).trans hweight)
    · exact hmoved.received ▸ UInt32.toNat_lt _
    · exact hmoved.earned ▸ UInt32.toNat_lt _
  · intro h hresult
    obtain ⟨hload, hroom, hpurse⟩ := h (sellChecks_of_result hresult)
    have hfits : Fits toFloat s (.sell p m i q) := fun _ =>
      ⟨(Nat.le_add_left _ _).trans_lt hpurse, hload.trans_lt (UInt32.toNat_lt _), hroom, hpurse⟩
    have hatomic : AllOrNothing s _ _ _ _ _ _ := atomic_sellItem hfits
    have hmoved := hatomic.2 hresult
    refine ⟨?_, hmoved.exchange, (hmoved.giver_weight p rfl).2 hload⟩
    have hpaid := hmoved.exchange.paid
    exact Nat.le.intro ((Nat.add_comm _ _).trans hpaid)

theorem addsExactly_iff : AddsExactly s p i q ↔ (s.canPlayerCarry p i q → AddFits s p i q) := by
  constructor
  · intro h hcarry
    obtain ⟨hweight, hquantity, -⟩ := h (addItemToInventory_result.mpr hcarry)
    exact ⟨hweight.trans_lt (UInt32.toNat_lt _), hquantity ▸ UInt32.toNat_lt _⟩
  · intro h hresult
    have hcarry := addItemToInventory_result.mp hresult
    obtain ⟨hweight, hroom⟩ := h hcarry
    refine ⟨carried_of_canPlayerCarry hcarry hweight, ?_⟩
    rcases addItemToInventory_cases s p i q with hr | ⟨player, item, hp, hi, -, hr⟩
    · rw [hr] at hresult
      exact absurd hresult Bool.false_ne_true
    · have hp' := getPlayerEconomy_setPlayer_self s p (player.gain i q (item.weight * q))
      rw [hr, getItemQuantity_eq hp', getItemQuantity_eq hp, weightOf_eq hp', weightOf_eq hp,
        PlayerEconomyData.quantity_gain, if_pos rfl, loadOf, itemWeight_eq hi]
      rw [getItemQuantity_eq hp] at hroom
      rw [loadOf, weightOf_eq hp, itemWeight_eq hi] at hweight
      have hload := mul_fits (a := item.weight) (b := q) (by omega)
      refine ⟨Word32.toNat_add hroom, ?_⟩
      rw [← hload]
      exact Word32.toNat_add (by rwa [hload])

/-- Purchase, sale and addition agree with exact arithmetic in a state and on an input exactly
if each of them that passes its checks stays within 32 bits there. -/
theorem exact_iff (toFloat : UInt32 → ℚ) (s : GlobalEconomy) (p m i q : UInt32) :
    (BuysExactly toFloat s p m i q ∧ SellsExactly toFloat s p m i q ∧ AddsExactly s p i q) ↔
      (BuyChecks toFloat s p m i q → BuyFits toFloat s p m i q) ∧
      (SellChecks toFloat s p m i q → SellFits toFloat s p m i q) ∧
      (s.canPlayerCarry p i q → AddFits s p i q) :=
  and_congr buysExactly_iff (and_congr sellsExactly_iff addsExactly_iff)

def featherMarket : GlobalEconomy where
  items := .ofList [(7, ⟨7, 2, 0, true⟩)]
  playerEconomies := .ofList [(1, ⟨1, .empty, .empty, 0, 1000⟩)]
  merchants := .ofList [(3, ⟨3, .ofList [(7, 2147483648)], .empty, .empty, 1000, true⟩)]
  transactions := []
  tradingEnabled := true
  giftingEnabled := true
  totalTransactions := 0
  nextTransactionId := 1

theorem not_exact_feathers :
    ¬ BuysExactly (fun n => n.toNat) featherMarket 1 3 7 2147483648 := by
  intro h
  have hpaid := (h (by decide +kernel)).1
  revert hpaid
  decide +kernel

end WitcherMP.Economy.GlobalEconomy
