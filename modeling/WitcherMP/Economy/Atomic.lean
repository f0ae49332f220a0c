import WitcherMP.Economy.Steps
import WitcherMP.Lib.Exchange

/-! Purchases, sales and gifts are all-or-nothing exchanges at every point of a run. -/

namespace WitcherMP.Economy

inductive Party
  | player (playerId : UInt32)
  | merchant (merchantId : UInt32)
deriving DecidableEq

namespace GlobalEconomy

def merchantQuantity (s : GlobalEconomy) (merchantId itemId : UInt32) : UInt32 :=
  match s.getMerchant merchantId with
  | none => 0
  | some merchant => merchant.quantity itemId

def merchantGold (s : GlobalEconomy) (merchantId : UInt32) : UInt32 :=
  match s.getMerchant merchantId with
  | none => 0
  | some merchant => merchant.goldAmount

def weightOf (s : GlobalEconomy) (playerId : UInt32) : UInt32 :=
  match s.getPlayerEconomy playerId with
  | none => 0
  | some player => player.totalWeight

def itemWeight (s : GlobalEconomy) (itemId : UInt32) : UInt32 :=
  match s.getItem itemId with
  | none => 0
  | some item => item.weight

def holdings (s : GlobalEconomy) : Holdings Party UInt32 where
  stock
    | .player p, i => (s.getItemQuantity p i).toNat
    | .merchant m, i => (s.merchantQuantity m i).toNat
  purse
    | .player p => (s.getCurrency p .gold).toNat
    | .merchant m => (s.merchantGold m).toNat

def parties (s : GlobalEconomy) : Finset Party :=
  s.playerEconomies.keys.image .player ∪ s.merchants.keys.image .merchant

def worldQuantity (s : GlobalEconomy) (i : UInt32) : ℕ := ∑ p ∈ s.parties, (holdings s).stock p i

section Reads
variable {s s' : GlobalEconomy} {p m : UInt32} {x : PlayerEconomyData} {y : MerchantData}

theorem merchantQuantity_eq (hm : s.getMerchant m = some y) (i : UInt32) :
    s.merchantQuantity m i = y.quantity i := by
  rw [merchantQuantity, hm]

theorem merchantGold_eq (hm : s.getMerchant m = some y) : s.merchantGold m = y.goldAmount := by
  rw [merchantGold, hm]

theorem weightOf_eq (hp : s.getPlayerEconomy p = some x) : s.weightOf p = x.totalWeight := by
  rw [weightOf, hp]

theorem itemWeight_eq {i : UInt32} {item : ItemData} (hi : s.getItem i = some item) :
    s.itemWeight i = item.weight := by
  rw [itemWeight, hi]

namespace Rewrote
variable (h : Rewrote s s' p x m y)
include h

theorem player : s'.getPlayerEconomy p = some x := by
  rw [getPlayerEconomy, h.2.1, OrdMap.find?_insert_self]

theorem merchant : s'.getMerchant m = some y := by
  rw [getMerchant, h.2.2, OrdMap.find?_insert_self]

theorem player_ne {p' : UInt32} (hne : p' ≠ p) : s'.getPlayerEconomy p' = s.getPlayerEconomy p' := by
  rw [getPlayerEconomy, h.2.1, OrdMap.find?_insert_of_ne _ _ hne.symm]
  rfl

theorem merchant_ne {m' : UInt32} (hne : m' ≠ m) : s'.getMerchant m' = s.getMerchant m' := by
  rw [getMerchant, h.2.2, OrdMap.find?_insert_of_ne _ _ hne.symm]
  rfl

theorem parties_eq (hp : s.getPlayerEconomy p ≠ none) (hm : s.getMerchant m ≠ none) :
    s'.parties = s.parties := by
  rw [parties, h.2.1, h.2.2, OrdMap.keys_insert hp, OrdMap.keys_insert hm]
  rfl

theorem stock_frame {q : Party} (hp : q ≠ .player p) (hm : q ≠ .merchant m) (i : UInt32) :
    (holdings s').stock q i = (holdings s).stock q i := by
  cases q with
  | player p' =>
    simp only [holdings, getItemQuantity, h.player_ne fun e => hp (congrArg _ e)]
  | merchant m' =>
    simp only [holdings, merchantQuantity, h.merchant_ne fun e => hm (congrArg _ e)]

theorem purse_frame {q : Party} (hp : q ≠ .player p) (hm : q ≠ .merchant m) :
    (holdings s').purse q = (holdings s).purse q := by
  cases q with
  | player p' =>
    simp only [holdings, getCurrency, h.player_ne fun e => hp (congrArg _ e)]
  | merchant m' =>
    simp only [holdings, merchantGold, h.merchant_ne fun e => hm (congrArg _ e)]

end Rewrote

structure Handed (s s' : GlobalEconomy) (p₁ : UInt32) (x₁ : PlayerEconomyData) (p₂ : UInt32)
    (x₂ : PlayerEconomyData) : Prop where
  giver : s'.getPlayerEconomy p₁ = some x₁
  receiver : s'.getPlayerEconomy p₂ = some x₂
  others : ∀ p, p ≠ p₁ → p ≠ p₂ → s'.getPlayerEconomy p = s.getPlayerEconomy p
  players : s'.playerEconomies.keys = s.playerEconomies.keys
  merchants : s'.merchants = s.merchants

namespace Handed
variable {p₁ p₂ : UInt32} {x₁ x₁' x₂ x₂' : PlayerEconomyData}

theorem of_setPlayer (hne : p₁ ≠ p₂) (hp₁ : s.getPlayerEconomy p₁ = some x₁)
    (hp₂ : s.getPlayerEconomy p₂ = some x₂) :
    Handed s ((s.setPlayer p₁ x₁').setPlayer p₂ x₂') p₁ x₁' p₂ x₂' where
  giver := by
    rw [getPlayerEconomy_setPlayer, if_neg hne.symm, getPlayerEconomy_setPlayer, if_pos rfl]
  receiver := by rw [getPlayerEconomy_setPlayer, if_pos rfl]
  others p h₁ h₂ := by
    rw [getPlayerEconomy_setPlayer, if_neg h₂.symm, getPlayerEconomy_setPlayer, if_neg h₁.symm]
  players := by
    have hk₁ : (s.playerEconomies.insert p₁ x₁').keys = s.playerEconomies.keys :=
      OrdMap.keys_insert (fun h => Option.some_ne_none x₁ (hp₁.symm.trans h)) x₁'
    rw [← hk₁]
    refine OrdMap.keys_insert (fun h => ?_) _
    have h' : (s.playerEconomies.insert p₁ x₁').find? p₂ = none := h
    rw [OrdMap.find?_insert_of_ne _ _ hne] at h'
    exact Option.some_ne_none x₂ (hp₂.symm.trans h')
  merchants := rfl

variable (h : Handed s s' p₁ x₁' p₂ x₂')
include h

theorem parties_eq : s'.parties = s.parties := by
  rw [parties, h.players, h.merchants]
  rfl

theorem getCurrency_eq (hp₁ : s.getPlayerEconomy p₁ = some x₁)
    (hp₂ : s.getPlayerEconomy p₂ = some x₂) (h₁ : x₁'.currencies = x₁.currencies)
    (h₂ : x₂'.currencies = x₂.currencies) (p : UInt32) (c : CurrencyType) :
    s'.getCurrency p c = s.getCurrency p c := by
  by_cases hp : p = p₁
  · subst hp
    simp only [getCurrency, h.giver, hp₁, h₁]
  · by_cases hp' : p = p₂
    · subst hp'
      simp only [getCurrency, h.receiver, hp₂, h₂]
    · simp only [getCurrency, h.others p hp hp']

theorem purse_eq (hcurrency : ∀ p c, s'.getCurrency p c = s.getCurrency p c) (r : Party) :
    (holdings s').purse r = (holdings s).purse r := by
  cases r with
  | merchant m => simp only [holdings, merchantGold, getMerchant, h.merchants]
  | player p => simp only [holdings, hcurrency]

theorem stock_of_item {i : UInt32} (hp₁ : s.getPlayerEconomy p₁ = some x₁)
    (hp₂ : s.getPlayerEconomy p₂ = some x₂) (h₁ : ∀ j, i ≠ j → x₁'.quantity j = x₁.quantity j)
    (h₂ : ∀ j, i ≠ j → x₂'.quantity j = x₂.quantity j) (r : Party) (j : UInt32)
    (hr : j = i → r ≠ .player p₁ ∧ r ≠ .player p₂) :
    (holdings s').stock r j = (holdings s).stock r j := by
  cases r with
  | merchant m => simp only [holdings, merchantQuantity, getMerchant, h.merchants]
  | player p =>
    by_cases hp : p = p₁
    · subst hp
      have hij : i ≠ j := fun e => (hr e.symm).1 rfl
      simp only [holdings, getItemQuantity_eq h.giver, getItemQuantity_eq hp₁, h₁ j hij]
    · by_cases hp' : p = p₂
      · subst hp'
        have hij : i ≠ j := fun e => (hr e.symm).2 rfl
        simp only [holdings, getItemQuantity_eq h.receiver, getItemQuantity_eq hp₂, h₂ j hij]
      · simp only [holdings, getItemQuantity, h.others p hp hp']

end Handed
end Reads

structure Moved (s s' : GlobalEconomy) (giver receiver : Party) (i q : UInt32) (price : ℕ) :
    Prop where
  exchange : Exchange (holdings s) (holdings s') giver receiver i q.toNat price
  currencies : ∀ p c, c ≠ .gold → s'.getCurrency p c = s.getCurrency p c
  giver_weight : ∀ p, giver = .player p → s'.weightOf p + s.itemWeight i * q = s.weightOf p ∧
    ((s.itemWeight i).toNat * q.toNat ≤ (s.weightOf p).toNat →
      (s'.weightOf p).toNat + (s.itemWeight i).toNat * q.toNat = (s.weightOf p).toNat)
  receiver_weight : ∀ p, receiver = .player p →
    (s'.weightOf p).toNat = (s.weightOf p).toNat + (s.itemWeight i).toNat * q.toNat
  other_weight : ∀ p, giver ≠ .player p → receiver ≠ .player p → s'.weightOf p = s.weightOf p
  parties : s'.parties = s.parties ∧ giver ∈ s.parties ∧ receiver ∈ s.parties

/-- A call that returns `false` changes nothing, one that returns `true` moved everything. -/
def AllOrNothing (s : GlobalEconomy) (r : GlobalEconomy × Bool) (giver receiver : Party)
    (i q : UInt32) (price : ℕ) : Prop :=
  (r.2 = false → SameBooks s r.1) ∧ (r.2 = true → Moved s r.1 giver receiver i q price)

section Trading
variable (toFloat : UInt32 → ℚ)

def Atomic (s : GlobalEconomy) : Op → Prop
  | .buy p m i q =>
    AllOrNothing s (s.buyItem toFloat p m i q) (.merchant m) (.player p) i q
      ((s.calculateBuyPrice toFloat i m).toNat * q.toNat)
  | .sell p m i q =>
    AllOrNothing s (s.sellItem toFloat p m i q) (.player p) (.merchant m) i q
      ((s.calculateSellPrice toFloat i m).toNat * q.toNat)
  | .gift p₁ p₂ i q => AllOrNothing s (s.giftItem p₁ p₂ i q) (.player p₁) (.player p₂) i q 0
  | .trade .. => False

/-- The sums and products a successful call computes all fit 32 bits. -/
def Fits (s : GlobalEconomy) : Op → Prop
  | .buy p m i q => (s.buyItem toFloat p m i q).2 = true →
    (s.calculateBuyPrice toFloat i m).toNat * q.toNat < 2 ^ 32 ∧
    (s.itemWeight i).toNat * q.toNat < 2 ^ 32 ∧
    (s.weightOf p).toNat + (s.itemWeight i).toNat * q.toNat < 2 ^ 32 ∧
    (s.getItemQuantity p i).toNat + q.toNat < 2 ^ 32 ∧
    (s.merchantGold m).toNat + (s.calculateBuyPrice toFloat i m).toNat * q.toNat < 2 ^ 32
  | .sell p m i q => (s.sellItem toFloat p m i q).2 = true →
    (s.calculateSellPrice toFloat i m).toNat * q.toNat < 2 ^ 32 ∧
    (s.itemWeight i).toNat * q.toNat < 2 ^ 32 ∧
    (s.merchantQuantity m i).toNat + q.toNat < 2 ^ 32 ∧
    (s.getCurrency p .gold).toNat + (s.calculateSellPrice toFloat i m).toNat * q.toNat < 2 ^ 32
  | .gift p₁ p₂ i q => p₁ ≠ p₂ ∧ ((s.giftItem p₁ p₂ i q).2 = true →
    (s.itemWeight i).toNat * q.toNat < 2 ^ 32 ∧
    (s.weightOf p₂).toNat + (s.itemWeight i).toNat * q.toNat < 2 ^ 32 ∧
    (s.getItemQuantity p₂ i).toNat + q.toNat < 2 ^ 32)
  | .trade .. => False

instance (s : GlobalEconomy) (op : Op) : Decidable (Fits toFloat s op) := by
  cases op <;> unfold Fits <;> infer_instance

variable {toFloat} {s : GlobalEconomy}

theorem mul_fits {a b : UInt32} (h : a.toNat * b.toNat < 2 ^ 32) :
    (a * b).toNat = a.toNat * b.toNat := by
  rw [UInt32.toNat_mul, Nat.mod_eq_of_lt h]

theorem mem_parties_player {p : UInt32} {x : PlayerEconomyData}
    (hp : s.getPlayerEconomy p = some x) : Party.player p ∈ s.parties :=
  Finset.mem_union_left _ (Finset.mem_image_of_mem _
    (OrdMap.mem_keys.mpr fun h => Option.some_ne_none x (hp.symm.trans h)))

theorem mem_parties_merchant {m : UInt32} {y : MerchantData} (hm : s.getMerchant m = some y) :
    Party.merchant m ∈ s.parties :=
  Finset.mem_union_right _ (Finset.mem_image_of_mem _
    (OrdMap.mem_keys.mpr fun h => Option.some_ne_none y (hm.symm.trans h)))

theorem Rewrote.stock_of_item {s' : GlobalEconomy} {p m i : UInt32} {x x' : PlayerEconomyData}
    {y y' : MerchantData} (h : Rewrote s s' p x' m y') (hp : s.getPlayerEconomy p = some x)
    (hm : s.getMerchant m = some y) (hx : ∀ j, i ≠ j → x'.quantity j = x.quantity j)
    (hy : ∀ j, i ≠ j → y'.quantity j = y.quantity j) (r : Party) (j : UInt32)
    (hr : j = i → r ≠ .player p ∧ r ≠ .merchant m) :
    (holdings s').stock r j = (holdings s).stock r j := by
  by_cases hrp : r = .player p
  · subst hrp
    have hij : i ≠ j := fun e => (hr e.symm).1 rfl
    simp only [holdings, getItemQuantity_eq h.player, getItemQuantity_eq hp, hx j hij]
  · by_cases hrm : r = .merchant m
    · subst hrm
      have hij : i ≠ j := fun e => (hr e.symm).2 rfl
      simp only [holdings, merchantQuantity_eq h.merchant, merchantQuantity_eq hm, hy j hij]
    · exact h.stock_frame hrp hrm j

theorem Rewrote.getCurrency_eq {s' : GlobalEconomy} {p m : UInt32} {x x' : PlayerEconomyData}
    {y' : MerchantData} {a : UInt32} (h : Rewrote s s' p x' m y')
    (hp : s.getPlayerEconomy p = some x) (hx : x'.currencies = x.currencies.insert .gold a)
    {c : CurrencyType} (hc : c ≠ .gold) (p' : UInt32) :
    s'.getCurrency p' c = s.getCurrency p' c := by
  by_cases hp' : p' = p
  · subst hp'
    simp only [getCurrency, h.player, hp, hx, OrdMap.getD_insert, if_neg hc.symm]
  · simp only [getCurrency, h.player_ne hp']

theorem atomic_buyItem {p m i q : UInt32} (hf : Fits toFloat s (.buy p m i q)) :
    Atomic toFloat s (.buy p m i q) := by
  rcases buyItem_outcome toFloat s p m i q with
    ⟨hr, h⟩ | ⟨x, y, item, hp, hm, hi, -, hstock, hprice, -, hr, h⟩
  · exact ⟨fun _ => h, fun ht => absurd (hr.symm.trans ht) Bool.false_ne_true⟩
  refine ⟨fun ht => absurd (ht.symm.trans hr) Bool.false_ne_true, fun _ => ?_⟩
  obtain ⟨hcost, hload, hcarry, hheld, htill⟩ := hf hr
  rw [weightOf_eq hp, itemWeight_eq hi] at hcarry
  rw [getItemQuantity_eq hp] at hheld
  rw [merchantGold_eq hm] at htill
  rw [itemWeight_eq hi] at hload
  have hcost' := mul_fits hcost
  have hload' := mul_fits hload
  constructor
  · constructor
    · simp only [holdings, merchantQuantity_eq h.merchant, merchantQuantity_eq hm,
        MerchantData.quantity_sold, if_true]
      exact Word32.toNat_sub hstock
    · simp only [holdings, getItemQuantity_eq h.player, getItemQuantity_eq hp,
        PlayerEconomyData.quantity_gain, if_true]
      exact Word32.toNat_add hheld
    · simp only [holdings, merchantGold_eq h.merchant, merchantGold_eq hm, MerchantData.sold]
      rw [Word32.toNat_add (by rwa [hcost']), hcost']
    · simp only [holdings, getCurrency_gold h.player, getCurrency_gold hp,
        PlayerEconomyData.gold_gain, PlayerEconomyData.gold_setGold]
      rw [← hcost']
      exact Word32.toNat_sub hprice
    · refine fun r j hrj => h.stock_of_item hp hm (i := i) (fun j hij => ?_) (fun j hij => ?_) r j
        fun e => (hrj e).symm
      · rw [PlayerEconomyData.quantity_gain, if_neg hij]
        rfl
      · rw [MerchantData.quantity_sold, if_neg hij]
    · exact fun r hrm hrp => h.purse_frame hrp hrm
  · exact fun p' c hc => h.getCurrency_eq hp rfl hc p'
  · intro p' hp'
    cases hp'
  · intro p' hp'
    cases hp'
    rw [weightOf_eq h.player, weightOf_eq hp, itemWeight_eq hi, ← hload']
    exact Word32.toNat_add (by rwa [hload'])
  · intro p' _ hp'
    simp only [weightOf, h.player_ne fun e => hp' (congrArg _ e.symm)]
  · exact ⟨h.parties_eq (by simp [hp]) (by simp [hm]), mem_parties_merchant hm,
      mem_parties_player hp⟩

theorem atomic_sellItem {p m i q : UInt32} (hf : Fits toFloat s (.sell p m i q)) :
    Atomic toFloat s (.sell p m i q) := by
  rcases sellItem_outcome toFloat s p m i q with
    ⟨hr, h⟩ | ⟨x, y, item, hp, hm, hi, -, hheld, hprice, hr, h⟩
  · exact ⟨fun _ => h, fun ht => absurd (hr.symm.trans ht) Bool.false_ne_true⟩
  refine ⟨fun ht => absurd (ht.symm.trans hr) Bool.false_ne_true, fun _ => ?_⟩
  obtain ⟨hcost, hload, hstock, hpurse⟩ := hf hr
  rw [merchantQuantity_eq hm] at hstock
  rw [getCurrency_gold hp] at hpurse
  rw [itemWeight_eq hi] at hload
  have hcost' := mul_fits hcost
  have hload' := mul_fits hload
  constructor
  · constructor
    · simp only [holdings, getItemQuantity_eq h.player, getItemQuantity_eq hp,
        PlayerEconomyData.quantity_setGold, PlayerEconomyData.quantity_lose, if_true]
      exact Word32.toNat_sub hheld
    · simp only [holdings, merchantQuantity_eq h.merchant, merchantQuantity_eq hm,
        MerchantData.quantity_bought, if_true]
      exact Word32.toNat_add hstock
    · simp only [holdings, getCurrency_gold h.player, getCurrency_gold hp,
        PlayerEconomyData.gold_setGold]
      rw [Word32.toNat_add (by rwa [hcost']), hcost']
    · simp only [holdings, merchantGold_eq h.merchant, merchantGold_eq hm, MerchantData.bought]
      rw [← hcost']
      exact Word32.toNat_sub hprice
    · refine fun r j hrj => h.stock_of_item hp hm (i := i) (fun j hij => ?_) (fun j hij => ?_) r j hrj
      · rw [PlayerEconomyData.quantity_setGold, PlayerEconomyData.quantity_lose, if_neg hij]
      · rw [MerchantData.quantity_bought, if_neg hij]
    · exact fun r hrp hrm => h.purse_frame hrp hrm
  · exact fun p' c hc => h.getCurrency_eq hp rfl hc p'
  · intro p' hp'
    cases hp'
    rw [weightOf_eq h.player, weightOf_eq hp, itemWeight_eq hi, ← hload']
    exact ⟨UInt32.sub_add_cancel .., fun hle => Word32.toNat_sub (UInt32.le_iff_toNat_le.mpr hle)⟩
  · intro p' hp'
    cases hp'
  · intro p' hp' _
    simp only [weightOf, h.player_ne fun e => hp' (congrArg _ e.symm)]
  · exact ⟨h.parties_eq (by simp [hp]) (by simp [hm]), mem_parties_player hp,
      mem_parties_merchant hm⟩

theorem atomic_giftItem {p₁ p₂ i q : UInt32} (hf : Fits toFloat s (.gift p₁ p₂ i q)) :
    Atomic toFloat s (.gift p₁ p₂ i q) := by
  obtain ⟨hne, hf⟩ := hf
  rcases giftItem_outcome s hne i q with
    ⟨hr, h⟩ | ⟨x₁, x₁', x₂, item, hp₁, hp₂, hi, hheld, hlost, hr⟩
  · exact ⟨fun _ => h, fun ht => absurd (hr.symm.trans ht) Bool.false_ne_true⟩
  simp only [hr] at hf
  refine ⟨fun ht => absurd (ht.symm.trans (congrArg Prod.snd hr)) Bool.false_ne_true, fun _ => ?_⟩
  obtain ⟨hload, hcarry, hroom⟩ := hf trivial
  rw [weightOf_eq hp₂, itemWeight_eq hi] at hcarry
  rw [getItemQuantity_eq hp₂] at hroom
  rw [itemWeight_eq hi] at hload
  have hload' := mul_fits hload
  rw [hr]
  have h : Handed s _ p₁ x₁' p₂ (x₂.gain i q (item.weight * q)) := .of_setPlayer hne hp₁ hp₂
  have hcurrency := h.getCurrency_eq hp₁ hp₂ hlost.currencies rfl
  constructor
  · constructor
    · simp only [holdings, getItemQuantity_eq h.giver, getItemQuantity_eq hp₁, hlost.quantity,
        if_true]
      exact Word32.toNat_sub hheld
    · simp only [holdings, getItemQuantity_eq h.receiver, getItemQuantity_eq hp₂,
        PlayerEconomyData.quantity_gain, if_true]
      exact Word32.toNat_add hroom
    · rw [h.purse_eq hcurrency, add_zero]
    · rw [h.purse_eq hcurrency, add_zero]
    · refine h.stock_of_item hp₁ hp₂ (fun j hij => ?_) fun j hij => ?_
      · rw [hlost.quantity, if_neg hij]
      · rw [PlayerEconomyData.quantity_gain, if_neg hij]
    · exact fun r _ _ => h.purse_eq hcurrency r
  · exact fun p c _ => hcurrency p c
  · intro p hp
    cases hp
    rw [weightOf_eq h.giver, weightOf_eq hp₁, itemWeight_eq hi, hlost.totalWeight, ← hload']
    exact ⟨UInt32.sub_add_cancel .., fun hle => Word32.toNat_sub (UInt32.le_iff_toNat_le.mpr hle)⟩
  · intro p hp
    cases hp
    rw [weightOf_eq h.receiver, weightOf_eq hp₂, itemWeight_eq hi, ← hload']
    exact Word32.toNat_add (by rwa [hload'])
  · intro p hp hp'
    have hother := h.others p (fun e => hp (congrArg _ e.symm)) fun e => hp' (congrArg _ e.symm)
    simp only [weightOf, hother]
  · exact ⟨h.parties_eq, mem_parties_player hp₁, mem_parties_player hp₂⟩

theorem Moved.worldQuantity_eq {s' : GlobalEconomy} {giver receiver : Party} {i q : UInt32}
    {price : ℕ} (h : Moved s s' giver receiver i q price) (hne : giver ≠ receiver) (j : UInt32) :
    s'.worldQuantity j = s.worldQuantity j := by
  rw [worldQuantity, h.parties.1]
  exact h.exchange.sum_stock hne h.parties.2.1 h.parties.2.2 j

theorem AllOrNothing.worldQuantity_eq {r : GlobalEconomy × Bool} {giver receiver : Party}
    {i q : UInt32} {price : ℕ} (h : AllOrNothing s r giver receiver i q price)
    (hne : giver ≠ receiver) (j : UInt32) : r.1.worldQuantity j = s.worldQuantity j := by
  cases hr : r.2 with
  | true => exact (h.2 hr).worldQuantity_eq hne j
  | false =>
    obtain ⟨-, hp, hm⟩ := h.1 hr
    simp only [worldQuantity, parties, holdings, getItemQuantity, merchantQuantity,
      getPlayerEconomy, getMerchant, hp, hm]

theorem step_atomic {op : Op} (hf : Fits toFloat s op) :
    Atomic toFloat s op ∧ ∀ j, (step toFloat s op).worldQuantity j = s.worldQuantity j := by
  cases op with
  | buy p m i q =>
    have h : AllOrNothing s _ _ _ _ _ _ := atomic_buyItem hf
    exact ⟨h, h.worldQuantity_eq (by simp)⟩
  | sell p m i q =>
    have h : AllOrNothing s _ _ _ _ _ _ := atomic_sellItem hf
    exact ⟨h, h.worldQuantity_eq (by simp)⟩
  | trade p₁ p₂ is₁ is₂ => exact hf.elim
  | gift p₁ p₂ i q =>
    have h : AllOrNothing s _ _ _ _ _ _ := atomic_giftItem hf
    exact ⟨h, h.worldQuantity_eq (by simpa using hf.1)⟩

/-- At every point of every run of purchases, sales and gifts whose sums and products fit
32 bits, the call made there is atomic, and no item is made or lost in the world. -/
theorem run_atomic {ops : List Op} (h : Run.Along (step toFloat) (Fits toFloat) s ops) :
    Run.Along (step toFloat) (Atomic toFloat) s ops ∧
      ∀ j, (Run.run (step toFloat) s ops).worldQuantity j = s.worldQuantity j := by
  have hrun := Run.along_of_step (Q := Atomic toFloat)
    (I := fun s' => ∀ j, s'.worldQuantity j = s.worldQuantity j)
    (fun s' op hs' hf => ⟨fun j => ((step_atomic hf).2 j).trans (hs' j), (step_atomic hf).1⟩)
    (fun _ => rfl) h
  exact ⟨hrun.2, hrun.1⟩

theorem run_atomic_market :
    Run.Along (step fun n => n.toNat) (Atomic fun n => n.toNat) market
        [.buy 1 3 7 2, .gift 1 2 8 4, .sell 1 3 7 1, .buy 2 3 7 3] ∧
      ∀ j, (Run.run (step fun n => n.toNat) market
        [.buy 1 3 7 2, .gift 1 2 8 4, .sell 1 3 7 1, .buy 2 3 7 3]).worldQuantity j
          = market.worldQuantity j :=
  run_atomic (by decide +kernel)

end Trading
end GlobalEconomy
end WitcherMP.Economy
