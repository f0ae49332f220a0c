import WitcherMP.Economy.System
import WitcherMP.Economy.Steps
import WitcherMP.Lib.Memo
import Mathlib.Data.Option.Basic

/-! The prices a merchant has on file are a memo of the computed ones. Updating them fills the
memo, and no trade touches it. -/

namespace WitcherMP.Economy.GlobalEconomy

section Price
variable (toFloat : UInt32 → ℚ)

def buyQuote (merchantId value : UInt32) : UInt32 :=
  castUInt32 (toFloat value * getMerchantMultiplier merchantId)

def sellQuote (merchantId value : UInt32) : UInt32 :=
  castUInt32 (toFloat value * getMerchantMultiplier merchantId * (1 / 2))

variable (s : GlobalEconomy) (merchantId : UInt32)

def buyQuotes (itemId : UInt32) : Option UInt32 :=
  (s.getItem itemId).map fun item => buyQuote toFloat merchantId item.value

def sellQuotes (itemId : UInt32) : Option UInt32 :=
  (s.getItem itemId).map fun item => sellQuote toFloat merchantId item.value

structure Refiled (merchant merchant' : MerchantData) : Prop where
  buy : Memo.Fills (s.buyQuotes toFloat merchantId) merchant.buyPrices merchant'.buyPrices
  sell : Memo.Fills (s.sellQuotes toFloat merchantId) merchant.sellPrices merchant'.sellPrices

structure Filed (s s' : GlobalEconomy) : Prop where
  items : s'.items = s.items
  merchants : ∀ m, Option.Rel (s.Refiled toFloat m) (s.getMerchant m) (s'.getMerchant m)

/-- No price on file differs from the computed one, but for those that were `given`. -/
def BuyCurrent (given : UInt32 → Set UInt32) : Prop :=
  ∀ m merchant, s.getMerchant m = some merchant →
    Memo.Current (s.buyQuotes toFloat m) (given m) merchant.buyPrices

def SellCurrent (given : UInt32 → Set UInt32) : Prop :=
  ∀ m merchant, s.getMerchant m = some merchant →
    Memo.Current (s.sellQuotes toFloat m) (given m) merchant.sellPrices

end Price

variable {toFloat : UInt32 → ℚ} {s s' s'' : GlobalEconomy} {m i : UInt32} {item : ItemData}
  {merchant merchant' merchant'' : MerchantData}

theorem calculateBuyPrice_eq (hi : s.getItem i = some item) (hm : s.getMerchant m = some merchant) :
    s.calculateBuyPrice toFloat i m
      = (merchant.buyPrices.find? i).getD (buyQuote toFloat m item.value) := by
  rw [calculateBuyPrice, calculateBasePrice, hi, hm]
  dsimp only
  cases merchant.buyPrices.find? i <;> rfl

theorem calculateSellPrice_eq (hi : s.getItem i = some item)
    (hm : s.getMerchant m = some merchant) :
    s.calculateSellPrice toFloat i m
      = (merchant.sellPrices.find? i).getD (sellQuote toFloat m item.value) := by
  rw [calculateSellPrice, calculateBasePrice, hi, hm]
  dsimp only
  cases merchant.sellPrices.find? i <;> rfl

theorem buyQuotes_eq (hi : s.getItem i = some item) :
    s.buyQuotes toFloat m i = some (buyQuote toFloat m item.value) := by
  rw [buyQuotes, hi, Option.map_some]

theorem sellQuotes_eq (hi : s.getItem i = some item) :
    s.sellQuotes toFloat m i = some (sellQuote toFloat m item.value) := by
  rw [sellQuotes, hi, Option.map_some]

theorem Refiled.refl (merchant : MerchantData) : s.Refiled toFloat m merchant merchant :=
  ⟨.refl _, .refl _⟩

theorem Refiled.trans (h : s.Refiled toFloat m merchant merchant')
    (h' : s.Refiled toFloat m merchant' merchant'') : s.Refiled toFloat m merchant merchant'' where
  buy := h.buy.trans h'.buy
  sell := h.sell.trans h'.sell

theorem Filed.of_eq (hitems : s'.items = s.items) (hmerchants : s'.merchants = s.merchants) :
    Filed toFloat s s' where
  items := hitems
  merchants m := by
    have hm : s'.getMerchant m = s.getMerchant m := by
      unfold getMerchant
      rw [hmerchants]
    rw [hm]
    cases s.getMerchant m with
    | none => exact .none
    | some merchant => exact .some (.refl merchant)

theorem Filed.refl (s : GlobalEconomy) : Filed toFloat s s := .of_eq rfl rfl

theorem Filed.buyQuotes_eq (h : Filed toFloat s s') (m : UInt32) :
    s'.buyQuotes toFloat m = s.buyQuotes toFloat m := by
  unfold buyQuotes getItem
  rw [h.items]

theorem Filed.sellQuotes_eq (h : Filed toFloat s s') (m : UInt32) :
    s'.sellQuotes toFloat m = s.sellQuotes toFloat m := by
  unfold sellQuotes getItem
  rw [h.items]

theorem Filed.refiled (h : Filed toFloat s s') (h' : s'.Refiled toFloat m merchant merchant') :
    s.Refiled toFloat m merchant merchant' :=
  ⟨h.buyQuotes_eq m ▸ h'.buy, h.sellQuotes_eq m ▸ h'.sell⟩

theorem Filed.trans (h : Filed toFloat s s') (h' : Filed toFloat s' s'') : Filed toFloat s s'' where
  items := h'.items.trans h.items
  merchants m := by
    have hr := h.merchants m
    have hr' := h'.merchants m
    cases hs : s.getMerchant m with
    | none =>
      rw [hs] at hr
      generalize s'.getMerchant m = o' at hr hr'
      cases hr
      generalize s''.getMerchant m = o'' at hr' ⊢
      cases hr'
      exact .none
    | some merchant =>
      rw [hs] at hr
      generalize s'.getMerchant m = o' at hr hr'
      cases hr with | some hx =>
      generalize s''.getMerchant m = o'' at hr' ⊢
      cases hr' with | some hx' =>
      exact .some (hx.trans (h.refiled hx'))

theorem Filed.of_insert (hm : s.getMerchant m = some merchant) (hitems : s'.items = s.items)
    (hmerchants : s'.merchants = s.merchants.insert m merchant')
    (hbuy : merchant'.buyPrices = merchant.buyPrices)
    (hsell : merchant'.sellPrices = merchant.sellPrices) : Filed toFloat s s' where
  items := hitems
  merchants m' := by
    have hm' : s'.getMerchant m' = if m = m' then some merchant' else s.getMerchant m' := by
      rw [getMerchant, hmerchants, OrdMap.find?_insert]
      rfl
    rw [hm']
    split_ifs with hmm
    · subst hmm
      rw [hm]
      exact .some ⟨hbuy ▸ .refl _, hsell ▸ .refl _⟩
    · exact (Filed.refl s).merchants m'

theorem filed_priceItem (m : UInt32) (s : GlobalEconomy) (e : UInt32 × UInt32) :
    Filed toFloat s (s.priceItem toFloat m e) := by
  unfold priceItem
  cases hi : s.getItem e.1 with
  | none => exact .refl s
  | some item =>
    cases hm : s.getMerchant m with
    | none => exact .refl s
    | some merchant =>
      refine ⟨rfl, fun m' => ?_⟩
      change Option.Rel _ _ ((s.merchants.insert m _).find? m')
      rw [OrdMap.find?_insert]
      split_ifs with hmm
      · subst hmm
        rw [hm, calculateBuyPrice_eq hi hm, calculateSellPrice_eq hi hm]
        exact .some ⟨Memo.fills_insert (buyQuotes_eq hi), Memo.fills_insert (sellQuotes_eq hi)⟩
      · exact (Filed.refl s).merchants m'

theorem filed_updateMerchantPrices (s : GlobalEconomy) (m : UInt32) :
    Filed toFloat s (s.updateMerchantPrices toFloat m) := by
  unfold updateMerchantPrices
  cases s.getMerchant m with
  | none => exact .refl s
  | some merchant =>
    exact List.foldlRecOn merchant.inventory.entries (priceItem toFloat m) (.refl s)
      fun t h e _ => h.trans (filed_priceItem m t e)

theorem filed_updateAllMerchantPrices (s : GlobalEconomy) :
    Filed toFloat s (s.updateAllMerchantPrices toFloat) :=
  List.foldlRecOn s.merchants.entries _ (.refl s)
    fun t h e _ => h.trans (filed_updateMerchantPrices t e.1)

theorem playerEconomies_updateMerchantPrices (toFloat : UInt32 → ℚ) (s : GlobalEconomy)
    (m : UInt32) : (s.updateMerchantPrices toFloat m).playerEconomies = s.playerEconomies := by
  unfold updateMerchantPrices
  split
  · rfl
  next merchant _ =>
    refine List.foldlRecOn (motive := fun t : GlobalEconomy => t.playerEconomies = s.playerEconomies)
      merchant.inventory.entries _ rfl fun t ht e _ => ?_
    unfold priceItem
    split
    · exact ht
    · exact ht

theorem playerEconomies_updateAllMerchantPrices (toFloat : UInt32 → ℚ) (s : GlobalEconomy) :
    (s.updateAllMerchantPrices toFloat).playerEconomies = s.playerEconomies :=
  List.foldlRecOn (motive := fun t : GlobalEconomy => t.playerEconomies = s.playerEconomies)
    s.merchants.entries _ rfl
    fun t ht e _ => (playerEconomies_updateMerchantPrices toFloat t e.1).trans ht

theorem filed_foldl_moveItem (fromId toId : UInt32) (es : List (UInt32 × UInt32))
    (s : GlobalEconomy) : Filed toFloat s (es.foldl (moveItem fromId toId) s) :=
  moveItem_induct (I := Filed toFloat s)
    (fun _ _ _ _ _ _ _ h => h.trans (.of_eq rfl rfl))
    (fun _ _ _ _ _ _ _ h => h.trans (.of_eq rfl rfl)) fromId toId es (.refl s)

theorem filed_tradeItems (s : GlobalEconomy) (p₁ p₂ : UInt32) (is₁ is₂ : OrdMap UInt32 UInt32) :
    Filed toFloat s (s.tradeItems p₁ p₂ is₁ is₂).1 := by
  rcases tradeItems_cases s p₁ p₂ is₁ is₂ with ⟨hr, -⟩ | ⟨x₁, x₂, -, -, -, -, -, hr⟩
  · rw [hr]
    exact .refl s
  · rw [hr]
    exact (filed_foldl_moveItem p₁ p₂ is₁.entries s).trans
      (filed_foldl_moveItem p₂ p₁ is₂.entries _)

theorem filed_giftItem (s : GlobalEconomy) (p₁ p₂ i q : UInt32) :
    Filed toFloat s (s.giftItem p₁ p₂ i q).1 := by
  rcases giftItem_cases s p₁ p₂ i q with hr | ⟨x₁, x₂, -, -, -, -, hr⟩
  · rw [hr]
    exact .refl s
  · rw [hr]
    exact filed_foldl_moveItem p₁ p₂ [(i, q)] s

theorem filed_step (s : GlobalEconomy) (op : Op) : Filed toFloat s (s.step toFloat op) := by
  cases op with
  | buy p m i q =>
    rcases buyItem_outcome toFloat s p m i q with
      ⟨-, h⟩ | ⟨x, merchant, item, -, hm, -, -, -, -, -, -, h⟩
    · exact .of_eq h.1 h.2.2
    · exact .of_insert hm h.1 h.2.2 rfl rfl
  | sell p m i q =>
    rcases sellItem_outcome toFloat s p m i q with
      ⟨-, h⟩ | ⟨x, merchant, item, -, hm, -, -, -, -, -, h⟩
    · exact .of_eq h.1 h.2.2
    · exact .of_insert hm h.1 h.2.2 rfl rfl
  | trade p₁ p₂ is₁ is₂ => exact filed_tradeItems s p₁ p₂ is₁ is₂
  | gift p₁ p₂ i q => exact filed_giftItem s p₁ p₂ i q

variable {given : UInt32 → Set UInt32}

theorem Filed.buyCurrent_iff (h : Filed toFloat s s') :
    BuyCurrent toFloat s' given ↔ BuyCurrent toFloat s given := by
  refine forall_congr' fun m => ?_
  have hr := h.merchants m
  rw [h.buyQuotes_eq]
  generalize s.getMerchant m = o at hr ⊢
  generalize s'.getMerchant m = o' at hr ⊢
  cases hr with
  | none => exact Iff.rfl
  | some hx =>
    simp only [Option.some.injEq, forall_eq']
    exact hx.buy.current_iff

theorem Filed.sellCurrent_iff (h : Filed toFloat s s') :
    SellCurrent toFloat s' given ↔ SellCurrent toFloat s given := by
  refine forall_congr' fun m => ?_
  have hr := h.merchants m
  rw [h.sellQuotes_eq]
  generalize s.getMerchant m = o at hr ⊢
  generalize s'.getMerchant m = o' at hr ⊢
  cases hr with
  | none => exact Iff.rfl
  | some hx =>
    simp only [Option.some.injEq, forall_eq']
    exact hx.sell.current_iff

theorem BuyCurrent.calculateBuyPrice_eq (h : BuyCurrent toFloat s given) (hg : i ∉ given m)
    (hi : s.getItem i = some item) (hm : s.getMerchant m = some merchant) :
    s.calculateBuyPrice toFloat i m = buyQuote toFloat m item.value := by
  rw [GlobalEconomy.calculateBuyPrice_eq hi hm]
  exact Memo.current_iff_read.mp (h m merchant hm) i hg _ (buyQuotes_eq hi)

theorem SellCurrent.calculateSellPrice_eq (h : SellCurrent toFloat s given) (hg : i ∉ given m)
    (hi : s.getItem i = some item) (hm : s.getMerchant m = some merchant) :
    s.calculateSellPrice toFloat i m = sellQuote toFloat m item.value := by
  rw [GlobalEconomy.calculateSellPrice_eq hi hm]
  exact Memo.current_iff_read.mp (h m merchant hm) i hg _ (sellQuotes_eq hi)

end WitcherMP.Economy.GlobalEconomy
