import WitcherMP.Economy.Filing

/-! Whether what is charged is the price of today: only the operations that set values can put
the prices on file out of date, and nothing brings those up to date again. -/

namespace WitcherMP.Economy

namespace GlobalEconomy

def value? (s : GlobalEconomy) (itemId : UInt32) : Option UInt32 := (s.getItem itemId).map ItemData.value

def Keyed (s : GlobalEconomy) : Prop :=
  ∀ i item, s.getItem i = some item → item.itemId = i

variable {toFloat : UInt32 → ℚ} {floatMul : UInt32 → ℚ → UInt32} {s s' : GlobalEconomy}
  {given : UInt32 → Set UInt32}

theorem buyQuotes_eq_value? (s : GlobalEconomy) (m i : UInt32) :
    s.buyQuotes toFloat m i = (s.value? i).map (buyQuote toFloat m) := by
  rw [value?, Option.map_map]
  rfl

theorem Filed.keyed (h : Filed toFloat s s') (hk : s.Keyed) : s'.Keyed := by
  unfold Keyed getItem
  rw [h.items]
  exact hk

theorem buyCurrent_revalued_iff (h : BuyCurrent toFloat s given) {newValue : UInt32 → Option UInt32}
    (hmerchants : s'.merchants = s.merchants)
    (hvalue : ∀ i, s'.value? i = (newValue i).or (s.value? i)) :
    BuyCurrent toFloat s' given ↔
      ∀ m merchant, s.getMerchant m = some merchant → ∀ i ∉ given m, ∀ value price,
        newValue i = some value → merchant.buyPrices.find? i = some price →
          price = buyQuote toFloat m value := by
  unfold BuyCurrent
  rw [show s'.getMerchant = s.getMerchant from funext fun m => by rw [getMerchant, hmerchants]; rfl]
  refine forall₃_congr fun m merchant hm => forall₂_congr fun i hi => ?_
  have hold := h m merchant hm i hi
  simp only [buyQuotes_eq_value?, hvalue] at hold ⊢
  cases hnew : newValue i with
  | none =>
    rw [Option.none_or]
    exact iff_of_true hold fun _ _ h => absurd h (Option.some_ne_none _).symm
  | some value =>
    simp only [Option.some_or, Option.map_some, Option.some.injEq]
    constructor
    · rintro h _ price rfl hprice
      exact h _ price rfl hprice
    · rintro h _ price rfl hprice
      exact h _ price rfl hprice

theorem BuyCurrent.of_fewer (h : BuyCurrent toFloat s given) (hmerchants : s'.merchants = s.merchants)
    (hvalue : ∀ i, s'.value? i = none ∨ s'.value? i = s.value? i) : BuyCurrent toFloat s' given := by
  intro m merchant hm i hi v w hv hw
  rw [getMerchant, hmerchants] at hm
  rw [buyQuotes_eq_value?] at hv
  rcases hvalue i with hnone | heq
  · rw [hnone] at hv
    cases hv
  · rw [heq, ← buyQuotes_eq_value?] at hv
    exact h m merchant hm i hi v w hv hw

theorem buyPrices_foldl_restockItem (dice : UInt32 → Option (Fin 5)) (merchant : MerchantData)
    (es : List (UInt32 × ItemData)) :
    (es.foldl (restockItem dice) merchant).buyPrices = merchant.buyPrices ∧
      (es.foldl (restockItem dice) merchant).sellPrices = merchant.sellPrices := by
  refine List.foldlRecOn (motive := fun x : MerchantData =>
    x.buyPrices = merchant.buyPrices ∧ x.sellPrices = merchant.sellPrices) es _ ⟨rfl, rfl⟩
    fun x hx e _ => ?_
  unfold restockItem
  split
  · exact hx
  · exact hx

theorem filed_restockMerchant (s : GlobalEconomy) (m : UInt32) (dice : UInt32 → Option (Fin 5)) :
    Filed toFloat s (s.restockMerchant m dice) := by
  unfold restockMerchant
  split
  · exact .refl s
  next merchant hm =>
    split
    · exact .refl s
    · have hprices := buyPrices_foldl_restockItem dice merchant s.items.entries
      exact .of_insert hm rfl rfl hprices.1 hprices.2

theorem filed_resetEconomy (s : GlobalEconomy) : Filed toFloat s s.resetEconomy where
  items := rfl
  merchants m := by
    change Option.Rel _ _ ((s.merchants.mapValues resetMerchant).find? m)
    rw [OrdMap.find?_mapValues]
    change Option.Rel _ (s.merchants.find? m) _
    cases s.merchants.find? m with
    | none => exact .none
    | some merchant => exact .some ⟨.refl _, .refl _⟩

theorem Keyed.rebalanceItem_eq (h : s.Keyed) (e : UInt32 × ItemData) : s.rebalanceItem e = s := by
  unfold rebalanceItem
  split
  · rfl
  next item hi =>
    have hvalue : s.calculateItemValue item.itemId = item.value := by
      rw [h e.1 item hi, calculateItemValue, hi]
    rw [hvalue]
    change s.setItem e.1 item = s
    rw [setItem, OrdMap.insert_of_find? hi]

theorem Keyed.filed_rebalanceEconomy (h : s.Keyed) : Filed toFloat s (s.rebalanceEconomy toFloat) := by
  have hitems : s.items.entries.foldl rebalanceItem s = s :=
    List.foldlRecOn (motive := fun t => t = s) s.items.entries _ rfl fun t ht e _ => by
      rw [ht, h.rebalanceItem_eq e]
  rw [rebalanceEconomy, hitems]
  exact filed_updateAllMerchantPrices s

end GlobalEconomy

namespace EconomySystem
open GlobalEconomy

def Quiet : Op → Prop
  | .register _ => False
  | .updateItemPrices => False
  | .applyInflation _ => False
  | _ => True

variable {toFloat : UInt32 → ℚ} {floatMul : UInt32 → ℚ → UInt32} {s : EconomySystem} {op : Op}

theorem filed_processEconomyUpdate (s : EconomySystem) (due : Bool)
    (dice : UInt32 → UInt32 → Option (Fin 5)) (old : TransactionData → Bool) :
    Filed toFloat s.toGlobalEconomy (s.processEconomyUpdate due dice old).toGlobalEconomy := by
  have hrestocked : Filed toFloat s.toGlobalEconomy
      (s.merchants.entries.foldl (fun t e => t.restockMerchant e.1 (dice e.1)) s.toGlobalEconomy) :=
    List.foldlRecOn s.merchants.entries _ (.refl _)
      fun t h e _ => h.trans (filed_restockMerchant t e.1 (dice e.1))
  unfold processEconomyUpdate
  split
  · exact .refl _
  · cases due with
    | true => exact hrestocked.trans (.of_eq rfl rfl)
    | false => exact .of_eq rfl rfl

theorem filed_of_quiet (hk : s.Keyed) (hop : Quiet op) :
    Filed toFloat s.toGlobalEconomy (s.step toFloat floatMul op).toGlobalEconomy := by
  cases op with
  | register call => exact hop.elim
  | updateItemPrices => exact hop.elim
  | applyInflation rate => exact hop.elim
  | trade call => exact filed_step s.toGlobalEconomy call
  | addPlayer p =>
    rw [step, addPlayer]
    split
    · exact .refl _
    · exact .of_eq rfl rfl
  | addCurrency p c n =>
    rw [step, addCurrency]
    split
    · exact .refl _
    · exact .of_eq rfl rfl
  | removeCurrency p c n =>
    rw [step, removeCurrency]
    split
    · exact .refl _
    · split
      · exact .of_eq rfl rfl
      · exact .refl _
  | addItemToInventory p i q =>
    rcases addItemToInventory_cases s.toGlobalEconomy p i q with h | ⟨x, y, -, -, -, h⟩
    · rw [step, h]
      exact .refl _
    · rw [step, h]
      exact .of_eq rfl rfl
  | removeItemFromInventory p i q =>
    rcases removeItemFromInventory_cases s.toGlobalEconomy p i q with h | ⟨x, y, -, -, -, h⟩
    · rw [step, h]
      exact .refl _
    · rw [step, h]
      exact .of_eq rfl rfl
  | restockMerchant m dice => exact filed_restockMerchant s.toGlobalEconomy m dice
  | updateMerchantPrices m => exact filed_updateMerchantPrices s.toGlobalEconomy m
  | processEconomyUpdate due dice old => exact filed_processEconomyUpdate s due dice old
  | rebalanceEconomy => exact hk.filed_rebalanceEconomy
  | resetEconomy => exact filed_resetEconomy s.toGlobalEconomy
  | removePlayer p => exact .of_eq rfl rfl
  | setInflationRate rate => exact .of_eq rfl rfl
  | enableTrading enable => exact .of_eq rfl rfl
  | enableGifting enable => exact .of_eq rfl rfl

def newValue (floatMul : UInt32 → ℚ → UInt32) (s : EconomySystem) : Op → UInt32 → Option UInt32
  | .register (.addItem item), i =>
    if s.initialized ∧ assignedId item.itemId s.nextItemId = i then some item.value else none
  | .updateItemPrices, i => (s.value? i).map fun value => floatMul value (1 + s.inflationRate)
  | .applyInflation rate, i => (s.value? i).map fun value => floatMul value (1 + rate)
  | _, _ => none

theorem value?_addItem (s : EconomySystem) (item : ItemData) (i : UInt32) :
    (s.addItem item).value? i
      = (newValue floatMul s (.register (.addItem item)) i).or (s.value? i) := by
  unfold addItem newValue
  cases s.initialized with
  | false => rfl
  | true =>
    simp only [not_true_eq_false, if_false, true_and, value?, getItem, OrdMap.find?_insert]
    split_ifs <;> rfl

theorem value?_inflated (floatMul : UInt32 → ℚ → UInt32) (rate : ℚ) (s : GlobalEconomy) (i : UInt32) :
    value? { s with items := s.items.mapValues (inflate floatMul rate) } i
      = ((s.value? i).map fun value => floatMul value (1 + rate)).or (s.value? i) := by
  simp only [value?, getItem, OrdMap.find?_mapValues]
  cases s.items.find? i <;> rfl

theorem keyed_inflated {s : GlobalEconomy} (h : s.Keyed) (floatMul : UInt32 → ℚ → UInt32) (rate : ℚ) :
    Keyed { s with items := s.items.mapValues (inflate floatMul rate) } := by
  intro i item hi
  rw [getItem, OrdMap.find?_mapValues] at hi
  obtain ⟨item', hi', rfl⟩ := Option.map_eq_some_iff.mp hi
  exact h i item' hi'

theorem keyed_updateItemPrices {s : GlobalEconomy} (h : s.Keyed) (rate : ℚ) :
    (s.updateItemPrices toFloat floatMul rate).Keyed :=
  (filed_updateAllMerchantPrices _).keyed (keyed_inflated h floatMul rate)

theorem keyed_register (h : s.Keyed) (call : Registration) : (s.register call).Keyed := by
  cases call with
  | addItem item =>
    rw [register, addItem]
    split
    · exact h
    · intro i item' hi
      rw [getItem, OrdMap.find?_insert] at hi
      split_ifs at hi with hid
      · exact Option.some.inj hi ▸ hid
      · exact h i item' hi
  | removeItem j =>
    rw [register, removeItem]
    split
    · exact h
    · intro i item hi
      rw [getItem, OrdMap.find?_erase] at hi
      split_ifs at hi
      exact h i item hi
  | addMerchant merchant =>
    rw [register, addMerchant]
    split
    · exact h
    · exact h
  | removeMerchant m =>
    rw [register, removeMerchant]
    split
    · exact h
    · exact h

end EconomySystem

structure Offers where
  system : EconomySystem
  given : UInt32 → Finset UInt32

namespace Offers
open GlobalEconomy EconomySystem

def initial (initialized : Bool) : Offers := ⟨EconomySystem.initial initialized, fun _ => ∅⟩

def givenAfter (o : Offers) : EconomySystem.Op → UInt32 → Finset UInt32
  | .register (.addMerchant merchant) =>
    if o.system.initialized then
      Function.update o.given (assignedId merchant.merchantId o.system.nextMerchantId)
        merchant.buyPrices.keys
    else o.given
  | _ => o.given

section Step
variable (toFloat : UInt32 → ℚ) (floatMul : UInt32 → ℚ → UInt32) (o : Offers)

def step (op : EconomySystem.Op) : Offers := ⟨o.system.step toFloat floatMul op, o.givenAfter op⟩

def ChargesCurrent : Prop :=
  ∀ m merchant i item, o.system.getMerchant m = some merchant → o.system.getItem i = some item →
    i ∉ o.given m → o.system.calculateBuyPrice toFloat i m = buyQuote toFloat m item.value

def PricedAs (op : EconomySystem.Op) : Prop :=
  ∀ m merchant, o.system.getMerchant m = some merchant → ∀ i ∉ o.given m, ∀ value price,
    newValue floatMul o.system op i = some value → merchant.buyPrices.find? i = some price →
      price = buyQuote toFloat m value

end Step

variable {toFloat : UInt32 → ℚ} {floatMul : UInt32 → ℚ → UInt32} {o : Offers} {op : EconomySystem.Op}

theorem chargesCurrent_iff :
    o.ChargesCurrent toFloat ↔ BuyCurrent toFloat o.system.toGlobalEconomy fun m => o.given m := by
  constructor
  · intro h m merchant hm
    rw [Memo.current_iff_read]
    intro i hi v hv
    obtain ⟨item, hitem, rfl⟩ := Option.map_eq_some_iff.mp hv
    rw [← calculateBuyPrice_eq hitem hm]
    exact h m merchant i item hm hitem hi
  · exact fun h m merchant i item hm hi hg => h.calculateBuyPrice_eq hg hi hm

theorem current_removeItem
    (h : BuyCurrent toFloat o.system.toGlobalEconomy fun m => o.given m) (i : UInt32) :
    BuyCurrent toFloat (o.system.removeItem i).toGlobalEconomy fun m => o.given m := by
  unfold removeItem
  split
  · exact h
  · refine h.of_fewer rfl fun i' => ?_
    simp only [value?, getItem, OrdMap.find?_erase]
    split_ifs
    · exact Or.inl rfl
    · exact Or.inr rfl

theorem current_addMerchant
    (h : BuyCurrent toFloat o.system.toGlobalEconomy fun m => o.given m) (merchant : MerchantData) :
    BuyCurrent toFloat (o.system.addMerchant merchant).toGlobalEconomy
      fun m => o.givenAfter (.register (.addMerchant merchant)) m := by
  unfold addMerchant givenAfter
  by_cases hinit : o.system.initialized
  · simp only [hinit, not_true_eq_false, if_true, if_false]
    intro m merchant' hm
    rw [getMerchant, OrdMap.find?_insert] at hm
    split_ifs at hm with hid
    · subst hid
      dsimp only
      rw [Function.update_self, ← Option.some.inj hm]
      exact Memo.current_of_pinned fun i hi => OrdMap.mem_keys.mpr hi
    · dsimp only
      rw [Function.update_of_ne (Ne.symm hid)]
      exact h m merchant' hm
  · simp only [hinit]
    exact h

theorem current_removeMerchant
    (h : BuyCurrent toFloat o.system.toGlobalEconomy fun m => o.given m) (m : UInt32) :
    BuyCurrent toFloat (o.system.removeMerchant m).toGlobalEconomy fun m => o.given m := by
  unfold removeMerchant
  split
  · exact h
  · intro m' merchant hm
    rw [getMerchant, OrdMap.find?_erase] at hm
    split_ifs at hm
    exact h m' merchant hm

theorem current_step_of_quiet (hk : o.system.Keyed)
    (h : BuyCurrent toFloat o.system.toGlobalEconomy fun m => o.given m) (hop : Quiet op)
    (hgiven : o.givenAfter op = o.given) (hnew : newValue floatMul o.system op = fun _ => none) :
    (o.step toFloat floatMul op).system.Keyed ∧
      (BuyCurrent toFloat (o.step toFloat floatMul op).system.toGlobalEconomy
        (fun m => (o.step toFloat floatMul op).given m) ↔ o.PricedAs toFloat floatMul op) := by
  have hfiled : Filed toFloat _ (o.system.step toFloat floatMul op).toGlobalEconomy :=
    filed_of_quiet hk hop
  refine ⟨hfiled.keyed hk, iff_of_true ?_ fun m merchant _ i _ value price hvalue => ?_⟩
  · rw [step, hgiven]
    exact hfiled.buyCurrent_iff.mpr h
  · rw [hnew] at hvalue
    cases hvalue

theorem chargesCurrent_step_iff (hk : o.system.Keyed) (h : o.ChargesCurrent toFloat)
    (op : EconomySystem.Op) :
    (o.step toFloat floatMul op).system.Keyed ∧
      ((o.step toFloat floatMul op).ChargesCurrent toFloat ↔ o.PricedAs toFloat floatMul op) := by
  rw [chargesCurrent_iff] at h
  rw [chargesCurrent_iff]
  cases op with
  | register call =>
    refine ⟨keyed_register hk call, ?_⟩
    cases call with
    | addItem item =>
      refine buyCurrent_revalued_iff h ?_ (value?_addItem o.system item)
      change (o.system.addItem item).merchants = _
      rw [addItem]
      split <;> rfl
    | removeItem i => exact iff_of_true (current_removeItem h i) fun _ _ _ _ _ _ _ h => nomatch h
    | addMerchant merchant =>
      exact iff_of_true (current_addMerchant h merchant) fun _ _ _ _ _ _ _ h => nomatch h
    | removeMerchant m =>
      exact iff_of_true (current_removeMerchant h m) fun _ _ _ _ _ _ _ h => nomatch h
  | updateItemPrices =>
    refine ⟨keyed_updateItemPrices hk _, ?_⟩
    refine (filed_updateAllMerchantPrices _).buyCurrent_iff.trans ?_
    exact buyCurrent_revalued_iff h rfl (value?_inflated floatMul _ _)
  | applyInflation rate =>
    refine ⟨keyed_updateItemPrices hk _, ?_⟩
    refine (filed_updateAllMerchantPrices _).buyCurrent_iff.trans ?_
    exact buyCurrent_revalued_iff h rfl (value?_inflated floatMul _ _)
  | _ => exact current_step_of_quiet hk h trivial rfl rfl

theorem chargesCurrent_initial (toFloat : UInt32 → ℚ) (initialized : Bool) :
    (initial initialized).ChargesCurrent toFloat :=
  fun _ _ _ _ hm => nomatch hm

/-- After every operation of a run what is charged is current exactly if no operation of the run
revalues an item away from a price on file that was not given. -/
theorem chargesCurrent_along_iff (toFloat : UInt32 → ℚ) (floatMul : UInt32 → ℚ → UInt32)
    (initialized : Bool) (ops : List EconomySystem.Op) :
    Run.Along (step toFloat floatMul) (fun o op => (o.step toFloat floatMul op).ChargesCurrent toFloat)
        (initial initialized) ops ↔
      Run.Along (step toFloat floatMul) (PricedAs toFloat floatMul) (initial initialized) ops :=
  Run.along_iff_of_step (K := fun o => o.system.Keyed) (I := ChargesCurrent toFloat)
    (Q := fun _ _ => True) (fun _ op hk h _ => chargesCurrent_step_iff hk h op)
    (fun _ _ hi => nomatch hi) (chargesCurrent_initial toFloat initialized)
    (Run.along_of_forall _ fun _ _ => trivial)

def inflated : List EconomySystem.Op :=
  [.register (.addItem ⟨7, 100, 10, true⟩),
    .register (.addMerchant ⟨3, .ofList [(7, 5)], .empty, .empty, 1000, true⟩),
    .updateMerchantPrices 3, .applyInflation (1 / 2)]

theorem not_chargesCurrent_inflated :
    ¬ Run.Along (step (fun n => n.toNat) fun n x => GlobalEconomy.castUInt32 (n.toNat * x))
      (fun o op => (o.step (fun n => n.toNat)
        (fun n x => GlobalEconomy.castUInt32 (n.toNat * x)) op).ChargesCurrent fun n => n.toNat)
      (initial true) inflated := by
  rintro ⟨-, -, -, h, -⟩
  have hprice := h 3 ⟨3, .ofList [(7, 5)], .ofList [(7, 100)], .ofList [(7, 50)], 1000, true⟩ 7
    ⟨7, 150, 10, true⟩ (by decide +kernel) (by decide +kernel) (by decide +kernel)
  revert hprice
  decide +kernel

end Offers
end WitcherMP.Economy
