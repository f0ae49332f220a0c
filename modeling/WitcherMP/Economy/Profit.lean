import WitcherMP.Economy.Atomic
import WitcherMP.Economy.Filing
import WitcherMP.Economy.Worth

/-! What a player has in gold and in goods, at the value of the goods, is a potential of
trading with merchants: buying keeps it and selling lowers it, wherever the prices come from. -/

namespace WitcherMP.Economy.GlobalEconomy

inductive Deal
  | buy (playerId merchantId itemId quantity : UInt32)
  | sell (playerId merchantId itemId quantity : UInt32)
  | updateMerchantPrices (merchantId : UInt32)

def deal (toFloat : UInt32 → ℚ) (s : GlobalEconomy) : Deal → GlobalEconomy
  | .buy p m i q => (s.buyItem toFloat p m i q).1
  | .sell p m i q => (s.sellItem toFloat p m i q).1
  | .updateMerchantPrices m => s.updateMerchantPrices toFloat m

/-- No sum and no product of the call overflows. -/
def DealFits (toFloat : UInt32 → ℚ) (s : GlobalEconomy) : Deal → Prop
  | .buy p m i q => Fits toFloat s (.buy p m i q)
  | .sell p m i q => Fits toFloat s (.sell p m i q)
  | .updateMerchantPrices _ => True

instance (toFloat : UInt32 → ℚ) (s : GlobalEconomy) (d : Deal) :
    Decidable (DealFits toFloat s d) := by
  cases d <;> unfold DealFits <;> infer_instance

def Unpriced (s : GlobalEconomy) : Prop :=
  ∀ e ∈ s.merchants.entries, e.2.buyPrices = .empty ∧ e.2.sellPrices = .empty

instance (s : GlobalEconomy) : Decidable s.Unpriced := List.decidableBAll ..

def wealth (s : GlobalEconomy) (p : UInt32) : ℕ :=
  match s.getPlayerEconomy p with
  | none => 0
  | some player =>
    player.gold.toNat + worth (fun i => (s.calculateItemValue i).toNat) player.inventory

variable {s s' : GlobalEconomy} {p m i q : UInt32} {item : ItemData}
  {player player' : PlayerEconomyData} {merchant merchant' : MerchantData}

def exactFloat (n : UInt32) : ℚ := n.toNat

theorem castUInt32_exactFloat (n : UInt32) : castUInt32 (exactFloat n) = n := by
  rw [castUInt32, exactFloat, Int.floor_natCast, Int.toNat_natCast, UInt32.ofNat_toNat]

theorem castUInt32_le {x : ℚ} {n : UInt32} (h : x ≤ exactFloat n) : castUInt32 x ≤ n := by
  have hfloor : ⌊x⌋ ≤ (n.toNat : ℤ) := by
    rw [← Int.floor_natCast (R := ℚ)]
    exact Int.floor_mono h
  rw [UInt32.le_iff_toNat_le, castUInt32, UInt32.toNat_ofNat']
  exact (Nat.mod_le _ _).trans (Int.toNat_le.mpr hfloor)

theorem buyQuote_exactFloat (m value : UInt32) : buyQuote exactFloat m value = value := by
  rw [buyQuote, getMerchantMultiplier, mul_one, castUInt32_exactFloat]

theorem sellQuote_exactFloat_le (m value : UInt32) : sellQuote exactFloat m value ≤ value := by
  have hvalue : (0 : ℚ) ≤ exactFloat value := Nat.cast_nonneg _
  refine castUInt32_le ?_
  rw [getMerchantMultiplier]
  linarith only [hvalue]

theorem wealth_congr (hitems : s'.items = s.items)
    (hp : s'.getPlayerEconomy p = s.getPlayerEconomy p) : s'.wealth p = s.wealth p := by
  unfold wealth calculateItemValue getItem
  rw [hp, hitems]

theorem calculateItemValue_eq (hi : s.getItem i = some item) :
    s.calculateItemValue i = item.value := by
  rw [calculateItemValue, hi]

theorem wealth_le_of_player (hitems : s'.items = s.items)
    (hp : s.getPlayerEconomy p = some player) (hp' : s'.getPlayerEconomy p = some player')
    (h : player'.gold.toNat + worth (fun i => (s.calculateItemValue i).toNat) player'.inventory
      ≤ player.gold.toNat + worth (fun i => (s.calculateItemValue i).toNat) player.inventory) :
    s'.wealth p ≤ s.wealth p := by
  unfold wealth calculateItemValue getItem
  rw [hp, hp', hitems]
  exact h

theorem wealth_buyItem (hcurrent : BuyCurrent exactFloat s fun _ => ∅)
    (hfits : Fits exactFloat s (.buy p m i q)) (p' : UInt32) :
    (s.buyItem exactFloat p m i q).1.wealth p' ≤ s.wealth p' := by
  rcases buyItem_outcome exactFloat s p m i q with
    ⟨-, h⟩ | ⟨player, merchant, item, hp, hm, hi, -, -, hpay, -, hr, h⟩
  · exact (wealth_congr h.1 (congrArg (OrdMap.find? · p') h.2.1)).le
  by_cases hpp : p' = p
  · subst hpp
    obtain ⟨hcost, -, -, hroom, -⟩ := hfits hr
    have hprice : s.calculateBuyPrice exactFloat i m = item.value := by
      rw [hcurrent.calculateBuyPrice_eq (Set.notMem_empty i) hi hm, buyQuote_exactFloat]
    rw [hprice] at hcost hpay h
    rw [getItemQuantity_eq hp] at hroom
    have hpaid := Word32.toNat_sub hpay
    rw [mul_fits hcost] at hpaid
    have hgoods := worth_gain (fun i => (s.calculateItemValue i).toNat)
      (player.setGold (player.gold - item.value * q)) (item.weight * q) hroom
    rw [calculateItemValue_eq hi] at hgoods
    refine wealth_le_of_player h.1 hp h.player ?_
    rw [hgoods, PlayerEconomyData.gold_gain, PlayerEconomyData.gold_setGold, ← hpaid]
    change _ + (worth _ player.inventory + _) ≤ _
    omega
  · exact (wealth_congr h.1 (h.player_ne hpp)).le

theorem wealth_sellItem (hcurrent : SellCurrent exactFloat s fun _ => ∅)
    (hfits : Fits exactFloat s (.sell p m i q)) (p' : UInt32) :
    (s.sellItem exactFloat p m i q).1.wealth p' ≤ s.wealth p' := by
  rcases sellItem_outcome exactFloat s p m i q with
    ⟨-, h⟩ | ⟨player, merchant, item, hp, hm, hi, -, hheld, -, hr, h⟩
  · exact (wealth_congr h.1 (congrArg (OrdMap.find? · p') h.2.1)).le
  by_cases hpp : p' = p
  · subst hpp
    obtain ⟨hcost, -, -, hpurse⟩ := hfits hr
    have hprice : s.calculateSellPrice exactFloat i m ≤ item.value := by
      rw [hcurrent.calculateSellPrice_eq (Set.notMem_empty i) hi hm]
      exact sellQuote_exactFloat_le m item.value
    have hcost' := mul_fits hcost
    rw [getCurrency_gold hp, ← hcost'] at hpurse
    have hearned := Word32.toNat_add hpurse
    have hgoods := worth_lose (fun i => (s.calculateItemValue i).toNat) player
      (item.weight * q) hheld
    rw [calculateItemValue_eq hi] at hgoods
    have hle := Nat.mul_le_mul_right q.toNat (UInt32.le_iff_toNat_le.mp hprice)
    refine wealth_le_of_player h.1 hp h.player ?_
    rw [PlayerEconomyData.gold_setGold, hearned, ← hgoods, hcost']
    change player.gold.toNat + _ + worth _ (player.lose i q (item.weight * q)).inventory ≤ _
    omega
  · exact (wealth_congr h.1 (h.player_ne hpp)).le

theorem filed_deal (toFloat : UInt32 → ℚ) (s : GlobalEconomy) (d : Deal) :
    Filed toFloat s (s.deal toFloat d) := by
  cases d with
  | buy p m i q => exact filed_step s (.buy p m i q)
  | sell p m i q => exact filed_step s (.sell p m i q)
  | updateMerchantPrices m => exact filed_updateMerchantPrices s m

theorem wealth_deal {d : Deal} (hbuy : BuyCurrent exactFloat s fun _ => ∅)
    (hsell : SellCurrent exactFloat s fun _ => ∅) (hfits : DealFits exactFloat s d) (p : UInt32) :
    (s.deal exactFloat d).wealth p ≤ s.wealth p := by
  cases d with
  | buy p' m i q => exact wealth_buyItem hbuy hfits p
  | sell p' m i q => exact wealth_sellItem hsell hfits p
  | updateMerchantPrices m =>
    have hplayers := playerEconomies_updateMerchantPrices exactFloat s m
    exact (wealth_congr (filed_updateMerchantPrices s m).items
      (congrArg (OrdMap.find? · p) hplayers)).le

theorem Unpriced.prices (h : s.Unpriced) (hm : s.getMerchant m = some merchant) :
    merchant.buyPrices = .empty ∧ merchant.sellPrices = .empty :=
  h (m, merchant) (OrdMap.find?_eq_some_iff.mp hm)

/-- Where merchants start with nothing on file, no step of any run of purchases, sales and price
updates that stays within 32 bits makes any player richer. -/
theorem wealth_along {ds : List Deal} (hs : s.Unpriced)
    (hfits : Run.Along (deal exactFloat) (DealFits exactFloat) s ds) :
    Run.Along (deal exactFloat) (fun s d => ∀ p, (s.deal exactFloat d).wealth p ≤ s.wealth p)
      s ds := by
  refine (Run.along_of_step
    (I := fun s => BuyCurrent exactFloat s (fun _ => ∅) ∧ SellCurrent exactFloat s fun _ => ∅)
    (fun s d hcurrent hfits => ?_) ⟨fun m merchant hm => ?_, fun m merchant hm => ?_⟩ hfits).2
  · have hfiled := filed_deal exactFloat s d
    exact ⟨⟨hfiled.buyCurrent_iff.mpr hcurrent.1, hfiled.sellCurrent_iff.mpr hcurrent.2⟩,
      wealth_deal hcurrent.1 hcurrent.2 hfits⟩
  · rw [(hs.prices hm).1]
    exact Memo.current_empty
  · rw [(hs.prices hm).2]
    exact Memo.current_empty

theorem wealth_along_market :
    Run.Along (deal exactFloat) (fun s d => ∀ p, (s.deal exactFloat d).wealth p ≤ s.wealth p) market
      [.buy 1 3 7 2, .updateMerchantPrices 3, .sell 1 3 7 1, .buy 2 3 7 1, .sell 1 3 7 5] :=
  wealth_along (by decide +kernel) (by decide +kernel)

end WitcherMP.Economy.GlobalEconomy
