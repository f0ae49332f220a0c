import WitcherMP.Economy.Steps
import Mathlib.Tactic.Linarith

/-! Conservation of gold over every run of the trading operations. -/

namespace WitcherMP.Economy.GlobalEconomy

def totalGold (s : GlobalEconomy) : ℕ :=
  s.playerEconomies.sumOver (fun _ player => player.gold.toNat) +
    s.merchants.sumOver (fun _ merchant => merchant.goldAmount.toNat)

theorem SameBooks.totalGold_eq {s s' : GlobalEconomy} (h : SameBooks s s') :
    totalGold s' = totalGold s := by
  rw [totalGold, totalGold, h.2.1, h.2.2]

theorem totalGold_setPlayer {s : GlobalEconomy} {p : UInt32} {x y : PlayerEconomyData}
    (hp : s.getPlayerEconomy p = some x) (hg : y.gold = x.gold) :
    totalGold (s.setPlayer p y) = totalGold s := by
  have h := OrdMap.sumOver_replace (fun _ (z : PlayerEconomyData) => z.gold.toNat)
    (m := s.playerEconomies) hp y
  rw [hg] at h
  exact congrArg (· + _) (Nat.add_right_cancel h)

theorem Rewrote.totalGold_add {s s' : GlobalEconomy} {p m : UInt32} {x x' : PlayerEconomyData}
    {y y' : MerchantData} (h : Rewrote s s' p x' m y') (hp : s.getPlayerEconomy p = some x)
    (hm : s.getMerchant m = some y) :
    totalGold s' + (x.gold.toNat + y.goldAmount.toNat)
      = totalGold s + (x'.gold.toNat + y'.goldAmount.toNat) := by
  have h₁ := OrdMap.sumOver_replace (fun _ (z : PlayerEconomyData) => z.gold.toNat)
    (m := s.playerEconomies) hp x'
  have h₂ := OrdMap.sumOver_replace (fun _ (z : MerchantData) => z.goldAmount.toNat)
    (m := s.merchants) hm y'
  rw [totalGold, totalGold, h.2.1, h.2.2]
  omega

theorem purse_add_till_le {s : GlobalEconomy} {p m : UInt32} {x : PlayerEconomyData}
    {y : MerchantData} (hp : s.getPlayerEconomy p = some x) (hm : s.getMerchant m = some y) :
    x.gold.toNat + y.goldAmount.toNat ≤ totalGold s :=
  add_le_add (OrdMap.le_sumOver (fun _ (z : PlayerEconomyData) => z.gold.toNat) hp)
    (OrdMap.le_sumOver (fun _ (z : MerchantData) => z.goldAmount.toNat) hm)

section Trading
variable (toFloat : UInt32 → ℚ) {s : GlobalEconomy}

theorem totalGold_buyItem (hs : totalGold s < 2 ^ 32) (p m i q : UInt32) :
    totalGold (s.buyItem toFloat p m i q).1 = totalGold s := by
  rcases buyItem_outcome toFloat s p m i q with
    ⟨-, h⟩ | ⟨x, y, _, hp, hm, -, -, -, hprice, -, -, h⟩
  · exact h.totalGold_eq
  · have hle := purse_add_till_le hp hm
    have hsum := h.totalGold_add hp hm
    have hpaid := Word32.toNat_sub hprice
    have htill := Word32.toNat_add (a := y.goldAmount) (b := s.calculateBuyPrice toFloat i m * q)
      (by omega)
    simp only [PlayerEconomyData.gold_gain, PlayerEconomyData.gold_setGold, MerchantData.sold,
      htill] at hsum
    omega

theorem totalGold_sellItem (hs : totalGold s < 2 ^ 32) (p m i q : UInt32) :
    totalGold (s.sellItem toFloat p m i q).1 = totalGold s := by
  rcases sellItem_outcome toFloat s p m i q with ⟨-, h⟩ | ⟨x, y, _, hp, hm, -, -, -, hprice, -, h⟩
  · exact h.totalGold_eq
  · have hle := purse_add_till_le hp hm
    have hsum := h.totalGold_add hp hm
    have hpaid := Word32.toNat_sub hprice
    have hpurse := Word32.toNat_add (a := x.gold) (b := s.calculateSellPrice toFloat i m * q)
      (by omega)
    simp only [PlayerEconomyData.gold_setGold, MerchantData.bought, hpurse] at hsum
    omega

theorem totalGold_foldl_moveItem (fromId toId : UInt32) (es : List (UInt32 × UInt32))
    (s : GlobalEconomy) : totalGold (es.foldl (moveItem fromId toId) s) = totalGold s :=
  moveItem_induct (I := fun s' => totalGold s' = totalGold s)
    (fun _ _ i q l x hp h => (totalGold_setPlayer (y := x.gain i q l) hp rfl).trans h)
    (fun _ _ i q l x hp h => (totalGold_setPlayer (y := x.lose i q l) hp rfl).trans h)
    fromId toId es rfl

theorem totalGold_tradeItems (p₁ p₂ : UInt32) (is₁ is₂ : OrdMap UInt32 UInt32) :
    totalGold (s.tradeItems p₁ p₂ is₁ is₂).1 = totalGold s := by
  rcases tradeItems_cases s p₁ p₂ is₁ is₂ with ⟨hr, -⟩ | ⟨x₁, x₂, -, -, -, -, -, hr⟩
  · rw [hr]
  · rw [hr]
    exact (totalGold_foldl_moveItem p₂ p₁ is₂.entries _).trans
      (totalGold_foldl_moveItem p₁ p₂ is₁.entries s)

theorem totalGold_giftItem (p₁ p₂ i q : UInt32) :
    totalGold (s.giftItem p₁ p₂ i q).1 = totalGold s := by
  rcases giftItem_cases s p₁ p₂ i q with hr | ⟨x₁, x₂, -, -, -, -, hr⟩
  · rw [hr]
  · rw [hr]
    exact totalGold_foldl_moveItem p₁ p₂ [(i, q)] s

theorem totalGold_step (hs : totalGold s < 2 ^ 32) (op : Op) :
    totalGold (step toFloat s op) = totalGold s := by
  cases op with
  | buy p m i q => exact totalGold_buyItem toFloat hs p m i q
  | sell p m i q => exact totalGold_sellItem toFloat hs p m i q
  | trade p₁ p₂ is₁ is₂ => exact totalGold_tradeItems p₁ p₂ is₁ is₂
  | gift p₁ p₂ i q => exact totalGold_giftItem p₁ p₂ i q

/-- However the calls are interleaved, and whether they succeed or not, no gold is made
or lost, even where a price product wraps. -/
theorem totalGold_run (hs : totalGold s < 2 ^ 32) (ops : List Op) :
    totalGold (Run.run (step toFloat) s ops) = totalGold s := by
  induction ops generalizing s with
  | nil => rfl
  | cons op ops ih =>
    have hstep := totalGold_step toFloat hs op
    exact (ih (hstep ▸ hs)).trans hstep

theorem totalGold_run_market :
    totalGold (Run.run (step fun n => n.toNat) market
      [.buy 1 3 7 2, .gift 1 2 7 1, .sell 2 3 7 1, .buy 2 3 7 100]) = totalGold market :=
  totalGold_run _ (by decide) _

end Trading
end WitcherMP.Economy.GlobalEconomy
