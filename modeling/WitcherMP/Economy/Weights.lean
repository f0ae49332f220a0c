import WitcherMP.Economy.Exact
import WitcherMP.Economy.Filing
import WitcherMP.Economy.Worth

/-! The weight a player is booked with is the weight of what the player carries, and within the
limit, whatever part of an operation goes through. -/

namespace WitcherMP.Economy

/-- The weight booked is that of the goods, and within the limit. -/
structure PlayerEconomyData.Weighed (weight : UInt32 → UInt32) (player : PlayerEconomyData) :
    Prop where
  carried : player.totalWeight.toNat
    = GlobalEconomy.worth (fun i => (weight i).toNat) player.inventory
  limited : player.totalWeight ≤ player.maxWeight

namespace PlayerEconomyData
variable {weight : UInt32 → UInt32} {player : PlayerEconomyData} {i q : UInt32}

theorem weighed_of_empty (hinventory : player.inventory = .empty) (hweight : player.totalWeight = 0) :
    player.Weighed weight where
  carried := by rw [hinventory, hweight, GlobalEconomy.worth, OrdMap.sumOver_empty, UInt32.toNat_zero]
  limited := hweight ▸ UInt32.zero_le

theorem Weighed.setGold (h : player.Weighed weight) (a : UInt32) :
    (player.setGold a).Weighed weight := ⟨h.carried, h.limited⟩

theorem Weighed.gain (h : player.Weighed weight)
    (hweight : player.totalWeight.toNat + (weight i).toNat * q.toNat < 2 ^ 32)
    (hroom : (player.quantity i).toNat + q.toNat < 2 ^ 32)
    (hle : player.totalWeight + weight i * q ≤ player.maxWeight) :
    (player.gain i q (weight i * q)).Weighed weight where
  carried := by
    have hload := GlobalEconomy.mul_fits (a := weight i) (b := q) (by omega)
    rw [GlobalEconomy.worth_gain _ _ _ hroom, ← h.carried, ← hload]
    exact Word32.toNat_add (by rwa [hload])
  limited := hle

theorem Weighed.lose (h : player.Weighed weight) (hq : q ≤ player.quantity i) :
    (player.lose i q (weight i * q)).Weighed weight := by
  have hgoods := GlobalEconomy.worth_lose (fun i => (weight i).toNat) player (weight i * q) hq
  have hpart : (weight i).toNat * q.toNat ≤ player.totalWeight.toNat := by
    rw [h.carried, ← hgoods]
    exact Nat.le_add_left _ _
  have hload := GlobalEconomy.mul_fits (hpart.trans_lt (UInt32.toNat_lt _))
  have hle : weight i * q ≤ player.totalWeight := by
    rwa [UInt32.le_iff_toNat_le, hload]
  have hweight := Word32.toNat_sub hle
  rw [hload, h.carried, ← hgoods] at hweight
  exact ⟨Nat.add_right_cancel hweight, (UInt32.sub_le hle).trans h.limited⟩

end PlayerEconomyData

namespace GlobalEconomy

def Weighed (s : GlobalEconomy) : Prop :=
  ∀ p player, s.getPlayerEconomy p = some player → player.Weighed s.itemWeight

def MoveFits (fromId toId : UInt32) (s : GlobalEconomy) (e : UInt32 × UInt32) : Prop :=
  let s := (s.removeItemFromInventory fromId e.1 e.2).1
  s.canPlayerCarry toId e.1 e.2 → s.AddFits toId e.1 e.2

instance (fromId toId : UInt32) (s : GlobalEconomy) (e : UInt32 × UInt32) :
    Decidable (MoveFits fromId toId s e) := by unfold MoveFits; infer_instance

variable {s s' : GlobalEconomy} {p i q : UInt32} {player : PlayerEconomyData}

theorem itemWeight_congr (h : s'.items = s.items) : s'.itemWeight = s.itemWeight := by
  funext i
  unfold itemWeight getItem
  rw [h]

theorem Weighed.of_eq (h : s.Weighed) (hplayers : s'.playerEconomies = s.playerEconomies)
    (hweights : s'.itemWeight = s.itemWeight) : s'.Weighed := by
  intro p player hp
  rw [getPlayerEconomy, hplayers] at hp
  exact hweights ▸ h p player hp

theorem Weighed.of_insert (h : s.Weighed) (hweights : s'.itemWeight = s.itemWeight)
    (hplayers : s'.playerEconomies = s.playerEconomies.insert p player)
    (hplayer : player.Weighed s.itemWeight) : s'.Weighed := by
  intro p' player' hp'
  rw [hweights]
  rw [getPlayerEconomy, hplayers, OrdMap.find?_insert] at hp'
  split_ifs at hp'
  · exact Option.some.inj hp' ▸ hplayer
  · exact h p' player' hp'

theorem weighed_addItemToInventory (h : s.Weighed) (hfits : s.canPlayerCarry p i q → s.AddFits p i q) :
    (s.addItemToInventory p i q).1.Weighed := by
  rcases addItemToInventory_cases s p i q with hr | ⟨player, item, hp, hi, hle, hr⟩
  · rwa [hr]
  · obtain ⟨hweight, hroom⟩ := hfits (addItemToInventory_result.mp (congrArg Prod.snd hr))
    rw [loadOf, weightOf_eq hp] at hweight
    rw [getItemQuantity_eq hp] at hroom
    rw [hr]
    rw [← itemWeight_eq hi] at hle ⊢
    exact h.of_insert rfl rfl ((h p player hp).gain hweight hroom hle)

theorem weighed_removeItemFromInventory (h : s.Weighed) (p i q : UInt32) :
    (s.removeItemFromInventory p i q).1.Weighed := by
  rcases removeItemFromInventory_cases s p i q with hr | ⟨player, item, hp, hi, hq, hr⟩
  · rwa [hr]
  · rw [hr, ← itemWeight_eq hi]
    exact h.of_insert rfl rfl ((h p player hp).lose hq)

theorem weighed_moveItem {fromId toId : UInt32} {e : UInt32 × UInt32} (h : s.Weighed)
    (hfits : MoveFits fromId toId s e) : (moveItem fromId toId s e).Weighed :=
  weighed_addItemToInventory (weighed_removeItemFromInventory h fromId e.1 e.2) hfits

theorem weighed_foldl_moveItem {fromId toId : UInt32} {es : List (UInt32 × UInt32)} (h : s.Weighed)
    (hfits : Run.Along (moveItem fromId toId) (MoveFits fromId toId) s es) :
    (es.foldl (moveItem fromId toId) s).Weighed := by
  rw [← Run.run_eq_foldl]
  exact (Run.along_of_step (Q := fun _ _ => True)
    (fun _ _ h hfits => ⟨weighed_moveItem h hfits, trivial⟩) h hfits).1

section Trading
variable {toFloat : UInt32 → ℚ} {m : UInt32}

theorem weighed_buyItem (h : s.Weighed) (hfits : (s.buyItem toFloat p m i q).2 → s.AddFits p i q) :
    (s.buyItem toFloat p m i q).1.Weighed := by
  rcases buyItem_outcome toFloat s p m i q with
    ⟨-, hs⟩ | ⟨player, merchant, item, hp, -, hi, -, -, -, hle, hr, hs⟩
  · exact h.of_eq hs.2.1 (itemWeight_congr hs.1)
  · obtain ⟨hweight, hroom⟩ := hfits hr
    rw [loadOf, weightOf_eq hp] at hweight
    rw [getItemQuantity_eq hp] at hroom
    rw [← itemWeight_eq hi] at hle hs
    exact h.of_insert (itemWeight_congr hs.1) hs.2.1
      (((h p player hp).setGold _).gain hweight hroom hle)

theorem weighed_sellItem (h : s.Weighed) : (s.sellItem toFloat p m i q).1.Weighed := by
  rcases sellItem_outcome toFloat s p m i q with
    ⟨-, hs⟩ | ⟨player, merchant, item, hp, -, hi, -, hq, -, -, hs⟩
  · exact h.of_eq hs.2.1 (itemWeight_congr hs.1)
  · rw [← itemWeight_eq hi] at hs
    exact h.of_insert (itemWeight_congr hs.1) hs.2.1 (((h p player hp).lose hq).setGold _)

end Trading

theorem weighed_tradeItems {p₁ p₂ : UInt32} {is₁ is₂ : OrdMap UInt32 UInt32} (h : s.Weighed)
    (hfits : (s.tradeItems p₁ p₂ is₁ is₂).2 →
      Run.Along (moveItem p₁ p₂) (MoveFits p₁ p₂) s is₁.entries ∧
      Run.Along (moveItem p₂ p₁) (MoveFits p₂ p₁) (is₁.entries.foldl (moveItem p₁ p₂) s)
        is₂.entries) :
    (s.tradeItems p₁ p₂ is₁ is₂).1.Weighed := by
  rcases tradeItems_cases s p₁ p₂ is₁ is₂ with ⟨hr, -⟩ | ⟨x₁, x₂, -, -, -, -, -, hr⟩
  · rwa [hr]
  · obtain ⟨hfits₁, hfits₂⟩ := hfits (congrArg Prod.snd hr)
    rw [hr]
    exact weighed_foldl_moveItem (weighed_foldl_moveItem h hfits₁) hfits₂

theorem weighed_giftItem {p₁ p₂ : UInt32} (h : s.Weighed)
    (hfits : (s.giftItem p₁ p₂ i q).2 → MoveFits p₁ p₂ s (i, q)) :
    (s.giftItem p₁ p₂ i q).1.Weighed := by
  rcases giftItem_cases s p₁ p₂ i q with hr | ⟨x₁, x₂, -, -, -, -, hr⟩
  · rwa [hr]
  · have hround := hfits (congrArg Prod.snd hr)
    rw [hr]
    exact weighed_moveItem h hround

theorem Weighed.mapValues (h : s.Weighed) {f : PlayerEconomyData → PlayerEconomyData}
    (hf : ∀ player, player.Weighed s.itemWeight → (f player).Weighed s.itemWeight)
    (hweights : s'.itemWeight = s.itemWeight)
    (hplayers : s'.playerEconomies = s.playerEconomies.mapValues f) : s'.Weighed := by
  intro p player hp
  rw [getPlayerEconomy, hplayers, OrdMap.find?_mapValues] at hp
  obtain ⟨player', hp', rfl⟩ := Option.map_eq_some_iff.mp hp
  exact hweights ▸ hf player' (h p player' hp')

theorem weighed_resetEconomy (h : s.Weighed) : s.resetEconomy.Weighed :=
  h.mapValues (fun _ _ => PlayerEconomyData.weighed_of_empty rfl rfl) rfl rfl

theorem itemWeight_mapValues_inflate (floatMul : UInt32 → ℚ → UInt32) (rate : ℚ)
    (s : GlobalEconomy) :
    itemWeight { s with items := s.items.mapValues (inflate floatMul rate) } = s.itemWeight := by
  funext i
  have hitem : getItem { s with items := s.items.mapValues (inflate floatMul rate) } i =
      (s.getItem i).map (inflate floatMul rate) := OrdMap.find?_mapValues ..
  rw [itemWeight, itemWeight, hitem]
  cases s.getItem i <;> rfl

theorem weighed_updateItemPrices (toFloat : UInt32 → ℚ) (floatMul : UInt32 → ℚ → UInt32) (rate : ℚ)
    (h : s.Weighed) : (s.updateItemPrices toFloat floatMul rate).Weighed := by
  refine h.of_eq (playerEconomies_updateAllMerchantPrices toFloat _) ?_
  rw [← itemWeight_mapValues_inflate floatMul rate s]
  exact itemWeight_congr (filed_updateAllMerchantPrices _).items

end GlobalEconomy

namespace EconomySystem
open GlobalEconomy

def Handles : Op → Prop
  | .trade _ => True
  | .addPlayer _ => True
  | .addItemToInventory .. => True
  | .removeItemFromInventory .. => True
  | .updateItemPrices => True
  | .resetEconomy => True
  | _ => False

instance (op : Op) : Decidable (Handles op) := by
  cases op <;> unfold Handles <;> infer_instance

/-- No sum and no product overflows on the way into an inventory. -/
def NoOverflow (toFloat : UInt32 → ℚ) (s : EconomySystem) : Op → Prop
  | .addItemToInventory p i q => s.canPlayerCarry p i q → s.AddFits p i q
  | .trade (.buy p m i q) => (s.buyItem toFloat p m i q).2 → s.AddFits p i q
  | .trade (.gift p₁ p₂ i q) => (s.giftItem p₁ p₂ i q).2 → MoveFits p₁ p₂ s.toGlobalEconomy (i, q)
  | .trade (.trade p₁ p₂ is₁ is₂) => (s.tradeItems p₁ p₂ is₁ is₂).2 →
    Run.Along (moveItem p₁ p₂) (MoveFits p₁ p₂) s.toGlobalEconomy is₁.entries ∧
    Run.Along (moveItem p₂ p₁) (MoveFits p₂ p₁)
      (is₁.entries.foldl (moveItem p₁ p₂) s.toGlobalEconomy) is₂.entries
  | _ => True

instance decidableNoOverflowTrade (toFloat : UInt32 → ℚ) (s : EconomySystem) :
    ∀ call, Decidable (NoOverflow toFloat s (.trade call))
  | .buy p m i q => inferInstanceAs (Decidable ((s.buyItem toFloat p m i q).2 → s.AddFits p i q))
  | .sell .. => isTrue trivial
  | .gift p₁ p₂ i q => inferInstanceAs
    (Decidable ((s.giftItem p₁ p₂ i q).2 → MoveFits p₁ p₂ s.toGlobalEconomy (i, q)))
  | .trade p₁ p₂ is₁ is₂ => inferInstanceAs (Decidable ((s.tradeItems p₁ p₂ is₁ is₂).2 →
    Run.Along (moveItem p₁ p₂) (MoveFits p₁ p₂) s.toGlobalEconomy is₁.entries ∧
    Run.Along (moveItem p₂ p₁) (MoveFits p₂ p₁)
      (is₁.entries.foldl (moveItem p₁ p₂) s.toGlobalEconomy) is₂.entries))

instance (toFloat : UInt32 → ℚ) (s : EconomySystem) (op : Op) :
    Decidable (NoOverflow toFloat s op) := by
  cases op with
  | trade call => exact decidableNoOverflowTrade toFloat s call
  | _ => unfold NoOverflow; infer_instance

variable {toFloat : UInt32 → ℚ} {floatMul : UInt32 → ℚ → UInt32} {s : EconomySystem} {op : Op}

theorem weighed_step (hop : Handles op) (hfits : NoOverflow toFloat s op) (h : s.Weighed) :
    (s.step toFloat floatMul op).Weighed := by
  cases op with
  | trade call =>
    cases call with
    | buy p m i q => exact weighed_buyItem h hfits
    | sell p m i q => exact weighed_sellItem h
    | trade p₁ p₂ is₁ is₂ => exact weighed_tradeItems h hfits
    | gift p₁ p₂ i q => exact weighed_giftItem h hfits
  | addPlayer p =>
    rw [step, addPlayer]
    split
    · exact h
    · exact h.of_insert rfl rfl (PlayerEconomyData.weighed_of_empty rfl rfl)
  | addItemToInventory p i q => exact weighed_addItemToInventory h hfits
  | removeItemFromInventory p i q => exact weighed_removeItemFromInventory h p i q
  | updateItemPrices => exact weighed_updateItemPrices toFloat floatMul s.inflationRate h
  | resetEconomy => exact weighed_resetEconomy h
  | _ => exact hop.elim

/-- From any set of items and merchants on, every run of the operations on inventories keeps all
players' weights right and within their limits. -/
theorem weighed_run {ops : List Op} (hs : s.playerEconomies = .empty) (hops : ∀ op ∈ ops, Handles op)
    (hfits : Run.Along (step toFloat floatMul) (NoOverflow toFloat) s ops) :
    (Run.run (step toFloat floatMul) s ops).Weighed := by
  have hstart : s.Weighed := by
    intro p player hp
    rw [getPlayerEconomy, hs] at hp
    cases hp
  exact (Run.along_of_step (Q := fun _ _ => True) (I := fun s : EconomySystem => s.Weighed)
    (fun _ _ h hstep => ⟨weighed_step hstep.1 hstep.2 h, trivial⟩) hstart
    ((Run.along_of_forall s hops).and hfits)).1

theorem weighed_run_market :
    (Run.run (step (fun n => n.toNat) fun n _ => n + 1)
      { market with playerEconomies := .empty, initialized := true }
      [.addPlayer 1, .addPlayer 2, .addItemToInventory 1 7 100, .addItemToInventory 2 8 3,
        .trade (.trade 1 2 .empty (.ofList [(8, 3)])), .trade (.sell 1 3 7 2), .updateItemPrices,
        .trade (.gift 1 2 7 90), .trade (.buy 2 3 7 1), .removeItemFromInventory 1 7 1]).Weighed :=
  weighed_run rfl (by decide) (by decide +kernel)

end EconomySystem
end WitcherMP.Economy
