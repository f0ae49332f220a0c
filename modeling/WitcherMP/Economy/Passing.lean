import WitcherMP.Economy.Steps
import Mathlib.Data.UInt
import Mathlib.Tactic.Ring

/-! The trading loops seen from one player: each round takes a stack out of the bag or
puts one in, and what a player ends up with depends on that player alone. -/

namespace WitcherMP.Economy
open scoped UInt32.CommRing

namespace PlayerEconomyData
section Rounds
variable (items : OrdMap UInt32 ItemData)

def give (x : PlayerEconomyData) (e : UInt32 × UInt32) : PlayerEconomyData :=
  match items.find? e.1 with
  | none => x
  | some item =>
    if x.inventory.find? e.1 = none ∨ x.quantity e.1 < e.2 then x
    else x.lose e.1 e.2 (item.weight * e.2)

def take (x : PlayerEconomyData) (e : UInt32 × UInt32) : PlayerEconomyData :=
  match items.find? e.1 with
  | none => x
  | some item =>
    if x.totalWeight + item.weight * e.2 ≤ x.maxWeight then x.gain e.1 e.2 (item.weight * e.2)
    else x

def pass (fromId toId p : UInt32) (x : PlayerEconomyData) (e : UInt32 × UInt32) :
    PlayerEconomyData :=
  let x := if fromId = p then x.give items e else x
  if toId = p then x.take items e else x

end Rounds
end PlayerEconomyData

namespace GlobalEconomy
variable {s : GlobalEconomy}

theorem getPlayerEconomy_removeItemFromInventory (s : GlobalEconomy) (p i q p' : UInt32) :
    (s.removeItemFromInventory p i q).1.getPlayerEconomy p' =
      (s.getPlayerEconomy p').map fun x => if p = p' then x.give s.items (i, q) else x := by
  by_cases hp : p = p'
  swap
  · rcases removeItemFromInventory_cases s p i q with h | ⟨x, item, -, -, -, h⟩ <;>
      simp [h, hp]
  subst hp
  simp only [if_true]
  cases hx : s.getPlayerEconomy p with
  | none => simp [removeItemFromInventory, hx]
  | some x =>
    cases hi : s.getItem i with
    | none =>
      have hi' : s.items.find? i = none := hi
      simp [removeItemFromInventory_of_unknown hi, hx, PlayerEconomyData.give, hi']
    | some item =>
      have hi' : s.items.find? i = some item := hi
      simp only [removeItemFromInventory, hx, hi, PlayerEconomyData.give, hi', Option.map_some]
      cases hf : x.inventory.find? i with
      | none => simp [hx]
      | some held =>
        have hq : x.quantity i = held := by
          rw [PlayerEconomyData.quantity, OrdMap.getD, hf]
          rfl
        by_cases hlt : held < q
        · simp [hq, hlt, hx]
        · simp [hq, hlt, PlayerEconomyData.lose]

theorem getPlayerEconomy_addItemToInventory (s : GlobalEconomy) (p i q p' : UInt32) :
    (s.addItemToInventory p i q).1.getPlayerEconomy p' =
      (s.getPlayerEconomy p').map fun x => if p = p' then x.take s.items (i, q) else x := by
  by_cases hp : p = p'
  swap
  · rcases addItemToInventory_cases s p i q with h | ⟨x, item, -, -, -, h⟩ <;> simp [h, hp]
  subst hp
  simp only [if_true]
  cases hx : s.getPlayerEconomy p with
  | none => simp [addItemToInventory, hx]
  | some x =>
    cases hi : s.getItem i with
    | none =>
      have hi' : s.items.find? i = none := hi
      simp [addItemToInventory_of_unknown hi, hx, PlayerEconomyData.take, hi']
    | some item =>
      have hi' : s.items.find? i = some item := hi
      by_cases hw : x.totalWeight + item.weight * q ≤ x.maxWeight
      · simp [addItemToInventory_eq hx hi hw, PlayerEconomyData.take, hi', hw]
      · simp [addItemToInventory_of_heavy hx hi hw, hx, PlayerEconomyData.take, hi', hw]

theorem foldl_moveItem_frame (fromId toId : UInt32) (es : List (UInt32 × UInt32))
    (s : GlobalEconomy) : (es.foldl (moveItem fromId toId) s).items = s.items ∧
      (es.foldl (moveItem fromId toId) s).merchants = s.merchants :=
  moveItem_induct (I := fun s' => s'.items = s.items ∧ s'.merchants = s.merchants)
    (fun _ _ _ _ _ _ _ h => h) (fun _ _ _ _ _ _ _ h => h) fromId toId es ⟨rfl, rfl⟩

theorem getPlayerEconomy_moveItem (fromId toId p : UInt32) (s : GlobalEconomy)
    (e : UInt32 × UInt32) : (moveItem fromId toId s e).getPlayerEconomy p =
      (s.getPlayerEconomy p).map fun x => x.pass s.items fromId toId p e := by
  have hitems : (s.removeItemFromInventory fromId e.1 e.2).1.items = s.items := by
    rcases removeItemFromInventory_cases s fromId e.1 e.2 with h | ⟨_, _, -, -, -, h⟩ <;> rw [h]
    rfl
  rw [moveItem, getPlayerEconomy_addItemToInventory, getPlayerEconomy_removeItemFromInventory,
    Option.map_map, hitems]
  rfl

theorem getPlayerEconomy_foldl_moveItem (fromId toId p : UInt32) (es : List (UInt32 × UInt32))
    (s : GlobalEconomy) : (es.foldl (moveItem fromId toId) s).getPlayerEconomy p =
      (s.getPlayerEconomy p).map fun x =>
        es.foldl (PlayerEconomyData.pass s.items fromId toId p) x := by
  induction es generalizing s with
  | nil => simp
  | cons e es ih =>
    have hitems : (moveItem fromId toId s e).items = s.items :=
      (foldl_moveItem_frame fromId toId [e] s).1
    rw [List.foldl_cons, ih, getPlayerEconomy_moveItem, Option.map_map, hitems]
    rfl

end GlobalEconomy

def sent (items : OrdMap UInt32 ItemData) (es : List (UInt32 × UInt32)) (j : UInt32) : UInt32 :=
  if items.find? j = none then 0 else (OrdMap.lookup j es).getD 0

def load (items : OrdMap UInt32 ItemData) : List (UInt32 × UInt32) → UInt32
  | [] => 0
  | e :: es =>
    match items.find? e.1 with
    | none => load items es
    | some item => item.weight * e.2 + load items es

def carriesAll (items : OrdMap UInt32 ItemData) (maxWeight : UInt32) :
    UInt32 → List (UInt32 × UInt32) → Bool
  | _, [] => true
  | weight, e :: es =>
    match items.find? e.1 with
    | none => carriesAll items maxWeight weight es
    | some item =>
      if e.2 = 0 then carriesAll items maxWeight weight es
      else weight + item.weight * e.2 ≤ maxWeight &&
        carriesAll items maxWeight (weight + item.weight * e.2) es

section Amounts
variable {items : OrdMap UInt32 ItemData} {e : UInt32 × UInt32} {es : List (UInt32 × UInt32)}
  {j : UInt32}

theorem sent_cons_of_ne (h : e.1 ≠ j) : sent items (e :: es) j = sent items es j := by
  rw [sent, sent, OrdMap.lookup, if_neg h]

theorem sent_cons_self (es : List (UInt32 × UInt32)) :
    sent items (e :: es) e.1 = sent items [e] e.1 := by
  simp only [sent, OrdMap.lookup, if_true]

theorem sent_singleton_of_ne (h : e.1 ≠ j) : sent items [e] j = 0 := by
  rw [sent_cons_of_ne h]
  simp [sent, OrdMap.lookup]

theorem sent_eq_zero_of_notMem (h : j ∉ es.map Prod.fst) : sent items es j = 0 := by
  have hnone : OrdMap.lookup j es = none :=
    OrdMap.lookup_eq_none fun e he hj => h (hj ▸ List.mem_map_of_mem he)
  simp [sent, hnone]

theorem sent_singleton_unknown (h : items.find? e.1 = none) (j : UInt32) : sent items [e] j = 0 := by
  by_cases hj : e.1 = j
  · rw [sent, ← hj, if_pos h]
  · exact sent_singleton_of_ne hj

theorem sent_singleton_known {item : ItemData} (h : items.find? e.1 = some item) :
    sent items [e] e.1 = e.2 := by
  simp [sent, h, OrdMap.lookup]

theorem sent_cons (items : OrdMap UInt32 ItemData) {e : UInt32 × UInt32}
    {es : List (UInt32 × UInt32)} (hnodup : ((e :: es).map Prod.fst).Nodup) (j : UInt32) :
    (e.1 = j ∧ sent items es j = 0 ∧ sent items (e :: es) j = sent items [e] j) ∨
      (e.1 ≠ j ∧ sent items [e] j = 0 ∧ sent items (e :: es) j = sent items es j) := by
  rw [List.map_cons, List.nodup_cons] at hnodup
  by_cases hj : e.1 = j
  · exact Or.inl ⟨hj, sent_eq_zero_of_notMem (hj ▸ hnodup.1), hj ▸ sent_cons_self es⟩
  · exact Or.inr ⟨hj, sent_singleton_of_ne hj, sent_cons_of_ne hj⟩

end Amounts

namespace PlayerEconomyData
section Round
variable (items : OrdMap UInt32 ItemData) (x : PlayerEconomyData) (e : UInt32 × UInt32)

@[simp] theorem maxWeight_give : (x.give items e).maxWeight = x.maxWeight := by
  unfold give
  split
  · rfl
  · split <;> rfl

@[simp] theorem maxWeight_take : (x.take items e).maxWeight = x.maxWeight := by
  unfold take
  split
  · rfl
  · split <;> rfl

theorem quantity_give (j : UInt32) : (x.give items e).quantity j =
    if sent items [e] j ≤ x.quantity j then x.quantity j - sent items [e] j else x.quantity j := by
  unfold give
  split
  case h_1 hi => simp [sent_singleton_unknown hi]
  case h_2 item hi =>
  by_cases hj : e.1 = j
  swap
  · rw [sent_singleton_of_ne hj, if_pos UInt32.zero_le, UInt32.sub_zero]
    split
    · rfl
    · rw [quantity_lose, if_neg hj]
  subst hj
  rw [sent_singleton_known hi]
  split
  case isTrue h =>
    rcases h with h | h
    · have h0 : x.quantity e.1 = 0 := by
        rw [quantity, OrdMap.getD, h]
        rfl
      split
      · next hle =>
        have he : e.2 = 0 := UInt32.le_antisymm (h0 ▸ hle) UInt32.zero_le
        rw [he, UInt32.sub_zero]
      · rfl
    · rw [if_neg (not_le.mpr h)]
  case isFalse h =>
    rw [quantity_lose, if_pos rfl, if_pos (not_lt.mp fun hlt => h (Or.inr hlt))]

theorem totalWeight_give (h : ∀ j, sent items [e] j ≤ x.quantity j) :
    (x.give items e).totalWeight = x.totalWeight - load items [e] := by
  unfold give load
  split
  · simp [load]
  case h_2 item hi =>
  have hle := h e.1
  rw [sent_singleton_known hi] at hle
  split
  case isTrue hno =>
    have hnone : x.inventory.find? e.1 = none := hno.resolve_right (not_lt.mpr hle)
    have h0 : x.quantity e.1 = 0 := by
      rw [quantity, OrdMap.getD, hnone]
      rfl
    have he : e.2 = 0 := UInt32.le_antisymm (h0 ▸ hle) UInt32.zero_le
    simp [he, load]
  case isFalse => simp [lose, load]

theorem quantity_take (j : UInt32) : (x.take items e).quantity j =
    if carriesAll items x.maxWeight x.totalWeight [e] then x.quantity j + sent items [e] j
    else x.quantity j := by
  unfold take
  split
  case h_1 hi => simp [sent_singleton_unknown hi]
  case h_2 item hi =>
  by_cases hj : e.1 = j
  swap
  · have hsent : sent items [e] j = 0 := sent_singleton_of_ne hj
    rw [hsent, UInt32.add_zero, ite_self]
    split
    · rw [quantity_gain, if_neg hj]
    · rfl
  subst hj
  rw [sent_singleton_known hi]
  by_cases h0 : e.2 = 0
  · rw [h0, UInt32.add_zero, ite_self]
    split
    · rw [quantity_gain, if_pos rfl, UInt32.add_zero]
    · rfl
  · by_cases hw : x.totalWeight + item.weight * e.2 ≤ x.maxWeight
    · simp [carriesAll, hi, h0, hw, quantity_gain]
    · simp [carriesAll, hi, h0, hw]

theorem totalWeight_take : (x.take items e).totalWeight =
    if carriesAll items x.maxWeight x.totalWeight [e] then x.totalWeight + load items [e]
    else x.totalWeight := by
  unfold take
  split
  case h_1 hi => simp [load, hi]
  case h_2 item hi =>
  by_cases h0 : e.2 = 0
  · simp only [carriesAll, load, hi, h0, gain, UInt32.mul_zero, UInt32.add_zero, ite_self]
    split <;> rfl
  · by_cases hw : x.totalWeight + item.weight * e.2 ≤ x.maxWeight
    · simp [carriesAll, load, hi, h0, hw, gain]
    · simp [carriesAll, hi, h0, hw]

end Round
end PlayerEconomyData

section Loads
variable {items : OrdMap UInt32 ItemData} {e : UInt32 × UInt32} {es : List (UInt32 × UInt32)}
  {weight maxWeight : UInt32}

theorem load_cons (e : UInt32 × UInt32) (es : List (UInt32 × UInt32)) :
    load items (e :: es) = load items [e] + load items es := by
  simp only [load]
  split <;> simp

theorem carriesAll_cons : carriesAll items maxWeight weight (e :: es) =
    (carriesAll items maxWeight weight [e] &&
      carriesAll items maxWeight (weight + load items [e]) es) := by
  simp only [carriesAll, load]
  split
  · simp
  · split
    · next h => simp [h]
    · simp

theorem sent_ne_zero_of_not_carries (h : ¬ carriesAll items maxWeight weight [e]) :
    sent items [e] e.1 ≠ 0 := by
  unfold carriesAll at h
  split at h
  · exact absurd rfl h
  case h_2 item hi =>
    rw [sent_singleton_known hi]
    intro h0
    exact h (by simp [h0, carriesAll])

end Loads

namespace PlayerEconomyData
variable {items : OrdMap UInt32 ItemData} {es : List (UInt32 × UInt32)}

theorem quantity_foldl_give (hnodup : (es.map Prod.fst).Nodup) (x : PlayerEconomyData)
    (j : UInt32) : (es.foldl (give items) x).quantity j =
      if sent items es j ≤ x.quantity j then x.quantity j - sent items es j
      else x.quantity j := by
  induction es generalizing x with
  | nil => simp [sent, OrdMap.lookup]
  | cons e es ih =>
    have hes : (es.map Prod.fst).Nodup := (List.nodup_cons.mp hnodup).2
    rw [List.foldl_cons, ih hes, quantity_give]
    rcases sent_cons items hnodup j with ⟨-, h₁, h₂⟩ | ⟨-, h₁, h₂⟩
    · simp [h₁, h₂]
    · simp [h₁, h₂]

theorem totalWeight_foldl_give (hnodup : (es.map Prod.fst).Nodup) {x : PlayerEconomyData}
    (h : ∀ j, sent items es j ≤ x.quantity j) :
    (es.foldl (give items) x).totalWeight = x.totalWeight - load items es := by
  induction es generalizing x with
  | nil => simp [load]
  | cons e es ih =>
    have hes : (es.map Prod.fst).Nodup := (List.nodup_cons.mp hnodup).2
    have hone : ∀ j, sent items [e] j ≤ x.quantity j := by
      intro j
      rcases sent_cons items hnodup j with ⟨-, -, h₂⟩ | ⟨-, h₁, -⟩
      · exact h₂ ▸ h j
      · exact h₁ ▸ UInt32.zero_le
    have hrest : ∀ j, sent items es j ≤ (x.give items e).quantity j := by
      intro j
      rw [quantity_give, if_pos (hone j)]
      rcases sent_cons items hnodup j with ⟨-, h₁, -⟩ | ⟨-, h₁, h₂⟩
      · exact h₁ ▸ UInt32.zero_le
      · rw [h₁, UInt32.sub_zero, ← h₂]
        exact h j
    rw [List.foldl_cons, ih hes hrest, totalWeight_give items x e hone, load_cons e es]
    ring

theorem maxWeight_foldl_give (es : List (UInt32 × UInt32)) (x : PlayerEconomyData) :
    (es.foldl (give items) x).maxWeight = x.maxWeight := by
  induction es generalizing x with
  | nil => rfl
  | cons e es ih => rw [List.foldl_cons, ih, maxWeight_give]

theorem quantity_foldl_take_or (items : OrdMap UInt32 ItemData)
    (hnodup : (es.map Prod.fst).Nodup) (x : PlayerEconomyData) (j : UInt32) :
    (es.foldl (take items) x).quantity j = x.quantity j ∨
      (es.foldl (take items) x).quantity j = x.quantity j + sent items es j := by
  induction es generalizing x with
  | nil => exact Or.inl rfl
  | cons e es ih =>
    have hes : (es.map Prod.fst).Nodup := (List.nodup_cons.mp hnodup).2
    rw [List.foldl_cons]
    have hfirst := quantity_take items x e j
    rcases sent_cons items hnodup j with ⟨-, h₁, h₂⟩ | ⟨-, h₁, h₂⟩
    · have hlast : (es.foldl (take items) (x.take items e)).quantity j =
          (x.take items e).quantity j := by
        rcases ih hes (x.take items e) with h | h
        · exact h
        · rw [h, h₁, UInt32.add_zero]
      rw [hlast, hfirst, h₂]
      split
      · exact Or.inr rfl
      · exact Or.inl rfl
    · rw [h₁, UInt32.add_zero, ite_self] at hfirst
      rw [h₂, ← hfirst]
      exact ih hes (x.take items e)

theorem quantity_foldl_take_iff (items : OrdMap UInt32 ItemData)
    (hnodup : (es.map Prod.fst).Nodup) (x : PlayerEconomyData) :
    (∀ j, (es.foldl (take items) x).quantity j = x.quantity j + sent items es j) ↔
      carriesAll items x.maxWeight x.totalWeight es := by
  induction es generalizing x with
  | nil => simp [carriesAll, sent, OrdMap.lookup]
  | cons e es ih =>
    have hes : (es.map Prod.fst).Nodup := (List.nodup_cons.mp hnodup).2
    rw [List.foldl_cons, carriesAll_cons, Bool.and_eq_true]
    by_cases hfits : carriesAll items x.maxWeight x.totalWeight [e]
    · have hrest := ih hes (x.take items e)
      rw [maxWeight_take, totalWeight_take, if_pos hfits] at hrest
      rw [← hrest, and_iff_right hfits]
      refine forall_congr' fun j => ?_
      rw [quantity_take, if_pos hfits]
      rcases sent_cons items hnodup j with ⟨-, h₁, h₂⟩ | ⟨-, h₁, h₂⟩
      · rw [h₁, h₂, UInt32.add_zero]
      · rw [h₁, h₂, UInt32.add_zero]
    · refine iff_of_false (fun hall => ?_) fun h => hfits h.1
      have hsent := sent_ne_zero_of_not_carries hfits
      rcases sent_cons items hnodup e.1 with ⟨-, h₁, h₂⟩ | ⟨hne, -, -⟩
      swap
      · exact hne rfl
      have hstay : (es.foldl (take items) (x.take items e)).quantity e.1 = x.quantity e.1 := by
        have hfirst : (x.take items e).quantity e.1 = x.quantity e.1 := by
          rw [quantity_take, if_neg hfits]
        rcases quantity_foldl_take_or items hes (x.take items e) e.1 with h | h
        · rw [h, hfirst]
        · rw [h, h₁, UInt32.add_zero, hfirst]
      have hgone := hall e.1
      rw [hstay, h₂] at hgone
      exact hsent (left_eq_add.mp hgone)

end PlayerEconomyData
end WitcherMP.Economy
