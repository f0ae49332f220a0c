import WitcherMP.Economy.Passing
import WitcherMP.Economy.Atomic
import Mathlib.Algebra.BigOperators.Group.Finset.Piecewise

/-! A trade validates what is held but not what can be carried, and runs two loops whose
results it drops. It is all-or-nothing exactly when the loops cannot fail on their own. -/

namespace WitcherMP.Economy
open scoped UInt32.CommRing

namespace PlayerEconomyData
variable {items : OrdMap UInt32 ItemData} {e : UInt32 × UInt32} {es : List (UInt32 × UInt32)}

def trip (items : OrdMap UInt32 ItemData) (x : PlayerEconomyData) (e : UInt32 × UInt32) :
    PlayerEconomyData := (x.give items e).take items e

@[simp] theorem maxWeight_trip (x : PlayerEconomyData) (e : UInt32 × UInt32) :
    (x.trip items e).maxWeight = x.maxWeight := by
  rw [trip, maxWeight_take, maxWeight_give]

theorem give_of_not_held {x : PlayerEconomyData} (h : ¬ sent items [e] e.1 ≤ x.quantity e.1) :
    x.give items e = x := by
  unfold give
  split
  · rfl
  case h_2 item hi =>
    rw [sent_singleton_known hi] at h
    exact if_pos (Or.inr (not_le.mp h))

theorem le_maxWeight_of_carries {weight maxWeight : UInt32}
    (h : carriesAll items maxWeight weight [e]) (hsent : sent items [e] e.1 ≠ 0) :
    weight + load items [e] ≤ maxWeight := by
  unfold carriesAll at h
  split at h
  case h_1 hi => exact absurd (sent_singleton_unknown hi e.1) hsent
  case h_2 item hi =>
    rw [sent_singleton_known hi] at hsent
    rw [if_neg hsent, Bool.and_eq_true, decide_eq_true_eq] at h
    simpa [load, hi] using h.1

theorem carries_of_le_maxWeight {weight maxWeight : UInt32}
    (h : weight + load items [e] ≤ maxWeight) : carriesAll items maxWeight weight [e] := by
  unfold carriesAll
  split
  · rfl
  case h_2 item hi =>
    split
    · rfl
    · simpa [carriesAll, load, hi] using h

theorem trip_cases (items : OrdMap UInt32 ItemData) (x : PlayerEconomyData) (e : UInt32 × UInt32) :
    ((x.trip items e).totalWeight = x.totalWeight ∧
      (∀ j, (x.trip items e).quantity j = x.quantity j) ∧
      (sent items [e] e.1 ≤ x.quantity e.1 →
        sent items [e] e.1 = 0 ∨ x.totalWeight ≤ x.maxWeight)) ∨
    (sent items [e] e.1 ≠ 0 ∧ sent items [e] e.1 ≤ x.quantity e.1 ∧
      x.maxWeight < x.totalWeight ∧
      ∀ j, (x.trip items e).quantity j = x.quantity j - sent items [e] j) ∨
    (¬ sent items [e] e.1 ≤ x.quantity e.1 ∧ (x.trip items e).totalWeight ≤ x.maxWeight ∧
      ∀ j, (x.trip items e).quantity j = x.quantity j + sent items [e] j) := by
  have hother : ∀ j, e.1 ≠ j → sent items [e] j = 0 := fun j => sent_singleton_of_ne
  by_cases hheld : sent items [e] e.1 ≤ x.quantity e.1
  · have hall : ∀ j, sent items [e] j ≤ x.quantity j := by
      intro j
      by_cases hj : e.1 = j
      · exact hj ▸ hheld
      · exact hother j hj ▸ UInt32.zero_le
    have hw : (x.give items e).totalWeight = x.totalWeight - load items [e] :=
      totalWeight_give items x e hall
    have hq : ∀ j, (x.give items e).quantity j = x.quantity j - sent items [e] j := by
      intro j
      rw [quantity_give, if_pos (hall j)]
    have hsum : x.totalWeight - load items [e] + load items [e] = x.totalWeight := by ring
    by_cases hfits : carriesAll items x.maxWeight (x.totalWeight - load items [e]) [e]
    · left
      refine ⟨?_, fun j => ?_, fun _ => ?_⟩
      · rw [trip, totalWeight_take, maxWeight_give, hw, if_pos hfits, hsum]
      · rw [trip, quantity_take, maxWeight_give, hw, if_pos hfits, hq]
        ring
      · by_cases h0 : sent items [e] e.1 = 0
        · exact Or.inl h0
        · exact Or.inr (hsum ▸ le_maxWeight_of_carries hfits h0)
    · right; left
      refine ⟨sent_ne_zero_of_not_carries hfits, hheld, ?_, fun j => ?_⟩
      · rw [← hsum, ← not_le]
        exact fun hle => hfits (carries_of_le_maxWeight hle)
      · rw [trip, quantity_take, maxWeight_give, hw, if_neg hfits, hq]
  · have hgive := give_of_not_held hheld
    by_cases hfits : carriesAll items x.maxWeight x.totalWeight [e]
    · right; right
      refine ⟨hheld, ?_, fun j => ?_⟩
      · rw [trip, hgive, totalWeight_take, if_pos hfits]
        refine le_maxWeight_of_carries hfits fun h0 => hheld ?_
        rw [h0]
        exact UInt32.zero_le
      · rw [trip, hgive, quantity_take, if_pos hfits]
    · left
      refine ⟨?_, fun j => ?_, fun h => absurd h hheld⟩
      · rw [trip, hgive, totalWeight_take, if_neg hfits]
      · rw [trip, hgive, quantity_take, if_neg hfits]

noncomputable def goods (items : OrdMap UInt32 ItemData) (x : PlayerEconomyData) : UInt32 :=
  items.sumOver fun i item => item.weight * x.quantity i

theorem goods_add {x y : PlayerEconomyData} {item : ItemData}
    (hi : items.find? e.1 = some item) (hq : ∀ j, e.1 ≠ j → y.quantity j = x.quantity j) :
    goods items y + item.weight * x.quantity e.1 = goods items x + item.weight * y.quantity e.1 :=
  OrdMap.sumOver_congr_off hi fun j _ hj => congrArg _ (hq j hj)

theorem totalWeight_sub_goods_give (x : PlayerEconomyData) (e : UInt32 × UInt32) :
    (x.give items e).totalWeight - goods items (x.give items e) =
      x.totalWeight - goods items x := by
  unfold give
  split
  · rfl
  case h_2 item hi =>
    split
    · rfl
    · have h := goods_add (x := x) (y := x.lose e.1 e.2 (item.weight * e.2)) hi fun j hj => by
        rw [quantity_lose, if_neg hj]
      rw [quantity_lose, if_pos rfl] at h
      have hgoods : goods items (x.lose e.1 e.2 (item.weight * e.2)) =
          goods items x - item.weight * e.2 := by
        rw [eq_sub_of_add_eq h]
        ring
      rw [hgoods, lose]
      ring

theorem totalWeight_sub_goods_take (x : PlayerEconomyData) (e : UInt32 × UInt32) :
    (x.take items e).totalWeight - goods items (x.take items e) =
      x.totalWeight - goods items x := by
  unfold take
  split
  · rfl
  case h_2 item hi =>
    split
    · have h := goods_add (x := x) (y := x.gain e.1 e.2 (item.weight * e.2)) hi fun j hj => by
        rw [quantity_gain, if_neg hj]
      rw [quantity_gain, if_pos rfl] at h
      have hgoods : goods items (x.gain e.1 e.2 (item.weight * e.2)) =
          goods items x + item.weight * e.2 := by
        rw [eq_sub_of_add_eq h]
        ring
      rw [hgoods, gain]
      ring
    · rfl

theorem totalWeight_sub_goods_foldl (items : OrdMap UInt32 ItemData)
    (es : List (UInt32 × UInt32)) (x : PlayerEconomyData) :
    (es.foldl (trip items) x).totalWeight - goods items (es.foldl (trip items) x) =
      x.totalWeight - goods items x := by
  induction es generalizing x with
  | nil => rfl
  | cons e es ih =>
    rw [List.foldl_cons, ih, trip, totalWeight_sub_goods_take, totalWeight_sub_goods_give]

theorem maxWeight_foldl_trip (es : List (UInt32 × UInt32)) (x : PlayerEconomyData) :
    (es.foldl (trip items) x).maxWeight = x.maxWeight := by
  induction es generalizing x with
  | nil => rfl
  | cons e es ih => rw [List.foldl_cons, ih, maxWeight_trip]

theorem quantity_foldl_trip_or (hnodup : (es.map Prod.fst).Nodup) {x : PlayerEconomyData}
    {j : UInt32} (hj : sent items es j ≤ x.quantity j) :
    (es.foldl (trip items) x).quantity j = x.quantity j ∨
      (es.foldl (trip items) x).quantity j = x.quantity j - sent items es j := by
  induction es generalizing x with
  | nil => exact Or.inl rfl
  | cons e es ih =>
    have hes : (es.map Prod.fst).Nodup := (List.nodup_cons.mp hnodup).2
    rw [List.foldl_cons]
    rcases sent_cons items hnodup j with ⟨rfl, h₁, h₂⟩ | ⟨-, h₁, h₂⟩
    · have hlast : (es.foldl (trip items) (x.trip items e)).quantity e.1 =
          (x.trip items e).quantity e.1 := by
        have h0 : sent items es e.1 ≤ (x.trip items e).quantity e.1 := h₁ ▸ UInt32.zero_le
        rcases ih hes h0 with h | h
        · exact h
        · rw [h, h₁, UInt32.sub_zero]
      rw [hlast, h₂]
      rw [h₂] at hj
      rcases trip_cases items x e with ⟨-, h, -⟩ | ⟨-, -, -, h⟩ | ⟨h, -⟩
      · exact Or.inl (h e.1)
      · exact Or.inr (h e.1)
      · exact absurd hj h
    · have hfirst : (x.trip items e).quantity j = x.quantity j := by
        rcases trip_cases items x e with ⟨-, h, -⟩ | ⟨-, -, -, h⟩ | ⟨-, -, h⟩
        · exact h j
        · rw [h, h₁, UInt32.sub_zero]
        · rw [h, h₁, UInt32.add_zero]
      rw [h₂, ← hfirst] at hj ⊢
      exact ih hes hj

theorem foldl_trip_cases (items : OrdMap UInt32 ItemData) (hnodup : (es.map Prod.fst).Nodup)
    (x : PlayerEconomyData) :
    (es.foldl (trip items) x).totalWeight ≤ x.maxWeight ∨
    (∃ j, sent items es j ≠ 0 ∧ sent items es j ≤ x.quantity j ∧
      (es.foldl (trip items) x).quantity j = x.quantity j - sent items es j) ∨
    ((es.foldl (trip items) x).totalWeight = x.totalWeight ∧
      (∀ j, (es.foldl (trip items) x).quantity j = x.quantity j) ∧
      ∀ j, sent items es j ≤ x.quantity j → sent items es j = 0) := by
  induction es generalizing x with
  | nil => exact Or.inr (Or.inr ⟨rfl, fun _ => rfl, fun j _ => by simp [sent, OrdMap.lookup]⟩)
  | cons e es ih =>
    have hes : (es.map Prod.fst).Nodup := (List.nodup_cons.mp hnodup).2
    rw [List.foldl_cons]
    have hrest := ih hes (x.trip items e)
    rw [maxWeight_trip] at hrest
    have hfirst : ∀ j, sent items [e] j = 0 → (x.trip items e).quantity j = x.quantity j := by
      intro j h₁
      rcases trip_cases items x e with ⟨-, h, -⟩ | ⟨-, -, -, h⟩ | ⟨-, -, h⟩
      · exact h j
      · rw [h, h₁, UInt32.sub_zero]
      · rw [h, h₁, UInt32.add_zero]
    rcases hrest with h | ⟨j, hsent, hheld, hq⟩ | ⟨hw, hq, hnone⟩
    · exact Or.inl h
    · right; left
      rcases sent_cons items hnodup j with ⟨-, h₁, -⟩ | ⟨-, h₁, h₂⟩
      · exact absurd h₁ hsent
      · rw [hfirst j h₁] at hheld hq
        exact ⟨j, h₂ ▸ hsent, h₂ ▸ hheld, h₂ ▸ hq⟩
    · rcases trip_cases items x e with ⟨hw', hq', htriv⟩ | ⟨h₀, hle, -, h⟩ | ⟨-, hle, -⟩
      · by_cases hover : x.totalWeight ≤ x.maxWeight
        · exact Or.inl (hw.trans hw' ▸ hover)
        · refine Or.inr (Or.inr ⟨hw.trans hw', fun j => (hq j).trans (hq' j), fun j hj => ?_⟩)
          rcases sent_cons items hnodup j with ⟨rfl, -, h₂⟩ | ⟨-, -, h₂⟩
          · rw [h₂] at hj ⊢
            exact (htriv hj).resolve_right hover
          · rw [h₂] at hj ⊢
            exact hnone j (hq' j ▸ hj)
      · refine Or.inr (Or.inl ⟨e.1, ?_⟩)
        rw [sent_cons_self]
        exact ⟨h₀, hle, (hq e.1).trans (h e.1)⟩
      · exact Or.inl (hw ▸ hle)

theorem foldl_trip_eq (hnodup : (es.map Prod.fst).Nodup) {x : PlayerEconomyData}
    (hheld : ∀ j, sent items es j ≤ x.quantity j)
    (h : x.totalWeight ≤ x.maxWeight ∨ ∀ j, sent items es j = 0) :
    (es.foldl (trip items) x).totalWeight = x.totalWeight ∧
      ∀ j, (es.foldl (trip items) x).quantity j = x.quantity j := by
  induction es generalizing x with
  | nil => exact ⟨rfl, fun _ => rfl⟩
  | cons e es ih =>
    have hes : (es.map Prod.fst).Nodup := (List.nodup_cons.mp hnodup).2
    have hfirst : (x.trip items e).totalWeight = x.totalWeight ∧
        ∀ j, (x.trip items e).quantity j = x.quantity j := by
      have hone := hheld e.1
      have hzero := h.imp_right fun h => h e.1
      rw [sent_cons_self] at hone hzero
      rcases trip_cases items x e with ⟨hw, hq, -⟩ | ⟨h₀, -, hlt, -⟩ | ⟨hno, -, -⟩
      · exact ⟨hw, hq⟩
      · rcases hzero with hle | h0
        · exact absurd hle (not_le.mpr hlt)
        · exact absurd h0 h₀
      · exact absurd hone hno
    have hsent : ∀ j, sent items es j = 0 ∨ sent items es j = sent items (e :: es) j := by
      intro j
      rcases sent_cons items hnodup j with ⟨-, h₁, -⟩ | ⟨-, -, h₂⟩
      · exact Or.inl h₁
      · exact Or.inr h₂.symm
    have hrest := ih hes (x := x.trip items e) (fun j => ?_) ?_
    · exact ⟨hrest.1.trans hfirst.1, fun j => (hrest.2 j).trans (hfirst.2 j)⟩
    · rw [hfirst.2]
      rcases hsent j with h | h
      · exact h ▸ UInt32.zero_le
      · exact h ▸ hheld j
    · rw [hfirst.1, maxWeight_trip]
      refine h.imp_right fun h j => ?_
      rcases hsent j with h' | h'
      · exact h'
      · exact h'.trans (h j)

theorem foldl_trip_trip_iff {es₁ es₂ : List (UInt32 × UInt32)} (h₁ : (es₁.map Prod.fst).Nodup)
    (h₂ : (es₂.map Prod.fst).Nodup) {x : PlayerEconomyData}
    (hheld₁ : ∀ j, sent items es₁ j ≤ x.quantity j)
    (hheld₂ : ∀ j, sent items es₂ j ≤ x.quantity j) :
    (∀ j, (es₂.foldl (trip items) (es₁.foldl (trip items) x)).quantity j = x.quantity j) ↔
      x.totalWeight ≤ x.maxWeight ∨ ∀ j, sent items es₁ j = 0 ∧ sent items es₂ j = 0 := by
  set y := es₁.foldl (trip items) x with hy
  set z := es₂.foldl (trip items) y with hz
  have hgone : ∀ {a b c : UInt32}, a ≠ 0 → a ≤ b → b ≤ c → b - a ≠ c := by
    intro a b c ha hab hbc heq
    have ha' : a.toNat ≠ 0 := fun h => ha (UInt32.toNat_inj.mp h)
    have hsub := Word32.toNat_sub hab
    have hle := UInt32.le_iff_toNat_le.mp hbc
    rw [heq] at hsub
    omega
  constructor
  · intro hback
    have hweight : z.totalWeight = x.totalWeight := by
      have hz' := totalWeight_sub_goods_foldl items es₂ y
      have hy' := totalWeight_sub_goods_foldl items es₁ x
      have hgoods : goods items z = goods items x := by simp only [goods, hback]
      rw [← hy] at hy'
      rw [← hz, hgoods, hy'] at hz'
      exact sub_left_injective hz'
    have hle : ∀ j, y.quantity j ≤ x.quantity j := by
      intro j
      rcases quantity_foldl_trip_or h₁ (hheld₁ j) with h | h
      · exact h.le
      · rw [hy, h]
        exact UInt32.sub_le (hheld₁ j)
    have hmax : y.maxWeight = x.maxWeight := maxWeight_foldl_trip es₁ x
    rcases foldl_trip_cases items h₂ y with h | ⟨j, hj, hheld, hq⟩ | ⟨hw, hq, hnone⟩
    · rw [hmax, ← hz, hweight] at h
      exact Or.inl h
    · exact absurd (hq.symm.trans (hback j)) (hgone hj hheld (hle j))
    · have hyx : ∀ j, y.quantity j = x.quantity j := fun j => (hq j).symm.trans (hback j)
      rcases foldl_trip_cases items h₁ x with h | ⟨j, hj, hheld, hq'⟩ | ⟨-, -, hnone'⟩
      · rw [← hy, ← hw, ← hz, hweight] at h
        exact Or.inl h
      · exact absurd (hq'.symm.trans (hyx j)) (hgone hj hheld le_rfl)
      · exact Or.inr fun j => ⟨hnone' j (hheld₁ j), hnone j (hyx j ▸ hheld₂ j)⟩
  · intro h j
    obtain ⟨hw, hq⟩ := foldl_trip_eq h₁ hheld₁ (h.imp_right fun h j => (h j).1)
    rw [← hy] at hw hq
    have hheld : ∀ j, sent items es₂ j ≤ y.quantity j := fun j => (hq j).symm ▸ hheld₂ j
    have hcond : y.totalWeight ≤ y.maxWeight ∨ ∀ j, sent items es₂ j = 0 := by
      rw [hw, hy, maxWeight_foldl_trip]
      exact h.imp_right fun h j => (h j).2
    exact ((foldl_trip_eq h₂ hheld hcond).2 j).trans (hq j)

end PlayerEconomyData

theorem exchange_words_iff {x₁ x₂ a b z₁ y₂ : UInt32} (ha : a ≤ x₁) (hb : b ≤ x₂)
    (hz₁ : z₁ = x₁ - a ∨ z₁ = x₁ - a + b) (hy₂ : y₂ = x₂ ∨ y₂ = x₂ + a) :
    (z₁.toNat + a.toNat = x₁.toNat + b.toNat ∧
      (if b ≤ y₂ then y₂ - b else y₂).toNat + b.toNat = x₂.toNat + a.toNat) ↔
    (z₁ = x₁ - a + b ∧ y₂ = x₂ + a) ∧
      x₂.toNat + a.toNat < 2 ^ 32 ∧ x₁.toNat + b.toNat < 2 ^ 32 + a.toNat := by
  have hsub := Word32.toNat_sub ha
  have hle := UInt32.le_iff_toNat_le.mp hb
  have hback : (x₁ - a + b).toNat = ((x₁ - a).toNat + b.toNat) % 2 ^ 32 := UInt32.toNat_add ..
  have hin : (x₂ + a).toNat = (x₂.toNat + a.toNat) % 2 ^ 32 := UInt32.toNat_add ..
  have h₁ := Word32.toNat_lt (x₁ - a)
  have h₂ := Word32.toNat_lt x₂
  have h₃ := Word32.toNat_lt a
  have h₄ := Word32.toNat_lt b
  constructor
  · rintro ⟨hfirst, hsecond⟩
    have hz : z₁ = x₁ - a + b ∧ x₁.toNat + b.toNat < 2 ^ 32 + a.toNat := by
      rcases hz₁ with rfl | rfl
      · have hb0 : b.toNat = 0 := by omega
        have : b = 0 := UInt32.toNat_inj.mp hb0
        subst this
        exact ⟨(UInt32.add_zero _).symm, by omega⟩
      · exact ⟨rfl, by omega⟩
    have hy : y₂ = x₂ + a ∧ x₂.toNat + a.toNat < 2 ^ 32 := by
      rcases hy₂ with rfl | rfl
      · rw [if_pos hb, Word32.toNat_sub hb] at hsecond
        have : a = 0 := UInt32.toNat_inj.mp (show a.toNat = 0 by omega)
        subst this
        exact ⟨(UInt32.add_zero _).symm, by omega⟩
      · refine ⟨rfl, ?_⟩
        split at hsecond
        · next hle' =>
          rw [Word32.toNat_sub hle'] at hsecond
          omega
        · omega
    exact ⟨⟨hz.1, hy.1⟩, hy.2, hz.2⟩
  · rintro ⟨⟨rfl, rfl⟩, hx₂, hx₁⟩
    have hle' : b ≤ x₂ + a := UInt32.le_iff_toNat_le.mpr (by omega)
    have hout := Word32.toNat_sub hle'
    rw [if_pos hle']
    omega

namespace PlayerEconomyData
variable {items : OrdMap UInt32 ItemData} {es : List (UInt32 × UInt32)}

theorem swap_sent_iff {es₁ es₂ : List (UInt32 × UInt32)} (h₁ : (es₁.map Prod.fst).Nodup)
    (h₂ : (es₂.map Prod.fst).Nodup) {x₁ x₂ : PlayerEconomyData}
    (hheld₁ : ∀ j, sent items es₁ j ≤ x₁.quantity j)
    (hheld₂ : ∀ j, sent items es₂ j ≤ x₂.quantity j) :
    (∀ j, ((es₂.foldl (take items) (es₁.foldl (give items) x₁)).quantity j).toNat +
          (sent items es₁ j).toNat = (x₁.quantity j).toNat + (sent items es₂ j).toNat ∧
        ((es₂.foldl (give items) (es₁.foldl (take items) x₂)).quantity j).toNat +
          (sent items es₂ j).toNat = (x₂.quantity j).toNat + (sent items es₁ j).toNat) ↔
      carriesAll items x₂.maxWeight x₂.totalWeight es₁ ∧
      carriesAll items x₁.maxWeight (x₁.totalWeight - load items es₁) es₂ ∧
      ∀ j, (x₂.quantity j).toNat + (sent items es₁ j).toNat < 2 ^ 32 ∧
        (x₁.quantity j).toNat + (sent items es₂ j).toNat < 2 ^ 32 + (sent items es₁ j).toNat := by
  have hgave : ∀ j, (es₁.foldl (give items) x₁).quantity j =
      x₁.quantity j - sent items es₁ j := by
    intro j
    rw [quantity_foldl_give h₁, if_pos (hheld₁ j)]
  have htook₁ := quantity_foldl_take_iff items h₂ (es₁.foldl (give items) x₁)
  rw [totalWeight_foldl_give h₁ hheld₁, maxWeight_foldl_give] at htook₁
  rw [← quantity_foldl_take_iff items h₁ x₂, ← htook₁, ← forall_and, ← forall_and]
  refine forall_congr' fun j => ?_
  have htook := quantity_foldl_take_or items h₂ (es₁.foldl (give items) x₁) j
  rw [hgave] at htook ⊢
  rw [quantity_foldl_give h₂]
  rw [exchange_words_iff (hheld₁ j) (hheld₂ j) htook (quantity_foldl_take_or items h₁ x₂ j),
    and_comm (a := _ = x₁.quantity j - _ + _), and_assoc]

theorem quantity_foldl_give_of_sent (h : (es.map Prod.fst).Nodup) {x : PlayerEconomyData}
    {j : UInt32} (hj : sent items es j = 0) :
    (es.foldl (give items) x).quantity j = x.quantity j := by
  rw [quantity_foldl_give h, hj, if_pos UInt32.zero_le, UInt32.sub_zero]

theorem quantity_foldl_take_of_sent (h : (es.map Prod.fst).Nodup) {x : PlayerEconomyData}
    {j : UInt32} (hj : sent items es j = 0) :
    (es.foldl (take items) x).quantity j = x.quantity j := by
  rcases quantity_foldl_take_or items h x j with h | h
  · exact h
  · rw [h, hj, UInt32.add_zero]

theorem pass_giver {a b : UInt32} (h : a ≠ b) : pass items a b a = give items := by
  funext x e
  rw [pass, if_pos rfl, if_neg h.symm]

theorem pass_receiver {a b : UInt32} (h : a ≠ b) : pass items a b b = take items := by
  funext x e
  rw [pass, if_neg h, if_pos rfl]

theorem pass_both (a : UInt32) : pass items a a a = trip items := by
  funext x e
  rw [pass, if_pos rfl, if_pos rfl, trip]

theorem foldl_pass_other {a b p : UInt32} (ha : a ≠ p) (hb : b ≠ p)
    (es : List (UInt32 × UInt32)) (x : PlayerEconomyData) : es.foldl (pass items a b p) x = x := by
  induction es with
  | nil => rfl
  | cons e es ih => rw [List.foldl_cons, pass, if_neg ha, if_neg hb, ih]

end PlayerEconomyData

namespace GlobalEconomy

def offered (p₁ p₂ : UInt32) (is₁ is₂ : OrdMap UInt32 UInt32) (r : Party) (j : UInt32) : ℕ :=
  (if .player p₁ = r then (is₁.getD j 0).toNat else 0) +
    if .player p₂ = r then (is₂.getD j 0).toNat else 0

structure TradeAtomic (s : GlobalEconomy) (p₁ p₂ : UInt32) (is₁ is₂ : OrdMap UInt32 UInt32)
    (r : GlobalEconomy × Bool) : Prop where
  kept : r.2 = false → SameBooks s r.1
  traded : r.2 = true → ∀ a j, (holdings r.1).stock a j + offered p₁ p₂ is₁ is₂ a j =
    (holdings s).stock a j + offered p₂ p₁ is₁ is₂ a j
  conserved : ∀ j, r.1.worldQuantity j = s.worldQuantity j

/-- Two players can swap the stacks: items missing from the table are offered alike on both
sides, each bag takes its stacks in turn, and no quantity wraps. -/
def SwapFits (items : OrdMap UInt32 ItemData) (x₁ x₂ : PlayerEconomyData)
    (is₁ is₂ : OrdMap UInt32 UInt32) : Prop :=
  (∀ j, items.find? j = none → is₁.getD j 0 = is₂.getD j 0) ∧
  carriesAll items x₂.maxWeight x₂.totalWeight is₁.entries ∧
  carriesAll items x₁.maxWeight (x₁.totalWeight - load items is₁.entries) is₂.entries ∧
  ∀ j, (x₂.quantity j).toNat + (sent items is₁.entries j).toNat < 2 ^ 32 ∧
    (x₁.quantity j).toNat + (sent items is₂.entries j).toNat <
      2 ^ 32 + (sent items is₁.entries j).toNat

/-- A player can trade with themselves: not overloaded, or nothing of the table offered. -/
def LoopFits (items : OrdMap UInt32 ItemData) (x : PlayerEconomyData)
    (is₁ is₂ : OrdMap UInt32 UInt32) : Prop :=
  x.totalWeight ≤ x.maxWeight ∨
    ∀ j, sent items is₁.entries j = 0 ∧ sent items is₂.entries j = 0

def TradeFits (s : GlobalEconomy) (p₁ p₂ : UInt32) (is₁ is₂ : OrdMap UInt32 UInt32) : Prop :=
  ∀ x₁ x₂, s.tradingEnabled = true → s.getPlayerEconomy p₁ = some x₁ →
    s.getPlayerEconomy p₂ = some x₂ → s.holdsAll p₁ is₁ = true → s.holdsAll p₂ is₂ = true →
    if p₁ = p₂ then LoopFits s.items x₁ is₁ is₂ else SwapFits s.items x₁ x₂ is₁ is₂

section Trade
variable {s s' : GlobalEconomy} {p₁ p₂ : UInt32} {is₁ is₂ : OrdMap UInt32 UInt32}
  {x x₁ x₂ : PlayerEconomyData}

theorem le_quantity_of_holdsAll {p : UInt32} {is : OrdMap UInt32 UInt32}
    (hp : s.getPlayerEconomy p = some x) (h : s.holdsAll p is = true) (j : UInt32) :
    is.getD j 0 ≤ x.quantity j := by
  rw [OrdMap.getD]
  cases hf : is.find? j with
  | none => exact UInt32.zero_le
  | some q =>
    have he := List.all_eq_true.mp h (j, q) (OrdMap.find?_eq_some_iff.mp hf)
    rw [getItemQuantity_eq hp, decide_eq_true_eq, not_lt] at he
    exact he

theorem sent_le_getD (items : OrdMap UInt32 ItemData) (is : OrdMap UInt32 UInt32) (j : UInt32) :
    sent items is.entries j ≤ is.getD j 0 := by
  rw [sent]
  split
  · exact UInt32.zero_le
  · exact le_rfl

theorem nodup_keys (is : OrdMap UInt32 UInt32) : (is.entries.map Prod.fst).Nodup :=
  (List.pairwise_map.mpr is.sorted).imp ne_of_lt

theorem sum_offered (hp₁ : s.getPlayerEconomy p₁ = some x₁) (hp₂ : s.getPlayerEconomy p₂ = some x₂)
    (is₁ is₂ : OrdMap UInt32 UInt32) (j : UInt32) :
    ∑ r ∈ s.parties, offered p₁ p₂ is₁ is₂ r j = (is₁.getD j 0).toNat + (is₂.getD j 0).toNat := by
  simp only [offered]
  rw [Finset.sum_add_distrib, Finset.sum_ite_eq, Finset.sum_ite_eq, if_pos (mem_parties_player hp₁),
    if_pos (mem_parties_player hp₂)]

theorem worldQuantity_eq_of_traded (hkeys : s'.parties = s.parties)
    (hp₁ : s.getPlayerEconomy p₁ = some x₁) (hp₂ : s.getPlayerEconomy p₂ = some x₂) {j : UInt32}
    (h : ∀ r, (holdings s').stock r j + offered p₁ p₂ is₁ is₂ r j =
      (holdings s).stock r j + offered p₂ p₁ is₁ is₂ r j) :
    s'.worldQuantity j = s.worldQuantity j := by
  have hsum := Finset.sum_congr (rfl : s.parties = s.parties) fun r _ => h r
  rw [Finset.sum_add_distrib, Finset.sum_add_distrib, sum_offered hp₁ hp₂, sum_offered hp₂ hp₁]
    at hsum
  rw [worldQuantity, worldQuantity, hkeys]
  exact Nat.add_right_cancel hsum

def swapped (s : GlobalEconomy) (p₁ p₂ : UInt32) (is₁ is₂ : OrdMap UInt32 UInt32) :
    GlobalEconomy :=
  is₂.entries.foldl (moveItem p₂ p₁) (is₁.entries.foldl (moveItem p₁ p₂) s)

theorem getPlayerEconomy_swapped (s : GlobalEconomy) (p₁ p₂ p : UInt32)
    (is₁ is₂ : OrdMap UInt32 UInt32) : (s.swapped p₁ p₂ is₁ is₂).getPlayerEconomy p =
      (s.getPlayerEconomy p).map fun x =>
        is₂.entries.foldl (PlayerEconomyData.pass s.items p₂ p₁ p)
          (is₁.entries.foldl (PlayerEconomyData.pass s.items p₁ p₂ p) x) := by
  rw [swapped, getPlayerEconomy_foldl_moveItem, getPlayerEconomy_foldl_moveItem, Option.map_map,
    (foldl_moveItem_frame p₁ p₂ is₁.entries s).1]
  rfl

theorem merchants_swapped : (s.swapped p₁ p₂ is₁ is₂).merchants = s.merchants :=
  (foldl_moveItem_frame ..).2.trans (foldl_moveItem_frame ..).2

theorem parties_swapped : (s.swapped p₁ p₂ is₁ is₂).parties = s.parties := by
  have hkeys : (s.swapped p₁ p₂ is₁ is₂).playerEconomies.keys = s.playerEconomies.keys := by
    ext p
    have h := getPlayerEconomy_swapped s p₁ p₂ p is₁ is₂
    rw [OrdMap.mem_keys, OrdMap.mem_keys]
    rw [getPlayerEconomy, getPlayerEconomy] at h
    rw [h, Ne, Option.map_eq_none_iff]
  rw [parties, hkeys, merchants_swapped, parties]

theorem getItemQuantity_swapped_other {p : UInt32} (h₁ : p₁ ≠ p) (h₂ : p₂ ≠ p) (j : UInt32) :
    (s.swapped p₁ p₂ is₁ is₂).getItemQuantity p j = s.getItemQuantity p j := by
  have h := getPlayerEconomy_swapped s p₁ p₂ p is₁ is₂
  simp only [PlayerEconomyData.foldl_pass_other h₁ h₂, PlayerEconomyData.foldl_pass_other h₂ h₁,
    Option.map_id'] at h
  rw [getItemQuantity, getItemQuantity, h]

theorem stock_swapped_merchant (m j : UInt32) :
    (holdings (s.swapped p₁ p₂ is₁ is₂)).stock (.merchant m) j =
      (holdings s).stock (.merchant m) j := by
  simp only [holdings, merchantQuantity, getMerchant, merchants_swapped]

theorem swapped_loop_iff (hp : s.getPlayerEconomy p₁ = some x)
    (h₁ : s.holdsAll p₁ is₁ = true) (h₂ : s.holdsAll p₁ is₂ = true) :
    (∀ r j, (holdings (s.swapped p₁ p₁ is₁ is₂)).stock r j + offered p₁ p₁ is₁ is₂ r j =
      (holdings s).stock r j + offered p₁ p₁ is₁ is₂ r j) ↔ LoopFits s.items x is₁ is₂ := by
  have hheld₁ j := (sent_le_getD s.items is₁ j).trans (le_quantity_of_holdsAll hp h₁ j)
  have hheld₂ j := (sent_le_getD s.items is₂ j).trans (le_quantity_of_holdsAll hp h₂ j)
  rw [LoopFits, ← PlayerEconomyData.foldl_trip_trip_iff (nodup_keys is₁) (nodup_keys is₂) hheld₁
    hheld₂]
  have hswapped := getPlayerEconomy_swapped s p₁ p₁ p₁ is₁ is₂
  rw [hp, Option.map_some, PlayerEconomyData.pass_both] at hswapped
  simp only [Nat.add_right_cancel_iff]
  constructor
  · intro h j
    have hj := h (.player p₁) j
    rwa [holdings, holdings, UInt32.toNat_inj, getItemQuantity_eq hswapped,
      getItemQuantity_eq hp] at hj
  · intro h r j
    cases r with
    | merchant m => exact stock_swapped_merchant m j
    | player p =>
      rw [holdings, holdings, UInt32.toNat_inj]
      by_cases hpp : p₁ = p
      · subst hpp
        rw [getItemQuantity_eq hswapped, h, getItemQuantity_eq hp]
      · exact getItemQuantity_swapped_other hpp hpp j

theorem traded_two_iff (hne : p₁ ≠ p₂) (hp₁ : s.getPlayerEconomy p₁ = some x₁)
    (hp₂ : s.getPlayerEconomy p₂ = some x₂) {z₁ z₂ : PlayerEconomyData}
    (hs₁ : (s.swapped p₁ p₂ is₁ is₂).getPlayerEconomy p₁ = some z₁)
    (hs₂ : (s.swapped p₁ p₂ is₁ is₂).getPlayerEconomy p₂ = some z₂) :
    (∀ r j, (holdings (s.swapped p₁ p₂ is₁ is₂)).stock r j + offered p₁ p₂ is₁ is₂ r j =
      (holdings s).stock r j + offered p₂ p₁ is₁ is₂ r j) ↔
      ∀ j, (z₁.quantity j).toNat + (is₁.getD j 0).toNat =
          (x₁.quantity j).toNat + (is₂.getD j 0).toNat ∧
        (z₂.quantity j).toNat + (is₂.getD j 0).toNat =
          (x₂.quantity j).toNat + (is₁.getD j 0).toNat := by
  constructor
  · intro h j
    have ha := h (.player p₁) j
    have hb := h (.player p₂) j
    simp only [holdings, getItemQuantity_eq hs₁, getItemQuantity_eq hp₁, offered,
      Party.player.injEq, hne.symm, if_true, if_false, add_zero, zero_add] at ha
    simp only [holdings, getItemQuantity_eq hs₂, getItemQuantity_eq hp₂, offered,
      Party.player.injEq, hne, if_true, if_false, add_zero, zero_add] at hb
    exact ⟨ha, hb⟩
  · intro h r j
    cases r with
    | merchant m => simp [stock_swapped_merchant, offered]
    | player p =>
      simp only [holdings, offered, Party.player.injEq]
      by_cases ha : p₁ = p
      · subst ha
        simpa [getItemQuantity_eq hs₁, getItemQuantity_eq hp₁, hne.symm] using (h j).1
      · by_cases hb : p₂ = p
        · subst hb
          simpa [getItemQuantity_eq hs₂, getItemQuantity_eq hp₂, hne] using (h j).2
        · simp [getItemQuantity_swapped_other ha hb, ha, hb]

theorem swapped_two_iff (hne : p₁ ≠ p₂) (hp₁ : s.getPlayerEconomy p₁ = some x₁)
    (hp₂ : s.getPlayerEconomy p₂ = some x₂) (h₁ : s.holdsAll p₁ is₁ = true)
    (h₂ : s.holdsAll p₂ is₂ = true) :
    (∀ r j, (holdings (s.swapped p₁ p₂ is₁ is₂)).stock r j + offered p₁ p₂ is₁ is₂ r j =
      (holdings s).stock r j + offered p₂ p₁ is₁ is₂ r j) ↔ SwapFits s.items x₁ x₂ is₁ is₂ := by
  have hheld₁ j := (sent_le_getD s.items is₁ j).trans (le_quantity_of_holdsAll hp₁ h₁ j)
  have hheld₂ j := (sent_le_getD s.items is₂ j).trans (le_quantity_of_holdsAll hp₂ h₂ j)
  have hs₁ := getPlayerEconomy_swapped s p₁ p₂ p₁ is₁ is₂
  have hs₂ := getPlayerEconomy_swapped s p₁ p₂ p₂ is₁ is₂
  rw [hp₁, Option.map_some, PlayerEconomyData.pass_giver hne,
    PlayerEconomyData.pass_receiver hne.symm] at hs₁
  rw [hp₂, Option.map_some, PlayerEconomyData.pass_receiver hne,
    PlayerEconomyData.pass_giver hne.symm] at hs₂
  rw [traded_two_iff hne hp₁ hp₂ hs₁ hs₂, SwapFits,
    ← PlayerEconomyData.swap_sent_iff (nodup_keys is₁) (nodup_keys is₂) hheld₁ hheld₂,
    ← forall_and]
  refine forall_congr' fun j => ?_
  by_cases hi : s.items.find? j = none
  · have hno₁ : sent s.items is₁.entries j = 0 := if_pos hi
    have hno₂ : sent s.items is₂.entries j = 0 := if_pos hi
    rw [PlayerEconomyData.quantity_foldl_take_of_sent (nodup_keys is₂) hno₂,
      PlayerEconomyData.quantity_foldl_give_of_sent (nodup_keys is₁) hno₁,
      PlayerEconomyData.quantity_foldl_give_of_sent (nodup_keys is₂) hno₂,
      PlayerEconomyData.quantity_foldl_take_of_sent (nodup_keys is₁) hno₁, hno₁, hno₂]
    constructor
    · intro h
      exact ⟨fun _ => UInt32.toNat_inj.mp (by omega), rfl, rfl⟩
    · intro h
      rw [h.1 hi]
      exact ⟨rfl, rfl⟩
  · rw [show sent s.items is₁.entries j = is₁.getD j 0 from if_neg hi,
      show sent s.items is₂.entries j = is₂.getD j 0 from if_neg hi]
    exact ⟨fun h => ⟨fun hno => absurd hno hi, h⟩, fun h => h.2⟩

theorem tradeAtomic_of_unchanged :
    TradeAtomic s p₁ p₂ is₁ is₂ (s, false) :=
  ⟨fun _ => SameBooks.refl s, fun h => absurd h Bool.false_ne_true, fun _ => rfl⟩

theorem tradeAtomic_swapped_iff (hp₁ : s.getPlayerEconomy p₁ = some x₁)
    (hp₂ : s.getPlayerEconomy p₂ = some x₂) (h₁ : s.holdsAll p₁ is₁ = true)
    (h₂ : s.holdsAll p₂ is₂ = true) :
    TradeAtomic s p₁ p₂ is₁ is₂ (s.swapped p₁ p₂ is₁ is₂, true) ↔
      if p₁ = p₂ then LoopFits s.items x₁ is₁ is₂ else SwapFits s.items x₁ x₂ is₁ is₂ := by
  have htraded : TradeAtomic s p₁ p₂ is₁ is₂ (s.swapped p₁ p₂ is₁ is₂, true) ↔
      ∀ r j, (holdings (s.swapped p₁ p₂ is₁ is₂)).stock r j + offered p₁ p₂ is₁ is₂ r j =
        (holdings s).stock r j + offered p₂ p₁ is₁ is₂ r j :=
    ⟨fun h => h.traded rfl, fun h => ⟨fun hf => absurd hf.symm Bool.false_ne_true, fun _ => h,
      fun j => worldQuantity_eq_of_traded parties_swapped hp₁ hp₂ fun r => h r j⟩⟩
  rw [htraded]
  split
  case isTrue heq =>
    subst heq
    exact swapped_loop_iff hp₁ h₁ h₂
  case isFalse hne => exact swapped_two_iff hne hp₁ hp₂ h₁ h₂

end Trade

/-- A trade is all-or-nothing exactly when its validation turns it down or its loops fit. -/
theorem tradeItems_atomic_iff (s : GlobalEconomy) (p₁ p₂ : UInt32)
    (is₁ is₂ : OrdMap UInt32 UInt32) :
    TradeAtomic s p₁ p₂ is₁ is₂ (s.tradeItems p₁ p₂ is₁ is₂) ↔ TradeFits s p₁ p₂ is₁ is₂ := by
  rcases tradeItems_cases s p₁ p₂ is₁ is₂ with ⟨hr, hrejected⟩ | ⟨x₁, x₂, hon, hp₁, hp₂, h₁, h₂, hr⟩
  · rw [hr]
    refine iff_of_true tradeAtomic_of_unchanged fun x₁ x₂ hon hp₁ hp₂ h₁ h₂ => ?_
    exact absurd h₂ (hrejected x₁ x₂ hon hp₁ hp₂ h₁)
  rw [hr]
  refine (tradeAtomic_swapped_iff hp₁ hp₂ h₁ h₂).trans ?_
  constructor
  · intro h y₁ y₂ _ hy₁ hy₂ _ _
    rw [hp₁, Option.some.injEq] at hy₁
    rw [hp₂, Option.some.injEq] at hy₂
    exact hy₁ ▸ hy₂ ▸ h
  · exact fun h => h x₁ x₂ hon hp₁ hp₂ h₁ h₂

def armed : GlobalEconomy := (market.buyItem (fun n => n.toNat) 1 3 7 2).1

theorem not_tradeAtomic_armed :
    ¬ TradeAtomic armed 1 2 (.ofList [(7, 2), (8, 5)]) .empty
      (armed.tradeItems 1 2 (.ofList [(7, 2), (8, 5)]) .empty) := by
  intro h
  have hlost := h.conserved 8
  revert hlost
  decide +kernel

end GlobalEconomy
end WitcherMP.Economy
