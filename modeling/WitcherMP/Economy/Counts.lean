import WitcherMP.Economy.System

/-! Ids and counts of the items and the merchants: they are right as long as nothing is added
under an id in use. -/

namespace WitcherMP.Economy.EconomySystem

def Counted (s : EconomySystem) : Prop :=
  s.stats.totalItems.toNat = s.items.size ∧ s.stats.activeMerchants.toNat = s.merchants.size

instance (s : EconomySystem) : Decidable (Counted s) := inferInstanceAs (Decidable (_ ∧ _))

def Assigns (s : EconomySystem) : Registration → Prop
  | .addItem item => s.initialized → item.itemId = 0 → ∃ id, s.items.find? id = none ∧
    (s.addItem item).items = s.items.insert id { item with itemId := id }
  | .addMerchant merchant => s.initialized → merchant.merchantId = 0 →
    ∃ id, s.merchants.find? id = none ∧
      (s.addMerchant merchant).merchants = s.merchants.insert id { merchant with merchantId := id }
  | .removeItem _ => True
  | .removeMerchant _ => True

/-- The id that a call adds under is free, and there is room for another entry. -/
def Vacant (s : EconomySystem) : Registration → Prop
  | .addItem item => s.initialized →
    s.items.find? (assignedId item.itemId s.nextItemId) = none ∧ s.items.size + 1 < 2 ^ 32
  | .addMerchant merchant => s.initialized →
    s.merchants.find? (assignedId merchant.merchantId s.nextMerchantId) = none ∧
      s.merchants.size + 1 < 2 ^ 32
  | .removeItem _ => True
  | .removeMerchant _ => True

section Counter
variable {α : Type*} {m : OrdMap UInt32 α} {count : UInt32}

theorem counted_insert_iff (h : count.toNat = m.size) (k : UInt32) (v : α) :
    (count + 1).toNat = (m.insert k v).size ↔ m.find? k = none ∧ m.size + 1 < 2 ^ 32 := by
  have hlt := count.toNat_lt
  rw [UInt32.toNat_add, UInt32.toNat_one]
  cases hk : m.find? k with
  | none =>
    rw [OrdMap.size_insert_new hk]
    simp only [true_and]
    omega
  | some w =>
    rw [OrdMap.size_insert_old hk]
    refine iff_of_false ?_ fun h => Option.some_ne_none w h.1
    omega

theorem counted_erase (h : count.toNat = m.size) {k : UInt32} {v : α} (hk : m.find? k = some v) :
    (count - 1).toNat = (m.erase k).size := by
  have hsize := OrdMap.size_erase hk
  have hpred := Word32.toNat_pred (a := count) (by omega)
  omega

end Counter

variable {s : EconomySystem}

theorem counted_addItem_iff (h : Counted s) (item : ItemData) :
    Counted (s.addItem item) ↔ Vacant s (.addItem item) := by
  unfold addItem
  split_ifs with hinit
  · have hadd := counted_insert_iff h.1 (assignedId item.itemId s.nextItemId)
      { item with itemId := assignedId item.itemId s.nextItemId }
    constructor
    · exact fun hc _ => hadd.mp hc.1
    · exact fun hv => ⟨hadd.mpr (hv hinit), h.2⟩
  · exact iff_of_true h fun hi => absurd hi hinit

theorem counted_addMerchant_iff (h : Counted s) (merchant : MerchantData) :
    Counted (s.addMerchant merchant) ↔ Vacant s (.addMerchant merchant) := by
  unfold addMerchant
  split_ifs with hinit
  · have hadd := counted_insert_iff h.2 (assignedId merchant.merchantId s.nextMerchantId)
      { merchant with merchantId := assignedId merchant.merchantId s.nextMerchantId }
    constructor
    · exact fun hc _ => hadd.mp hc.2
    · exact fun hv => ⟨h.1, hadd.mpr (hv hinit)⟩
  · exact iff_of_true h fun hi => absurd hi hinit

theorem counted_register_iff (h : Counted s) (call : Registration) :
    Counted (s.register call) ↔ Vacant s call := by
  cases call with
  | addItem item => exact counted_addItem_iff h item
  | addMerchant merchant => exact counted_addMerchant_iff h merchant
  | removeItem i =>
    refine iff_of_true ?_ trivial
    rw [register, removeItem]
    cases hi : s.items.find? i with
    | none => exact h
    | some item => exact ⟨counted_erase h.1 hi, h.2⟩
  | removeMerchant m =>
    refine iff_of_true ?_ trivial
    rw [register, removeMerchant]
    cases hm : s.merchants.find? m with
    | none => exact h
    | some merchant => exact ⟨h.1, counted_erase h.2 hm⟩

theorem assigns_of_vacant {call : Registration} (h : Vacant s call) : Assigns s call := by
  cases call with
  | addItem item =>
    intro hinit hzero
    have hid : assignedId item.itemId s.nextItemId = s.nextItemId := if_pos hzero
    refine ⟨s.nextItemId, hid ▸ (h hinit).1, ?_⟩
    rw [addItem, if_neg (not_not.mpr hinit), hid]
  | addMerchant merchant =>
    intro hinit hzero
    have hid : assignedId merchant.merchantId s.nextMerchantId = s.nextMerchantId := if_pos hzero
    refine ⟨s.nextMerchantId, hid ▸ (h hinit).1, ?_⟩
    rw [addMerchant, if_neg (not_not.mpr hinit), hid]
  | removeItem i => trivial
  | removeMerchant m => trivial

/-- The calls of a run all find a free id for 0 and leave the counts right exactly if none of
them adds under an id in use, be it chosen by the caller or by the counter. -/
theorem registered_iff (initialized : Bool) (calls : List Registration) :
    Run.Along register (fun s call => Assigns s call ∧ Counted (s.register call))
        (initial initialized) calls ↔
      Run.Along register Vacant (initial initialized) calls := by
  refine Run.along_congr_of_step (I := Counted) (fun s call h => ?_) ⟨rfl, rfl⟩
  have hiff := counted_register_iff h call
  refine ⟨⟨fun hq => hiff.mp hq.2, fun hv => ⟨assigns_of_vacant hv, hiff.mpr hv⟩⟩, hiff.mpr⟩

theorem not_registered_collision :
    ¬ Run.Along register (fun s call => Assigns s call ∧ Counted (s.register call)) (initial true)
      [.addItem ⟨1, 50, 10, true⟩, .addItem ⟨0, 5, 2, true⟩] := by
  intro h
  have hcounted := h.2.1.2
  revert hcounted
  decide +kernel

end WitcherMP.Economy.EconomySystem
