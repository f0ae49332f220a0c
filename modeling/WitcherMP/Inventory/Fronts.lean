import WitcherMP.Inventory.Worn

/-! Which stack of an item an unequip call finds: the first one, which is the one that is worn
unless an earlier slot has been emptied and filled again. -/

namespace WitcherMP.Inventory.InventorySystem

/-- No unmarked stack of the item stands in front of a marked one. -/
def WornInFront (itemId : CName) (slots : List InventorySlot) : Prop :=
  slots.Pairwise fun a b => a.holds itemId → b.holds itemId → b.isEquipped → a.isEquipped

section Found
variable {slots : List InventorySlot} {itemId : CName} {sys : InventorySystem}

theorem findItemSlot_split {i : ℕ} (h : findItemSlot slots itemId = some i) :
    ∃ pre slot post, slots = pre ++ slot :: post ∧ pre.length = i ∧ slot.holds itemId = true ∧
      ∀ a ∈ pre, ¬ a.holds itemId = true := by
  induction slots generalizing i with
  | nil => cases h
  | cons first slots ih =>
    rw [findItemSlot, List.findIdx?_cons] at h
    split at h
    · next hfirst =>
      obtain rfl : 0 = i := Option.some.inj h
      exact ⟨[], first, slots, rfl, rfl, hfirst, fun a ha => absurd ha List.not_mem_nil⟩
    · next hfirst =>
      obtain ⟨j, hj, rfl⟩ := Option.map_eq_some_iff.mp h
      obtain ⟨pre, slot, post, rfl, rfl, hslot, hpre⟩ := ih hj
      exact ⟨first :: pre, slot, post, rfl, rfl, hslot, List.forall_mem_cons.mpr ⟨hfirst, hpre⟩⟩

theorem modify_split {α : Type} (f : α → α) (pre : List α) (a : α) (post : List α) :
    (pre ++ a :: post).modify pre.length f = pre ++ f a :: post := by
  induction pre with
  | nil => rfl
  | cons b pre ih => rw [List.cons_append, List.length_cons, List.modify_succ_cons, ih]; rfl

theorem unequipItem_of_split {pre post : List InventorySlot} {slot : InventorySlot}
    (hsplit : sys.inventorySlots = pre ++ slot :: post)
    (h : findItemSlot sys.inventorySlots itemId = some pre.length) :
    ((sys.unequipItem itemId).result = slot.isEquipped) ∧
      (slot.isEquipped = true → (sys.unequipItem itemId).system.inventorySlots =
        pre ++ { slot with isEquipped := false } :: post) := by
  have hget : sys.inventorySlots[pre.length]? = some slot := by
    rw [hsplit, List.getElem?_append_right le_rfl, Nat.sub_self, List.getElem?_cons_zero]
  rw [unequipItem, h]
  dsimp only
  rw [hget]
  dsimp only
  cases hmarked : slot.isEquipped with
  | false => exact ⟨rfl, fun h => absurd h Bool.false_ne_true⟩
  | true =>
    refine ⟨rfl, fun _ => ?_⟩
    rw [hsplit]
    exact modify_split (fun slot => { slot with isEquipped := false }) pre slot post

end Found

section Front
variable {slots pre post : List InventorySlot} {slot : InventorySlot} {itemId : CName}

theorem wornInFront_of_unmarked
    (h : ∀ b ∈ slots, b.holds itemId = true → b.isEquipped = false) : WornInFront itemId slots :=
  List.pairwise_of_forall_mem_list fun _ _ b hb _ hholds hmarked =>
    absurd ((h b hb hholds).symm.trans hmarked) Bool.false_ne_true

theorem wornInFront_split_iff (hslot : slot.holds itemId = true)
    (hpre : ∀ a ∈ pre, ¬ a.holds itemId = true) :
    WornInFront itemId (pre ++ slot :: post) ↔
      ((∃ b ∈ post, b.holds itemId = true ∧ b.isEquipped = true) → slot.isEquipped = true) ∧
        WornInFront itemId post := by
  have hbefore : WornInFront itemId pre :=
    wornInFront_of_unmarked fun a ha hholds => absurd hholds (hpre a ha)
  unfold WornInFront at hbefore ⊢
  rw [List.pairwise_append, List.pairwise_cons]
  constructor
  · rintro ⟨-, ⟨hfirst, hpost⟩, -⟩
    refine ⟨?_, hpost⟩
    rintro ⟨b, hb, hholds, hmarked⟩
    exact hfirst b hb hslot hholds hmarked
  · rintro ⟨hfirst, hpost⟩
    refine ⟨hbefore, ⟨fun b hb _ hholds hmarked => hfirst ⟨b, hb, hholds, hmarked⟩, hpost⟩, ?_⟩
    exact fun a ha b _ hholds => absurd hholds (hpre a ha)

end Front

section Marked
variable {sys : InventorySystem} {itemId : CName} {pre post : List InventorySlot}
  {slot : InventorySlot}

theorem exists_item_of_holds (h : slot.holds itemId = true) :
    ∃ item, slot.item = some item ∧ item.id = itemId := by
  rw [InventorySlot.holds, Bool.and_eq_true, Option.any_eq_true] at h
  obtain ⟨item, hitem, hid⟩ := h.2
  exact ⟨item, hitem, of_decide_eq_true hid⟩

theorem wears_of_holds (h : slot.holds itemId = true) (hmarked : slot.isEquipped = true)
    {item : ItemData} (hitem : slot.item = some item) : wears item.category slot = true := by
  rw [wears, isEmpty_of_holds h, hmarked, hitem]
  simp

theorem Dressed.marked_once (h : sys.Dressed) (hsplit : sys.inventorySlots = pre ++ slot :: post)
    (hslot : slot.holds itemId = true) (hmarked : slot.isEquipped = true) :
    ∀ b ∈ post, b.holds itemId = true → b.isEquipped = false := by
  intro b hb hholds
  by_contra hb'
  rw [Bool.not_eq_false] at hb'
  have hmem : slot ∈ sys.inventorySlots := hsplit ▸ List.mem_append_right _ (List.mem_cons_self ..)
  have hmem' : b ∈ sys.inventorySlots :=
    hsplit ▸ List.mem_append_right _ (List.mem_cons_of_mem _ hb)
  obtain ⟨item, hitem, hid⟩ := exists_item_of_holds hslot
  obtain ⟨item', hitem', hid'⟩ := exists_item_of_holds hholds
  have hknown := (h.tidy slot hmem).known item hitem
  have hknown' := (h.tidy b hmem').known item' hitem'
  rw [hid] at hknown
  rw [hid', hknown] at hknown'
  obtain rfl := Option.some.inj hknown'
  have hone : sys.inventorySlots.countP (wears item.category) ≤ 1 := by
    rw [countP_wears]
    exact Multiset.nodup_iff_count_le_one.mp h.once item.category
  have hfirst := wears_of_holds hslot hmarked hitem
  have hsecond : 0 < post.countP (wears item.category) :=
    List.countP_pos_iff.mpr ⟨b, hb, wears_of_holds hholds hb' hitem'⟩
  rw [hsplit, List.countP_append, List.countP_cons_of_pos hfirst] at hone
  omega

end Marked

section Unequip
variable {sys : InventorySystem} {itemId : CName}

def Wearing (sys : InventorySystem) (itemId : CName) : Prop :=
  ∃ slot ∈ sys.inventorySlots, slot.holds itemId = true ∧ slot.isEquipped = true

def ComesOff (sys : InventorySystem) (itemId : CName) : Prop :=
  (sys.unequipItem itemId).result = true ∧ ¬ Wearing (sys.unequipItem itemId).system itemId

theorem Dressed.unequipItem_iff (h : sys.Dressed) (itemId : CName) :
    (Wearing sys itemId → ComesOff sys itemId) ↔ WornInFront itemId sys.inventorySlots := by
  cases hfound : findItemSlot sys.inventorySlots itemId with
  | none =>
    have hnone : ∀ slot ∈ sys.inventorySlots, ¬ slot.holds itemId = true := by
      intro slot hslot hholds
      have hfalse := List.findIdx?_eq_none_iff.mp hfound slot hslot
      exact absurd (hholds.symm.trans hfalse) (by decide)
    refine iff_of_true (fun hwearing => ?_) ?_
    · obtain ⟨slot, hslot, hholds, -⟩ := hwearing
      exact absurd hholds (hnone slot hslot)
    · exact wornInFront_of_unmarked fun slot hslot hholds => absurd hholds (hnone slot hslot)
  | some i =>
    obtain ⟨pre, slot, post, hsplit, rfl, hslot, hpre⟩ := findItemSlot_split hfound
    obtain ⟨hresult, hslots⟩ := unequipItem_of_split hsplit hfound
    rw [hsplit, wornInFront_split_iff hslot hpre]
    cases hmarked : slot.isEquipped with
    | true =>
      have honce := h.marked_once hsplit hslot hmarked
      refine iff_of_true (fun _ => ⟨hresult.trans hmarked, ?_⟩)
        ⟨fun _ => rfl, wornInFront_of_unmarked honce⟩
      rintro ⟨b, hb, hholds, hb'⟩
      rw [hslots hmarked] at hb
      rcases List.mem_append.mp hb with hb | hb
      · exact hpre b hb hholds
      rcases List.mem_cons.mp hb with rfl | hb
      · exact Bool.false_ne_true hb'
      · exact Bool.false_ne_true ((honce b hb hholds).symm.trans hb')
    | false =>
      have hrefused : ¬ ComesOff sys itemId := fun hoff =>
        Bool.false_ne_true ((hresult.trans hmarked).symm.trans hoff.1)
      constructor
      · intro hoff
        have hnot : ¬ Wearing sys itemId := fun hwearing => hrefused (hoff hwearing)
        have hpost : ∀ b ∈ post, b.holds itemId = true → b.isEquipped = false := by
          intro b hb hholds
          by_contra hb'
          rw [Bool.not_eq_false] at hb'
          exact hnot ⟨b, hsplit ▸ List.mem_append_right _ (List.mem_cons_of_mem _ hb), hholds, hb'⟩
        refine ⟨fun hlater => ?_, wornInFront_of_unmarked hpost⟩
        obtain ⟨b, hb, hholds, hb'⟩ := hlater
        exact (hpost b hb hholds).symm.trans hb'
      · rintro ⟨hlater, -⟩ ⟨b, hb, hholds, hb'⟩
        rw [hsplit] at hb
        rcases List.mem_append.mp hb with hb | hb
        · exact absurd hholds (hpre b hb)
        rcases List.mem_cons.mp hb with rfl | hb
        · exact absurd (hmarked.symm.trans hb') Bool.false_ne_true
        · exact absurd (hlater ⟨b, hb, hholds, hb'⟩) Bool.false_ne_true

/-- In whatever state calls have led to, an item that is worn comes off just if no unmarked stack
of it stands in front of the marked one. -/
theorem run_unequipItem_iff {items : List ItemData} {ops : List Op}
    (hrun : ops.foldlM step (initializeSystem items) = some sys) (itemId : CName) :
    (Wearing sys itemId → ComesOff sys itemId) ↔ WornInFront itemId sys.inventorySlots := by
  refine Dressed.unequipItem_iff ?_ itemId
  refine Run.invariant_foldlM (fun sys op sys' h hstep => ?_) (dressed_initializeSystem items) hrun
  obtain ⟨o, ho, rfl⟩ := Option.map_eq_some_iff.mp hstep
  exact (dressed_call h ho).2

theorem run_unequipItem_iff_sword :
    ∃ sys, [Op.add "steel_sword_basic" 1, .equip "steel_sword_basic"].foldlM step
        (initializeSystem initializeItemsDatabase) = some sys ∧
      ((Wearing sys "steel_sword_basic" → ComesOff sys "steel_sword_basic") ↔
        WornInFront "steel_sword_basic" sys.inventorySlots) := by
  cases hrun : [Op.add "steel_sword_basic" 1, .equip "steel_sword_basic"].foldlM step
      (initializeSystem initializeItemsDatabase) with
  | none => exact absurd (congrArg Option.isSome hrun) (by decide +kernel)
  | some sys => exact ⟨sys, rfl, run_unequipItem_iff hrun "steel_sword_basic"⟩

theorem not_run_unequipItem :
    ¬ ∀ (ops : List Op) (sys : InventorySystem) (itemId : CName),
      ops.foldlM step (initializeSystem initializeItemsDatabase) = some sys →
        Wearing sys itemId → ComesOff sys itemId := by
  intro hoff
  let ops : List Op := [.add "dagger_basic" 1, .add "steel_sword_basic" 1,
    .equip "steel_sword_basic", .remove "dagger_basic" 1, .add "steel_sword_basic" 1]
  have hfinal : (ops.foldlM step (initializeSystem initializeItemsDatabase)).map (fun sys =>
      (sys.inventorySlots.any (fun slot => slot.holds "steel_sword_basic" && slot.isEquipped),
        (sys.unequipItem "steel_sword_basic").result)) = some (true, false) := by
    decide +kernel
  obtain ⟨sys, hrun, hsys⟩ := Option.map_eq_some_iff.mp hfinal
  obtain ⟨hany, hresult⟩ := Prod.mk.inj hsys
  obtain ⟨slot, hslot, hworn⟩ := List.any_eq_true.mp hany
  rw [Bool.and_eq_true] at hworn
  have hcomes := (hoff ops sys "steel_sword_basic" hrun ⟨slot, hslot, hworn⟩).1
  exact Bool.false_ne_true (hresult.symm.trans hcomes)

end Unequip
end WitcherMP.Inventory.InventorySystem
