import WitcherMP.Lib.Bag
import WitcherMP.Lib.WeakOrders
import Mathlib.Logic.Equiv.Basic

/-! Priority queues that are ordered by a comparator, and the binary heap as the standard library
keeps it. Where several entries may be on top, the order of arrival says nothing. -/

namespace WitcherMP

open WeakOrders

/-- The comparator orders the elements weakly. -/
def Comparable {α : Type} (comp : α → α → Bool) (s : Multiset α) : Prop :=
  WeakOn (fun a b => comp a b = true) {a | a ∈ s}

/-- What a priority queue promises: as long as the comparator orders its elements weakly, none is
above the top. -/
class StdQueue {α : outParam Type} (comp : outParam (α → α → Bool)) (Q : Type) extends
    BagQueue α Q where
  Ordered : Q → Prop
  ordered_empty : Ordered empty
  ordered_push : ∀ q a, Ordered q → Comparable comp (bag (push q a)) → Ordered (push q a)
  ordered_pop : ∀ q, Ordered q → Comparable comp (bag q) → Ordered (pop q)
  top_best : ∀ q t, Ordered q → Comparable comp (bag q) → top? q = some t →
    ∀ a ∈ bag q, comp t a = false

namespace Comparable
variable {α : Type} {comp : α → α → Bool} {s t : Multiset α}

theorem mono (h : Comparable comp t) (hst : ∀ a ∈ s, a ∈ t) : Comparable comp s where
  asymm a ha b hb := h.asymm a (hst a ha) b (hst b hb)
  split a ha b hb c hc := h.split a (hst a ha) b (hst b hb) c (hst c hc)

instance [DecidableEq α] (comp : α → α → Bool) (s : Multiset α) : Decidable (Comparable comp s) :=
  decidable_of_iff
    ((∀ a ∈ s, ∀ b ∈ s, comp a b = true → ¬ comp b a = true) ∧
      ∀ a ∈ s, ∀ b ∈ s, ∀ c ∈ s, comp a c = true → comp a b = true ∨ comp b c = true)
    ⟨fun h => ⟨h.1, h.2⟩, fun h => ⟨h.asymm, h.split⟩⟩

theorem irrefl (h : Comparable comp s) {a : α} (ha : a ∈ s) : comp a a = false :=
  Bool.eq_false_of_not_eq_true fun haa => h.asymm a ha a ha haa haa

end Comparable

namespace Heaps
variable {α : Type} (comp : α → α → Bool)

def exchange (as : List α) (i j : ℕ) : List α :=
  match as[i]?, as[j]? with
  | some a, some b => (as.set i b).set j a
  | _, _ => as

def below (as : List α) (i j : ℕ) : Bool :=
  match as[i]?, as[j]? with
  | some a, some b => comp a b
  | _, _ => false

def rise : ℕ → List α → ℕ → List α
  | 0, as, _ => as
  | fuel + 1, as, i =>
    if 0 < i ∧ below comp as ((i - 1) / 2) i then
      rise fuel (exchange as i ((i - 1) / 2)) ((i - 1) / 2)
    else as

def sink : ℕ → List α → ℕ → List α × ℕ
  | 0, as, i => (as, i)
  | fuel + 1, as, i =>
    if 2 * i + 2 < as.length then
      let child := if below comp as (2 * i + 2) (2 * i + 1) then 2 * i + 1 else 2 * i + 2
      sink fuel (exchange as i child) child
    else if 2 * i + 1 < as.length then (exchange as i (2 * i + 1), 2 * i + 1)
    else (as, i)

def pushHeap (as : List α) (a : α) : List α := rise comp as.length (as ++ [a]) as.length

def popHeap : List α → List α
  | [] => []
  | _ :: as =>
    match as.getLast? with
    | none => []
    | some a =>
      let sunk := sink comp as.length (a :: as.dropLast) 0
      rise comp as.length sunk.1 sunk.2

def Heap (as : List α) : Prop := ∀ k, 0 < k → below comp as ((k - 1) / 2) k = false

variable {comp} {as : List α} {i j k : ℕ}

theorem exchange_perm (as : List α) (i j : ℕ) : (exchange as i j).Perm as := by
  rw [exchange]
  split
  · next a b ha hb =>
    obtain ⟨hi, rfl⟩ := List.getElem?_eq_some_iff.mp ha
    obtain ⟨hj, rfl⟩ := List.getElem?_eq_some_iff.mp hb
    exact List.set_set_perm hi hj
  · exact .refl as

theorem length_exchange (as : List α) (i j : ℕ) : (exchange as i j).length = as.length :=
  (exchange_perm as i j).length_eq

theorem getElem?_exchange (hi : i < as.length) (hj : j < as.length) (k : ℕ) :
    (exchange as i j)[k]? = as[Equiv.swap i j k]? := by
  rw [exchange, List.getElem?_eq_getElem hi, List.getElem?_eq_getElem hj]
  dsimp only
  by_cases hkj : k = j
  · rw [hkj, Equiv.swap_apply_right, List.getElem?_set_self (by rwa [List.length_set]),
      List.getElem?_eq_getElem hi]
  · rw [List.getElem?_set_ne (Ne.symm hkj)]
    by_cases hki : k = i
    · rw [hki, Equiv.swap_apply_left, List.getElem?_set_self hi, List.getElem?_eq_getElem hj]
    · rw [Equiv.swap_apply_of_ne_of_ne hki hkj, List.getElem?_set_ne (Ne.symm hki)]

theorem below_exchange (hi : i < as.length) (hj : j < as.length) (k l : ℕ) :
    below comp (exchange as i j) k l = below comp as (Equiv.swap i j k) (Equiv.swap i j l) := by
  rw [below, below, getElem?_exchange hi hj, getElem?_exchange hi hj]

theorem coe_exchange (as : List α) (i j : ℕ) : (exchange as i j : Multiset α) = as :=
  Multiset.coe_eq_coe.mpr (exchange_perm as i j)

theorem below_eq_true_iff :
    below comp as i j = true ↔ ∃ a b, as[i]? = some a ∧ as[j]? = some b ∧ comp a b = true := by
  rw [below]
  constructor
  · intro h
    split at h
    · next a b ha hb => exact ⟨a, b, ha, hb, h⟩
    · exact absurd h Bool.false_ne_true
  · rintro ⟨a, b, ha, hb, h⟩
    rw [ha, hb]
    exact h

theorem below_eq_false_of_length_le (h : as.length ≤ j) : below comp as i j = false := by
  apply Bool.eq_false_of_not_eq_true
  intro hbelow
  obtain ⟨a, b, -, hb, -⟩ := below_eq_true_iff.mp hbelow
  rw [List.getElem?_eq_none h] at hb
  exact absurd hb.symm (Option.some_ne_none b)

theorem below_asymm (hc : Comparable comp (as : Multiset α)) (h : below comp as i j = true) :
    below comp as j i = false := by
  apply Bool.eq_false_of_not_eq_true
  intro hback
  obtain ⟨a, b, ha, hb, hab⟩ := below_eq_true_iff.mp h
  obtain ⟨b', a', hb', ha', hba⟩ := below_eq_true_iff.mp hback
  obtain rfl : a = a' := Option.some.inj (ha.symm.trans ha')
  obtain rfl : b = b' := Option.some.inj (hb.symm.trans hb')
  exact hc.asymm a (List.mem_of_getElem? ha) b (List.mem_of_getElem? hb) hab hba

theorem below_split (hc : Comparable comp (as : Multiset α)) (hj : j < as.length)
    (h : below comp as i k = true) : below comp as i j = true ∨ below comp as j k = true := by
  obtain ⟨a, c, ha, hk, hac⟩ := below_eq_true_iff.mp h
  have hb := List.getElem?_eq_getElem hj
  rcases hc.split a (List.mem_of_getElem? ha) as[j] (List.getElem_mem hj) c
    (List.mem_of_getElem? hk) hac with hab | hbc
  · exact Or.inl (below_eq_true_iff.mpr ⟨a, _, ha, hb, hab⟩)
  · exact Or.inr (below_eq_true_iff.mpr ⟨_, c, hb, hk, hbc⟩)

theorem not_below_trans (hc : Comparable comp (as : Multiset α)) (hj : j < as.length)
    (hij : below comp as i j = false) (hjk : below comp as j k = false) :
    below comp as i k = false := by
  apply Bool.eq_false_of_not_eq_true
  intro hik
  rcases below_split hc hj hik with h | h
  · exact Bool.false_ne_true (hij.symm.trans h)
  · exact Bool.false_ne_true (hjk.symm.trans h)

structure Rising (comp : α → α → Bool) (as : List α) (i : ℕ) : Prop where
  off : ∀ k, 0 < k → k ≠ i → below comp as ((k - 1) / 2) k = false
  across : 0 < i → ∀ k, 0 < k → (k - 1) / 2 = i → below comp as ((i - 1) / 2) k = false

structure Sinking (comp : α → α → Bool) (as : List α) (i : ℕ) : Prop where
  off : ∀ k, 0 < k → k ≠ i → (k - 1) / 2 ≠ i → below comp as ((k - 1) / 2) k = false
  across : 0 < i → ∀ k, 0 < k → (k - 1) / 2 = i → below comp as ((i - 1) / 2) k = false

theorem Rising.move (h : Rising comp as i) (hc : Comparable comp (as : Multiset α)) (hi : 0 < i)
    (hlt : i < as.length) (hbelow : below comp as ((i - 1) / 2) i = true) :
    Rising comp (exchange as i ((i - 1) / 2)) ((i - 1) / 2) := by
  have hp : (i - 1) / 2 < as.length := by omega
  have hne : (i - 1) / 2 ≠ i := by omega
  have hback := below_asymm hc hbelow
  constructor
  · intro k hk hkp
    rw [below_exchange hlt hp]
    by_cases hki : k = i
    · rw [hki, Equiv.swap_apply_right, Equiv.swap_apply_left]
      exact hback
    rw [Equiv.swap_apply_of_ne_of_ne hki hkp]
    by_cases hparent : (k - 1) / 2 = i
    · rw [hparent, Equiv.swap_apply_left]
      exact h.across hi k hk hparent
    by_cases hsibling : (k - 1) / 2 = (i - 1) / 2
    · rw [hsibling, Equiv.swap_apply_right]
      have hold := h.off k hk hki
      rw [hsibling] at hold
      exact not_below_trans hc hp hback hold
    · rw [Equiv.swap_apply_of_ne_of_ne hparent hsibling]
      exact h.off k hk hki
  · intro hpos k hk hparent
    have hgrand : ((i - 1) / 2 - 1) / 2 ≠ i := by omega
    have hgrand' : ((i - 1) / 2 - 1) / 2 ≠ (i - 1) / 2 := by omega
    have habove := h.off ((i - 1) / 2) hpos hne
    rw [below_exchange hlt hp, Equiv.swap_apply_of_ne_of_ne hgrand hgrand']
    by_cases hki : k = i
    · rw [hki, Equiv.swap_apply_left]
      exact habove
    · rw [Equiv.swap_apply_of_ne_of_ne hki (by omega)]
      have hold := h.off k hk hki
      rw [hparent] at hold
      exact not_below_trans hc hp habove hold

theorem heap_rise {fuel : ℕ} (h : Rising comp as i) (hc : Comparable comp (as : Multiset α))
    (hlt : i < as.length) (hfuel : i ≤ fuel) : Heap comp (rise comp fuel as i) := by
  induction fuel generalizing as i with
  | zero =>
    intro k hk
    exact h.off k hk (by omega)
  | succ fuel ih =>
    rw [rise]
    split
    · next hmove =>
      refine ih (h.move hc hmove.1 hlt hmove.2) ?_ ?_ ?_
      · rwa [coe_exchange]
      · rw [length_exchange]
        omega
      · omega
    · next hstay =>
      intro k hk
      by_cases hki : k = i
      · rw [hki] at hk ⊢
        exact Bool.eq_false_of_not_eq_true fun hbelow => hstay ⟨hk, hbelow⟩
      · exact h.off k hk hki

theorem Sinking.move {c : ℕ} (h : Sinking comp as i) (hpos : 0 < c) (hparent : (c - 1) / 2 = i)
    (hlt : c < as.length)
    (hbest : ∀ k, 0 < k → (k - 1) / 2 = i → k ≠ c → below comp as c k = false) :
    Sinking comp (exchange as i c) c := by
  have hi : i < as.length := by omega
  have hne : i ≠ c := by omega
  constructor
  · intro k hk hkc hkparent
    rw [below_exchange hi hlt]
    by_cases hki : k = i
    · rw [hki, Equiv.swap_apply_left, Equiv.swap_apply_of_ne_of_ne (by omega) (by omega)]
      exact h.across (by omega) c hpos hparent
    rw [Equiv.swap_apply_of_ne_of_ne hki hkc]
    by_cases hsibling : (k - 1) / 2 = i
    · rw [hsibling, Equiv.swap_apply_left]
      exact hbest k hk hsibling hkc
    · rw [Equiv.swap_apply_of_ne_of_ne hsibling hkparent]
      exact h.off k hk hki hsibling
  · intro _ k hk hkc
    rw [below_exchange hi hlt, hparent, Equiv.swap_apply_left,
      Equiv.swap_apply_of_ne_of_ne (by omega) (by omega)]
    have hchild := h.off k hk (by omega) (by omega)
    rwa [hkc] at hchild

theorem Sinking.move_better (h : Sinking comp as i) (hc : Comparable comp (as : Multiset α))
    (htwo : 2 * i + 2 < as.length) {c : ℕ}
    (hchild : (if below comp as (2 * i + 2) (2 * i + 1) then 2 * i + 1 else 2 * i + 2) = c) :
    i < c ∧ c < as.length ∧ Sinking comp (exchange as i c) c := by
  split at hchild
  · next hfirst =>
    subst hchild
    refine ⟨by omega, by omega, h.move (by omega) (by omega) (by omega) fun k hk hki hne => ?_⟩
    obtain rfl : k = 2 * i + 2 := by omega
    exact below_asymm hc hfirst
  · next hsecond =>
    subst hchild
    refine ⟨by omega, htwo, h.move (by omega) (by omega) htwo fun k hk hki hne => ?_⟩
    obtain rfl : k = 2 * i + 1 := by omega
    exact Bool.eq_false_of_not_eq_true hsecond

theorem Sinking.rising (h : Sinking comp as i) (hbottom : as.length ≤ 2 * i + 1) :
    Rising comp as i := by
  constructor
  · intro k hk hki
    by_cases hchild : (k - 1) / 2 = i
    · exact below_eq_false_of_length_le (by omega)
    · exact h.off k hk hki hchild
  · intro _ k hk hchild
    exact below_eq_false_of_length_le (by omega)

theorem sink_perm (comp : α → α → Bool) (fuel : ℕ) (as : List α) (i : ℕ) :
    (sink comp fuel as i).1.Perm as := by
  induction fuel generalizing as i with
  | zero => exact .refl as
  | succ fuel ih =>
    rw [sink]
    split
    · exact (ih _ _).trans (exchange_perm _ _ _)
    · split
      · exact exchange_perm _ _ _
      · exact .refl as

theorem sink_spec {fuel : ℕ} (h : Sinking comp as i) (hc : Comparable comp (as : Multiset α))
    (hlt : i < as.length) (hfuel : as.length ≤ fuel + i) :
    (sink comp fuel as i).2 < as.length ∧
      Rising comp (sink comp fuel as i).1 (sink comp fuel as i).2 := by
  induction fuel generalizing as i with
  | zero => omega
  | succ fuel ih =>
    rw [sink]
    split
    · next htwo =>
      dsimp only
      generalize hchild :
        (if below comp as (2 * i + 2) (2 * i + 1) = true then 2 * i + 1 else 2 * i + 2) = c
      obtain ⟨hdown, hbound, hmove⟩ := h.move_better hc htwo hchild
      have hsunk := ih hmove (by rwa [coe_exchange]) (by rwa [length_exchange])
        (by rw [length_exchange]; omega)
      rwa [length_exchange] at hsunk
    · split
      · next hone =>
        refine ⟨hone, ?_⟩
        refine (h.move (by omega) (by omega) hone fun k hk hki hne => ?_).rising ?_
        · exact below_eq_false_of_length_le (by omega)
        · rw [length_exchange]
          omega
      · next hnone => exact ⟨hlt, h.rising (by omega)⟩

theorem rise_perm (comp : α → α → Bool) (fuel : ℕ) (as : List α) (i : ℕ) :
    (rise comp fuel as i).Perm as := by
  induction fuel generalizing as i with
  | zero => exact .refl as
  | succ fuel ih =>
    rw [rise]
    split
    · exact (ih _ _).trans (exchange_perm _ _ _)
    · exact .refl as

theorem pushHeap_perm (comp : α → α → Bool) (as : List α) (a : α) :
    (pushHeap comp as a).Perm (a :: as) :=
  (rise_perm comp _ _ _).trans (List.perm_append_singleton a as)

theorem heap_pushHeap {a : α} (h : Heap comp as)
    (hc : Comparable comp (pushHeap comp as a : Multiset α)) : Heap comp (pushHeap comp as a) := by
  rw [pushHeap, Multiset.coe_eq_coe.mpr (rise_perm _ _ _ _)] at hc
  refine heap_rise ⟨?_, ?_⟩ hc (by simp) le_rfl
  · intro k hk hne
    by_cases hlt : k < as.length
    · have hold := h k hk
      rwa [below, List.getElem?_append_left (by omega), List.getElem?_append_left hlt, ← below]
    · exact below_eq_false_of_length_le (by simp; omega)
  · intro _ k hk hchild
    exact below_eq_false_of_length_le (by simp; omega)

theorem heap_top (h : Heap comp as) (hc : Comparable comp (as : Multiset α)) (k : ℕ) :
    below comp as 0 k = false := by
  induction k using Nat.strong_induction_on with
  | _ k ih =>
    by_cases hlt : k < as.length
    · rcases Nat.eq_zero_or_pos k with rfl | hk
      · have hirrefl := hc.irrefl (List.getElem_mem hlt)
        rwa [below, List.getElem?_eq_getElem hlt]
      · have hparent := ih ((k - 1) / 2) (by omega)
        exact not_below_trans hc (by omega) hparent (h k hk)
    · exact below_eq_false_of_length_le (not_lt.mp hlt)

theorem sinking_last {t a : α} (h : Heap comp (t :: as)) :
    Sinking comp (a :: as.dropLast) 0 := by
  refine ⟨fun k hk _ hparent => ?_, fun hpos => absurd hpos (lt_irrefl 0)⟩
  apply Bool.eq_false_of_not_eq_true
  intro hbelow
  have hkeep : ∀ (j : ℕ) (x : α), 0 < j → (a :: as.dropLast)[j]? = some x →
      (t :: as)[j]? = some x := by
    intro j x hj hx
    obtain ⟨j, rfl⟩ : ∃ n, j = n + 1 := ⟨j - 1, by omega⟩
    rw [List.getElem?_cons_succ, List.getElem?_dropLast] at hx
    rw [List.getElem?_cons_succ]
    split at hx
    · exact hx
    · exact absurd hx.symm (Option.some_ne_none x)
  obtain ⟨x, y, hx, hy, hxy⟩ := below_eq_true_iff.mp hbelow
  have hold := below_eq_true_iff.mpr
    ⟨x, y, hkeep _ x (by omega) hx, hkeep k y hk hy, hxy⟩
  exact Bool.false_ne_true ((h k hk).symm.trans hold)

theorem popHeap_perm (comp : α → α → Bool) (t : α) (as : List α) :
    (popHeap comp (t :: as)).Perm as := by
  rw [popHeap]
  split
  · next hnone =>
    rw [List.getLast?_eq_none_iff.mp hnone]
  · next a ha =>
    obtain ⟨front, rfl⟩ := List.getLast?_eq_some_iff.mp ha
    rw [List.dropLast_concat]
    exact ((rise_perm _ _ _ _).trans (sink_perm _ _ _ _)).trans
      (List.perm_append_singleton a front).symm

theorem heap_popHeap {t : α} (h : Heap comp (t :: as))
    (hc : Comparable comp ((t :: as : List α) : Multiset α)) :
    Heap comp (popHeap comp (t :: as)) := by
  have hrest : Comparable comp (as : Multiset α) :=
    hc.mono fun a ha => List.mem_cons_of_mem t ha
  rw [popHeap]
  split
  · exact fun k _ => below_eq_false_of_length_le (Nat.zero_le k)
  · next a ha =>
    have hlast := sinking_last (a := a) h
    obtain ⟨front, rfl⟩ := List.getLast?_eq_some_iff.mp ha
    rw [List.dropLast_concat] at hlast ⊢
    have hbag : ((a :: front : List α) : Multiset α) = (front ++ [a] : List α) :=
      Multiset.coe_eq_coe.mpr (List.perm_append_singleton a front).symm
    have hlen : (front ++ [a]).length = (a :: front).length := by simp
    rw [← hbag] at hrest
    rw [hlen]
    obtain ⟨hlt, hrising⟩ := sink_spec hlast hrest (Nat.succ_pos _) le_rfl
    refine heap_rise hrising ?_ ?_ hlt.le
    · rwa [Multiset.coe_eq_coe.mpr (sink_perm _ _ _ _)]
    · rwa [(sink_perm _ _ _ _).length_eq]

end Heaps

structure StdHeap {α : Type} (comp : α → α → Bool) where
  entries : List α

instance {α : Type} (comp : α → α → Bool) : StdQueue comp (StdHeap comp) where
  empty := ⟨[]⟩
  push q a := ⟨Heaps.pushHeap comp q.entries a⟩
  top? q := q.entries.head?
  pop q := ⟨Heaps.popHeap comp q.entries⟩
  size q := q.entries.length
  bag q := q.entries
  bag_empty := rfl
  bag_push q a := Multiset.coe_eq_coe.mpr (Heaps.pushHeap_perm comp q.entries a)
  bag_of_top?_none q h := by
    rw [List.head?_eq_none_iff] at h
    rw [h]
    rfl
  bag_pop q a h := by
    obtain ⟨as, has⟩ := List.head?_eq_some_iff.mp h
    rw [has]
    exact Multiset.coe_eq_coe.mpr ((Heaps.popHeap_perm comp a as).cons a)
  size_eq q := rfl
  Ordered q := Heaps.Heap comp q.entries
  ordered_empty k _ := rfl
  ordered_push q a h hc := Heaps.heap_pushHeap h hc
  ordered_pop q h hc := by
    cases q with
    | mk entries =>
      cases entries with
      | nil => exact h
      | cons t as => exact Heaps.heap_popHeap h hc
  top_best q t h hc htop a ha := by
    obtain ⟨as, has⟩ := List.head?_eq_some_iff.mp htop
    obtain ⟨k, hk⟩ := List.mem_iff_getElem?.mp (Multiset.mem_coe.mp ha)
    have hbest := Heaps.heap_top h hc k
    rwa [Heaps.below, hk, has, List.getElem?_cons_zero] at hbest

example : (Heaps.popHeap (fun _ _ : ℕ => false)
    ([0, 1, 2, 3].foldl (Heaps.pushHeap fun _ _ => false) [])).head? = some 2 := by
  decide

end WitcherMP
