import Mathlib.Data.List.Sort
import Mathlib.Data.Finset.Basic
import Mathlib.Algebra.Order.BigOperators.Group.List
import Mathlib.Algebra.Order.Group.Nat
import Mathlib.Tactic.Abel

/-! Finite maps kept in key order: the shape of an ordered associative container.
Iterating over `entries` visits the keys in increasing order. -/

namespace WitcherMP

/-- The entries stand in strictly increasing key order, so no key occurs twice. -/
structure OrdMap (κ α : Type*) [LinearOrder κ] where
  entries : List (κ × α)
  sorted : entries.Pairwise (fun a b => a.1 < b.1)

namespace OrdMap
variable {κ α : Type*} [LinearOrder κ] {M : Type*} [AddCommMonoid M]

def lookup (k : κ) : List (κ × α) → Option α
  | [] => none
  | e :: es => if e.1 = k then some e.2 else lookup k es

def insertEntry (k : κ) (v : α) : List (κ × α) → List (κ × α)
  | [] => [(k, v)]
  | e :: es =>
    if k < e.1 then (k, v) :: e :: es
    else if k = e.1 then (k, v) :: es
    else e :: insertEntry k v es

def eraseEntry (k : κ) (es : List (κ × α)) : List (κ × α) := es.filter (fun e => e.1 ≠ k)

theorem mem_insertEntry {k : κ} {v : α} {e : κ × α} {es : List (κ × α)}
    (h : e ∈ insertEntry k v es) : e = (k, v) ∨ e ∈ es := by
  induction es with
  | nil => simpa [insertEntry] using h
  | cons a es ih =>
    rw [insertEntry] at h
    split_ifs at h with h₁ h₂
    · simpa using h
    · rcases List.mem_cons.mp h with h | h
      · exact Or.inl h
      · exact Or.inr (List.mem_cons_of_mem _ h)
    · rcases List.mem_cons.mp h with h | h
      · exact Or.inr (h ▸ List.mem_cons_self ..)
      · exact (ih h).imp_right (List.mem_cons_of_mem _)

theorem insertEntry_sorted (k : κ) (v : α) {es : List (κ × α)}
    (h : es.Pairwise (fun a b => a.1 < b.1)) :
    (insertEntry k v es).Pairwise (fun a b => a.1 < b.1) := by
  induction es with
  | nil => simp [insertEntry]
  | cons a es ih =>
    obtain ⟨ha, hes⟩ := List.pairwise_cons.mp h
    rw [insertEntry]
    split_ifs with h₁ h₂
    · refine List.pairwise_cons.mpr ⟨fun e he => ?_, h⟩
      rcases List.mem_cons.mp he with rfl | he
      · exact h₁
      · exact h₁.trans (ha e he)
    · subst h₂
      exact List.pairwise_cons.mpr ⟨ha, hes⟩
    · refine List.pairwise_cons.mpr ⟨fun e he => ?_, ih hes⟩
      rcases mem_insertEntry he with rfl | he
      · exact lt_of_le_of_ne (not_lt.mp h₁) (Ne.symm h₂)
      · exact ha e he

theorem lookup_eq_none {k : κ} {es : List (κ × α)} (h : ∀ e ∈ es, e.1 ≠ k) :
    lookup k es = none := by
  induction es with
  | nil => rfl
  | cons a es ih =>
    rw [lookup, if_neg (h a (List.mem_cons_self ..))]
    exact ih fun e he => h e (List.mem_cons_of_mem _ he)

theorem lookup_eq_some_iff {k : κ} {v : α} {es : List (κ × α)}
    (h : es.Pairwise (fun a b => a.1 < b.1)) : lookup k es = some v ↔ (k, v) ∈ es := by
  induction es with
  | nil => simp [lookup]
  | cons a es ih =>
    obtain ⟨ha, hes⟩ := List.pairwise_cons.mp h
    obtain ⟨k', v'⟩ := a
    rw [lookup]
    by_cases hk : k' = k
    · subst hk
      have hnot : (k', v) ∉ es := fun hm => lt_irrefl k' (ha (k', v) hm)
      simp [hnot, eq_comm]
    · simp only [hk, if_false, ih hes, List.mem_cons, Prod.mk.injEq]
      constructor
      · exact Or.inr
      · rintro (⟨rfl, -⟩ | hm)
        · exact absurd rfl hk
        · exact hm

theorem lookup_insertEntry (k k' : κ) (v : α) (es : List (κ × α)) :
    lookup k' (insertEntry k v es) = if k = k' then some v else lookup k' es := by
  induction es with
  | nil => rfl
  | cons a es ih =>
    rw [insertEntry]
    split_ifs with h₁ h₂ h₃ h₄ h₅
    · simp [lookup, h₂]
    · simp [lookup, h₂]
    · simp [lookup, h₄]
    · simp [lookup, h₄, show a.1 ≠ k' from h₃ ▸ h₄]
    · subst h₅
      simp [lookup, ih, show a.1 ≠ k from fun h => h₃ h.symm]
    · simp [lookup, ih, h₅]

theorem lookup_eraseEntry (k k' : κ) (es : List (κ × α)) :
    lookup k' (eraseEntry k es) = if k = k' then none else lookup k' es := by
  induction es with
  | nil => simp [eraseEntry, lookup]
  | cons a es ih =>
    by_cases ha : a.1 = k
    · have : eraseEntry k (a :: es) = eraseEntry k es := by simp [eraseEntry, ha]
      rw [this, ih, lookup, ha]
      split_ifs <;> rfl
    · have : eraseEntry k (a :: es) = a :: eraseEntry k es := by simp [eraseEntry, ha]
      rw [this, lookup, lookup, ih]
      split_ifs with h₁ h₂ <;> first | rfl | exact absurd (h₁.trans h₂.symm) ha

@[ext] theorem ext_entries {m n : OrdMap κ α} (h : m.entries = n.entries) : m = n := by
  cases m
  cases n
  simp_all

instance decidableEqOrdMap [DecidableEq α] : DecidableEq (OrdMap κ α) := fun m n =>
  decidable_of_iff (m.entries = n.entries) ⟨ext_entries, fun h => h ▸ rfl⟩

def empty : OrdMap κ α := ⟨[], List.Pairwise.nil⟩

def find? (m : OrdMap κ α) (k : κ) : Option α := lookup k m.entries

def getD (m : OrdMap κ α) (k : κ) (d : α) : α := (m.find? k).getD d

def insert (m : OrdMap κ α) (k : κ) (v : α) : OrdMap κ α :=
  ⟨insertEntry k v m.entries, insertEntry_sorted k v m.sorted⟩

def erase (m : OrdMap κ α) (k : κ) : OrdMap κ α := ⟨eraseEntry k m.entries, m.sorted.filter _⟩

def filter (P : κ → α → Bool) (m : OrdMap κ α) : OrdMap κ α :=
  ⟨m.entries.filter fun e => P e.1 e.2, m.sorted.filter _⟩

def mapValues {β : Type*} (f : α → β) (m : OrdMap κ α) : OrdMap κ β :=
  ⟨m.entries.map fun e => (e.1, f e.2), m.sorted.map _ fun _ _ => id⟩

def mapEntries {β : Type*} (f : κ → α → β) (m : OrdMap κ α) : OrdMap κ β :=
  ⟨m.entries.map fun e => (e.1, f e.1 e.2), m.sorted.map _ fun _ _ => id⟩

def insertAll (key : α → κ) (m : OrdMap κ α) (as : List α) : OrdMap κ α :=
  as.foldl (fun m a => m.insert (key a) a) m

def insertPairs (m : OrdMap κ α) (es : List (κ × α)) : OrdMap κ α :=
  es.foldl (fun m e => m.insert e.1 e.2) m

def ofList : List (κ × α) → OrdMap κ α := List.foldl (fun m e => m.insert e.1 e.2) empty

theorem find?_insert (m : OrdMap κ α) (k k' : κ) (v : α) :
    (m.insert k v).find? k' = if k = k' then some v else m.find? k' :=
  lookup_insertEntry k k' v m.entries

@[simp] theorem find?_insert_self (m : OrdMap κ α) (k : κ) (v : α) :
    (m.insert k v).find? k = some v := by rw [find?_insert, if_pos rfl]

theorem find?_insert_of_ne (m : OrdMap κ α) {k k' : κ} (v : α) (h : k ≠ k') :
    (m.insert k v).find? k' = m.find? k' := by rw [find?_insert, if_neg h]

theorem find?_erase (m : OrdMap κ α) (k k' : κ) :
    (m.erase k).find? k' = if k = k' then none else m.find? k' :=
  lookup_eraseEntry k k' m.entries

theorem find?_of_eq_none {m : OrdMap κ α} {k : κ} (h : m.find? k = none) (k' : κ) :
    m.find? k' = if k = k' then none else m.find? k' := by
  split_ifs with hk
  · rw [← hk, h]
  · rfl

theorem find?_eq_some_iff {m : OrdMap κ α} {k : κ} {v : α} :
    m.find? k = some v ↔ (k, v) ∈ m.entries := lookup_eq_some_iff m.sorted

theorem find?_filter_eq_some_iff {P : κ → α → Bool} {m : OrdMap κ α} {k : κ} {v : α} :
    (m.filter P).find? k = some v ↔ m.find? k = some v ∧ P k v := by
  rw [find?_eq_some_iff, find?_eq_some_iff]
  exact List.mem_filter

theorem find?_mapValues {β : Type*} (f : α → β) (m : OrdMap κ α) (k : κ) :
    (m.mapValues f).find? k = (m.find? k).map f := by
  have key : ∀ es : List (κ × α), lookup k (es.map fun e => (e.1, f e.2)) = (lookup k es).map f := by
    intro es
    induction es with
    | nil => rfl
    | cons e es ih =>
      rw [List.map_cons, lookup, lookup]
      split_ifs
      · rfl
      · exact ih
  exact key m.entries

theorem find?_mapEntries {β : Type*} (f : κ → α → β) (m : OrdMap κ α) (k : κ) :
    (m.mapEntries f).find? k = (m.find? k).map (f k) := by
  have key : ∀ es : List (κ × α),
      lookup k (es.map fun e => (e.1, f e.1 e.2)) = (lookup k es).map (f k) := by
    intro es
    induction es with
    | nil => rfl
    | cons e es ih =>
      rw [List.map_cons, lookup, lookup]
      split_ifs with hk
      · rw [hk]
        rfl
      · exact ih
  exact key m.entries

theorem find?_insertAll_of_notMem {key : α → κ} {k : κ} {as : List α} (m : OrdMap κ α)
    (h : k ∉ as.map key) : (m.insertAll key as).find? k = m.find? k := by
  induction as generalizing m with
  | nil => rfl
  | cons a as ih =>
    obtain ⟨ha, has⟩ := not_or.mp fun hk => h (List.mem_cons.mpr hk)
    exact (ih _ has).trans (find?_insert_of_ne m a (Ne.symm ha))

theorem find?_insertAll_of_mem {key : α → κ} {as : List α} (m : OrdMap κ α)
    (hkeys : (as.map key).Nodup) {a : α} (ha : a ∈ as) :
    (m.insertAll key as).find? (key a) = some a := by
  induction as generalizing m with
  | nil => cases ha
  | cons b as ih =>
    obtain ⟨hb, has⟩ := List.nodup_cons.mp hkeys
    rcases List.mem_cons.mp ha with rfl | ha
    · exact (find?_insertAll_of_notMem _ hb).trans (find?_insert_self m (key a) a)
    · exact ih _ has ha

theorem find?_insertAll_cases {key : α → κ} {k : κ} {v : α} {as : List α} {m : OrdMap κ α}
    (h : (m.insertAll key as).find? k = some v) : v ∈ as ∧ key v = k ∨ m.find? k = some v := by
  induction as generalizing m with
  | nil => exact Or.inr h
  | cons a as ih =>
    rcases ih h with ⟨hv, hk⟩ | h
    · exact Or.inl ⟨List.mem_cons_of_mem _ hv, hk⟩
    · rw [find?_insert] at h
      split_ifs at h with hk
      · obtain rfl := Option.some.inj h
        exact Or.inl ⟨List.mem_cons_self .., hk⟩
      · exact Or.inr h

theorem find?_insertPairs_of_notMem {k : κ} {es : List (κ × α)} (m : OrdMap κ α)
    (h : k ∉ es.map Prod.fst) : (m.insertPairs es).find? k = m.find? k := by
  induction es generalizing m with
  | nil => rfl
  | cons e es ih =>
    obtain ⟨he, hes⟩ := not_or.mp fun hk => h (List.mem_cons.mpr hk)
    exact (ih _ hes).trans (find?_insert_of_ne m e.2 (Ne.symm he))

theorem find?_insertPairs_of_mem {es : List (κ × α)} (m : OrdMap κ α)
    (hkeys : (es.map Prod.fst).Nodup) {e : κ × α} (he : e ∈ es) :
    (m.insertPairs es).find? e.1 = some e.2 := by
  induction es generalizing m with
  | nil => cases he
  | cons a es ih =>
    obtain ⟨ha, hes⟩ := List.nodup_cons.mp hkeys
    rcases List.mem_cons.mp he with rfl | he
    · exact (find?_insertPairs_of_notMem _ ha).trans (find?_insert_self m e.1 e.2)
    · exact ih _ hes he

theorem find?_insertPairs_cases {k : κ} {v : α} {es : List (κ × α)} {m : OrdMap κ α}
    (h : (m.insertPairs es).find? k = some v) : (k, v) ∈ es ∨ m.find? k = some v := by
  induction es generalizing m with
  | nil => exact Or.inr h
  | cons e es ih =>
    rcases ih h with he | h
    · exact Or.inl (List.mem_cons_of_mem _ he)
    · rw [find?_insert] at h
      split_ifs at h with hk
      · obtain rfl := Option.some.inj h
        exact Or.inl (hk ▸ List.mem_cons_self ..)
      · exact Or.inr h

theorem find?_insertPairs_ne_none {k : κ} {es : List (κ × α)} (m : OrdMap κ α)
    (h : k ∈ es.map Prod.fst) : (m.insertPairs es).find? k ≠ none := by
  induction es generalizing m with
  | nil => cases h
  | cons e es ih =>
    by_cases hes : k ∈ es.map Prod.fst
    · exact ih _ hes
    · obtain rfl := (List.mem_cons.mp h).resolve_right hes
      have hlast : ((m.insert e.1 e.2).insertPairs es).find? e.1 = some e.2 :=
        (find?_insertPairs_of_notMem _ hes).trans (find?_insert_self m e.1 e.2)
      rw [show m.insertPairs (e :: es) = (m.insert e.1 e.2).insertPairs es from rfl, hlast]
      exact Option.some_ne_none _

theorem getD_insert (m : OrdMap κ α) (k k' : κ) (v d : α) :
    (m.insert k v).getD k' d = if k = k' then v else m.getD k' d := by
  rw [getD, find?_insert]
  split_ifs <;> rfl

theorem getD_erase (m : OrdMap κ α) (k k' : κ) (d : α) :
    (m.erase k).getD k' d = if k = k' then d else m.getD k' d := by
  rw [getD, find?_erase]
  split_ifs <;> rfl

theorem ext_find? {m n : OrdMap κ α} (h : ∀ k, m.find? k = n.find? k) : m = n := by
  have : Std.Irrefl (fun a b : κ × α => a.1 < b.1) := ⟨fun a => lt_irrefl a.1⟩
  have : Std.Antisymm (fun a b : κ × α => a.1 < b.1) :=
    ⟨fun a b hab hba => absurd hab hba.asymm⟩
  refine ext_entries (List.Pairwise.eq_of_mem_iff m.sorted n.sorted fun e => ?_)
  rw [show e = (e.1, e.2) from rfl, ← find?_eq_some_iff, ← find?_eq_some_iff, h]

theorem insert_of_find? {m : OrdMap κ α} {k : κ} {v : α} (h : m.find? k = some v) :
    m.insert k v = m := by
  refine ext_find? fun k' => ?_
  rw [find?_insert]
  split_ifs with hk
  · exact (hk ▸ h).symm
  · rfl

theorem insert_insert (m : OrdMap κ α) (k : κ) (v w : α) :
    (m.insert k v).insert k w = m.insert k w := by
  refine ext_find? fun k' => ?_
  simp only [find?_insert]
  split_ifs <;> rfl

theorem erase_insert (m : OrdMap κ α) (k : κ) (v : α) : (m.insert k v).erase k = m.erase k := by
  refine ext_find? fun k' => ?_
  simp only [find?_erase, find?_insert]
  split_ifs <;> rfl

theorem entries_insert_last {m : OrdMap κ α} {k : κ} (h : ∀ e ∈ m.entries, e.1 < k) (v : α) :
    (m.insert k v).entries = m.entries ++ [(k, v)] := by
  have key : ∀ es : List (κ × α), (∀ e ∈ es, e.1 < k) → insertEntry k v es = es ++ [(k, v)] := by
    intro es hes
    induction es with
    | nil => rfl
    | cons e es ih =>
      obtain ⟨he, hes⟩ := List.forall_mem_cons.mp hes
      rw [insertEntry, if_neg he.asymm, if_neg he.ne', ih hes, List.cons_append]
  exact key m.entries h

theorem nodup_fst (m : OrdMap κ α) : (m.entries.map Prod.fst).Nodup :=
  List.pairwise_map.mpr (m.sorted.imp ne_of_lt)

def keys (m : OrdMap κ α) : Finset κ := (m.entries.map Prod.fst).toFinset

theorem mem_keys {m : OrdMap κ α} {k : κ} : k ∈ m.keys ↔ m.find? k ≠ none := by
  simp only [keys, List.mem_toFinset, List.mem_map, Option.ne_none_iff_exists', find?_eq_some_iff]
  constructor
  · rintro ⟨e, he, rfl⟩
    exact ⟨e.2, he⟩
  · rintro ⟨v, hv⟩
    exact ⟨(k, v), hv, rfl⟩

theorem keys_insert_eq (m : OrdMap κ α) (k : κ) (v : α) :
    (m.insert k v).keys = Insert.insert k m.keys := by
  ext k'
  rw [mem_keys, find?_insert, Finset.mem_insert, mem_keys]
  split_ifs with hk
  · exact iff_of_true (Option.some_ne_none v) (Or.inl hk.symm)
  · exact ⟨Or.inr, fun h => h.resolve_left fun h => hk h.symm⟩

theorem keys_insert {m : OrdMap κ α} {k : κ} (h : m.find? k ≠ none) (v : α) :
    (m.insert k v).keys = m.keys := by
  rw [keys_insert_eq, Finset.insert_eq_of_mem (mem_keys.mpr h)]

theorem keys_erase (m : OrdMap κ α) (k : κ) : (m.erase k).keys = m.keys.erase k := by
  ext k'
  rw [mem_keys, find?_erase, Finset.mem_erase, mem_keys]
  split_ifs with hk
  · exact iff_of_false (fun h => h rfl) fun h => h.1 hk.symm
  · exact ⟨fun h => ⟨fun h => hk h.symm, h⟩, And.right⟩

def sumOver (f : κ → α → M) (m : OrdMap κ α) : M := (m.entries.map fun e => f e.1 e.2).sum

@[simp] theorem sumOver_empty (f : κ → α → M) : sumOver f (empty : OrdMap κ α) = 0 := rfl

theorem sum_insertEntry (f : κ → α → M) (k : κ) (v : α) {es : List (κ × α)}
    (h : es.Pairwise (fun a b => a.1 < b.1)) :
    ((insertEntry k v es).map fun e => f e.1 e.2).sum + (lookup k es).elim 0 (f k)
      = (es.map fun e => f e.1 e.2).sum + f k v := by
  induction es with
  | nil => simp [insertEntry, lookup]
  | cons a es ih =>
    obtain ⟨ha, hes⟩ := List.pairwise_cons.mp h
    rw [insertEntry]
    split_ifs with h₁ h₂
    · have hnone : lookup k (a :: es) = none := by
        refine lookup_eq_none fun e he => ?_
        rcases List.mem_cons.mp he with rfl | he
        · exact h₁.ne'
        · exact (h₁.trans (ha e he)).ne'
      simp only [hnone, Option.elim_none, List.map_cons, List.sum_cons, add_zero]
      abel
    · subst h₂
      simp only [lookup, if_true, Option.elim_some, List.map_cons, List.sum_cons]
      abel
    · have := ih hes
      simp only [lookup, show a.1 ≠ k from fun h => h₂ h.symm, if_false, List.map_cons,
        List.sum_cons, add_assoc, this]

theorem sumOver_insert (f : κ → α → M) (m : OrdMap κ α) (k : κ) (v : α) :
    sumOver f (m.insert k v) + (m.find? k).elim 0 (f k) = sumOver f m + f k v :=
  sum_insertEntry f k v m.sorted

theorem sumOver_replace (f : κ → α → M) {m : OrdMap κ α} {k : κ} {v : α} (h : m.find? k = some v)
    (w : α) : sumOver f (m.insert k w) + f k v = sumOver f m + f k w := by
  have := sumOver_insert f m k w
  rwa [h] at this

theorem sum_eraseEntry (f : κ → α → M) (k : κ) {es : List (κ × α)}
    (h : es.Pairwise (fun a b => a.1 < b.1)) :
    ((eraseEntry k es).map fun e => f e.1 e.2).sum + (lookup k es).elim 0 (f k)
      = (es.map fun e => f e.1 e.2).sum := by
  induction es with
  | nil => simp [eraseEntry, lookup]
  | cons a es ih =>
    obtain ⟨ha, hes⟩ := List.pairwise_cons.mp h
    by_cases hk : a.1 = k
    · subst hk
      have hrest : eraseEntry a.1 es = es :=
        List.filter_eq_self.mpr fun e he => by simpa using (ha e he).ne'
      have : eraseEntry a.1 (a :: es) = es := by
        rw [← hrest]
        simp [eraseEntry]
      simp only [this, lookup, if_true, Option.elim_some, List.map_cons, List.sum_cons]
      abel
    · have : eraseEntry k (a :: es) = a :: eraseEntry k es := by simp [eraseEntry, hk]
      simp only [this, lookup, hk, if_false, List.map_cons, List.sum_cons, add_assoc, ih hes]

theorem sumOver_erase (f : κ → α → M) (m : OrdMap κ α) (k : κ) :
    sumOver f (m.erase k) + (m.find? k).elim 0 (f k) = sumOver f m :=
  sum_eraseEntry f k m.sorted

def size (m : OrdMap κ α) : ℕ := m.entries.length

theorem size_eq_sumOver (m : OrdMap κ α) : m.size = sumOver (fun _ _ => 1) m := by
  simp [size, sumOver]

theorem size_insert_new {m : OrdMap κ α} {k : κ} (h : m.find? k = none) (v : α) :
    (m.insert k v).size = m.size + 1 := by
  have := sumOver_insert (fun _ _ => 1) m k v
  rw [h, Option.elim_none, add_zero] at this
  rw [size_eq_sumOver, size_eq_sumOver, this]

theorem size_insert_old {m : OrdMap κ α} {k : κ} {v : α} (h : m.find? k = some v) (w : α) :
    (m.insert k w).size = m.size := by
  rw [size_eq_sumOver, size_eq_sumOver]
  exact Nat.add_right_cancel (sumOver_replace (fun _ _ => 1) h w)

theorem size_erase {m : OrdMap κ α} {k : κ} {v : α} (h : m.find? k = some v) :
    (m.erase k).size + 1 = m.size := by
  have := sumOver_erase (fun _ _ => 1) m k
  rw [h, Option.elim_some] at this
  rw [size_eq_sumOver, size_eq_sumOver, this]

theorem sumOver_congr_off {f g : κ → α → M} {m : OrdMap κ α} {k : κ} {v : α}
    (h : m.find? k = some v) (hfg : ∀ k' v', k ≠ k' → f k' v' = g k' v') :
    sumOver f m + g k v = sumOver g m + f k v := by
  have hrest : sumOver f (m.erase k) = sumOver g (m.erase k) := by
    refine congrArg List.sum (List.map_congr_left fun e he => hfg e.1 e.2 fun hk => ?_)
    simpa [hk] using (List.mem_filter.mp he).2
  have hf := sumOver_erase f m k
  have hg := sumOver_erase g m k
  rw [h, Option.elim_some] at hf hg
  rw [← hf, ← hg, hrest]
  abel

theorem le_sumOver (f : κ → α → ℕ) {m : OrdMap κ α} {k : κ} {v : α}
    (h : m.find? k = some v) : f k v ≤ sumOver f m :=
  List.single_le_sum (fun _ _ => Nat.zero_le _) _
    (List.mem_map.mpr ⟨(k, v), find?_eq_some_iff.mp h, rfl⟩)

end OrdMap
end WitcherMP
