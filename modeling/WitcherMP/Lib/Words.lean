import Mathlib.Data.List.Basic
import Mathlib.Data.List.Infix
import Mathlib.Data.List.Rotate

/-! Words that overlap shifted copies of themselves, and words put together from pieces that
may come in any order. -/

namespace WitcherMP.Words
variable {α : Type*}

theorem mem_of_shift {w d : List α} (hw : w ≠ []) {p : ℕ} (h : w ++ d.take p <+: d) {k : ℕ}
    (hk : k < w.length + p) {x : α} (hx : d[k]? = some x) : x ∈ w := by
  induction k using Nat.strong_induction_on generalizing x with
  | _ k ih =>
    obtain ⟨s, hs⟩ := h
    by_cases hkw : k < w.length
    · rw [← hs, List.append_assoc, List.getElem?_append_left hkw] at hx
      exact List.mem_of_getElem? hx
    · have hpos : 0 < w.length := List.length_pos_iff.mpr hw
      have hshift : d[k - w.length]? = some x := by
        have hlt : k - w.length < (d.take p).length := by
          have hlen := congrArg List.length hs
          have hkd := (List.getElem?_eq_some_iff.mp hx).1
          simp only [List.length_append, List.length_take] at hlen ⊢
          omega
        rw [← hs, List.append_assoc, List.getElem?_append_right (not_lt.mp hkw),
          List.getElem?_append_left hlt, List.getElem?_take_of_lt (by omega)] at hx
        exact hx
      exact ih (k - w.length) (by omega) (by omega) hshift

theorem mem_of_prefixes {w d out : List α} (hw : w ≠ []) {p : ℕ} (h : w ++ d.take p <+: out)
    (hd : d <+: out) {x : α} (hx : d[p]? = some x) : x ∈ w := by
  have hpos : 0 < w.length := List.length_pos_iff.mpr hw
  have hp : p < d.length := (List.getElem?_eq_some_iff.mp hx).1
  by_cases hle : w.length ≤ d.length
  · have hshort : w ++ d.take (min p (d.length - w.length)) <+: d := by
      refine List.prefix_of_prefix_length_le (List.IsPrefix.trans ?_ h) hd ?_
      · rw [List.prefix_append_right_inj]
        exact List.take_prefix_take_left (min_le_left ..)
      · rw [List.length_append, List.length_take]
        omega
    exact mem_of_shift hw hshort (by omega) hx
  · have hdw : d <+: w := List.prefix_of_prefix_length_le hd
      ((List.prefix_append w _).trans h) (not_le.mp hle).le
    exact hdw.subset (List.mem_of_getElem? hx)

theorem mem_of_prefix_append {w d : List α} (hw : w ≠ []) (h : d <+: w ++ d) {x : α} (hx : x ∈ d) :
    x ∈ w := by
  obtain ⟨p, hp⟩ := List.mem_iff_getElem?.mp hx
  exact mem_of_prefixes hw ((List.prefix_append_right_inj w).mpr (List.take_prefix p d)) h hp

theorem split_front {a u w e : List α} (h : a ++ u = w ++ e) (hle : a.length ≤ w.length) :
    ∃ v, w = a ++ v ∧ u = v ++ e := by
  rcases List.append_eq_append_iff.mp h with ⟨v, hw, hu⟩ | ⟨v, ha, he⟩
  · exact ⟨v, hw, hu⟩
  · rw [ha, List.length_append] at hle
    obtain rfl : v = [] := List.eq_nil_of_length_eq_zero (by omega)
    exact ⟨[], by rw [ha, List.append_nil, List.append_nil], he.symm⟩

theorem eq_of_mem_front {k : ℕ} {y : α} {u w e : List α} (h : List.replicate k y ++ u = w ++ e)
    (hle : w.length ≤ k) : ∀ x ∈ w, x = y := by
  obtain ⟨v, hv, -⟩ := split_front h.symm (by rwa [List.length_replicate])
  exact fun x hx => List.eq_of_mem_replicate (hv ▸ List.mem_append_left v hx)

theorem replicate_append_inj {x : α} {m n : ℕ} {r r' : List α} (hr : r.head? ≠ some x)
    (hr' : r'.head? ≠ some x) (h : List.replicate m x ++ r = List.replicate n x ++ r') :
    m = n ∧ r = r' := by
  induction m generalizing n with
  | zero =>
    cases n with
    | zero => exact ⟨rfl, h⟩
    | succ n => exact absurd (congrArg List.head? h) hr
  | succ m ih =>
    cases n with
    | zero => exact absurd (congrArg List.head? h).symm hr'
    | succ n =>
      rw [List.replicate_succ, List.replicate_succ, List.cons_append, List.cons_append,
        List.cons.injEq] at h
      obtain ⟨rfl, hrest⟩ := ih h.2
      exact ⟨rfl, hrest⟩

theorem flatten_eq_of_perm {ls ls' : List (List α)} (h : ls.Perm ls')
    (hcomm : ∀ a ∈ ls, ∀ b ∈ ls, a ++ b = b ++ a) : ls.flatten = ls'.flatten := by
  induction h with
  | nil => rfl
  | cons a _ ih =>
    rw [List.flatten_cons, List.flatten_cons, ih fun b hb c hc =>
      hcomm b (List.mem_cons_of_mem _ hb) c (List.mem_cons_of_mem _ hc)]
  | swap a b ls =>
    simp only [List.flatten_cons, ← List.append_assoc]
    rw [hcomm b (by simp) a (by simp)]
  | trans h _ ih ih' =>
    exact (ih hcomm).trans (ih' fun a ha b hb => hcomm a (h.mem_iff.mpr ha) b (h.mem_iff.mpr hb))

theorem eq_of_shift {n : ℕ} {c t u : List α} {cs : List (List α)} (hc : c.length = n)
    (hcs : ∀ a ∈ cs, a.length = n) (h : c ++ (cs.flatten ++ t) = cs.flatten ++ (t ++ u)) :
    (∀ a ∈ cs, a = c) ∧ c ++ t = t ++ u := by
  induction cs generalizing c with
  | nil => exact ⟨fun a ha => absurd ha List.not_mem_nil, h⟩
  | cons a cs ih =>
    obtain ⟨ha, has⟩ := List.forall_mem_cons.mp hcs
    rw [List.flatten_cons, List.append_assoc, List.append_assoc] at h
    obtain ⟨rfl, hrest⟩ := List.append_inj h (hc.trans ha.symm)
    obtain ⟨hall, ht⟩ := ih hc has hrest
    exact ⟨List.forall_mem_cons.mpr ⟨rfl, hall⟩, ht⟩

def pieces (n count : ℕ) (d : List α) : List (List α) :=
  (List.range count).map fun i => (d.drop (i * n)).take n

theorem flatten_pieces (n count : ℕ) (d : List α) :
    (pieces n count d).flatten = d.take (count * n) := by
  induction count with
  | zero => rw [Nat.zero_mul, List.take_zero]; rfl
  | succ count ih =>
    rw [pieces, List.range_succ, List.map_append, List.flatten_append, ← pieces, ih, Nat.succ_mul,
      List.take_add]
    simp

theorem length_of_mem_pieces {n count : ℕ} {d a : List α} (h : count * n ≤ d.length)
    (ha : a ∈ pieces n count d) : a.length = n := by
  obtain ⟨i, hi, rfl⟩ := List.mem_map.mp ha
  have hle : (i + 1) * n ≤ count * n := Nat.mul_le_mul_right n (List.mem_range.mp hi)
  rw [Nat.succ_mul] at hle
  rw [List.length_take, List.length_drop]
  omega

theorem perm_pieces_iff {n count : ℕ} {d : List α} (hn : 0 < count) (hlt : count * n < d.length)
    (hle : d.length ≤ (count + 1) * n) :
    (∀ ls : List (List α), ls.Perm (pieces n (count + 1) d) → ls.flatten = d) ↔ d.rotate n = d := by
  have hd : (pieces n (count + 1) d).flatten = d := by
    rw [flatten_pieces, List.take_of_length_le hle]
  have hlast : pieces n (count + 1) d = pieces n count d ++ [(d.drop (count * n)).take n] := by
    rw [pieces, List.range_succ, List.map_append]
    rfl
  have hlen := fun a => length_of_mem_pieces (a := a) hlt.le
  generalize (d.drop (count * n)).take n = t at hlast
  obtain ⟨c, cs, hcs⟩ : ∃ c cs, pieces n count d = c :: cs := by
    obtain ⟨m, rfl⟩ := Nat.exists_eq_add_of_lt hn
    rw [pieces, Nat.zero_add, List.range_succ_eq_map]
    exact ⟨_, _, rfl⟩
  rw [hcs] at hlast hlen
  rw [hlast] at hd ⊢
  obtain ⟨hc, hrest⟩ := List.forall_mem_cons.mp hlen
  have hturn : d.rotate n = (cs ++ [t] ++ [c]).flatten := by
    rw [← hd, List.cons_append, List.flatten_cons, ← hc, List.rotate_append_length_eq]
    simp only [List.flatten_concat]
  constructor
  · intro h
    rw [hturn]
    exact h _ (List.perm_append_comm.trans (List.Perm.refl _))
  · intro h ls hls
    rw [hturn, ← hd] at h
    simp only [List.cons_append, List.flatten_cons, List.flatten_append, List.flatten_nil,
      List.append_nil, List.nil_append, List.append_assoc] at h
    obtain ⟨hall, ht⟩ := eq_of_shift hc hrest h.symm
    have heq : ∀ a ∈ c :: cs, a = c := List.forall_mem_cons.mpr ⟨rfl, hall⟩
    refine (flatten_eq_of_perm hls.symm fun a ha b hb => ?_).symm.trans hd
    rcases List.mem_append.mp ha with ha | ha <;> rcases List.mem_append.mp hb with hb | hb
    · rw [heq a ha, heq b hb]
    · rw [heq a ha, List.mem_singleton.mp hb, ht]
    · rw [List.mem_singleton.mp ha, heq b hb, ht]
    · rw [List.mem_singleton.mp ha, List.mem_singleton.mp hb]

end WitcherMP.Words
