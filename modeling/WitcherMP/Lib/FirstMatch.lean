import Mathlib.Data.List.Nodup

/-! The loop that looks for the first entry with a property, rewrites it and stops. -/

namespace WitcherMP.FirstMatch
variable {α : Type*} (p : α → Bool) (f : α → α)

def modifyFirst : List α → List α
  | [] => []
  | a :: as => if p a then f a :: as else a :: modifyFirst as

theorem modifyFirst_append {before : List α} (h : ∀ b ∈ before, ¬ p b) (after : List α) :
    modifyFirst p f (before ++ after) = before ++ modifyFirst p f after := by
  induction before with
  | nil => rfl
  | cons b before ih =>
    obtain ⟨hb, hbefore⟩ := List.forall_mem_cons.mp h
    rw [List.cons_append, modifyFirst, if_neg hb, ih hbefore, List.cons_append]

variable {p f}

theorem modifyFirst_of_find? {l : List α} {a : α} (h : l.find? p = some a) :
    ∃ before after, l = before ++ a :: after ∧ (∀ b ∈ before, ¬ p b) ∧ p a ∧
      modifyFirst p f l = before ++ f a :: after := by
  obtain ⟨ha, before, after, rfl, hbefore⟩ := List.find?_eq_some_iff_append.mp h
  have hnot : ∀ b ∈ before, ¬ p b := fun b hb => by simpa using hbefore b hb
  refine ⟨before, after, rfl, hnot, ha, ?_⟩
  rw [modifyFirst_append p f hnot, modifyFirst, if_pos ha]

theorem modifyFirst_of_find?_eq_none {l : List α} (h : l.find? p = none) : modifyFirst p f l = l := by
  have hnot : ∀ a ∈ l, ¬ p a := List.find?_eq_none.mp h
  have happend := modifyFirst_append p f hnot []
  rwa [List.append_nil, modifyFirst, List.append_nil] at happend

theorem modifyFirst_congr {g : α → α} {l : List α} (h : ∀ a, l.find? p = some a → f a = g a) :
    modifyFirst p f l = modifyFirst p g l := by
  induction l with
  | nil => rfl
  | cons b l ih =>
    rw [modifyFirst, modifyFirst]
    split_ifs with hb
    · rw [h b (List.find?_cons_of_pos hb)]
    · rw [ih fun a ha => h a ((List.find?_cons_of_neg hb).trans ha)]

theorem modifyFirst_eq_self {l : List α} (h : ∀ a, l.find? p = some a → f a = a) :
    modifyFirst p f l = l := by
  induction l with
  | nil => rfl
  | cons b l ih =>
    rw [modifyFirst]
    split_ifs with hb
    · rw [h b (List.find?_cons_of_pos hb)]
    · rw [ih fun a ha => h a ((List.find?_cons_of_neg hb).trans ha)]

theorem getElem?_modifyFirst (l : List α) (j : ℕ) :
    (modifyFirst p f l)[j]? = if l.findIdx? p = some j then l[j]?.map f else l[j]? := by
  induction l generalizing j with
  | nil => simp [modifyFirst]
  | cons a l ih =>
    rw [modifyFirst, List.findIdx?_cons]
    by_cases ha : p a
    · cases j <;> simp [ha]
    · cases j with
      | zero => simp [ha]
      | succ j => simp [ha, ih]

theorem filter_modifyFirst (hf : ∀ a, p (f a) = p a) (l : List α) :
    (modifyFirst p f l).filter p = (l.filter p).modifyHead f := by
  induction l with
  | nil => rfl
  | cons a l ih =>
    rw [modifyFirst]
    by_cases ha : p a
    · rw [if_pos ha, List.filter_cons_of_pos ((hf a).trans ha), List.filter_cons_of_pos ha,
        List.modifyHead_cons]
    · rw [if_neg ha, List.filter_cons_of_neg ha, List.filter_cons_of_neg ha, ih]

theorem mem_modifyFirst {l : List α} {b : α} (h : b ∈ modifyFirst p f l) :
    b ∈ l ∨ ∃ a ∈ l, p a ∧ f a = b := by
  cases hfind : l.find? p with
  | none => exact Or.inl (modifyFirst_of_find?_eq_none (f := f) hfind ▸ h)
  | some a =>
    obtain ⟨before, after, rfl, -, ha, hmodify⟩ := modifyFirst_of_find? (f := f) hfind
    rw [hmodify] at h
    rcases List.mem_append.mp h with h | h
    · exact Or.inl (List.mem_append_left _ h)
    · rcases List.mem_cons.mp h with rfl | h
      · exact Or.inr ⟨a, List.mem_append_right _ (List.mem_cons_self ..), ha, rfl⟩
      · exact Or.inl (List.mem_append_right _ (List.mem_cons_of_mem _ h))

section Keyed
variable {κ : Type*} [DecidableEq κ] {key : α → κ} {k : κ} {l : List α}

theorem modifyFirst_eq_map (h : (l.map key).Nodup) (k : κ) (f : α → α) :
    modifyFirst (fun a => key a = k) f l = l.map fun a => if key a = k then f a else a := by
  induction l with
  | nil => rfl
  | cons a l ih =>
    obtain ⟨ha, hl⟩ := List.nodup_cons.mp h
    rw [modifyFirst, List.map_cons]
    by_cases hk : key a = k
    · rw [if_pos (decide_eq_true hk), if_pos hk]
      refine congrArg (f a :: ·) ((List.map_id l).symm.trans (List.map_congr_left fun b hb => ?_))
      exact (if_neg fun hkb => ha (List.mem_map.mpr ⟨b, hb, hkb.trans hk.symm⟩)).symm
    · rw [if_neg (by simpa using hk), if_neg hk, ih hl]

theorem find?_modifyFirst_key (hf : ∀ a, key (f a) = key a) (l : List α) (k k' : κ) :
    (modifyFirst (fun a => key a = k) f l).find? (fun a => key a = k')
      = if k = k' then (l.find? fun a => key a = k').map f else l.find? fun a => key a = k' := by
  induction l with
  | nil => simp [modifyFirst]
  | cons a l ih =>
    rw [modifyFirst]
    by_cases ha : key a = k
    · subst ha
      by_cases hk : key a = k'
      · simp [hf, hk]
      · simp [hf, hk]
    · by_cases ha' : key a = k'
      · subst ha'
        simp [ha, Ne.symm ha]
      · simp [ha, ha', ih]

end Keyed
end WitcherMP.FirstMatch
