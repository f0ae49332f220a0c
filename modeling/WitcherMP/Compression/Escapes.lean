import WitcherMP.Compression.Strays
import WitcherMP.Lib.Words

/-! Exactly which data the run lengths give back. A decoder that has taken a literal 0xFF for an
escape falls behind the data, and one that is behind by anything but bytes 0xFF never catches up. -/

namespace WitcherMP.Compression

namespace Token

def value : Token → UInt8
  | literal b => b
  | escape _ b => b

end Token

def Parted : List Token → Prop
  | [] => True
  | .literal b :: ts => (b = 0xFF → ∀ n, ts.head? ≠ some (.escape n 0xFF)) ∧ Parted ts
  | .escape n b :: ts =>
    3 < n.toNat ∧ (b = 0xFF → n ≠ 0xFF → ∀ t ∈ ts.head?, t.value ≠ 0xFF) ∧ Parted ts

def Behind (r : List UInt8) (ts : List Token) : Prop :=
  (∃ x ∈ r, x ≠ 0xFF) ∨
    r ≠ [] ∧ ∃ ts', ts = .literal 0xFF :: ts' ∧ ∀ t ∈ ts'.head?, t.value ≠ 0xFF

theorem Behind.ne_nil {r : List UInt8} {ts : List Token} (h : Behind r ts) : r ≠ [] := by
  rcases h with ⟨x, hx, -⟩ | ⟨hr, -⟩
  · exact List.ne_nil_of_mem hx
  · exact hr

theorem Behind.exists_ne {r : List UInt8} {t : Token} {ts : List Token} (h : Behind r (t :: ts))
    (ht : t ≠ .literal 0xFF) : ∃ x ∈ r, x ≠ 0xFF := by
  rcases h with hne | ⟨-, ts', hts, -⟩
  · exact hne
  · exact absurd (List.cons.inj hts).1 ht

theorem Behind.exists_ne_of_value {r : List UInt8} {t : Token} {ts : List Token}
    (h : Behind r (.literal 0xFF :: t :: ts)) (ht : t.value = 0xFF) : ∃ x ∈ r, x ≠ 0xFF := by
  rcases h with hne | ⟨-, ts', hts, hvalue⟩
  · exact hne
  · rw [← (List.cons.inj hts).2] at hvalue
    exact absurd ht (hvalue t rfl)

def Lost (ts : List Token) : Prop :=
  ∀ r, Behind r ts → decompressZlib (ts.flatMap Token.bytes) ≠ r ++ ts.flatMap Token.expand

def LostInside (n b : UInt8) (ts : List Token) : Prop :=
  ∀ r, (∃ x ∈ r, x ≠ 0xFF) → decompressZlib (n :: b :: ts.flatMap Token.bytes) ≠
    r ++ (List.replicate n.toNat b ++ ts.flatMap Token.expand)

theorem mem_rest {r v : List UInt8} {y x : UInt8} {k : ℕ} (h : r = List.replicate k y ++ v)
    (hx : x ∈ r) (hne : x ≠ y) : x ∈ v := by
  rw [h] at hx
  exact (List.mem_append.mp hx).resolve_left fun hmem => hne (List.eq_of_mem_replicate hmem)

section Steps
variable {ts : List Token}

theorem lost_literal {b : UInt8} (hb : b ≠ 0xFF) (ih : Lost ts) : Lost (.literal b :: ts) := by
  intro r hr h
  obtain ⟨x, hx, hne⟩ := hr.exists_ne fun heq => hb (Token.literal.inj heq)
  rw [List.flatMap_cons, List.flatMap_cons, Token.bytes, Token.expand, List.singleton_append,
    decompressZlib_literal hb, List.singleton_append] at h
  cases r with
  | nil => exact absurd hx List.not_mem_nil
  | cons y r =>
    rw [List.cons_append, List.cons.injEq] at h
    refine ih (r ++ [b]) (Or.inl ⟨b, by simp, hb⟩) ?_
    rw [h.2, List.append_assoc, List.singleton_append]

theorem lost_escape {n b : UInt8} (ih : Lost ts) : Lost (.escape n b :: ts) := by
  intro r hr h
  obtain ⟨x, hx, hne⟩ := hr.exists_ne (nofun)
  have hn : n = .ofNat n.toNat := UInt8.ofNat_toNat.symm
  have hexpand : (Token.escape n b :: ts).flatMap Token.expand =
      List.replicate n.toNat b ++ ts.flatMap Token.expand := rfl
  rw [hexpand, hn, decompressZlib_escape n.toNat_lt, ← hn, ← List.append_assoc] at h
  obtain ⟨v, hv, hrest⟩ := Words.split_front h (by simp)
  have hperm : r.Perm v := by
    have hboth : (r ++ List.replicate n.toNat b).Perm (List.replicate n.toNat b ++ v) := hv ▸ .refl _
    exact (List.perm_append_left_iff _).mp (List.perm_append_comm.trans hboth)
  exact ih v (Or.inl ⟨x, hperm.mem_iff.mp hx, hne⟩) hrest

theorem lost_before_escape {n b : UInt8} (hn : 3 < n.toNat) (hb : b ≠ 0xFF) (ih : Lost ts) :
    Lost (.literal 0xFF :: .escape n b :: ts) := by
  rintro r - h
  have hdecode : decompressZlib ((Token.literal 0xFF :: .escape n b :: ts).flatMap Token.bytes) =
      List.replicate 255 n ++ b :: decompressZlib (ts.flatMap Token.bytes) := by
    rw [← decompressZlib_literal hb]
    exact if_pos rfl
  have hexpand : (Token.literal 0xFF :: .escape n b :: ts).flatMap Token.expand =
      0xFF :: (List.replicate n.toNat b ++ ts.flatMap Token.expand) := rfl
  obtain ⟨k, hk⟩ : ∃ k, n.toNat = k + 2 := ⟨n.toNat - 2, by omega⟩
  rw [hdecode, hexpand, List.append_cons r, hk] at h
  by_cases hle : 255 ≤ (r ++ [0xFF]).length
  · obtain ⟨v, -, hrest⟩ := Words.split_front h (by rwa [List.length_replicate])
    cases v with
    | nil =>
      rw [List.nil_append, List.replicate_succ, List.cons_append, List.cons.injEq] at hrest
      exact ih (List.replicate (k + 1) b) (Or.inl ⟨b, by simp, hb⟩) hrest.2
    | cons y v =>
      rw [List.cons_append, List.cons.injEq, ← List.append_assoc] at hrest
      exact ih (v ++ List.replicate (k + 2) b) (Or.inl ⟨b, by simp, hb⟩) hrest.2
  · rw [List.replicate_succ (n := k + 1), List.cons_append, List.append_cons (r ++ [0xFF])] at h
    have hall := Words.eq_of_mem_front h (by
      rw [List.length_append, List.length_singleton]
      omega)
    exact hb ((hall b (by simp)).trans (hall 0xFF (by simp)).symm)

theorem lost_before_literals {c y : UInt8} (ih : Lost ts) :
    Lost (.literal 0xFF :: .literal c :: .literal y :: ts) := by
  intro r hr h
  have hdecode : decompressZlib
      ((Token.literal 0xFF :: .literal c :: .literal y :: ts).flatMap Token.bytes) =
      List.replicate c.toNat y ++ decompressZlib (ts.flatMap Token.bytes) := if_pos rfl
  have hexpand : (Token.literal 0xFF :: .literal c :: .literal y :: ts).flatMap Token.expand =
      0xFF :: c :: y :: ts.flatMap Token.expand := rfl
  rw [hdecode, hexpand, List.append_cons r] at h
  by_cases hle : c.toNat ≤ (r ++ [0xFF]).length
  · obtain ⟨v, hv, hrest⟩ := Words.split_front h (by rwa [List.length_replicate])
    refine ih (v ++ [c, y]) (Or.inl ?_) (by rw [hrest, List.append_assoc]; rfl)
    by_cases hy : y = 0xFF
    · by_cases hc : c = 0xFF
      · subst hc
        obtain ⟨x, hx, hne⟩ := hr.exists_ne_of_value rfl
        exact ⟨x, List.mem_append_left _ (mem_rest hv (List.mem_append_left _ hx) (hy ▸ hne)), hne⟩
      · exact ⟨c, by simp, hc⟩
    · exact ⟨y, by simp, hy⟩
  · rw [List.append_cons (r ++ [0xFF])] at h
    have hall := Words.eq_of_mem_front h (by
      rw [List.length_append, List.length_singleton]
      omega)
    have hc : c = 0xFF := (hall c (by simp)).trans (hall 0xFF (by simp)).symm
    subst hc
    obtain ⟨x, hx, hne⟩ := hr.exists_ne_of_value rfl
    exact hne ((hall x (by simp [hx])).trans (hall 0xFF (by simp)).symm)

theorem lost_into_escape {c n b : UInt8} (ih : LostInside n b ts) :
    Lost (.literal 0xFF :: .literal c :: .escape n b :: ts) := by
  intro r hr h
  have hdecode : decompressZlib
      ((Token.literal 0xFF :: .literal c :: .escape n b :: ts).flatMap Token.bytes) =
      List.replicate c.toNat 0xFF ++ decompressZlib (n :: b :: ts.flatMap Token.bytes) := if_pos rfl
  have hexpand : (Token.literal 0xFF :: .literal c :: .escape n b :: ts).flatMap Token.expand =
      0xFF :: c :: (List.replicate n.toNat b ++ ts.flatMap Token.expand) := rfl
  rw [hdecode, hexpand, List.append_cons r] at h
  by_cases hle : c.toNat ≤ (r ++ [0xFF]).length
  · obtain ⟨v, hv, hrest⟩ := Words.split_front h (by rwa [List.length_replicate])
    refine ih (v ++ [c]) ?_ (by rw [hrest, List.append_assoc]; rfl)
    by_cases hc : c = 0xFF
    · subst hc
      obtain ⟨x, hx, hne⟩ := hr.exists_ne_of_value rfl
      exact ⟨x, List.mem_append_left _ (mem_rest hv (List.mem_append_left _ hx) hne), hne⟩
    · exact ⟨c, by simp, hc⟩
  · rw [List.append_cons (r ++ [0xFF])] at h
    have hall := Words.eq_of_mem_front h (by
      rw [List.length_append, List.length_singleton]
      omega)
    have hc : c = 0xFF := hall c (by simp)
    subst hc
    obtain ⟨x, hx, hne⟩ := hr.exists_ne_of_value rfl
    exact hne (hall x (by simp [hx]))

theorem lostInside_of_ne {n b : UInt8} (hparted : Parted (.escape n b :: ts)) (hn : n ≠ 0xFF)
    (ih : Lost ts) (ihfull : b = 0xFF → Lost (.literal 0xFF :: ts)) : LostInside n b ts := by
  rintro r ⟨x, hx, hne⟩ h
  obtain ⟨k, hk⟩ : ∃ k, n.toNat = k + 2 := ⟨n.toNat - 2, by have := hparted.1; omega⟩
  rw [decompressZlib_literal hn, hk] at h
  cases r with
  | nil => exact absurd hx List.not_mem_nil
  | cons y r =>
    rw [List.cons_append, List.cons.injEq] at h
    by_cases hb : b = 0xFF
    · subst hb
      refine ihfull rfl (r ++ List.replicate (k + 1) 0xFF)
        (Or.inr ⟨by simp, ts, rfl, hparted.2.1 rfl hn⟩) (h.2.trans ?_)
      rw [List.replicate_succ' (n := k + 1), List.append_assoc, List.append_assoc]
      rfl
    · rw [decompressZlib_literal hb] at h
      cases r with
      | nil =>
        rw [List.nil_append, List.replicate_succ, List.cons_append, List.cons.injEq] at h
        exact ih (List.replicate (k + 1) b) (Or.inl ⟨b, by simp, hb⟩) h.2.2
      | cons y r =>
        rw [List.cons_append, List.cons.injEq, ← List.append_assoc] at h
        exact ih (r ++ List.replicate (k + 2) b) (Or.inl ⟨b, by simp, hb⟩) h.2.2

theorem split_longest {b y : UInt8} {r u e : List UInt8}
    (h : List.replicate b.toNat y ++ u = r ++ (List.replicate (0xFF : UInt8).toNat b ++ e)) :
    ∃ v, r ++ List.replicate (0xFF : UInt8).toNat b = List.replicate b.toNat y ++ v ∧
      u = v ++ e := by
  have hb := b.toNat_lt
  rw [← List.append_assoc] at h
  refine Words.split_front h ?_
  rw [List.length_append, List.length_replicate, List.length_replicate]
  change b.toNat ≤ r.length + 255
  omega

theorem lostInside_literal {b c : UInt8} (ih : Lost ts) : LostInside 0xFF b (.literal c :: ts) := by
  rintro r ⟨x, hx, hne⟩ h
  have hdecode : decompressZlib (0xFF :: b :: (Token.literal c :: ts).flatMap Token.bytes) =
      List.replicate b.toNat c ++ decompressZlib (ts.flatMap Token.bytes) := if_pos rfl
  obtain ⟨v, hv, hrest⟩ := split_longest (hdecode.symm.trans h)
  refine ih (v ++ [c]) (Or.inl ?_) (by rw [hrest, List.append_assoc]; rfl)
  by_cases hc : c = 0xFF
  · subst hc
    exact ⟨x, List.mem_append_left _ (mem_rest hv (List.mem_append_left _ hx) hne), hne⟩
  · exact ⟨c, by simp, hc⟩

theorem lostInside_escape {b n b' : UInt8} (ih : LostInside n b' ts) :
    LostInside 0xFF b (.escape n b' :: ts) := by
  rintro r ⟨x, hx, hne⟩ h
  have hdecode : decompressZlib (0xFF :: b :: (Token.escape n b' :: ts).flatMap Token.bytes) =
      List.replicate b.toNat 0xFF ++ decompressZlib (n :: b' :: ts.flatMap Token.bytes) := if_pos rfl
  obtain ⟨v, hv, hrest⟩ := split_longest (hdecode.symm.trans h)
  exact ih v ⟨x, mem_rest hv (List.mem_append_left _ hx) hne, hne⟩ hrest

theorem lostInside_nil (n b : UInt8) (hn : 3 < n.toNat) : LostInside n b [] := by
  rintro r ⟨x, hx, hne⟩ h
  have hlen := congrArg List.length h
  rw [List.flatMap_nil, decompressZlib_of_short le_rfl, List.flatMap_nil, List.append_nil,
    List.length_append, List.length_replicate] at hlen
  simp only [List.length_cons, List.length_nil] at hlen
  omega

end Steps

theorem lost_of_short {ts : List Token} (h : (ts.flatMap Token.bytes).length ≤ 2)
    (hexpand : ts.flatMap Token.expand = ts.flatMap Token.bytes) : Lost ts := by
  intro r hr heq
  rw [decompressZlib_of_short h, hexpand] at heq
  exact hr.ne_nil (List.append_left_eq_self.mp heq.symm)

theorem lost {ts : List Token} (h : Parted ts) :
    Lost ts ∧ ∀ n b ts', ts = .escape n b :: ts' → LostInside n b ts' := by
  induction hlen : ts.length using Nat.strong_induction_on generalizing ts with
  | _ k ih =>
    have ihlost : ∀ {ts'}, Parted ts' → ts'.length < k → Lost ts' := fun h' hlt =>
      (ih _ hlt h' rfl).1
    have ihinside : ∀ {n b ts'}, Parted (.escape n b :: ts') → ts'.length + 1 < k →
        LostInside n b ts' := fun h' hlt => (ih _ hlt h' rfl).2 _ _ _ rfl
    have hlost : ∀ {ts'}, Parted ts' → ts'.length ≤ k → Lost ts' := by
      intro ts' h' hle
      rcases ts' with _ | ⟨b | ⟨n, b⟩, ts'⟩
      · exact lost_of_short (Nat.zero_le _) rfl
      · rw [List.length_cons] at hle
        by_cases hb : b = 0xFF
        · subst hb
          rcases ts' with _ | ⟨c | ⟨n, b⟩, ts'⟩
          · exact lost_of_short (by decide) rfl
          · rw [List.length_cons] at hle
            rcases ts' with _ | ⟨y | ⟨n, b⟩, ts'⟩
            · exact lost_of_short le_rfl rfl
            · rw [List.length_cons] at hle
              exact lost_before_literals (ihlost h'.2.2.2 (by omega))
            · rw [List.length_cons] at hle
              exact lost_into_escape (ihinside h'.2.2 (by omega))
          · rw [List.length_cons] at hle
            refine lost_before_escape h'.2.1 (fun hb => h'.1 rfl n (hb ▸ rfl)) ?_
            exact ihlost h'.2.2.2 (by omega)
        · exact lost_literal hb (ihlost h'.2 hle)
      · exact lost_escape (ihlost h'.2.2 hle)
    refine ⟨hlost h hlen.le, ?_⟩
    rintro n b ts' rfl
    rw [List.length_cons] at hlen
    by_cases hn : n = 0xFF
    · subst hn
      rcases ts' with _ | ⟨c | ⟨n, b'⟩, ts'⟩
      · exact lostInside_nil _ _ h.1
      · rw [List.length_cons] at hlen
        exact lostInside_literal (ihlost h.2.2.2 (by omega))
      · rw [List.length_cons] at hlen
        exact lostInside_escape (ihinside h.2.2 (by omega))
    · refine lostInside_of_ne h hn (ihlost h.2.2 (by omega)) fun hb => ?_
      refine hlost ⟨fun _ m hm => h.2.1 hb hn _ hm rfl, h.2.2⟩ ?_
      rw [List.length_cons]
      omega

theorem head?_expand {ts : List Token} (h : Parted ts) :
    (ts.flatMap Token.expand).head? = ts.head?.map Token.value := by
  rcases ts with _ | ⟨b | ⟨n, b⟩, ts⟩
  · rfl
  · rfl
  · obtain ⟨k, hk⟩ : ∃ k, n.toNat = k + 1 := ⟨n.toNat - 1, by have := h.1; omega⟩
    rw [List.flatMap_cons, Token.expand, hk]
    rfl

theorem value_of_expand (ts : List Token) (h : Parted ts) {k : ℕ} {out : List UInt8}
    (heq : List.replicate (k + 1) 0xFF ++ out = ts.flatMap Token.expand) :
    ∃ t ∈ ts.head?, t.value = 0xFF := by
  have hhead := head?_expand h
  rw [← heq, List.replicate_succ, List.cons_append, List.head?_cons] at hhead
  exact Option.map_eq_some_iff.mp hhead.symm

theorem decompressZlib_stray {ts : List Token} (h : Parted (.literal 0xFF :: ts))
    (hthree : ∀ ts', ts = .literal 0xFF :: .literal 0xFF :: ts' → ∀ t ∈ ts'.head?, t.value ≠ 0xFF)
    (hlen : 2 ≤ (ts.flatMap Token.bytes).length) :
    decompressZlib ((Token.literal 0xFF :: ts).flatMap Token.bytes) ≠
      (Token.literal 0xFF :: ts).flatMap Token.expand := by
  intro heq
  rcases ts with _ | ⟨c | ⟨n, b⟩, ts⟩
  · simp at hlen
  · obtain ⟨k, hk⟩ : ∃ k, c.toNat = k := ⟨_, rfl⟩
    rcases ts with _ | ⟨y | ⟨n, b⟩, ts⟩
    · simp [Token.bytes] at hlen
    · have hlost := (lost h.2.2.2).1
      have hdecode : List.replicate c.toNat y ++ decompressZlib (ts.flatMap Token.bytes) =
          0xFF :: c :: y :: ts.flatMap Token.expand := heq
      rw [hk] at hdecode
      rcases k with _ | _ | k
      · obtain rfl : c = 0 := UInt8.toNat_inj.mp hk
        exact hlost [0xFF, 0, y] (Or.inl ⟨0, by simp, by decide⟩) hdecode
      · obtain rfl : c = 1 := UInt8.toNat_inj.mp hk
        exact hlost [1, y] (Or.inl ⟨1, by simp, by decide⟩) (List.cons.inj hdecode).2
      · simp only [List.replicate_succ, List.cons_append, List.cons.injEq] at hdecode
        obtain ⟨rfl, rfl, hdecode⟩ := hdecode
        obtain rfl : k = 253 := (Nat.succ.inj (Nat.succ.inj hk)).symm
        rw [List.replicate_succ, List.cons_append, List.cons.injEq, and_iff_right rfl] at hdecode
        obtain ⟨t, ht, hvalue⟩ := value_of_expand ts h.2.2.2 hdecode
        exact hthree ts rfl t ht hvalue
    · have hinside := (lost h.2.2).2 n b ts rfl
      have hdecode : List.replicate c.toNat 0xFF ++ decompressZlib (n :: b :: ts.flatMap Token.bytes) =
          0xFF :: c :: (List.replicate n.toNat b ++ ts.flatMap Token.expand) := heq
      rw [hk] at hdecode
      rcases k with _ | _ | k
      · obtain rfl : c = 0 := UInt8.toNat_inj.mp hk
        exact hinside [0xFF, 0] ⟨0, by simp, by decide⟩ hdecode
      · obtain rfl : c = 1 := UInt8.toNat_inj.mp hk
        exact hinside [1] ⟨1, by simp, by decide⟩ (List.cons.inj hdecode).2
      · simp only [List.replicate_succ, List.cons_append, List.cons.injEq, true_and] at hdecode
        obtain ⟨rfl, hdecode⟩ := hdecode
        obtain rfl : k = 253 := (Nat.succ.inj (Nat.succ.inj hk)).symm
        obtain ⟨t, ht, hvalue⟩ := value_of_expand (.escape n b :: ts) h.2.2 hdecode
        obtain rfl := Option.some.inj ht
        exact h.2.1 rfl n (congrArg (fun b => some (Token.escape n b)) hvalue)
  · have hdecode : List.replicate 255 n ++ decompressZlib (b :: ts.flatMap Token.bytes) =
        0xFF :: (List.replicate n.toNat b ++ ts.flatMap Token.expand) := heq
    rw [List.replicate_succ, List.cons_append, List.cons.injEq] at hdecode
    obtain ⟨rfl, hdecode⟩ := hdecode
    obtain ⟨t, ht, hvalue⟩ := value_of_expand (.escape 0xFF b :: ts) h.2 hdecode
    obtain rfl := Option.some.inj ht
    exact h.1 rfl 0xFF (congrArg (fun b => some (Token.escape 0xFF b)) hvalue)

end WitcherMP.Compression
