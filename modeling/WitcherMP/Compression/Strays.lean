import WitcherMP.Compression.RoundTrip

/-! Literals that read as escapes: which data the decoders leave as they are, and which they give
back although the encoders wrote such literals. -/

namespace WitcherMP.Compression

theorem ne_replicate_append_decompressZlib {n : ℕ} (hn : 3 ≤ n) (bs : List UInt8) :
    bs ≠ List.replicate n 0xFF ++ decompressZlib bs := by
  induction hlen : bs.length using Nat.strong_induction_on generalizing bs n with
  | _ k ih =>
    intro h
    obtain ⟨m, rfl⟩ : ∃ m, n = m + 3 := ⟨n - 3, by omega⟩
    obtain ⟨rest, hrest⟩ : ∃ rest, rest = List.replicate m 0xFF ++ decompressZlib bs := ⟨_, rfl⟩
    have hbs : bs = 0xFF :: 0xFF :: 0xFF :: rest := by
      rw [hrest]
      conv_lhs => rw [h]
      rw [List.replicate_succ, List.replicate_succ, List.replicate_succ]
      rfl
    have hdecode : decompressZlib bs = List.replicate 255 0xFF ++ decompressZlib rest := by
      rw [hbs, decompressZlib, if_pos rfl]
      rfl
    rw [hdecode, ← List.append_assoc, ← List.replicate_add] at hrest
    refine ih rest.length ?_ (by omega) rest rfl hrest
    rw [← hlen, hbs]
    simp only [List.length_cons]
    omega

theorem escape_ne {count value : UInt8} (bs : List UInt8) :
    List.replicate count.toNat value ++ decompressZlib bs ≠ 0xFF :: count :: value :: bs := by
  intro h
  by_cases hfull : count = 0xFF
  · subst hfull
    have hrun : List.replicate 255 value ++ decompressZlib bs = 0xFF :: 0xFF :: value :: bs := h
    rw [List.replicate_succ, List.cons_append, List.cons.injEq] at hrun
    obtain ⟨rfl, hrun⟩ := hrun
    rw [List.replicate_succ, List.replicate_succ, List.cons_append, List.cons_append,
      List.cons.injEq, List.cons.injEq] at hrun
    exact ne_replicate_append_decompressZlib (n := 252) (by decide) bs hrun.2.2.symm
  · generalize hk : count.toNat = k at h
    match k with
    | 0 => exact decompressZlib_ne (r := [0xFF, count, value]) (by simp) hfull bs h
    | 1 =>
      rw [List.replicate_one, List.singleton_append, List.cons.injEq] at h
      exact decompressZlib_ne (r := [count, value]) (by simp) hfull bs h.2
    | k + 2 =>
      rw [List.replicate_succ, List.replicate_succ, List.cons_append, List.cons_append,
        List.cons.injEq, List.cons.injEq] at h
      exact hfull (h.2.1.symm.trans h.1)

theorem decompressZlib_eq_self_iff (bs : List UInt8) :
    decompressZlib bs = bs ↔ ∀ b ∈ bs.dropLast.dropLast, b ≠ 0xFF := by
  induction bs using tokens.induct with
  | case1 count value bs ih =>
    rw [decompressZlib, if_pos rfl]
    exact iff_of_false (escape_ne bs) fun h => h 0xFF (by simp) rfl
  | case2 b count value bs hb ih =>
    have hdrop : (b :: count :: value :: bs).dropLast.dropLast =
        b :: (count :: value :: bs).dropLast.dropLast := rfl
    rw [decompressZlib, if_neg hb, List.cons.injEq, and_iff_right rfl, ih, hdrop,
      List.forall_mem_cons, and_iff_right hb]
  | case3 bs h =>
    rcases bs with _ | ⟨b, _ | ⟨count, _ | ⟨value, bs⟩⟩⟩
    · exact iff_of_true rfl (by simp)
    · exact iff_of_true rfl (by simp)
    · exact iff_of_true rfl (by simp)
    · exact absurd rfl (h b count value bs)

/-- Each literal 0xFF is one of the last two bytes. -/
def Clean : List Token → Prop
  | [] => True
  | .literal b :: ts => (b = 0xFF → (ts.flatMap Token.bytes).length < 2) ∧ Clean ts
  | .escape _ _ :: ts => Clean ts

theorem clean_of_short {ts : List Token} (h : (ts.flatMap Token.bytes).length ≤ 2) : Clean ts := by
  induction ts with
  | nil => trivial
  | cons t ts ih =>
    rw [List.flatMap_cons, List.length_append] at h
    cases t with
    | literal b =>
      rw [Token.bytes, List.length_singleton] at h
      exact ⟨fun _ => by omega, ih (by omega)⟩
    | escape count value => exact ih (by omega)

theorem clean_literals {n : ℕ} {b : UInt8} {ts : List Token} (hb : b ≠ 0xFF) :
    Clean (List.replicate n (.literal b) ++ ts) ↔ Clean ts := by
  induction n with
  | zero => exact Iff.rfl
  | succ n ih =>
    rw [List.replicate_succ, List.cons_append, Clean, ih]
    exact and_iff_right fun h => absurd h hb

theorem length_of_clean_literals {n : ℕ} {ts : List Token} (hpos : 0 < n)
    (h : Clean (List.replicate n (.literal 0xFF) ++ ts)) :
    n + (ts.flatMap Token.bytes).length ≤ 2 ∧ Clean ts := by
  induction n with
  | zero => omega
  | succ n ih =>
    rw [List.replicate_succ, List.cons_append, Clean, bytes_literals, List.length_append,
      List.length_replicate] at h
    have hlen := h.1 rfl
    refine ⟨by omega, ?_⟩
    by_cases hn : 0 < n
    · exact (ih hn h.2).2
    · rw [Nat.eq_zero_of_not_pos hn] at h
      exact h.2

namespace Runs
variable {data : List UInt8} {ts : List Token}

theorem decompress_of_clean (h : Runs data ts) (hclean : Clean ts) :
    decompressZlib (ts.flatMap Token.bytes) = data := by
  induction h with
  | nil => rfl
  | long h3 hn h ih => rw [decompressZlib_escape hn, ih hclean]
  | @short n b data ts hpos h3 hstop h ih =>
    rw [bytes_literals]
    by_cases hb : b = 0xFF
    · subst hb
      obtain ⟨hlen, hclean⟩ := length_of_clean_literals hpos hclean
      have hrest := ih hclean
      rw [decompressZlib_of_short (by omega)] at hrest
      rw [hrest] at hlen ⊢
      exact decompressZlib_of_short (by rwa [List.length_append, List.length_replicate])
    · rw [decompressZlib_literals hb, ih ((clean_literals hb).mp hclean)]

end Runs

/-- A high byte that stands so early that the byte behind it can be too large for a distance. -/
def Early (bs : List UInt8) : Prop := ∃ b ∈ bs.take 255, 0x80 ≤ b

theorem plain_append {front bs : List UInt8} (hfront : ∀ b ∈ front, ¬ 0x80 ≤ b) (h : Plain bs) :
    Plain (front ++ bs) := by
  cases bs with
  | nil =>
    rw [List.append_nil]
    exact plain_of_low hfront
  | cons b bs =>
    rw [Plain, List.dropLast_append_of_ne_nil (List.cons_ne_nil b bs), List.forall_mem_append]
    exact ⟨hfront, h⟩

theorem low_of_mem_copyBack {out : List UInt8} (hlow : ∀ b ∈ out, ¬ 0x80 ≤ b)
    (length distance : ℕ) : ∀ b ∈ copyBack out length distance, ¬ 0x80 ≤ b := by
  intro b hb
  obtain ⟨j, -, rfl⟩ := List.mem_map.mp hb
  rw [List.getD_eq_getElem?_getD]
  cases hget : out[out.length - distance + j % distance]? with
  | none => decide
  | some x => exact hlow x (List.mem_of_getElem? hget)

theorem decompressLZ4Loop_stuck {b distance : UInt8} {done bs rest : List UInt8}
    (hlow : ∀ x ∈ done, ¬ 0x80 ≤ x) (hb : 0x80 ≤ b) (hle : distance.toNat ≤ done.length) :
    decompressLZ4Loop (b :: distance :: bs) done ≠ some (done ++ b :: rest) := by
  intro h
  rw [decompressLZ4Loop, if_pos ((Bytes.high_iff b).mpr hb), if_pos hle] at h
  split_ifs at h with hzero
  have hbegins := prefix_of_decompressLZ4Loop h
  rw [List.prefix_append_right_inj] at hbegins
  have hcopied := low_of_mem_copyBack hlow ((b &&& 0x7F) + 3).toNat distance.toNat
  have hlen : (copyBack done ((b &&& 0x7F) + 3).toNat distance.toNat).length ≠ 0 := by
    rw [copyBack, List.length_map, List.length_range]
    exact length_ne_zero b
  generalize copyBack done ((b &&& 0x7F) + 3).toNat distance.toNat = copied at *
  cases copied with
  | nil => exact hlen rfl
  | cons x xs =>
    rw [List.cons_prefix_cons] at hbegins
    exact hcopied x (List.mem_cons_self ..) (hbegins.1 ▸ hb)

theorem early_of_lt {b : UInt8} {done rest : List UInt8} (hb : 0x80 ≤ b)
    (hlt : done.length < 255) : Early (done ++ b :: rest) := by
  refine ⟨b, List.mem_of_getElem? (i := done.length) ?_, hb⟩
  rw [List.getElem?_take_of_lt hlt, List.getElem?_append_right le_rfl, Nat.sub_self]
  rfl

theorem plain_or_early {done rest : List UInt8} (hlow : ∀ b ∈ done, ¬ 0x80 ≤ b)
    (h : decompressLZ4Loop rest done = some (done ++ rest)) : Plain rest ∨ Early (done ++ rest) := by
  match rest with
  | [] => exact Or.inl fun b hb => absurd hb List.not_mem_nil
  | [_] => exact Or.inl fun b hb => absurd hb List.not_mem_nil
  | b :: distance :: bs =>
    by_cases hb : 0x80 ≤ b
    · by_cases hlt : done.length < 255
      · exact Or.inr (early_of_lt hb hlt)
      · have hle := distance.toNat_lt
        exact absurd h (decompressLZ4Loop_stuck hlow hb (by omega))
    · rw [decompressLZ4Loop_literal hb] at h
      have hdone : ∀ x ∈ done ++ [b], ¬ 0x80 ≤ x := by
        rw [List.forall_mem_append, List.forall_mem_singleton]
        exact ⟨hlow, hb⟩
      rw [List.append_cons done b (distance :: bs)] at h ⊢
      exact (plain_or_early hdone h).imp (fun hbs => plain_cons_cons.mpr ⟨hb, hbs⟩) id

theorem plain_or_early_of_eq_self {bs : List UInt8} (h : decompressLZ4 bs = some bs) :
    Plain bs ∨ Early bs :=
  @plain_or_early [] bs (fun _ hb => absurd hb List.not_mem_nil) h

theorem Matches.plain_or_early {done rest code : List UInt8} (h : Matches done rest code)
    (hlow : ∀ b ∈ done, ¬ 0x80 ≤ b) (hback : decompressLZ4Loop code done = some (done ++ rest)) :
    Plain rest ∨ Early (done ++ rest) := by
  induction h with
  | nil => exact Or.inl fun b hb => absurd hb List.not_mem_nil
  | @copy done rest code n distance hm h3 h ih =>
    have hcopied : ∀ b ∈ rest.take n, ¬ 0x80 ≤ b := by
      rw [← hm.copy]
      exact fun b hb => hlow b (List.mem_of_mem_drop (List.mem_of_mem_take hb))
    have hstep := decompressLZ4Loop_match (w := []) hm h3 code
    simp only [List.nil_append] at hstep
    have hrest := ih (List.forall_mem_append.mpr ⟨hlow, hcopied⟩)
    rw [List.append_assoc, List.take_append_drop] at hrest
    refine (hrest (hstep ▸ hback)).imp (fun hplain => ?_) id
    rw [← List.take_append_drop n rest]
    exact plain_append hcopied hplain
  | @literal done rest code b hnone h ih =>
    by_cases hb : 0x80 ≤ b
    · by_cases hlt : done.length < 255
      · exact Or.inr (early_of_lt hb hlt)
      · refine Or.inl ?_
        cases hcode : code with
        | nil =>
          rw [hcode] at h
          cases h
          exact fun b hb => absurd hb List.not_mem_nil
        | cons distance code' =>
          have hle := distance.toNat_lt
          rw [hcode] at hback
          exact absurd hback (decompressLZ4Loop_stuck hlow hb (by omega))
    · have hdone : ∀ x ∈ done ++ [b], ¬ 0x80 ≤ x := by
        rw [List.forall_mem_append, List.forall_mem_singleton]
        exact ⟨hlow, hb⟩
      rw [decompressLZ4Loop_literal hb, List.append_cons done b rest] at hback
      rw [List.append_cons done b rest]
      refine (ih hdone hback).imp (fun hplain => ?_) id
      exact @plain_append [b] rest (by simpa using hb) hplain

end WitcherMP.Compression
