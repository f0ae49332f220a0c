import WitcherMP.Compression.Escapes

/-! How the encoder cuts data into runs of at most 255 bytes, and what is left over of a run of
0xFF: one to three bytes that go out as literals. -/

namespace WitcherMP.Compression

theorem runLength_run {b : UInt8} {limit n : ℕ} {rest : List UInt8} (hn : n ≤ limit)
    (hstop : n < limit → rest[0]? ≠ some b) :
    runLength b limit (List.replicate n b ++ rest) = n := by
  induction n generalizing limit with
  | zero =>
    rcases limit with _ | limit
    · rfl
    · cases rest with
      | nil => rfl
      | cons x rest => exact if_neg fun hx => hstop (Nat.succ_pos _) (by rw [hx]; rfl)
  | succ n ih =>
    obtain ⟨limit, rfl⟩ : ∃ m, limit = m + 1 := ⟨limit - 1, by omega⟩
    rw [List.replicate_succ, List.cons_append, runLength, if_pos rfl,
      ih (by omega) fun hlt => hstop (by omega)]

theorem runTokensLoop_fuel {fuel : ℕ} {data : List UInt8} (h : data.length ≤ fuel) :
    runTokensLoop fuel data = runTokens data := by
  induction fuel using Nat.strong_induction_on generalizing data with
  | _ fuel ih =>
    cases data with
    | nil => cases fuel <;> rfl
    | cons current data =>
      rw [List.length_cons] at h
      obtain ⟨fuel, rfl⟩ : ∃ m, fuel = m + 1 := ⟨fuel - 1, by omega⟩
      have hle := List.length_drop (l := data) (i := runLength current 254 data + 1 - 1)
      rw [runTokens, List.length_cons, runTokensLoop, runTokensLoop]
      rw [ih fuel (Nat.lt_succ_self _) (by omega)]
      by_cases hlt : data.length < fuel + 1
      · rw [ih data.length hlt (by omega)]
      · omega

theorem runTokens_run {b : UInt8} {n : ℕ} {rest : List UInt8} (hpos : 0 < n) (hn : n ≤ 255)
    (hstop : n < 255 → rest[0]? ≠ some b) :
    runTokens (List.replicate n b ++ rest) =
      (if 3 < n then [.escape (.ofNat n) b] else List.replicate n (.literal b)) ++ runTokens rest := by
  obtain ⟨n, rfl⟩ : ∃ m, n = m + 1 := ⟨n - 1, by omega⟩
  have hrun : runLength b 254 (List.replicate n b ++ rest) = n :=
    runLength_run (by omega) fun hlt => hstop (by omega)
  rw [List.replicate_succ, List.cons_append, runTokens, List.length_cons, runTokensLoop]
  rw [hrun, Nat.add_sub_cancel, List.drop_left' (List.length_replicate ..),
    runTokensLoop_fuel (by simp)]

theorem exists_run {data : List UInt8} (h : data ≠ []) :
    ∃ b n rest, 0 < n ∧ data = List.replicate n b ++ rest ∧ rest[0]? ≠ some b := by
  induction data with
  | nil => exact absurd rfl h
  | cons b data ih =>
    by_cases hb : data[0]? = some b
    · obtain ⟨c, n, rest, hpos, hdata, hstop⟩ := ih (fun hnil => by rw [hnil] at hb; cases hb)
      obtain ⟨m, rfl⟩ : ∃ m, n = m + 1 := ⟨n - 1, by omega⟩
      obtain rfl : c = b := by
        rw [hdata] at hb
        exact Option.some.inj hb
      exact ⟨c, m + 2, rest, Nat.succ_pos _, by rw [hdata]; rfl, hstop⟩
    · exact ⟨b, 1, data, Nat.one_pos, rfl, hb⟩

theorem run_induction {P : List UInt8 → Prop} (nil : P [])
    (run : ∀ b n rest, 0 < n → rest[0]? ≠ some b → P rest → P (List.replicate n b ++ rest))
    (data : List UInt8) : P data := by
  induction hlen : data.length using Nat.strong_induction_on generalizing data with
  | _ k ih =>
    by_cases h : data = []
    · exact h ▸ nil
    · obtain ⟨b, n, rest, hpos, rfl, hstop⟩ := exists_run h
      rw [List.length_append, List.length_replicate] at hlen
      exact run b n rest hpos hstop (ih rest.length (by omega) rest rfl)

theorem cut_induction {P : List UInt8 → Prop} (nil : P [])
    (cut : ∀ b n rest, 0 < n → n ≤ 255 → (n < 255 → rest[0]? ≠ some b) → P rest →
      P (List.replicate n b ++ rest)) (data : List UInt8) : P data := by
  induction data using run_induction with
  | nil => exact nil
  | run b n rest hpos hstop ih =>
    clear hpos
    induction n using Nat.strong_induction_on with
    | _ n ihn =>
      rcases Nat.eq_zero_or_pos n with rfl | hpos
      · exact ih
      · by_cases hn : n ≤ 255
        · exact cut b n rest hpos hn (fun _ => hstop) ih
        · have hsplit : List.replicate n b ++ rest =
              List.replicate 255 b ++ (List.replicate (n - 255) b ++ rest) := by
            rw [← List.append_assoc, ← List.replicate_add, Nat.add_sub_cancel' (by omega)]
          rw [hsplit]
          exact cut b 255 _ (by decide) le_rfl (fun hlt => absurd hlt (lt_irrefl _))
            (ihn (n - 255) (by omega))

theorem expand_runTokens (data : List UInt8) : (runTokens data).flatMap Token.expand = data := by
  induction data using cut_induction with
  | nil => rfl
  | cut b n rest hpos hn hstop ih =>
    rw [runTokens_run hpos hn hstop]
    split
    · rw [List.singleton_append, List.flatMap_cons, ih, Token.expand, UInt8.toNat_ofNat',
        Nat.mod_eq_of_lt (by omega)]
    · rw [flatMap_literals fun _ => rfl, ih]

theorem parted_literals {n : ℕ} {b : UInt8} {ts : List Token} (h : Parted ts)
    (hb : ∀ t ∈ ts.head?, t.value ≠ b) : Parted (List.replicate n (.literal b) ++ ts) := by
  induction n with
  | zero => exact h
  | succ n ih =>
    refine ⟨?_, ih⟩
    rintro rfl m hm
    rcases n with _ | n
    · exact hb _ hm rfl
    · cases hm

theorem parted_runTokens (data : List UInt8) : Parted (runTokens data) := by
  induction data using cut_induction with
  | nil => trivial
  | cut b n rest hpos hn hstop ih =>
    have hhead : n < 255 → ∀ t ∈ (runTokens rest).head?, t.value ≠ b := by
      intro hlt t ht hvalue
      have hexpand := head?_expand ih
      rw [expand_runTokens, ht, Option.map_some, hvalue, List.head?_eq_getElem?] at hexpand
      exact hstop hlt hexpand
    rw [runTokens_run hpos hn hstop]
    split
    · next h3 =>
      refine ⟨?_, fun hb hfull => ?_, ih⟩
      · rwa [UInt8.toNat_ofNat', Nat.mod_eq_of_lt (by omega)]
      · rw [← hb]
        refine hhead (lt_of_le_of_ne hn ?_)
        rintro rfl
        exact hfull rfl
    · next h3 => exact parted_literals ih (hhead (by omega))

theorem clean_of_decompress (data : List UInt8) (h : decompressZlib (compressZlib data) = data) :
    Clean (runTokens data) := by
  rw [← bytes_runTokens] at h
  induction data using cut_induction with
  | nil => trivial
  | cut b n rest hpos hn hstop ih =>
    have hparted := parted_runTokens (List.replicate n b ++ rest)
    have hexpand := expand_runTokens (List.replicate n b ++ rest)
    rw [runTokens_run hpos hn hstop] at h hparted hexpand ⊢
    by_cases h3 : 3 < n
    · rw [if_pos h3] at h ⊢
      rw [List.singleton_append, decompressZlib_escape (by omega), List.append_cancel_left_eq] at h
      exact ih h
    · rw [if_neg h3] at h hparted hexpand ⊢
      by_cases hb : b = 0xFF
      · subst hb
        by_cases hlen : n + ((runTokens rest).flatMap Token.bytes).length ≤ 2
        · refine clean_of_short ?_
          rwa [bytes_literals, List.length_append, List.length_replicate]
        · obtain ⟨m, rfl⟩ : ∃ m, n = m + 1 := ⟨n - 1, by omega⟩
          rw [List.replicate_succ, List.cons_append] at hparted hexpand h
          refine absurd (h.trans hexpand.symm) (decompressZlib_stray hparted ?_ ?_)
          · intro ts' hts t ht hvalue
            have hrest : (runTokens rest).head?.map Token.value ≠ some 0xFF := by
              rw [← head?_expand (parted_runTokens rest), expand_runTokens, List.head?_eq_getElem?]
              exact hstop (by omega)
            refine hrest ?_
            obtain rfl | rfl | rfl : m = 0 ∨ m = 1 ∨ m = 2 := by omega
            · have htokens : runTokens rest = _ := hts
              rw [htokens]
              rfl
            · have htokens : runTokens rest = _ := (List.cons.inj hts).2
              rw [htokens]
              rfl
            · have htokens : runTokens rest = _ := (List.cons.inj (List.cons.inj hts).2).2
              rw [htokens, ht, Option.map_some, hvalue]
          · rw [bytes_literals, List.length_append, List.length_replicate]
            omega
      · rw [bytes_literals, decompressZlib_literals hb, List.append_cancel_left_eq] at h
        exact (clean_literals hb).mpr (ih h)

/-- One to three bytes left over of a run of 0xFF, by 255 at a time, are the end of the data, with
at most one byte behind a single one. -/
def LeftoversLast (data : List UInt8) : Prop :=
  ∀ front n rest, data = front ++ (List.replicate n 0xFF ++ rest) → front.getLast? ≠ some 0xFF →
    rest.head? ≠ some 0xFF → n % 255 ∈ [1, 2, 3] → n % 255 + rest.length ≤ 2

theorem leftoversLast_run {b : UInt8} {n : ℕ} {rest : List UInt8} (hstop : rest.head? ≠ some b) :
    LeftoversLast (List.replicate n b ++ rest) ↔
      (b = 0xFF → n % 255 ∈ [1, 2, 3] → n % 255 + rest.length ≤ 2) ∧ LeftoversLast rest := by
  have hsome : ∀ {m : ℕ}, m % 255 ∈ [1, 2, 3] → ∃ k, m = k + 1 := by
    intro m hm
    refine ⟨m - 1, ?_⟩
    rcases Nat.eq_zero_or_pos m with rfl | hpos
    · simp at hm
    · omega
  constructor
  · intro h
    refine ⟨fun hb => h [] n rest (by rw [hb]; rfl) (by simp) (hb ▸ hstop), ?_⟩
    intro front m rest' hdata hfront hrest hm
    refine h (List.replicate n b ++ front) m rest' (by rw [hdata, List.append_assoc]) ?_ hrest hm
    cases front with
    | nil =>
      obtain ⟨k, rfl⟩ := hsome hm
      rw [List.append_nil]
      intro hlast
      refine hstop ?_
      rw [hdata, List.eq_of_mem_replicate (List.mem_of_getLast? hlast)]
      rfl
    | cons x front =>
      rwa [List.getLast?_append_of_ne_nil _ (List.cons_ne_nil x front)]
  · rintro ⟨hfirst, hlater⟩ front m rest' hdata hfront hrest hm
    rcases List.append_eq_append_iff.mp hdata with ⟨v, hv, hgo⟩ | ⟨w, hw, hgo⟩
    · refine hlater v m rest' hgo ?_ hrest hm
      cases v with
      | nil => simp
      | cons x v =>
        rwa [hv, List.getLast?_append_of_ne_nil _ (List.cons_ne_nil x v)] at hfront
    · obtain ⟨k, rfl⟩ := hsome hm
      cases w with
      | nil => exact hlater [] (k + 1) rest' hgo.symm (by simp) hrest hm
      | cons x w =>
        obtain rfl : x = 0xFF := (List.cons.inj hgo).1.symm
        have hall : ∀ y ∈ front ++ 0xFF :: w, y = b := fun y hy =>
          List.eq_of_mem_replicate (hw ▸ hy)
        obtain rfl : b = 0xFF := (hall 0xFF (by simp)).symm
        cases hlast : front.getLast? with
        | some y =>
          have hy := hall y (List.mem_append_left _ (List.mem_of_getLast? hlast))
          exact absurd (hlast.trans (congrArg some hy)) hfront
        | none =>
          rw [List.getLast?_eq_none_iff.mp hlast, List.nil_append] at hw
          rw [← hw] at hgo
          obtain ⟨rfl, rfl⟩ := Words.replicate_append_inj hrest hstop hgo
          exact hfirst rfl hm

theorem Runs.bytes_of_short {data : List UInt8} {ts : List Token} (h : Runs data ts)
    (hlen : (ts.flatMap Token.bytes).length ≤ 2) : ts.flatMap Token.bytes = data := by
  induction h with
  | nil => rfl
  | long h3 hn h ih =>
    simp only [List.flatMap_cons, Token.bytes, List.length_append, List.length_cons] at hlen
    omega
  | short hpos h3 hstop h ih =>
    rw [bytes_literals, List.length_append] at hlen
    rw [bytes_literals, ih (by omega)]

theorem clean_runTokens_run {b : UInt8} {n : ℕ} {rest : List UInt8} (hstop : rest.head? ≠ some b) :
    Clean (runTokens (List.replicate n b ++ rest)) ↔
      (b = 0xFF → n % 255 ∈ [1, 2, 3] → n % 255 + rest.length ≤ 2) ∧ Clean (runTokens rest) := by
  induction n using Nat.strong_induction_on with
  | _ n ih =>
    rw [List.head?_eq_getElem?] at hstop
    have hshort := (runs_runTokens rest).bytes_of_short
    have hle := (runs_runTokens rest).length_bytes.1
    by_cases hn : 255 < n
    · have hsplit : List.replicate n b ++ rest =
          List.replicate 255 b ++ (List.replicate (n - 255) b ++ rest) := by
        rw [← List.append_assoc, ← List.replicate_add, Nat.add_sub_cancel' hn.le]
      rw [hsplit, runTokens_run (by decide) le_rfl fun hlt => absurd hlt (lt_irrefl _),
        if_pos (by decide), List.singleton_append, Clean, Nat.mod_eq_sub_mod hn.le]
      exact ih (n - 255) (by omega)
    · rcases Nat.eq_zero_or_pos n with rfl | hpos
      · exact (and_iff_right fun _ h => absurd h (by decide)).symm
      rw [runTokens_run hpos (not_lt.mp hn) fun _ => hstop]
      by_cases h3 : 3 < n
      · have hnone : n % 255 ∉ [1, 2, 3] := by
          simp only [List.mem_cons, List.not_mem_nil, or_false]
          omega
        rw [if_pos h3]
        exact (and_iff_right fun _ h => absurd h hnone).symm
      · rw [if_neg h3, Nat.mod_eq_of_lt (by omega)]
        by_cases hb : b = 0xFF
        · subst hb
          have hmem : n ∈ [1, 2, 3] := by
            simp only [List.mem_cons, List.not_mem_nil, or_false]
            omega
          constructor
          · intro h
            obtain ⟨hlen, hclean⟩ := length_of_clean_literals hpos h
            rw [hshort (by omega)] at hlen
            exact ⟨fun _ _ => hlen, hclean⟩
          · rintro ⟨hlen, -⟩
            have hlen := hlen rfl hmem
            refine clean_of_short ?_
            rw [bytes_literals, List.length_append, List.length_replicate]
            omega
        · rw [clean_literals hb]
          exact (and_iff_right fun h => absurd h hb).symm

theorem clean_runTokens_iff (data : List UInt8) : Clean (runTokens data) ↔ LeftoversLast data := by
  induction data using run_induction with
  | nil =>
    refine iff_of_true trivial fun front n rest hdata _ _ hn => ?_
    have hlen := congrArg List.length hdata
    simp only [List.length_nil, List.length_append, List.length_replicate] at hlen
    obtain rfl : n = 0 := by omega
    exact absurd hn (by decide)
  | run b n rest hpos hstop ih =>
    rw [← List.head?_eq_getElem?] at hstop
    rw [clean_runTokens_run hstop, leftoversLast_run hstop, ih]

/-- The data come back exactly when of no run of 0xFF one to three bytes are left over before the
last two bytes. -/
theorem decompressZlib_compressZlib_iff (data : List UInt8) :
    decompressZlib (compressZlib data) = data ↔ LeftoversLast data := by
  rw [← clean_runTokens_iff]
  refine ⟨clean_of_decompress data, fun h => ?_⟩
  rw [← bytes_runTokens]
  exact (runs_runTokens data).decompress_of_clean h

theorem not_decompressZlib_compressZlib :
    ¬ ∀ data : List UInt8, decompressZlib (compressZlib data) = data := by
  intro h
  have hthree := h [0xFF, 1, 2]
  revert hthree
  decide

end WitcherMP.Compression
