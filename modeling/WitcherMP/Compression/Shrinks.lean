import WitcherMP.Compression.Codecs

/-! Which data a codec makes shorter: for the run lengths, those with four equal bytes in a
row; for the matches, those where three bytes come again within 255. -/

namespace WitcherMP.Compression

def HasRun (data : List UInt8) : Prop := ∃ i b, ∀ k < 4, data[i + k]? = some b

theorem hasRun_replicate_append {n : ℕ} (hn : n ≤ 3) {current : UInt8} {bs : List UInt8}
    (hstop : bs[0]? ≠ some current) :
    HasRun (List.replicate n current ++ bs) ↔ HasRun bs := by
  constructor
  · rintro ⟨i, b, h⟩
    by_cases hi : i < n
    · have hfirst := h 0 (by omega)
      rw [List.getElem?_append_left (by rw [List.length_replicate]; omega),
        List.getElem?_replicate_of_lt (by omega)] at hfirst
      have hlast := h (n - i) (by omega)
      rw [List.getElem?_append_right (by rw [List.length_replicate]; omega), List.length_replicate,
        Nat.add_sub_cancel' hi.le, Nat.sub_self, ← hfirst] at hlast
      exact absurd hlast hstop
    · refine ⟨i - n, b, fun k hk => ?_⟩
      have hk' := h k hk
      rwa [List.getElem?_append_right (by rw [List.length_replicate]; omega), List.length_replicate,
        Nat.sub_add_comm (not_lt.mp hi)] at hk'
  · rintro ⟨i, b, h⟩
    refine ⟨n + i, b, fun k hk => ?_⟩
    rw [List.getElem?_append_right (by rw [List.length_replicate]; omega), List.length_replicate,
      Nat.add_assoc, Nat.add_sub_cancel_left, h k hk]

theorem hasRun_replicate {n : ℕ} (hn : 3 < n) (b : UInt8) (bs : List UInt8) :
    HasRun (List.replicate n b ++ bs) := by
  refine ⟨0, b, fun k hk => ?_⟩
  rw [List.getElem?_append_left (by rw [List.length_replicate]; omega),
    List.getElem?_replicate_of_lt (by omega)]

theorem not_hasRun_nil : ¬ HasRun [] := fun ⟨_, _, h⟩ => by simpa using h 0 (by decide)

theorem Runs.length_bytes {data : List UInt8} {ts : List Token} (h : Runs data ts) :
    (ts.flatMap Token.bytes).length ≤ data.length ∧
      ((ts.flatMap Token.bytes).length < data.length ↔ HasRun data) := by
  induction h with
  | nil => exact ⟨le_rfl, iff_of_false (lt_irrefl 0) not_hasRun_nil⟩
  | long h3 hn h ih =>
    simp only [List.flatMap_cons, Token.bytes, List.length_append, List.length_cons,
      List.length_nil, List.length_replicate]
    exact ⟨by omega, iff_of_true (by omega) (hasRun_replicate h3 _ _)⟩
  | short hpos h3 hstop h ih =>
    rw [bytes_literals, hasRun_replicate_append h3 hstop, ← ih.2]
    simp only [List.length_append, List.length_replicate]
    omega

theorem Runs.bytes_eq {data : List UInt8} {ts : List Token} (h : Runs data ts)
    (hnone : ¬ HasRun data) : ts.flatMap Token.bytes = data := by
  induction h with
  | nil => rfl
  | long h3 hn h ih => exact absurd (hasRun_replicate h3 _ _) hnone
  | short hpos h3 hstop h ih =>
    rw [hasRun_replicate_append h3 hstop] at hnone
    rw [bytes_literals, ih hnone]

theorem length_compressZlib_lt (data : List UInt8) :
    (compressZlib data).length < data.length ↔ HasRun data := by
  rw [← bytes_runTokens]
  exact (runs_runTokens data).length_bytes.2

theorem compressZlib_eq_self {data : List UInt8} (h : ¬ HasRun data) : compressZlib data = data := by
  rw [← bytes_runTokens]
  exact (runs_runTokens data).bytes_eq h

/-- Three bytes at `n` or later that were there before, 255 back at most and no overlap. -/
def RepeatsFrom (n : ℕ) (data : List UInt8) : Prop :=
  ∃ i j, n ≤ j ∧ i + 3 ≤ j ∧ j ≤ i + 255 ∧ j + 3 ≤ data.length ∧
    (data.drop i).take 3 = (data.drop j).take 3

theorem le_matchLength {limit m : ℕ} {as bs : List UInt8} (hl : m ≤ limit) (ha : m ≤ as.length)
    (h : as.take m = bs.take m) : m ≤ matchLength limit as bs := by
  induction m generalizing limit as bs with
  | zero => exact Nat.zero_le _
  | succ m ih =>
    obtain ⟨limit, rfl⟩ := Nat.exists_eq_add_of_lt hl
    match as, bs with
    | a :: as, b :: bs =>
      rw [List.take_succ_cons, List.take_succ_cons, List.cons.injEq] at h
      rw [List.length_cons] at ha
      rw [matchLength, if_pos h.1]
      exact Nat.succ_le_succ (ih (by omega) (by omega) h.2)
    | a :: as, [] => cases h

theorem matchLength_le_findMatch {done : List UInt8} {j : ℕ} (hj : done.length ≤ j + 255)
    (hlt : j < done.length) (rest : List UInt8) :
    matchLength 15 (done.drop j) rest ≤ (findMatch done rest).1 := by
  have key : ∀ (js : List ℕ) (best : ℕ × ℕ),
      let r := js.foldl (fun best j =>
        let len := matchLength 15 (done.drop j) rest
        if len > best.1 then (len, done.length - j) else best) best
      best.1 ≤ r.1 ∧ ∀ j ∈ js, matchLength 15 (done.drop j) rest ≤ r.1 := by
    intro js
    induction js with
    | nil => exact fun best => ⟨le_rfl, fun j hj => absurd hj List.not_mem_nil⟩
    | cons i js ih =>
      intro best
      obtain ⟨hbest, hjs⟩ := ih (if matchLength 15 (done.drop i) rest > best.1 then
        (matchLength 15 (done.drop i) rest, done.length - i) else best)
      refine ⟨?_, List.forall_mem_cons.mpr ⟨?_, hjs⟩⟩
      all_goals
        refine le_trans ?_ hbest
        split
        · dsimp only
          omega
        · omega
  refine (key _ (0, 0)).2 j ?_
  rw [List.mem_range'_1]
  omega

theorem IsMatch.repeatsFrom {done rest : List UInt8} {length distance : ℕ}
    (hm : IsMatch done rest length distance) (h3 : 3 ≤ length) :
    RepeatsFrom done.length (done ++ rest) := by
  have hle := hm.le_distance
  have hrest := hm.le_rest
  obtain ⟨hdone, hdist⟩ := hm.distance_le
  refine ⟨done.length - distance, done.length, le_rfl, by omega, by omega, ?_, ?_⟩
  · rw [List.length_append]
    omega
  · have hcopy := congrArg (List.take 3) hm.copy
    rw [List.take_take, List.take_take, min_eq_left h3] at hcopy
    rw [List.drop_left, ← hcopy, List.drop_append_of_le_length (by omega),
      List.take_append_of_le_length (by rw [List.length_drop]; omega)]

theorem repeatsFrom_succ {done rest : List UInt8} (h : (findMatch done rest).1 < 3) :
    RepeatsFrom done.length (done ++ rest) ↔ RepeatsFrom (done.length + 1) (done ++ rest) := by
  constructor
  · rintro ⟨i, j, hj, hij, hji, hlen, heq⟩
    refine ⟨i, j, ?_, hij, hji, hlen, heq⟩
    by_contra hlt
    obtain rfl : j = done.length := by omega
    rw [List.drop_left, List.drop_append_of_le_length (by omega),
      List.take_append_of_le_length (by rw [List.length_drop]; omega)] at heq
    have hmatch : 3 ≤ matchLength 15 (done.drop i) rest :=
      le_matchLength (by decide) (by rw [List.length_drop]; omega) heq
    have hfind := matchLength_le_findMatch (j := i) (by omega) (by omega) rest
    omega
  · rintro ⟨i, j, hj, h⟩
    exact ⟨i, j, by omega, h⟩

theorem not_repeatsFrom_end (done : List UInt8) : ¬ RepeatsFrom done.length (done ++ []) := by
  rintro ⟨i, j, hj, -, -, hlen, -⟩
  rw [List.append_nil] at hlen
  omega

theorem Matches.length_code {done rest code : List UInt8} (h : Matches done rest code) :
    code.length ≤ rest.length ∧
      (code.length < rest.length ↔ RepeatsFrom done.length (done ++ rest)) := by
  induction h with
  | nil => exact ⟨le_rfl, iff_of_false (lt_irrefl 0) (not_repeatsFrom_end _)⟩
  | copy hm h3 h ih =>
    have hrest := hm.le_rest
    have hle := ih.1
    rw [List.length_drop] at hle
    rw [List.length_append]
    simp only [List.length_cons, List.length_nil]
    exact ⟨by omega, iff_of_true (by omega) (hm.repeatsFrom h3)⟩
  | literal hnone h ih =>
    obtain ⟨hle, hlt⟩ := ih
    rw [List.append_assoc, List.singleton_append, List.length_append, List.length_singleton] at hlt
    rw [repeatsFrom_succ hnone, ← hlt]
    simp only [List.length_cons]
    omega

theorem Matches.code_eq {done rest code : List UInt8} (h : Matches done rest code)
    (hnone : ¬ RepeatsFrom done.length (done ++ rest)) : code = rest := by
  induction h with
  | nil => rfl
  | copy hm h3 h ih => exact absurd (hm.repeatsFrom h3) hnone
  | @literal done rest code b hfind h ih =>
    rw [repeatsFrom_succ hfind] at hnone
    rw [ih (by simpa using hnone)]

theorem Matches.first {done rest code : List UInt8} (h : Matches done rest code)
    (hrepeats : RepeatsFrom done.length (done ++ rest)) :
    ∃ (q : ℕ) (tag distance : UInt8) (code' : List UInt8),
      code = rest.take q ++ tag :: distance :: code' ∧ 0x80 ≤ tag ∧ tag ≠ 0xFF ∧
        q + 3 ≤ rest.length := by
  induction h with
  | nil => exact absurd hrepeats (not_repeatsFrom_end _)
  | @copy done rest code n distance hm h3 h ih =>
    have hlimit := hm.le_limit
    have hrest := hm.le_rest
    refine ⟨0, 0x80 ||| .ofNat (n - 3), .ofNat distance, code, rfl, ?_, ?_, by omega⟩
    · exact (Bytes.high_iff _).mp (tag_spec n (by omega) h3).1
    · exact tag_ne n (by omega)
  | @literal done rest code b hnone h ih =>
    rw [repeatsFrom_succ hnone] at hrepeats
    obtain ⟨q, tag, distance, code', hcode, htag, hne, hq⟩ := ih (by simpa using hrepeats)
    exact ⟨q + 1, tag, distance, code', by rw [hcode]; rfl, htag, hne, Nat.succ_le_succ hq⟩

theorem length_compressLZ4_lt (data : List UInt8) :
    (compressLZ4 data).length < data.length ↔ RepeatsFrom 0 data :=
  (matches_compressLZ4 data).length_code.2

theorem compressLZ4_eq_self {data : List UInt8} (h : ¬ RepeatsFrom 0 data) :
    compressLZ4 data = data :=
  (matches_compressLZ4 data).code_eq h

end WitcherMP.Compression
