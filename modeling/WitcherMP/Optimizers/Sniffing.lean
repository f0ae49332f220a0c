import WitcherMP.Compression.Cuts
import WitcherMP.Compression.Strays
import WitcherMP.Optimizers.Defs

/-! Which bytes come back when the receiver guesses the codec. Run lengths and matches that stand
in the compressed bytes are found; bytes that went out as they are must not look like either. -/

namespace WitcherMP.Optimizers.DynamicNetworkOptimizer

open Compression

variable {dc : DataCompression} {data bs : List UInt8}

theorem hasEscape_cons (b : UInt8) (h : hasEscape bs = true) : hasEscape (b :: bs) = true := by
  match bs with
  | [] => cases h
  | [_] => cases h
  | count :: value :: bs => rw [hasEscape, h]; simp

theorem hasEscape_append (front : List UInt8) (h : hasEscape bs = true) :
    hasEscape (front ++ bs) = true := by
  induction front with
  | nil => exact h
  | cons b front ih => exact hasEscape_cons b ih

theorem escape_of_hasEscape (h : hasEscape bs = true) : 0xFF ∈ bs.dropLast.dropLast := by
  induction bs using hasEscape.induct with
  | case1 b count value bs ih =>
    have hdrop : (b :: count :: value :: bs).dropLast.dropLast =
        b :: (count :: value :: bs).dropLast.dropLast := rfl
    rw [hasEscape, decide_eq_true_eq] at h
    rw [hdrop]
    rcases h with ⟨rfl, -⟩ | h
    · exact List.mem_cons_self ..
    · exact List.mem_cons_of_mem _ (ih h)
  | case2 bs hshort => simp [hasEscape] at h

theorem hasEscape_of_hasRun {ts : List Token} (h : Runs data ts) (hrun : HasRun data) :
    hasEscape (ts.flatMap Token.bytes) = true := by
  induction h with
  | nil => exact absurd hrun not_hasRun_nil
  | @long n b data ts h3 hn h ih =>
    have hcount : (3 : UInt8) < .ofNat n := by
      rw [UInt8.lt_iff_toNat_lt, UInt8.toNat_ofNat', Nat.mod_eq_of_lt hn]
      exact h3
    rw [List.flatMap_cons, Token.bytes]
    simp only [List.cons_append, List.nil_append, hasEscape, decide_eq_true_eq]
    exact Or.inl ⟨trivial, hcount⟩
  | short hpos h3 hstop h ih =>
    rw [bytes_literals]
    exact hasEscape_append _ (ih ((hasRun_replicate_append h3 hstop).mp hrun))

theorem hasEscape_of_plain (h : Plain bs) : hasEscape bs = false := by
  refine Bool.eq_false_iff.mpr fun hescape => ?_
  have hmem := List.mem_of_mem_dropLast (escape_of_hasEscape hescape)
  exact h 0xFF hmem (by decide)

theorem any_high_iff : (bs.dropLast.any fun b => b &&& 0x80 ≠ 0) = true ↔ ¬ Plain bs := by
  rw [List.any_eq_true, Plain, not_forall]
  refine exists_congr fun b => ?_
  rw [decide_eq_true_eq, Bytes.high_iff, Classical.not_imp, not_not]

theorem applyDynamicDecompression_eq (h : 2 ≤ bs.length) : applyDynamicDecompression dc bs =
    if hasEscape bs = true then some (decompressZlib bs)
    else if Plain bs then dc.decompress bs else decompressLZ4 bs := by
  have hne : bs ≠ [] := List.ne_nil_of_length_pos (by omega)
  rw [applyDynamicDecompression, if_neg hne, isRLECompressed, if_neg (by omega), isLZ77Compressed,
    if_neg (by omega)]
  by_cases hescape : hasEscape bs = true
  · rw [hescape]
    rfl
  · rw [Bool.not_eq_true] at hescape
    rw [hescape]
    by_cases hplain : Plain bs
    · have hany := Bool.eq_false_iff.mpr fun h => any_high_iff.mp h hplain
      rw [hany, if_pos hplain]
      rfl
    · have hany := any_high_iff.mpr hplain
      rw [hany, if_neg hplain]
      rfl

theorem applyDynamicDecompression_of_short (hne : bs ≠ []) (h : bs.length < 2) :
    applyDynamicDecompression dc bs = none := by
  rw [applyDynamicDecompression, if_neg hne, isRLECompressed, if_pos h]
  rfl

/-- Nothing in the bytes looks like a codec to the receiver: none but the last is high, and there is
no header. A single byte is read past its end. -/
def Inconspicuous (dc : DataCompression) (data : List UInt8) : Prop :=
  2 ≤ data.length ∧ Plain data ∧ dc.Untagged data

theorem recovered_of_inconspicuous (h : Inconspicuous dc data) :
    applyDynamicDecompression dc data = some data := by
  obtain ⟨hlen, hplain, huntagged⟩ := h
  rw [applyDynamicDecompression_eq hlen, if_neg (by rw [hasEscape_of_plain hplain]; decide),
    if_pos hplain, DataCompression.decompress_of_untagged huntagged]

theorem inconspicuous_or_early (hne : data ≠ [])
    (h : applyDynamicDecompression dc data = some data) : Inconspicuous dc data ∨ Early data := by
  by_cases hlen : 2 ≤ data.length
  swap
  · rw [applyDynamicDecompression_of_short hne (not_le.mp hlen)] at h
    cases h
  rw [applyDynamicDecompression_eq hlen] at h
  split_ifs at h with hescape hplain
  · have hnone := (decompressZlib_eq_self_iff data).mp (Option.some.inj h)
    exact absurd rfl (hnone 0xFF (escape_of_hasEscape hescape))
  · refine Or.inl ⟨hlen, hplain, ?_⟩
    by_contra huntagged
    exact DataCompression.not_prefix_decompress_mistaken huntagged (Or.inl (plain_drop hplain 8)) h
      (List.prefix_refl data)
  · exact (plain_or_early_of_eq_self h).imp (fun hplain' => absurd hplain' hplain) id

theorem recovered_compressRLE_iff (hrun : HasRun data) :
    applyDynamicDecompression dc (compressRLE data) = some data ↔ LeftoversLast data := by
  have hescape : hasEscape (compressZlib data) = true := by
    rw [← bytes_runTokens]
    exact hasEscape_of_hasRun (runs_runTokens data) hrun
  have hlen : 2 ≤ (compressZlib data).length := by
    have hmem := List.length_pos_of_mem (escape_of_hasEscape hescape)
    rw [List.length_dropLast, List.length_dropLast] at hmem
    omega
  rw [compressRLE, applyDynamicDecompression_eq hlen, if_pos hescape, Option.some.injEq,
    ← clean_runTokens_iff]
  refine ⟨clean_of_decompress data, fun hclean => ?_⟩
  rw [← bytes_runTokens]
  exact (runs_runTokens data).decompress_of_clean hclean

theorem not_plain_of_tag {front bs : List UInt8} {tag distance : UInt8} (htag : 0x80 ≤ tag) :
    ¬ Plain (front ++ tag :: distance :: bs) := by
  intro h
  refine h tag ?_ htag
  rw [List.dropLast_append_of_ne_nil (List.cons_ne_nil _ _), List.dropLast_cons_cons]
  exact List.mem_append_right _ (List.mem_cons_self ..)

theorem decompressZlib_append {front : List UInt8} (h : ∀ b ∈ front, b ≠ 0xFF) (bs : List UInt8) :
    decompressZlib (front ++ bs) = front ++ decompressZlib bs := by
  induction front with
  | nil => rfl
  | cons b front ih =>
    obtain ⟨hb, hfront⟩ := List.forall_mem_cons.mp h
    rw [List.cons_append, decompressZlib_literal hb, ih hfront, List.cons_append]

theorem decompressZlib_compressLZ4_ne (hplain : Plain data) (hrepeats : RepeatsFrom 0 data) :
    decompressZlib (compressLZ4 data) ≠ data := by
  obtain ⟨q, tag, distance, code, hcode, htag, hne, hq⟩ :=
    (matches_compressLZ4 data).first hrepeats
  have hlow : ∀ b ∈ data.take (q + 1), ¬ 0x80 ≤ b := by
    intro b hb
    obtain ⟨i, hi⟩ := List.mem_iff_getElem?.mp hb
    rw [List.getElem?_take] at hi
    split_ifs at hi with hlt
    refine hplain b (List.mem_of_getElem? (i := i) ?_)
    rw [List.getElem?_dropLast, if_pos (by omega), hi]
  have hfront : ∀ b ∈ data.take q, b ≠ 0xFF := by
    rintro b hb rfl
    exact hlow 0xFF ((List.take_prefix_take_left (Nat.le_succ q)).subset hb) (by decide)
  intro heq
  rw [hcode, decompressZlib_append hfront, decompressZlib_literal hne] at heq
  refine hlow tag (List.mem_of_getElem? (i := q) ?_) htag
  rw [List.getElem?_take_of_lt (Nat.lt_succ_self q)]
  conv_lhs => rw [← heq]
  have hlen : (data.take q).length = q := by
    rw [List.length_take]
    omega
  rw [List.getElem?_append_right hlen.le, hlen, Nat.sub_self]
  rfl

theorem length_compressLZ4 (hrepeats : RepeatsFrom 0 data) : 2 ≤ (compressLZ4 data).length := by
  obtain ⟨q, tag, distance, code, hcode, -⟩ := (matches_compressLZ4 data).first hrepeats
  rw [hcode, List.length_append, List.length_cons, List.length_cons]
  omega

theorem not_plain_compressLZ4 (hrepeats : RepeatsFrom 0 data) : ¬ Plain (compressLZ4 data) := by
  obtain ⟨q, tag, distance, code, hcode, htag, -⟩ := (matches_compressLZ4 data).first hrepeats
  rw [hcode]
  exact not_plain_of_tag htag

structure Written where
  done : List UInt8
  last : UInt8
  rest : List UInt8

def writtenLoop : ℕ → List UInt8 → List UInt8 → List Written
  | fuel + 1, done, b :: rest =>
    let found := findMatch done (b :: rest)
    let w : Written :=
      if found.1 ≥ 3 then
        ⟨done ++ (b :: rest).take found.1, .ofNat found.2, (b :: rest).drop found.1⟩
      else ⟨done ++ [b], b, rest⟩
    w :: writtenLoop fuel w.done w.rest
  | _, _, _ => []

def writtenOf (data : List UInt8) : List Written := writtenLoop data.length [] data

/-- Nothing is left, or no match comes next but a byte that is at most 3 or the last. -/
def Written.Unread (w : Written) : Prop :=
  w.rest = [] ∨ (findMatch w.done w.rest).1 < 3 ∧ (w.rest.headD 0 ≤ 3 ∨ w.rest.length = 1)

theorem hasEscape_cons_iff {b : UInt8} {code : List UInt8} :
    hasEscape (b :: code) = true ↔
      (b = 0xFF ∧ 3 < code.headD 0 ∧ 2 ≤ code.length) ∨ hasEscape code = true := by
  match code with
  | [] => simp [hasEscape]
  | [count] => simp [hasEscape]
  | count :: value :: code => simp [hasEscape]

theorem compressLZ4Loop_match {fuel : ℕ} {done rest : List UInt8} {b : UInt8}
    (h3 : 3 ≤ (findMatch done (b :: rest)).1) :
    compressLZ4Loop (fuel + 1) done (b :: rest) =
      (0x80 ||| .ofNat ((findMatch done (b :: rest)).1 - 3)) ::
        .ofNat (findMatch done (b :: rest)).2 ::
          compressLZ4Loop fuel (done ++ (b :: rest).take (findMatch done (b :: rest)).1)
            ((b :: rest).drop (findMatch done (b :: rest)).1) := by
  rw [compressLZ4Loop]
  exact if_pos h3

theorem compressLZ4Loop_literal {fuel : ℕ} {done rest : List UInt8} {b : UInt8}
    (h3 : (findMatch done (b :: rest)).1 < 3) :
    compressLZ4Loop (fuel + 1) done (b :: rest) = b :: compressLZ4Loop fuel (done ++ [b]) rest := by
  rw [compressLZ4Loop]
  exact if_neg (not_le.mpr h3)

theorem length_compressLZ4Loop {fuel : ℕ} (done : List UInt8) {rest : List UInt8}
    (h : rest.length ≤ fuel) : (compressLZ4Loop fuel done rest).length ≤ rest.length ∧
      rest.length ≤ 15 * (compressLZ4Loop fuel done rest).length :=
  have hm := matches_compressLZ4Loop done h
  ⟨hm.length_code.1, hm.length_le⟩

theorem high_tag {done rest : List UInt8} {length distance : ℕ} (hm : IsMatch done rest length distance)
    (h3 : 3 ≤ length) : 0x80 ≤ 0x80 ||| UInt8.ofNat (length - 3) :=
  (Bytes.high_iff _).mp (tag_spec length (Nat.lt_succ_of_le hm.le_limit) h3).1

theorem Written.unread_iff {fuel : ℕ} {w : Written} (hfuel : w.rest.length ≤ fuel) :
    w.Unread ↔ ¬ (3 < (compressLZ4Loop fuel w.done w.rest).headD 0 ∧
      2 ≤ (compressLZ4Loop fuel w.done w.rest).length) := by
  obtain ⟨done, last, rest⟩ := w
  cases rest with
  | nil => simp [Unread, compressLZ4Loop]
  | cons b rest =>
    cases fuel with
    | zero => exact absurd hfuel (Nat.not_succ_le_zero _)
    | succ fuel =>
      rw [List.length_cons] at hfuel
      by_cases h3 : 3 ≤ (findMatch done (b :: rest)).1
      · have hhigh := high_tag (findMatch_spec done (b :: rest) (by omega)) h3
        rw [compressLZ4Loop_match h3]
        refine iff_of_false ?_ fun hread => hread ⟨?_, by simp⟩
        · rintro (hnil | ⟨hlt, -⟩)
          · cases hnil
          · exact absurd h3 (not_le.mpr hlt)
        · exact UInt8.lt_of_lt_of_le (show (3 : UInt8) < 0x80 by decide) hhigh
      · have hlen := length_compressLZ4Loop (done ++ [b]) (Nat.le_of_succ_le_succ hfuel)
        rw [compressLZ4Loop_literal (not_le.mp h3)]
        simp only [Unread, List.headD_cons, List.length_cons, not_and_or, not_le, reduceCtorEq,
          false_or]
        rw [and_iff_right (not_le.mp h3)]
        exact or_congr UInt8.not_lt.symm (by omega)

theorem hasEscape_compressLZ4Loop {fuel : ℕ} {done rest : List UInt8} (hfuel : rest.length ≤ fuel) :
    hasEscape (compressLZ4Loop fuel done rest) = true ↔
      ∃ w ∈ writtenLoop fuel done rest, w.last = 0xFF ∧ ¬ w.Unread := by
  induction fuel generalizing done rest with
  | zero =>
    rw [List.eq_nil_of_length_eq_zero (Nat.le_zero.mp hfuel)]
    simp [compressLZ4Loop, writtenLoop, hasEscape]
  | succ fuel ih =>
    cases rest with
    | nil => simp [compressLZ4Loop, writtenLoop, hasEscape]
    | cons b rest =>
      rw [List.length_cons] at hfuel
      rw [writtenLoop, List.exists_mem_cons_iff]
      by_cases h3 : 3 ≤ (findMatch done (b :: rest)).1
      · have hm := findMatch_spec done (b :: rest) (by omega)
        have hlimit := hm.le_limit
        have hrest : ((b :: rest).drop (findMatch done (b :: rest)).1).length ≤ fuel := by
          rw [List.length_drop, List.length_cons]
          omega
        rw [compressLZ4Loop_match h3, if_pos h3, ← ih hrest,
          Written.unread_iff (w := ⟨_, _, _⟩) hrest, not_not, hasEscape_cons_iff,
          or_iff_right fun h => tag_ne _ (by omega) h.1, hasEscape_cons_iff]
      · have hrest := Nat.le_of_succ_le_succ hfuel
        rw [compressLZ4Loop_literal (not_le.mp h3), if_neg h3, ← ih hrest,
          Written.unread_iff (w := ⟨_, _, _⟩) hrest, not_not, hasEscape_cons_iff]

theorem hasEscape_compressLZ4 (data : List UInt8) :
    hasEscape (compressLZ4 data) = true ↔ ∃ w ∈ writtenOf data, w.last = 0xFF ∧ ¬ w.Unread :=
  hasEscape_compressLZ4Loop le_rfl

theorem recovered_compressLZ77 (hrepeats : RepeatsFrom 0 data) (hplain : Plain data)
    (hnone : ∀ w ∈ writtenOf data, w.last = 0xFF → w.Unread) :
    applyDynamicDecompression dc (compressLZ77 data) = some data := by
  rw [compressLZ77, applyDynamicDecompression_eq (length_compressLZ4 hrepeats),
    if_neg, if_neg (not_plain_compressLZ4 hrepeats), decompressLZ4_compressLZ4 hplain]
  rw [hasEscape_compressLZ4]
  rintro ⟨w, hw, hlast, hread⟩
  exact hread (hnone w hw hlast)

theorem plain_of_recovered_compressLZ77 (hrepeats : RepeatsFrom 0 data)
    (h : applyDynamicDecompression dc (compressLZ77 data) = some data) :
    Plain data ∧ (∀ w ∈ writtenOf data, w.last = 0xFF → w.Unread) ∨
      Early data ∨ ¬ Plain data ∧ ∃ w ∈ writtenOf data, w.last = 0xFF ∧ ¬ w.Unread := by
  rw [compressLZ77, applyDynamicDecompression_eq (length_compressLZ4 hrepeats),
    if_neg (not_plain_compressLZ4 hrepeats)] at h
  split_ifs at h with hescape
  · refine Or.inr (Or.inr ⟨fun hplain => ?_, (hasEscape_compressLZ4 data).mp hescape⟩)
    exact decompressZlib_compressLZ4_ne hplain hrepeats (Option.some.inj h)
  · rcases (matches_compressLZ4 data).plain_or_early (by simp) h with hplain | hearly
    · refine Or.inl ⟨hplain, fun w hw hlast => ?_⟩
      by_contra hread
      exact hescape ((hasEscape_compressLZ4 data).mpr ⟨w, hw, hlast, hread⟩)
    · exact Or.inr (Or.inl hearly)

theorem prefix_of_recovered_frame (hi : dc.initialized) (hframed : dc.Framed .lz4 data)
    (h : applyDynamicDecompression dc (dc.compress data .lz4 .balanced) = some data) :
    [CompressionAlgorithm.lz4.value, CompressionLevel.balanced.value] <+: data := by
  obtain ⟨q, tag, distance, code, hcode, htag, -⟩ := (matches_compressLZ4 data).first hframed.2
  rw [DataCompression.compress_of_framed hi hframed] at h
  have hsent : ∃ front, [CompressionAlgorithm.lz4.value, CompressionLevel.balanced.value] ++
      Bytes.le32 data.length ++ Bytes.le32 (DataCompression.encode .lz4 data).length ++
        DataCompression.encode .lz4 data = 2 :: 2 :: (front ++ tag :: distance :: code) := by
    refine ⟨Bytes.le32 data.length ++ Bytes.le32 (compressLZ4 data).length ++ data.take q, ?_⟩
    rw [DataCompression.encode, List.append_assoc _ (data.take q), ← hcode]
    simp [CompressionAlgorithm.value, CompressionLevel.value]
  obtain ⟨front, hfront⟩ := hsent
  have hplain : ¬ Plain (2 :: 2 :: (front ++ tag :: distance :: code)) :=
    @not_plain_of_tag (2 :: 2 :: front) code tag distance htag
  rw [hfront, applyDynamicDecompression_eq (by simp), if_neg hplain] at h
  split_ifs at h with hescape
  · rw [← Option.some.inj h, decompressZlib_literal (by decide), decompressZlib_literal (by decide)]
    exact List.prefix_append [2, 2] _
  · rw [decompressLZ4, decompressLZ4Loop_literal (by decide),
      decompressLZ4Loop_literal (by decide)] at h
    exact prefix_of_decompressLZ4Loop h

/-- The receiver recognises what the sender did: runs, and nothing is left over of runs of 0xFF but
at the end; or matches, no high byte but at the end, and no 0xFF that is read as a run; or nothing
at all, and the data look like nothing. -/
def Recognised (dc : DataCompression) (float log2f : ℚ → ℚ) (data : List UInt8) : Prop :=
  data = [] ∨
    let characteristics := analyzeData float log2f data
    if characteristics.entropy < 1 / 2 then
      HasRun data ∧ LeftoversLast data ∨ ¬ HasRun data ∧ Inconspicuous dc data
    else if characteristics.repetition > float (3 / 10) then
      RepeatsFrom 0 data ∧ Plain data ∧ (∀ w ∈ writtenOf data, w.last = 0xFF → w.Unread) ∨
        ¬ RepeatsFrom 0 data ∧ Inconspicuous dc data
    else ¬ (dc.initialized = true ∧ dc.Framed .lz4 data) ∧ Inconspicuous dc data

/-- The receiver is mistaken, but the decoder meets an escape that may come out right by chance. -/
def Chanced (dc : DataCompression) (float log2f : ℚ → ℚ) (data : List UInt8) : Prop :=
  let characteristics := analyzeData float log2f data
  if characteristics.entropy < 1 / 2 then ¬ HasRun data ∧ Early data
  else if characteristics.repetition > float (3 / 10) then
    Early data ∨ ¬ Plain data ∧ ∃ w ∈ writtenOf data, w.last = 0xFF ∧ ¬ w.Unread
  else dc.initialized = true ∧ dc.Framed .lz4 data ∧
      [CompressionAlgorithm.lz4.value, CompressionLevel.balanced.value] <+: data ∨
    ¬ (dc.initialized = true ∧ dc.Framed .lz4 data) ∧ Early data

theorem compress_raw (h : ¬ (dc.initialized = true ∧ dc.Framed .lz4 data)) :
    dc.compress data .lz4 .balanced = data := by
  by_cases hi : dc.initialized = true
  · exact DataCompression.compress_of_not_framed (fun hframed => h ⟨hi, hframed⟩) .balanced
  · rw [DataCompression.compress, if_pos (Or.inl hi)]

theorem recovered_of_recognised {float log2f : ℚ → ℚ} (h : Recognised dc float log2f data) :
    applyDynamicDecompression dc (applyDynamicCompression dc float log2f data) = some data := by
  rw [applyDynamicCompression]
  by_cases hnil : data = []
  · rw [if_pos hnil, applyDynamicDecompression, if_pos hnil]
  have hcodec := h.resolve_left hnil
  rw [if_neg hnil]
  dsimp only at hcodec ⊢
  split_ifs at hcodec ⊢ with hentropy hrepetition
  · rcases hcodec with ⟨hrun, hlast⟩ | ⟨hrun, hraw⟩
    · exact (recovered_compressRLE_iff hrun).mpr hlast
    · rw [compressRLE, compressZlib_eq_self hrun]
      exact recovered_of_inconspicuous hraw
  · rcases hcodec with ⟨hrepeats, hplain, hnone⟩ | ⟨hrepeats, hraw⟩
    · exact recovered_compressLZ77 hrepeats hplain hnone
    · rw [compressLZ77, compressLZ4_eq_self hrepeats]
      exact recovered_of_inconspicuous hraw
  · rw [compress_raw hcodec.1]
    exact recovered_of_inconspicuous hcodec.2

theorem recognised_of_recovered {float log2f : ℚ → ℚ}
    (h : applyDynamicDecompression dc (applyDynamicCompression dc float log2f data) = some data) :
    Recognised dc float log2f data ∨ Chanced dc float log2f data := by
  rw [applyDynamicCompression] at h
  by_cases hnil : data = []
  · exact Or.inl (Or.inl hnil)
  rw [if_neg hnil] at h
  rw [Recognised, or_iff_right hnil, Chanced]
  dsimp only at h ⊢
  split_ifs at h ⊢ with hentropy hrepetition
  · by_cases hrun : HasRun data
    · exact Or.inl (Or.inl ⟨hrun, (recovered_compressRLE_iff hrun).mp h⟩)
    · rw [compressRLE, compressZlib_eq_self hrun] at h
      have hraw := inconspicuous_or_early hnil h
      exact hraw.imp (fun hraw => Or.inr ⟨hrun, hraw⟩) fun hearly => ⟨hrun, hearly⟩
  · by_cases hrepeats : RepeatsFrom 0 data
    · have hplain := plain_of_recovered_compressLZ77 hrepeats h
      exact hplain.imp (fun hplain => Or.inl ⟨hrepeats, hplain⟩) id
    · rw [compressLZ77, compressLZ4_eq_self hrepeats] at h
      have hraw := inconspicuous_or_early hnil h
      exact hraw.imp (fun hraw => Or.inr ⟨hrepeats, hraw⟩) Or.inl
  · by_cases hframed : dc.initialized = true ∧ dc.Framed .lz4 data
    · have hbegins := prefix_of_recovered_frame hframed.1 hframed.2 h
      exact Or.inr (Or.inl ⟨hframed.1, hframed.2, hbegins⟩)
    · rw [compress_raw hframed] at h
      have hraw := inconspicuous_or_early hnil h
      exact hraw.imp (fun hraw => ⟨hframed, hraw⟩) fun hearly => Or.inr ⟨hframed, hearly⟩

/-- The data come back where the receiver recognises the codec, and otherwise only by chance. -/
theorem applyDynamicDecompression_applyDynamicCompression (dc : DataCompression)
    (float log2f : ℚ → ℚ) (data : List UInt8) :
    (Recognised dc float log2f data →
      applyDynamicDecompression dc (applyDynamicCompression dc float log2f data) = some data) ∧
    (applyDynamicDecompression dc (applyDynamicCompression dc float log2f data) = some data →
      Recognised dc float log2f data ∨ Chanced dc float log2f data) :=
  ⟨recovered_of_recognised, recognised_of_recovered⟩

theorem not_applyDynamicDecompression_applyDynamicCompression :
    ¬ ∃ float log2f : ℚ → ℚ, ∀ (dc : DataCompression) (data : List UInt8),
      applyDynamicDecompression dc (applyDynamicCompression dc float log2f data) = some data := by
  rintro ⟨float, log2f, h⟩
  have hsent : applyDynamicCompression ⟨true, 64⟩ float log2f [0x80, 0x80] = [0x80, 0x80] := by
    rw [applyDynamicCompression, if_neg (by decide)]
    dsimp only
    split_ifs <;> decide
  have htwo := h ⟨true, 64⟩ [0x80, 0x80]
  rw [hsent] at htwo
  revert htwo
  decide

end WitcherMP.Optimizers.DynamicNetworkOptimizer
