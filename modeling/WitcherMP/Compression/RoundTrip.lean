import WitcherMP.Compression.Shrinks
import WitcherMP.Lib.Words

/-! When a receiver that sees only the bytes gets the data back. The ten bytes of the header
are taken for eight, so that two bytes of the compressed size are decoded with the rest, and
data sent as they are can be mistaken for framed ones. -/

namespace WitcherMP.Compression

def tokens : List UInt8 → List Token
  | b :: count :: value :: bs =>
    if b = 0xFF then .escape count value :: tokens bs else .literal b :: tokens (count :: value :: bs)
  | bs => bs.map .literal

theorem tokens_spec (bs : List UInt8) :
    (tokens bs).flatMap Token.bytes = bs ∧ (tokens bs).flatMap Token.expand = decompressZlib bs := by
  induction bs using tokens.induct with
  | case1 count value bs ih =>
    rw [tokens, if_pos rfl, decompressZlib, if_pos rfl, List.flatMap_cons, List.flatMap_cons, ih.1,
      ih.2]
    exact ⟨rfl, rfl⟩
  | case2 b count value bs hb ih =>
    rw [tokens, if_neg hb, decompressZlib, if_neg hb, List.flatMap_cons, List.flatMap_cons, ih.1,
      ih.2]
    exact ⟨rfl, rfl⟩
  | case3 bs h =>
    rcases bs with _ | ⟨b, _ | ⟨count, _ | ⟨value, bs⟩⟩⟩
    · exact ⟨rfl, rfl⟩
    · exact ⟨rfl, rfl⟩
    · exact ⟨rfl, rfl⟩
    · exact absurd rfl (h b count value bs)

theorem not_prefix_expand (ts : List Token) {r : List UInt8} {x : UInt8} (hx : x ∈ r)
    (hne : x ≠ 0xFF) : ¬ r ++ ts.flatMap Token.bytes <+: ts.flatMap Token.expand := by
  induction ts generalizing r x with
  | nil =>
    intro h
    rw [List.flatMap_nil, List.append_nil] at h
    exact absurd (h.subset hx) List.not_mem_nil
  | cons t ts ih =>
    rintro ⟨s, h⟩
    rw [List.flatMap_cons, List.flatMap_cons, List.append_assoc, List.append_assoc] at h
    have hletter : x ∈ t.expand → x ∈ t.bytes := by
      intro hx
      cases t with
      | literal b => exact hx
      | escape count value =>
        rw [List.eq_of_mem_replicate hx]
        simp [Token.bytes]
    have hrest : ∀ a, r = t.expand ++ a → False := by
      intro a ha
      rw [ha, List.append_assoc, List.append_cancel_left_eq, ← List.append_assoc,
        ← List.append_assoc] at h
      refine ih (r := a ++ t.bytes) ?_ hne ⟨s, by rw [← h, List.append_assoc]⟩
      rw [ha] at hx
      exact List.mem_append.mpr ((List.mem_append.mp hx).symm.imp id hletter)
    rcases List.append_eq_append_iff.mp h with ⟨a, ha, hbytes⟩ | ⟨a, ha, -⟩
    · cases a with
      | nil => exact hrest [] (by rw [List.append_nil] at ha ⊢; exact ha.symm)
      | cons a₀ a =>
        cases t with
        | literal b =>
          have hlen := congrArg List.length ha
          have hpos := List.length_pos_of_mem hx
          simp only [Token.expand, List.length_append, List.length_cons, List.length_nil] at hlen
          omega
        | escape count value =>
          have hescape : (0xFF : UInt8) = a₀ := List.head_eq_of_cons_eq hbytes
          have hmem : ∀ y ∈ r ++ a₀ :: a, y = value := fun y hy =>
            List.eq_of_mem_replicate (ha ▸ hy)
          exact hne ((hmem x (by simp [hx])).trans ((hmem a₀ (by simp)).symm.trans hescape.symm))
    · exact hrest a ha

theorem not_prefix_decompressZlib {r : List UInt8} {x : UInt8} (hx : x ∈ r) (hne : x ≠ 0xFF)
    (bs : List UInt8) : ¬ r ++ bs <+: decompressZlib bs := by
  obtain ⟨hbytes, hexpand⟩ := tokens_spec bs
  have hnot := not_prefix_expand (tokens bs) hx hne
  rwa [hbytes, hexpand] at hnot

theorem decompressZlib_ne {r : List UInt8} {x : UInt8} (hx : x ∈ r) (hne : x ≠ 0xFF)
    (bs : List UInt8) : decompressZlib bs ≠ r ++ bs :=
  fun h => not_prefix_decompressZlib hx hne bs (h ▸ List.prefix_refl _)

/-- Only the last byte may be an escape: the decoder has no distance for it. -/
def Plain (bs : List UInt8) : Prop := ∀ b ∈ bs.dropLast, ¬ 0x80 ≤ b

instance decidablePlain (bs : List UInt8) : Decidable (Plain bs) :=
  inferInstanceAs (Decidable (∀ b ∈ bs.dropLast, _))

theorem plain_of_low {bs : List UInt8} (h : ∀ b ∈ bs, ¬ 0x80 ≤ b) : Plain bs :=
  fun b hb => h b (List.mem_of_mem_dropLast hb)

theorem plain_cons_cons {b distance : UInt8} {bs : List UInt8} :
    Plain (b :: distance :: bs) ↔ ¬ 0x80 ≤ b ∧ Plain (distance :: bs) :=
  List.forall_mem_cons

theorem plain_drop {bs : List UInt8} (h : Plain bs) (n : ℕ) : Plain (bs.drop n) := by
  induction n generalizing bs with
  | zero => exact h
  | succ n ih =>
    match bs with
    | [] => exact h
    | [_] => rw [List.drop_succ_cons, List.drop_nil]; exact plain_of_low (by simp)
    | b :: distance :: bs => exact ih (plain_cons_cons.mp h).2

theorem decompressLZ4Loop_plain {bs : List UInt8} (h : Plain bs) (out : List UInt8) :
    decompressLZ4Loop bs out = some (out ++ bs) := by
  match bs with
  | [] =>
    rw [List.append_nil]
    rfl
  | [_] => rfl
  | b :: distance :: bs =>
    obtain ⟨hb, hbs⟩ := plain_cons_cons.mp h
    rw [decompressLZ4Loop_literal hb, decompressLZ4Loop_plain hbs, List.append_assoc,
      List.singleton_append]

theorem decompressLZ4_of_plain {bs : List UInt8} (h : Plain bs) : decompressLZ4 bs = some bs :=
  decompressLZ4Loop_plain h []

theorem decompressLZ4_compressLZ4 {data : List UInt8} (h : Plain data) :
    decompressLZ4 (compressLZ4 data) = some data := by
  refine ((matches_compressLZ4 data).decompress []).resolve_right ?_
  rintro ⟨p, x, hp, hx, hlast, -⟩
  refine h x (List.mem_of_getElem? (i := p) ?_) hx
  rw [List.getElem?_dropLast, if_pos (by omega), hp]

theorem ne_of_two_before {b₂ b₃ : UInt8} {w data out : List UInt8} {p : ℕ} {x : UInt8}
    (hp : (w ++ data)[p]? = some x) (hx : x ∉ b₂ :: b₃ :: w)
    (h : [b₂, b₃] ++ (w ++ data).take p <+: out) : out ≠ data := by
  rintro rfl
  have hbehind : w.length ≤ p := by
    by_contra hlt
    rw [List.getElem?_append_left (not_le.mp hlt)] at hp
    have hmem := List.mem_of_getElem? hp
    exact hx (by simp [hmem])
  rw [List.getElem?_append_right hbehind] at hp
  rw [List.take_append, List.take_of_length_le hbehind, ← List.append_assoc] at h
  exact hx (Words.mem_of_prefixes (List.cons_ne_nil _ _) h (List.prefix_refl _) hp)

theorem decompressZlib_after_size {b₂ b₃ : UInt8} {w : List UInt8}
    (h : ∀ b ∈ b₂ :: b₃ :: w, b ≠ 0xFF) (data : List UInt8) :
    decompressZlib (b₂ :: b₃ :: compressZlib (w ++ data)) ≠ data := by
  rw [decompressZlib_literal (h b₂ (by simp)), decompressZlib_literal (h b₃ (by simp))]
  rw [← bytes_runTokens]
  rcases (runs_runTokens (w ++ data)).decompress with hwhole | ⟨p, hp, hshort⟩
  · rw [hwhole]
    intro heq
    have hlen := congrArg List.length heq
    simp only [List.length_cons, List.length_append] at hlen
    omega
  · exact ne_of_two_before hp (fun hmem => h _ hmem rfl)
      ((List.prefix_append_right_inj [b₂, b₃]).mpr hshort)

theorem decompressLZ4_after_size {b₂ b₃ : UInt8} {w : List UInt8}
    (h : ∀ b ∈ b₂ :: b₃ :: w, ¬ 0x80 ≤ b) (data : List UInt8) :
    decompressLZ4 (b₂ :: b₃ :: compressLZ4 (w ++ data)) ≠ some data := by
  rw [decompressLZ4, decompressLZ4Loop_literal (h b₂ (by simp)),
    decompressLZ4Loop_literal (h b₃ (by simp))]
  rcases (matches_compressLZ4 (w ++ data)).decompress [b₂, b₃] with
    hwhole | ⟨p, x, hp, hx, -, hshort⟩
  · intro heq
    have hlen := congrArg List.length (Option.some.inj (hwhole.symm.trans heq))
    simp only [List.length_append, List.length_cons, List.length_nil] at hlen
    omega
  · exact fun heq => ne_of_two_before hp (fun hmem => h x hmem hx) (hshort data heq) rfl

theorem decompressLZ4_behind {b : UInt8} (hb : ¬ 0x80 ≤ b) (data : List UInt8) :
    decompressLZ4 (b :: 0 :: compressLZ4 data) = some (b :: 0 :: data) ∨
      ∃ p x, data[p]? = some x ∧ 0x80 ≤ x ∧ ∀ out,
        decompressLZ4 (b :: 0 :: compressLZ4 data) = some out → [b, 0] ++ data.take p <+: out := by
  rw [decompressLZ4, decompressLZ4Loop_literal hb, decompressLZ4Loop_literal (by decide)]
  refine ((matches_compressLZ4 data).decompress [b, 0]).imp id ?_
  rintro ⟨p, x, hp, hx, -, hshort⟩
  exact ⟨p, x, hp, hx, hshort⟩

theorem decompressLZ4_low_behind {b : UInt8} (hb : ¬ 0x80 ≤ b) {data : List UInt8}
    (h : ∀ x ∈ data, ¬ 0x80 ≤ x) :
    decompressLZ4 (b :: 0 :: compressLZ4 data) = some (b :: 0 :: data) := by
  refine (decompressLZ4_behind hb data).resolve_right ?_
  rintro ⟨p, x, hp, hx, -⟩
  exact h x (List.mem_of_getElem? hp) hx

theorem decompressLZ4_zero_distance {b : UInt8} (hb : 0x80 ≤ b) (bs : List UInt8) :
    decompressLZ4 (b :: 0 :: bs) = none := by
  rw [decompressLZ4, decompressLZ4Loop, if_pos ((Bytes.high_iff _).mpr hb), if_pos (by decide),
    if_pos rfl]

theorem decompressLZ4_of_echo {data : List UInt8} (hn : (compressLZ4 data).length < 2 ^ 23)
    (h : data <+: .ofNat ((compressLZ4 data).length / 65536) :: 0 :: data) :
    decompressLZ4 (.ofNat ((compressLZ4 data).length / 65536) :: 0 :: compressLZ4 data) =
      some (.ofNat ((compressLZ4 data).length / 65536) :: 0 :: data) := by
  have hb := Bytes.third_low hn
  refine decompressLZ4_low_behind hb fun x hx => ?_
  have hmem := Words.mem_of_prefix_append
    (w := [.ofNat ((compressLZ4 data).length / 65536), 0]) (List.cons_ne_nil _ _) h hx
  simp only [List.mem_cons, List.not_mem_nil, or_false] at hmem
  rcases hmem with rfl | rfl
  · exact hb
  · decide

theorem echo_of_begins {data out : List UInt8} (hn : (compressLZ4 data).length < 2 ^ 24)
    (hout : decompressLZ4 (.ofNat ((compressLZ4 data).length / 65536) :: 0 :: compressLZ4 data) =
      some out) (hdata : data <+: out) :
    (compressLZ4 data).length < 2 ^ 23 ∧
      data <+: .ofNat ((compressLZ4 data).length / 65536) :: 0 :: data := by
  by_cases hlt : (compressLZ4 data).length < 2 ^ 23
  · have hb := Bytes.third_low hlt
    refine ⟨hlt, ?_⟩
    rcases decompressLZ4_behind hb data with hwhole | ⟨k, x, hk, hx, hshort⟩
    · rwa [← Option.some.inj (hout.symm.trans hwhole)]
    · have hmem := Words.mem_of_prefixes (List.cons_ne_nil _ _) (hshort out hout) hdata hk
      simp only [List.mem_cons, List.not_mem_nil, or_false] at hmem
      rcases hmem with rfl | rfl
      · exact absurd hx hb
      · exact absurd hx (by decide)
  · rw [decompressLZ4_zero_distance (Bytes.third_high (not_lt.mp hlt) hn)] at hout
    cases hout

namespace DataCompression

def Shrinks : CompressionAlgorithm → List UInt8 → Prop
  | .zlib, data => HasRun data
  | .lz4, data => RepeatsFrom 0 data
  | .lz4hc, data => RepeatsFrom 0 data
  | .none, _ => False
  | .gzip, _ => False

theorem length_encode_lt (algorithm : CompressionAlgorithm) (data : List UInt8) :
    (encode algorithm data).length < data.length ↔ Shrinks algorithm data := by
  cases algorithm with
  | zlib => exact length_compressZlib_lt data
  | lz4 => exact length_compressLZ4_lt data
  | lz4hc => exact length_compressLZ4_lt data
  | none => exact iff_of_false (lt_irrefl _) id
  | gzip => exact iff_of_false (lt_irrefl _) id

/-- Long enough to try, and worth it. -/
def Framed (dc : DataCompression) (algorithm : CompressionAlgorithm) (data : List UInt8) : Prop :=
  dc.minCompressionSize ≤ data.length ∧ Shrinks algorithm data

variable {dc : DataCompression} {algorithm : CompressionAlgorithm} {data : List UInt8}

theorem compress_of_framed (hi : dc.initialized) (h : dc.Framed algorithm data)
    (level : CompressionLevel) : dc.compress data algorithm level =
      [algorithm.value, level.value] ++ Bytes.le32 data.length ++
        Bytes.le32 (encode algorithm data).length ++ encode algorithm data := by
  have hlt := (length_encode_lt algorithm data).mpr h.2
  have hne : data ≠ [] := List.ne_nil_of_length_pos (by omega)
  rw [compress, if_neg (by simp [hi, hne]), if_neg (by simpa [isCompressible] using h.1),
    if_neg (not_le.mpr hlt)]

theorem compress_of_not_framed (h : ¬ dc.Framed algorithm data) (level : CompressionLevel) :
    dc.compress data algorithm level = data := by
  rw [compress]
  split_ifs with hi hsize
  · rfl
  · rw [isCompressible, decide_eq_true_eq] at hsize
    exact if_pos (not_lt.mp fun hlt => h ⟨hsize, (length_encode_lt algorithm data).mp hlt⟩)
  · rfl

def Saves (dc : DataCompression) (algorithm : CompressionAlgorithm) (data : List UInt8) : Prop :=
  dc.initialized = true ∧ dc.minCompressionSize ≤ data.length ∧
    (encode algorithm data).length + 10 < data.length

instance decidableSaves (dc : DataCompression) (algorithm : CompressionAlgorithm)
    (data : List UInt8) : Decidable (dc.Saves algorithm data) :=
  inferInstanceAs (Decidable (_ ∧ _ ∧ _))

theorem length_compress_lt_iff (level : CompressionLevel) :
    (dc.compress data algorithm level).length < data.length ↔ dc.Saves algorithm data := by
  by_cases h : dc.initialized = true ∧ dc.Framed algorithm data
  · obtain ⟨hi, hframed⟩ := h
    rw [compress_of_framed hi hframed, Saves]
    simp only [hi, hframed.1, true_and, List.length_append, List.length_cons, List.length_nil,
      Bytes.length_le32]
    omega
  · have hraw : dc.compress data algorithm level = data := by
      by_cases hi : dc.initialized = true
      · exact compress_of_not_framed (fun hframed => h ⟨hi, hframed⟩) level
      · rw [compress, if_pos (Or.inl hi)]
    rw [hraw]
    refine iff_of_false (lt_irrefl _) fun hsaves => h ⟨hsaves.1, hsaves.2.1, ?_⟩
    rw [← length_encode_lt]
    have hshort := hsaves.2.2
    omega

theorem eq_of_compress_eq {data' : List UInt8} {level level' : CompressionLevel}
    (h : dc.Saves .lz4 data) (h' : dc.Saves .lz4 data') (hlow : ∀ b ∈ data, ¬ 0x80 ≤ b)
    (hlow' : ∀ b ∈ data', ¬ 0x80 ≤ b)
    (heq : dc.compress data .lz4 level = dc.compress data' .lz4 level') : data = data' := by
  have hframed : ∀ d : List UInt8, dc.Saves .lz4 d → dc.Framed .lz4 d := by
    intro d hd
    have hshort := hd.2.2
    exact ⟨hd.2.1, (length_encode_lt .lz4 d).mp (by omega)⟩
  rw [compress_of_framed h.1 (hframed data h), compress_of_framed h'.1 (hframed data' h')] at heq
  have hcodes : compressLZ4 data = compressLZ4 data' := by
    have hdrop := congrArg (List.drop 10) heq
    rwa [List.drop_left' (by simp), List.drop_left' (by simp)] at hdrop
  have hback := decompressLZ4_compressLZ4 (plain_of_low hlow)
  rw [hcodes, decompressLZ4_compressLZ4 (plain_of_low hlow')] at hback
  exact (Option.some.inj hback).symm

theorem decompress_framed (hi : dc.initialized) (level : UInt8) (size n : ℕ) (c : List UInt8) :
    dc.decompress ([algorithm.value, level] ++ Bytes.le32 size ++ Bytes.le32 n ++ c) =
      let rest := .ofNat (n / 65536) :: .ofNat (n / 16777216) :: c
      match algorithm with
      | .zlib => some (decompressZlib rest)
      | .lz4 => decompressLZ4 rest
      | .lz4hc => decompressLZ4 rest
      | _ => some ([algorithm.value, level] ++ Bytes.le32 size ++ Bytes.le32 n ++ c) := by
  have hlen : ([algorithm.value, level] ++ Bytes.le32 size ++ Bytes.le32 n ++ c).length =
      10 + c.length := by
    simp only [List.length_append, List.length_cons, List.length_nil, Bytes.length_le32]
  rw [decompress, if_neg (by simp [hi]), hlen, if_neg (by omega), if_neg (by omega)]
  cases algorithm <;> rfl

theorem decompress_compress_framed (hi : dc.initialized) (h : dc.Framed algorithm data)
    (hlz4 : algorithm = .lz4 ∨ algorithm = .lz4hc) (hn : (compressLZ4 data).length < 2 ^ 24)
    (level : CompressionLevel) : dc.decompress (dc.compress data algorithm level) =
      decompressLZ4 (.ofNat ((compressLZ4 data).length / 65536) :: 0 :: compressLZ4 data) := by
  have hzero := Bytes.fourth_eq_zero hn
  rw [compress_of_framed hi h, decompress_framed hi]
  rcases hlz4 with rfl | rfl
  all_goals
    rw [← hzero]
    rfl

/-- Nothing in the bytes sent can be taken for a frame: the condition for the data to come back. -/
def Unmistakable (dc : DataCompression) (algorithm : CompressionAlgorithm) (data : List UInt8) :
    Prop :=
  dc.initialized →
    ¬ dc.Framed algorithm data ∧
      (data.length < 8 ∨
        10 ≤ data.length ∧ ∀ codec ∈ [CompressionAlgorithm.zlib, .lz4, .lz4hc],
          data.head? ≠ some codec.value)

/-- Misread all the same, but by a decoder that may meet an escape: matches can then rebuild the
data by chance. Below 8 MiB no size has an escape in its upper half. -/
def Doubtful (dc : DataCompression) (algorithm : CompressionAlgorithm) (data : List UInt8) : Prop :=
  dc.Framed algorithm data ∧ 2 ^ 23 ≤ data.length ∨
    ¬ dc.Framed algorithm data ∧ 10 ≤ data.length ∧
      (∃ codec ∈ [CompressionAlgorithm.lz4, .lz4hc], data.head? = some codec.value) ∧
      ∃ b ∈ data.drop 8, 0x80 ≤ b

def Untagged (dc : DataCompression) (data : List UInt8) : Prop :=
  dc.initialized → data.length < 8 ∨
    10 ≤ data.length ∧ ∀ codec ∈ [CompressionAlgorithm.zlib, .lz4, .lz4hc],
      data.head? ≠ some codec.value

theorem decompress_of_untagged (h : dc.Untagged data) : dc.decompress data = some data := by
  by_cases hi : dc.initialized
  · have hdata := h hi
    rw [decompress]
    split_ifs with h₀ h₈ h₁₀
    · rfl
    · rfl
    · omega
    · obtain ⟨-, hhead⟩ := hdata.resolve_left h₈
      match data with
      | [] => exact absurd (Nat.zero_lt_succ 7) h₈
      | b :: bs =>
        simp only [List.mem_cons, List.not_mem_nil, or_false, forall_eq_or_imp, forall_eq,
          List.head?_cons, ne_eq, Option.some.injEq] at hhead
        dsimp only [List.headD_cons]
        rw [if_neg hhead.1, if_neg hhead.2.1, if_neg hhead.2.2]
  · rw [decompress, if_pos (Or.inl hi)]

theorem decompress_of_unmistakable (h : dc.Unmistakable algorithm data) (level : CompressionLevel) :
    dc.decompress (dc.compress data algorithm level) = some data := by
  have hraw : dc.compress data algorithm level = data := by
    by_cases hi : dc.initialized
    · exact compress_of_not_framed (h hi).1 level
    · rw [compress, if_pos (Or.inl hi)]
  rw [hraw]
  exact decompress_of_untagged fun hi => (h hi).2

def Escape : CompressionAlgorithm → UInt8 → Prop
  | .zlib, b => b = 0xFF
  | _, b => 0x80 ≤ b

theorem decompress_framed_ne_tail {w : List UInt8} (hi : dc.initialized)
    (h : dc.Framed algorithm (w ++ data)) (hlen : (w ++ data).length < 2 ^ 23)
    (hw : ∀ b ∈ w, ¬ Escape algorithm b) (level : CompressionLevel) :
    dc.decompress (dc.compress (w ++ data) algorithm level) ≠ some data := by
  have hlt := (length_encode_lt algorithm (w ++ data)).mpr h.2
  rw [compress_of_framed hi h, decompress_framed hi]
  generalize hn : (encode algorithm (w ++ data)).length = n at hlt
  have h₂ : ¬ (0x80 : UInt8) ≤ .ofNat (n / 65536) := Bytes.third_low (by omega)
  have h₃ : ¬ (0x80 : UInt8) ≤ .ofNat (n / 16777216) := by
    rw [Bytes.fourth_eq_zero (by omega)]
    decide
  cases algorithm with
  | zlib =>
    refine fun heq => decompressZlib_after_size ?_ data (Option.some.inj heq)
    refine List.forall_mem_cons.mpr ⟨?_, List.forall_mem_cons.mpr ⟨?_, hw⟩⟩
    · exact fun h => h₂ (h ▸ by decide)
    · exact fun h => h₃ (h ▸ by decide)
  | lz4 =>
    exact decompressLZ4_after_size
      (List.forall_mem_cons.mpr ⟨h₂, List.forall_mem_cons.mpr ⟨h₃, hw⟩⟩) data
  | lz4hc =>
    exact decompressLZ4_after_size
      (List.forall_mem_cons.mpr ⟨h₂, List.forall_mem_cons.mpr ⟨h₃, hw⟩⟩) data
  | none => exact absurd h.2 id
  | gzip => exact absurd h.2 id

theorem decompress_framed_ne (hi : dc.initialized) (h : dc.Framed algorithm data)
    (hlen : data.length < 2 ^ 23) (level : CompressionLevel) :
    dc.decompress (dc.compress data algorithm level) ≠ some data :=
  decompress_framed_ne_tail (w := []) hi h hlen (fun _ hb => absurd hb List.not_mem_nil) level

theorem not_prefix_decompress_mistaken {out : List UInt8} (h : ¬ dc.Untagged data)
    (hplain : Plain (data.drop 8) ∨ data.head? = some CompressionAlgorithm.zlib.value)
    (hout : dc.decompress data = some out) : ¬ data <+: out := by
  rw [Untagged, Classical.not_imp, not_or, not_lt, not_and] at h
  obtain ⟨hi, h₈, hmistaken⟩ := h
  have hne : data ≠ [] := List.ne_nil_of_length_pos (by omega)
  rw [decompress, if_neg (by simp [hi, hne]), if_neg (by omega)] at hout
  split_ifs at hout with h₁₀
  have hlz4 : data.head? ≠ some CompressionAlgorithm.zlib.value →
      decompressLZ4 (data.drop 8) = some out → ¬ data <+: out := by
    intro hzlib hout hbegins
    rw [decompressLZ4_of_plain (hplain.resolve_right hzlib)] at hout
    have hlen := hbegins.length_le
    rw [← Option.some.inj hout, List.length_drop] at hlen
    omega
  obtain ⟨codec, hcodec, hhead⟩ : ∃ codec ∈ [CompressionAlgorithm.zlib, .lz4, .lz4hc],
      data.head? = some codec.value := by
    by_contra hnone
    exact hmistaken (not_lt.mp h₁₀) fun codec hcodec hhead => hnone ⟨codec, hcodec, hhead⟩
  rw [List.headD_eq_head?_getD, hhead, Option.getD_some] at hout
  simp only [List.mem_cons, List.not_mem_nil, or_false] at hcodec
  rcases hcodec with rfl | rfl | rfl
  · rw [if_pos rfl] at hout
    intro hbegins
    have hmem : CompressionAlgorithm.zlib.value ∈ data.take 8 := by
      refine List.mem_of_getElem? (i := 0) ?_
      rw [List.getElem?_take_of_lt (by decide), ← List.head?_eq_getElem?, hhead]
    refine not_prefix_decompressZlib hmem (by decide) (data.drop 8) ?_
    rwa [List.take_append_drop, Option.some.inj hout]
  · rw [if_neg (by decide), if_pos rfl] at hout
    exact hlz4 (by rw [hhead]; decide) hout
  · rw [if_neg (by decide), if_neg (by decide), if_pos rfl] at hout
    exact hlz4 (by rw [hhead]; decide) hout

theorem unmistakable_of_begins {out : List UInt8} (hi : dc.initialized)
    (hf : ¬ dc.Framed algorithm data) (hout : dc.decompress data = some out)
    (hbegins : data <+: out) : dc.Unmistakable algorithm data ∨ dc.Doubtful algorithm data := by
  by_cases huntagged : dc.Untagged data
  · exact Or.inl fun hi => ⟨hf, huntagged hi⟩
  refine Or.inr (Or.inr ⟨hf, ?_⟩)
  have hcodes := huntagged
  rw [Untagged, Classical.not_imp, not_or, not_lt, not_and] at hcodes
  obtain ⟨-, h₈, hmistaken⟩ := hcodes
  have h₁₀ : 10 ≤ data.length := by
    by_contra hlt
    have hne : data ≠ [] := List.ne_nil_of_length_pos (by omega)
    rw [decompress, if_neg (by simp [hi, hne]), if_neg (by omega), if_pos (not_le.mp hlt)] at hout
    cases hout
  have hnot : ¬ (Plain (data.drop 8) ∨ data.head? = some CompressionAlgorithm.zlib.value) := fun h =>
    not_prefix_decompress_mistaken huntagged h hout hbegins
  rw [not_or] at hnot
  refine ⟨h₁₀, ?_, ?_⟩
  · by_contra hnone
    refine hmistaken h₁₀ fun codec hcodec hhead => ?_
    rcases List.mem_cons.mp hcodec with rfl | hcodec
    · exact hnot.2 hhead
    · exact hnone ⟨codec, hcodec, hhead⟩
  · by_contra hnone
    exact hnot.1 (plain_of_low fun b hb hhigh => hnone ⟨b, hb, hhigh⟩)

/-- The data come back from bytes that cannot be mistaken, and from no others except perhaps
the doubtful ones. -/
theorem decompress_compress (dc : DataCompression) (algorithm : CompressionAlgorithm)
    (level : CompressionLevel) (data : List UInt8) :
    (dc.Unmistakable algorithm data →
      dc.decompress (dc.compress data algorithm level) = some data) ∧
    (dc.decompress (dc.compress data algorithm level) = some data →
      dc.Unmistakable algorithm data ∨ dc.Doubtful algorithm data) := by
  refine ⟨fun h => decompress_of_unmistakable h level, fun h => ?_⟩
  by_cases hi : dc.initialized
  swap
  · exact Or.inl fun hi' => absurd hi' hi
  by_cases hf : dc.Framed algorithm data
  · by_cases hlen : data.length < 2 ^ 23
    · exact absurd h (decompress_framed_ne hi hf hlen level)
    · exact Or.inr (Or.inl ⟨hf, not_lt.mp hlen⟩)
  rw [compress_of_not_framed hf] at h
  exact unmistakable_of_begins hi hf h (List.prefix_refl data)

example : (⟨true, 64⟩ : DataCompression).decompress
    [2, 0x88, 2, 0x88, 2, 0x88, 2, 0x88, 2, 0x88, 2, 0x88, 2] =
      some [2, 0x88, 2, 0x88, 2, 0x88, 2, 0x88, 2, 0x88, 2, 0x88, 2] := by
  decide

theorem not_decompress_compress_zeros :
    ¬ ∀ (dc : DataCompression) (algorithm : CompressionAlgorithm) (level : CompressionLevel)
      (data : List UInt8), dc.decompress (dc.compress data algorithm level) = some data := by
  intro h
  have hzeros := h ⟨true, 64⟩ .zlib .fast (List.replicate 64 0)
  revert hzeros
  decide

end DataCompression
end WitcherMP.Compression
