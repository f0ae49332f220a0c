import WitcherMP.Compression.Codecs
import WitcherMP.Lib.Traced

/-! The decoders as they index their input and their output, byte by byte. They compute what
the definitions on lists say, and this says when they get there by valid reads alone. -/

namespace WitcherMP.Compression.Indexed
open Traced

def decompressZlibLoop (data : List UInt8) : ℕ → ℕ → List UInt8 → Traced (List UInt8)
  | 0, _, out => pure out
  | fuel + 1, i, out =>
    if i < data.length then do
      let escape ← get data i
      if escape = 0xFF ∧ i + 2 < data.length then
        let count ← get data (i + 1)
        let value ← get data (i + 2)
        decompressZlibLoop data fuel (i + 3) (out ++ List.replicate count.toNat value)
      else
        let b ← get data i
        decompressZlibLoop data fuel (i + 1) (out ++ [b])
    else pure out

def decompressZlib (data : List UInt8) : Traced (List UInt8) :=
  decompressZlibLoop data data.length 0 []

def copyLoop (start distance : ℕ) : List ℕ → List UInt8 → Traced (List UInt8)
  | [], out => pure out
  | j :: js, out => do
    let offset ← modulo j distance
    let b ← get out (start + offset)
    copyLoop start distance js (out ++ [b])

def decompressLZ4Loop (data : List UInt8) : ℕ → ℕ → List UInt8 → Traced (List UInt8)
  | 0, _, out => pure out
  | fuel + 1, i, out =>
    if i < data.length then do
      let flag ← get data i
      if flag &&& 0x80 ≠ 0 then
        let token ← get data i
        let length := (token &&& 0x7F) + 3
        if i + 1 < data.length then
          let distance ← get data (i + 1)
          if distance.toNat ≤ out.length then
            let out ← copyLoop (out.length - distance.toNat) distance.toNat
              (List.range length.toNat) out
            decompressLZ4Loop data fuel (i + 2) out
          else
            let b ← get data i
            decompressLZ4Loop data fuel (i + 2) (out ++ [b])
        else
          let b ← get data i
          decompressLZ4Loop data fuel (i + 2) (out ++ [b])
      else
        let b ← get data i
        decompressLZ4Loop data fuel (i + 1) (out ++ [b])
    else pure out

def decompressLZ4 (data : List UInt8) : Traced (List UInt8) :=
  decompressLZ4Loop data data.length 0 []

/-- The sizes in the header are read, and not used. -/
def decompress (dc : DataCompression) (compressedData : List UInt8) : Traced (List UInt8) :=
  if ¬ dc.initialized ∨ compressedData = [] then pure compressedData else
  if compressedData.length < 8 then pure compressedData else do
    let tag ← get compressedData 0
    let _level ← get compressedData 1
    let _originalSize ← getRange compressedData 2 4
    let _compressedSize ← getRange compressedData 6 4
    let dataToDecompress ← getRange compressedData 8 (compressedData.length - 8)
    if tag = CompressionAlgorithm.zlib.value then decompressZlib dataToDecompress
    else if tag = CompressionAlgorithm.lz4.value then decompressLZ4 dataToDecompress
    else if tag = CompressionAlgorithm.lz4hc.value then decompressLZ4 dataToDecompress
    else pure compressedData

theorem toOption_decompressZlibLoop {data : List UInt8} {fuel i : ℕ} (h : data.length ≤ i + fuel)
    (out : List UInt8) : (decompressZlibLoop data fuel i out).toOption
      = some (out ++ Compression.decompressZlib (data.drop i)) := by
  induction fuel generalizing i out with
  | zero =>
    rw [decompressZlibLoop, toOption_pure, List.drop_of_length_le (show data.length ≤ i from h)]
    exact congrArg some (List.append_nil out).symm
  | succ fuel ih =>
    rw [decompressZlibLoop]
    split
    case isFalse hi =>
      rw [toOption_pure, List.drop_of_length_le (not_lt.mp hi)]
      exact congrArg some (List.append_nil out).symm
    case isTrue hi =>
    have hdrop := List.drop_eq_getElem_cons hi
    rw [toOption_bind, toOption_get, List.getElem?_eq_getElem hi, Option.bind_some]
    split
    case isTrue hescape =>
      have hdrop₁ := List.drop_eq_getElem_cons (Nat.lt_of_succ_lt hescape.2)
      have hdrop₂ := List.drop_eq_getElem_cons hescape.2
      rw [toOption_bind, toOption_get, List.getElem?_eq_getElem (Nat.lt_of_succ_lt hescape.2),
        Option.bind_some, toOption_bind, toOption_get, List.getElem?_eq_getElem hescape.2,
        Option.bind_some, ih (by omega), hdrop, hdrop₁, hdrop₂, Compression.decompressZlib,
        if_pos hescape.1, List.append_assoc]
    case isFalse hliteral =>
      have hcons : Compression.decompressZlib (data.drop i)
          = data[i] :: Compression.decompressZlib (data.drop (i + 1)) := by
        rw [hdrop]
        by_cases hb : data[i] = 0xFF
        · have hlate : data.length ≤ i + 2 := not_lt.mp fun hlt => hliteral ⟨hb, hlt⟩
          rw [decompressZlib_of_short (by rw [List.length_cons, List.length_drop]; omega),
            decompressZlib_of_short (by rw [List.length_drop]; omega)]
        · exact decompressZlib_literal hb _
      rw [toOption_bind, toOption_get, List.getElem?_eq_getElem hi, Option.bind_some, ih (by omega),
        hcons, List.append_assoc, List.singleton_append]

theorem toOption_decompressZlib (data : List UInt8) :
    (decompressZlib data).toOption = some (Compression.decompressZlib data) :=
  toOption_decompressZlibLoop (Nat.le_add_left ..) []

theorem toOption_copyLoop {start distance : ℕ} (hd : distance ≠ 0) (js : List ℕ) {out : List UInt8}
    (h : start + distance ≤ out.length) : (copyLoop start distance js out).toOption
      = some (out ++ js.map fun j => out.getD (start + j % distance) 0) := by
  induction js generalizing out with
  | nil => exact congrArg some (List.append_nil out).symm
  | cons j js ih =>
    have hj : start + j % distance < out.length := by
      have hlt := Nat.mod_lt j (Nat.pos_of_ne_zero hd)
      omega
    have hsame : ∀ k, (out ++ [out[start + j % distance]]).getD (start + k % distance) 0
        = out.getD (start + k % distance) 0 := by
      intro k
      have hlt := Nat.mod_lt k (Nat.pos_of_ne_zero hd)
      exact List.getD_append _ _ _ _ (by omega)
    rw [copyLoop, toOption_bind, toOption_modulo, if_neg hd, Option.bind_some, toOption_bind,
      toOption_get, List.getElem?_eq_getElem hj, Option.bind_some,
      ih (by rw [List.length_append]; omega), List.map_cons, List.append_assoc,
      List.singleton_append, List.getD_eq_getElem _ _ hj]
    simp only [hsame]

theorem toOption_copyLoop_zero {length : ℕ} (h : length ≠ 0) (start : ℕ) (out : List UInt8) :
    (copyLoop start 0 (List.range length) out).toOption = none := by
  obtain ⟨n, rfl⟩ := Nat.exists_eq_succ_of_ne_zero h
  rw [List.range_succ_eq_map, copyLoop, toOption_bind, toOption_modulo, if_pos rfl, Option.bind_none]

theorem toOption_decompressLZ4Loop {data : List UInt8} {fuel i : ℕ} (h : data.length ≤ i + fuel)
    (out : List UInt8) : (decompressLZ4Loop data fuel i out).toOption
      = Compression.decompressLZ4Loop (data.drop i) out := by
  induction fuel generalizing i out with
  | zero =>
    rw [decompressLZ4Loop, toOption_pure, List.drop_of_length_le (show data.length ≤ i from h)]
    rfl
  | succ fuel ih =>
    rw [decompressLZ4Loop]
    split
    case isFalse hi =>
      rw [toOption_pure, List.drop_of_length_le (not_lt.mp hi)]
      rfl
    case isTrue hi =>
    rw [toOption_bind, toOption_get, List.getElem?_eq_getElem hi, Option.bind_some,
      List.drop_eq_getElem_cons hi]
    split
    case isTrue hflag =>
      rw [toOption_bind, toOption_get, List.getElem?_eq_getElem hi, Option.bind_some]
      dsimp only
      split
      case isTrue hnext =>
        rw [toOption_bind, toOption_get, List.getElem?_eq_getElem hnext, Option.bind_some,
          List.drop_eq_getElem_cons hnext, Compression.decompressLZ4Loop, if_pos hflag]
        split
        case isTrue hback =>
          rw [toOption_bind]
          by_cases hzero : data[i + 1] = 0
          · rw [if_pos hzero, hzero, UInt8.toNat_zero, toOption_copyLoop_zero (length_ne_zero _),
              Option.bind_none]
          · have hne : data[i + 1].toNat ≠ 0 := fun h0 => hzero (UInt8.toNat_inj.mp h0)
            rw [if_neg hzero, toOption_copyLoop hne _ (by omega), Option.bind_some, ih (by omega)]
            rfl
        case isFalse =>
          rw [toOption_bind, toOption_get, List.getElem?_eq_getElem hi, Option.bind_some,
            ih (by omega)]
      case isFalse hlast =>
        rw [toOption_bind, toOption_get, List.getElem?_eq_getElem hi, Option.bind_some,
          ih (by omega), List.drop_of_length_le (not_lt.mp hlast),
          List.drop_of_length_le (by omega)]
        rfl
    case isFalse hliteral =>
      rw [toOption_bind, toOption_get, List.getElem?_eq_getElem hi, Option.bind_some, ih (by omega),
        decompressLZ4Loop_literal fun hb => hliteral ((Bytes.high_iff _).mpr hb)]

theorem toOption_decompressLZ4 (data : List UInt8) :
    (decompressLZ4 data).toOption = Compression.decompressLZ4 data :=
  toOption_decompressLZ4Loop (Nat.le_add_left ..) []

theorem toOption_decompress (dc : DataCompression) (data : List UInt8) :
    (decompress dc data).toOption = dc.decompress data := by
  unfold decompress DataCompression.decompress
  split
  · exact toOption_pure data
  split
  · exact toOption_pure data
  next hshort =>
  have hlen : 8 ≤ data.length := not_lt.mp hshort
  have hrest : data.length - 8 = 0 ∨ 8 + (data.length - 8) ≤ data.length := by omega
  rw [toOption_bind, toOption_get, List.getElem?_eq_getElem (by omega), Option.bind_some, toOption_bind,
    toOption_get, List.getElem?_eq_getElem (by omega), Option.bind_some, toOption_bind,
    toOption_getRange, if_pos (by omega), Option.bind_some, toOption_bind, toOption_getRange]
  by_cases hheader : data.length < 10
  · rw [if_neg (by omega), if_pos hheader, Option.bind_none]
  · rw [if_pos (by omega), if_neg hheader, Option.bind_some, toOption_bind, toOption_getRange,
      if_pos hrest, Option.bind_some, List.take_of_length_le (by rw [List.length_drop])]
    have htag : data.headD 0 = data[0] := by
      cases data with
      | nil => exact absurd hlen (by simp)
      | cons b bs => rfl
    dsimp only
    rw [htag]
    split
    · exact toOption_decompressZlib _
    split
    · exact toOption_decompressLZ4 _
    split
    · exact toOption_decompressLZ4 _
    · exact toOption_pure data

/-- No token that stands for a match is followed by a zero. -/
def NoZeroDistance : List UInt8 → Prop
  | b :: distance :: bs =>
    if b &&& 0x80 ≠ 0 then distance ≠ 0 ∧ NoZeroDistance bs else NoZeroDistance (distance :: bs)
  | _ => True

theorem decompressLZ4Loop_ne_none_iff (bs out : List UInt8) :
    Compression.decompressLZ4Loop bs out ≠ none ↔ NoZeroDistance bs := by
  induction bs, out using Compression.decompressLZ4Loop.induct with
  | case1 out => exact iff_of_true (Option.some_ne_none out) trivial
  | case2 b out => exact iff_of_true (Option.some_ne_none _) trivial
  | case3 out b bs hb hle =>
    rw [Compression.decompressLZ4Loop, if_pos hb, if_pos hle, if_pos rfl, NoZeroDistance, if_pos hb]
    exact iff_of_false (fun h => h rfl) fun h => h.1 rfl
  | case4 out b distance bs hb hle h0 ih =>
    rw [Compression.decompressLZ4Loop, if_pos hb, if_pos hle, if_neg h0, NoZeroDistance, if_pos hb, ih]
    exact (and_iff_right h0).symm
  | case5 b distance bs out hb hle ih =>
    have h0 : distance ≠ 0 := fun h => hle (h ▸ Nat.zero_le _)
    rw [Compression.decompressLZ4Loop, if_pos hb, if_neg hle, NoZeroDistance, if_pos hb, ih]
    exact (and_iff_right h0).symm
  | case6 out b distance bs hb ih =>
    rw [Compression.decompressLZ4Loop, if_neg hb, NoZeroDistance, if_neg hb, ih]

/-- All that decompressing reads is there, and nothing is divided by zero, exactly if the data are
passed on, or have a whole header and, tagged for matches, no match at distance zero. -/
theorem decompress_safe_iff (dc : DataCompression) (data : List UInt8) :
    (decompress dc data).Safe ↔
      ¬ dc.initialized ∨ data.length < 8 ∨
      10 ≤ data.length ∧ ((data.headD 0 = CompressionAlgorithm.lz4.value ∨
        data.headD 0 = CompressionAlgorithm.lz4hc.value) → NoZeroDistance (data.drop 8)) := by
  rw [safe_iff_toOption, toOption_decompress, DataCompression.decompress]
  by_cases hinit : dc.initialized
  swap
  · rw [if_pos (Or.inl hinit)]
    exact iff_of_true (Option.some_ne_none _) (Or.inl hinit)
  by_cases hshort : data.length < 8
  · refine iff_of_true ?_ (Or.inr (Or.inl hshort))
    rw [if_pos hshort, ite_self]
    exact Option.some_ne_none _
  have hpassed : ¬ (¬ dc.initialized ∨ data = []) := by
    rintro (h | rfl)
    · exact h hinit
    · exact hshort (by simp)
  rw [if_neg hpassed, if_neg hshort]
  simp only [hinit, not_true_eq_false, hshort, false_or]
  by_cases hheader : data.length < 10
  · rw [if_pos hheader]
    exact iff_of_false (fun h => h rfl) fun h => absurd hheader (not_lt.mpr h.1)
  · rw [if_neg hheader, and_iff_right (not_lt.mp hheader)]
    by_cases hzlib : data.headD 0 = CompressionAlgorithm.zlib.value
    · rw [if_pos hzlib, hzlib]
      exact iff_of_true (Option.some_ne_none _) fun h => absurd h (by decide)
    · rw [if_neg hzlib]
      by_cases hlz4 : data.headD 0 = CompressionAlgorithm.lz4.value
      · rw [if_pos hlz4, Compression.decompressLZ4, decompressLZ4Loop_ne_none_iff]
        exact (imp_iff_right (Or.inl hlz4)).symm
      · rw [if_neg hlz4]
        by_cases hlz4hc : data.headD 0 = CompressionAlgorithm.lz4hc.value
        · rw [if_pos hlz4hc, Compression.decompressLZ4, decompressLZ4Loop_ne_none_iff]
          exact (imp_iff_right (Or.inr hlz4hc)).symm
        · rw [if_neg hlz4hc]
          exact iff_of_true (Option.some_ne_none _) fun h => absurd h (not_or_intro hlz4 hlz4hc)

theorem not_safe_truncated : ¬ (decompress ⟨true, 0⟩ (List.replicate 8 0)).Safe := by decide +kernel

end WitcherMP.Compression.Indexed
