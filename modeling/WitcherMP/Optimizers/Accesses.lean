import WitcherMP.Compression.Accesses
import WitcherMP.Optimizers.Sniffing

/-! The receiver that guesses the codec, as it indexes the bytes: the tests with their unsigned
bounds, and the decoders. -/

namespace WitcherMP.Optimizers.DynamicNetworkOptimizer.Indexed

open Compression Traced

/-- A round behind the last byte has read outside, so none behind that is needed. -/
def isRLECompressed (data : List UInt8) : Traced Bool :=
  findFrom
    (fun i => do
      if (← get data i) = 0xFF then do
        let count ← get data (i + 1)
        return count > 3
      else return false)
    (wrapSub data.length 2) (data.length + 1) 0

def isLZ77Compressed (data : List UInt8) : Traced Bool :=
  findFrom
    (fun i => do
      let b ← get data i
      return b &&& 0x80 ≠ 0)
    (wrapSub data.length 1) (data.length + 1) 0

def decompressRLE (data : List UInt8) : Traced (List UInt8) :=
  Compression.Indexed.decompressZlib data

def decompressLZ77 (data : List UInt8) : Traced (List UInt8) :=
  Compression.Indexed.decompressLZ4 data

def sniff (data : List UInt8) : Traced (Option (List UInt8)) :=
  if data = [] then return some data else do
  if ← isRLECompressed data then do
    let out ← decompressRLE data
    return some out
  else if ← isLZ77Compressed data then do
    let out ← decompressLZ77 data
    return some out
  else return none

def applyDynamicDecompression (dc : DataCompression) (data : List UInt8) : Traced (List UInt8) := do
  match ← sniff data with
  | some out => return out
  | none => Compression.Indexed.decompress dc data

theorem hasEscape_eq_any (data : List UInt8) :
    hasEscape data = (List.range' 0 (data.length - 2)).any fun i =>
      data.getD i 0 = 0xFF ∧ data.getD (i + 1) 0 > 3 := by
  rw [← List.range_eq_range']
  induction data using hasEscape.induct with
  | case1 b count value bs ih =>
    have hrange : List.range ((b :: count :: value :: bs).length - 2) =
        0 :: (List.range ((count :: value :: bs).length - 2)).map Nat.succ :=
      List.range_succ_eq_map
    rw [hasEscape, ih, hrange, List.any_cons, List.any_map, Bool.decide_or, Bool.decide_eq_true]
    rfl
  | case2 bs hshort =>
    rcases bs with _ | ⟨b, _ | ⟨count, _ | ⟨value, bs⟩⟩⟩
    · rfl
    · rfl
    · rfl
    · exact absurd rfl (hshort b count value bs)

theorem toOption_isRLECompressed {data : List UInt8} (h : 2 ≤ data.length) :
    (isRLECompressed data).toOption = some (hasEscape data) := by
  have hbound : wrapSub data.length 2 = data.length - 2 := if_pos h
  rw [isRLECompressed, hbound, hasEscape_eq_any]
  refine toOption_findFrom (fun i hi => ?_) (by omega)
  rw [toOption_bind, toOption_get, List.getElem?_eq_getElem (by omega), Option.bind_some,
    List.getD_eq_getElem _ _ (by omega), List.getD_eq_getElem _ _ (by omega)]
  by_cases hb : data[i] = 0xFF
  · rw [if_pos hb, toOption_bind, toOption_get, List.getElem?_eq_getElem (by omega),
      Option.bind_some, toOption_pure]
    simp only [hb, true_and]
  · rw [if_neg hb, toOption_pure]
    simp only [hb, false_and, decide_false]

theorem toOption_isLZ77Compressed {data : List UInt8} (h : data ≠ []) :
    (isLZ77Compressed data).toOption = some (data.dropLast.any fun b => b &&& 0x80 ≠ 0) := by
  have hpos : 1 ≤ data.length := List.length_pos_iff.mpr h
  have hbound : wrapSub data.length 1 = data.length - 1 := if_pos hpos
  have hfind : (isLZ77Compressed data).toOption =
      some ((List.range' 0 (data.length - 1 - 0)).any fun i => data.getD i 0 &&& 0x80 ≠ 0) := by
    rw [isLZ77Compressed, hbound]
    refine toOption_findFrom (fun i hi => ?_) (by omega)
    rw [toOption_bind, toOption_get, List.getElem?_eq_getElem (by omega), Option.bind_some,
      toOption_pure, List.getD_eq_getElem _ _ (by omega)]
  have hmap : data.dropLast = (List.range' 0 (data.length - 1)).map fun i => data.getD i 0 := by
    refine List.ext_getElem (by simp) fun i hi hi' => ?_
    rw [List.length_dropLast] at hi
    simp [List.getElem_dropLast, List.getElem?_eq_getElem (show i < data.length by omega)]
  rw [hfind, hmap, List.any_map]
  rfl

theorem toOption_isRLECompressed_single (b : UInt8) : (isRLECompressed [b]).toOption = none := by
  have hbound : wrapSub [b].length 2 = 1 + 2 ^ 64 - 2 := rfl
  rw [isRLECompressed, hbound, findFrom, if_pos (by decide), toOption_bind, toOption_bind,
    toOption_get]
  by_cases hb : b = 0xFF
  · simp [hb]
  · simp [hb, findFrom]

theorem toOption_sniff {data : List UInt8} (h : 2 ≤ data.length) :
    (sniff data).toOption =
      if hasEscape data = true then some (some (Compression.decompressZlib data))
      else if Plain data then some none else (Compression.decompressLZ4 data).map some := by
  have hne : data ≠ [] := List.ne_nil_of_length_pos (by omega)
  rw [sniff, if_neg hne, toOption_bind, toOption_isRLECompressed h, Option.bind_some]
  by_cases hescape : hasEscape data = true
  · rw [if_pos hescape, if_pos hescape, toOption_bind, decompressRLE,
      Compression.Indexed.toOption_decompressZlib]
    rfl
  rw [if_neg hescape, if_neg hescape, toOption_bind, toOption_isLZ77Compressed hne,
    Option.bind_some]
  by_cases hplain : Plain data
  · rw [if_neg (fun hany => any_high_iff.mp hany hplain), if_pos hplain, toOption_pure]
  · rw [if_pos (any_high_iff.mpr hplain), if_neg hplain, toOption_bind, decompressLZ77,
      Compression.Indexed.toOption_decompressLZ4]
    cases Compression.decompressLZ4 data <;> rfl

theorem toOption_sniff_single (b : UInt8) : (sniff [b]).toOption = none := by
  rw [sniff, if_neg (List.cons_ne_nil b []), toOption_bind, toOption_isRLECompressed_single]
  rfl

theorem toOption_applyDynamicDecompression (dc : DataCompression) (data : List UInt8) :
    (applyDynamicDecompression dc data).toOption =
      DynamicNetworkOptimizer.applyDynamicDecompression dc data := by
  rw [applyDynamicDecompression, toOption_bind]
  match data with
  | [] => rfl
  | [b] =>
    rw [toOption_sniff_single, applyDynamicDecompression_of_short (by simp) (by simp)]
    rfl
  | a :: b :: bs =>
    have hlen : 2 ≤ (a :: b :: bs).length := by simp
    rw [toOption_sniff hlen, applyDynamicDecompression_eq hlen]
    split
    · exact toOption_pure _
    split
    · exact Compression.Indexed.toOption_decompress dc _
    · cases Compression.decompressLZ4 (a :: b :: bs) with
      | none => rfl
      | some out => exact toOption_pure out

def Escapes (data : List UInt8) : Prop :=
  ∃ i, i + 2 < data.length ∧ data.getD i 0 = 0xFF ∧ data.getD (i + 1) 0 > 3

theorem hasEscape_iff (data : List UInt8) : hasEscape data = true ↔ Escapes data := by
  rw [hasEscape_eq_any, List.any_eq_true]
  refine exists_congr fun i => ?_
  rw [List.mem_range'_1, decide_eq_true_eq]
  have hlt : 0 ≤ i ∧ i < 0 + (data.length - 2) ↔ i + 2 < data.length := by omega
  rw [hlt]

theorem noZeroDistance_of_plain {data : List UInt8} (h : Plain data) :
    Compression.Indexed.NoZeroDistance data := by
  rw [← Compression.Indexed.decompressLZ4Loop_ne_none_iff data []]
  have hsome : Compression.decompressLZ4Loop data [] = some data := decompressLZ4_of_plain h
  rw [hsome]
  exact Option.some_ne_none data

/-- Nothing is read outside and nothing divided by zero exactly if there is nothing, or there are
two bytes at least, and an escape in front of the last two or no match at distance zero. -/
theorem sniff_safe_iff (data : List UInt8) :
    (sniff data).Safe ↔
      data = [] ∨
        2 ≤ data.length ∧ (Escapes data ∨ Compression.Indexed.NoZeroDistance data) := by
  rw [safe_iff_toOption]
  match data with
  | [] => exact iff_of_true (by decide) (Or.inl rfl)
  | [b] =>
    rw [toOption_sniff_single]
    refine iff_of_false (fun h => h rfl) ?_
    rintro (h | ⟨h, -⟩)
    · exact List.cons_ne_nil b [] h
    · exact absurd h (by simp)
  | a :: b :: bs =>
    have hlen : 2 ≤ (a :: b :: bs).length := by simp
    rw [toOption_sniff hlen, ← hasEscape_iff]
    simp only [hlen, true_and, reduceCtorEq, false_or]
    by_cases hescape : hasEscape (a :: b :: bs) = true
    · rw [if_pos hescape]
      exact iff_of_true (Option.some_ne_none _) (Or.inl hescape)
    · rw [if_neg hescape, or_iff_right hescape]
      by_cases hplain : Plain (a :: b :: bs)
      · rw [if_pos hplain]
        exact iff_of_true (Option.some_ne_none _) (noZeroDistance_of_plain hplain)
      · rw [if_neg hplain, ne_eq, Option.map_eq_none_iff]
        exact Compression.Indexed.decompressLZ4Loop_ne_none_iff _ []

theorem not_sniff_safe_single : ¬ ∀ data : List UInt8, (sniff data).Safe := by
  intro h
  have hsingle := h [0]
  revert hsingle
  decide +kernel

end WitcherMP.Optimizers.DynamicNetworkOptimizer.Indexed
