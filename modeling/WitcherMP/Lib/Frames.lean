import WitcherMP.Lib.Bytes
import Mathlib.Data.List.Infix
import Mathlib.Data.List.TakeDrop

/-! Lists of words in one block, each behind its length in four bytes. What is written reads back
as long as what follows cannot be read as one more, and what is read stands at the front. -/

namespace WitcherMP.Frames

def frame (p : List UInt8) : List UInt8 := Bytes.le32 p.length ++ p

def frames (ps : List (List UInt8)) : List UInt8 := ps.flatMap frame

def cut : ℕ → List UInt8 → List (List UInt8)
  | 0, _ => []
  | fuel + 1, bs =>
    if bs.length < 4 then []
    else if (bs.drop 4).length < Bytes.readLE32 bs then []
    else (bs.drop 4).take (Bytes.readLE32 bs) :: cut fuel ((bs.drop 4).drop (Bytes.readLE32 bs))

def Incomplete (s : List UInt8) : Prop := s.length < 4 ∨ (s.drop 4).length < Bytes.readLE32 s

def Short (p : List UInt8) : Prop := p.length < 2 ^ 32

variable {ps qs : List (List UInt8)} {p s bs : List UInt8} {fuel : ℕ}

theorem length_frame (p : List UInt8) : (frame p).length = 4 + p.length := by
  rw [frame, List.length_append, Bytes.length_le32]

@[simp] theorem frames_nil : frames [] = [] := rfl

@[simp] theorem frames_cons (p : List UInt8) (ps : List (List UInt8)) :
    frames (p :: ps) = frame p ++ frames ps := rfl

theorem drop_frame (p bs : List UInt8) : (frame p ++ bs).drop 4 = p ++ bs := by
  rw [frame, List.append_assoc, List.drop_left' (Bytes.length_le32 _)]

theorem readLE32_frame (hp : Short p) (bs : List UInt8) : Bytes.readLE32 (frame p ++ bs) = p.length := by
  rw [frame, List.append_assoc, Bytes.readLE32_le32, Nat.mod_eq_of_lt hp]

theorem cut_frame (hp : Short p) (bs : List UInt8) :
    cut (fuel + 1) (frame p ++ bs) = p :: cut fuel bs := by
  rw [cut, if_neg (by rw [List.length_append, length_frame]; omega), drop_frame, readLE32_frame hp,
    if_neg (by rw [List.length_append]; omega), List.take_left, List.drop_left]

theorem cut_eq_nil_iff (hfuel : s.length ≤ fuel) : cut fuel s = [] ↔ Incomplete s := by
  cases fuel with
  | zero =>
    rw [List.eq_nil_of_length_eq_zero (Nat.le_zero.mp hfuel)]
    exact iff_of_true rfl (Or.inl (by decide))
  | succ fuel =>
    rw [cut, Incomplete]
    split_ifs with hshort hlong
    · exact iff_of_true rfl (Or.inl hshort)
    · exact iff_of_true rfl (Or.inr hlong)
    · exact iff_of_false id fun h => h.elim hshort hlong

theorem cut_frames (hps : ∀ p ∈ ps, Short p) (hs : Incomplete s)
    (hfuel : (frames ps ++ s).length ≤ fuel) : cut fuel (frames ps ++ s) = ps := by
  induction ps generalizing fuel with
  | nil => exact (cut_eq_nil_iff hfuel).mpr hs
  | cons p ps ih =>
    obtain ⟨hp, hps⟩ := List.forall_mem_cons.mp hps
    rw [frames_cons, List.append_assoc, List.length_append, length_frame] at hfuel
    obtain ⟨fuel, rfl⟩ : ∃ n, fuel = n + 1 := ⟨fuel - 1, by omega⟩
    rw [frames_cons, List.append_assoc, cut_frame hp, ih hps (by omega)]

theorem cut_spec (hfuel : bs.length ≤ fuel) :
    (∀ p ∈ cut fuel bs, Short p) ∧ ∃ s, bs = frames (cut fuel bs) ++ s ∧ Incomplete s := by
  induction fuel generalizing bs with
  | zero =>
    rw [List.eq_nil_of_length_eq_zero (Nat.le_zero.mp hfuel)]
    exact ⟨fun p hp => absurd hp List.not_mem_nil, [], rfl, Or.inl (by decide)⟩
  | succ fuel ih =>
    rw [cut]
    split_ifs with hshort hlong
    · exact ⟨fun p hp => absurd hp List.not_mem_nil, bs, rfl, Or.inl hshort⟩
    · exact ⟨fun p hp => absurd hp List.not_mem_nil, bs, rfl, Or.inr hlong⟩
    · rw [not_lt] at hshort hlong
      have hlen : ((bs.drop 4).take (Bytes.readLE32 bs)).length = Bytes.readLE32 bs := by
        rw [List.length_take, min_eq_left hlong]
      have hless : ((bs.drop 4).drop (Bytes.readLE32 bs)).length ≤ fuel := by
        simp only [List.length_drop]
        omega
      obtain ⟨hps, s, hrest, hs⟩ := ih hless
      refine ⟨List.forall_mem_cons.mpr ⟨?_, hps⟩, s, ?_, hs⟩
      · rw [Short, hlen]
        exact Bytes.readLE32_lt bs
      · rw [frames_cons, List.append_assoc, ← hrest, frame, hlen, Bytes.le32_readLE32 hshort,
          List.append_assoc, List.take_append_drop, List.take_append_drop]

theorem cut_eq_iff (hfuel : bs.length ≤ fuel) :
    cut fuel bs = ps ↔ (∀ p ∈ ps, Short p) ∧ ∃ s, bs = frames ps ++ s ∧ Incomplete s := by
  constructor
  · rintro rfl
    exact cut_spec hfuel
  · rintro ⟨hps, s, rfl, hs⟩
    exact cut_frames hps hs hfuel

theorem frames_injective (hps : ∀ p ∈ ps, Short p) (hqs : ∀ q ∈ qs, Short q)
    (h : frames ps = frames qs) : ps = qs := by
  have hnil : Incomplete [] := Or.inl (by decide)
  have hread := cut_frames hps hnil le_rfl
  rw [List.append_nil, h] at hread
  have hread' := cut_frames hqs hnil le_rfl
  rw [List.append_nil] at hread'
  exact hread.symm.trans hread'

end WitcherMP.Frames
