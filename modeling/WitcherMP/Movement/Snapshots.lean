import WitcherMP.Movement.Defs
import WitcherMP.Lib.Lines
import Mathlib

/-! Interpolating between the snapshots of a player. The search for the earlier snapshot stops at
the first one that is not later than the target, which is the first of all, and the later one is
the nearest on either side. Times are in seconds; statistics and callbacks are left out. -/

namespace WitcherMP.Movement

structure PositionSnapshot where
  playerId : UInt32 := 0
  position : Vector4F := {}
  velocity : Vector4F := {}
  acceleration : Vector4F := {}
  rotation : ℚ := 0
  timestamp : ℚ := 0
  sequenceNumber : UInt32 := 0
  isValid : Bool := false
deriving DecidableEq

structure InterpolatedPosition where
  position : Vector4F := {}
  velocity : Vector4F := {}
  acceleration : Vector4F := {}
  rotation : ℚ := 0
  confidence : ℚ := 1
  isExtrapolated : Bool := false
  isJitterCorrected : Bool := false
deriving DecidableEq

structure Motion where
  position : Vector4F
  velocity : Vector4F
  rotation : ℚ

def PositionSnapshot.motion (s : PositionSnapshot) : Motion := ⟨s.position, s.velocity, s.rotation⟩

def InterpolatedPosition.motion (r : InterpolatedPosition) : Motion :=
  ⟨r.position, r.velocity, r.rotation⟩

namespace InterpolationUtils

def lerp (a b : Vector4F) (t : ℚ) : Vector4F where
  x := a.x + (b.x - a.x) * t
  y := a.y + (b.y - a.y) * t
  z := a.z + (b.z - a.z) * t
  w := 1

def lerpFloat (a b t : ℚ) : ℚ := a + (b - a) * t

def clamp (value low high : ℚ) : ℚ := max low (min high value)

end InterpolationUtils

def SamePlace (p q : Vector4F) : Prop := p.x = q.x ∧ p.y = q.y ∧ p.z = q.z

namespace Motion
open InterpolationUtils

def lerp (a b : Motion) (t : ℚ) : Motion where
  position := InterpolationUtils.lerp a.position b.position t
  velocity := InterpolationUtils.lerp a.velocity b.velocity t
  rotation := lerpFloat a.rotation b.rotation t

def Same (a b : Motion) : Prop :=
  SamePlace a.position b.position ∧ SamePlace a.velocity b.velocity ∧ a.rotation = b.rotation

def shown (a : Motion) : Motion :=
  { a with position := { a.position with w := 1 }, velocity := { a.velocity with w := 1 } }

def coordinates (a : Motion) : Fin 9 → ℚ :=
  ![a.position.x, a.position.y, a.position.z, a.position.w, a.velocity.x, a.velocity.y, a.velocity.z,
    a.velocity.w, a.rotation]

variable {a b c d : Motion} {t t' : ℚ}

theorem lerp_one (a b : Motion) : a.lerp b 1 = b.shown := by
  simp [lerp, InterpolationUtils.lerp, lerpFloat, shown]

theorem lerp_eq_lerp_iff : a.lerp b t = c.lerp d t' ↔ Same (a.lerp b t) (c.lerp d t') := by
  simp [lerp, InterpolationUtils.lerp, Same, SamePlace, and_assoc]

theorem shown_eq_lerp_iff : a.shown = c.lerp d t ↔ Same a (c.lerp d t) := by
  simp [lerp, InterpolationUtils.lerp, shown, Same, SamePlace, and_assoc]

theorem shown_ne_default (a : Motion) : a.shown ≠ InterpolatedPosition.motion {} := by
  intro heq
  have hw : (1 : ℚ) = 0 := congrArg (fun m : Motion => m.position.w) heq
  exact absurd hw (by decide)

theorem lerp_ne_default (a b : Motion) (t : ℚ) : a.lerp b t ≠ InterpolatedPosition.motion {} :=
  (a.lerp b t).shown_ne_default

theorem lerp_meet_iff {T₀ T₁ T₂ time : ℚ} (h₀ : T₀ < T₂) (h₁ : T₁ < T₂) :
    a.lerp c ((time - T₀) / (T₂ - T₀)) = b.lerp c ((time - T₁) / (T₂ - T₁)) ↔
      time = T₂ ∨ Same b (a.lerp c ((T₁ - T₀) / (T₂ - T₀))) := by
  have haxis (x₀ x₁ x₂ : ℚ) := @Lines.lines_meet_iff ℚ _ T₀ T₁ T₂ time x₀ x₁ x₂
    (sub_pos.mpr h₀).ne' (sub_pos.mpr h₁).ne'
  rw [lerp_eq_lerp_iff]
  simp only [Same, SamePlace, lerp, InterpolationUtils.lerp, lerpFloat, haxis, ← or_and_left]

theorem same_lerp_iff {time T₀ T₁ : ℚ} (h : T₀ < T₁) :
    Same a (a.lerp b ((time - T₀) / (T₁ - T₀))) ↔ time = T₀ ∨ Same a b := by
  have hwidth : T₁ - T₀ ≠ 0 := (sub_pos.mpr h).ne'
  have haxis (x y : ℚ) : x = x + (y - x) * ((time - T₀) / (T₁ - T₀)) ↔ time = T₀ ∨ x = y := by
    rw [left_eq_add, mul_eq_zero, div_eq_zero_iff, or_iff_left hwidth, sub_eq_zero, sub_eq_zero,
      or_comm, eq_comm (a := y)]
  simp only [Same, SamePlace, lerp, InterpolationUtils.lerp, lerpFloat, haxis, ← or_and_left]

theorem coordinates_inj : a.coordinates = b.coordinates ↔ a = b := by
  refine ⟨fun h => ?_, fun h => h ▸ rfl⟩
  obtain ⟨⟨x, y, z, w⟩, ⟨x', y', z', w'⟩, r⟩ := a
  simp only [coordinates, Matrix.vecCons_inj, and_true] at h
  obtain ⟨rfl, rfl, rfl, rfl, rfl, rfl, rfl, rfl, rfl⟩ := h
  rfl

theorem continuous_lerp (a b : Motion) (start width : ℚ) :
    Continuous fun time => (a.lerp b ((time - start) / width)).coordinates := by
  refine continuous_pi fun i => ?_
  have haxis (x y : ℚ) : Continuous fun time : ℚ => x + (y - x) * ((time - start) / width) :=
    continuous_const.add (continuous_const.mul
      ((continuous_id.sub continuous_const).div_const width))
  fin_cases i
  · exact haxis _ _
  · exact haxis _ _
  · exact haxis _ _
  · exact continuous_const
  · exact haxis _ _
  · exact haxis _ _
  · exact haxis _ _
  · exact continuous_const
  · exact haxis _ _

end Motion

namespace PositionInterpolation
open InterpolationUtils

def findSnapshotAtTime (snapshots : List PositionSnapshot) (time : ℚ) : PositionSnapshot :=
  (snapshots.find? fun snapshot => snapshot.timestamp ≤ time).getD {}

def nearerSnapshot (time : ℚ) (nearest : PositionSnapshot × ℚ) (snapshot : PositionSnapshot) :
    PositionSnapshot × ℚ :=
  let diff := |snapshot.timestamp - time|
  if diff < nearest.2 then (snapshot, diff) else nearest

def findNearestSnapshot (snapshots : List PositionSnapshot) (time : ℚ) : PositionSnapshot :=
  match snapshots with
  | [] => {}
  | first :: rest =>
    ((first :: rest).foldl (nearerSnapshot time) (first, |first.timestamp - time|)).1

def interpolateLinear (snapshots : List PositionSnapshot) (time : ℚ) : InterpolatedPosition :=
  if snapshots.length < 2 then {}
  else
    let before := findSnapshotAtTime snapshots time
    let after := findNearestSnapshot snapshots time
    if !before.isValid || !after.isValid then {}
    else
      let timeDiff := after.timestamp - before.timestamp
      if timeDiff ≤ 0 then {}
      else
        let t := clamp ((time - before.timestamp) / timeDiff) 0 1
        { position := lerp before.position after.position t
          velocity := lerp before.velocity after.velocity t
          rotation := lerpFloat before.rotation after.rotation t
          confidence := 1 - |t - 1 / 2| * 2 }

section Searches
variable {time : ℚ}

theorem findSnapshotAtTime_cons {first : PositionSnapshot} (h : first.timestamp ≤ time)
    (rest : List PositionSnapshot) : findSnapshotAtTime (first :: rest) time = first := by
  simp [findSnapshotAtTime, h]

theorem foldl_nearerSnapshot_of_le {near : PositionSnapshot} {diff : ℚ}
    {snapshots : List PositionSnapshot} (h : ∀ s ∈ snapshots, diff ≤ |s.timestamp - time|) :
    snapshots.foldl (nearerSnapshot time) (near, diff) = (near, diff) := by
  induction snapshots with
  | nil => rfl
  | cons s snapshots ih =>
    obtain ⟨hs, hrest⟩ := List.forall_mem_cons.mp h
    rw [List.foldl_cons, nearerSnapshot, if_neg (not_lt.mpr hs), ih hrest]

theorem foldl_nearerSnapshot {s : PositionSnapshot} {before after : List PositionSnapshot}
    {start : PositionSnapshot × ℚ} (hstart : |s.timestamp - time| < start.2)
    (hbefore : ∀ s' ∈ before, |s.timestamp - time| < |s'.timestamp - time|)
    (hafter : ∀ s' ∈ after, |s.timestamp - time| ≤ |s'.timestamp - time|) :
    (before ++ s :: after).foldl (nearerSnapshot time) start = (s, |s.timestamp - time|) := by
  induction before generalizing start with
  | nil =>
    rw [List.nil_append, List.foldl_cons, nearerSnapshot, if_pos hstart]
    exact foldl_nearerSnapshot_of_le hafter
  | cons s' before ih =>
    obtain ⟨hs', hrest⟩ := List.forall_mem_cons.mp hbefore
    rw [List.cons_append, List.foldl_cons]
    refine ih ?_ hrest
    unfold nearerSnapshot
    dsimp only
    split
    · exact hs'
    · exact hstart

theorem findNearestSnapshot_eq {s : PositionSnapshot} {before after : List PositionSnapshot}
    (hbefore : ∀ s' ∈ before, |s.timestamp - time| < |s'.timestamp - time|)
    (hafter : ∀ s' ∈ after, |s.timestamp - time| ≤ |s'.timestamp - time|) :
    findNearestSnapshot (before ++ s :: after) time = s := by
  cases before with
  | nil =>
    rw [List.nil_append, findNearestSnapshot]
    have hall : ∀ s' ∈ s :: after, |s.timestamp - time| ≤ |s'.timestamp - time| :=
      List.forall_mem_cons.mpr ⟨le_rfl, hafter⟩
    rw [foldl_nearerSnapshot_of_le hall]
  | cons first before =>
    have hstart := hbefore first (List.mem_cons_self ..)
    rw [List.cons_append, findNearestSnapshot, ← List.cons_append,
      foldl_nearerSnapshot hstart hbefore hafter]

end Searches

def between (a b : PositionSnapshot) (time : ℚ) : Motion :=
  a.motion.lerp b.motion ((time - a.timestamp) / (b.timestamp - a.timestamp))

theorem between_end {a b : PositionSnapshot} (hab : a.timestamp < b.timestamp) :
    between a b b.timestamp = b.motion.shown := by
  rw [between, div_self (sub_pos.mpr hab).ne', Motion.lerp_one]

theorem motion_interpolateLinear {snapshots : List PositionSnapshot} {first near : PositionSnapshot}
    {time : ℚ} (hlength : 2 ≤ snapshots.length) (hfirst : findSnapshotAtTime snapshots time = first)
    (hnear : findNearestSnapshot snapshots time = near) :
    (interpolateLinear snapshots time).motion =
      if first.isValid = true ∧ near.isValid = true ∧ first.timestamp < near.timestamp then
        first.motion.lerp near.motion
          (clamp ((time - first.timestamp) / (near.timestamp - first.timestamp)) 0 1)
      else InterpolatedPosition.motion {} := by
  rw [interpolateLinear, if_neg (Nat.not_lt.mpr hlength), hfirst, hnear]
  dsimp only
  cases hvalid : first.isValid with
  | false => simp
  | true =>
    cases hvalid' : near.isValid with
    | false => simp
    | true =>
      by_cases htime : first.timestamp < near.timestamp
      · have hdiff : ¬ near.timestamp - first.timestamp ≤ 0 := not_le.mpr (sub_pos.mpr htime)
        simp [htime, hdiff, InterpolatedPosition.motion, PositionSnapshot.motion, Motion.lerp]
      · have hdiff : near.timestamp - first.timestamp ≤ 0 := sub_nonpos.mpr (not_lt.mp htime)
        simp [htime, hdiff]

section Sorted
variable {snapshots pre post : List PositionSnapshot} {a b : PositionSnapshot} {time : ℚ}

/-- Sorted by time, as what is added is. -/
def InOrder (snapshots : List PositionSnapshot) : Prop :=
  snapshots.Pairwise fun s s' => s.timestamp ≤ s'.timestamp

theorem abs_of_early {t : ℚ} (h : t ≤ time) : |t - time| = time - t := by
  rw [abs_sub_comm, abs_of_nonneg (sub_nonneg.mpr h)]

theorem abs_of_late {t : ℚ} (h : time ≤ t) : |t - time| = t - time :=
  abs_of_nonneg (sub_nonneg.mpr h)

theorem InOrder.early (h : InOrder (pre ++ a :: b :: post)) :
    ∀ s ∈ pre ++ [a], s.timestamp ≤ a.timestamp := by
  intro s hs
  rcases List.mem_append.mp hs with hs | hs
  · exact (List.pairwise_append.mp h).2.2 s hs a (List.mem_cons_self ..)
  · rw [List.mem_singleton.mp hs]

theorem InOrder.late (h : InOrder (pre ++ a :: b :: post)) :
    ∀ s ∈ b :: post, b.timestamp ≤ s.timestamp := by
  intro s hs
  have hrest := (List.pairwise_cons.mp (List.pairwise_append.mp h).2.1).2
  rcases List.mem_cons.mp hs with rfl | hs
  · exact le_rfl
  · exact (List.pairwise_cons.mp hrest).1 s hs

theorem InOrder.early_or_late (h : InOrder (pre ++ a :: b :: post)) :
    ∀ s ∈ pre ++ a :: b :: post, s.timestamp ≤ a.timestamp ∨ b.timestamp ≤ s.timestamp := by
  intro s hs
  rw [← List.singleton_append, ← List.append_assoc] at hs
  rcases List.mem_append.mp hs with hs | hs
  · exact Or.inl (h.early s hs)
  · exact Or.inr (h.late s hs)

theorem InOrder.findNearestSnapshot_later (h : InOrder (pre ++ a :: b :: post))
    (ha : a.timestamp ≤ time) (hb : time ≤ b.timestamp)
    (hnear : b.timestamp - time < time - a.timestamp) :
    findNearestSnapshot (pre ++ a :: b :: post) time = b := by
  rw [← List.singleton_append, ← List.append_assoc]
  refine findNearestSnapshot_eq (fun s hs => ?_) (fun s hs => ?_)
  · have hs := h.early s hs
    rw [abs_of_late hb, abs_of_early (hs.trans ha)]
    linarith
  · have hs := h.late s (List.mem_cons_of_mem b hs)
    rw [abs_of_late hb, abs_of_late (hb.trans hs)]
    linarith

theorem InOrder.findNearestSnapshot_earlier (h : InOrder (pre ++ a :: b :: post))
    (ha : a.timestamp ≤ time) (hb : time ≤ b.timestamp)
    (hnear : ¬ b.timestamp - time < time - a.timestamp) {held : PositionSnapshot}
    (hheld : (pre ++ a :: b :: post).find? (fun s => s.timestamp = a.timestamp) = some held) :
    findNearestSnapshot (pre ++ a :: b :: post) time = held := by
  have hsame : held.timestamp = a.timestamp := by simpa using List.find?_some hheld
  obtain ⟨-, before, after, hsplit, hbefore⟩ := List.find?_eq_some_iff_append.mp hheld
  have hsides := h.early_or_late
  rw [hsplit] at h hsides ⊢
  obtain ⟨-, hafter, hcross⟩ := List.pairwise_append.mp h
  refine findNearestSnapshot_eq (fun s hs => ?_) (fun s hs => ?_)
  · have hle := hcross s hs held (List.mem_cons_self ..)
    have hne : s.timestamp ≠ a.timestamp := by simpa using hbefore s hs
    have hlt : s.timestamp < a.timestamp := lt_of_le_of_ne (hsame ▸ hle) hne
    rw [hsame, abs_of_early ha, abs_of_early (hlt.le.trans ha)]
    linarith
  · have hle := (List.pairwise_cons.mp hafter).1 s hs
    rw [hsame] at hle ⊢
    rw [abs_of_early ha]
    rcases hsides s (List.mem_append_right _ (List.mem_cons_of_mem held hs)) with hs | hs
    · rw [abs_of_early (hs.trans ha)]
      linarith
    · rw [abs_of_late (hb.trans hs)]
      linarith [not_lt.mp hnear]

theorem headD_early (pre : List PositionSnapshot) (a : PositionSnapshot) :
    pre.headD a ∈ pre ++ [a] := by
  cases pre with
  | nil => exact List.mem_cons_self ..
  | cons first pre => exact List.mem_cons_self ..

theorem two_le_length (pre : List PositionSnapshot) (a b : PositionSnapshot)
    (post : List PositionSnapshot) : 2 ≤ (pre ++ a :: b :: post).length := by
  simp only [List.length_append, List.length_cons]
  omega

theorem findSnapshotAtTime_eq_headD (h : InOrder (pre ++ a :: b :: post))
    (ha : a.timestamp ≤ time) :
    findSnapshotAtTime (pre ++ a :: b :: post) time = pre.headD a := by
  have hfirst := (h.early _ (headD_early pre a)).trans ha
  cases pre with
  | nil => exact findSnapshotAtTime_cons hfirst _
  | cons first pre => exact findSnapshotAtTime_cons hfirst _

theorem clamp_of_le {t : ℚ} (h₀ : 0 ≤ t) (h₁ : t ≤ 1) : clamp t 0 1 = t := by
  rw [clamp, min_eq_right h₁, max_eq_right h₀]

theorem clamp_of_ge {t : ℚ} (h : 1 ≤ t) : clamp t 0 1 = 1 := by
  rw [clamp, min_eq_left h, max_eq_right zero_le_one]

theorem InOrder.motion_later (h : InOrder (pre ++ a :: b :: post)) (hab : a.timestamp < b.timestamp)
    (ha : a.timestamp ≤ time) (hb : time ≤ b.timestamp)
    (hnear : b.timestamp - time < time - a.timestamp) :
    (interpolateLinear (pre ++ a :: b :: post) time).motion =
      if (pre.headD a).isValid = true ∧ b.isValid = true then between (pre.headD a) b time
      else InterpolatedPosition.motion {} := by
  have hfirst := h.early _ (headD_early pre a)
  have hspan : (pre.headD a).timestamp < b.timestamp := lt_of_le_of_lt hfirst hab
  have hwidth : 0 < b.timestamp - (pre.headD a).timestamp := sub_pos.mpr hspan
  have hlow : 0 ≤ (time - (pre.headD a).timestamp) / (b.timestamp - (pre.headD a).timestamp) :=
    div_nonneg (sub_nonneg.mpr (hfirst.trans ha)) hwidth.le
  have hhigh : (time - (pre.headD a).timestamp) / (b.timestamp - (pre.headD a).timestamp) ≤ 1 :=
    (div_le_one hwidth).mpr (sub_le_sub_right hb _)
  rw [motion_interpolateLinear (two_le_length pre a b post) (findSnapshotAtTime_eq_headD h ha)
    (h.findNearestSnapshot_later ha hb hnear), clamp_of_le hlow hhigh]
  simp only [hspan, and_true]
  rfl

theorem InOrder.motion_earlier (h : InOrder (pre ++ a :: b :: post)) (ha : a.timestamp ≤ time)
    (hb : time ≤ b.timestamp) (hnear : ¬ b.timestamp - time < time - a.timestamp)
    {held : PositionSnapshot}
    (hheld : (pre ++ a :: b :: post).find? (fun s => s.timestamp = a.timestamp) = some held) :
    (interpolateLinear (pre ++ a :: b :: post) time).motion =
      if (pre.headD a).isValid = true ∧ held.isValid = true ∧ (pre.headD a).timestamp < a.timestamp then
        held.motion.shown
      else InterpolatedPosition.motion {} := by
  have hsame : held.timestamp = a.timestamp := by simpa using List.find?_some hheld
  rw [motion_interpolateLinear (two_le_length pre a b post) (findSnapshotAtTime_eq_headD h ha)
    (h.findNearestSnapshot_earlier ha hb hnear hheld), hsame]
  split
  · next hfound =>
    have hwidth : 0 < a.timestamp - (pre.headD a).timestamp := sub_pos.mpr hfound.2.2
    have hpast : 1 ≤ (time - (pre.headD a).timestamp) / (a.timestamp - (pre.headD a).timestamp) :=
      (one_le_div hwidth).mpr (sub_le_sub_right ha _)
    rw [clamp_of_ge hpast, Motion.lerp_one]
  · rfl

theorem InOrder.exists_held (snapshots : List PositionSnapshot) (hmem : a ∈ snapshots) :
    ∃ s, snapshots.find? (fun s => s.timestamp = a.timestamp) = some s :=
  Option.isSome_iff_exists.mp (List.find?_isSome.mpr ⟨a, hmem, decide_eq_true rfl⟩)

theorem InOrder.motion_first (h : InOrder (pre ++ a :: b :: post)) :
    (interpolateLinear (pre ++ a :: b :: post) (pre.headD a).timestamp).motion
      = InterpolatedPosition.motion {} := by
  have hcons : ∃ rest, pre ++ a :: b :: post = pre.headD a :: rest := by
    cases pre with
    | nil => exact ⟨_, rfl⟩
    | cons first pre => exact ⟨_, rfl⟩
  obtain ⟨rest, hrest⟩ := hcons
  have hlength := two_le_length pre a b post
  rw [hrest] at h hlength ⊢
  have hnear : findNearestSnapshot (pre.headD a :: rest) (pre.headD a).timestamp = pre.headD a := by
    rw [← List.nil_append (pre.headD a :: rest)]
    refine findNearestSnapshot_eq (fun s hs => absurd hs List.not_mem_nil) fun s _ => ?_
    rw [sub_self, abs_zero]
    exact abs_nonneg _
  rw [motion_interpolateLinear hlength (findSnapshotAtTime_cons le_rfl rest) hnear,
    if_neg fun hfound => lt_irrefl _ hfound.2.2]

theorem ite_default_eq_iff {P : Prop} [Decidable P] {m n : Motion}
    (hn : n ≠ InterpolatedPosition.motion {}) :
    (if P then m else InterpolatedPosition.motion {}) = n ↔ P ∧ m = n := by
  split_ifs with hp
  · exact (and_iff_right hp).symm
  · exact iff_of_false hn.symm fun h => hp h.1

theorem ite_default_eq_ite_iff {P Q : Prop} [Decidable P] [Decidable Q] {m n : Motion}
    (hm : m ≠ InterpolatedPosition.motion {}) (hn : n ≠ InterpolatedPosition.motion {}) :
    (if P then m else InterpolatedPosition.motion {}) = (if Q then n else InterpolatedPosition.motion {})
      ↔ (P ↔ Q) ∧ (P → m = n) := by
  by_cases hp : P
  · by_cases hq : Q
    · simp [hp, hq]
    · simp [hp, hq, hm]
  · by_cases hq : Q
    · simp [hp, hq, hn.symm]
    · simp [hp, hq]

theorem InOrder.continuousOn_iff (h : InOrder (pre ++ a :: b :: post)) (hab : a.timestamp < b.timestamp)
    {held : PositionSnapshot}
    (hheld : (pre ++ a :: b :: post).find? (fun s => s.timestamp = a.timestamp) = some held) :
    ContinuousOn (fun t => (interpolateLinear (pre ++ a :: b :: post) t).motion.coordinates)
        (Set.Icc a.timestamp b.timestamp) ↔
      ((pre.headD a).isValid = true →
        (b.isValid = true ↔ held.isValid = true ∧ (pre.headD a).timestamp < a.timestamp) ∧
        (b.isValid = true →
          Motion.Same held.motion (between (pre.headD a) b ((a.timestamp + b.timestamp) / 2)))) := by
  let middle : ℚ := (a.timestamp + b.timestamp) / 2
  let standing : Motion :=
    if (pre.headD a).isValid = true ∧ held.isValid = true ∧ (pre.headD a).timestamp < a.timestamp then
      held.motion.shown
    else InterpolatedPosition.motion {}
  let moving (t : ℚ) : Motion :=
    if (pre.headD a).isValid = true ∧ b.isValid = true then between (pre.headD a) b t
    else InterpolatedPosition.motion {}
  have hmoving : Continuous fun t => (moving t).coordinates := by
    unfold moving
    split_ifs
    · exact Motion.continuous_lerp _ _ _ _
    · exact continuous_const
  have hlow (t : ℚ) (ha : a.timestamp ≤ t) (hb : t ≤ middle) :
      (interpolateLinear (pre ++ a :: b :: post) t).motion.coordinates = standing.coordinates := by
    have hnear : ¬ b.timestamp - t < t - a.timestamp := by
      unfold middle at hb
      linarith
    rw [h.motion_earlier ha (by unfold middle at hb; linarith) hnear hheld]
  have hhigh (t : ℚ) (ha : middle < t) (hb : t ≤ b.timestamp) :
      (interpolateLinear (pre ++ a :: b :: post) t).motion.coordinates = (moving t).coordinates := by
    have hnear : b.timestamp - t < t - a.timestamp := by
      unfold middle at ha
      linarith
    rw [h.motion_later hab (by unfold middle at ha; linarith) hb hnear]
  have hmiddle : a.timestamp ≤ middle ∧ middle < b.timestamp := by
    unfold middle
    constructor <;> linarith
  have hline (t : ℚ) : between (pre.headD a) b t ≠ InterpolatedPosition.motion {} :=
    Motion.lerp_ne_default _ _ _
  have hstands : held.motion.shown ≠ InterpolatedPosition.motion {} := Motion.shown_ne_default _
  have hmeet : between (pre.headD a) b middle = held.motion.shown ↔
      Motion.Same held.motion (between (pre.headD a) b middle) := by
    rw [eq_comm]
    exact Motion.shown_eq_lerp_iff
  rw [Lines.continuousOn_jump_iff hmoving hmiddle.1 hmiddle.2 hlow hhigh, Motion.coordinates_inj]
  unfold moving standing
  rw [ite_default_eq_ite_iff (hline middle) hstands, hmeet]
  tauto

/-- Between two snapshots the motion is the one interpolated between these two just when the
nearest is not the first, and either it is the later one, and the target is at its time or the
earlier one is on the line from the first to it, or it is the earlier one, and the line from
there passes it at the target time. With no time repeated the last means that the target is at
its time or nothing changes between the two. At the later one's own time its motion comes out if it and
the first are valid, at the first one's time it never does; and there is no jump between the two just when
either side gives the default, or the earlier one is on the line from the first to the later at the
time in the middle. -/
theorem interpolateLinear_brackets_iff (hsorted : InOrder snapshots)
    (hsplit : snapshots = pre ++ a :: b :: post) (hab : a.timestamp < b.timestamp)
    (ha : a.timestamp ≤ time) (hb : time ≤ b.timestamp) :
    let first := pre.headD a
    let held := (snapshots.find? fun s => s.timestamp = a.timestamp).getD a
    ((interpolateLinear snapshots time).motion = between a b time ↔
      first.isValid = true ∧
        if b.timestamp - time < time - a.timestamp then
          b.isValid = true ∧
            (time = b.timestamp ∨ Motion.Same a.motion (between first b a.timestamp))
        else held.isValid = true ∧ first.timestamp < a.timestamp ∧
          Motion.Same held.motion (between a b time)) ∧
    ((snapshots.map PositionSnapshot.timestamp).Nodup →
      (Motion.Same held.motion (between a b time) ↔
        time = a.timestamp ∨ Motion.Same a.motion b.motion)) ∧
    ((interpolateLinear snapshots b.timestamp).motion = b.motion.shown ↔
      first.isValid = true ∧ b.isValid = true) ∧
    (interpolateLinear snapshots first.timestamp).motion ≠ first.motion.shown ∧
    (ContinuousOn (fun t => (interpolateLinear snapshots t).motion.coordinates)
        (Set.Icc a.timestamp b.timestamp) ↔
      (first.isValid = true →
        (b.isValid = true ↔ held.isValid = true ∧ first.timestamp < a.timestamp) ∧
        (b.isValid = true →
          Motion.Same held.motion (between first b ((a.timestamp + b.timestamp) / 2))))) := by
  intro first held
  subst hsplit
  have hmem : a ∈ pre ++ a :: b :: post := List.mem_append_right _ (List.mem_cons_self ..)
  obtain ⟨s, hfound⟩ := InOrder.exists_held _ hmem
  have hheld : held = s := congrArg (Option.getD · a) hfound
  have hsame : s.timestamp = a.timestamp := by simpa using List.find?_some hfound
  have hspan : first.timestamp < b.timestamp := lt_of_le_of_lt (hsorted.early _ (headD_early pre a)) hab
  have hbetween (t : ℚ) : between a b t ≠ InterpolatedPosition.motion {} :=
    Motion.lerp_ne_default a.motion b.motion _
  rw [hheld]
  refine ⟨?_, ?_, ?_, ?_, ?_⟩
  · split
    · next hnear =>
      rw [hsorted.motion_later hab ha hb hnear, ite_default_eq_iff (hbetween time), and_assoc]
      exact and_congr_right fun _ => and_congr_right fun _ => Motion.lerp_meet_iff hspan hab
    · next hnear =>
      rw [hsorted.motion_earlier ha hb hnear hfound, ite_default_eq_iff (hbetween time), and_assoc,
        and_assoc, between, Motion.shown_eq_lerp_iff]
  · intro hdistinct
    have hs : s = a :=
      List.inj_on_of_nodup_map hdistinct (List.mem_of_find?_eq_some hfound) hmem hsame
    rw [hs]
    exact Motion.same_lerp_iff hab
  · have hnear : b.timestamp - b.timestamp < b.timestamp - a.timestamp := by linarith
    rw [hsorted.motion_later hab hab.le le_rfl hnear, ite_default_eq_iff (Motion.shown_ne_default _),
      between_end hspan, and_iff_left rfl]
  · rw [hsorted.motion_first]
    exact (Motion.shown_ne_default _).symm
  · exact hsorted.continuousOn_iff hab hfound

end Sorted

theorem interpolateLinear_brackets_iff_line :
    let s (t : ℚ) : PositionSnapshot :=
      { position := ⟨t, 0, 0, 1⟩, velocity := ⟨1, 0, 0, 0⟩, rotation := 5 * t, timestamp := t,
        isValid := true }
    (interpolateLinear [s 0, s 1, s 2] (7 / 4)).motion = between (s 1) (s 2) (7 / 4) := by
  intro s
  have hsorted : InOrder [s 0, s 1, s 2] := by
    unfold InOrder
    decide +kernel
  have hsplit : [s 0, s 1, s 2] = [s 0] ++ s 1 :: s 2 :: [] := rfl
  refine (interpolateLinear_brackets_iff hsorted hsplit (by decide +kernel) (by decide +kernel)
    (by decide +kernel)).1.mpr ⟨rfl, ?_⟩
  rw [if_pos (by decide +kernel)]
  refine ⟨rfl, .inr ?_⟩
  unfold Motion.Same SamePlace
  decide +kernel

theorem not_interpolateLinear_brackets :
    ¬ ∀ (snapshots pre post : List PositionSnapshot) (a b : PositionSnapshot) (time : ℚ),
      InOrder snapshots → (∀ s ∈ snapshots, s.isValid = true) → snapshots = pre ++ a :: b :: post →
      a.timestamp < b.timestamp → a.timestamp ≤ time → time ≤ b.timestamp →
      Motion.Same (interpolateLinear snapshots time).motion (between a b time) := by
  intro hbrackets
  let a : PositionSnapshot := { position := ⟨4, 0, 0, 1⟩, isValid := true }
  let b : PositionSnapshot := { position := ⟨8, 0, 0, 1⟩, timestamp := 4, isValid := true }
  have hsorted : InOrder [a, b] := by
    unfold InOrder
    decide +kernel
  have hplace := (hbrackets [a, b] [] [] a b 1 hsorted (by decide +kernel) rfl (by decide +kernel)
    (by decide +kernel) (by decide +kernel)).1.1
  exact absurd hplace (by decide +kernel)

end PositionInterpolation
end WitcherMP.Movement
