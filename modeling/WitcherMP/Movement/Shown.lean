import WitcherMP.Movement.Histories
import Mathlib.Analysis.Convex.Hull
import Mathlib.Tactic.Module

/-! Where a player can be shown: mixing keeps to the hull of what was added and the origin, and the
cubic interpolation of many snapshots draws the player to the origin. -/

namespace WitcherMP.Movement
open InterpolationUtils

def place (v : Vector4F) : ℚ × ℚ × ℚ := (v.x, v.y, v.z)

def InterpolationType.Mixes (type : InterpolationType) : Prop :=
  type ≠ .hermite ∧ type ≠ .catmullRom

structure InterpolationConfig.Mixes (config : InterpolationConfig) : Prop where
  type : config.type.Mixes
  smoothing : config.smoothing ≤ 1

section Mixtures
variable {K : Set (ℚ × ℚ × ℚ)} {a b c d : Vector4F} {t : ℚ}

theorem place_lerp (a b : Vector4F) (t : ℚ) : place (lerp a b t) = place a + t • (place b - place a) := by
  simp only [place, lerp, Prod.mk_sub_mk, Prod.smul_mk, Prod.mk_add_mk, smul_eq_mul, mul_comm t]

theorem lerp_mem (hK : Convex ℚ K) (ha : place a ∈ K) (hb : place b ∈ K) (h₀ : 0 ≤ t) (h₁ : t ≤ 1) :
    place (lerp a b t) ∈ K := by
  rw [place_lerp]
  exact hK.add_smul_sub_mem ha hb ⟨h₀, h₁⟩

theorem place_bezierInterpolate (a b c d : Vector4F) (t : ℚ) :
    place (bezierInterpolate a b c d t) =
      place (lerp (lerp (lerp a b t) (lerp b c t) t) (lerp (lerp b c t) (lerp c d t) t) t) := by
  simp only [place, bezierInterpolate, onAxes, bezierInterpolateFloat, lerp, Prod.mk.injEq]
  exact ⟨by ring, by ring, by ring⟩

theorem bezierInterpolate_mem (hK : Convex ℚ K) (ha : place a ∈ K) (hb : place b ∈ K)
    (hc : place c ∈ K) (hd : place d ∈ K) (h₀ : 0 ≤ t) (h₁ : t ≤ 1) :
    place (bezierInterpolate a b c d t) ∈ K := by
  have hab := lerp_mem hK ha hb h₀ h₁
  have hbc := lerp_mem hK hb hc h₀ h₁
  have hcd := lerp_mem hK hc hd h₀ h₁
  rw [place_bezierInterpolate]
  exact lerp_mem hK (lerp_mem hK hab hbc h₀ h₁) (lerp_mem hK hbc hcd h₀ h₁) h₀ h₁

end Mixtures

namespace PositionInterpolation

section Interpolated
variable {K : Set (ℚ × ℚ × ℚ)} {snapshots : List PositionSnapshot} {time : ℚ}

theorem mem_findSnapshotAtTime (hvalid : (findSnapshotAtTime snapshots time).isValid = true) :
    findSnapshotAtTime snapshots time ∈ snapshots := by
  rw [findSnapshotAtTime] at hvalid ⊢
  cases hfound : snapshots.find? fun snapshot => snapshot.timestamp ≤ time with
  | none =>
    rw [hfound] at hvalid
    exact absurd hvalid Bool.false_ne_true
  | some snapshot => exact List.mem_of_find?_eq_some hfound

theorem foldl_nearerSnapshot_mem (near : PositionSnapshot × ℚ) (snapshots : List PositionSnapshot) :
    (snapshots.foldl (nearerSnapshot time) near).1 ∈ near.1 :: snapshots := by
  induction snapshots generalizing near with
  | nil => exact List.mem_cons_self
  | cons snapshot snapshots ih =>
    rw [List.foldl_cons]
    have hstep : (nearerSnapshot time near snapshot).1 = near.1 ∨
        (nearerSnapshot time near snapshot).1 = snapshot := by
      rw [nearerSnapshot]
      split
      · exact .inr rfl
      · exact .inl rfl
    rcases List.mem_cons.mp (ih (nearerSnapshot time near snapshot)) with hhead | htail
    · rw [hhead]
      rcases hstep with hstep | hstep
      · exact List.mem_cons.mpr (.inl hstep)
      · exact List.mem_cons_of_mem _ (List.mem_cons.mpr (.inl hstep))
    · exact List.mem_cons_of_mem _ (List.mem_cons_of_mem _ htail)

theorem mem_findNearestSnapshot (hsnapshots : snapshots ≠ []) (time : ℚ) :
    findNearestSnapshot snapshots time ∈ snapshots := by
  cases snapshots with
  | nil => exact absurd rfl hsnapshots
  | cons first rest =>
    have hall : findNearestSnapshot (first :: rest) time ∈ first :: first :: rest :=
      foldl_nearerSnapshot_mem (first, |first.timestamp - time|) (first :: rest)
    rcases List.mem_cons.mp hall with hfirst | hmem
    · exact List.mem_cons.mpr (.inl hfirst)
    · exact hmem

theorem interpolateLinear_mem (hK : Convex ℚ K) (h₀ : (0 : ℚ × ℚ × ℚ) ∈ K)
    (hsnapshots : ∀ a ∈ snapshots, place a.position ∈ K) (time : ℚ) :
    place (interpolateLinear snapshots time).position ∈ K := by
  rw [interpolateLinear]
  dsimp only
  split_ifs with hlength hvalid htime
  · exact h₀
  · exact h₀
  · exact h₀
  · rw [Bool.or_eq_true, Bool.not_eq_true', Bool.not_eq_true', not_or, Bool.not_eq_false,
      Bool.not_eq_false] at hvalid
    have hne : snapshots ≠ [] := List.ne_nil_of_length_pos (by omega)
    exact lerp_mem hK (hsnapshots _ (mem_findSnapshotAtTime hvalid.1))
      (hsnapshots _ (mem_findNearestSnapshot hne time)) (le_max_left ..)
      (max_le zero_le_one (min_le_left ..))

theorem place_interpolateCubic (hlength : 4 ≤ snapshots.length) (time : ℚ) :
    place (interpolateCubic snapshots time).position = 0 := by
  rw [interpolateCubic, if_neg (Nat.not_lt.mpr hlength)]
  decide +kernel

theorem interpolate_mem (hK : Convex ℚ K) (h₀ : (0 : ℚ × ℚ × ℚ) ∈ K)
    (hsnapshots : ∀ a ∈ snapshots, place a.position ∈ K) {type : InterpolationType}
    (htype : type.Mixes) (time : ℚ) : place (interpolate type snapshots time).position ∈ K := by
  have hlinear := interpolateLinear_mem hK h₀ hsnapshots time
  cases type with
  | linear => exact hlinear
  | cubic =>
    rw [interpolate]
    by_cases hlength : snapshots.length < 4
    · rwa [interpolateCubic, if_pos hlength]
    · exact (place_interpolateCubic (Nat.not_lt.mp hlength) time).symm ▸ h₀
  | hermite => exact absurd rfl htype.1
  | catmullRom => exact absurd rfl htype.2
  | bezier =>
    rw [interpolate, interpolateBezier]
    match snapshots, hsnapshots, hlinear with
    | [], _, hlinear => exact hlinear
    | [_], _, hlinear => exact hlinear
    | [_, _], _, hlinear => exact hlinear
    | [_, _, _], _, hlinear => exact hlinear
    | a :: b :: c :: d :: _, hsnapshots, _ =>
      exact bezierInterpolate_mem hK (hsnapshots a (by simp)) (hsnapshots b (by simp))
        (hsnapshots c (by simp)) (hsnapshots d (by simp)) (by norm_num) (by norm_num)

end Interpolated
def aimed (s : PositionInterpolation) (p : UInt32) (targetTime : ℚ) : InterpolatedPosition :=
  let result := interpolate s.config.type (s.getSnapshotsForPlayer p) targetTime
  if s.config.smoothing > 0 then
    smooth s.config.smoothing (s.currentPositions.find? p) result
  else result

theorem interpolatePosition_of_held {s : PositionInterpolation} {p : UInt32}
    (hinit : s.initialized = true) (hheld : s.getSnapshotsForPlayer p ≠ []) (timeOffset now : ℚ) :
    (s.interpolatePosition p timeOffset now).2 =
      { s with currentPositions := s.currentPositions.insert p (s.aimed p (now - timeOffset)) } := by
  rw [interpolatePosition, if_neg (not_not.mpr hinit)]
  dsimp only
  rw [if_neg hheld]
  rfl

theorem interpolatePosition_cases (s : PositionInterpolation) (p : UInt32) (timeOffset now : ℚ) :
    (s.interpolatePosition p timeOffset now).2 = s ∨
      s.initialized = true ∧ s.getSnapshotsForPlayer p ≠ [] ∧
        (s.interpolatePosition p timeOffset now).2 =
          { s with currentPositions := s.currentPositions.insert p (s.aimed p (now - timeOffset)) } := by
  by_cases hinit : s.initialized = true
  · by_cases hheld : s.getSnapshotsForPlayer p = []
    · left
      rw [interpolatePosition, if_neg (not_not.mpr hinit)]
      dsimp only
      rw [if_pos hheld]
    · exact .inr ⟨hinit, hheld, interpolatePosition_of_held hinit hheld timeOffset now⟩
  · left
    rw [interpolatePosition, if_pos hinit]

def Op.Mixes : Op → Prop
  | .setConfig config => config.Mixes
  | .setInterpolationType type => type.Mixes
  | _ => True

/-- What there is of a player lies in `K`. -/
structure Inside (K : Set (ℚ × ℚ × ℚ)) (p : UInt32) (s : PositionInterpolation) : Prop where
  config : s.config.Mixes
  snapshots : ∀ a ∈ s.getSnapshotsForPlayer p, place a.position ∈ K
  current : ∀ q ∈ s.currentPositions.find? p, place q.position ∈ K

section Hull
variable {std : StdSort PositionSnapshot PositionSnapshot.timestamp} {float : ℚ → ℚ} {K : Set (ℚ × ℚ × ℚ)}
  {s t : PositionInterpolation} {p : UInt32}

theorem Inside.congr (h : Inside K p s) (hconfig : t.config.Mixes)
    (hhistories : t.playerSnapshots = s.playerSnapshots)
    (hcurrent : t.currentPositions = s.currentPositions) : Inside K p t := by
  refine ⟨hconfig, fun a ha => h.snapshots a ?_, fun q hq => h.current q (hcurrent ▸ hq)⟩
  rwa [getSnapshotsForPlayer, hhistories] at ha

theorem Inside.aimed (hK : Convex ℚ K) (h₀ : (0 : ℚ × ℚ × ℚ) ∈ K) (h : Inside K p s) (time : ℚ) :
    place (s.aimed p time).position ∈ K := by
  have hresult := interpolate_mem hK h₀ h.snapshots h.config.type time
  rw [PositionInterpolation.aimed]
  split_ifs with hpos
  · cases hfind : s.currentPositions.find? p with
    | none => exact hresult
    | some current =>
      exact lerp_mem hK (h.current current (Option.mem_def.mpr hfind)) hresult hpos.le
        h.config.smoothing
  · exact hresult

theorem Inside.interpolatePosition (hK : Convex ℚ K) (h₀ : (0 : ℚ × ℚ × ℚ) ∈ K)
    (h : Inside K p s) (q : UInt32) (timeOffset now : ℚ) :
    Inside K p (s.interpolatePosition q timeOffset now).2 := by
  rcases s.interpolatePosition_cases q timeOffset now with hsame | ⟨-, -, hnew⟩
  · rwa [hsame]
  · rw [hnew]
    refine ⟨h.config, h.snapshots, fun position hposition => ?_⟩
    dsimp only at hposition
    rw [Option.mem_def, OrdMap.find?_insert] at hposition
    split_ifs at hposition with hq
    · subst hq
      obtain rfl := Option.some.inj hposition
      exact h.aimed hK h₀ _
    · exact h.current position hposition

theorem Inside.interpolateAllPositions (hK : Convex ℚ K) (h₀ : (0 : ℚ × ℚ × ℚ) ∈ K)
    (h : Inside K p s) (timeOffset : ℚ) (now : ℕ → ℚ) :
    Inside K p (s.interpolateAllPositions timeOffset now).2 := by
  rw [PositionInterpolation.interpolateAllPositions]
  refine List.foldlRecOn (motive := fun r : List InterpolatedPosition × PositionInterpolation =>
    Inside K p r.2) _ _ h ?_
  exact fun r hr e _ => hr.interpolatePosition hK h₀ e.1.1 timeOffset (now e.2)

theorem Inside.addPositionSnapshot (h : Inside K p s) {snapshot : PositionSnapshot} {now : ℚ}
    (hsnapshot : snapshot.isValid = true → snapshot.playerId = p → place snapshot.position ∈ K) :
    Inside K p (s.addPositionSnapshot std float snapshot now) := by
  by_cases hskip : ¬ s.initialized ∨ ¬ snapshot.isValid
  · rwa [PositionInterpolation.addPositionSnapshot, if_pos hskip]
  · have hboth := not_or.mp hskip
    have hinit := not_not.mp hboth.1
    have hvalid := not_not.mp hboth.2
    have hframe : (s.addPositionSnapshot std float snapshot now).config = s.config ∧
        (s.addPositionSnapshot std float snapshot now).currentPositions = s.currentPositions := by
      rw [PositionInterpolation.addPositionSnapshot, if_neg hskip]
      exact ⟨rfl, rfl⟩
    refine ⟨hframe.1 ▸ h.config, fun a ha => ?_, hframe.2 ▸ h.current⟩
    rw [getSnapshotsForPlayer_addPositionSnapshot hinit hvalid] at ha
    have ha := List.mem_of_mem_filter ha
    split_ifs at ha with hp
    · rcases List.mem_append.mp ((std.perm _).mem_iff.mp ha) with hold | hnew
      · exact h.snapshots a hold
      · rw [List.mem_singleton.mp hnew]
        exact hsnapshot hvalid hp
    · exact h.snapshots a ha

theorem mixes_adaptToNetworkConditions (h : s.config.Mixes) :
    (s.adaptToNetworkConditions float).config.Mixes := by
  refine ⟨h.type, ?_⟩
  have hsmoothing := h.smoothing
  rw [adaptToNetworkConditions]
  dsimp only
  split_ifs
  · exact (min_le_left ..).trans (by norm_num)
  · exact max_le (by norm_num) (by linarith)
  · exact hsmoothing

theorem Inside.step (hK : Convex ℚ K) (h₀ : (0 : ℚ × ℚ × ℚ) ∈ K) (h : Inside K p s) {op : Op}
    (hop : op.Mixes) (hadded : ∀ a ∈ addition p op, place a.position ∈ K) :
    Inside K p (step std float s op) := by
  cases op with
  | addPositionSnapshot snapshot now =>
    exact h.addPositionSnapshot fun hvalid hp => hadded snapshot (if_pos ⟨hvalid, hp⟩)
  | interpolatePosition q timeOffset now => exact h.interpolatePosition hK h₀ q timeOffset now
  | interpolateAllPositions timeOffset now => exact h.interpolateAllPositions hK h₀ timeOffset now
  | setConfig config => exact h.congr hop rfl rfl
  | setInterpolationType type => exact h.congr ⟨hop, h.config.smoothing⟩ rfl rfl
  | setDuration duration => exact h.congr ⟨h.config.type, h.config.smoothing⟩ rfl rfl
  | setSmoothing smoothing =>
    exact h.congr ⟨h.config.type, max_le zero_le_one (min_le_left ..)⟩ rfl rfl
  | updateNetworkConditions latency packetLoss jitter =>
    rw [PositionInterpolation.step, updateNetworkConditions]
    dsimp only
    split_ifs
    · exact h.congr (mixes_adaptToNetworkConditions h.config) rfl rfl
    · exact h.congr h.config rfl rfl

theorem Inside.run (hK : Convex ℚ K) (h₀ : (0 : ℚ × ℚ × ℚ) ∈ K) (h : Inside K p s) {ops : List Op}
    (hops : ∀ op ∈ ops, op.Mixes) (hadded : ∀ a ∈ added p ops, place a.position ∈ K) :
    Inside K p (Run.run (PositionInterpolation.step std float) s ops) := by
  have hall : Run.Along (PositionInterpolation.step std float)
      (fun _ op => op.Mixes ∧ ∀ a ∈ addition p op, place a.position ∈ K) s ops :=
    Run.along_of_forall s fun op hop =>
      ⟨hops op hop, fun a ha => hadded a (List.mem_filterMap.mpr ⟨op, hop, ha⟩)⟩
  exact (Run.along_of_step (I := Inside K p) (Q := fun _ _ => True)
    (fun s op hi hp => ⟨hi.step hK h₀ hp.1 hp.2, trivial⟩) h hall).1

end Hull

/-- Over every run without the two kinds that overshoot, and with no smoothing above 1, a player is
shown in the hull of the places of its valid snapshots and the origin. -/
theorem shown_run {std : StdSort PositionSnapshot PositionSnapshot.timestamp} {float : ℚ → ℚ}
    {config : InterpolationConfig} (hconfig : config.Mixes) {ops : List Op}
    (hops : ∀ op ∈ ops, op.Mixes) (p : UInt32) :
    place ((Run.run (step std float) { config := config } ops).getCurrentPosition p) ∈
      convexHull ℚ (insert 0 {v | ∃ a ∈ added p ops, place a.position = v}) := by
  have h₀ := subset_convexHull ℚ _ (Set.mem_insert (0 : ℚ × ℚ × ℚ)
    {v | ∃ a ∈ added p ops, place a.position = v})
  have hstart : Inside (convexHull ℚ (insert 0 {v | ∃ a ∈ added p ops, place a.position = v})) p
      { config := config } := ⟨hconfig, fun a ha => absurd ha List.not_mem_nil, fun q hq => by cases hq⟩
  have hall : Inside _ p (Run.run (step std float) { config := config } ops) :=
    hstart.run (convex_convexHull ..) h₀ hops fun a ha =>
      subset_convexHull ℚ _ (Set.mem_insert_of_mem _ ⟨a, ha, rfl⟩)
  rw [getCurrentPosition]
  cases hfind : (Run.run (step std float) { config := config } ops).currentPositions.find? p with
  | none => exact h₀
  | some position => exact hall.current position hfind

theorem shown_run_between :
    let snapshot (time : ℚ) (position : Vector4F) : PositionSnapshot :=
      { playerId := 7, timestamp := time, position := position, isValid := true }
    let ops : List Op := [.addPositionSnapshot (snapshot 2 ⟨2, 4, 0, 0⟩) 2,
      .addPositionSnapshot (snapshot (41 / 20) ⟨4, 8, 2, 0⟩) 2, .interpolatePosition 7 0 (203 / 100)]
    (16 / 5, 32 / 5, 6 / 5) ∈
      convexHull ℚ (insert 0 {v | ∃ a ∈ added 7 ops, place a.position = v}) := by
  intro snapshot ops
  have hmem : place ((Run.run (step (.insertion PositionSnapshot.timestamp) id) { config := {} }
      ops).getCurrentPosition 7) ∈ _ :=
    shown_run ⟨⟨by decide, by decide⟩, by decide +kernel⟩ (by simp [ops, Op.Mixes]) 7
  have hplace : place ((Run.run (step (.insertion PositionSnapshot.timestamp) id) { config := {} }
      ops).getCurrentPosition 7) = (16 / 5, 32 / 5, 6 / 5) := by decide +kernel
  exact hplace ▸ hmem

/-- Enough snapshots for the cubic interpolation. -/
structure Crowded (p : UInt32) (s : PositionInterpolation) : Prop where
  initialized : s.initialized = true
  type : s.config.type = .cubic
  many : 4 ≤ (s.getSnapshotsForPlayer p).length

instance (p : UInt32) (s : PositionInterpolation) : Decidable (Crowded p s) :=
  decidable_of_iff (s.initialized = true ∧ s.config.type = .cubic ∧
    4 ≤ (s.getSnapshotsForPlayer p).length) ⟨fun h => ⟨h.1, h.2.1, h.2.2⟩, fun h => ⟨h.1, h.2, h.3⟩⟩

def share (s : PositionInterpolation) : ℚ :=
  if s.config.smoothing > 0 then 1 - s.config.smoothing else 0

def fade (p : UInt32) (s : PositionInterpolation) : Op → Option ℚ
  | .interpolatePosition q _ _ => if q = p then some s.share else none
  | .interpolateAllPositions _ _ => some s.share
  | _ => none

section Fading
variable {std : StdSort PositionSnapshot PositionSnapshot.timestamp} {float : ℚ → ℚ}
  {s t : PositionInterpolation}
  {p q : UInt32}

theorem getCurrentPosition_of_find?_eq
    (h : t.currentPositions.find? p = s.currentPositions.find? p) :
    t.getCurrentPosition p = s.getCurrentPosition p := by
  rw [getCurrentPosition, getCurrentPosition, h]

theorem Crowded.place_aimed (h : Crowded p s) (time : ℚ) :
    place (s.aimed p time).position = s.share • place (s.getCurrentPosition p) := by
  have horigin : place (interpolate s.config.type (s.getSnapshotsForPlayer p) time).position = 0 := by
    rw [h.type]
    exact place_interpolateCubic h.many time
  rw [aimed, share, getCurrentPosition]
  split_ifs
  · cases hfind : s.currentPositions.find? p with
    | none =>
      have hnone : place ⟨0, 0, 0, 1⟩ = 0 := rfl
      rw [smooth, horigin, hnone, smul_zero]
    | some current =>
      rw [smooth, place_lerp, horigin]
      module
  · rw [horigin, zero_smul]

theorem Crowded.getCurrentPosition_interpolatePosition (h : Crowded p s) (timeOffset now : ℚ) :
    place ((s.interpolatePosition p timeOffset now).2.getCurrentPosition p) =
      s.share • place (s.getCurrentPosition p) := by
  have hheld : s.getSnapshotsForPlayer p ≠ [] :=
    List.ne_nil_of_length_pos (Nat.lt_of_lt_of_le (by decide) h.many)
  rw [interpolatePosition_of_held h.initialized hheld, ← h.place_aimed, getCurrentPosition,
    OrdMap.find?_insert_self]

theorem getCurrentPosition_interpolatePosition_of_ne (h : q ≠ p) (timeOffset now : ℚ) :
    (s.interpolatePosition q timeOffset now).2.getCurrentPosition p = s.getCurrentPosition p := by
  rcases s.interpolatePosition_cases q timeOffset now with hsame | ⟨-, -, hnew⟩
  · rw [hsame]
  · rw [hnew]
    exact getCurrentPosition_of_find?_eq (OrdMap.find?_insert_of_ne _ _ h)

theorem Crowded.interpolatePosition (h : Crowded p s) (q : UInt32) (timeOffset now : ℚ) :
    Crowded p (s.interpolatePosition q timeOffset now).2 ∧
      (s.interpolatePosition q timeOffset now).2.share = s.share := by
  obtain ⟨hinit, hhistories, hconfig⟩ := s.frame_interpolatePosition q timeOffset now
  refine ⟨⟨hinit.trans h.initialized, hconfig ▸ h.type, ?_⟩, by rw [share, share, hconfig]⟩
  rw [getSnapshotsForPlayer, hhistories]
  exact h.many

theorem foldl_interpolatePosition_of_notMem {timeOffset : ℚ} {now : ℕ → ℚ} {α : Type*}
    {es : List ((UInt32 × α) × ℕ)} (h : ∀ e ∈ es, e.1.1 ≠ p)
    (r : List InterpolatedPosition × PositionInterpolation) :
    (es.foldl (fun r e =>
      let position := r.2.interpolatePosition e.1.1 timeOffset (now e.2)
      (if position.1.confidence > 0 then r.1 ++ [position.1] else r.1, position.2)) r).2.getCurrentPosition
        p = r.2.getCurrentPosition p := by
  induction es generalizing r with
  | nil => rfl
  | cons e es ih =>
    obtain ⟨he, hes⟩ := List.forall_mem_cons.mp h
    rw [List.foldl_cons, ih hes]
    exact getCurrentPosition_interpolatePosition_of_ne he timeOffset (now e.2)

theorem Crowded.foldl_interpolatePosition {timeOffset : ℚ} {now : ℕ → ℚ} {α : Type*}
    {es : List ((UInt32 × α) × ℕ)} (hes : (es.map fun e => e.1.1).Nodup)
    (hp : p ∈ es.map fun e => e.1.1) {r : List InterpolatedPosition × PositionInterpolation}
    (h : Crowded p r.2) :
    place ((es.foldl (fun r e =>
      let position := r.2.interpolatePosition e.1.1 timeOffset (now e.2)
      (if position.1.confidence > 0 then r.1 ++ [position.1] else r.1, position.2)) r).2.getCurrentPosition
        p) = r.2.share • place (r.2.getCurrentPosition p) := by
  induction es generalizing r with
  | nil => exact absurd hp List.not_mem_nil
  | cons e es ih =>
    obtain ⟨he, hes⟩ := List.nodup_cons.mp hes
    rw [List.foldl_cons]
    by_cases hkey : e.1.1 = p
    · have hrest : ∀ e' ∈ es, e'.1.1 ≠ p := fun e' he' hsame =>
        he (List.mem_map.mpr ⟨e', he', hsame.trans hkey.symm⟩)
      rw [foldl_interpolatePosition_of_notMem hrest]
      dsimp only
      rw [hkey]
      exact h.getCurrentPosition_interpolatePosition timeOffset (now e.2)
    · obtain ⟨hcrowded, hshare⟩ := h.interpolatePosition e.1.1 timeOffset (now e.2)
      have hmem := (List.mem_cons.mp hp).resolve_left fun hsame => hkey hsame.symm
      rw [ih hes hmem hcrowded, hshare]
      dsimp only
      rw [getCurrentPosition_interpolatePosition_of_ne hkey]

theorem Crowded.getCurrentPosition_interpolateAllPositions (h : Crowded p s) (timeOffset : ℚ)
    (now : ℕ → ℚ) :
    place ((s.interpolateAllPositions timeOffset now).2.getCurrentPosition p) =
      s.share • place (s.getCurrentPosition p) := by
  have hkeys : (s.playerSnapshots.entries.zipIdx.map fun e => e.1.1)
      = s.playerSnapshots.entries.map Prod.fst := by
    calc (s.playerSnapshots.entries.zipIdx.map fun e => e.1.1)
        = (s.playerSnapshots.entries.zipIdx.map Prod.fst).map Prod.fst := List.map_map.symm
      _ = _ := by rw [List.zipIdx_map_fst]
  have hfound : s.playerSnapshots.find? p ≠ none := by
    intro hnone
    have hmany := h.many
    rw [getSnapshotsForPlayer, OrdMap.getD, hnone] at hmany
    exact absurd hmany (by decide)
  have hmem : p ∈ s.playerSnapshots.entries.map Prod.fst :=
    List.mem_toFinset.mp (OrdMap.mem_keys.mpr hfound)
  exact Crowded.foldl_interpolatePosition (hkeys ▸ s.playerSnapshots.nodup_fst) (hkeys ▸ hmem)
    (r := ([], s)) h

theorem Crowded.step (h : Crowded p s) (op : Op) :
    place ((step std float s op).getCurrentPosition p) =
      (fade p s op).toList.prod • place (s.getCurrentPosition p) := by
  have hquiet : ∀ {t : PositionInterpolation}, fade p s op = none →
      t.currentPositions = s.currentPositions → place (t.getCurrentPosition p) =
        (fade p s op).toList.prod • place (s.getCurrentPosition p) := by
    intro t hnone hsame
    rw [hnone, Option.toList_none, List.prod_nil, one_smul,
      getCurrentPosition_of_find?_eq (congrArg (OrdMap.find? · p) hsame)]
  cases op with
  | addPositionSnapshot snapshot now =>
    refine hquiet rfl ?_
    rw [PositionInterpolation.step, addPositionSnapshot]
    dsimp only
    split_ifs <;> rfl
  | interpolatePosition q timeOffset now =>
    by_cases hq : q = p
    · subst hq
      rw [fade, if_pos rfl, Option.toList_some, List.prod_singleton]
      exact h.getCurrentPosition_interpolatePosition timeOffset now
    · rw [fade, if_neg hq, Option.toList_none, List.prod_nil, one_smul]
      exact congrArg place (getCurrentPosition_interpolatePosition_of_ne hq timeOffset now)
  | interpolateAllPositions timeOffset now =>
    rw [fade, Option.toList_some, List.prod_singleton]
    exact h.getCurrentPosition_interpolateAllPositions timeOffset now
  | setConfig config => exact hquiet rfl rfl
  | setInterpolationType type => exact hquiet rfl rfl
  | setDuration duration => exact hquiet rfl rfl
  | setSmoothing smoothing => exact hquiet rfl rfl
  | updateNetworkConditions latency packetLoss jitter =>
    refine hquiet rfl ?_
    rw [PositionInterpolation.step, updateNetworkConditions]
    dsimp only
    split_ifs <;> rfl

end Fading

/-- While a player has four snapshots and the interpolation is cubic, each call that moves it leaves a
share of where it was shown, whatever the snapshots say. -/
theorem faded_run {std : StdSort PositionSnapshot PositionSnapshot.timestamp} {float : ℚ → ℚ}
    {s : PositionInterpolation} {p : UInt32} {ops : List Op}
    (h : Run.Along (step std float) (fun s _ => Crowded p s) s ops) :
    place ((Run.run (step std float) s ops).getCurrentPosition p) =
      (Run.gather (step std float) (fade p) s ops).prod • place (s.getCurrentPosition p) := by
  induction ops generalizing s with
  | nil => exact (one_smul ..).symm
  | cons op ops ih =>
    obtain ⟨hcrowded, hops⟩ := h
    rw [Run.run, ih hops, hcrowded.step, Run.gather, List.prod_append, smul_smul, mul_comm]

theorem faded_run_crowd :
    let snapshot (time : ℚ) : PositionSnapshot :=
      { playerId := 7, timestamp := time, position := ⟨10, 20, 0, 0⟩, isValid := true }
    let s : PositionInterpolation := {
      config := {}
      playerSnapshots := .ofList [(7, [snapshot 1, snapshot 2, snapshot 3, snapshot 4])]
      currentPositions := .ofList [(7, { position := ⟨10, 20, 0, 1⟩ })] }
    place ((Run.run (step (.insertion PositionSnapshot.timestamp) id) s
      [.interpolatePosition 7 0 4, .interpolateAllPositions 0 fun _ => 4]).getCurrentPosition 7) =
      (81 / 10, 81 / 5, 0) := by
  intro snapshot s
  rw [faded_run (p := 7) (by decide +kernel)]
  decide +kernel

end PositionInterpolation
end WitcherMP.Movement
