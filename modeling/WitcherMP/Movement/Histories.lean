import WitcherMP.Movement.Snapshots
import WitcherMP.Lib.OrdMap
import WitcherMP.Lib.Run
import WitcherMP.Lib.Sorting

/-! Position interpolation over time: snapshots come in, in any order, are sorted and dropped when
they are old, and positions are made of what is there. What a number of seconds is as a `float` is a
parameter: it decides which snapshots are old, and is exact elsewhere. The jitter and lag corrections
and the removal of a single player are not called; extrapolation only counts; statistics, callbacks and
log lines are left out. -/

namespace WitcherMP.Movement

inductive InterpolationType
  | linear | cubic | hermite | catmullRom | bezier
deriving DecidableEq

structure InterpolationConfig where
  type : InterpolationType := .cubic
  duration : ℚ := 1 / 10
  smoothing : ℚ := 1 / 10
  enableAdaptiveInterpolation : Bool := true
deriving DecidableEq

namespace InterpolationUtils

def onAxes (f : ℚ → ℚ → ℚ → ℚ → ℚ → ℚ) (p₀ p₁ p₂ p₃ : Vector4F) (t : ℚ) : Vector4F where
  x := f p₀.x p₁.x p₂.x p₃.x t
  y := f p₀.y p₁.y p₂.y p₃.y t
  z := f p₀.z p₁.z p₂.z p₃.z t
  w := 1

def cubicInterpolateFloat (p₀ p₁ p₂ p₃ t : ℚ) : ℚ :=
  1 / 2 * (2 * p₁ + (-p₀ + p₂) * t + (2 * p₀ - 5 * p₁ + 4 * p₂ - p₃) * t ^ 2
    + (-p₀ + 3 * p₁ - 3 * p₂ + p₃) * t ^ 3)

def cubicInterpolate : Vector4F → Vector4F → Vector4F → Vector4F → ℚ → Vector4F :=
  onAxes cubicInterpolateFloat

def hermiteInterpolateFloat (p₀ p₁ t₀ t₁ t : ℚ) : ℚ :=
  (2 * t ^ 3 - 3 * t ^ 2 + 1) * p₀ + (t ^ 3 - 2 * t ^ 2 + t) * t₀ + (-2 * t ^ 3 + 3 * t ^ 2) * p₁
    + (t ^ 3 - t ^ 2) * t₁

def hermiteInterpolate : Vector4F → Vector4F → Vector4F → Vector4F → ℚ → Vector4F :=
  onAxes hermiteInterpolateFloat

def catmullRomInterpolateFloat (p₀ p₁ p₂ p₃ t : ℚ) : ℚ := cubicInterpolateFloat p₀ p₁ p₂ p₃ t

def catmullRomInterpolate : Vector4F → Vector4F → Vector4F → Vector4F → ℚ → Vector4F :=
  onAxes catmullRomInterpolateFloat

def bezierInterpolateFloat (p₀ p₁ p₂ p₃ t : ℚ) : ℚ :=
  (1 - t) ^ 3 * p₀ + 3 * (1 - t) ^ 2 * t * p₁ + 3 * (1 - t) * t ^ 2 * p₂ + t ^ 3 * p₃

def bezierInterpolate : Vector4F → Vector4F → Vector4F → Vector4F → ℚ → Vector4F :=
  onAxes bezierInterpolateFloat

end InterpolationUtils

structure PositionInterpolation where
  initialized : Bool := true
  config : InterpolationConfig
  playerSnapshots : OrdMap UInt32 (List PositionSnapshot) := .empty
  currentPositions : OrdMap UInt32 InterpolatedPosition := .empty
  currentLatency : ℚ := 0
  currentPacketLoss : ℚ := 0
  currentJitter : ℚ := 0

namespace PositionInterpolation
open InterpolationUtils

/-- The four snapshots are made, not found. -/
def interpolateCubic (snapshots : List PositionSnapshot) (time : ℚ) : InterpolatedPosition :=
  if snapshots.length < 4 then interpolateLinear snapshots time
  else
    let p : PositionSnapshot := {}
    { position := cubicInterpolate p.position p.position p.position p.position (1 / 2)
      velocity := cubicInterpolate p.velocity p.velocity p.velocity p.velocity (1 / 2)
      rotation := cubicInterpolateFloat p.rotation p.rotation p.rotation p.rotation (1 / 2)
      confidence := 4 / 5 }

def interpolateHermite : List PositionSnapshot → InterpolatedPosition
  | p₀ :: p₁ :: _ =>
    { position := hermiteInterpolate p₀.position p₁.position p₀.velocity p₁.velocity (1 / 2)
      velocity := lerp p₀.velocity p₁.velocity (1 / 2)
      rotation := hermiteInterpolateFloat p₀.rotation p₁.rotation 0 0 (1 / 2)
      confidence := 9 / 10 }
  | _ => {}

/-- The first four snapshots, whatever the time. -/
def interpolateFour (f : ℚ → ℚ → ℚ → ℚ → ℚ → ℚ) (confidence : ℚ) :
    List PositionSnapshot → ℚ → InterpolatedPosition
  | p₀ :: p₁ :: p₂ :: p₃ :: _, _ =>
    { position := onAxes f p₀.position p₁.position p₂.position p₃.position (1 / 2)
      velocity := lerp p₁.velocity p₂.velocity (1 / 2)
      rotation := f p₀.rotation p₁.rotation p₂.rotation p₃.rotation (1 / 2)
      confidence := confidence }
  | snapshots, time => interpolateLinear snapshots time

def interpolateCatmullRom : List PositionSnapshot → ℚ → InterpolatedPosition :=
  interpolateFour catmullRomInterpolateFloat (17 / 20)

def interpolateBezier : List PositionSnapshot → ℚ → InterpolatedPosition :=
  interpolateFour bezierInterpolateFloat (4 / 5)

def interpolate (type : InterpolationType) (snapshots : List PositionSnapshot) (targetTime : ℚ) :
    InterpolatedPosition :=
  match type with
  | .linear => interpolateLinear snapshots targetTime
  | .cubic => interpolateCubic snapshots targetTime
  | .hermite => interpolateHermite snapshots
  | .catmullRom => interpolateCatmullRom snapshots targetTime
  | .bezier => interpolateBezier snapshots targetTime

def smooth (smoothing : ℚ) (current : Option InterpolatedPosition) (result : InterpolatedPosition) :
    InterpolatedPosition :=
  match current with
  | some current =>
    { result with
      position := lerp current.position result.position smoothing
      velocity := lerp current.velocity result.velocity smoothing
      rotation := lerpFloat current.rotation result.rotation smoothing }
  | none => result

def getSnapshotsForPlayer (s : PositionInterpolation) (playerId : UInt32) : List PositionSnapshot :=
  s.playerSnapshots.getD playerId []

/-- `now` is the reading of the clock in seconds. -/
def interpolatePosition (s : PositionInterpolation) (playerId : UInt32) (timeOffset now : ℚ) :
    InterpolatedPosition × PositionInterpolation :=
  if ¬ s.initialized then ({}, s)
  else
    let snapshots := s.getSnapshotsForPlayer playerId
    if snapshots = [] then ({}, s)
    else
      let result := interpolate s.config.type snapshots (now - timeOffset)
      let result := if s.config.smoothing > 0 then
        smooth s.config.smoothing (s.currentPositions.find? playerId) result else result
      (result, { s with currentPositions := s.currentPositions.insert playerId result })

def interpolateAllPositions (s : PositionInterpolation) (timeOffset : ℚ) (now : ℕ → ℚ) :
    List InterpolatedPosition × PositionInterpolation :=
  s.playerSnapshots.entries.zipIdx.foldl (fun r e =>
    let position := r.2.interpolatePosition e.1.1 timeOffset (now e.2)
    (if position.1.confidence > 0 then r.1 ++ [position.1] else r.1, position.2)) ([], s)

def getCurrentPosition (s : PositionInterpolation) (playerId : UInt32) : Vector4F :=
  match s.currentPositions.find? playerId with
  | some position => position.position
  | none => ⟨0, 0, 0, 1⟩

section Calls
variable (std : StdSort PositionSnapshot PositionSnapshot.timestamp) (float : ℚ → ℚ)

def cutoffTime (s : PositionInterpolation) (now : ℚ) : ℚ := float (float now - s.config.duration * 2)

def cleanupOldSnapshots (s : PositionInterpolation) (now : ℚ) : PositionInterpolation :=
  { s with
    playerSnapshots := s.playerSnapshots.mapValues
      (List.filter fun snapshot => ¬ float snapshot.timestamp < s.cutoffTime float now) }

def addPositionSnapshot (s : PositionInterpolation) (snapshot : PositionSnapshot) (now : ℚ) :
    PositionInterpolation :=
  if ¬ s.initialized ∨ ¬ snapshot.isValid then s
  else
    let history := s.playerSnapshots.getD snapshot.playerId [] ++ [snapshot]
    let s := { s with
      playerSnapshots := s.playerSnapshots.insert snapshot.playerId (std.sort history) }
    s.cleanupOldSnapshots float now

def adaptToNetworkConditions (s : PositionInterpolation) : PositionInterpolation :=
  { s with config := { s.config with
    duration :=
      if s.currentLatency > 100 then min (float (1 / 5)) (float (s.config.duration * float (11 / 10)))
      else if s.currentLatency < 20 then
        max (float (1 / 20)) (float (s.config.duration * float (9 / 10)))
      else s.config.duration
    smoothing :=
      if s.currentJitter > 1 / 100 then min (1 / 2) (s.config.smoothing * (6 / 5))
      else if s.currentJitter < 1 / 1000 then max (1 / 100) (s.config.smoothing * (4 / 5))
      else s.config.smoothing } }

def updateNetworkConditions (s : PositionInterpolation) (latency packetLoss jitter : ℚ) :
    PositionInterpolation :=
  let s := { s with
    currentLatency := latency
    currentPacketLoss := packetLoss
    currentJitter := jitter }
  if s.config.enableAdaptiveInterpolation then s.adaptToNetworkConditions float else s

inductive Op
  | addPositionSnapshot (snapshot : PositionSnapshot) (now : ℚ)
  | interpolatePosition (playerId : UInt32) (timeOffset now : ℚ)
  | interpolateAllPositions (timeOffset : ℚ) (now : ℕ → ℚ)
  | setConfig (config : InterpolationConfig)
  | setInterpolationType (type : InterpolationType)
  | setDuration (duration : ℚ)
  | setSmoothing (smoothing : ℚ)
  | updateNetworkConditions (latency packetLoss jitter : ℚ)

def step (s : PositionInterpolation) : Op → PositionInterpolation
  | .addPositionSnapshot snapshot now => s.addPositionSnapshot std float snapshot now
  | .interpolatePosition p timeOffset now => (s.interpolatePosition p timeOffset now).2
  | .interpolateAllPositions timeOffset now => (s.interpolateAllPositions timeOffset now).2
  | .setConfig config => { s with config := config }
  | .setInterpolationType type => { s with config := { s.config with type := type } }
  | .setDuration duration => { s with config := { s.config with duration := duration } }
  | .setSmoothing smoothing =>
    { s with config := { s.config with smoothing := clamp smoothing 0 1 } }
  | .updateNetworkConditions latency packetLoss jitter =>
    s.updateNetworkConditions float latency packetLoss jitter

end Calls

def addition (p : UInt32) : Op → Option PositionSnapshot
  | .addPositionSnapshot snapshot _ =>
    if snapshot.isValid ∧ snapshot.playerId = p then some snapshot else none
  | _ => none

def added (p : UInt32) (ops : List Op) : List PositionSnapshot := ops.filterMap (addition p)

def cutoff (float : ℚ → ℚ) (s : PositionInterpolation) : Op → Option ℚ
  | .addPositionSnapshot snapshot now =>
    if snapshot.isValid then some (s.cutoffTime float now) else none
  | _ => none

def Current (float : ℚ → ℚ) (cutoffs : List ℚ) (snapshot : PositionSnapshot) : Prop :=
  ∀ c ∈ cutoffs, c ≤ float snapshot.timestamp

instance (float : ℚ → ℚ) (cutoffs : List ℚ) : DecidablePred (Current float cutoffs) :=
  fun _ => List.decidableBAll ..

structure Recorded (float : ℚ → ℚ) (s : PositionInterpolation) (p : UInt32)
    (snapshots : List PositionSnapshot)
    (cutoffs : List ℚ) : Prop where
  initialized : s.initialized = true
  inOrder : InOrder (s.getSnapshotsForPlayer p)
  perm : (s.getSnapshotsForPlayer p).Perm (snapshots.filter (Current float cutoffs))

section Steps
variable {std : StdSort PositionSnapshot PositionSnapshot.timestamp} {float : ℚ → ℚ}
  {s t : PositionInterpolation}
  {p : UInt32} {snapshots : List PositionSnapshot} {cutoffs : List ℚ} {ops : List Op}

theorem Recorded.congr (h : Recorded float s p snapshots cutoffs) (hinit : t.initialized = s.initialized)
    (hhistories : t.playerSnapshots = s.playerSnapshots) : Recorded float t p snapshots cutoffs := by
  have hsame : t.getSnapshotsForPlayer p = s.getSnapshotsForPlayer p := by
    rw [getSnapshotsForPlayer, getSnapshotsForPlayer, hhistories]
  exact ⟨hinit.trans h.initialized, hsame ▸ h.inOrder, hsame ▸ h.perm⟩

theorem frame_interpolatePosition (s : PositionInterpolation) (p : UInt32) (timeOffset now : ℚ) :
    (s.interpolatePosition p timeOffset now).2.initialized = s.initialized ∧
      (s.interpolatePosition p timeOffset now).2.playerSnapshots = s.playerSnapshots ∧
      (s.interpolatePosition p timeOffset now).2.config = s.config := by
  rw [interpolatePosition]
  dsimp only
  split_ifs <;> exact ⟨rfl, rfl, rfl⟩

theorem frame_interpolateAllPositions (s : PositionInterpolation) (timeOffset : ℚ) (now : ℕ → ℚ) :
    (s.interpolateAllPositions timeOffset now).2.initialized = s.initialized ∧
      (s.interpolateAllPositions timeOffset now).2.playerSnapshots = s.playerSnapshots := by
  rw [interpolateAllPositions]
  refine List.foldlRecOn (motive := fun r : List InterpolatedPosition × PositionInterpolation =>
    r.2.initialized = s.initialized ∧ r.2.playerSnapshots = s.playerSnapshots) _ _ ⟨rfl, rfl⟩ ?_
  rintro r ⟨hinit, hhistories⟩ e -
  obtain ⟨hinit', hhistories', -⟩ := r.2.frame_interpolatePosition e.1.1 timeOffset (now e.2)
  exact ⟨hinit'.trans hinit, hhistories'.trans hhistories⟩

theorem frame_updateNetworkConditions (s : PositionInterpolation) (latency packetLoss jitter : ℚ) :
    (s.updateNetworkConditions float latency packetLoss jitter).initialized = s.initialized ∧
      (s.updateNetworkConditions float latency packetLoss jitter).playerSnapshots = s.playerSnapshots := by
  rw [updateNetworkConditions]
  dsimp only
  split_ifs <;> exact ⟨rfl, rfl⟩

theorem getSnapshotsForPlayer_cleanupOldSnapshots (s : PositionInterpolation) (now : ℚ) (p : UInt32) :
    (s.cleanupOldSnapshots float now).getSnapshotsForPlayer p =
      (s.getSnapshotsForPlayer p).filter fun a => ¬ float a.timestamp < s.cutoffTime float now := by
  rw [getSnapshotsForPlayer, getSnapshotsForPlayer, cleanupOldSnapshots, OrdMap.getD, OrdMap.getD,
    OrdMap.find?_mapValues]
  cases s.playerSnapshots.find? p <;> rfl

theorem getSnapshotsForPlayer_addPositionSnapshot (hinit : s.initialized = true)
    {snapshot : PositionSnapshot} (hvalid : snapshot.isValid = true) (now : ℚ) (p : UInt32) :
    (s.addPositionSnapshot std float snapshot now).getSnapshotsForPlayer p =
      (if snapshot.playerId = p then std.sort (s.getSnapshotsForPlayer p ++ [snapshot])
        else s.getSnapshotsForPlayer p).filter fun a => ¬ float a.timestamp < s.cutoffTime float now := by
  rw [addPositionSnapshot, if_neg (not_or.mpr ⟨not_not.mpr hinit, not_not.mpr hvalid⟩)]
  dsimp only
  rw [getSnapshotsForPlayer_cleanupOldSnapshots, getSnapshotsForPlayer, OrdMap.getD_insert]
  by_cases hp : snapshot.playerId = p
  · subst hp
    rw [if_pos rfl, if_pos rfl]
    rfl
  · rw [if_neg hp, if_neg hp]
    rfl

theorem addPositionSnapshot_of_invalid {snapshot : PositionSnapshot} (h : snapshot.isValid = false)
    (now : ℚ) : s.addPositionSnapshot std float snapshot now = s :=
  if_pos (.inr fun hvalid => Bool.false_ne_true (h.symm.trans hvalid))

theorem current_append {c : ℚ} {a : PositionSnapshot} :
    Current float (cutoffs ++ [c]) a ↔ Current float cutoffs a ∧ c ≤ float a.timestamp :=
  List.forall_mem_append.trans (and_congr_right fun _ => List.forall_mem_singleton)

theorem filter_current (c : ℚ) (snapshots : List PositionSnapshot) :
    ((snapshots.filter (Current float cutoffs)).filter fun a => ¬ float a.timestamp < c)
      = snapshots.filter (Current float (cutoffs ++ [c])) := by
  rw [List.filter_filter]
  refine List.filter_congr fun a _ => ?_
  rw [← Bool.decide_and]
  exact decide_eq_decide.mpr (by rw [current_append, not_lt, and_comm])

theorem filter_current_new {c : ℚ} (hlatest : ∀ c' ∈ cutoffs, c' ≤ c)
    (snapshots : List PositionSnapshot) : (snapshots.filter fun a => ¬ float a.timestamp < c)
      = snapshots.filter (Current float (cutoffs ++ [c])) := by
  refine List.filter_congr fun a _ => decide_eq_decide.mpr ?_
  rw [not_lt, current_append]
  exact ⟨fun h => ⟨fun c' hc' => (hlatest c' hc').trans h, h⟩, And.right⟩

theorem Recorded.addPositionSnapshot (h : Recorded float s p snapshots cutoffs)
    {snapshot : PositionSnapshot}
    (hvalid : snapshot.isValid = true) {now : ℚ} (hlatest : ∀ c ∈ cutoffs, c ≤ s.cutoffTime float now) :
    Recorded float (s.addPositionSnapshot std float snapshot now) p
      (snapshots ++ if snapshot.playerId = p then [snapshot] else [])
      (cutoffs ++ [s.cutoffTime float now]) := by
  have hhistory : (s.addPositionSnapshot std float snapshot now).getSnapshotsForPlayer p = _ :=
    getSnapshotsForPlayer_addPositionSnapshot h.initialized hvalid now p
  have hinit : (s.addPositionSnapshot std float snapshot now).initialized = true := by
    rw [PositionInterpolation.addPositionSnapshot,
      if_neg (not_or.mpr ⟨not_not.mpr h.initialized, not_not.mpr hvalid⟩)]
    exact h.initialized
  have hold := h.perm.filter fun a => ¬ float a.timestamp < s.cutoffTime float now
  rw [filter_current] at hold
  by_cases hp : snapshot.playerId = p
  · rw [if_pos hp] at hhistory ⊢
    refine ⟨hinit, hhistory ▸ (std.sorted _).filter _, hhistory ▸ ?_⟩
    refine ((std.perm _).filter _).trans ?_
    rw [List.filter_append, List.filter_append, filter_current_new hlatest [snapshot]]
    exact hold.append_right _
  · rw [if_neg hp] at hhistory ⊢
    rw [List.append_nil]
    exact ⟨hinit, hhistory ▸ h.inOrder.filter _, hhistory ▸ hold⟩

theorem Recorded.step (h : Recorded float s p snapshots cutoffs) (op : Op)
    (hascend : ∀ c ∈ cutoffs, ∀ c' ∈ s.cutoff float op, c ≤ c') :
    Recorded float (step std float s op) p (snapshots ++ added p [op])
      (cutoffs ++ (s.cutoff float op).toList) := by
  have hquiet : ∀ {t : PositionInterpolation}, added p [op] = [] → s.cutoff float op = none →
      t.initialized = s.initialized → t.playerSnapshots = s.playerSnapshots →
      Recorded float t p (snapshots ++ added p [op]) (cutoffs ++ (s.cutoff float op).toList) := by
    intro t hadded hcutoff hinit hhistories
    rw [hadded, hcutoff, List.append_nil]
    exact (List.append_nil cutoffs).symm ▸ h.congr hinit hhistories
  cases op with
  | addPositionSnapshot snapshot now =>
    cases hvalid : snapshot.isValid with
    | false =>
      have hnone : added p [.addPositionSnapshot snapshot now] = [] :=
        List.filterMap_cons_none (if_neg fun h => Bool.false_ne_true (hvalid.symm.trans h.1))
      have hquietly : s.cutoff float (.addPositionSnapshot snapshot now) = none :=
        if_neg fun h => Bool.false_ne_true (hvalid.symm.trans h)
      rw [PositionInterpolation.step, addPositionSnapshot_of_invalid hvalid]
      exact hquiet hnone hquietly rfl rfl
    | true =>
      have hcutoff : s.cutoff float (.addPositionSnapshot snapshot now) = some (s.cutoffTime float now) :=
        if_pos hvalid
      have hadded : added p [.addPositionSnapshot snapshot now]
          = if snapshot.playerId = p then [snapshot] else [] := by
        by_cases hp : snapshot.playerId = p
        · rw [if_pos hp]
          exact List.filterMap_cons_some (if_pos ⟨hvalid, hp⟩)
        · rw [if_neg hp]
          exact List.filterMap_cons_none (if_neg fun h => hp h.2)
      rw [hadded, hcutoff]
      exact h.addPositionSnapshot hvalid fun c hc => hascend c hc _ hcutoff
  | interpolatePosition q timeOffset now =>
    obtain ⟨hinit, hhistories, -⟩ := s.frame_interpolatePosition q timeOffset now
    exact hquiet rfl rfl hinit hhistories
  | interpolateAllPositions timeOffset now =>
    obtain ⟨hinit, hhistories⟩ := s.frame_interpolateAllPositions timeOffset now
    exact hquiet rfl rfl hinit hhistories
  | setConfig config => exact hquiet rfl rfl rfl rfl
  | setInterpolationType type => exact hquiet rfl rfl rfl rfl
  | setDuration duration => exact hquiet rfl rfl rfl rfl
  | setSmoothing smoothing => exact hquiet rfl rfl rfl rfl
  | updateNetworkConditions latency packetLoss jitter =>
    obtain ⟨hinit, hhistories⟩ := s.frame_updateNetworkConditions latency packetLoss jitter
    exact hquiet rfl rfl hinit hhistories

theorem Recorded.run (h : Recorded float s p snapshots cutoffs)
    (hascend : (cutoffs ++ Run.gather (PositionInterpolation.step std float) (cutoff float) s ops).Pairwise
      (· ≤ ·)) :
    Recorded float (Run.run (PositionInterpolation.step std float) s ops) p (snapshots ++ added p ops)
      (cutoffs ++ Run.gather (PositionInterpolation.step std float) (cutoff float) s ops) := by
  induction ops generalizing s snapshots cutoffs with
  | nil => rwa [added, List.filterMap_nil, Run.gather, List.append_nil, List.append_nil]
  | cons op ops ih =>
    rw [Run.gather, ← List.append_assoc] at hascend ⊢
    have hfirst : ∀ c ∈ cutoffs, ∀ c' ∈ s.cutoff float op, c ≤ c' := fun c hc c' hc' =>
      (List.pairwise_append.mp (List.pairwise_append.mp hascend).1).2.2 c hc c' (Option.mem_toList.mpr hc')
    have hadded : added p (op :: ops) = added p [op] ++ added p ops :=
      List.filterMap_append (l := [op])
    rw [hadded, ← List.append_assoc]
    exact ih (h.step op hfirst) hascend

end Steps

section Runs
variable {std std' : StdSort PositionSnapshot PositionSnapshot.timestamp} {float : ℚ → ℚ}
  {config config' : InterpolationConfig} {ops ops' : List Op} {p : UInt32}

/-- Over every run whose cutoffs never go back, whatever the order of the snapshots, a player's history
is in order of time and holds just the valid snapshots added that no cutoff has passed, each as often
as it was added. -/
theorem history_run
    (hascend : (Run.gather (step std float) (cutoff float) { config := config } ops).Pairwise (· ≤ ·))
    (p : UInt32) :
    InOrder ((Run.run (step std float) { config := config } ops).getSnapshotsForPlayer p) ∧
      ((Run.run (step std float) { config := config } ops).getSnapshotsForPlayer p).Perm
        ((added p ops).filter
          (Current float (Run.gather (step std float) (cutoff float) { config := config } ops))) := by
  have hstart : Recorded float { config := config } p [] [] := ⟨rfl, .nil, .refl _⟩
  have hall : Recorded float (Run.run (step std float) { config := config } ops) p _ _ := hstart.run hascend
  exact ⟨hall.inOrder, hall.perm⟩

theorem history_run_overtaken :
    let float (t : ℚ) : ℚ := 128 * ⌊t / 128 + 1 / 2⌋
    let snapshot (time : ℚ) : PositionSnapshot := { playerId := 7, timestamp := time, isValid := true }
    let s := Run.run (step (.insertion PositionSnapshot.timestamp) float) { config := {} }
      [.addPositionSnapshot (snapshot 1700000060) 1700000061,
        .addPositionSnapshot (snapshot 1700000055) 1700000061, .interpolatePosition 7 0 1700000061,
        .addPositionSnapshot (snapshot 1700000065) 1700000065,
        .addPositionSnapshot (snapshot 1700000190) 1700000191]
    InOrder (s.getSnapshotsForPlayer 7) ∧
      (s.getSnapshotsForPlayer 7).Perm [snapshot 1700000065, snapshot 1700000190] := by
  intro float snapshot s
  have hall : InOrder (s.getSnapshotsForPlayer 7) ∧ (s.getSnapshotsForPlayer 7).Perm _ :=
    history_run (by decide +kernel) 7
  obtain ⟨hsorted, hperm⟩ := hall
  refine ⟨hsorted, hperm.trans (.of_eq ?_)⟩
  decide +kernel

theorem current_iff_last {cutoffs : List ℚ} (hascend : cutoffs.Pairwise (· ≤ ·))
    {a : PositionSnapshot} : Current float cutoffs a ↔ ∀ c ∈ cutoffs.getLast?, c ≤ float a.timestamp := by
  constructor
  · exact fun h c hc => h c (List.mem_of_getLast? hc)
  · intro h c hc
    obtain ⟨pre, last, rfl⟩ := (List.eq_nil_or_concat' cutoffs).resolve_left (List.ne_nil_of_mem hc)
    have hlast := h last List.getLast?_concat
    rcases List.mem_append.mp hc with hc | hc
    · exact ((List.pairwise_append.mp hascend).2.2 c hc last List.mem_cons_self).trans hlast
    · rwa [List.mem_singleton.mp hc]

/-- Two that get the same snapshots of a player at distinct times, in whatever orders, between whatever
other calls, and with the same last cutoff, have the same history of it. -/
theorem histories_converge
    (hascend : (Run.gather (step std float) (cutoff float) { config := config } ops).Pairwise (· ≤ ·))
    (hascend' : (Run.gather (step std' float) (cutoff float) { config := config' } ops').Pairwise (· ≤ ·))
    (hlast : (Run.gather (step std float) (cutoff float) { config := config } ops).getLast? =
      (Run.gather (step std' float) (cutoff float) { config := config' } ops').getLast?)
    (hsame : (added p ops).Perm (added p ops'))
    (hdistinct : ((added p ops).map PositionSnapshot.timestamp).Nodup) :
    (Run.run (step std float) { config := config } ops).getSnapshotsForPlayer p =
      (Run.run (step std' float) { config := config' } ops').getSnapshotsForPlayer p := by
  obtain ⟨hsorted, hperm⟩ := history_run hascend p
  obtain ⟨hsorted', hperm'⟩ := history_run hascend' p
  have hcurrent :
      (added p ops').filter
          (Current float (Run.gather (step std float) (cutoff float) { config := config } ops))
        = (added p ops').filter
          (Current float (Run.gather (step std' float) (cutoff float) { config := config' } ops')) := by
    refine List.filter_congr fun a _ => decide_eq_decide.mpr ?_
    rw [current_iff_last hascend, current_iff_last hascend', hlast]
  have hboth := (hperm.trans (hsame.filter _)).trans (hcurrent ▸ hperm'.symm)
  refine List.Perm.eq_of_pairwise (fun a b ha hb hab hba => ?_) hsorted hsorted' hboth
  have hmem : ∀ a ∈ (Run.run (step std float) { config := config } ops).getSnapshotsForPlayer p,
      a ∈ added p ops := fun a ha => List.mem_of_mem_filter (hperm.mem_iff.mp ha)
  exact List.inj_on_of_nodup_map hdistinct (hmem a ha) (hmem b (hboth.mem_iff.mpr hb))
    (le_antisymm hab hba)

theorem histories_converge_swapped :
    let float (t : ℚ) : ℚ := 128 * ⌊t / 128 + 1 / 2⌋
    let snapshot (time : ℚ) : PositionSnapshot := { playerId := 7, timestamp := time, isValid := true }
    let step := step (.insertion PositionSnapshot.timestamp) float
    (Run.run step { config := {} } [.addPositionSnapshot (snapshot 1700000066) 1700000067,
        .addPositionSnapshot (snapshot 1700000065) 1700000068]).getSnapshotsForPlayer 7 =
      (Run.run step { config := { type := .linear } }
        [.addPositionSnapshot (snapshot 1700000065) 1700000066, .setSmoothing 0,
          .interpolatePosition 7 0 1700000067,
          .addPositionSnapshot (snapshot 1700000066) 1700000090]).getSnapshotsForPlayer 7 := by
  intro float snapshot step
  exact histories_converge (by decide +kernel) (by decide +kernel) (by decide +kernel)
    (.swap ..) (by decide +kernel)

end Runs

end PositionInterpolation
end WitcherMP.Movement
