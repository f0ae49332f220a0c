import WitcherMP.Movement.Defs
import Mathlib.Algebra.BigOperators.Fin
import Mathlib.Tactic.Ring

/-! One tick with one input: the position that is predicted for the input is the reference one,
and the same tick then moves it once more. The last part is about how far the limit on predicted
states is restored. -/

namespace WitcherMP.Movement

def Vector4F.advanced (position velocity : Vector4F) (deltaTime : ℚ) : Vector4F :=
  { position with
    x := position.x + velocity.x * deltaTime
    y := position.y + velocity.y * deltaTime
    z := position.z + velocity.z * deltaTime }

theorem Vector4F.advanced_eq_self_iff {position velocity : Vector4F} {deltaTime : ℚ} :
    position.advanced velocity deltaTime = position ↔
      deltaTime = 0 ∨ (velocity.x = 0 ∧ velocity.y = 0 ∧ velocity.z = 0) := by
  cases position with
  | mk x y z w =>
    simp only [Vector4F.advanced, Vector4F.mk.injEq, add_eq_left, mul_eq_zero, and_true]
    constructor
    · rintro ⟨hx, hy, hz⟩
      by_cases hdt : deltaTime = 0
      · exact Or.inl hdt
      · exact Or.inr ⟨hx.resolve_right hdt, hy.resolve_right hdt, hz.resolve_right hdt⟩
    · rintro (hdt | ⟨hx, hy, hz⟩)
      · exact ⟨Or.inr hdt, Or.inr hdt, Or.inr hdt⟩
      · exact ⟨Or.inl hx, Or.inl hy, Or.inl hz⟩

theorem Vector4F.eq_iff {a b : Vector4F} : a = b ↔ a.x = b.x ∧ a.y = b.y ∧ a.z = b.z ∧ a.w = b.w := by
  cases a
  cases b
  rw [Vector4F.mk.injEq]

namespace MovementPrediction

def corrected (config : PredictionConfig) (position serverPosition : Vector4F) : Vector4F :=
  if config.enableSmoothing then
    interpolatePosition position serverPosition (config.smoothingFactor * (16 / 1000))
  else serverPosition

/-- The position that is predicted for an input when the corrections come: the reference one for the
input of the tick, and what it was for the others. -/
def predictedPosition (m : MovementPrediction) (input : MovementInput) (reference : Vector4F)
    (id : UInt32) : Option Vector4F :=
  if input.inputId = id then some reference else (m.predictedStates.find? id).map (·.position)

def dueCorrection (sqrt : ℚ → ℚ) (threshold : ℚ) (records : OrdMap UInt32 ReconciliationData)
    (positions : UInt32 → Option Vector4F) (id : UInt32) : Option Vector4F :=
  match records.find? id, positions id with
  | some data, some position =>
    if calculatePositionError sqrt position data.serverPosition > threshold then
      some data.serverPosition
    else none
  | _, _ => none

/-- The corrections of a tick with the input. The first time that an id is queued is the one that
counts. -/
def dueCorrections (sqrt : ℚ → ℚ) (m : MovementPrediction) (input : MovementInput)
    (reference : Vector4F) : List Vector4F :=
  m.reconciliationQueue.eraseDups.filterMap
    (dueCorrection sqrt m.config.reconciliationThreshold m.reconciliationData
      (m.predictedPosition input reference))

def keptVelocity (m : MovementPrediction) (input : MovementInput) : Vector4F :=
  if input.isMoving then input.velocity else m.currentVelocity

/-- Pulls of which each moves by a share of what is left of it take back a way that was gone on: the later
ones wear down the way and the earlier pulls. -/
def TakesBack (share wayOn : ℚ) (pulls : List ℚ) : Prop :=
  share * ∑ i : Fin pulls.length, (1 - share) ^ (pulls.length - 1 - i) * pulls[i]
    = -((1 - share) ^ pulls.length * wayOn)

/-- The positions of the server lead back to the reference position from where the velocity leads. -/
def LeadBack (config : PredictionConfig) (reference velocity : Vector4F) (deltaTime : ℚ)
    (due : List Vector4F) : Prop :=
  if config.enableSmoothing then
    let share := config.smoothingFactor * (16 / 1000)
    TakesBack share (velocity.x * deltaTime) (due.map (·.x - reference.x)) ∧
      TakesBack share (velocity.y * deltaTime) (due.map (·.y - reference.y)) ∧
      TakesBack share (velocity.z * deltaTime) (due.map (·.z - reference.z)) ∧ reference.w = 1
  else due.getLast? = some reference

section Corrections
variable {sqrt : ℚ → ℚ} {threshold : ℚ} {records : OrdMap UInt32 ReconciliationData}

theorem filterMap_eraseDups_filter {f : UInt32 → Option Vector4F} {id : UInt32} (hid : f id = none)
    (ids : List UInt32) :
    (ids.filter fun i => !i == id).eraseDups.filterMap f = ids.eraseDups.filterMap f := by
  match ids with
  | [] => rfl
  | i :: ids =>
    rw [List.eraseDups_cons]
    by_cases hi : i = id
    · subst hi
      simp [hid]
    · have hlt : (ids.filter fun j => !j == i).length < (i :: ids).length :=
        Nat.lt_succ_of_le (List.length_filter_le _ _)
      have ih := filterMap_eraseDups_filter hid (ids.filter fun j => !j == i)
      rw [List.filter_cons_of_pos (by simpa using hi), List.eraseDups_cons, List.filter_filter,
        List.filterMap_cons, List.filterMap_cons, ← ih, List.filter_filter]
      simp only [Bool.and_comm]
termination_by ids.length
decreasing_by exact hlt

theorem dueCorrection_congr {positions positions' : UInt32 → Option Vector4F} {id : UInt32}
    (h : positions id = positions' id) : dueCorrection sqrt threshold records positions id
      = dueCorrection sqrt threshold records positions' id := by
  unfold dueCorrection
  rw [h]

theorem dueCorrection_of_position {positions : UInt32 → Option Vector4F} {id : UInt32}
    (h : positions id = none) : dueCorrection sqrt threshold records positions id = none := by
  unfold dueCorrection
  rw [h]
  cases records.find? id <;> rfl

theorem filterMap_dueCorrection_cons (positions : UInt32 → Option Vector4F) (id : UInt32)
    (ids : List UInt32) :
    (id :: ids).eraseDups.filterMap (dueCorrection sqrt threshold records positions)
      = (dueCorrection sqrt threshold records positions id).toList ++
        ids.eraseDups.filterMap (dueCorrection sqrt threshold records
          fun i => if id = i then none else positions i) := by
  let rest (i : UInt32) : Option Vector4F := if id = i then none else positions i
  have hdone : dueCorrection sqrt threshold records rest id = none :=
    dueCorrection_of_position (if_pos rfl)
  have hrest : (ids.filter fun i => !i == id).eraseDups.filterMap
        (dueCorrection sqrt threshold records positions)
      = (ids.filter fun i => !i == id).eraseDups.filterMap
        (dueCorrection sqrt threshold records rest) := by
    refine List.filterMap_congr fun i hi => dueCorrection_congr ?_
    have hne : i ≠ id := by simpa using (List.mem_filter.mp (List.mem_eraseDups.mp hi)).2
    exact (if_neg hne.symm).symm
  rw [List.eraseDups_cons, List.filterMap_cons, hrest, filterMap_eraseDups_filter hdone]
  cases dueCorrection sqrt threshold records positions id <;> rfl

end Corrections

section Pulls
variable {share : ℚ}

theorem foldl_pulls (offset : ℚ) (pulls : List ℚ) :
    pulls.foldl (fun offset pull => offset + (pull - offset) * share) offset
      = (1 - share) ^ pulls.length * offset
        + share * ∑ i : Fin pulls.length, (1 - share) ^ (pulls.length - 1 - i) * pulls[i] := by
  induction pulls generalizing offset with
  | nil => simp
  | cons pull pulls ih =>
    have hsum : ∑ i : Fin (pull :: pulls).length,
          (1 - share) ^ ((pull :: pulls).length - 1 - i) * (pull :: pulls)[i]
        = (1 - share) ^ pulls.length * pull
          + ∑ i : Fin pulls.length, (1 - share) ^ (pulls.length - 1 - i) * pulls[i] := by
      refine (Fin.sum_univ_succ (n := pulls.length) _).trans ?_
      congr 1
      refine Finset.sum_congr rfl fun i _ => ?_
      have hleft : (pull :: pulls).length - 1 - (i.succ : ℕ) = pulls.length - 1 - i := by
        simp only [List.length_cons, Fin.val_succ]
        omega
      rw [hleft]
      rfl
    rw [List.foldl_cons, ih, hsum, List.length_cons, pow_succ]
    ring

theorem foldl_pulls_eq_zero_iff (wayOn : ℚ) (pulls : List ℚ) :
    pulls.foldl (fun offset pull => offset + (pull - offset) * share) wayOn = 0
      ↔ TakesBack share wayOn pulls := by
  rw [foldl_pulls, TakesBack, eq_neg_iff_add_eq_zero, add_comm]

theorem foldl_coordinate {coordinate : Vector4F → ℚ}
    (hcoordinate : ∀ position target, coordinate (interpolatePosition position target share)
      = coordinate position + (coordinate target - coordinate position) * share)
    (reference : ℚ) (position : Vector4F) (due : List Vector4F) :
    coordinate (due.foldl (fun position target => interpolatePosition position target share) position)
        - reference
      = (due.map (coordinate · - reference)).foldl
        (fun offset pull => offset + (pull - offset) * share) (coordinate position - reference) := by
  induction due generalizing position with
  | nil => rfl
  | cons target due ih =>
    rw [List.foldl_cons, ih, hcoordinate, List.map_cons, List.foldl_cons]
    congr 1
    ring

theorem coordinate_eq_iff {coordinate : Vector4F → ℚ}
    (hcoordinate : ∀ position target, coordinate (interpolatePosition position target share)
      = coordinate position + (coordinate target - coordinate position) * share)
    {reference wayOn : ℚ} {position : Vector4F} (hposition : coordinate position = reference + wayOn)
    (due : List Vector4F) :
    coordinate (due.foldl (fun position target => interpolatePosition position target share) position)
        = reference
      ↔ TakesBack share wayOn (due.map (coordinate · - reference)) := by
  rw [← sub_eq_zero, foldl_coordinate hcoordinate, hposition, add_sub_cancel_left,
    foldl_pulls_eq_zero_iff]

theorem foldl_interpolatePosition_w (position : Vector4F) {due : List Vector4F} (hdue : due ≠ []) :
    (due.foldl (fun position target => interpolatePosition position target share) position).w = 1 := by
  cases due using List.reverseRecOn with
  | nil => exact absurd rfl hdue
  | append_singleton due target =>
    rw [List.foldl_append]
    rfl

theorem foldl_corrected_eq_iff {config : PredictionConfig} {due : List Vector4F} (hdue : due ≠ [])
    (reference velocity : Vector4F) (deltaTime : ℚ) :
    due.foldl (corrected config) (reference.advanced velocity deltaTime) = reference
      ↔ LeadBack config reference velocity deltaTime due := by
  unfold LeadBack
  cases hsmooth : config.enableSmoothing with
  | false =>
    have hlast : due.foldl (corrected config) (reference.advanced velocity deltaTime)
        = due.getLast hdue := by
      cases due using List.reverseRecOn with
      | nil => exact absurd rfl hdue
      | append_singleton due target =>
        rw [List.foldl_append, List.getLast_append_singleton]
        simp [corrected, hsmooth]
    rw [hlast, if_neg Bool.false_ne_true, List.getLast?_eq_some_getLast hdue, Option.some.injEq]
  | true =>
    let share := config.smoothingFactor * (16 / 1000)
    have hcorrected : corrected config
        = fun position target => interpolatePosition position target share := by
      funext position target
      rw [corrected, if_pos hsmooth]
    have hw : (due.foldl (fun position target => interpolatePosition position target share)
        (reference.advanced velocity deltaTime)).w = 1 := foldl_interpolatePosition_w _ hdue
    rw [hcorrected, if_pos rfl, Vector4F.eq_iff, hw, eq_comm (a := 1)]
    refine and_congr ?_ (and_congr ?_ (and_congr ?_ Iff.rfl))
    · exact coordinate_eq_iff (fun _ _ => rfl) rfl due
    · exact coordinate_eq_iff (fun _ _ => rfl) rfl due
    · exact coordinate_eq_iff (fun _ _ => rfl) rfl due

end Pulls

section Ticks
variable {sqrt : ℚ → ℚ} {m : MovementPrediction}

theorem reconcileQueued_keeps (m : MovementPrediction) (id : UInt32) :
    let due := dueCorrection sqrt m.config.reconciliationThreshold m.reconciliationData
      (fun i => (m.predictedStates.find? i).map (·.position)) id
    (reconcileQueued sqrt m id).config = m.config ∧
      (reconcileQueued sqrt m id).reconciliationData = m.reconciliationData ∧
      (reconcileQueued sqrt m id).currentPosition
        = due.toList.foldl (corrected m.config) m.currentPosition ∧
      ((m.reconciliationData.find? id).isSome → ∀ i,
        (reconcileQueued sqrt m id).predictedStates.find? i
          = if id = i then none else m.predictedStates.find? i) ∧
      (m.reconciliationData.find? id = none →
        (reconcileQueued sqrt m id).predictedStates = m.predictedStates) := by
  intro due
  unfold due dueCorrection reconcileQueued
  cases hdata : m.reconciliationData.find? id with
  | none => simp
  | some data =>
    dsimp only
    unfold performReconciliation
    cases hstate : m.predictedStates.find? id with
    | none =>
      refine ⟨rfl, rfl, rfl, fun _ i => ?_, nofun⟩
      by_cases hi : id = i
      · rw [if_pos hi, ← hi]
        exact hstate
      · rw [if_neg hi]
    | some state =>
      dsimp only [Option.map_some]
      by_cases herror :
          calculatePositionError sqrt state.position data.serverPosition >
            m.config.reconciliationThreshold
      · rw [if_pos herror, if_pos herror]
        cases hsmooth : m.config.enableSmoothing with
        | true => simp [corrected, hsmooth, smoothCorrection, OrdMap.find?_erase]
        | false => simp [corrected, hsmooth, OrdMap.find?_erase]
      · rw [if_neg herror, if_neg herror]
        simp [OrdMap.find?_erase]

theorem currentPosition_reconcileQueued (m : MovementPrediction) (ids : List UInt32) :
    (ids.foldl (reconcileQueued sqrt) m).currentPosition =
      (ids.eraseDups.filterMap (dueCorrection sqrt m.config.reconciliationThreshold
        m.reconciliationData fun id => (m.predictedStates.find? id).map (·.position))).foldl
          (corrected m.config) m.currentPosition := by
  induction ids generalizing m with
  | nil => rfl
  | cons id ids ih =>
    obtain ⟨hconfig, hrecords, hposition, hgone, hkept⟩ := @reconcileQueued_keeps sqrt m id
    rw [List.foldl_cons, ih, hconfig, hrecords, hposition, filterMap_dueCorrection_cons,
      List.foldl_append]
    congr 1
    refine List.filterMap_congr fun i _ => ?_
    cases hdata : m.reconciliationData.find? id with
    | none =>
      rw [hkept hdata]
      by_cases hi : id = i
      · subst hi
        unfold dueCorrection
        rw [hdata]
      · exact dueCorrection_congr (if_neg hi).symm
    | some data =>
      refine dueCorrection_congr ?_
      rw [hgone (hdata ▸ rfl)]
      split_ifs <;> rfl

theorem processMovementInput_eq (hinit : m.initialized = true) (input : MovementInput)
    (deltaTime : ℚ) :
    processMovementInput deltaTime m input = { m with
      currentVelocity := m.keptVelocity input
      currentAcceleration := if input.isMoving then input.acceleration else m.currentAcceleration
      currentRotation := input.rotation
      currentPosition := MovementUtils.calculateMovement m.currentPosition input.velocity
        input.acceleration deltaTime
      predictedStates := m.predictedStates.insert input.inputId (m.predictedState input deltaTime)
      predictionQueue := m.predictionQueue ++ [input.inputId] } := by
  unfold processMovementInput predictMovement keptVelocity
  cases hmoving : input.isMoving with
  | true => simp [hinit, predictedState, predictPosition, MovementUtils.calculateMovement]
  | false => simp [hinit, predictedState, predictPosition, MovementUtils.calculateMovement]

theorem currentPosition_processInputs (hinit : m.initialized = true) {input : MovementInput}
    (hone : m.inputHistory = [input]) (deltaTime : ℚ) :
    let reference := MovementUtils.calculateMovement m.currentPosition input.velocity
      input.acceleration deltaTime
    (m.processInputs sqrt deltaTime).currentPosition =
      (m.dueCorrections sqrt input reference).foldl (corrected m.config)
        (reference.advanced (m.keptVelocity input) deltaTime) := by
  intro reference
  let started : MovementPrediction :=
    { m with accumulatedTime := m.accumulatedTime + deltaTime, inputHistory := [] }
  have hstarted : started.initialized = true := hinit
  have hopen : (!m.initialized) ≠ true := by simp [hinit]
  have htick : m.processInputs sqrt deltaTime =
      let moved := (processMovementInput deltaTime started input).updateCurrentState deltaTime
      moved.reconciliationQueue.foldl (reconcileQueued sqrt)
        { moved with reconciliationQueue := [] } := by
    rw [processInputs, if_neg hopen, hone]
    rfl
  rw [htick, processMovementInput_eq hstarted]
  dsimp only
  rw [currentPosition_reconcileQueued]
  have hpositions : (fun id => ((m.predictedStates.insert input.inputId
        (m.predictedState input deltaTime)).find? id).map (·.position))
      = m.predictedPosition input reference := by
    funext id
    rw [OrdMap.find?_insert, predictedPosition]
    split_ifs <;> rfl
  exact congrArg (fun positions => ((m.reconciliationQueue.eraseDups.filterMap
    (dueCorrection sqrt m.config.reconciliationThreshold m.reconciliationData positions)).foldl
      (corrected m.config) (reference.advanced (m.keptVelocity input) deltaTime))) hpositions

/-- One pending input takes a tick to the reference position just when no correction is due and
nothing moves on by itself, or the server's positions that are due lead back by as much as the
velocity leads on. -/
theorem processInputs_agrees_iff (hinit : m.initialized = true) {input : MovementInput}
    (hone : m.inputHistory = [input]) (deltaTime : ℚ) :
    let reference := MovementUtils.calculateMovement m.currentPosition input.velocity
      input.acceleration deltaTime
    let velocity := m.keptVelocity input
    let due := m.dueCorrections sqrt input reference
    (m.processInputs sqrt deltaTime).currentPosition = reference ↔
      (due = [] ∧ (deltaTime = 0 ∨ (velocity.x = 0 ∧ velocity.y = 0 ∧ velocity.z = 0))) ∨
      (due ≠ [] ∧ LeadBack m.config reference velocity deltaTime due) := by
  intro reference velocity due
  have hposition : (m.processInputs sqrt deltaTime).currentPosition =
      due.foldl (corrected m.config) (reference.advanced velocity deltaTime) :=
    currentPosition_processInputs hinit hone deltaTime
  rw [hposition]
  by_cases hdue : due = []
  · rw [hdue, List.foldl_nil, Vector4F.advanced_eq_self_iff]
    simp
  · rw [foldl_corrected_eq_iff hdue]
    simp [hdue]

end Ticks

theorem processInputs_agrees_iff_back :
    let input : MovementInput := { inputId := 1, velocity := ⟨1, 0, 0, 0⟩, isMoving := true }
    let m : MovementPrediction :=
      { initialized := true, config := { enableSmoothing := false }, inputHistory := [input]
        predictedStates := .ofList [(2, { position := ⟨5, 0, 0, 1⟩ })]
        reconciliationData := .ofList [(2, { serverPosition := ⟨1, 0, 0, 1⟩ })]
        reconciliationQueue := [2] }
    (m.processInputs id 1).currentPosition
      = MovementUtils.calculateMovement m.currentPosition input.velocity input.acceleration 1 := by
  intro input m
  refine (@processInputs_agrees_iff id m rfl input rfl 1).mpr (.inr ⟨?_, ?_⟩)
  · decide +kernel
  · rw [LeadBack, if_neg (by decide)]
    decide +kernel

theorem not_processInputs_agrees :
    ¬ ∀ (m : MovementPrediction) (input : MovementInput) (deltaTime : ℚ),
      m.initialized = true → m.inputHistory = [input] → m.reconciliationQueue = [] →
      (m.processInputs id deltaTime).currentPosition = MovementUtils.calculateMovement
        m.currentPosition input.velocity input.acceleration deltaTime := by
  intro hagrees
  let input : MovementInput := { inputId := 1, velocity := ⟨1, 0, 0, 0⟩, isMoving := true }
  have hposition := hagrees { initialized := true, inputHistory := [input] } input 1 rfl rfl rfl
  exact absurd hposition (by decide +kernel)

section Limit

theorem length_cleanupLoop (limit i : ℕ) (es : List (UInt32 × PredictedState)) :
    (cleanupLoop limit i es).length = es.length - (es.length - limit - i + 1) / 2 := by
  induction es generalizing i with
  | nil => rw [cleanupLoop, List.length_nil, Nat.zero_sub]
  | cons e es ih =>
    rw [cleanupLoop]
    split
    · next hmore =>
      rw [ih, List.length_cons]
      rw [List.length_cons] at hmore
      omega
    · next hdone => omega

theorem length_cleanupOldStates (m : MovementPrediction) :
    m.cleanupOldStates.predictedStates.entries.length =
      m.predictedStates.entries.length -
        (m.predictedStates.entries.length - m.config.maxPredictedStates.toNat + 1) / 2 := by
  unfold cleanupOldStates
  split
  · exact length_cleanupLoop ..
  · omega

/-- The limit is restored just when it was passed by one state at most. -/
theorem cleanupOldStates_restores_iff (m : MovementPrediction) :
    let n := m.predictedStates.entries.length
    let limit := m.config.maxPredictedStates.toNat
    m.cleanupOldStates.predictedStates.entries.length = min n limit ∧
        (n ≤ limit → m.cleanupOldStates.predictedStates = m.predictedStates) ↔
      n ≤ limit + 1 := by
  intro n limit
  have hlength : m.cleanupOldStates.predictedStates.entries.length = n - (n - limit + 1) / 2 :=
    length_cleanupOldStates m
  have hwithin : n ≤ limit → m.cleanupOldStates.predictedStates = m.predictedStates := by
    intro hn
    rw [cleanupOldStates, if_neg (Nat.not_lt.mpr hn)]
  rw [hlength, and_iff_left hwithin]
  omega

theorem not_cleanupOldStates_restores :
    ¬ ∀ m : MovementPrediction, m.cleanupOldStates.predictedStates.entries.length =
      min m.predictedStates.entries.length m.config.maxPredictedStates.toNat := by
  intro hrestores
  let states : OrdMap UInt32 PredictedState := .ofList [(1, {}), (2, {})]
  have htwo := hrestores { config := { maxPredictedStates := 0 }, predictedStates := states }
  exact absurd htwo (by decide)

end Limit
end MovementPrediction
end WitcherMP.Movement
