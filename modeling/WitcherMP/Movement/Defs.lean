import WitcherMP.Lib.OrdMap
import WitcherMP.Lib.Word32
import Mathlib.Algebra.Order.Field.Rat

/-! Client-side movement prediction: inputs are predicted ahead, and what the server reports is
queued and applied with the next tick. The square root is a parameter, and a call reads the clock
once; log lines, statistics and the callbacks, which only observe, are left out. -/

namespace WitcherMP.Movement

structure Vector4F where
  x : ℚ := 0
  y : ℚ := 0
  z : ℚ := 0
  w : ℚ := 0
deriving DecidableEq

structure MovementInput where
  inputId : UInt32 := 0
  timestamp : ℚ := 0
  position : Vector4F := {}
  velocity : Vector4F := {}
  acceleration : Vector4F := {}
  rotation : ℚ := 0
  isMoving : Bool := false
deriving DecidableEq

structure PredictedState where
  inputId : UInt32 := 0
  timestamp : ℚ := 0
  position : Vector4F := {}
  velocity : Vector4F := {}
  acceleration : Vector4F := {}
  rotation : ℚ := 0
  isValid : Bool := false
deriving DecidableEq

structure ReconciliationData where
  inputId : UInt32 := 0
  timestamp : ℚ := 0
  serverPosition : Vector4F := {}
  clientPosition : Vector4F := {}
  positionError : ℚ := 0
  needsCorrection : Bool := false
deriving DecidableEq

structure PredictionConfig where
  reconciliationThreshold : ℚ := 1 / 10
  maxInputHistory : ℚ := 1
  maxPredictedStates : UInt32 := 64
  enableSmoothing : Bool := true
  smoothingFactor : ℚ := 1 / 10

structure MovementPrediction where
  initialized : Bool := false
  config : PredictionConfig := {}
  currentPosition : Vector4F := ⟨0, 0, 0, 1⟩
  currentVelocity : Vector4F := {}
  currentAcceleration : Vector4F := {}
  currentRotation : ℚ := 0
  inputHistory : List MovementInput := []
  inputMap : OrdMap UInt32 MovementInput := .empty
  nextInputId : UInt32 := 1
  predictedStates : OrdMap UInt32 PredictedState := .empty
  predictionQueue : List UInt32 := []
  reconciliationData : OrdMap UInt32 ReconciliationData := .empty
  reconciliationQueue : List UInt32 := []
  accumulatedTime : ℚ := 0

namespace MovementUtils

/-- Every rational is finite. -/
def isfinite (_ : ℚ) : Bool := true

def validatePosition (position : Vector4F) : Bool :=
  isfinite position.x && isfinite position.y && isfinite position.z

def validateVelocity (velocity : Vector4F) : Bool :=
  isfinite velocity.x && isfinite velocity.y && isfinite velocity.z

def validateMovementInput (input : MovementInput) : Bool :=
  validatePosition input.position && validateVelocity input.velocity

def calculateMovement (position velocity acceleration : Vector4F) (deltaTime : ℚ) : Vector4F :=
  { position with
    x := position.x + (velocity.x * deltaTime + 1 / 2 * acceleration.x * deltaTime * deltaTime)
    y := position.y + (velocity.y * deltaTime + 1 / 2 * acceleration.y * deltaTime * deltaTime)
    z := position.z + (velocity.z * deltaTime + 1 / 2 * acceleration.z * deltaTime * deltaTime) }

end MovementUtils

namespace MovementPrediction

def initializeWith (m : MovementPrediction) (config : PredictionConfig) : MovementPrediction :=
  if m.initialized then m else { m with config := config, initialized := true }

def predictPosition (currentPos velocity acceleration : Vector4F) (deltaTime : ℚ) : Vector4F :=
  { currentPos with
    x := currentPos.x + (velocity.x * deltaTime + 1 / 2 * acceleration.x * deltaTime * deltaTime)
    y := currentPos.y + (velocity.y * deltaTime + 1 / 2 * acceleration.y * deltaTime * deltaTime)
    z := currentPos.z + (velocity.z * deltaTime + 1 / 2 * acceleration.z * deltaTime * deltaTime) }

def predictVelocity (currentVel acceleration : Vector4F) (deltaTime : ℚ) : Vector4F :=
  { currentVel with
    x := currentVel.x + acceleration.x * deltaTime
    y := currentVel.y + acceleration.y * deltaTime
    z := currentVel.z + acceleration.z * deltaTime }

def predictRotation (currentRotation _deltaTime : ℚ) : ℚ := currentRotation

def predictedState (m : MovementPrediction) (input : MovementInput) (deltaTime : ℚ) :
    PredictedState where
  inputId := input.inputId
  timestamp := input.timestamp
  position := predictPosition m.currentPosition input.velocity input.acceleration deltaTime
  velocity := predictVelocity input.velocity input.acceleration deltaTime
  rotation := predictRotation input.rotation deltaTime
  isValid := true

def predictMovement (m : MovementPrediction) (input : MovementInput) (deltaTime : ℚ) :
    PredictedState × MovementPrediction :=
  if !m.initialized then ({}, m)
  else
    let predictedState := m.predictedState input deltaTime
    (predictedState, { m with
      predictedStates := m.predictedStates.insert input.inputId predictedState
      predictionQueue := m.predictionQueue ++ [input.inputId] })

def processMovementInput (deltaTime : ℚ) (m : MovementPrediction) (input : MovementInput) :
    MovementPrediction :=
  let m := if input.isMoving then
      { m with currentVelocity := input.velocity, currentAcceleration := input.acceleration }
    else m
  let m := { m with currentRotation := input.rotation }
  let (predictedState, m) := m.predictMovement input deltaTime
  { m with currentPosition := predictedState.position }

def updateCurrentState (m : MovementPrediction) (deltaTime : ℚ) : MovementPrediction :=
  { m with
    currentPosition := { m.currentPosition with
      x := m.currentPosition.x + m.currentVelocity.x * deltaTime
      y := m.currentPosition.y + m.currentVelocity.y * deltaTime
      z := m.currentPosition.z + m.currentVelocity.z * deltaTime }
    currentVelocity := { m.currentVelocity with
      x := m.currentVelocity.x + m.currentAcceleration.x * deltaTime
      y := m.currentVelocity.y + m.currentAcceleration.y * deltaTime
      z := m.currentVelocity.z + m.currentAcceleration.z * deltaTime } }

section Corrections
variable (sqrt : ℚ → ℚ)

def calculatePositionError (predicted actual : Vector4F) : ℚ :=
  let dx := predicted.x - actual.x
  let dy := predicted.y - actual.y
  let dz := predicted.z - actual.z
  sqrt (dx * dx + dy * dy + dz * dz)

def interpolatePosition (source target : Vector4F) (factor : ℚ) : Vector4F where
  x := source.x + (target.x - source.x) * factor
  y := source.y + (target.y - source.y) * factor
  z := source.z + (target.z - source.z) * factor
  w := 1

def smoothCorrection (m : MovementPrediction) (targetPosition : Vector4F) (deltaTime : ℚ) :
    MovementPrediction :=
  { m with currentPosition :=
      interpolatePosition m.currentPosition targetPosition (m.config.smoothingFactor * deltaTime) }

def performReconciliation (m : MovementPrediction) (inputId : UInt32) (serverPosition : Vector4F) :
    MovementPrediction :=
  match m.predictedStates.find? inputId with
  | none => m
  | some state =>
    let positionError := calculatePositionError sqrt state.position serverPosition
    let m := if positionError > m.config.reconciliationThreshold then
        if m.config.enableSmoothing then m.smoothCorrection serverPosition (16 / 1000)
        else { m with currentPosition := serverPosition }
      else m
    { m with predictedStates := m.predictedStates.erase inputId }

def reconcileQueued (m : MovementPrediction) (inputId : UInt32) : MovementPrediction :=
  match m.reconciliationData.find? inputId with
  | none => m
  | some data => m.performReconciliation sqrt inputId data.serverPosition

def reconcileWithServerData (m : MovementPrediction) (data : ReconciliationData) :
    MovementPrediction :=
  if !m.initialized then m
  else { m with
    reconciliationData := m.reconciliationData.insert data.inputId data
    reconciliationQueue := m.reconciliationQueue ++ [data.inputId] }

def reconcileWithServer (m : MovementPrediction) (inputId : UInt32) (serverPosition : Vector4F)
    (timestamp : ℚ) : MovementPrediction :=
  if !m.initialized then m
  else
    let data : ReconciliationData := { inputId, timestamp, serverPosition }
    match m.predictedStates.find? inputId with
    | none => m.reconcileWithServerData data
    | some state =>
      let positionError := calculatePositionError sqrt state.position serverPosition
      m.reconcileWithServerData { data with
        clientPosition := state.position
        positionError
        needsCorrection := decide (positionError > m.config.reconciliationThreshold) }

def needsReconciliation (m : MovementPrediction) (inputId : UInt32) : Bool :=
  match m.reconciliationData.find? inputId with
  | none => false
  | some data => data.needsCorrection

def cleanupOldInputs (m : MovementPrediction) (currentTime : ℚ) : MovementPrediction :=
  { m with inputMap := m.inputMap.filter fun _ input =>
      !decide (currentTime - input.timestamp > m.config.maxInputHistory) }

def addInput (m : MovementPrediction) (input : MovementInput) (currentTime : ℚ) :
    MovementPrediction :=
  if !m.initialized then m
  else if !MovementUtils.validateMovementInput input then m
  else
    let (inputCopy, nextInputId) := if input.inputId = 0 then
        ({ input with inputId := m.nextInputId }, m.nextInputId + 1)
      else (input, m.nextInputId)
    let m := { m with
      nextInputId
      inputHistory := m.inputHistory ++ [inputCopy]
      inputMap := m.inputMap.insert inputCopy.inputId inputCopy }
    m.cleanupOldInputs currentTime

def processInputs (m : MovementPrediction) (deltaTime : ℚ) : MovementPrediction :=
  if !m.initialized then m
  else
    let m := { m with accumulatedTime := m.accumulatedTime + deltaTime }
    let m := m.inputHistory.foldl (processMovementInput deltaTime) { m with inputHistory := [] }
    let m := m.updateCurrentState deltaTime
    m.reconciliationQueue.foldl (reconcileQueued sqrt) { m with reconciliationQueue := [] }

end Corrections

/-- The loop of `CleanupOldStates`: the iterator always stands at the first entry left, and the
bound is computed again in every round. It stops at the limit at the latest, so that the
difference of sizes never wraps. -/
def cleanupLoop (maxPredictedStates : ℕ) :
    ℕ → List (UInt32 × PredictedState) → List (UInt32 × PredictedState)
  | _, [] => []
  | i, e :: es =>
    if i < (e :: es).length - maxPredictedStates then cleanupLoop maxPredictedStates (i + 1) es
    else e :: es

theorem cleanupLoop_suffix (limit i : ℕ) (es : List (UInt32 × PredictedState)) :
    cleanupLoop limit i es <:+ es := by
  induction es generalizing i with
  | nil => exact List.suffix_refl []
  | cons e es ih =>
    rw [cleanupLoop]
    split
    · exact (ih (i + 1)).trans (List.suffix_cons e es)
    · exact List.suffix_refl _

def cleanupOldStates (m : MovementPrediction) : MovementPrediction :=
  if m.predictedStates.entries.length > m.config.maxPredictedStates.toNat then
    { m with predictedStates :=
        ⟨cleanupLoop m.config.maxPredictedStates.toNat 0 m.predictedStates.entries,
          m.predictedStates.sorted.sublist (cleanupLoop_suffix ..).sublist⟩ }
  else m

end MovementPrediction

inductive MovementOp
  | addInput (input : MovementInput) (currentTime : ℚ)
  | reconcileWithServer (inputId : UInt32) (serverPosition : Vector4F) (timestamp : ℚ)
  | reconcileWithServerData (data : ReconciliationData)
  | processInputs (deltaTime : ℚ)

def movementStep (sqrt : ℚ → ℚ) (m : MovementPrediction) : MovementOp → MovementPrediction
  | .addInput input currentTime => m.addInput input currentTime
  | .reconcileWithServer inputId serverPosition timestamp =>
    m.reconcileWithServer sqrt inputId serverPosition timestamp
  | .reconcileWithServerData data => m.reconcileWithServerData data
  | .processInputs deltaTime => m.processInputs sqrt deltaTime

end WitcherMP.Movement
