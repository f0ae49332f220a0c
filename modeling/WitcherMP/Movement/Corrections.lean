import WitcherMP.Movement.Defs
import WitcherMP.Lib.Run

/-! What the server reports for an input: a tick applies every queued record and never clears
one, so that a record that was marked stays reported as pending. -/

namespace WitcherMP.Movement.MovementPrediction

def Settles (sqrt : ℚ → ℚ) (m : MovementPrediction) : MovementOp → Prop
  | .processInputs deltaTime => ∀ id ∈ m.reconciliationQueue,
      (m.processInputs sqrt deltaTime).needsReconciliation id = false
  | _ => True

/-- The record of every input that a tick finds queued is there, and is not marked. -/
def Unmarked (m : MovementPrediction) : MovementOp → Prop
  | .processInputs _ => ∀ id ∈ m.reconciliationQueue, ∃ data,
      m.reconciliationData.find? id = some data ∧ data.needsCorrection = false
  | _ => True

/-- What the server reports is close to what was predicted, if anything was. -/
def Close (sqrt : ℚ → ℚ) (m : MovementPrediction) : MovementOp → Prop
  | .reconcileWithServer inputId serverPosition _ =>
    ∀ state, m.predictedStates.find? inputId = some state →
      calculatePositionError sqrt state.position serverPosition ≤ m.config.reconciliationThreshold
  | .reconcileWithServerData data => data.needsCorrection = false
  | _ => True

def reportedId : MovementOp → Option UInt32
  | .reconcileWithServer inputId _ _ => some inputId
  | .reconcileWithServerData data => some data.inputId
  | _ => none

def Replaced (id : UInt32) : List MovementOp → Prop
  | [] => True
  | .processInputs _ :: _ => False
  | op :: ops => reportedId op = some id ∨ Replaced id ops

/-- Of each input, the last report before a tick is close to what was predicted when it comes: a far
one is replaced in time. -/
def LastClose (sqrt : ℚ → ℚ) : MovementPrediction → List MovementOp → Prop
  | _, [] => True
  | m, op :: ops => (∀ id, reportedId op = some id → ¬ Close sqrt m op → Replaced id ops) ∧
      LastClose sqrt (movementStep sqrt m op) ops

def Recorded (m : MovementPrediction) : Prop :=
  ∀ id ∈ m.reconciliationQueue, ∃ data, m.reconciliationData.find? id = some data

def Calm (m : MovementPrediction) : Prop :=
  ∀ id data, m.reconciliationData.find? id = some data → data.needsCorrection = false

def reports (m : MovementPrediction) : OrdMap UInt32 ReconciliationData × List UInt32 :=
  (m.reconciliationData, m.reconciliationQueue)

section Ticks
variable {sqrt : ℚ → ℚ} {m : MovementPrediction}

theorem foldl_keeps {α β : Type} (view : MovementPrediction → β)
    {f : MovementPrediction → α → MovementPrediction} (hf : ∀ m a, view (f m a) = view m)
    (m : MovementPrediction) (as : List α) : view (as.foldl f m) = view m := by
  induction as generalizing m with
  | nil => rfl
  | cons a as ih => rw [List.foldl_cons, ih, hf]

theorem reports_processMovementInput (deltaTime : ℚ) (m : MovementPrediction)
    (input : MovementInput) : (processMovementInput deltaTime m input).reports = m.reports := by
  unfold processMovementInput predictMovement
  dsimp only
  split
  · split <;> rfl
  · split <;> rfl

theorem reports_reconcileQueued (m : MovementPrediction) (id : UInt32) :
    (reconcileQueued sqrt m id).reports = m.reports := by
  unfold reconcileQueued
  split
  · rfl
  · unfold performReconciliation
    split
    · rfl
    · dsimp only
      split
      · split <;> rfl
      · rfl

theorem reports_addInput (m : MovementPrediction) (input : MovementInput) (currentTime : ℚ) :
    (m.addInput input currentTime).reports = m.reports := by
  unfold addInput
  split
  · rfl
  split
  · rfl
  · rfl

theorem reports_processInputs (hinit : m.initialized = true) (deltaTime : ℚ) :
    (m.processInputs sqrt deltaTime).reports = (m.reconciliationData, []) := by
  have hopen : (!m.initialized) ≠ true := by simp [hinit]
  let started : MovementPrediction :=
    { m with accumulatedTime := m.accumulatedTime + deltaTime, inputHistory := [] }
  have hdata : (m.inputHistory.foldl (processMovementInput deltaTime) started).reconciliationData =
      m.reconciliationData :=
    congrArg Prod.fst (foldl_keeps (·.reports) (reports_processMovementInput deltaTime) started _)
  rw [processInputs, if_neg hopen]
  dsimp only
  rw [foldl_keeps (·.reports) reports_reconcileQueued]
  exact Prod.ext hdata rfl

theorem reconciliationData_processInputs (m : MovementPrediction) (deltaTime : ℚ) :
    (m.processInputs sqrt deltaTime).reconciliationData = m.reconciliationData := by
  cases hinit : m.initialized with
  | true => exact congrArg Prod.fst (reports_processInputs hinit deltaTime)
  | false => rw [processInputs, if_pos (by simp [hinit])]

theorem needsReconciliation_processInputs (m : MovementPrediction) (deltaTime : ℚ) (id : UInt32) :
    (m.processInputs sqrt deltaTime).needsReconciliation id = m.needsReconciliation id := by
  rw [needsReconciliation, needsReconciliation, reconciliationData_processInputs]

end Ticks

section Invariants
variable {sqrt : ℚ → ℚ} {m : MovementPrediction}

theorem needsReconciliation_eq_false_iff (h : Recorded m) {id : UInt32}
    (hid : id ∈ m.reconciliationQueue) :
    m.needsReconciliation id = false ↔
      ∃ data, m.reconciliationData.find? id = some data ∧ data.needsCorrection = false := by
  obtain ⟨data, hdata⟩ := h id hid
  rw [needsReconciliation, hdata]
  simp

theorem Calm.needsReconciliation (h : Calm m) (id : UInt32) : m.needsReconciliation id = false := by
  unfold MovementPrediction.needsReconciliation
  cases hdata : m.reconciliationData.find? id with
  | none => rfl
  | some data => exact h id data hdata

theorem Recorded.reconcileWithServerData (h : Recorded m) (data : ReconciliationData) :
    Recorded (m.reconcileWithServerData data) := by
  unfold MovementPrediction.reconcileWithServerData
  split
  · exact h
  · intro id hid
    show ∃ found, (m.reconciliationData.insert data.inputId data).find? id = some found
    rw [OrdMap.find?_insert]
    split
    · exact ⟨data, rfl⟩
    · next hother =>
      rcases List.mem_append.mp hid with hid | hid
      · exact h id hid
      · exact absurd (List.mem_singleton.mp hid).symm hother

theorem Recorded.reconcileWithServer (h : Recorded m) (inputId : UInt32)
    (serverPosition : Vector4F) (timestamp : ℚ) :
    Recorded (m.reconcileWithServer sqrt inputId serverPosition timestamp) := by
  unfold MovementPrediction.reconcileWithServer
  dsimp only
  split
  · exact h
  split
  · exact h.reconcileWithServerData _
  · exact h.reconcileWithServerData _

theorem Calm.reconcileWithServerData (h : Calm m) {data : ReconciliationData}
    (hdata : data.needsCorrection = false) : Calm (m.reconcileWithServerData data) := by
  unfold MovementPrediction.reconcileWithServerData
  split
  · exact h
  · intro id found hfound
    replace hfound : (m.reconciliationData.insert data.inputId data).find? id = some found := hfound
    rw [OrdMap.find?_insert] at hfound
    split at hfound
    · rw [← Option.some.inj hfound]
      exact hdata
    · exact h id found hfound

theorem Calm.reconcileWithServer (h : Calm m) {inputId : UInt32} {serverPosition : Vector4F}
    (timestamp : ℚ) (hclose : ∀ state, m.predictedStates.find? inputId = some state →
      calculatePositionError sqrt state.position serverPosition ≤ m.config.reconciliationThreshold) :
    Calm (m.reconcileWithServer sqrt inputId serverPosition timestamp) := by
  unfold MovementPrediction.reconcileWithServer
  dsimp only
  split
  · exact h
  split
  · exact h.reconcileWithServerData rfl
  · next state hstate =>
    have herror := Rat.not_lt.mpr (hclose state hstate)
    exact h.reconcileWithServerData (decide_eq_false herror)

theorem recorded_movementStep (h : Recorded m) (op : MovementOp) :
    Recorded (movementStep sqrt m op) := by
  cases op with
  | addInput input currentTime =>
    have hkept : (m.addInput input currentTime).reports = m.reports := reports_addInput ..
    obtain ⟨hdata, hqueue⟩ := Prod.mk.inj hkept
    intro id hid
    rw [movementStep, hqueue] at hid
    rw [movementStep, hdata]
    exact h id hid
  | reconcileWithServer inputId serverPosition timestamp =>
    exact h.reconcileWithServer inputId serverPosition timestamp
  | reconcileWithServerData data => exact h.reconcileWithServerData data
  | processInputs deltaTime =>
    cases hinit : m.initialized with
    | true =>
      have hqueue : (m.processInputs sqrt deltaTime).reconciliationQueue = [] :=
        congrArg Prod.snd (reports_processInputs hinit deltaTime)
      intro id hid
      rw [movementStep, hqueue] at hid
      exact absurd hid List.not_mem_nil
    | false =>
      rw [movementStep, MovementPrediction.processInputs, if_pos (by simp [hinit])]
      exact h

theorem initialized_processMovementInput (deltaTime : ℚ) (m : MovementPrediction)
    (input : MovementInput) :
    (processMovementInput deltaTime m input).initialized = m.initialized := by
  unfold processMovementInput predictMovement
  dsimp only
  split <;> split <;> rfl

theorem initialized_reconcileQueued (m : MovementPrediction) (id : UInt32) :
    (reconcileQueued sqrt m id).initialized = m.initialized := by
  unfold reconcileQueued performReconciliation
  split
  · rfl
  split
  · rfl
  dsimp only
  split
  · split <;> rfl
  · rfl

theorem initialized_movementStep (m : MovementPrediction) (op : MovementOp) :
    (movementStep sqrt m op).initialized = m.initialized := by
  cases op with
  | addInput input currentTime =>
    rw [movementStep, addInput]
    split
    · rfl
    split <;> rfl
  | reconcileWithServer inputId serverPosition timestamp =>
    rw [movementStep, MovementPrediction.reconcileWithServer]
    split
    · rfl
    dsimp only
    split
    · unfold MovementPrediction.reconcileWithServerData
      split <;> rfl
    · unfold MovementPrediction.reconcileWithServerData
      split <;> rfl
  | reconcileWithServerData data =>
    rw [movementStep, reconcileWithServerData]
    split <;> rfl
  | processInputs deltaTime =>
    rw [movementStep, processInputs]
    split
    · rfl
    dsimp only
    rw [foldl_keeps (·.initialized) initialized_reconcileQueued]
    exact foldl_keeps (·.initialized) (initialized_processMovementInput deltaTime) _ _

theorem reports_of_reportedId (hinit : m.initialized = true) {op : MovementOp} {id : UInt32}
    (hid : reportedId op = some id) : ∃ data : ReconciliationData,
      (movementStep sqrt m op).reports
        = (m.reconciliationData.insert id data, m.reconciliationQueue ++ [id]) ∧
      (data.needsCorrection = true ↔ ¬ Close sqrt m op) := by
  have hopen : (!m.initialized) ≠ true := by simp [hinit]
  cases op with
  | addInput input currentTime => cases hid
  | processInputs deltaTime => cases hid
  | reconcileWithServerData data =>
    cases hid
    refine ⟨data, ?_, ?_⟩
    · rw [movementStep, reconcileWithServerData, if_neg hopen]
      rfl
    · rw [Close, Bool.not_eq_false]
  | reconcileWithServer inputId serverPosition timestamp =>
    cases hid
    rw [movementStep, MovementPrediction.reconcileWithServer, if_neg hopen, Close]
    dsimp only
    cases hstate : m.predictedStates.find? id with
    | none =>
      refine ⟨{ inputId := id, timestamp, serverPosition }, ?_, by simp⟩
      dsimp only
      rw [reconcileWithServerData, if_neg hopen]
      rfl
    | some state =>
      dsimp only
      rw [reconcileWithServerData, if_neg hopen]
      exact ⟨_, rfl, by simp⟩

theorem calm_movementStep (h : Calm m) {op : MovementOp} (hclose : Close sqrt m op) :
    Calm (movementStep sqrt m op) := by
  cases op with
  | addInput input currentTime =>
    have hkept : (m.addInput input currentTime).reports = m.reports := reports_addInput ..
    intro id data hfound
    rw [movementStep, (Prod.mk.inj hkept).1] at hfound
    exact h id data hfound
  | reconcileWithServer inputId serverPosition timestamp =>
    exact h.reconcileWithServer timestamp hclose
  | reconcileWithServerData data => exact h.reconcileWithServerData hclose
  | processInputs deltaTime =>
    intro id data hfound
    rw [movementStep, reconciliationData_processInputs] at hfound
    exact h id data hfound

theorem settles_iff_unmarked (h : Recorded m) (op : MovementOp) :
    Settles sqrt m op ↔ Unmarked m op := by
  cases op with
  | processInputs deltaTime =>
    refine forall₂_congr fun id hid => ?_
    rw [needsReconciliation_processInputs, needsReconciliation_eq_false_iff h hid]
  | _ => exact Iff.rfl

theorem forall_marked_report_iff (hinit : m.initialized = true) {op : MovementOp} {id : UInt32}
    (hid : reportedId op = some id) (P : UInt32 → Prop) :
    (∀ i ∈ (movementStep sqrt m op).reconciliationQueue,
        (movementStep sqrt m op).needsReconciliation i = true → P i) ↔
      (∀ i ∈ m.reconciliationQueue, m.needsReconciliation i = true → id = i ∨ P i) ∧
        (¬ Close sqrt m op → P id) := by
  obtain ⟨data, hreports, hmarked⟩ := @reports_of_reportedId sqrt m hinit op id hid
  obtain ⟨hdata, hqueue⟩ := Prod.mk.inj hreports
  have hneeds (i : UInt32) : (movementStep sqrt m op).needsReconciliation i
      = if id = i then data.needsCorrection else m.needsReconciliation i := by
    unfold needsReconciliation
    rw [hdata, OrdMap.find?_insert]
    split_ifs <;> rfl
  rw [hqueue]
  constructor
  · intro hall
    constructor
    · intro i hi hmarked
      by_cases hsame : id = i
      · exact .inl hsame
      · refine .inr (hall i (List.mem_append_left _ hi) ?_)
        rw [hneeds, if_neg hsame]
        exact hmarked
    · intro hfar
      refine hall id (List.mem_append_right _ (List.mem_singleton_self id)) ?_
      rw [hneeds, if_pos rfl]
      exact hmarked.mpr hfar
  · rintro ⟨hother, hfar⟩ i hi hneedsi
    rw [hneeds] at hneedsi
    by_cases hsame : id = i
    · rw [if_pos hsame] at hneedsi
      exact hsame ▸ hfar (hmarked.mp hneedsi)
    · rw [if_neg hsame] at hneedsi
      rcases List.mem_append.mp hi with hi | hi
      · exact (hother i hi hneedsi).resolve_left hsame
      · exact absurd (List.mem_singleton.mp hi).symm hsame

theorem replaced_cons_iff {op : MovementOp} {id id' : UInt32} {ops : List MovementOp}
    (hop : reportedId op = some id') :
    Replaced id (op :: ops) ↔ id' = id ∨ Replaced id ops := by
  cases op with
  | reconcileWithServer inputId serverPosition timestamp =>
    rw [Replaced, hop, Option.some.injEq]
    exact fun deltaTime h => nomatch h
  | reconcileWithServerData data =>
    rw [Replaced, hop, Option.some.injEq]
    exact fun deltaTime h => nomatch h
  | addInput input currentTime => cases hop
  | processInputs deltaTime => cases hop

theorem along_unmarked_iff (hinit : m.initialized = true) (h : Recorded m) (ops : List MovementOp) :
    Run.Along (movementStep sqrt) Unmarked m ops ↔
      (∀ id ∈ m.reconciliationQueue, m.needsReconciliation id = true → Replaced id ops) ∧
        LastClose sqrt m ops := by
  induction ops generalizing m with
  | nil => exact iff_of_true trivial ⟨fun id hid hneeds => trivial, trivial⟩
  | cons op ops ih =>
    have hinit' : (movementStep sqrt m op).initialized = true :=
      (initialized_movementStep m op).trans hinit
    have hrecorded : Recorded (movementStep sqrt m op) := recorded_movementStep h op
    have hnext := ih hinit' hrecorded
    rw [Run.Along, LastClose, hnext]
    cases hid : reportedId op with
    | some id =>
      have hunmarked : Unmarked m op := by
        cases op with
        | processInputs deltaTime => cases hid
        | _ => trivial
      simp only [hunmarked, forall_marked_report_iff hinit hid, replaced_cons_iff hid, Option.some.injEq,
        forall_eq', true_and, and_assoc]
    | none =>
      cases op with
      | reconcileWithServer inputId serverPosition timestamp => cases hid
      | reconcileWithServerData data => cases hid
      | addInput input currentTime =>
        have hkept : (m.addInput input currentTime).reports = m.reports := reports_addInput ..
        obtain ⟨hdata, hqueue⟩ := Prod.mk.inj hkept
        have hneeds (id : UInt32) :
            (m.addInput input currentTime).needsReconciliation id = m.needsReconciliation id := by
          rw [needsReconciliation, hdata]
          rfl
        have hcons (id : UInt32) : Replaced id (.addInput input currentTime :: ops) ↔ Replaced id ops :=
          or_iff_right nofun
        simp only [movementStep, hqueue, hneeds, hcons]
        simp [Unmarked]
      | processInputs deltaTime =>
        have hqueue : (m.processInputs sqrt deltaTime).reconciliationQueue = [] :=
          congrArg Prod.snd (reports_processInputs hinit deltaTime)
        have hunmarked : Unmarked m (.processInputs deltaTime) ↔
            ∀ id ∈ m.reconciliationQueue, m.needsReconciliation id = true → False :=
          forall₂_congr fun id hid => by
            rw [← needsReconciliation_eq_false_iff h hid, ← Bool.not_eq_true]
        rw [hunmarked]
        simp [movementStep, hqueue, Replaced]

end Invariants

/-- In every run no tick leaves an input that it found queued reported as pending, just when the
records it finds queued are all unmarked, and just when the last report on each of them was close to
what was predicted when it came. That is so in every run in which the server reports nothing far from
what was predicted. -/
theorem run_settles_iff (sqrt : ℚ → ℚ) (config : PredictionConfig) (ops : List MovementOp) :
    let fresh := initializeWith {} config
    (Run.Along (movementStep sqrt) (Settles sqrt) fresh ops ↔
      Run.Along (movementStep sqrt) Unmarked fresh ops) ∧
    (Run.Along (movementStep sqrt) (Settles sqrt) fresh ops ↔ LastClose sqrt fresh ops) ∧
    (Run.Along (movementStep sqrt) (Close sqrt) fresh ops →
      Run.Along (movementStep sqrt) (Settles sqrt) fresh ops) := by
  intro fresh
  have hrecorded : Recorded fresh := fun id hid => absurd hid List.not_mem_nil
  have hcalm : Calm fresh := fun id data hfound => by cases hfound
  have hunmarked : Run.Along (movementStep sqrt) (Settles sqrt) fresh ops ↔
      Run.Along (movementStep sqrt) Unmarked fresh ops := by
    refine Run.along_congr_of_step (I := Recorded) (fun m op h => ?_) hrecorded
    exact ⟨settles_iff_unmarked h op, fun _ => recorded_movementStep h op⟩
  refine ⟨hunmarked, ?_, ?_⟩
  · have hinit : fresh.initialized = true := rfl
    rw [hunmarked, along_unmarked_iff hinit hrecorded]
    exact and_iff_right fun id hid => absurd hid List.not_mem_nil
  · intro hclose
    refine (Run.along_of_step (I := Calm) (fun m op h hop => ?_) hcalm hclose).2
    refine ⟨calm_movementStep h hop, ?_⟩
    cases op with
    | processInputs deltaTime =>
      intro id _
      rw [needsReconciliation_processInputs, h.needsReconciliation]
    | _ => trivial

theorem not_run_settles :
    ¬ ∀ ops : List MovementOp,
      Run.Along (movementStep id) (Settles id) (initializeWith {} {}) ops := by
  intro hsettles
  have hrun := hsettles [.addInput { inputId := 1 } 0, .processInputs 1,
    .reconcileWithServer 1 { x := 10 } 0, .processInputs 1]
  have hpending := hrun.2.2.2.1 1
  exact absurd hpending (by decide +kernel)

end WitcherMP.Movement.MovementPrediction
