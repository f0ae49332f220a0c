import WitcherMP.Lib.Run
import WitcherMP.Lib.Spacing
import WitcherMP.Lib.Sweeps
import Mathlib.Data.Fintype.Defs
import Mathlib.Data.List.Nodup
import Mathlib.Logic.Function.Basic

/-! The signs of the scripts: one sign of each kind and intensity for all players, which has to cool
down after each cast. Each sign is one object, and what the array holds are references: an object goes
by what it was made for. Effects and players belong to the engine; the damage, traps and buffs that a
cast asks it for, the message to the server and log lines are left out. -/

namespace WitcherMP.Signs
open Spacing

inductive WitcherSignType
  | none | quen | igni | aard | yrden | axii
deriving DecidableEq

inductive SignIntensity
  | basic | enhanced | superior
deriving DecidableEq

def SignIntensity.value : SignIntensity → ℚ
  | .basic => 1
  | .enhanced => 2
  | .superior => 3

structure SignData where
  signType : WitcherSignType
  intensity : SignIntensity
  cooldownTime : ℚ := 0
  staminaCost : ℚ := 0
  damage : ℚ := 0
  duration : ℚ := 0
  range : ℚ := 0
  isActive : Bool := false
  lastCastTime : ℚ := 0
deriving DecidableEq

namespace SignData

def setSignProperties (s : SignData) : SignData :=
  match s.signType with
  | .none => s
  | .quen => { s with
    staminaCost := 20 + s.intensity.value * 10
    duration := 10 + s.intensity.value * 5
    cooldownTime := 15
    damage := 0
    range := 0 }
  | .igni => { s with
    staminaCost := 25 + s.intensity.value * 15
    duration := 3 + s.intensity.value * 2
    cooldownTime := 12
    damage := 50 + s.intensity.value * 25
    range := 8 + s.intensity.value * 2 }
  | .aard => { s with
    staminaCost := 30 + s.intensity.value * 10
    duration := 1
    cooldownTime := 10
    damage := 30 + s.intensity.value * 20
    range := 6 + s.intensity.value * 2 }
  | .yrden => { s with
    staminaCost := 35 + s.intensity.value * 15
    duration := 20 + s.intensity.value * 10
    cooldownTime := 18
    damage := 15 + s.intensity.value * 10
    range := 4 + s.intensity.value * 1 }
  | .axii => { s with
    staminaCost := 40 + s.intensity.value * 20
    duration := 8 + s.intensity.value * 4
    cooldownTime := 20
    damage := 0
    range := 5 + s.intensity.value * 2 }

def ofType (signType : WitcherSignType) (intensity : SignIntensity) : SignData :=
  ({ signType := signType, intensity := intensity } : SignData).setSignProperties

def canCast (s : SignData) (currentStamina currentTime : ℚ) : Bool :=
  currentStamina ≥ s.staminaCost ∧ currentTime - s.lastCastTime ≥ s.cooldownTime

def getCooldownRemaining (s : SignData) (currentTime : ℚ) : ℚ :=
  max 0 (s.cooldownTime - (currentTime - s.lastCastTime))

end SignData

/-- What the engine does with effects: one that is not there counts as not active. -/
structure EffectSystem (E : Type*) where
  createEffect : String → ℚ → Option E
  isActive : E → Bool
  update : ℚ → E → E

def EffectSystem.advance {E : Type*} (engine : EffectSystem E) (deltaTime : ℚ) (effect : E) :
    Option E :=
  if engine.isActive effect then some (engine.update deltaTime effect) else none

abbrev Sign : Type := WitcherSignType × SignIntensity

structure SignsSystem (P E : Type*) where
  objects : Sign → SignData := fun r => .ofType r.1 r.2
  playerSigns : List Sign := []
  signEffects : List E := []
  isInitialized : Bool := false
  currentStamina : P → ℚ

namespace SignsSystem
variable {P E : Type*}

def signVariations : List Sign :=
  [(.quen, .basic), (.quen, .enhanced), (.quen, .superior),
    (.igni, .basic), (.igni, .enhanced), (.igni, .superior),
    (.aard, .basic), (.aard, .enhanced), (.aard, .superior),
    (.yrden, .basic), (.yrden, .enhanced), (.yrden, .superior),
    (.axii, .basic), (.axii, .basic), (.axii, .superior)]

def initializeSigns (s : SignsSystem P E) : SignsSystem P E :=
  { s with
    objects := fun r => .ofType r.1 r.2
    playerSigns := s.playerSigns ++ signVariations }

def initializeSystem (s : SignsSystem P E) : SignsSystem P E :=
  if s.isInitialized then s else { s.initializeSigns with isInitialized := true }

def getSignData (s : SignsSystem P E) (signType : WitcherSignType) (intensity : SignIntensity) :
    Option Sign :=
  s.playerSigns.find? fun r => (s.objects r).signType = signType ∧ (s.objects r).intensity = intensity

def effectName : WitcherSignType → Option String
  | .none => none
  | .quen => some "quen_shield_effect"
  | .igni => some "igni_fire_effect"
  | .aard => some "aard_telekinesis_effect"
  | .yrden => some "yrden_trap_effect"
  | .axii => some "axii_mind_control_effect"

section Calls
variable [DecidableEq P] (engine : EffectSystem E)

def executeSignEffect (s : SignsSystem P E) (signData : SignData) : SignsSystem P E :=
  let effectInstance := (effectName signData.signType).bind fun name =>
    engine.createEffect name signData.duration
  { s with signEffects := s.signEffects ++ effectInstance.toList }

def castSign (s : SignsSystem P E) (player : P) (signType : WitcherSignType)
    (intensity : SignIntensity) (currentTime : ℚ) : Bool × SignsSystem P E :=
  match s.getSignData signType intensity with
  | none => (false, s)
  | some r =>
    let signData := s.objects r
    let currentStamina := s.currentStamina player
    if ¬ signData.canCast currentStamina currentTime then (false, s)
    else
      let s := { s with
        currentStamina := Function.update s.currentStamina player
          (currentStamina - signData.staminaCost) }
      let signData := { signData with lastCastTime := currentTime, isActive := true }
      let s := { s with objects := Function.update s.objects r signData }
      (true, s.executeSignEffect engine signData)

/-- The loop goes down from the last effect. -/
def updateActiveEffects (s : SignsSystem P E) (deltaTime : ℚ) : SignsSystem P E :=
  { s with
    signEffects := Sweeps.sweep (engine.advance deltaTime) s.signEffects.length s.signEffects }

def updateSigns (s : SignsSystem P E) (deltaTime : ℚ) : SignsSystem P E :=
  if ¬ s.isInitialized then s else s.updateActiveEffects engine deltaTime

inductive Op (P : Type*)
  | initializeSystem
  | castSign (player : P) (signType : WitcherSignType) (intensity : SignIntensity) (currentTime : ℚ)
  | update (deltaTime : ℚ)
  /-- The engine sets the stamina of a player. -/
  | setCurrentStamina (player : P) (stamina : ℚ)

def step (s : SignsSystem P E) : Op P → SignsSystem P E
  | .initializeSystem => s.initializeSystem
  | .castSign player signType intensity currentTime =>
    (s.castSign engine player signType intensity currentTime).2
  | .update deltaTime => s.updateSigns engine deltaTime
  | .setCurrentStamina player stamina =>
    { s with currentStamina := Function.update s.currentStamina player stamina }

def castTime (r : Sign) (s : SignsSystem P E) : Op P → Option ℚ
  | .castSign player signType intensity currentTime =>
    if (signType, intensity) = r ∧
        (s.castSign engine player signType intensity currentTime).1 = true then some currentTime
    else none
  | _ => none

end Calls

def made {E : Type*} (engine : EffectSystem E) (r : Sign) : List E :=
  ((effectName (SignData.ofType r.1 r.2).signType).bind fun name =>
    engine.createEffect name (SignData.ofType r.1 r.2).duration).toList

def Held (r : Sign) : Prop := r.1 ≠ .none ∧ r ≠ (.axii, .enhanced)

instance : DecidablePred Held := fun r => inferInstanceAs (Decidable (r.1 ≠ .none ∧ r ≠ (.axii, .enhanced)))

def marked (r : Sign) (times : List ℚ) : SignData :=
  { SignData.ofType r.1 r.2 with isActive := times ≠ [], lastCastTime := times.getLastD 0 }

structure Cast (times : Sign → List ℚ) (s : SignsSystem P E) : Prop where
  isInitialized : s.isInitialized = true
  mem_playerSigns : ∀ r, r ∈ s.playerSigns ↔ Held r
  objects : ∀ r, s.objects r = marked r (times r)
  held : ∀ r, times r ≠ [] → Held r
  spaced : ∀ r, Spaced (SignData.ofType r.1 r.2).cooldownTime (0 :: times r)

section Steps
variable {engine : EffectSystem E} {s : SignsSystem P E} {times : Sign → List ℚ} {r : Sign} {player : P}
  {currentTime : ℚ}

theorem mem_signVariations (r : Sign) : r ∈ signVariations ↔ Held r := by
  obtain ⟨signType, intensity⟩ := r
  cases signType <;> cases intensity <;> decide

theorem signType_ofType (r : Sign) : (SignData.ofType r.1 r.2).signType = r.1 ∧
    (SignData.ofType r.1 r.2).intensity = r.2 := by
  obtain ⟨signType, intensity⟩ := r
  cases signType <;> exact ⟨rfl, rfl⟩

theorem cooldownTime_nonneg (r : Sign) : 0 ≤ (SignData.ofType r.1 r.2).cooldownTime := by
  obtain ⟨signType, intensity⟩ := r
  cases signType <;> cases intensity <;> decide +kernel

theorem cooldownTime_pos (hr : r.1 ≠ .none) : 0 < (SignData.ofType r.1 r.2).cooldownTime := by
  obtain ⟨signType, intensity⟩ := r
  cases signType with
  | none => exact absurd rfl hr
  | _ => cases intensity <;> decide +kernel

theorem find?_eq (rs : List Sign) (r : Sign) :
    rs.find? (· = r) = if r ∈ rs then some r else none := by
  split_ifs with hr
  · have hfound : (rs.find? (· = r)).isSome = true :=
      List.find?_isSome.mpr ⟨r, hr, decide_eq_true rfl⟩
    obtain ⟨r', hr'⟩ := Option.isSome_iff_exists.mp hfound
    have hsame := List.find?_some hr'
    rw [hr', of_decide_eq_true hsame]
  · exact List.find?_eq_none.mpr fun r' hr' hsame => hr (of_decide_eq_true hsame ▸ hr')

theorem Cast.getSignData (h : Cast times s) (r : Sign) :
    s.getSignData r.1 r.2 = if Held r then some r else none := by
  have hkeys : (fun r' : Sign => decide ((s.objects r').signType = r.1 ∧ (s.objects r').intensity = r.2))
      = fun r' => decide (r' = r) := by
    funext r'
    have htype : (s.objects r').signType = r'.1 ∧ (s.objects r').intensity = r'.2 := by
      rw [h.objects]
      exact signType_ofType r'
    rw [htype.1, htype.2]
    exact decide_eq_decide.mpr Prod.ext_iff.symm
  rw [SignsSystem.getSignData, hkeys, find?_eq]
  exact if_congr (h.mem_playerSigns r) rfl rfl

def Ready (s : SignsSystem P E) (times : Sign → List ℚ) (player : P) (r : Sign) (currentTime : ℚ) :
    Prop :=
  Held r ∧ (SignData.ofType r.1 r.2).staminaCost ≤ s.currentStamina player ∧
    (times r).getLastD 0 + (SignData.ofType r.1 r.2).cooldownTime ≤ currentTime

theorem Cast.canCast_iff (h : Cast times s) (r : Sign) (stamina currentTime : ℚ) :
    (s.objects r).canCast stamina currentTime = true ↔
      (SignData.ofType r.1 r.2).staminaCost ≤ stamina ∧
        (times r).getLastD 0 + (SignData.ofType r.1 r.2).cooldownTime ≤ currentTime := by
  rw [h.objects, SignData.canCast, decide_eq_true_iff]
  exact and_congr_right fun _ => le_sub_iff_add_le'

variable [DecidableEq P]

theorem Cast.castSign_of_not_ready (h : Cast times s) (hready : ¬ Ready s times player r currentTime) :
    s.castSign engine player r.1 r.2 currentTime = (false, s) := by
  rw [castSign, h.getSignData]
  by_cases hheld : Held r
  · rw [if_pos hheld]
    have hcast : ¬ (s.objects r).canCast (s.currentStamina player) currentTime = true := fun hcast =>
      hready ⟨hheld, (h.canCast_iff r _ _).mp hcast⟩
    exact if_pos hcast
  · rw [if_neg hheld]

theorem Cast.castSign_of_ready (h : Cast times s) (hready : Ready s times player r currentTime) :
    s.castSign engine player r.1 r.2 currentTime =
      (true, { s with
        currentStamina := Function.update s.currentStamina player
          (s.currentStamina player - (SignData.ofType r.1 r.2).staminaCost)
        objects := Function.update s.objects r (marked r (times r ++ [currentTime]))
        signEffects := s.signEffects ++ made engine r }) := by
  have hcast : (s.objects r).canCast (s.currentStamina player) currentTime = true :=
    (h.canCast_iff r _ _).mpr hready.2
  have hmark : { s.objects r with lastCastTime := currentTime, isActive := true } =
      marked r (times r ++ [currentTime]) := by
    rw [h.objects, marked, marked, List.getLastD_concat]
    simp
  rw [castSign, h.getSignData, if_pos hready.1]
  refine (if_neg (not_not.mpr hcast)).trans ?_
  dsimp only
  rw [hmark, executeSignEffect, h.objects]
  rfl

theorem Cast.castSign_iff (h : Cast times s) (player : P) (signType : WitcherSignType)
    (intensity : SignIntensity) (currentTime : ℚ) :
    (s.castSign engine player signType intensity currentTime).1 = true ↔
      Ready s times player (signType, intensity) currentTime := by
  by_cases hready : Ready s times player (signType, intensity) currentTime
  · rw [h.castSign_of_ready hready]
    exact iff_of_true rfl hready
  · rw [h.castSign_of_not_ready hready]
    exact iff_of_false Bool.false_ne_true hready

theorem Cast.of_ready (h : Cast times s) (hready : Ready s times player r currentTime) :
    Cast (fun r' => times r' ++ if r = r' then [currentTime] else [])
      (s.castSign engine player r.1 r.2 currentTime).2 := by
  rw [h.castSign_of_ready hready]
  refine ⟨h.isInitialized, h.mem_playerSigns, fun r' => ?_, fun r' hne => ?_, fun r' => ?_⟩
  · by_cases hr : r = r'
    · subst hr
      rw [if_pos rfl]
      exact Function.update_self ..
    · rw [if_neg hr, List.append_nil]
      exact (Function.update_of_ne (Ne.symm hr) ..).trans (h.objects r')
  · by_cases hr : r = r'
    · exact hr ▸ hready.1
    · rw [if_neg hr, List.append_nil] at hne
      exact h.held r' hne
  · by_cases hr : r = r'
    · subst hr
      rw [if_pos rfl, ← List.cons_append]
      refine (h.spaced r).concat (cooldownTime_nonneg r) fun t ht => ?_
      rw [List.getLast?_cons, ← List.getLastD_eq_getLast?] at ht
      exact Option.mem_some.mp ht ▸ hready.2.2
    · rw [if_neg hr, List.append_nil]
      exact h.spaced r'

theorem Cast.step (h : Cast times s) (op : Op P) :
    Cast (fun r => times r ++ (castTime engine r s op).toList) (step engine s op) := by
  have hquiet : ∀ {t : SignsSystem P E}, (∀ r, castTime engine r s op = none) →
      t.isInitialized = s.isInitialized → t.playerSigns = s.playerSigns → t.objects = s.objects →
      Cast (fun r => times r ++ (castTime engine r s op).toList) t := by
    intro t hnone hinit hsigns hobjects
    have hsame : (fun r => times r ++ (castTime engine r s op).toList) = times := by
      funext r
      rw [hnone r, Option.toList_none, List.append_nil]
    rw [hsame]
    exact ⟨hinit.trans h.isInitialized, hsigns ▸ h.mem_playerSigns, hobjects ▸ h.objects, h.held,
      h.spaced⟩
  cases op with
  | initializeSystem =>
    have hdone : s.initializeSystem = s := if_pos h.isInitialized
    exact hquiet (fun _ => rfl) (congrArg _ hdone) (congrArg _ hdone) (congrArg _ hdone)
  | castSign player signType intensity currentTime =>
    by_cases hready : Ready s times player (signType, intensity) currentTime
    · have hcast : ∀ r, castTime engine r s (.castSign player signType intensity currentTime) =
          if (signType, intensity) = r then some currentTime else none := fun r => by
        rw [castTime, h.castSign_of_ready hready]
        simp
      have hnext : Cast _ (s.castSign engine player signType intensity currentTime).2 :=
        h.of_ready hready
      have hsame : (fun r => times r ++ (castTime engine r s
          (.castSign player signType intensity currentTime)).toList) =
          fun r => times r ++ if (signType, intensity) = r then [currentTime] else [] := by
        funext r
        rw [hcast]
        split_ifs <;> rfl
      rw [hsame]
      exact hnext
    · have hfail : s.castSign engine player signType intensity currentTime = (false, s) :=
        h.castSign_of_not_ready hready
      refine hquiet (fun r => ?_) ?_ ?_ ?_
      · rw [castTime, hfail]
        simp
      all_goals rw [SignsSystem.step, hfail]
  | update deltaTime =>
    rw [SignsSystem.step, updateSigns, if_neg (not_not.mpr h.isInitialized)]
    exact hquiet (fun _ => rfl) rfl rfl rfl
  | setCurrentStamina player stamina => exact hquiet (fun _ => rfl) rfl rfl rfl

theorem Cast.run (h : Cast times s) (ops : List (Op P)) :
    Cast (fun r => times r ++ Run.gather (SignsSystem.step engine) (castTime engine r) s ops)
      (Run.run (SignsSystem.step engine) s ops) := by
  induction ops generalizing s times with
  | nil =>
    simp only [Run.gather, List.append_nil]
    exact h
  | cons op ops ih =>
    simp only [Run.gather, ← List.append_assoc]
    exact ih (h.step op)

omit [DecidableEq P] in
theorem cast_initial (stamina : P → ℚ) :
    Cast (fun _ => []) ({ currentStamina := stamina } : SignsSystem P E).initializeSystem where
  isInitialized := rfl
  mem_playerSigns := mem_signVariations
  objects r := by
    obtain ⟨signType, intensity⟩ := r
    cases signType <;> rfl
  held r hne := absurd rfl hne
  spaced r := List.pairwise_singleton _ _

end Steps

section Runs
variable [DecidableEq P] (engine : EffectSystem E) (stamina : P → ℚ) (ops : List (Op P))

def after : SignsSystem P E :=
  Run.run (step engine) ({ currentStamina := stamina } : SignsSystem P E).initializeSystem ops

def casts (r : Sign) : List ℚ :=
  Run.gather (step engine) (castTime engine r)
    ({ currentStamina := stamina } : SignsSystem P E).initializeSystem ops

theorem cast_after : Cast (casts engine stamina ops) (after engine stamina ops) :=
  (cast_initial stamina).run ops

/-- After every run, whoever cast before, a cast succeeds exactly if it is not of the sign that is missing,
the player can pay for it, and the last cast of the sign, or the start of the game, is as long ago as
the sign takes to cool down. -/
theorem castSign_run (player : P) (signType : WitcherSignType) (intensity : SignIntensity)
    (currentTime : ℚ) :
    ((after engine stamina ops).castSign engine player signType intensity currentTime).1 = true ↔
      signType ≠ .none ∧ (signType, intensity) ≠ (.axii, .enhanced) ∧
        (SignData.ofType signType intensity).staminaCost ≤
          (after engine stamina ops).currentStamina player ∧
        (casts engine stamina ops (signType, intensity)).getLastD 0 +
          (SignData.ofType signType intensity).cooldownTime ≤ currentTime := by
  rw [(cast_after engine stamina ops).castSign_iff, Ready, Held, and_assoc]

/-- Over every run, all players together cast a sign at most once in any span, and once more for each
time that it cools down in it. -/
theorem casts_run (r : Sign) (a b : ℚ) :
    ((casts engine stamina ops r).filter fun t => a ≤ t ∧ t ≤ b).length ≤
      ⌊(b - a) / (SignData.ofType r.1 r.2).cooldownTime⌋₊ + 1 := by
  have hcast := cast_after engine stamina ops
  by_cases hnone : casts engine stamina ops r = []
  · rw [hnone]
    exact Nat.zero_le _
  · refine Spaced.length_le ?_ (cooldownTime_pos (hcast.held r hnone).1) fun t ht => ?_
    · exact ((List.pairwise_cons.mp (hcast.spaced r)).2).sublist List.filter_sublist
    · simpa using (List.mem_filter.mp ht).2

end Runs

def lasting (engine : EffectSystem E) (deltaTimes : List ℚ) (effect : E) : Option E :=
  deltaTimes.foldlM (fun effect deltaTime => engine.advance deltaTime effect) effect

def deltaTime : Op P → Option ℚ
  | .update deltaTime => some deltaTime
  | _ => none

section Effects
variable [DecidableEq P] (engine : EffectSystem E)

def effects (s : SignsSystem P E) : Op P → List E
  | .castSign player signType intensity currentTime =>
    if (s.castSign engine player signType intensity currentTime).1 then
      made engine (signType, intensity)
    else []
  | _ => []

def effectsOf : SignsSystem P E → List (Op P) → List (E × List ℚ)
  | _, [] => []
  | s, op :: ops =>
    (effects engine s op).map (fun effect => (effect, ops.filterMap deltaTime)) ++
      effectsOf (step engine s op) ops

variable {engine} {s : SignsSystem P E} {times : Sign → List ℚ}

omit [DecidableEq P] in
theorem filterMap_lasting (op : Op P) (ops : List (Op P)) (es : List E) :
    es.filterMap (lasting engine ((op :: ops).filterMap deltaTime)) =
      (match deltaTime op with
        | some deltaTime => es.filterMap (engine.advance deltaTime)
        | none => es).filterMap (lasting engine (ops.filterMap deltaTime)) := by
  cases hop : deltaTime op with
  | none => rw [List.filterMap_cons_none hop]
  | some dt =>
    rw [List.filterMap_cons_some hop, List.filterMap_filterMap]
    rfl

theorem Cast.signEffects_step (h : Cast times s) (op : Op P) :
    (SignsSystem.step engine s op).signEffects =
      (match deltaTime op with
        | some deltaTime => s.signEffects.filterMap (engine.advance deltaTime)
        | none => s.signEffects) ++ effects engine s op := by
  cases op with
  | initializeSystem =>
    have hdone : s.initializeSystem = s := if_pos h.isInitialized
    rw [SignsSystem.step, hdone]
    exact (List.append_nil _).symm
  | castSign player signType intensity currentTime =>
    rw [SignsSystem.step, effects]
    by_cases hready : Ready s times player (signType, intensity) currentTime
    · rw [h.castSign_of_ready hready]
      rfl
    · rw [h.castSign_of_not_ready hready]
      exact (List.append_nil _).symm
  | update deltaTime =>
    rw [SignsSystem.step, updateSigns, if_neg (not_not.mpr h.isInitialized), updateActiveEffects,
      Sweeps.sweep_eq_filterMap]
    exact (List.append_nil _).symm
  | setCurrentStamina player stamina => exact (List.append_nil _).symm

theorem Cast.signEffects_run (h : Cast times s) (ops : List (Op P)) :
    (Run.run (SignsSystem.step engine) s ops).signEffects =
      s.signEffects.filterMap (lasting engine (ops.filterMap deltaTime)) ++
        (effectsOf engine s ops).filterMap fun e => lasting engine e.2 e.1 := by
  induction ops generalizing s times with
  | nil => exact List.filterMap_some.symm.trans (List.append_nil _).symm
  | cons op ops ih =>
    rw [Run.run, ih (h.step op), h.signEffects_step, filterMap_lasting, effectsOf, List.filterMap_append,
      List.filterMap_append, List.filterMap_map, List.append_assoc]
    rfl

end Effects

/-- Over every run the effects are, in the order of the casts that made them, those which every update
since found active, and each was updated once by each of these. -/
theorem effects_run [DecidableEq P] (engine : EffectSystem E) (stamina : P → ℚ) (ops : List (Op P)) :
    (after engine stamina ops).signEffects =
      (effectsOf engine ({ currentStamina := stamina } : SignsSystem P E).initializeSystem
        ops).filterMap fun e => lasting engine e.2 e.1 :=
  (cast_initial stamina).signEffects_run ops

end SignsSystem
end WitcherMP.Signs
