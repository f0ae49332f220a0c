import WitcherMP.Lib.Run
import Mathlib.Algebra.BigOperators.Group.List.Basic
import Mathlib.Algebra.Order.Field.Rat
import Mathlib.Logic.Function.Basic
import Mathlib.Tactic.Linarith

/-! The combat of the scripts: a table of attacks for all weapons, what they cost in stamina and
whom they hit. Entities, places and the systems of the game belong to the engine, which answers anew
at every call. Sequences of attacks, which nothing starts, and log lines are left out. -/

namespace WitcherMP.Fights

inductive WitcherWeaponType
  | none | steelSword | silverSword | crossbow | dagger | axe | mace | spear
deriving DecidableEq

inductive AttackType
  | light | heavy | strong | fast | combo | finisher
deriving DecidableEq

inductive DefenseType
  | none | block | parry | dodge | roll | counter
deriving DecidableEq

structure CombatAction where
  actionType : AttackType
  weaponType : WitcherWeaponType
  damage : ℚ := 0
  staminaCost : ℚ := 0
  range : ℚ := 0
  speed : ℚ := 0
  criticalChance : ℚ := 0
  criticalMultiplier : ℚ := 0
  isCombo : Bool := false
  comboStep : ℤ := 0
deriving DecidableEq

namespace CombatAction

def adjustForWeaponType (a : CombatAction) : CombatAction :=
  match a.weaponType with
  | .none => a
  | .steelSword => { a with damage := a.damage * 1, speed := a.speed * 1, range := a.range * 1 }
  | .silverSword => { a with
    damage := a.damage * (12 / 10), speed := a.speed * (9 / 10), range := a.range * (11 / 10) }
  | .crossbow => { a with
    damage := a.damage * (8 / 10), speed := a.speed * (15 / 10), range := a.range * 3 }
  | .dagger => { a with
    damage := a.damage * (6 / 10), speed := a.speed * (13 / 10), range := a.range * (7 / 10)
    criticalChance := a.criticalChance * (15 / 10) }
  | .axe => { a with
    damage := a.damage * (13 / 10), speed := a.speed * (8 / 10), range := a.range * (12 / 10) }
  | .mace => { a with
    damage := a.damage * (14 / 10), speed := a.speed * (7 / 10), range := a.range * (11 / 10) }
  | .spear => { a with
    damage := a.damage * (11 / 10), speed := a.speed * (11 / 10), range := a.range * (18 / 10) }

def setActionProperties (a : CombatAction) : CombatAction :=
  let a := match a.actionType with
    | .light => { a with
      damage := 25, staminaCost := 10, range := 2, speed := 1
      criticalChance := 1 / 10, criticalMultiplier := 15 / 10 }
    | .heavy => { a with
      damage := 45, staminaCost := 20, range := 25 / 10, speed := 7 / 10
      criticalChance := 15 / 100, criticalMultiplier := 2 }
    | .strong => { a with
      damage := 60, staminaCost := 30, range := 3, speed := 5 / 10
      criticalChance := 2 / 10, criticalMultiplier := 25 / 10 }
    | .fast => { a with
      damage := 15, staminaCost := 5, range := 15 / 10, speed := 15 / 10
      criticalChance := 5 / 100, criticalMultiplier := 12 / 10 }
    | .combo => { a with
      damage := 35, staminaCost := 15, range := 2, speed := 12 / 10
      criticalChance := 12 / 100, criticalMultiplier := 18 / 10, isCombo := true }
    | .finisher => { a with
      damage := 80, staminaCost := 40, range := 2, speed := 8 / 10
      criticalChance := 3 / 10, criticalMultiplier := 3 }
  a.adjustForWeaponType

def ofType (attackType : AttackType) (weaponType : WitcherWeaponType) : CombatAction :=
  ({ actionType := attackType, weaponType := weaponType } : CombatAction).setActionProperties

end CombatAction

structure DefenseAction where
  defenseType : DefenseType
  successChance : ℚ := 8 / 10
  staminaCost : ℚ := 15

inductive GameSystem
  | animation | entity | combat | effect | buff | server
deriving DecidableEq

/-- What the engine answers during a call. -/
structure Game (E V : Type*) where
  there : GameSystem → Bool
  getWorldPosition : E → V
  distance : V → V → ℚ
  /-- One that has gone is not defined any more. -/
  getEntitiesAtPosition : V → ℚ → List (Option E)
  isNPCPuppet : E → Bool
  isPlayer : E → Bool
  isHostile : E → Bool
  isNeutral : E → Bool
  isMonster : E → Bool
  /-- The random number that is drawn. -/
  randF : ℚ

inductive GameCall (E V : Type*)
  | playAnimation (entity : E) (name : String) (speed : ℚ)
  | dealDamage (target : E) (damage : ℚ)
  | createEffect (name : String) (position : V)
  | addBuff (target : E) (name : String) (duration : ℚ)
  | notifyAttack (player : E) (attackType : AttackType) (weaponType : WitcherWeaponType)
      (position : V) (hit : Bool)
  | notifyDefense (player : E) (defenseType : DefenseType) (success : Bool)
deriving DecidableEq

structure CombatSystem (E V : Type*) where
  combatActions : List CombatAction := []
  isInitialized : Bool := false
  currentStamina : E → ℚ
  calls : List (GameCall E V) := []

namespace CombatSystem
variable {E V : Type*}

def weaponTypes : List WitcherWeaponType :=
  [.steelSword, .silverSword, .crossbow, .dagger, .axe, .mace, .spear]

def attackTypes : List AttackType := [.light, .heavy, .strong, .fast, .combo, .finisher]

def initializeCombatActions (s : CombatSystem E V) : CombatSystem E V :=
  { s with
    combatActions := s.combatActions ++
      weaponTypes.flatMap fun weapon => attackTypes.map fun attack => .ofType attack weapon }

def initializeSystem (s : CombatSystem E V) : CombatSystem E V :=
  if s.isInitialized then s else { s.initializeCombatActions with isInitialized := true }

def getCombatAction (s : CombatSystem E V) (attackType : AttackType)
    (weaponType : WitcherWeaponType) : Option CombatAction :=
  s.combatActions.find? fun action =>
    action.actionType = attackType ∧ action.weaponType = weaponType

def getAttackAnimationName : AttackType → String
  | .light => "attack_light"
  | .heavy => "attack_heavy"
  | .strong => "attack_strong"
  | .fast => "attack_fast"
  | .combo => "attack_combo"
  | .finisher => "attack_finisher"

def getDefenseAnimationName : DefenseType → String
  | .block => "defense_block"
  | .parry => "defense_parry"
  | .dodge => "defense_dodge"
  | .roll => "defense_roll"
  | .counter => "defense_counter"
  | .none => "defense_block"

section Calls
variable [DecidableEq E] (game : Game E V)

/-- A call to a system of the game, if it is there. -/
def call (s : CombatSystem E V) (system : GameSystem) (c : GameCall E V) : CombatSystem E V :=
  if game.there system then { s with calls := s.calls ++ [c] } else s

def canHitEntity (entity : E) : Bool :=
  if game.isNPCPuppet entity then game.isHostile entity || game.isNeutral entity
  else game.isPlayer entity

def checkHit (player : E) (action : CombatAction) (targetPosition : V) : Option E :=
  if game.distance (game.getWorldPosition player) targetPosition > action.range then none
  else if ¬ game.there .entity then none
  else (game.getEntitiesAtPosition targetPosition 1).findSome? fun entity =>
    entity.filter fun entity => entity ≠ player ∧ canHitEntity game entity

def checkCriticalHit (action : CombatAction) : Bool := game.randF ≤ action.criticalChance

def finalDamage (action : CombatAction) : ℚ :=
  if checkCriticalHit game action then action.damage * action.criticalMultiplier else action.damage

def applySilverSwordEffects (s : CombatSystem E V) (target : E) : CombatSystem E V :=
  if game.isNPCPuppet target && game.isMonster target then
    s.call game .buff (.addBuff target "silver_sword_damage_buff" 5)
  else s

def applyCrossbowEffects (s : CombatSystem E V) (target : E) : CombatSystem E V :=
  s.call game .buff (.addBuff target "crossbow_piercing_buff" 3)

def applyDaggerEffects (s : CombatSystem E V) (target : E) : CombatSystem E V :=
  s.call game .buff (.addBuff target "dagger_bleeding_buff" 10)

def applyWeaponEffects (s : CombatSystem E V) (target : E) (weaponType : WitcherWeaponType) :
    CombatSystem E V :=
  match weaponType with
  | .silverSword => s.applySilverSwordEffects game target
  | .crossbow => s.applyCrossbowEffects game target
  | .dagger => s.applyDaggerEffects game target
  | _ => s

def applyHitEffects (s : CombatSystem E V) (target : E) (action : CombatAction)
    (criticalHit : Bool) : CombatSystem E V :=
  let effectName := if criticalHit then "hit_critical_effect" else "hit_normal_effect"
  let s := s.call game .effect (.createEffect effectName (game.getWorldPosition target))
  s.applyWeaponEffects game target action.weaponType

def processHit (s : CombatSystem E V) (target : E) (action : CombatAction) : CombatSystem E V :=
  let criticalHit := checkCriticalHit game action
  let s := s.call game .combat (.dealDamage target (finalDamage game action))
  s.applyHitEffects game target action criticalHit

def playAttackAnimation (s : CombatSystem E V) (player : E) (action : CombatAction) :
    CombatSystem E V :=
  s.call game .animation
    (.playAnimation player (getAttackAnimationName action.actionType) action.speed)

def executeAttack (s : CombatSystem E V) (player : E) (attackType : AttackType)
    (weaponType : WitcherWeaponType) (targetPosition : V) : Bool × CombatSystem E V :=
  match s.getCombatAction attackType weaponType with
  | none => (false, s)
  | some action =>
    let currentStamina := s.currentStamina player
    if currentStamina < action.staminaCost then (false, s)
    else
      let s := { s with
        currentStamina := Function.update s.currentStamina player
          (currentStamina - action.staminaCost) }
      let s := s.playAttackAnimation game player action
      let hitTarget := checkHit game player action targetPosition
      let s := match hitTarget with
        | some target => s.processHit game target action
        | none => s
      (true, s.call game .server
        (.notifyAttack player action.actionType action.weaponType targetPosition hitTarget.isSome))

def getDefenseAction (_ : DefenseType) : Option DefenseAction := none

def checkDefenseSuccess (_ : DefenseAction) (_ : CombatAction) : Bool := game.randF > 1 / 2

def executeDefense (s : CombatSystem E V) (player : E) (defenseType : DefenseType)
    (incomingAttack : CombatAction) : Bool × CombatSystem E V :=
  match getDefenseAction defenseType with
  | none => (false, s)
  | some defenseAction =>
    let success := checkDefenseSuccess game defenseAction incomingAttack
    if success then
      let s := s.call game .animation
        (.playAnimation player (getDefenseAnimationName defenseType) 1)
      (success, s.call game .server (.notifyDefense player defenseType true))
    else (success, s)

end Calls

inductive Op (E V : Type*)
  | initializeSystem
  | executeAttack (game : Game E V) (player : E) (attackType : AttackType)
      (weaponType : WitcherWeaponType) (targetPosition : V)
  | executeDefense (game : Game E V) (player : E) (defenseType : DefenseType)
      (incomingAttack : CombatAction)
  /-- The engine changes the stamina of a player. -/
  | changeStamina (player : E) (amount : ℚ)

variable [DecidableEq E]

def step (s : CombatSystem E V) : Op E V → CombatSystem E V
  | .initializeSystem => s.initializeSystem
  | .executeAttack game player attackType weaponType targetPosition =>
    (s.executeAttack game player attackType weaponType targetPosition).2
  | .executeDefense game player defenseType incomingAttack =>
    (s.executeDefense game player defenseType incomingAttack).2
  | .changeStamina player amount =>
    { s with
      currentStamina := Function.update s.currentStamina player (s.currentStamina player + amount) }

structure Attack (E : Type*) where
  player : E
  action : CombatAction
  dealt : Option (E × ℚ)

def dealt (game : Game E V) (player : E) (action : CombatAction) (targetPosition : V) :
    Option (E × ℚ) :=
  if game.there .combat then
    (checkHit game player action targetPosition).map fun target => (target, finalDamage game action)
  else none

def attack (s : CombatSystem E V) : Op E V → Option (Attack E)
  | .executeAttack game player attackType weaponType targetPosition =>
    if (s.executeAttack game player attackType weaponType targetPosition).1 then
      some ⟨player, .ofType attackType weaponType,
        dealt game player (.ofType attackType weaponType) targetPosition⟩
    else none
  | _ => none

def allActions : List CombatAction :=
  weaponTypes.flatMap fun weapon => attackTypes.map fun attack => .ofType attack weapon

def damage : GameCall E V → Option (E × ℚ)
  | .dealDamage target damage => some (target, damage)
  | _ => none

structure Tells (ds : List (E × ℚ)) (s s' : CombatSystem E V) : Prop where
  same : s' = { s with calls := s'.calls }
  calls : s'.calls.filterMap damage = s.calls.filterMap damage ++ ds

section Steps
variable {game : Game E V} {s t u : CombatSystem E V} {ds ds' : List (E × ℚ)} {player target : E}
  {attackType : AttackType} {weaponType : WitcherWeaponType} {targetPosition : V} {op : Op E V}
  {a : Attack E} {as bs : List (Attack E)} {change change' : E → ℚ}

omit [DecidableEq E] in
theorem Tells.refl (s : CombatSystem E V) : Tells [] s s := ⟨rfl, (List.append_nil _).symm⟩

omit [DecidableEq E] in
theorem Tells.trans (h : Tells ds s t) (h' : Tells ds' t u) : Tells (ds ++ ds') s u where
  same := by
    rw [h'.same, h.same]
  calls := by rw [h'.calls, h.calls, List.append_assoc]

omit [DecidableEq E] in
theorem tells_call (game : Game E V) (s : CombatSystem E V) (system : GameSystem)
    (c : GameCall E V) :
    Tells (if game.there system then (damage c).toList else []) s (s.call game system c) := by
  rw [call]
  split_ifs
  · refine ⟨rfl, ?_⟩
    rw [List.filterMap_append]
    cases hc : damage c <;> simp [hc]
  · exact .refl s

omit [DecidableEq E] in
theorem tells_nothing (game : Game E V) (s : CombatSystem E V) (system : GameSystem)
    {c : GameCall E V} (hc : damage c = none) : Tells [] s (s.call game system c) := by
  have h := tells_call game s system c
  rwa [hc, Option.toList_none, ite_self] at h

omit [DecidableEq E] in
theorem tells_applyWeaponEffects (game : Game E V) (s : CombatSystem E V) (target : E)
    (weaponType : WitcherWeaponType) :
    Tells [] s (s.applyWeaponEffects game target weaponType) := by
  cases weaponType with
  | silverSword =>
    rw [applyWeaponEffects, applySilverSwordEffects]
    split_ifs
    · exact tells_nothing game s .buff rfl
    · exact .refl s
  | crossbow => exact tells_nothing game s .buff rfl
  | dagger => exact tells_nothing game s .buff rfl
  | _ => exact .refl s

omit [DecidableEq E] in
theorem tells_applyHitEffects (game : Game E V) (s : CombatSystem E V) (target : E)
    (action : CombatAction) (criticalHit : Bool) :
    Tells [] s (s.applyHitEffects game target action criticalHit) := by
  have heffect : Tells [] s (s.call game .effect (.createEffect
      (if criticalHit then "hit_critical_effect" else "hit_normal_effect")
      (game.getWorldPosition target))) := tells_nothing game s .effect rfl
  exact heffect.trans (tells_applyWeaponEffects game _ target action.weaponType)

omit [DecidableEq E] in
theorem tells_processHit (game : Game E V) (s : CombatSystem E V) (target : E)
    (action : CombatAction) :
    Tells (if game.there .combat then [(target, finalDamage game action)] else []) s
      (s.processHit game target action) := by
  have hdeal := tells_call game s .combat (.dealDamage target (finalDamage game action))
  have heffects := tells_applyHitEffects game
    (s.call game .combat (.dealDamage target (finalDamage game action))) target action
    (checkCriticalHit game action)
  have h := hdeal.trans heffects
  rwa [List.append_nil] at h

def Stocked (s : CombatSystem E V) : Prop :=
  s.combatActions = if s.isInitialized then allActions else []

omit [DecidableEq E] in
theorem find?_allActions (attackType : AttackType) (weaponType : WitcherWeaponType) :
    (allActions.find? fun action =>
      action.actionType = attackType ∧ action.weaponType = weaponType) =
      if weaponType = .none then none else some (.ofType attackType weaponType) := by
  cases weaponType <;> cases attackType <;> decide +kernel

omit [DecidableEq E] in
theorem Stocked.getCombatAction (h : Stocked s) (attackType : AttackType)
    (weaponType : WitcherWeaponType) : s.getCombatAction attackType weaponType =
      if s.isInitialized = true ∧ weaponType ≠ .none then some (.ofType attackType weaponType)
      else none := by
  rw [CombatSystem.getCombatAction, h]
  cases hinit : s.isInitialized with
  | false => rw [if_neg Bool.false_ne_true, if_neg (by simp)]; rfl
  | true =>
    rw [if_pos rfl, find?_allActions]
    split_ifs <;> simp_all

def Ready (s : CombatSystem E V) (player : E) (attackType : AttackType)
    (weaponType : WitcherWeaponType) : Prop :=
  s.isInitialized = true ∧ weaponType ≠ .none ∧
    (CombatAction.ofType attackType weaponType).staminaCost ≤ s.currentStamina player

def paid (s : CombatSystem E V) (player : E) (action : CombatAction) : CombatSystem E V :=
  { s with
    currentStamina := Function.update s.currentStamina player
      (s.currentStamina player - action.staminaCost) }

theorem Stocked.executeAttack_of_not_ready (h : Stocked s)
    (hready : ¬ Ready s player attackType weaponType) :
    s.executeAttack game player attackType weaponType targetPosition = (false, s) := by
  rw [executeAttack, h.getCombatAction]
  by_cases hknown : s.isInitialized = true ∧ weaponType ≠ .none
  · rw [if_pos hknown]
    exact if_pos (not_le.mp fun hle => hready ⟨hknown.1, hknown.2, hle⟩)
  · rw [if_neg hknown]

theorem Stocked.executeAttack_of_ready (h : Stocked s) (game : Game E V) (targetPosition : V)
    (hready : Ready s player attackType weaponType) :
    (s.executeAttack game player attackType weaponType targetPosition).1 = true ∧
      Tells (dealt game player (.ofType attackType weaponType) targetPosition).toList
        (s.paid player (.ofType attackType weaponType))
        (s.executeAttack game player attackType weaponType targetPosition).2 := by
  have hanimation (t : CombatSystem E V) (action : CombatAction) :
      Tells [] t (t.playAttackAnimation game player action) := tells_nothing game t .animation rfl
  have hnotify (t : CombatSystem E V) (action : CombatAction) (hit : Bool) : Tells [] t (t.call game
      .server (.notifyAttack player action.actionType action.weaponType targetPosition hit)) :=
    tells_nothing game t .server rfl
  have hcost := not_lt.mpr hready.2.2
  rw [executeAttack, h.getCombatAction, if_pos ⟨hready.1, hready.2.1⟩]
  dsimp only
  rw [if_neg hcost]
  refine ⟨rfl, ?_⟩
  generalize CombatAction.ofType attackType weaponType = action
  dsimp only
  rw [dealt]
  cases checkHit game player action targetPosition with
  | none =>
    have htells := (hanimation (s.paid player action) action).trans (hnotify _ action false)
    rw [Option.map_none, ite_self]
    exact htells
  | some target =>
    have htells := (hanimation (s.paid player action) action).trans
      ((tells_processHit game _ target action).trans (hnotify _ action true))
    rw [List.nil_append, List.append_nil] at htells
    rw [Option.map_some, apply_ite Option.toList]
    exact htells

theorem Stocked.executeAttack_iff (h : Stocked s) :
    (s.executeAttack game player attackType weaponType targetPosition).1 = true ↔
      Ready s player attackType weaponType := by
  by_cases hready : Ready s player attackType weaponType
  · exact iff_of_true (h.executeAttack_of_ready game targetPosition hready).1 hready
  · rw [h.executeAttack_of_not_ready hready]
    exact iff_of_false Bool.false_ne_true hready

theorem Stocked.attack_executeAttack (h : Stocked s) :
    attack s (.executeAttack game player attackType weaponType targetPosition) = some a ↔
      Ready s player attackType weaponType ∧ a = ⟨player, .ofType attackType weaponType,
        dealt game player (.ofType attackType weaponType) targetPosition⟩ := by
  rw [attack, Option.ite_none_right_eq_some, h.executeAttack_iff, Option.some.injEq, eq_comm]

omit [DecidableEq E] in
theorem executeDefense_fails (s : CombatSystem E V) (player : E) (defenseType : DefenseType)
    (incomingAttack : CombatAction) :
    s.executeDefense game player defenseType incomingAttack = (false, s) := rfl

theorem stocked_step (h : Stocked s) (op : Op E V) : Stocked (step s op) ∧
    ((step s op).isInitialized = true ↔ op = .initializeSystem ∨ s.isInitialized = true) := by
  cases op with
  | initializeSystem =>
    rw [step, initializeSystem]
    split_ifs with hinit
    · exact ⟨h, iff_of_true hinit (Or.inl rfl)⟩
    · refine ⟨?_, iff_of_true rfl (Or.inl rfl)⟩
      have hnone : s.combatActions = [] := by rw [h, if_neg hinit]
      rw [Stocked, initializeCombatActions, hnone]
      rfl
  | executeAttack game player attackType weaponType targetPosition =>
    rw [step]
    by_cases hready : Ready s player attackType weaponType
    · rw [(h.executeAttack_of_ready game targetPosition hready).2.same]
      exact ⟨h, by simp [paid]⟩
    · rw [h.executeAttack_of_not_ready hready]
      exact ⟨h, by simp⟩
  | executeDefense game player defenseType incomingAttack =>
    rw [step, executeDefense_fails]
    exact ⟨h, by simp⟩
  | changeStamina player amount => exact ⟨h, by simp [step]⟩

def spent (player : E) (as : List (Attack E)) : ℚ :=
  ((as.filter (·.player = player)).map (·.action.staminaCost)).sum

def changed (player : E) : Op E V → ℚ
  | .changeStamina other amount => if other = player then amount else 0
  | _ => 0

structure Fought (as : List (Attack E)) (change : E → ℚ) (s s' : CombatSystem E V) : Prop where
  stamina : ∀ player, s'.currentStamina player + spent player as =
    s.currentStamina player + change player
  calls : s'.calls.filterMap damage = s.calls.filterMap damage ++ as.filterMap Attack.dealt

theorem spent_append (player : E) (as bs : List (Attack E)) :
    spent player (as ++ bs) = spent player as + spent player bs := by
  rw [spent, List.filter_append, List.map_append, List.sum_append]
  rfl

theorem Fought.refl (s : CombatSystem E V) : Fought [] (fun _ => 0) s s where
  stamina _ := rfl
  calls := (List.append_nil _).symm

theorem Fought.trans (h : Fought as change s t) (h' : Fought bs change' t u) :
    Fought (as ++ bs) (fun player => change player + change' player) s u where
  stamina player := by
    have hfirst := h.stamina player
    have hsecond := h'.stamina player
    rw [spent_append]
    linarith
  calls := by rw [h'.calls, h.calls, List.filterMap_append, List.append_assoc]

theorem Stocked.fought_executeAttack (h : Stocked s) :
    Fought (attack s (.executeAttack game player attackType weaponType targetPosition)).toList
      (fun _ => 0) s (s.executeAttack game player attackType weaponType targetPosition).2 := by
  by_cases hready : Ready s player attackType weaponType
  · have hattack : attack s (.executeAttack game player attackType weaponType targetPosition) =
        some ⟨player, .ofType attackType weaponType,
          dealt game player (.ofType attackType weaponType) targetPosition⟩ :=
      h.attack_executeAttack.mpr ⟨hready, rfl⟩
    rw [hattack, Option.toList_some]
    obtain ⟨-, htells⟩ := h.executeAttack_of_ready game targetPosition hready
    refine ⟨fun other => ?_, ?_⟩
    · rw [htells.same]
      by_cases hother : player = other
      · subst hother
        simp [paid, spent]
      · simp [paid, spent, hother, Function.update_of_ne (Ne.symm hother)]
    · rw [htells.calls, paid]
      cases dealt game player (.ofType attackType weaponType) targetPosition <;> simp
  · rw [attack, h.executeAttack_of_not_ready hready, if_neg Bool.false_ne_true]
    exact .refl s

theorem Stocked.fought_step (h : Stocked s) (op : Op E V) :
    Fought (attack s op).toList (fun player => changed player op) s (step s op) := by
  cases op with
  | initializeSystem =>
    rw [step, initializeSystem]
    split_ifs
    · exact .refl s
    · exact ⟨fun _ => rfl, (List.append_nil _).symm⟩
  | executeAttack game player attackType weaponType targetPosition => exact h.fought_executeAttack
  | executeDefense game player defenseType incomingAttack => exact .refl s
  | changeStamina player amount =>
    refine ⟨fun other => ?_, (List.append_nil _).symm⟩
    by_cases hother : player = other
    · subst hother
      simp [step, changed, spent, attack]
    · simp [step, changed, spent, attack, hother, Function.update_of_ne (Ne.symm hother)]

theorem Stocked.fought_run (h : Stocked s) (ops : List (Op E V)) :
    Stocked (Run.run step s ops) ∧
      ((Run.run step s ops).isInitialized = true ↔
        Op.initializeSystem ∈ ops ∨ s.isInitialized = true) ∧
      Fought (Run.gather step attack s ops) (fun player => (ops.map (changed player)).sum) s
        (Run.run step s ops) := by
  induction ops generalizing s with
  | nil => exact ⟨h, by simp [Run.run], .refl s⟩
  | cons op ops ih =>
    obtain ⟨hnext, hinit⟩ := stocked_step h op
    obtain ⟨hstocked, hrun, hfought⟩ := ih hnext
    refine ⟨hstocked, ?_, ?_⟩
    · rw [Run.run, hrun, hinit, List.mem_cons, eq_comm (a := op), or_left_comm, or_assoc]
    · simp only [List.map_cons, List.sum_cons]
      exact (h.fought_step op).trans hfought

/-- It spares the attacker, and deals no more than a finisher with a mace does for what it costs. -/
structure Attack.Fair (a : Attack E) : Prop where
  cost_pos : 0 < a.action.staminaCost
  spares : ∀ hit ∈ a.dealt, hit.1 ≠ a.player
  pos : ∀ hit ∈ a.dealt, 0 < hit.2
  bounded : ∀ hit ∈ a.dealt, hit.2 ≤ 42 / 5 * a.action.staminaCost

omit [DecidableEq E] in
theorem ofType_bounds (attackType : AttackType) (weaponType : WitcherWeaponType) :
    let action := CombatAction.ofType attackType weaponType
    0 < action.staminaCost ∧ 0 < action.damage ∧ 0 < action.damage * action.criticalMultiplier ∧
      action.damage ≤ 42 / 5 * action.staminaCost ∧
      action.damage * action.criticalMultiplier ≤ 42 / 5 * action.staminaCost := by
  cases weaponType <;> cases attackType <;> decide +kernel

theorem ne_of_checkHit {action : CombatAction}
    (h : checkHit game player action targetPosition = some target) : target ≠ player := by
  rw [checkHit] at h
  split_ifs at h
  obtain ⟨entity, -, hentity⟩ := List.exists_of_findSome?_eq_some h
  have hok := (Option.filter_eq_some_iff.mp hentity).2
  exact (of_decide_eq_true hok).1

theorem fair_of_attack (h : attack s op = some a) : a.Fair := by
  cases op with
  | executeAttack game player attackType weaponType targetPosition =>
    rw [attack, Option.ite_none_right_eq_some, Option.some.injEq] at h
    obtain ⟨-, rfl⟩ := h
    obtain ⟨hcost, hpos, hcritical, hle, hcriticalLe⟩ := ofType_bounds attackType weaponType
    have hdealt : ∀ hit ∈ dealt game player (.ofType attackType weaponType) targetPosition,
        hit.1 ≠ player ∧ hit.2 = finalDamage game (.ofType attackType weaponType) := by
      intro hit hmem
      rw [dealt] at hmem
      split_ifs at hmem
      · obtain ⟨target, htarget, rfl⟩ := Option.map_eq_some_iff.mp hmem
        exact ⟨ne_of_checkHit htarget, rfl⟩
      · cases hmem
    refine ⟨hcost, fun hit hmem => (hdealt hit hmem).1, fun hit hmem => ?_, fun hit hmem => ?_⟩
    · rw [(hdealt hit hmem).2, finalDamage]
      split_ifs
      · exact hcritical
      · exact hpos
    · rw [(hdealt hit hmem).2, finalDamage]
      split_ifs
      · exact hcriticalLe
      · exact hle
  | _ => cases h

theorem fair_of_mem_gather (ops : List (Op E V)) :
    ∀ a ∈ Run.gather step attack s ops, a.Fair := by
  induction ops generalizing s with
  | nil => exact fun a ha => absurd ha List.not_mem_nil
  | cons op ops ih =>
    intro a ha
    rcases List.mem_append.mp ha with hfirst | hrest
    · exact fair_of_attack (Option.mem_toList.mp hfirst)
    · exact ih a hrest

omit [DecidableEq E] in
theorem sum_dealt_le (h : ∀ a ∈ as, a.Fair) :
    ((as.filterMap Attack.dealt).map Prod.snd).sum ≤
      42 / 5 * (as.map (·.action.staminaCost)).sum := by
  induction as with
  | nil => simp
  | cons a as ih =>
    obtain ⟨ha, has⟩ := List.forall_mem_cons.mp h
    have hrest := ih has
    have hcost := ha.cost_pos
    rw [List.map_cons, List.sum_cons]
    cases hdealt : a.dealt with
    | none =>
      rw [List.filterMap_cons_none hdealt]
      linarith
    | some hit =>
      have hle := ha.bounded hit hdealt
      rw [List.filterMap_cons_some hdealt, List.map_cons, List.sum_cons]
      linarith

end Steps

section Runs
variable (stamina : E → ℚ) (ops : List (Op E V))

def after : CombatSystem E V := Run.run step { currentStamina := stamina } ops

def attacks : List (Attack E) :=
  Run.gather step attack ({ currentStamina := stamina } : CombatSystem E V) ops

/-- After every run an attack is made exactly if the system was initialized, the player fights with
a weapon, and what the player had at first and was given since, less the costs of the player's own
attacks, comes to the cost. -/
theorem executeAttack_run (game : Game E V) (player : E) (attackType : AttackType)
    (weaponType : WitcherWeaponType) (targetPosition : V) :
    ((after stamina ops).executeAttack game player attackType weaponType targetPosition).1 = true ↔
      Op.initializeSystem ∈ ops ∧ weaponType ≠ .none ∧
        (CombatAction.ofType attackType weaponType).staminaCost +
            spent player (attacks stamina ops) ≤ stamina player + (ops.map (changed player)).sum := by
  have hfresh : Stocked ({ currentStamina := stamina } : CombatSystem E V) := rfl
  obtain ⟨hstocked, hinit, hfought⟩ := hfresh.fought_run ops
  have hstamina := hfought.stamina player
  rw [after, attacks, hstocked.executeAttack_iff, Ready, hinit, or_iff_left Bool.false_ne_true,
    ← hstamina, add_le_add_iff_right]

/-- Over every run the game is told of the damage that the attacks deal and of no other: it never
falls on the attacker, and all of it comes to at most 42/5 of the stamina spent. -/
theorem hits_run :
    ((after stamina ops).calls.filterMap damage) = (attacks stamina ops).filterMap Attack.dealt ∧
      (∀ a ∈ attacks stamina ops, ∀ hit ∈ a.dealt, hit.1 ≠ a.player ∧ 0 < hit.2) ∧
      (((after stamina ops).calls.filterMap damage).map Prod.snd).sum ≤
        42 / 5 * ((attacks stamina ops).map (·.action.staminaCost)).sum := by
  have hfresh : Stocked ({ currentStamina := stamina } : CombatSystem E V) := rfl
  obtain ⟨-, -, hfought⟩ := hfresh.fought_run ops
  have hcalls : (after stamina ops).calls.filterMap damage =
      (attacks stamina ops).filterMap Attack.dealt := hfought.calls
  have hfair := fair_of_mem_gather (s := { currentStamina := stamina }) ops
  refine ⟨hcalls, fun a ha hit hhit => ?_, ?_⟩
  · exact ⟨(hfair a ha).spares hit hhit, (hfair a ha).pos hit hhit⟩
  · rw [hcalls]
    exact sum_dealt_le hfair

end Runs

end CombatSystem
end WitcherMP.Fights
