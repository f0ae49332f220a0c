import WitcherMP.Monsters.Steady

/-! The life of a monster: it is dead exactly when it has no health left, and stays so until it
is taken off the table. -/

namespace WitcherMP.Monsters
namespace SyncedMonsterAI

section Writes
variable (s : SyncedMonsterAI) (m m' : UInt32)

theorem getMonster_modifyMonster (f : MonsterAIData → MonsterAIData) :
    (s.modifyMonster m f).getMonster m'
      = if m = m' then (s.getMonster m').map f else s.getMonster m' := by
  unfold modifyMonster
  cases h : s.getMonster m with
  | none =>
    split_ifs with hm
    · rw [← hm, h, Option.map_none]
    · rfl
  | some monster =>
    dsimp only
    rw [getMonster_setMonster]
    split_ifs with hm
    · rw [← hm, h, Option.map_some]
    · rfl

def entering (newState : MonsterAIState) (now : ℚ) (monster : MonsterAIData) : MonsterAIData :=
  if monster.currentState = newState then monster
  else { monster with
    previousState := monster.currentState, currentState := newState
    lastStateChange := now, needsSync := true }

theorem changeMonsterState_eq (newState : MonsterAIState) (now : ℚ) :
    ∃ stats, s.changeMonsterState m newState now
      = { s.modifyMonster m (entering newState now) with stats := stats } := by
  unfold changeMonsterState modifyMonster
  cases h : s.getMonster m with
  | none => exact ⟨s.stats, rfl⟩
  | some monster =>
    dsimp only
    rw [entering]
    split_ifs with hstate hkind
    · rw [setMonster, OrdMap.insert_of_find? h]
      exact ⟨s.stats, rfl⟩
    · exact ⟨_, rfl⟩
    · exact ⟨_, rfl⟩

theorem getMonster_changeMonsterState (newState : MonsterAIState) (now : ℚ) :
    (s.changeMonsterState m newState now).getMonster m'
      = if m = m' then (s.getMonster m').map (entering newState now) else s.getMonster m' := by
  obtain ⟨stats, h⟩ := s.changeMonsterState_eq m newState now
  rw [h]
  exact s.getMonster_modifyMonster m m' _

theorem health_entering (newState : MonsterAIState) (now : ℚ) (monster : MonsterAIData) :
    (entering newState now monster).health = monster.health := by
  unfold entering
  split_ifs <;> rfl

theorem currentState_entering (newState : MonsterAIState) (now : ℚ) (monster : MonsterAIData) :
    (entering newState now monster).currentState = newState := by
  unfold entering
  split_ifs with h
  · exact h
  · rfl

end Writes

structure Struck (s : SyncedMonsterAI) (m : UInt32) (monster : MonsterAIData) (damage : ℚ)
    (r : SyncedMonsterAI × Bool) (monster' : MonsterAIData) : Prop where
  get : ∀ m', r.1.getMonster m' = if m = m' then some monster' else s.getMonster m'
  health : monster'.health = max 0 (monster.health - damage)
  dead : monster'.currentState = .dead ↔ monster.currentState = .dead ∨ monster.health ≤ damage
  reported : r.2 = true ↔ monster.health ≤ damage

theorem onPlayerAttack_none {s : SyncedMonsterAI} {m : UInt32} (h : s.getMonster m = none)
    (p : UInt32) (damage now : ℚ) : s.onPlayerAttack p m damage now = (s, false) := by
  unfold onPlayerAttack
  rw [h]

theorem onPlayerAttack_spec {s : SyncedMonsterAI} {m : UInt32} {monster : MonsterAIData}
    (h : s.getMonster m = some monster) (p : UInt32) (damage now : ℚ) :
    ∃ monster', Struck s m monster damage (s.onPlayerAttack p m damage now) monster' := by
  have hzero : max 0 (monster.health - damage) ≤ 0 ↔ monster.health ≤ damage := by
    rw [max_le_iff, sub_nonpos]
    exact and_iff_right le_rfl
  unfold onPlayerAttack
  rw [h]
  dsimp only
  generalize (if monster.threatList.contains p then _ else _) = threats
  let hurt : MonsterAIData := { monster with
    health := max 0 (monster.health - damage), threatList := threats
    targetPlayerId := p, needsSync := true }
  let roused := if monster.currentState = .idle ∨ monster.currentState = .patrolling
    then entering .aggressive now hurt else hurt
  generalize hs₁ : (s.setMonster m { monster with
    health := max 0 (monster.health - damage), threatList := threats }).setMonsterTarget m p = s₁
  have hget₁ (m' : UInt32) : s₁.getMonster m' = if m = m' then some hurt else s.getMonster m' := by
    rw [← hs₁, setMonsterTarget, getMonster_modifyMonster, getMonster_setMonster]
    split_ifs <;> rfl
  generalize hs₂ : (if monster.currentState = .idle ∨ monster.currentState = .patrolling
    then s₁.changeMonsterState m .aggressive now else s₁) = s₂
  have hget₂ (m' : UInt32) : s₂.getMonster m' = if m = m' then some roused else s.getMonster m' := by
    rw [← hs₂]
    by_cases hcalm : monster.currentState = .idle ∨ monster.currentState = .patrolling
    · rw [if_pos hcalm, getMonster_changeMonsterState, hget₁]
      simp only [roused, if_pos hcalm]
      split_ifs <;> rfl
    · rw [if_neg hcalm, hget₁]
      simp only [roused, if_neg hcalm]
  have hhealth : roused.health = max 0 (monster.health - damage) := by
    simp only [roused]
    split_ifs
    · exact health_entering ..
    · rfl
  have hdead : roused.currentState = .dead ↔ monster.currentState = .dead := by
    simp only [roused]
    split_ifs with hcalm
    · rw [currentState_entering]
      exact iff_of_false nofun fun hdead => by simp [hdead] at hcalm
    · exact Iff.rfl
  split_ifs with hlow
  · refine ⟨entering .dead now roused, fun m' => ?_, (health_entering ..).trans hhealth, ?_, ?_⟩
    · rw [getMonster_changeMonsterState, hget₂]
      split_ifs <;> rfl
    · exact iff_of_true (currentState_entering ..) (Or.inr (hzero.mp hlow))
    · exact iff_of_true rfl (hzero.mp hlow)
  · have hleft : ¬ monster.health ≤ damage := mt hzero.mpr hlow
    refine ⟨roused, hget₂, hhealth, ?_, ?_⟩
    · rw [hdead, or_iff_left hleft]
    · exact iff_of_false nofun hleft

/-- The calls of a fight: a monster comes with health, alive and under a fresh id, a blow does
not heal, and nobody sets a state or a whole monster from outside. -/
def Fair (s : SyncedMonsterAI) : MonsterOp → Prop
  | .addMonster monsterData _ => s.getMonster (s.assignedId monsterData) = none ∧
      0 < monsterData.health ∧ monsterData.currentState ≠ .dead
  | .onPlayerAttack _ _ damage _ => 0 ≤ damage
  | .changeMonsterState .. | .synchronizeMonster .. | .processMonsterUpdate .. => False
  | _ => True

instance decidableFair (s : SyncedMonsterAI) : ∀ op, Decidable (s.Fair op)
  | .addMonster .. => inferInstanceAs (Decidable (_ ∧ _ ∧ _))
  | .onPlayerAttack .. => inferInstanceAs (Decidable (_ ≤ _))
  | .changeMonsterState .. | .synchronizeMonster .. | .processMonsterUpdate .. => isFalse id
  | .initializeAI | .shutdown | .removeMonster .. | .updateAI .. | .processMonsterAI ..
  | .makeDecision .. | .setMonsterTarget .. | .clearMonsterTarget .. | .setSyncOwner ..
  | .createMonsterGroup .. | .addMonsterToGroup .. | .removeMonsterFromGroup ..
  | .updateGroupBehavior .. | .onPlayerEnterRange .. | .onPlayerLeaveRange .. | .onPlayerDeath ..
  | .enableGroupBehavior .. => isTrue trivial

inductive Turn : Option MonsterAIData → Option MonsterAIData → Prop
  | calm {x y : Option MonsterAIData} (h : Option.Rel MonsterAIData.Calm x y) : Turn x y
  | gone (x : Option MonsterAIData) : Turn x none
  | born {d : MonsterAIData} (hhealth : 0 < d.health) (halive : d.currentState ≠ .dead) :
      Turn none (some d)
  | struck {d d' : MonsterAIData} {damage : ℚ} (hdamage : 0 ≤ damage)
      (hhealth : d'.health = max 0 (d.health - damage))
      (hdead : d'.currentState = .dead ↔ d.currentState = .dead ∨ d.health ≤ damage) :
      Turn (some d) (some d')

theorem Turn.same (x : Option MonsterAIData) : Turn x x := .calm (rel_refl .refl x)

theorem getMonster_addMonster {s : SyncedMonsterAI} (hinit : s.initialized)
    (monsterData : MonsterAIData) (now : ℚ) (m : UInt32) :
    (s.addMonster monsterData now).getMonster m = if s.assignedId monsterData = m
      then some { monsterData with monsterId := s.assignedId monsterData, lastSyncTime := now }
      else s.getMonster m := by
  rw [addMonster, if_neg (not_not.mpr hinit)]
  exact OrdMap.find?_insert ..

theorem getMonster_removeMonster (s : SyncedMonsterAI) (m m' : UInt32) :
    (s.removeMonster m).getMonster m' = if m = m' then none else s.getMonster m' := by
  unfold removeMonster
  cases h : s.getMonster m with
  | none => exact OrdMap.find?_of_eq_none h m'
  | some monster => exact OrdMap.find?_erase ..

theorem monsters_addMonsterToGroup (s : SyncedMonsterAI) (g m : UInt32) :
    (s.addMonsterToGroup g m).monsters = s.monsters := by
  unfold addMonsterToGroup
  cases s.getMonsterGroup g <;> cases s.getMonster m <;> rfl

theorem turn_updateAI (sqrt : ℚ → ℚ) (s : SyncedMonsterAI) (now : ℚ) (m : UInt32) :
    Turn (s.getMonster m) ((s.updateAI sqrt now).getMonster m) := by
  by_cases hinit : s.initialized
  · obtain ⟨s₁, hsteady, heq⟩ := s.updateAI_spec sqrt now hinit
    rw [heq, getMonster_buryAll]
    split_ifs
    · exact .gone _
    · exact .calm (hsteady.monsters m)
  · rw [updateAI, if_pos hinit]
    exact .same _

theorem turn_onPlayerAttack (s : SyncedMonsterAI) (p m : UInt32) {damage : ℚ} (hdamage : 0 ≤ damage)
    (now : ℚ) (m' : UInt32) :
    Turn (s.getMonster m') ((s.onPlayerAttack p m damage now).1.getMonster m') := by
  cases h : s.getMonster m with
  | none =>
    rw [onPlayerAttack_none h]
    exact .same _
  | some monster =>
    obtain ⟨monster', hstruck⟩ := onPlayerAttack_spec h p damage now
    rw [hstruck.get]
    split_ifs with hm
    · rw [← hm, h]
      exact .struck hdamage hstruck.health hstruck.dead
    · exact .same _

theorem turn_monsterStep (sqrt : ℚ → ℚ) (s : SyncedMonsterAI) {op : MonsterOp} (hop : s.Fair op)
    (m : UInt32) : Turn (s.getMonster m) ((monsterStep sqrt s op).getMonster m) := by
  cases op with
  | addMonster d now =>
    obtain ⟨hfresh, hhealth, halive⟩ := hop
    by_cases hinit : s.initialized
    · rw [monsterStep, getMonster_addMonster hinit]
      split_ifs with hm
      · rw [← hm, hfresh]
        exact .born hhealth halive
      · exact .same _
    · rw [monsterStep, addMonster, if_pos hinit]
      exact .same _
  | removeMonster m' =>
    rw [monsterStep, getMonster_removeMonster]
    split_ifs
    · exact .gone _
    · exact .same _
  | updateAI now => exact s.turn_updateAI sqrt now m
  | onPlayerAttack p m' damage now => exact s.turn_onPlayerAttack p m' hop now m
  | shutdown =>
    rw [monsterStep, shutdown]
    split_ifs
    · exact .gone _
    · exact .same _
  | addMonsterToGroup g m' =>
    rw [monsterStep, getMonster, getMonster, monsters_addMonsterToGroup]
    exact .same _
  | removeMonsterFromGroup g m' =>
    rw [monsterStep, getMonster, getMonster, s.monsters_removeMonsterFromGroup g m']
    exact .same _
  | initializeAI => exact .same _
  | createMonsterGroup name pattern => exact .same _
  | changeMonsterState => exact hop.elim
  | synchronizeMonster => exact hop.elim
  | processMonsterUpdate => exact hop.elim
  | processMonsterAI | makeDecision | setMonsterTarget | clearMonsterTarget | setSyncOwner
  | updateGroupBehavior | onPlayerEnterRange | onPlayerLeaveRange | onPlayerDeath
  | enableGroupBehavior =>
    exact .calm ((steady_of_quiet sqrt s (by trivial)).monsters m)

def Sound (s : SyncedMonsterAI) : Prop :=
  ∀ m monster, s.getMonster m = some monster →
    (monster.currentState = .dead ↔ monster.health = 0)

theorem Turn.sound {x y : Option MonsterAIData} (h : Turn x y)
    (hx : ∀ d, x = some d → (d.currentState = .dead ↔ d.health = 0)) :
    ∀ d, y = some d → (d.currentState = .dead ↔ d.health = 0) := by
  rintro d rfl
  cases h with
  | calm h =>
    obtain ⟨d₀, rfl, hcalm⟩ := rel_some_right h
    rw [hcalm.dead, hcalm.health, hx d₀ rfl]
  | born hhealth halive => exact iff_of_false halive hhealth.ne'
  | @struck d₀ _ damage hdamage hhealth hdead =>
    have hzero : max 0 (d₀.health - damage) = 0 ↔ d₀.health ≤ damage := by
      rw [max_eq_left_iff, sub_nonpos]
    rw [hdead, hhealth, hzero, hx d₀ rfl]
    exact or_iff_right_of_imp fun h => h ▸ hdamage

theorem Turn.dead {d : MonsterAIData} {y : Option MonsterAIData} (h : Turn (some d) y)
    (hd : d.currentState = .dead) : y = none ∨ ∃ d', y = some d' ∧ d'.currentState = .dead := by
  cases h with
  | calm h =>
    obtain ⟨d', hd', hcalm⟩ := rel_some_left h
    exact Or.inr ⟨d', hd', hcalm.dead.mpr hd⟩
  | gone => exact Or.inl rfl
  | @struck _ d' _ _ _ hdead => exact Or.inr ⟨d', rfl, hdead.mpr (Or.inl hd)⟩

theorem Sound.step {s : SyncedMonsterAI} (h : s.Sound) (sqrt : ℚ → ℚ) {op : MonsterOp}
    (hop : s.Fair op) : (monsterStep sqrt s op).Sound :=
  fun m => (s.turn_monsterStep sqrt hop m).sound (h m)

theorem dead_run (sqrt : ℚ → ℚ) {s : SyncedMonsterAI} {ops : List MonsterOp} {m : UInt32}
    {monster : MonsterAIData} (hmonster : s.getMonster m = some monster)
    (hdead : monster.currentState = .dead) (hfair : Run.Along (monsterStep sqrt) Fair s ops)
    (hthere : Run.Along (monsterStep sqrt)
      (fun s op => (monsterStep sqrt s op).getMonster m ≠ none) s ops) :
    ∃ monster', (Run.run (monsterStep sqrt) s ops).getMonster m = some monster' ∧
      monster'.currentState = .dead := by
  induction ops generalizing s monster with
  | nil => exact ⟨monster, hmonster, hdead⟩
  | cons op ops ih =>
    have hturn := s.turn_monsterStep sqrt hfair.1 m
    rw [hmonster] at hturn
    rcases hturn.dead hdead with hnone | ⟨monster', hmonster', hdead'⟩
    · exact absurd hnone hthere.1
    · exact ih hmonster' hdead' hfair.2 hthere.2

/-- In every state of a fight the dead are those without health, and none of them is alive
again before it is taken off the table. -/
theorem dead_iff_health (sqrt : ℚ → ℚ) (initialized : Bool)
    (playerThreats : OrdMap UInt32 (List UInt32)) (ops later : List MonsterOp) :
    let start : SyncedMonsterAI := { initialized := initialized, playerThreats := playerThreats }
    let s := Run.run (monsterStep sqrt) start ops
    Run.Along (monsterStep sqrt) Fair start (ops ++ later) →
      (∀ m monster, s.getMonster m = some monster →
        (monster.currentState = .dead ↔ monster.health = 0)) ∧
      ∀ m monster, s.getMonster m = some monster → monster.currentState = .dead →
        Run.Along (monsterStep sqrt)
          (fun s op => (monsterStep sqrt s op).getMonster m ≠ none) s later →
        ∃ monster', (Run.run (monsterStep sqrt) s later).getMonster m = some monster' ∧
          monster'.currentState = .dead := by
  intro start s hfair
  obtain ⟨hfair, hlater⟩ := Run.along_append_iff.mp hfair
  have hsound : s.Sound :=
    (Run.along_of_step (Q := fun _ _ => True) (fun _ _ hs hop => ⟨hs.step sqrt hop, trivial⟩)
      (fun _ _ h => nomatch h) hfair).1
  exact ⟨hsound, fun m monster hmonster hdead hthere =>
    dead_run sqrt hmonster hdead hlater hthere⟩

theorem dead_iff_health_beaten :
    let start : SyncedMonsterAI := { initialized := true }
    let ops : List MonsterOp := [.addMonster { health := 30 } 0, .onPlayerEnterRange 7 {} 1,
      .updateAI 1, .onPlayerAttack 7 1 20 2, .onPlayerAttack 8 1 20 3]
    let s := Run.run (monsterStep id) start ops
    (s.getMonster 1).map (fun monster => (monster.currentState, monster.health)) = some (.dead, 0) ∧
      ∀ m monster, s.getMonster m = some monster →
        (monster.currentState = .dead ↔ monster.health = 0) :=
  ⟨by decide +kernel, (dead_iff_health id true .empty _ [.onPlayerAttack 7 1 5 4]
    (by decide +kernel)).1⟩

end SyncedMonsterAI
end WitcherMP.Monsters
