import WitcherMP.Monsters.Lives

/-! The reports of deaths. A blow that leaves no health reports a death, whether the monster
was alive or not, and the dead are cleared away in the next update only. -/

namespace WitcherMP.Monsters
namespace SyncedMonsterAI

inductive LifeEvent
  | born | died
deriving DecidableEq

/-- No death is reported that was reported before, since the monster last came. -/
def AtMostOnce : Bool → List LifeEvent → Prop
  | _, [] => True
  | _, .born :: events => AtMostOnce false events
  | reported, .died :: events => reported = false ∧ AtMostOnce true events

def lifeEvent (m : UInt32) (s : SyncedMonsterAI) : MonsterOp → Option LifeEvent
  | .addMonster d _ => if s.initialized ∧ s.assignedId d = m then some .born else none
  | .onPlayerAttack p m' damage now =>
    if m' = m ∧ (s.onPlayerAttack p m' damage now).2 then some .died else none
  | _ => none

def lifeEvents (sqrt : ℚ → ℚ) (m : UInt32) (s : SyncedMonsterAI) (ops : List MonsterOp) :
    List LifeEvent := Run.gather (monsterStep sqrt) (lifeEvent m) s ops

def reportedAfter (reported : Bool) : Option LifeEvent → Bool
  | none => reported
  | some .born => false
  | some .died => true

theorem atMostOnce_cons_iff (reported : Bool) (event : Option LifeEvent) (events : List LifeEvent) :
    AtMostOnce reported (event.toList ++ events) ↔
      (event = some .died → reported = false) ∧ AtMostOnce (reportedAfter reported event) events := by
  rcases event with _ | _ | _
  · exact (and_iff_right nofun).symm
  · exact (and_iff_right nofun).symm
  · exact and_congr_left fun _ => ⟨fun h _ => h, fun h => h rfl⟩

def KeepsDead (s : SyncedMonsterAI) (m : UInt32) (d : MonsterAIData) : Prop :=
  ∀ monster ∈ s.getMonster m, monster.currentState = .dead →
    (monster.syncOwner ≠ d.syncOwner ∧ monster.needsSync) ∨ d.currentState = .dead

/-- No blow falls on a dead monster, unless it brings back health, and nobody sets a dead
monster to another state. -/
def Final (s : SyncedMonsterAI) : MonsterOp → Prop
  | .onPlayerAttack _ m damage _ => ∀ monster ∈ s.getMonster m, monster.currentState = .dead →
      damage < monster.health
  | .changeMonsterState m newState _ => ∀ monster ∈ s.getMonster m, monster.currentState = .dead →
      newState = .dead
  | .synchronizeMonster m d _ => s.KeepsDead m d
  | .processMonsterUpdate d _ => s.KeepsDead d.monsterId d
  | _ => True

def Agrees (s : SyncedMonsterAI) (m : UInt32) (d : MonsterAIData) : Prop :=
  ∀ monster ∈ s.getMonster m, (monster.syncOwner ≠ d.syncOwner ∧ monster.needsSync) ∨
    (d.currentState = .dead ↔ monster.currentState = .dead)

def Natural (s : SyncedMonsterAI) : MonsterOp → Prop
  | .addMonster d _ => d.currentState ≠ .dead
  | .changeMonsterState m newState _ => ∀ monster ∈ s.getMonster m,
      (newState = .dead ↔ monster.currentState = .dead)
  | .synchronizeMonster m d _ => s.Agrees m d
  | .processMonsterUpdate d _ => s.Agrees d.monsterId d
  | _ => True

instance (s : SyncedMonsterAI) (m : UInt32) (d : MonsterAIData) : Decidable (s.KeepsDead m d) :=
  inferInstanceAs (Decidable (∀ monster ∈ _, _ → _ ∨ _))

instance decidableFinal (s : SyncedMonsterAI) : ∀ op, Decidable (s.Final op)
  | .onPlayerAttack .. => inferInstanceAs (Decidable (∀ monster ∈ _, _ → _))
  | .changeMonsterState .. => inferInstanceAs (Decidable (∀ monster ∈ _, _ → _))
  | .synchronizeMonster m d _ => inferInstanceAs (Decidable (s.KeepsDead m d))
  | .processMonsterUpdate d _ => inferInstanceAs (Decidable (s.KeepsDead d.monsterId d))
  | .initializeAI | .shutdown | .addMonster .. | .removeMonster .. | .updateAI ..
  | .processMonsterAI .. | .makeDecision .. | .setMonsterTarget .. | .clearMonsterTarget ..
  | .setSyncOwner .. | .createMonsterGroup .. | .addMonsterToGroup .. | .removeMonsterFromGroup ..
  | .updateGroupBehavior .. | .onPlayerEnterRange .. | .onPlayerLeaveRange .. | .onPlayerDeath ..
  | .enableGroupBehavior .. => isTrue trivial

theorem getMonster_synchronizeMonster (s : SyncedMonsterAI) (m m' : UInt32) (d : MonsterAIData)
    (now : ℚ) : (s.synchronizeMonster m d now).getMonster m'
      = if m = m' then (s.getMonster m').map fun monster =>
          if monster.syncOwner ≠ d.syncOwner ∧ monster.needsSync then monster
          else { d with lastSyncTime := now }
        else s.getMonster m' := by
  unfold synchronizeMonster
  cases h : s.getMonster m with
  | none =>
    split_ifs with hm
    · rw [← hm, h, Option.map_none]
    · rfl
  | some monster =>
    by_cases hconflict : monster.syncOwner ≠ d.syncOwner ∧ monster.needsSync
    · simp only [if_pos hconflict]
      split_ifs with hm
      · rw [← hm, h, Option.map_some, if_pos hconflict]
        exact h
      · rfl
    · simp only [if_neg hconflict]
      rw [getMonster_setMonster]
      split_ifs with hm
      · rw [← hm, h, Option.map_some, if_neg hconflict]
      · rfl

def Rests (m : UInt32) (s : SyncedMonsterAI) : Prop :=
  ∀ monster, s.getMonster m = some monster → monster.currentState = .dead

def Marked (m : UInt32) (reported : Bool) (s : SyncedMonsterAI) : Prop :=
  ∀ monster, s.getMonster m = some monster → (monster.currentState = .dead ↔ reported = true)

def deadAfter (m : UInt32) (monster : MonsterAIData) : MonsterOp → Prop
  | .changeMonsterState m' newState _ =>
    if m' = m then newState = .dead else monster.currentState = .dead
  | .synchronizeMonster m' d _ =>
    if m' = m ∧ ¬ (monster.syncOwner ≠ d.syncOwner ∧ monster.needsSync) then d.currentState = .dead
    else monster.currentState = .dead
  | .processMonsterUpdate d _ =>
    if d.monsterId = m ∧ ¬ (monster.syncOwner ≠ d.syncOwner ∧ monster.needsSync) then
      d.currentState = .dead
    else monster.currentState = .dead
  | .onPlayerAttack _ m' damage _ =>
    monster.currentState = .dead ∨ (m' = m ∧ monster.health ≤ damage)
  | _ => monster.currentState = .dead

section Entry
variable {sqrt : ℚ → ℚ} {s : SyncedMonsterAI} {m : UInt32} {monster' : MonsterAIData}

theorem deadAfter_synchronizeMonster {m' : UInt32} {d : MonsterAIData} {now : ℚ}
    (h : (s.synchronizeMonster m' d now).getMonster m = some monster') :
    ∃ monster, s.getMonster m = some monster ∧
      (monster'.currentState = .dead ↔ deadAfter m monster (.synchronizeMonster m' d now)) := by
  rw [getMonster_synchronizeMonster] at h
  split_ifs at h with hm
  · obtain ⟨monster, hmonster, rfl⟩ := Option.map_eq_some_iff.mp h
    refine ⟨monster, hmonster, ?_⟩
    rw [deadAfter]
    split_ifs with hconflict hin hin
    · exact absurd hconflict hin.2
    · exact Iff.rfl
    · exact Iff.rfl
    · exact absurd ⟨hm, hconflict⟩ hin
  · refine ⟨monster', h, ?_⟩
    rw [deadAfter, if_neg fun hin => hm hin.1]

theorem deadAfter_onPlayerAttack {p m' : UInt32} {damage now : ℚ}
    (h : (s.onPlayerAttack p m' damage now).1.getMonster m = some monster') :
    ∃ monster, s.getMonster m = some monster ∧
      (monster'.currentState = .dead ↔ deadAfter m monster (.onPlayerAttack p m' damage now)) := by
  cases hget : s.getMonster m' with
  | none =>
    rw [onPlayerAttack_none hget] at h
    refine ⟨monster', h, (or_iff_left fun hin => ?_).symm⟩
    rw [hin.1, h] at hget
    cases hget
  | some monster =>
    obtain ⟨struck, hstruck⟩ := onPlayerAttack_spec hget p damage now
    rw [hstruck.get] at h
    split_ifs at h with hm
    · obtain rfl := Option.some.inj h
      refine ⟨monster, hm ▸ hget, hstruck.dead.trans ?_⟩
      rw [deadAfter, and_iff_right hm]
    · exact ⟨monster', h, (or_iff_left fun hin => hm hin.1).symm⟩

theorem entry_monsterStep {op : MonsterOp} (h : (monsterStep sqrt s op).getMonster m = some monster') :
    (∃ d now, op = .addMonster d now ∧ lifeEvent m s op = some .born ∧
      monster'.currentState = d.currentState) ∨
    lifeEvent m s op ≠ some .born ∧ ∃ monster, s.getMonster m = some monster ∧
      (monster'.currentState = .dead ↔ deadAfter m monster op) := by
  have hnone : (none : Option LifeEvent) ≠ some .born := (Option.some_ne_none _).symm
  cases op with
  | addMonster d now =>
    by_cases hinit : s.initialized
    · rw [monsterStep, getMonster_addMonster hinit] at h
      split_ifs at h with hm
      · exact Or.inl ⟨d, now, rfl, if_pos ⟨hinit, hm⟩, Option.some.inj h ▸ rfl⟩
      · refine Or.inr ⟨?_, monster', h, Iff.rfl⟩
        rwa [lifeEvent, if_neg fun hin => hm hin.2]
    · rw [monsterStep, addMonster, if_pos hinit] at h
      refine Or.inr ⟨?_, monster', h, Iff.rfl⟩
      rwa [lifeEvent, if_neg fun hin => hinit hin.1]
  | removeMonster m' =>
    rw [monsterStep, getMonster_removeMonster] at h
    split_ifs at h
    exact Or.inr ⟨hnone, monster', h, Iff.rfl⟩
  | updateAI now =>
    refine Or.inr ⟨hnone, ?_⟩
    by_cases hinit : s.initialized
    · obtain ⟨s₁, hsteady, heq⟩ := s.updateAI_spec sqrt now hinit
      rw [monsterStep, heq, getMonster_buryAll] at h
      split_ifs at h
      obtain ⟨monster, hmonster, hcalm⟩ := hsteady.entry h
      exact ⟨monster, hmonster, hcalm.dead⟩
    · rw [monsterStep, updateAI, if_pos hinit] at h
      exact ⟨monster', h, Iff.rfl⟩
  | shutdown =>
    rw [monsterStep, shutdown] at h
    split_ifs at h
    · cases h
    · exact Or.inr ⟨hnone, monster', h, Iff.rfl⟩
  | changeMonsterState m' newState now =>
    refine Or.inr ⟨hnone, ?_⟩
    rw [monsterStep, getMonster_changeMonsterState] at h
    split_ifs at h with hm
    · obtain ⟨monster, hmonster, rfl⟩ := Option.map_eq_some_iff.mp h
      refine ⟨monster, hmonster, ?_⟩
      rw [deadAfter, if_pos hm, currentState_entering]
    · refine ⟨monster', h, ?_⟩
      rw [deadAfter, if_neg hm]
  | synchronizeMonster m' d now => exact Or.inr ⟨hnone, deadAfter_synchronizeMonster h⟩
  | processMonsterUpdate d now => exact Or.inr ⟨hnone, deadAfter_synchronizeMonster h⟩
  | onPlayerAttack p m' damage now =>
    refine Or.inr ⟨?_, deadAfter_onPlayerAttack h⟩
    rw [lifeEvent]
    split_ifs
    · simp
    · exact hnone
  | addMonsterToGroup g m' =>
    rw [monsterStep, getMonster, monsters_addMonsterToGroup] at h
    exact Or.inr ⟨hnone, monster', h, Iff.rfl⟩
  | removeMonsterFromGroup g m' =>
    rw [monsterStep, getMonster, s.monsters_removeMonsterFromGroup g m'] at h
    exact Or.inr ⟨hnone, monster', h, Iff.rfl⟩
  | initializeAI => exact Or.inr ⟨hnone, monster', h, Iff.rfl⟩
  | createMonsterGroup name pattern => exact Or.inr ⟨hnone, monster', h, Iff.rfl⟩
  | processMonsterAI | makeDecision | setMonsterTarget | clearMonsterTarget | setSyncOwner
  | updateGroupBehavior | onPlayerEnterRange | onPlayerLeaveRange | onPlayerDeath
  | enableGroupBehavior =>
    obtain ⟨monster, hmonster, hcalm⟩ := (steady_of_quiet sqrt s (by trivial)).entry h
    exact Or.inr ⟨hnone, monster, hmonster, hcalm.dead⟩

theorem lifeEvent_eq_died_iff {op : MonsterOp} :
    lifeEvent m s op = some .died ↔ ∃ p damage now monster, op = .onPlayerAttack p m damage now ∧
      s.getMonster m = some monster ∧ monster.health ≤ damage := by
  constructor
  · intro h
    cases op with
    | onPlayerAttack p m' damage now =>
      rw [lifeEvent] at h
      split_ifs at h with hin
      obtain ⟨rfl, hreported⟩ := hin
      cases hget : s.getMonster m' with
      | none =>
        rw [onPlayerAttack_none hget] at hreported
        cases hreported
      | some monster =>
        obtain ⟨struck, hstruck⟩ := onPlayerAttack_spec hget p damage now
        exact ⟨p, damage, now, monster, rfl, rfl, hstruck.reported.mp hreported⟩
    | addMonster d now =>
      rw [lifeEvent] at h
      split_ifs at h
      · cases h
    | _ => cases h
  · rintro ⟨p, damage, now, monster, rfl, hget, hlow⟩
    obtain ⟨struck, hstruck⟩ := onPlayerAttack_spec hget p damage now
    exact if_pos ⟨rfl, hstruck.reported.mpr hlow⟩

end Entry

section Runs
variable {sqrt : ℚ → ℚ} {m : UInt32} {reported : Bool} {s : SyncedMonsterAI} {op : MonsterOp}

theorem Agrees.keepsDead {d : MonsterAIData} (h : s.Agrees m d) : s.KeepsDead m d :=
  fun monster hmonster hdead => (h monster hmonster).imp_right fun hiff => hiff.mpr hdead

section Data
variable {m' : UInt32} {d : MonsterAIData} {monster : MonsterAIData} (now : ℚ)

theorem deadAfter_of_keepsDead (h : s.KeepsDead m' d) (hmonster : s.getMonster m = some monster)
    (hdead : monster.currentState = .dead) : deadAfter m monster (.synchronizeMonster m' d now) := by
  rw [deadAfter]
  split_ifs with hin
  · exact (h monster (hin.1 ▸ hmonster) hdead).resolve_left hin.2
  · exact hdead

theorem deadAfter_iff_of_agrees (h : s.Agrees m' d) (hmonster : s.getMonster m = some monster) :
    deadAfter m monster (.synchronizeMonster m' d now) ↔ monster.currentState = .dead := by
  rw [deadAfter]
  split_ifs with hin
  · exact (h monster (hin.1 ▸ hmonster)).resolve_left hin.2
  · exact Iff.rfl

end Data

theorem deadAfter_of_final (hop : s.Final op) {monster : MonsterAIData}
    (hmonster : s.getMonster m = some monster) (hdead : monster.currentState = .dead) :
    deadAfter m monster op := by
  cases op with
  | changeMonsterState m' newState now =>
    rw [deadAfter]
    split_ifs with hm
    · exact hop monster (hm ▸ hmonster) hdead
    · exact hdead
  | synchronizeMonster m' d now => exact deadAfter_of_keepsDead now hop hmonster hdead
  | processMonsterUpdate d now => exact deadAfter_of_keepsDead now hop hmonster hdead
  | onPlayerAttack => exact Or.inl hdead
  | _ => exact hdead

theorem rests_monsterStep (hop : s.Final op) (hrests : reported = true → Rests m s)
    (hafter : reportedAfter reported (lifeEvent m s op) = true) : Rests m (monsterStep sqrt s op) := by
  intro monster' hmonster'
  rcases entry_monsterStep hmonster' with ⟨d, now, -, hborn, -⟩ | ⟨-, monster, hmonster, hiff⟩
  · rw [hborn] at hafter
    cases hafter
  · rw [hiff]
    rcases hevent : lifeEvent m s op with _ | _ | _
    · rw [hevent] at hafter
      exact deadAfter_of_final hop hmonster (hrests hafter monster hmonster)
    · rw [hevent] at hafter
      cases hafter
    · obtain ⟨p, damage, now, monster₀, rfl, hmonster₀, hlow⟩ := lifeEvent_eq_died_iff.mp hevent
      obtain rfl := Option.some.inj (hmonster.symm.trans hmonster₀)
      exact Or.inr ⟨rfl, hlow⟩

theorem atMostOnce_of_final {ops : List MonsterOp}
    (h : Run.Along (monsterStep sqrt) Final s ops) (hrests : reported = true → Rests m s) :
    AtMostOnce reported (lifeEvents sqrt m s ops) := by
  induction ops generalizing s reported with
  | nil => trivial
  | cons op ops ih =>
    rw [lifeEvents, Run.gather, atMostOnce_cons_iff]
    refine ⟨fun hevent => ?_, ih h.2 (rests_monsterStep h.1 hrests)⟩
    obtain ⟨p, damage, now, monster, rfl, hmonster, hlow⟩ := lifeEvent_eq_died_iff.mp hevent
    refine Bool.eq_false_iff.mpr fun hreported => ?_
    exact absurd (h.1 monster hmonster (hrests hreported monster hmonster)) (not_lt.mpr hlow)

theorem marked_monsterStep (hop : s.Natural op) (hmarked : Marked m reported s) :
    Marked m (reportedAfter reported (lifeEvent m s op)) (monsterStep sqrt s op) := by
  intro monster' hmonster'
  rcases entry_monsterStep hmonster' with ⟨d, now, rfl, hborn, hstate⟩ | ⟨hborn, monster, hmonster, hiff⟩
  · rw [hborn, hstate]
    exact iff_of_false hop nofun
  · have hsame := hmarked monster hmonster
    rw [hiff]
    cases op with
    | onPlayerAttack p m' damage now =>
      have hdied : lifeEvent m s (.onPlayerAttack p m' damage now) = some .died ↔
          m' = m ∧ monster.health ≤ damage := by
        rw [lifeEvent_eq_died_iff]
        constructor
        · rintro ⟨p', damage', now', monster₀, hop, hmonster₀, hlow⟩
          cases hop
          obtain rfl := Option.some.inj (hmonster.symm.trans hmonster₀)
          exact ⟨rfl, hlow⟩
        · rintro ⟨rfl, hlow⟩
          exact ⟨p, damage, now, monster, rfl, hmonster, hlow⟩
      rw [deadAfter, ← hdied, hsame]
      rcases hevent : lifeEvent m s (.onPlayerAttack p m' damage now) with _ | _ | _
      · exact or_iff_left nofun
      · exact absurd hevent hborn
      · exact iff_of_true (Or.inr rfl) rfl
    | addMonster d now =>
      rw [lifeEvent] at hborn ⊢
      split_ifs at hborn ⊢
      · exact absurd rfl hborn
      · exact hsame
    | changeMonsterState m' newState now =>
      rw [deadAfter]
      split_ifs with hm
      · exact (hop monster (hm ▸ hmonster)).trans hsame
      · exact hsame
    | synchronizeMonster m' d now =>
      exact (deadAfter_iff_of_agrees now hop hmonster).trans hsame
    | processMonsterUpdate d now =>
      exact (deadAfter_iff_of_agrees now hop hmonster).trans hsame
    | _ => exact hsame

def Spared (m : UInt32) (s : SyncedMonsterAI) (op : MonsterOp) : Prop :=
  lifeEvent m s op = some .died → ∀ monster, s.getMonster m = some monster →
    monster.currentState ≠ .dead

theorem spared_of_atMostOnce {ops : List MonsterOp}
    (h : Run.Along (monsterStep sqrt) Natural s ops) (hmarked : Marked m reported s)
    (honce : AtMostOnce reported (lifeEvents sqrt m s ops)) :
    Run.Along (monsterStep sqrt) (Spared m) s ops := by
  induction ops generalizing s reported with
  | nil => trivial
  | cons op ops ih =>
    rw [lifeEvents, Run.gather, atMostOnce_cons_iff] at honce
    refine ⟨fun hevent monster hmonster hdead => ?_, ih h.2 (marked_monsterStep h.1 hmarked) honce.2⟩
    have htrue := (hmarked monster hmonster).mp hdead
    rw [honce.1 hevent] at htrue
    cases htrue

theorem final_of_spared (hop : s.Natural op) (hspared : ∀ m, Spared m s op) : s.Final op := by
  cases op with
  | onPlayerAttack p m damage now =>
    intro monster hmonster hdead
    by_contra hlow
    exact hspared m (lifeEvent_eq_died_iff.mpr
      ⟨p, damage, now, monster, rfl, hmonster, not_lt.mp hlow⟩) monster hmonster hdead
  | changeMonsterState m newState now =>
    exact fun monster hmonster hdead => (hop monster hmonster).mpr hdead
  | synchronizeMonster m d now => exact Agrees.keepsDead hop
  | processMonsterUpdate d now => exact Agrees.keepsDead hop
  | _ => trivial

end Runs

/-- No death is reported twice if no call of the run finds a monster dead and reports it again
or sets it to another state; and among monsters that come alive and are killed by blows only,
the reports are as they should be in no other run. -/
theorem reported_once (sqrt : ℚ → ℚ) (playerThreats : OrdMap UInt32 (List UInt32))
    (ops : List MonsterOp) :
    let s : SyncedMonsterAI := { playerThreats := playerThreats }
    (Run.Along (monsterStep sqrt) Final s ops → ∀ m, AtMostOnce false (lifeEvents sqrt m s ops)) ∧
      (Run.Along (monsterStep sqrt) Natural s ops →
        (∀ m, AtMostOnce false (lifeEvents sqrt m s ops)) →
          Run.Along (monsterStep sqrt) Final s ops) := by
  intro s
  refine ⟨fun h m => atMostOnce_of_final h nofun, fun hnatural honce => ?_⟩
  have hspared : Run.Along (monsterStep sqrt) (fun s op => ∀ m, Spared m s op) s ops :=
    Run.along_forall fun m => spared_of_atMostOnce hnatural (fun _ h => nomatch h) (honce m)
  exact (Run.along_of_step (I := fun _ => True)
    (fun _ _ _ hop => ⟨trivial, final_of_spared hop.1 hop.2⟩) trivial (hnatural.and hspared)).2

theorem reported_once_each_time :
    let ops : List MonsterOp := [.initializeAI, .addMonster { monsterId := 1, health := 30 } 0,
      .onPlayerAttack 7 1 20 1, .onPlayerAttack 8 1 20 2, .updateAI 3,
      .addMonster { monsterId := 1, health := 30 } 4, .onPlayerAttack 7 1 40 5]
    lifeEvents id 1 {} ops = [.born, .died, .born, .died] ∧
      ∀ m, AtMostOnce false (lifeEvents id m {} ops) :=
  ⟨by decide +kernel, (reported_once id .empty _).1 (by decide +kernel)⟩

theorem reported_twice :
    let ops : List MonsterOp := [.initializeAI, .addMonster { monsterId := 1, health := 30 } 0,
      .onPlayerAttack 7 1 40 1, .onPlayerAttack 8 1 40 2]
    ¬ AtMostOnce false (lifeEvents id 1 {} ops) := by
  intro ops honce
  have hevents : lifeEvents id 1 {} ops = [.born, .died, .died] := by decide +kernel
  rw [hevents] at honce
  cases honce.2.1

end SyncedMonsterAI
end WitcherMP.Monsters
