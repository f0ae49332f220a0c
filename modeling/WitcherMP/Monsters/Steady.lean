import WitcherMP.Monsters.Defs
import WitcherMP.Lib.Pointwise
import WitcherMP.Lib.Run

/-! What the calls leave alone. All but a few of them neither wound nor heal, neither kill nor
revive, and neither move monsters in or out nor touch the rolls of the groups. -/

namespace WitcherMP.Monsters

structure MonsterAIData.Calm (d d' : MonsterAIData) : Prop where
  health : d'.health = d.health
  dead : d'.currentState = .dead ↔ d.currentState = .dead

theorem MonsterAIData.Calm.refl (d : MonsterAIData) : d.Calm d := ⟨rfl, Iff.rfl⟩

theorem MonsterAIData.Calm.trans {d d' d'' : MonsterAIData} (h : d.Calm d') (h' : d'.Calm d'') :
    d.Calm d'' := ⟨h'.health.trans h.health, h'.dead.trans h.dead⟩

structure MonsterGroup.SameRoll (g g' : MonsterGroup) : Prop where
  members : g'.members = g.members
  leader : g'.leader = g.leader

theorem MonsterGroup.SameRoll.refl (g : MonsterGroup) : g.SameRoll g := ⟨rfl, rfl⟩

theorem MonsterGroup.SameRoll.trans {g g' g'' : MonsterGroup} (h : g.SameRoll g')
    (h' : g'.SameRoll g'') : g.SameRoll g'' :=
  ⟨h'.members.trans h.members, h'.leader.trans h.leader⟩

namespace SyncedMonsterAI

structure Moved (R : MonsterAIData → MonsterAIData → Prop) (s s' : SyncedMonsterAI) : Prop where
  monsters : ∀ m, Option.Rel R (s.getMonster m) (s'.getMonster m)
  groups : ∀ g, Option.Rel MonsterGroup.SameRoll (s.getMonsterGroup g) (s'.getMonsterGroup g)

abbrev Steady := Moved MonsterAIData.Calm

/-- What a monster does of itself, or because players come and go, is within `R`: it moves, aims,
strikes, knows of players, and passes from one living state to another. -/
structure Tame (R : MonsterAIData → MonsterAIData → Prop) : Prop where
  refl : ∀ d, R d d
  trans : ∀ {d d' d''}, R d d' → R d' d'' → R d d''
  dead : ∀ {d d'}, R d d' → (d'.currentState = .dead ↔ d.currentState = .dead)
  velocity : ∀ d velocity, R d { d with velocity := velocity }
  attack : ∀ d time, R d { d with lastAttackTime := time }
  aim : ∀ d position, R d { d with targetPosition := position }
  threats : ∀ d threats, R d { d with threatList := threats }
  target : ∀ d playerId, R d { d with targetPlayerId := playerId, needsSync := true }
  roused : ∀ d newState now, d.currentState ≠ .dead → newState ≠ .dead → R d { d with
    previousState := d.currentState, currentState := newState
    lastStateChange := now, needsSync := true }

theorem tame_calm : Tame MonsterAIData.Calm where
  refl := .refl
  trans := .trans
  dead h := h.dead
  velocity _ _ := ⟨rfl, Iff.rfl⟩
  attack _ _ := ⟨rfl, Iff.rfl⟩
  aim _ _ := ⟨rfl, Iff.rfl⟩
  threats _ _ := ⟨rfl, Iff.rfl⟩
  target _ _ := ⟨rfl, Iff.rfl⟩
  roused _ _ _ halive hnew := ⟨rfl, iff_of_false hnew halive⟩

theorem getMonster_setMonster (s : SyncedMonsterAI) (m m' : UInt32) (monster : MonsterAIData) :
    (s.setMonster m monster).getMonster m' = if m = m' then some monster else s.getMonster m' :=
  OrdMap.find?_insert ..

theorem getMonsterGroup_setMonsterGroup (s : SyncedMonsterAI) (g g' : UInt32) (group : MonsterGroup) :
    (s.setMonsterGroup g group).getMonsterGroup g'
      = if g = g' then some group else s.getMonsterGroup g' := OrdMap.find?_insert ..

section Rules
variable {R : MonsterAIData → MonsterAIData → Prop} {s s' s'' : SyncedMonsterAI} {m : UInt32}
  {monster monster' : MonsterAIData}

theorem Moved.entry (h : Moved R s s') (hget : s'.getMonster m = some monster') :
    ∃ monster, s.getMonster m = some monster ∧ R monster monster' := by
  have hrel := h.monsters m
  rw [hget] at hrel
  exact rel_some_right hrel

def Living (s : SyncedMonsterAI) (m : UInt32) : Prop :=
  ∀ monster, s.getMonster m = some monster → monster.currentState ≠ .dead

theorem living_of_getMonster (h : s.getMonster m = some monster) (halive : monster.currentState ≠ .dead) :
    s.Living m := fun _ h' => Option.some.inj (h.symm.trans h') ▸ halive

namespace Tame
variable (hR : Tame R)
include hR

theorem living (h : s.Living m) (hs : Moved R s s') : s'.Living m := by
  intro monster' hmonster' hdead
  obtain ⟨monster, hmonster, hrel⟩ := hs.entry hmonster'
  exact h monster hmonster ((hR.dead hrel).mp hdead)

theorem moved_of_eq (hmonsters : s'.monsters = s.monsters) (hgroups : s'.groups = s.groups) :
    Moved R s s' where
  monsters m := by
    rw [getMonster, getMonster, hmonsters]
    exact rel_refl hR.refl _
  groups g := by
    rw [getMonsterGroup, getMonsterGroup, hgroups]
    exact rel_refl .refl _

theorem same (s : SyncedMonsterAI) : Moved R s s := hR.moved_of_eq rfl rfl

theorem next (h : Moved R s s') (h' : Moved R s' s'') : Moved R s s'' where
  monsters m := rel_trans (h.monsters m) (h'.monsters m) fun _ _ _ => hR.trans
  groups g := rel_trans (h.groups g) (h'.groups g) fun _ _ _ => .trans

theorem foldl {α : Type} {f : SyncedMonsterAI → α → SyncedMonsterAI}
    (hf : ∀ s a, Moved R s (f s a)) (as : List α) (s : SyncedMonsterAI) :
    Moved R s (as.foldl f s) := by
  induction as generalizing s with
  | nil => exact hR.same s
  | cons a as ih => exact hR.next (hf s a) (ih (f s a))

theorem setMonster (h : s.getMonster m = some monster) (hrel : R monster monster') :
    Moved R s (s.setMonster m monster') where
  monsters m' := by
    rw [getMonster_setMonster]
    split_ifs with hm
    · rw [← hm, h]
      exact .some hrel
    · exact rel_refl hR.refl _
  groups _ := rel_refl .refl _

theorem modifyMonster {f : MonsterAIData → MonsterAIData} (hf : ∀ d, R d (f d))
    (s : SyncedMonsterAI) (m : UInt32) : Moved R s (s.modifyMonster m f) := by
  unfold SyncedMonsterAI.modifyMonster
  cases h : s.getMonster m with
  | none => exact hR.same s
  | some monster => exact hR.setMonster h (hf monster)

theorem changeMonsterState {newState : MonsterAIState} (h : s.Living m) (hnew : newState ≠ .dead)
    (now : ℚ) : Moved R s (s.changeMonsterState m newState now) := by
  unfold SyncedMonsterAI.changeMonsterState
  cases hmonster : s.getMonster m with
  | none => exact hR.same s
  | some monster =>
    have hset := hR.setMonster hmonster (hR.roused monster newState now (h monster hmonster) hnew)
    dsimp only
    split_ifs
    · exact hR.same s
    · exact hR.next hset (hR.moved_of_eq rfl rfl)
    · exact hset

theorem setMonsterTarget (s : SyncedMonsterAI) (m p : UInt32) : Moved R s (s.setMonsterTarget m p) :=
  hR.modifyMonster (fun d => hR.target d p) s m

theorem clearMonsterTarget (s : SyncedMonsterAI) (m : UInt32) : Moved R s (s.clearMonsterTarget m) :=
  hR.modifyMonster (fun d => hR.target d 0) s m

end Tame

end Rules

theorem bestDecision_newState (players : List UInt32) (state : MonsterAIState) :
    (bestDecision players state).newState ≠ .dead := by
  cases state <;> cases players <;> simp [bestDecision, evaluateIdleOptions, evaluateCombatOptions,
    evaluateEscapeOptions]

theorem newState_makeDecision (s : SyncedMonsterAI) (m : UInt32) (players : List UInt32) :
    (s.makeDecision m players).2.newState ≠ .dead := by
  unfold makeDecision
  cases s.getMonster m with
  | none => simp
  | some monster => exact bestDecision_newState players _

namespace Tame
variable {R : MonsterAIData → MonsterAIData → Prop} (hR : Tame R) (sqrt : ℚ → ℚ)
  {s : SyncedMonsterAI} {m : UInt32} (now : ℚ)
include hR

theorem processAlertState (h : s.Living m) : Moved R s (s.processAlertState m now) := by
  unfold SyncedMonsterAI.processAlertState
  cases s.getMonster m with
  | none => exact hR.same s
  | some monster =>
    dsimp only
    split_ifs
    · exact hR.same s
    · exact hR.changeMonsterState h (by decide) now

theorem processAggressiveState (h : s.Living m) :
    Moved R s (s.processAggressiveState sqrt m now) := by
  unfold SyncedMonsterAI.processAggressiveState
  cases hmonster : s.getMonster m with
  | none => exact hR.same s
  | some monster =>
    have hset : Moved R s (s.setMonster m (approach sqrt monster)) :=
      hR.setMonster hmonster (hR.velocity monster _)
    dsimp only
    split_ifs
    · exact hR.same s
    · exact hR.next hset (hR.changeMonsterState (hR.living h hset) (by decide) now)
    · exact hset

theorem processState (h : s.Living m) (state : MonsterAIState) :
    Moved R s (s.processState sqrt m now state) := by
  cases state with
  | idle => exact hR.modifyMonster (fun d => hR.velocity d _) s m
  | patrolling => exact hR.modifyMonster (fun d => hR.velocity d _) s m
  | alert => exact hR.processAlertState now h
  | aggressive => exact hR.processAggressiveState sqrt now h
  | attacking =>
    refine hR.modifyMonster (fun d => ?_) s m
    split_ifs
    · exact hR.attack d now
    · exact hR.refl d
  | stunned => exact hR.modifyMonster (fun d => hR.velocity d _) s m
  | fleeing =>
    refine hR.modifyMonster (fun d => ?_) s m
    split_ifs
    · exact hR.refl d
    · exact hR.velocity d _
  | dead => exact hR.same s

theorem makeDecision (s : SyncedMonsterAI) (m : UInt32) (players : List UInt32) :
    Moved R s (s.makeDecision m players).1 := by
  unfold SyncedMonsterAI.makeDecision
  cases s.getMonster m with
  | none => exact hR.same s
  | some monster => exact hR.moved_of_eq rfl rfl

theorem applyDecision (h : s.Living m) {decision : AIDecision}
    (hdecision : decision.newState ≠ .dead) : Moved R s (s.applyDecision m decision now) := by
  unfold SyncedMonsterAI.applyDecision
  have hchange := hR.changeMonsterState h hdecision now
  have haim (s : SyncedMonsterAI) : Moved R s (s.modifyMonster m fun monster =>
      { monster with targetPosition := decision.targetPosition }) :=
    hR.modifyMonster (fun d => hR.aim d _) s m
  split_ifs
  · exact hR.next hchange (haim _)
  · exact hR.next hchange (hR.next (hR.setMonsterTarget _ m _) (haim _))
  · exact hR.same s

theorem processMonsterAI (s : SyncedMonsterAI) (m : UInt32) :
    Moved R s (s.processMonsterAI sqrt m now) := by
  unfold SyncedMonsterAI.processMonsterAI
  cases hmonster : s.getMonster m with
  | none => exact hR.same s
  | some monster =>
    dsimp only
    split_ifs with hdead hsync
    · exact hR.same s
    · have hliving : s.Living m := living_of_getMonster hmonster hdead
      have hstate := hR.processState sqrt now hliving monster.currentState
      have hthink := hR.next hstate (hR.makeDecision (s.processState sqrt m now monster.currentState)
        m (s.nearbyPlayers sqrt monster))
      exact hR.next hthink (hR.applyDecision now (hR.living hliving hthink)
        (newState_makeDecision _ m _))
    · exact hR.processState sqrt now (living_of_getMonster hmonster hdead) monster.currentState

theorem setMonsterGroup {g : UInt32} {group group' : MonsterGroup}
    (h : s.getMonsterGroup g = some group) (hroll : group.SameRoll group') :
    Moved R s (s.setMonsterGroup g group') where
  monsters _ := rel_refl hR.refl _
  groups g' := by
    rw [getMonsterGroup_setMonsterGroup]
    split_ifs with hg
    · rw [← hg, h]
      exact .some hroll
    · exact rel_refl .refl _

theorem updateGroupBehavior (s : SyncedMonsterAI) (g : UInt32) :
    Moved R s (s.updateGroupBehavior g) := by
  unfold SyncedMonsterAI.updateGroupBehavior
  cases h : s.getMonsterGroup g with
  | none => exact hR.same s
  | some group =>
    dsimp only
    split_ifs
    · exact hR.setMonsterGroup h ⟨rfl, rfl⟩
    · exact hR.setMonsterGroup h ⟨rfl, rfl⟩
    · exact hR.same s

theorem processGroupBehavior (s : SyncedMonsterAI) (g : UInt32) :
    Moved R s (s.processGroupBehavior g) := by
  unfold SyncedMonsterAI.processGroupBehavior
  cases s.getMonsterGroup g with
  | none => exact hR.same s
  | some group =>
    dsimp only
    split_ifs
    · exact hR.updateGroupBehavior s g
    · exact hR.same s

theorem noticePlayer (s : SyncedMonsterAI) (p m : UInt32) (position : Vector4F) :
    Moved R s (noticePlayer sqrt p position now s m) := by
  unfold SyncedMonsterAI.noticePlayer
  cases hmonster : s.getMonster m with
  | none => exact hR.same s
  | some monster =>
    dsimp only
    generalize (if monster.threatList.contains p then _ else _) = threats
    have hset := hR.setMonster hmonster (hR.threats monster threats)
    split_ifs with hrange hstate
    · have hliving : s.Living m := living_of_getMonster hmonster fun hdead => by simp [hdead] at hstate
      exact hR.next hset (hR.changeMonsterState (hR.living hliving hset) (by decide) now)
    · exact hset
    · exact hR.same s

theorem forgetPlayer (s : SyncedMonsterAI) (p m : UInt32) : Moved R s (forgetPlayer p s m) := by
  unfold SyncedMonsterAI.forgetPlayer
  cases hmonster : s.getMonster m with
  | none => exact hR.same s
  | some monster =>
    have hset := hR.setMonster hmonster (hR.threats monster (monster.threatList.erase p))
    dsimp only
    split_ifs
    · exact hR.next hset (hR.clearMonsterTarget _ m)
    · exact hset

end Tame

section Cleanup
variable (s : SyncedMonsterAI)

theorem getMonsterGroup_removeMonsterFromGroup (g m g' : UInt32) :
    (s.removeMonsterFromGroup g m).getMonsterGroup g'
      = if g = g' then (s.getMonsterGroup g').map (·.without m) else s.getMonsterGroup g' := by
  unfold removeMonsterFromGroup
  cases h : s.getMonsterGroup g with
  | none =>
    split_ifs with hg
    · rw [← hg, h, Option.map_none]
    · rfl
  | some group =>
    dsimp only
    rw [getMonsterGroup_setMonsterGroup]
    split_ifs with hg
    · rw [← hg, h, Option.map_some]
    · rfl

theorem monsters_removeMonsterFromGroup (g m : UInt32) :
    (s.removeMonsterFromGroup g m).monsters = s.monsters := by
  unfold removeMonsterFromGroup
  cases s.getMonsterGroup g <;> rfl

def removeFromGroups (m : UInt32) (gs : List UInt32) : SyncedMonsterAI :=
  gs.foldl (fun s g => s.removeMonsterFromGroup g m) s

theorem monsters_removeFromGroups (m : UInt32) (gs : List UInt32) :
    (s.removeFromGroups m gs).monsters = s.monsters := by
  induction gs generalizing s with
  | nil => rfl
  | cons g gs ih => exact (ih _).trans (s.monsters_removeMonsterFromGroup g m)

theorem getMonsterGroup_removeFromGroups (m g : UInt32) {gs : List UInt32} (hgs : gs.Nodup) :
    (s.removeFromGroups m gs).getMonsterGroup g
      = if g ∈ gs then (s.getMonsterGroup g).map (·.without m) else s.getMonsterGroup g := by
  induction gs generalizing s with
  | nil => rfl
  | cons g' gs ih =>
    obtain ⟨hg', hgs⟩ := List.nodup_cons.mp hgs
    change ((s.removeMonsterFromGroup g' m).removeFromGroups m gs).getMonsterGroup g = _
    rw [ih _ hgs, getMonsterGroup_removeMonsterFromGroup]
    by_cases hg : g' = g
    · subst hg
      simp [hg']
    · simp [hg, Ne.symm hg]

theorem getMonsterGroup_bury (m g : UInt32) :
    (s.bury m).getMonsterGroup g = (s.getMonsterGroup g).map (·.without m) := by
  have hfold : s.groups.entries.foldl (fun s e => s.removeMonsterFromGroup e.1 m) s
      = s.removeFromGroups m (s.groups.entries.map Prod.fst) := by
    rw [removeFromGroups, List.foldl_map]
  have hget : (s.bury m).getMonsterGroup g
      = (s.removeFromGroups m (s.groups.entries.map Prod.fst)).getMonsterGroup g := by
    rw [← hfold]
    rfl
  rw [hget, getMonsterGroup_removeFromGroups _ _ _ s.groups.nodup_fst]
  split_ifs with hg
  · rfl
  · have hnone : s.getMonsterGroup g = none := by
      by_contra hsome
      obtain ⟨group, hgroup⟩ := Option.ne_none_iff_exists'.mp hsome
      exact hg (List.mem_map.mpr ⟨(g, group), OrdMap.find?_eq_some_iff.mp hgroup, rfl⟩)
    rw [hnone, Option.map_none]

theorem getMonster_bury (m m' : UInt32) :
    (s.bury m).getMonster m' = if m = m' then none else s.getMonster m' := by
  have hframe : (s.groups.entries.foldl (fun s e => s.removeMonsterFromGroup e.1 m) s).monsters
      = s.monsters := by
    have := s.monsters_removeFromGroups m (s.groups.entries.map Prod.fst)
    rwa [removeFromGroups, List.foldl_map] at this
  have hget : (s.bury m).getMonster m' = (s.monsters.erase m).find? m' := by
    rw [← hframe]
    rfl
  rw [hget, OrdMap.find?_erase]
  rfl

def buryAll (ms : List UInt32) : SyncedMonsterAI := ms.foldl bury s

def deadIds : List UInt32 :=
  (s.monsters.entries.filter fun e => e.2.currentState = .dead).map Prod.fst

theorem cleanupDeadMonsters_eq : s.cleanupDeadMonsters = s.buryAll s.deadIds := by
  rw [cleanupDeadMonsters, buryAll, deadIds, List.foldl_map, List.foldl_filter]
  simp only [decide_eq_true_eq]

theorem mem_deadIds {m : UInt32} :
    m ∈ s.deadIds ↔ ∃ monster, s.getMonster m = some monster ∧ monster.currentState = .dead := by
  simp only [deadIds, List.mem_map, List.mem_filter, decide_eq_true_eq, getMonster,
    OrdMap.find?_eq_some_iff]
  constructor
  · rintro ⟨⟨m, monster⟩, ⟨hmem, hdead⟩, rfl⟩
    exact ⟨monster, hmem, hdead⟩
  · rintro ⟨monster, hmem, hdead⟩
    exact ⟨(m, monster), ⟨hmem, hdead⟩, rfl⟩

theorem getMonster_buryAll (ms : List UInt32) (m : UInt32) :
    (s.buryAll ms).getMonster m = if m ∈ ms then none else s.getMonster m := by
  induction ms generalizing s with
  | nil => rfl
  | cons m' ms ih =>
    change ((s.bury m').buryAll ms).getMonster m = _
    rw [ih, getMonster_bury]
    by_cases hm : m' = m
    · simp [hm]
    · simp [hm, Ne.symm hm]

theorem getMonsterGroup_buryAll (ms : List UInt32) (g : UInt32) :
    (s.buryAll ms).getMonsterGroup g
      = (s.getMonsterGroup g).map fun group => ms.foldl MonsterGroup.without group := by
  induction ms generalizing s with
  | nil => exact (Option.map_id' (x := s.getMonsterGroup g)).symm
  | cons m ms ih =>
    change ((s.bury m).buryAll ms).getMonsterGroup g = _
    rw [ih, getMonsterGroup_bury, Option.map_map]
    rfl

theorem updateAI_spec (sqrt : ℚ → ℚ) (now : ℚ) (hinit : s.initialized) :
    ∃ s₁, Steady s s₁ ∧ s.updateAI sqrt now = s₁.buryAll s₁.deadIds := by
  rw [updateAI, if_neg (not_not.mpr hinit)]
  have hthink : Steady s (s.monsters.entries.foldl (fun s e => s.processMonsterAI sqrt e.1 now) s) :=
    tame_calm.foldl (fun s _ => tame_calm.processMonsterAI sqrt now s _) _ s
  have hgroups (s : SyncedMonsterAI) :
      Steady s (s.groups.entries.foldl (fun s e => s.processGroupBehavior e.1) s) :=
    tame_calm.foldl (fun s _ => tame_calm.processGroupBehavior s _) _ s
  refine ⟨_, ?_, cleanupDeadMonsters_eq _⟩
  split_ifs
  · exact tame_calm.next hthink (hgroups _)
  · exact hthink

end Cleanup

def MonsterOp.Quiet : MonsterOp → Prop
  | .processMonsterAI .. | .makeDecision .. | .setMonsterTarget .. | .clearMonsterTarget ..
  | .setSyncOwner .. | .updateGroupBehavior .. | .onPlayerEnterRange .. | .onPlayerLeaveRange ..
  | .onPlayerDeath .. | .enableGroupBehavior .. => True
  | _ => False

theorem Tame.monsterStep {R : MonsterAIData → MonsterAIData → Prop} (hR : Tame R) (sqrt : ℚ → ℚ)
    (s : SyncedMonsterAI) {op : MonsterOp} (h : op.Quiet) (hne : ∀ m p, op ≠ .setSyncOwner m p) :
    Moved R s (monsterStep sqrt s op) := by
  cases op with
  | processMonsterAI m now => exact hR.processMonsterAI sqrt now s m
  | makeDecision m players => exact hR.makeDecision s m players
  | setMonsterTarget m p => exact hR.setMonsterTarget s m p
  | clearMonsterTarget m => exact hR.clearMonsterTarget s m
  | setSyncOwner m p => exact absurd rfl (hne m p)
  | updateGroupBehavior g => exact hR.updateGroupBehavior s g
  | onPlayerEnterRange p position now =>
    exact hR.foldl (fun s _ => hR.noticePlayer sqrt now s p _ position) _ s
  | onPlayerLeaveRange p position => exact hR.foldl (fun s _ => hR.forgetPlayer s p _) _ s
  | onPlayerDeath p => exact hR.foldl (fun s _ => hR.forgetPlayer s p _) _ s
  | enableGroupBehavior enable => exact hR.moved_of_eq rfl rfl
  | _ => exact h.elim

theorem steady_of_quiet (sqrt : ℚ → ℚ) (s : SyncedMonsterAI) {op : MonsterOp} (h : op.Quiet) :
    Steady s (monsterStep sqrt s op) := by
  by_cases howner : ∃ m p, op = .setSyncOwner m p
  · obtain ⟨m, p, rfl⟩ := howner
    have hcalm (d : MonsterAIData) : d.Calm { d with syncOwner := p, needsSync := true } :=
      ⟨rfl, Iff.rfl⟩
    exact tame_calm.modifyMonster hcalm s m
  · exact tame_calm.monsterStep sqrt s h fun m p heq => howner ⟨m, p, heq⟩

end SyncedMonsterAI
end WitcherMP.Monsters
