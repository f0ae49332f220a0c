import WitcherMP.Monsters.Steady
import WitcherMP.Lib.Run

/-! The players that monsters know of: no event puts one on a list twice, so that taking off one
occurrence of a player who leaves or dies takes the player off. -/

namespace WitcherMP.Monsters.SyncedMonsterAI

/-- No monster lists a player twice. -/
def Clean (s : SyncedMonsterAI) : Prop :=
  ∀ m monster, s.getMonster m = some monster → monster.threatList.Nodup

/-- The events, target changes, and monsters that are added with a clean list. -/
def Stirring : MonsterOp → Prop
  | .addMonster monsterData _ => monsterData.threatList.Nodup
  | .setMonsterTarget .. | .clearMonsterTarget .. | .onPlayerEnterRange ..
  | .onPlayerLeaveRange .. | .onPlayerAttack .. | .onPlayerDeath .. => True
  | _ => False

def forgotten (playerId : UInt32) (monster : MonsterAIData) : MonsterAIData :=
  { monster with
    threatList := monster.threatList.erase playerId
    targetPlayerId := if monster.targetPlayerId = playerId then 0 else monster.targetPlayerId
    needsSync := monster.needsSync || decide (monster.targetPlayerId = playerId) }

section Clean
variable {s : SyncedMonsterAI} {m p : UInt32} {now : ℚ}

theorem Clean.setMonster (h : s.Clean) {monster : MonsterAIData}
    (hmonster : monster.threatList.Nodup) : (s.setMonster m monster).Clean := by
  intro m' monster' hget
  rw [getMonster_setMonster] at hget
  split at hget
  · rw [← Option.some.inj hget]
    exact hmonster
  · exact h m' monster' hget

theorem Clean.modifyMonster (h : s.Clean) {f : MonsterAIData → MonsterAIData}
    (hf : ∀ monster, (f monster).threatList = monster.threatList) : (s.modifyMonster m f).Clean := by
  unfold SyncedMonsterAI.modifyMonster
  split
  · exact h
  · next monster hmonster =>
    have hlist := h m monster hmonster
    rw [← hf] at hlist
    exact h.setMonster hlist

theorem Clean.changeMonsterState (h : s.Clean) (newState : MonsterAIState) :
    (s.changeMonsterState m newState now).Clean := by
  unfold SyncedMonsterAI.changeMonsterState
  split
  · exact h
  · next monster hmonster =>
    have hset : (s.setMonster m { monster with
        previousState := monster.currentState, currentState := newState
        lastStateChange := now, needsSync := true }).Clean := h.setMonster (h m monster hmonster)
    split
    · exact h
    split
    · exact hset
    · exact hset

theorem nodup_threatList {threats : List UInt32} (h : threats.Nodup) (p : UInt32) :
    (if threats.contains p then threats else threats ++ [p]).Nodup := by
  split
  · exact h
  · next hnew =>
    rw [List.contains_iff_mem] at hnew
    exact h.append (List.nodup_singleton p) (List.disjoint_singleton.mpr hnew)

theorem Clean.noticePlayer (sqrt : ℚ → ℚ) (position : Vector4F) (h : s.Clean) :
    (noticePlayer sqrt p position now s m).Clean := by
  unfold SyncedMonsterAI.noticePlayer
  split
  · exact h
  · next monster hmonster =>
    split
    · have hset : (s.setMonster m { monster with
          threatList := if monster.threatList.contains p then monster.threatList
            else monster.threatList ++ [p] }).Clean :=
        h.setMonster (nodup_threatList (h m monster hmonster) p)
      dsimp only
      split
      · exact hset.changeMonsterState .alert
      · exact hset
    · exact h

theorem Clean.onPlayerAttack (h : s.Clean) (damage : ℚ) :
    (s.onPlayerAttack p m damage now).1.Clean := by
  unfold SyncedMonsterAI.onPlayerAttack
  split
  · exact h
  · next monster hmonster =>
    have hset : (s.setMonster m { monster with
        health := max 0 (monster.health - damage)
        threatList := if monster.threatList.contains p then monster.threatList
          else monster.threatList ++ [p] }).Clean :=
      h.setMonster (nodup_threatList (h m monster hmonster) p)
    have htarget := hset.modifyMonster (m := m)
      (f := fun monster => { monster with targetPlayerId := p, needsSync := true }) fun _ => rfl
    dsimp only
    split
    · split
      · exact (htarget.changeMonsterState .aggressive).changeMonsterState .dead
      · exact htarget.changeMonsterState .dead
    · split
      · exact htarget.changeMonsterState .aggressive
      · exact htarget

theorem Clean.addMonster (h : s.Clean) {monsterData : MonsterAIData}
    (hlist : monsterData.threatList.Nodup) : (s.addMonster monsterData now).Clean := by
  unfold SyncedMonsterAI.addMonster
  split
  · exact h
  · have hset : (s.setMonster (s.assignedId monsterData) { monsterData with
        monsterId := s.assignedId monsterData, lastSyncTime := now }).Clean := h.setMonster hlist
    exact hset

end Clean

section Forgetting
variable {s : SyncedMonsterAI} {p : UInt32}

theorem getMonster_forgetPlayer (p m m' : UInt32) :
    (forgetPlayer p s m).getMonster m' =
      if m = m' then (s.getMonster m').map (forgotten p) else s.getMonster m' := by
  unfold forgetPlayer
  split
  · next hnone =>
    split
    · next hm => rw [← hm, hnone, Option.map_none]
    · rfl
  · next monster hmonster =>
    dsimp only
    split
    · next htarget =>
      rw [clearMonsterTarget, SyncedMonsterAI.modifyMonster, getMonster_setMonster, if_pos rfl]
      dsimp only
      rw [getMonster_setMonster, getMonster_setMonster]
      split
      · next hm =>
        rw [← hm, hmonster, Option.map_some, forgotten, if_pos htarget, decide_eq_true htarget,
          Bool.or_true]
      · rfl
    · next htarget =>
      rw [getMonster_setMonster]
      split
      · next hm =>
        rw [← hm, hmonster, Option.map_some, forgotten, if_neg htarget, decide_eq_false htarget,
          Bool.or_false]
      · rfl

theorem getMonster_foldl_forgetPlayer {ids : List UInt32} (hids : ids.Nodup) (m : UInt32) :
    (ids.foldl (forgetPlayer p) s).getMonster m =
      (s.getMonster m).map fun monster => if m ∈ ids then forgotten p monster else monster := by
  induction ids generalizing s with
  | nil => simp
  | cons m' ids ih =>
    obtain ⟨hnew, hrest⟩ := List.nodup_cons.mp hids
    rw [List.foldl_cons, ih hrest, getMonster_forgetPlayer]
    by_cases hm : m' = m
    · subst hm
      rw [if_pos rfl, Option.map_map]
      simp [hnew, Function.comp_def]
    · rw [if_neg hm]
      simp [Ne.symm hm]

theorem getMonster_onPlayerDeath (s : SyncedMonsterAI) (p m : UInt32) :
    (s.onPlayerDeath p).getMonster m = (s.getMonster m).map (forgotten p) := by
  have hloop : s.onPlayerDeath p = (s.monsters.entries.map Prod.fst).foldl (forgetPlayer p) s := by
    rw [List.foldl_map]
    rfl
  rw [hloop, getMonster_foldl_forgetPlayer s.monsters.nodup_fst]
  cases hmonster : s.getMonster m with
  | none => rfl
  | some monster =>
    have hmem : m ∈ s.monsters.entries.map Prod.fst :=
      List.mem_map.mpr ⟨(m, monster), OrdMap.find?_eq_some_iff.mp hmonster, rfl⟩
    rw [Option.map_some, Option.map_some, if_pos hmem]

theorem onPlayerLeaveRange_eq (s : SyncedMonsterAI) (p : UInt32) (position : Vector4F) :
    s.onPlayerLeaveRange p position = s.onPlayerDeath p := rfl

theorem Clean.onPlayerDeath (h : s.Clean) (p : UInt32) : (s.onPlayerDeath p).Clean := by
  intro m monster' hget
  rw [getMonster_onPlayerDeath] at hget
  obtain ⟨monster, hmonster, rfl⟩ := Option.map_eq_some_iff.mp hget
  exact (h m monster hmonster).erase p

theorem Clean.forgotten_onPlayerDeath (h : s.Clean) (hp : p ≠ 0) {m : UInt32}
    {monster : MonsterAIData} (hget : (s.onPlayerDeath p).getMonster m = some monster) :
    p ∉ monster.threatList ∧ monster.targetPlayerId ≠ p := by
  rw [getMonster_onPlayerDeath] at hget
  obtain ⟨before, hbefore, rfl⟩ := Option.map_eq_some_iff.mp hget
  refine ⟨fun hmem => ?_, ?_⟩
  · exact ((h m before hbefore).mem_erase_iff.mp hmem).1 rfl
  · show (if before.targetPlayerId = p then 0 else before.targetPlayerId) ≠ p
    split
    · exact hp.symm
    · next htarget => exact htarget

end Forgetting

section Runs
variable (sqrt : ℚ → ℚ) {s : SyncedMonsterAI}

theorem Clean.foldl {α : Type} {f : SyncedMonsterAI → α → SyncedMonsterAI}
    (hf : ∀ s a, s.Clean → (f s a).Clean) (h : s.Clean) (as : List α) : (as.foldl f s).Clean := by
  rw [← Run.run_eq_foldl]
  exact Run.invariant_run hf h as

theorem clean_monsterStep {op : MonsterOp} (hop : Stirring op) (h : s.Clean) :
    (monsterStep sqrt s op).Clean := by
  cases op with
  | addMonster monsterData now => exact h.addMonster hop
  | setMonsterTarget m p => exact h.modifyMonster fun _ => rfl
  | clearMonsterTarget m => exact h.modifyMonster fun _ => rfl
  | onPlayerEnterRange p position now =>
    exact h.foldl (fun s _ hs => hs.noticePlayer sqrt position) _
  | onPlayerLeaveRange p position => exact h.onPlayerDeath p
  | onPlayerAttack p m damage now => exact h.onPlayerAttack damage
  | onPlayerDeath p => exact h.onPlayerDeath p
  | _ => exact hop.elim

theorem clean_run {ops : List MonsterOp} (hops : ∀ op ∈ ops, Stirring op) (h : s.Clean) :
    (Run.run (monsterStep sqrt) s ops).Clean := by
  induction ops generalizing s with
  | nil => exact h
  | cons op ops ih =>
    obtain ⟨hop, hrest⟩ := List.forall_mem_cons.mp hops
    exact ih hrest (clean_monsterStep sqrt hop h)

/-- In every run of the events every list stays clean, and a player who has just died or left is
neither listed by a monster nor its target. -/
theorem run_forgotten {ops : List MonsterOp} (hops : ∀ op ∈ ops, Stirring op) (h : s.Clean) :
    let s' := Run.run (monsterStep sqrt) s ops
    s'.Clean ∧ ∀ p, p ≠ 0 →
      (∀ m monster, (s'.onPlayerDeath p).getMonster m = some monster →
        p ∉ monster.threatList ∧ monster.targetPlayerId ≠ p) ∧
      ∀ position m monster, (s'.onPlayerLeaveRange p position).getMonster m = some monster →
        p ∉ monster.threatList ∧ monster.targetPlayerId ≠ p := by
  intro s'
  have hclean : s'.Clean := clean_run sqrt hops h
  refine ⟨hclean, fun p hp => ⟨fun m monster hget => ?_, fun position m monster hget => ?_⟩⟩
  · exact hclean.forgotten_onPlayerDeath hp hget
  · rw [onPlayerLeaveRange_eq] at hget
    exact hclean.forgotten_onPlayerDeath hp hget

end Runs

theorem run_forgotten_two :
    let s' := Run.run (monsterStep fun _ => 0) { initialized := true }
      [.addMonster { monsterId := 1 } 0, .addMonster { monsterId := 2, threatList := [7] } 0,
        .onPlayerEnterRange 7 {} 1, .onPlayerAttack 8 1 10 2, .onPlayerEnterRange 8 {} 3]
    s'.Clean ∧ ∀ p, p ≠ 0 →
      (∀ m monster, (s'.onPlayerDeath p).getMonster m = some monster →
        p ∉ monster.threatList ∧ monster.targetPlayerId ≠ p) ∧
      ∀ position m monster, (s'.onPlayerLeaveRange p position).getMonster m = some monster →
        p ∉ monster.threatList ∧ monster.targetPlayerId ≠ p :=
  run_forgotten _ (by simp [Stirring]) fun _ _ h => by cases h

end WitcherMP.Monsters.SyncedMonsterAI
