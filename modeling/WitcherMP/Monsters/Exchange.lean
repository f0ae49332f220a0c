import WitcherMP.Monsters.Deaths
import WitcherMP.Lib.Replicas

/-! Two replicas that change a monster each on its own and send each other its data. Data of
another owner is turned down as long as changes wait to be synchronised, and no call of a
replica ever takes the mark off again. -/

namespace WitcherMP.Monsters
open Replicas

def MonsterAIData.unstamped (d : MonsterAIData) : MonsterAIData := { d with lastSyncTime := 0 }

structure MonsterAIData.Claimed (d d' : MonsterAIData) : Prop where
  syncOwner : d'.syncOwner = d.syncOwner
  needsSync : d.needsSync = true → d'.needsSync = true

namespace SyncedMonsterAI

def Contested (m owner : UInt32) (s : SyncedMonsterAI) : Prop :=
  ∃ monster, s.getMonster m = some monster ∧ monster.syncOwner = owner ∧ monster.needsSync = true

theorem tame_claimed : Tame fun d d' => d.Calm d' ∧ d.Claimed d' where
  refl d := ⟨.refl d, rfl, id⟩
  trans := fun ⟨h, hc⟩ ⟨h', hc'⟩ =>
    ⟨h.trans h', hc'.syncOwner.trans hc.syncOwner, hc'.needsSync ∘ hc.needsSync⟩
  dead h := h.1.dead
  velocity d _ := ⟨tame_calm.velocity d _, rfl, id⟩
  attack d _ := ⟨tame_calm.attack d _, rfl, id⟩
  aim d _ := ⟨tame_calm.aim d _, rfl, id⟩
  threats d _ := ⟨tame_calm.threats d _, rfl, id⟩
  target d _ := ⟨tame_calm.target d _, rfl, fun _ => rfl⟩
  roused d _ now halive hnew := ⟨tame_calm.roused d _ now halive hnew, rfl, fun _ => rfl⟩

section Changes
variable {s s' : SyncedMonsterAI} {m owner : UInt32}

theorem Contested.moved (h : s.Contested m owner)
    (hmoved : Moved (fun d d' => d.Calm d' ∧ d.Claimed d') s s') : s'.Contested m owner := by
  obtain ⟨monster, hmonster, howner, hsync⟩ := h
  obtain ⟨monster', hmonster', -, hclaimed⟩ := rel_some_left (hmonster ▸ hmoved.monsters m)
  exact ⟨monster', hmonster', hclaimed.syncOwner.trans howner, hclaimed.needsSync hsync⟩

theorem Contested.setMonster (h : s.Contested m owner) {m' : UInt32} {d : MonsterAIData}
    (d' : MonsterAIData) (hget : s.getMonster m' = some d) (hclaimed : d.Claimed d') :
    (s.setMonster m' d').Contested m owner := by
  obtain ⟨monster, hmonster, howner, hsync⟩ := h
  unfold Contested
  rw [getMonster_setMonster]
  split_ifs with hm
  · obtain rfl := Option.some.inj (hmonster.symm.trans (hm ▸ hget))
    exact ⟨d', rfl, hclaimed.syncOwner.trans howner, hclaimed.needsSync hsync⟩
  · exact ⟨monster, hmonster, howner, hsync⟩

theorem Contested.changeMonsterState (h : s.Contested m owner) (m' : UInt32)
    (newState : MonsterAIState) (now : ℚ) : (s.changeMonsterState m' newState now).Contested m owner := by
  obtain ⟨stats, heq⟩ := s.changeMonsterState_eq m' newState now
  rw [heq, SyncedMonsterAI.modifyMonster]
  cases hget : s.getMonster m' with
  | none => exact h
  | some d =>
    refine h.setMonster (entering newState now d) hget ?_
    unfold entering
    split_ifs
    · exact ⟨rfl, id⟩
    · exact ⟨rfl, fun _ => rfl⟩

theorem Contested.onPlayerAttack (h : s.Contested m owner) (p m' : UInt32) (damage now : ℚ) :
    (s.onPlayerAttack p m' damage now).1.Contested m owner := by
  unfold SyncedMonsterAI.onPlayerAttack
  cases hget : s.getMonster m' with
  | none => exact h
  | some monster =>
    dsimp only
    generalize (if monster.threatList.contains p then _ else _) = threats
    have hset := h.setMonster { monster with
      health := max 0 (monster.health - damage), threatList := threats } hget ⟨rfl, id⟩
    have haim := hset.moved (tame_claimed.setMonsterTarget _ m' p)
    split_ifs
    · exact (haim.changeMonsterState ..).changeMonsterState ..
    · exact haim.changeMonsterState ..
    · exact haim.changeMonsterState ..
    · exact haim

end Changes

structure Replica where
  ai : SyncedMonsterAI
  now : ℚ

inductive Change
  | clock (now : ℚ)
  | call (op : MonsterOp)

def monsterNode (sqrt : ℚ → ℚ) (monsterId : UInt32) : Node Replica Change (Option MonsterAIData) where
  update r
    | .clock now => { r with now := now }
    | .call op => { r with ai := monsterStep sqrt r.ai op }
  take r := r.ai.getMonster monsterId
  install r
    | none => r
    | some syncData => { r with ai := r.ai.processMonsterUpdate syncData r.now }

def Change.Local : Change → Prop
  | .clock _ => True
  | .call (.processMonsterAI ..) | .call (.makeDecision ..) | .call (.changeMonsterState ..)
  | .call (.setMonsterTarget ..) | .call (.clearMonsterTarget ..) | .call (.onPlayerEnterRange ..)
  | .call (.onPlayerLeaveRange ..) | .call (.onPlayerAttack ..) | .call (.onPlayerDeath ..) => True
  | .call _ => False

def Ignored (sqrt : ℚ → ℚ) (m : UInt32) (p : Pair Replica (Option MonsterAIData)) :
    Action Change → Prop
  | .update .. | .snapshot .. => True
  | .deliver i k => (((monsterNode sqrt m).step p (.deliver i k)).state i).ai.getMonster m
      = (p.state i).ai.getMonster m

def SameMonster (m : UInt32) (p : Pair Replica (Option MonsterAIData)) : Prop :=
  ((p.state .left).ai.getMonster m).map MonsterAIData.unstamped
    = ((p.state .right).ai.getMonster m).map MonsterAIData.unstamped

section Replicas
variable {m owner : UInt32}

theorem Contested.changed {r : Replica} (h : r.ai.Contested m owner) (sqrt : ℚ → ℚ) {c : Change}
    (hc : c.Local) : ((monsterNode sqrt m).update r c).ai.Contested m owner := by
  cases c with
  | clock now => exact h
  | call op =>
    change (monsterStep sqrt r.ai op).Contested m owner
    cases op with
    | changeMonsterState m' newState now => exact h.changeMonsterState m' newState now
    | onPlayerAttack p m' damage now => exact h.onPlayerAttack p m' damage now
    | processMonsterAI | makeDecision | setMonsterTarget | clearMonsterTarget | onPlayerEnterRange
    | onPlayerLeaveRange | onPlayerDeath =>
      exact h.moved (tame_claimed.monsterStep sqrt r.ai (by trivial) (by simp))
    | _ => exact hc.elim

theorem Contested.getMonster_install {r : Replica} (h : r.ai.Contested m owner) (sqrt : ℚ → ℚ)
    {d : Option MonsterAIData} (hd : ∀ syncData ∈ d, syncData.syncOwner ≠ owner) :
    ((monsterNode sqrt m).install r d).ai.getMonster m = r.ai.getMonster m := by
  cases d with
  | none => rfl
  | some syncData =>
    obtain ⟨monster, hmonster, howner, hsync⟩ := h
    have hconflict : monster.syncOwner ≠ syncData.syncOwner ∧ monster.needsSync :=
      ⟨howner ▸ (hd syncData rfl).symm, hsync⟩
    refine (getMonster_synchronizeMonster r.ai syncData.monsterId m syncData r.now).trans ?_
    rw [hmonster, Option.map_some, if_pos hconflict, ite_self]

variable {owners : Side → UInt32}

theorem upholds_contested (sqrt : ℚ → ℚ) (hne : owners .left ≠ owners .right) :
    Upholds (monsterNode sqrt m) (fun i r => r.ai.Contested m (owners i))
      (fun i d => ∀ syncData ∈ d, syncData.syncOwner ≠ owners i) fun _ c => c.Local where
  update i r c h hc := h.changed sqrt hc
  take i r h := by
    intro syncData hsyncData
    obtain ⟨monster, hmonster, howner, -⟩ := h
    obtain rfl := Option.some.inj (hmonster.symm.trans hsyncData)
    rw [howner]
    cases i
    · exact hne
    · exact hne.symm
  install i r d h hd := by
    unfold Contested
    rw [h.getMonster_install sqrt hd]
    exact h

/-- The sides of a pair with these owners, and what is on its way to each. -/
def Disputed (m : UInt32) (owners : Side → UInt32) (p : Pair Replica (Option MonsterAIData)) : Prop :=
  Holding (fun i r => r.ai.Contested m (owners i))
    (fun i d => ∀ syncData ∈ d, syncData.syncOwner ≠ owners i) p

theorem Disputed.ignored {p : Pair Replica (Option MonsterAIData)} (hp : Disputed m owners p)
    (sqrt : ℚ → ℚ) (a : Action Change) : Ignored sqrt m p a := by
  cases a with
  | update | snapshot => trivial
  | deliver i k =>
    rw [Ignored, Node.step]
    cases hk : (p.underWay i)[k]? with
    | none => rfl
    | some d =>
      dsimp only
      rw [Function.update_self]
      exact (hp.state i).getMonster_install sqrt (hp.underWay i d (List.mem_of_getElem? hk))

theorem Disputed.not_same {p : Pair Replica (Option MonsterAIData)} (hp : Disputed m owners p)
    (hne : owners .left ≠ owners .right) : ¬ SameMonster m p := by
  intro hsame
  obtain ⟨monster, hmonster, howner, -⟩ := hp.state .left
  obtain ⟨monster', hmonster', howner', -⟩ := hp.state .right
  rw [SameMonster, hmonster, hmonster', Option.map_some, Option.map_some] at hsame
  have hrecords : monster.unstamped = monster'.unstamped := Option.some.inj hsame
  have howners : monster.unstamped.syncOwner = monster'.unstamped.syncOwner := by rw [hrecords]
  exact hne (howner.symm.trans (howners.trans howner'))

/-- Where each side has an owner of its own for the monster and changes that wait to be
synchronised, nothing that arrives is ever taken over, and the two never hold the same. -/
theorem never_the_same (sqrt : ℚ → ℚ) {p : Pair Replica (Option MonsterAIData)}
    (hempty : ∀ i, p.underWay i = []) (hcontested : ∀ i, (p.state i).ai.Contested m (owners i))
    (hne : owners .left ≠ owners .right) {as : List (Action Change)}
    (has : Run.Along (monsterNode sqrt m).step (AtUpdate fun _ c => c.Local) p as) :
    Run.Along (monsterNode sqrt m).step (Ignored sqrt m) p as ∧
      ¬ SameMonster m (Run.run (monsterNode sqrt m).step p as) := by
  have hp : Disputed m owners p :=
    ⟨hcontested, fun i d hd => absurd (hempty i ▸ hd) List.not_mem_nil⟩
  have hstep (p : Pair Replica (Option MonsterAIData)) (a : Action Change) (hp : Disputed m owners p)
      (ha : AtUpdate (fun _ c => c.Local) p a) :
      Disputed m owners ((monsterNode sqrt m).step p a) ∧ Ignored sqrt m p a :=
    ⟨(upholds_contested sqrt hne).step hp ha, hp.ignored sqrt a⟩
  obtain ⟨hend, halong⟩ := Run.along_of_step hstep hp has
  exact ⟨halong, hend.not_same hne⟩

def disputedPair : Pair Replica (Option MonsterAIData) :=
  let s : SyncedMonsterAI := ({ initialized := true } : SyncedMonsterAI).addMonster { monsterId := 1 } 0
  let state : Side → Replica
    | .left => ⟨s.setSyncOwner 1 7, 0⟩
    | .right => ⟨s.setSyncOwner 1 8, 0⟩
  ⟨state, fun _ => []⟩

def crossing : List (Action Change) :=
  [.update .left (.call (.setMonsterTarget 1 7)), .update .right (.call (.changeMonsterState 1 .fleeing 1)),
    .snapshot .left, .snapshot .right, .update .left (.clock 2), .deliver .left 0, .deliver .right 0]

theorem never_the_same_crossing :
    ¬ SameMonster 1 (Run.run (monsterNode id 1).step disputedPair crossing) := by
  let owners : Side → UInt32
    | .left => 7
    | .right => 8
  have hcontested : ∀ i, (disputedPair.state i).ai.Contested 1 (owners i)
    | .left => ⟨_, rfl, rfl, rfl⟩
    | .right => ⟨_, rfl, rfl, rfl⟩
  have hlocal : Run.Along (monsterNode id 1).step (AtUpdate fun _ c => c.Local) disputedPair crossing :=
    ⟨trivial, trivial, trivial, trivial, trivial, trivial, trivial, trivial⟩
  exact (never_the_same id (fun _ => rfl) hcontested (by decide) hlocal).2

theorem not_same_delivered :
    let p := Run.run (monsterNode id 1).step disputedPair crossing
    p.underWay .left = [] ∧ p.underWay .right = [] ∧
      ((p.state .left).ai.getMonster 1).map MonsterAIData.currentState = some .idle ∧
      ((p.state .right).ai.getMonster 1).map MonsterAIData.currentState = some .fleeing ∧
      ¬ SameMonster 1 p := by
  refine ⟨rfl, rfl, by decide +kernel, by decide +kernel, ?_⟩
  unfold SameMonster
  decide +kernel

end Replicas

end SyncedMonsterAI
end WitcherMP.Monsters
