import WitcherMP.Progression.Defs
import WitcherMP.Lib.Prerequisites
import WitcherMP.Lib.Run

/-! The skill tree: nothing is unlocked or levelled before all that it requires is unlocked. -/

namespace WitcherMP.Progression
open Relation Prerequisites

abbrev SkillMap := OrdMap UInt32 SkillData

namespace SkillMap

def Unlocked (m : SkillMap) (skillId : UInt32) : Prop :=
  ∃ skill, m.find? skillId = some skill ∧ skill.isUnlocked

def Requires (m : SkillMap) (skillId prereqId : UInt32) : Prop :=
  ∃ skill, m.find? skillId = some skill ∧ prereqId ∈ skill.prerequisites

end SkillMap

def SkillData.Opened (skill : SkillData) : Prop := skill.isUnlocked ∨ 0 < skill.currentLevel

namespace SkillMap

def opened (m : SkillMap) : Set UInt32 :=
  {skillId | ∃ skill, m.find? skillId = some skill ∧ skill.Opened}

structure Edit (m : SkillMap) (skill skill' : SkillData) : Prop where
  same : skill'.prerequisites = skill.prerequisites
  keeps : skill.isUnlocked → skill'.isUnlocked
  opens : skill'.Opened
  ready : ∀ r ∈ skill.prerequisites, m.Unlocked r
  capped : skill.currentLevel ≤ skill.maxLevel → skill'.currentLevel ≤ skill'.maxLevel

inductive Move (m : SkillMap) : SkillMap → Prop
  | none : Move m m
  | edit {skillId : UInt32} {skill skill' : SkillData} (hskill : m.find? skillId = some skill)
      (hedit : m.Edit skill skill') : Move m (m.insert skillId skill')

end SkillMap

namespace SharedProgression
variable (floatMul : UInt32 → ℚ → UInt32) (required : UInt32 → UInt32) (s : SharedProgression)

theorem unlocked_of_checkSkillPrerequisites {s : SharedProgression} {playerId skillId : UInt32}
    {skill : SkillData} (hskill : s.getSkill skillId = some skill)
    (h : s.checkSkillPrerequisites playerId skillId) :
    ∀ r ∈ skill.prerequisites, SkillMap.Unlocked s.skills r := by
  intro r hr
  simp only [checkSkillPrerequisites, hskill] at h
  cases hplayer : s.getPlayerProgression playerId with
  | none => simp [hplayer] at h
  | some player =>
    simp only [hplayer] at h
    split_ifs at h with hlevel
    have hall := List.all_eq_true.mp h r hr
    cases hreq : s.getSkill r with
    | none => simp [hreq] at hall
    | some prereq => exact ⟨prereq, hreq, by simpa [hreq] using hall⟩

theorem skills_addExperience (p n : UInt32) (g : Bool) :
    (s.addExperience floatMul required p n g).1.skills = s.skills := by
  unfold addExperience
  cases s.getPlayerProgression p <;> rfl

theorem skills_addSkillPoint (p n : UInt32) : (s.addSkillPoint p n).1.skills = s.skills := by
  unfold addSkillPoint
  cases s.getPlayerProgression p <;> rfl

theorem skills_levelUpPlayer (p : UInt32) : (s.levelUpPlayer required p).1.skills = s.skills := by
  unfold levelUpPlayer
  cases s.getPlayerProgression p with
  | none => rfl
  | some player =>
    dsimp only
    split_ifs <;> rfl

theorem skills_distributeGroupExperience (g : UInt32) :
    (s.distributeGroupExperience floatMul required g).1.skills = s.skills := by
  unfold distributeGroupExperience
  cases s.groupProgressions.find? g with
  | none => rfl
  | some group =>
    dsimp only
    split_ifs
    · rfl
    · exact List.foldlRecOn group.members _ (motive := fun s' => s'.skills = s.skills) rfl
        fun s' hs' p _ => (skills_addExperience floatMul required s' p _ true).trans hs'

theorem skills_unlockAchievement (p a : UInt32) :
    (s.unlockAchievement floatMul required p a).1.skills = s.skills := by
  unfold unlockAchievement
  cases s.getPlayerProgression p with
  | none => rfl
  | some player =>
    cases s.achievements.find? a with
    | none => rfl
    | some achievement =>
      dsimp only
      split_ifs <;> simp only [skills_addExperience, skills_addSkillPoint]

theorem spendSkillPoint_cases (p k : UInt32) :
    s.spendSkillPoint p k = (s, false) ∨
      ∃ player skill, s.getPlayerProgression p = some player ∧ s.getSkill k = some skill ∧
        1 ≤ player.skillPoints ∧ skill.currentLevel < skill.maxLevel ∧
        s.checkSkillPrerequisites p k ∧
        s.spendSkillPoint p k =
          ((s.setPlayer p { player with skillPoints := player.skillPoints - 1 }).setSkill k
            { skill with currentLevel := skill.currentLevel + 1 }, true) := by
  unfold spendSkillPoint
  cases hplayer : s.getPlayerProgression p with
  | none => exact Or.inl rfl
  | some player =>
    cases hskill : s.getSkill k with
    | none => exact Or.inl rfl
    | some skill =>
      dsimp only
      split_ifs with hpoints hlevel hcheck
      · exact Or.inl rfl
      · exact Or.inl rfl
      · exact Or.inr ⟨player, skill, rfl, rfl, not_lt.mp hpoints, not_le.mp hlevel, hcheck, rfl⟩
      · exact Or.inl rfl

theorem move_spendSkillPoint (p k : UInt32) :
    SkillMap.Move s.skills (s.spendSkillPoint p k).1.skills := by
  rcases s.spendSkillPoint_cases p k with h | ⟨player, skill, -, hskill, -, hlt, hcheck, h⟩
  · rw [h]
    exact .none
  · rw [h]
    have hnext := Word32.toNat_succ_of_lt hlt
    refine .edit hskill ⟨rfl, fun h => h, Or.inr ?_,
      unlocked_of_checkSkillPrerequisites hskill hcheck, fun _ => ?_⟩
    · exact UInt32.lt_iff_toNat_lt.mpr (hnext ▸ Nat.succ_pos _)
    · exact UInt32.le_iff_toNat_le.mpr (hnext ▸ UInt32.lt_iff_toNat_lt.mp hlt)

theorem move_unlockSkill (p k : UInt32) :
    SkillMap.Move s.skills (s.unlockSkill p k).1.skills := by
  unfold unlockSkill
  cases s.getPlayerProgression p with
  | none => exact .none
  | some player =>
    cases hskill : s.getSkill k with
    | none => exact .none
    | some skill =>
      dsimp only
      split_ifs with hunlocked hcheck
      · exact .none
      · exact .edit hskill ⟨rfl, fun _ => rfl, Or.inl rfl,
          unlocked_of_checkSkillPrerequisites hskill hcheck, fun h => h⟩
      · exact .none

theorem move_step (op : Op) : SkillMap.Move s.skills (s.step floatMul required op).skills := by
  cases op with
  | spendSkillPoint p k => exact s.move_spendSkillPoint p k
  | upgradeSkill p k => exact s.move_spendSkillPoint p k
  | unlockSkill p k => exact s.move_unlockSkill p k
  | addExperience p n g =>
    change SkillMap.Move s.skills (s.addExperience floatMul required p n g).1.skills
    rw [skills_addExperience]
    exact .none
  | levelUpPlayer p =>
    change SkillMap.Move s.skills (s.levelUpPlayer required p).1.skills
    rw [skills_levelUpPlayer]
    exact .none
  | addSkillPoint p n =>
    change SkillMap.Move s.skills (s.addSkillPoint p n).1.skills
    rw [skills_addSkillPoint]
    exact .none
  | unlockAchievement p a =>
    change SkillMap.Move s.skills (s.unlockAchievement floatMul required p a).1.skills
    rw [skills_unlockAchievement]
    exact .none
  | distributeGroupExperience g =>
    change SkillMap.Move s.skills (s.distributeGroupExperience floatMul required g).1.skills
    rw [skills_distributeGroupExperience]
    exact .none

end SharedProgression

namespace SkillMap
variable {m m' : SkillMap}

structure Gated (m : SkillMap) : Prop where
  ready : ∀ skillId skill, m.find? skillId = some skill → skill.Opened →
    ∀ r ∈ skill.prerequisites, m.Unlocked r
  capped : ∀ skillId skill, m.find? skillId = some skill → skill.currentLevel ≤ skill.maxLevel
  orderly : Orderly m.Requires m.opened

def Closed (m : SkillMap) : Prop := ∀ skillId skill, m.find? skillId = some skill →
  ¬ skill.isUnlocked ∧ skill.currentLevel = 0

instance decidableClosed (m : SkillMap) : Decidable m.Closed :=
  decidable_of_iff (∀ e ∈ m.entries, ¬ e.2.isUnlocked ∧ e.2.currentLevel = 0)
    ⟨fun h k skill hskill => h (k, skill) (OrdMap.find?_eq_some_iff.mp hskill),
      fun h e he => h e.1 e.2 (OrdMap.find?_eq_some_iff.mpr he)⟩

theorem Closed.gated (h : Closed m) : Gated m where
  ready k skill hskill hopen := by
    rcases hopen with hun | hlev
    · exact absurd hun (h k skill hskill).1
    · exact absurd ((h k skill hskill).2 ▸ hlev) (by decide)
  capped k skill hskill := (h k skill hskill).2 ▸ UInt32.zero_le
  orderly := by
    have hempty : m.opened = ∅ := by
      refine Set.eq_empty_of_forall_notMem ?_
      rintro k ⟨skill, hskill, hun | hlev⟩
      · exact absurd hun (h k skill hskill).1
      · exact absurd ((h k skill hskill).2 ▸ hlev) (by decide)
    rw [hempty]
    exact orderly_empty

theorem Unlocked.opened {skillId : UInt32} (h : m.Unlocked skillId) : skillId ∈ m.opened := by
  obtain ⟨skill, hskill, hun⟩ := h
  exact ⟨skill, hskill, Or.inl hun⟩

section Edit
variable {skillId : UInt32} {skill skill' : SkillData}

theorem Unlocked.edit (hskill : m.find? skillId = some skill) (hedit : m.Edit skill skill')
    {k : UInt32} (h : m.Unlocked k) : Unlocked (m.insert skillId skill') k := by
  obtain ⟨old, hold, hun⟩ := h
  by_cases hk : skillId = k
  · subst hk
    obtain rfl := Option.some.inj (hskill.symm.trans hold)
    exact ⟨skill', OrdMap.find?_insert_self .., hedit.keeps hun⟩
  · exact ⟨old, (OrdMap.find?_insert_of_ne m _ hk).trans hold, hun⟩

theorem requires_edit (hskill : m.find? skillId = some skill) (hedit : m.Edit skill skill') :
    Requires (m.insert skillId skill') = m.Requires := by
  funext k r
  unfold Requires
  rw [OrdMap.find?_insert]
  split_ifs with hk
  · subst hk
    simp [hskill, hedit.same]
  · rfl

theorem opened_edit (hedit : m.Edit skill skill') :
    opened (m.insert skillId skill') = insert skillId m.opened := by
  ext k
  unfold opened
  rw [Set.mem_ofPred_eq, OrdMap.find?_insert, Set.mem_insert_iff]
  split_ifs with hk
  · subst hk
    simp [hedit.opens]
  · simp [show k ≠ skillId from fun h => hk h.symm]

theorem Gated.edit (h : Gated m) (hskill : m.find? skillId = some skill)
    (hedit : m.Edit skill skill') : Gated (m.insert skillId skill') where
  ready k old hold hopen r hr := by
    refine Unlocked.edit hskill hedit ?_
    rw [OrdMap.find?_insert] at hold
    split_ifs at hold with hk
    · obtain rfl := Option.some.inj hold
      exact hedit.ready r (hedit.same ▸ hr)
    · exact h.ready k old hold hopen r hr
  capped k old hold := by
    rw [OrdMap.find?_insert] at hold
    split_ifs at hold with hk
    · obtain rfl := Option.some.inj hold
      exact hedit.capped (h.capped skillId skill hskill)
    · exact h.capped k old hold
  orderly := by
    rw [requires_edit hskill hedit, opened_edit hedit]
    refine h.orderly.insert ?_
    rintro r ⟨old, hold, hr⟩
    obtain rfl := Option.some.inj (hskill.symm.trans hold)
    exact (hedit.ready r hr).opened

end Edit

theorem Gated.move (h : Gated m) (hmove : Move m m') : Gated m' := by
  cases hmove with
  | none => exact h
  | edit hskill hedit => exact h.edit hskill hedit

end SkillMap

namespace SharedProgression
variable (floatMul : UInt32 → ℚ → UInt32) (required : UInt32 → UInt32)

/-- Whatever the skills require: what is unlocked or levelled has its prerequisites unlocked, no
level is above its limit, and nothing that leads into a cycle is unlocked or levelled. -/
theorem skills_gated {s₀ : SharedProgression} (h : SkillMap.Closed s₀.skills) (ops : List Op) :
    let s := Run.run (step floatMul required) s₀ ops
    (∀ skillId skill, s.getSkill skillId = some skill →
      (skill.isUnlocked ∨ 0 < skill.currentLevel) →
      ∀ r ∈ skill.prerequisites, ∃ prereq, s.getSkill r = some prereq ∧ prereq.isUnlocked) ∧
    (∀ skillId skill, s.getSkill skillId = some skill → skill.currentLevel ≤ skill.maxLevel) ∧
    (∀ skillId onCycle, ReflTransGen (SkillMap.Requires s.skills) skillId onCycle →
      TransGen (SkillMap.Requires s.skills) onCycle onCycle →
      ∀ skill, s.getSkill skillId = some skill → ¬ skill.isUnlocked ∧ skill.currentLevel = 0) := by
  intro s
  have hgated : SkillMap.Gated s.skills :=
    Run.invariant_run (I := fun s : SharedProgression => SkillMap.Gated s.skills)
      (fun s op hs => SkillMap.Gated.move hs (s.move_step floatMul required op)) h.gated ops
  refine ⟨hgated.ready, hgated.capped, fun k c hkc hcc skill hskill => ?_⟩
  have hnot : ¬ skill.Opened := fun hopen => hgated.orderly.not_cycle ⟨skill, hskill, hopen⟩ hkc hcc
  refine ⟨fun hun => hnot (Or.inl hun), ?_⟩
  by_contra hlev
  exact hnot (Or.inr (UInt32.pos_iff_ne_zero.mpr hlev))

theorem skills_gated_pair :
    let s₀ : SharedProgression := {
      playerProgressions := .ofList [(7, { skillPoints := 2 })]
      skills := .ofList [(1, { experienceRequired := 1 }),
        (2, { experienceRequired := 1, prerequisites := [1] }),
        (3, { experienceRequired := 1, prerequisites := [4] }),
        (4, { experienceRequired := 1, prerequisites := [3] })] }
    let s := Run.run (step (fun n _ => n) fun _ => 1000) s₀ [.upgradeSkill 7 2, .unlockSkill 7 1,
      .upgradeSkill 7 2, .unlockSkill 7 3, .unlockSkill 7 4]
    (s.getSkill 2).map SkillData.currentLevel = some 1 ∧
      ∀ skillId skill, s.getSkill skillId = some skill → skill.currentLevel ≤ skill.maxLevel :=
  ⟨by decide +kernel, (skills_gated _ _ (by decide +kernel) _).2.1⟩

end SharedProgression
end WitcherMP.Progression
