import WitcherMP.Progression.Defs

/-! The calls a player makes for skills and achievements: when the checks refuse one, and what one
that they accept leads to. -/

namespace WitcherMP.Progression

inductive Call
  | unlockSkill (skillId : UInt32)
  | spendSkillPoint (skillId : UInt32)
  | upgradeSkill (skillId : UInt32)
  | unlockAchievement (achievementId : UInt32)

namespace Call

def op (playerId : UInt32) : Call → SharedProgression.Op
  | .unlockSkill k => .unlockSkill playerId k
  | .spendSkillPoint k => .spendSkillPoint playerId k
  | .upgradeSkill k => .upgradeSkill playerId k
  | .unlockAchievement a => .unlockAchievement playerId a

theorem eq_of_spends {c : Call} {j k : UInt32} (h : c = .spendSkillPoint j ∨ c = .upgradeSkill j)
    (h' : c = .spendSkillPoint k ∨ c = .upgradeSkill k) : j = k := by
  rcases h with rfl | rfl
  · simpa using h'
  · simpa using h'

end Call

namespace SharedProgression

section Calls
variable (floatMul : UInt32 → ℚ → UInt32) (required : UInt32 → UInt32) (q : UInt32)
  (s : SharedProgression)

def callStep (c : Call) : SharedProgression := s.step floatMul required (c.op q)

def callResult (c : Call) : Bool := (s.apply floatMul required (c.op q)).2

def view : List SkillData × List AchievementData := (s.getPlayerSkills q, s.getPlayerAchievements q)

def Refused : Call → Prop
  | .unlockSkill k => ∀ skill, s.getSkill k = some skill →
    skill.isUnlocked ∨ ¬ s.checkSkillPrerequisites q k
  | .spendSkillPoint k => ∀ skill, s.getSkill k = some skill →
    s.getPlayerSkillPoints q < 1 ∨ skill.maxLevel ≤ skill.currentLevel ∨
      ¬ s.checkSkillPrerequisites q k
  | .upgradeSkill k => ∀ skill, s.getSkill k = some skill →
    s.getPlayerSkillPoints q < 1 ∨ skill.maxLevel ≤ skill.currentLevel ∨
      ¬ s.checkSkillPrerequisites q k
  | .unlockAchievement a => s.getPlayerProgression q = none ∨
    ∀ achievement, s.achievements.find? a = some achievement → achievement.isUnlocked

def rewarded (player : PlayerProgressionData) (achievement : AchievementData) :
    PlayerProgressionData :=
  let player := if achievement.experienceReward > 0 then
      s.levelUps required (s.maxLevel.toNat - player.level.toNat) { player with
        experience :=
          player.experience + s.adjustedAmount floatMul achievement.experienceReward false }
    else player
  if achievement.skillPointReward > 0 then
    { player with skillPoints := player.skillPoints + achievement.skillPointReward }
  else player

inductive Accepted (p : UInt32) : Call → SharedProgression → Prop
  | unlock {k : UInt32} {skill : SkillData} (hskill : s.getSkill k = some skill)
      (hlocked : skill.isUnlocked = false) (hcheck : s.checkSkillPrerequisites p k) :
      Accepted p (.unlockSkill k)
        (s.setSkill k { skill with isUnlocked := true, isActive := true })
  | spend {c : Call} {k : UInt32} {player : PlayerProgressionData} {skill : SkillData}
      (hc : c = .spendSkillPoint k ∨ c = .upgradeSkill k)
      (hplayer : s.getPlayerProgression p = some player) (hskill : s.getSkill k = some skill)
      (hlevel : skill.currentLevel < skill.maxLevel) (hcheck : s.checkSkillPrerequisites p k) :
      Accepted p c
        ((s.setPlayer p { player with skillPoints := player.skillPoints - 1 }).setSkill k
          { skill with currentLevel := skill.currentLevel + 1 })
  | achieve {a : UInt32} {player : PlayerProgressionData} {achievement : AchievementData}
      (hplayer : s.getPlayerProgression p = some player)
      (hachievement : s.achievements.find? a = some achievement)
      (hlocked : achievement.isUnlocked = false) (stats : ProgressionStats) :
      Accepted p (.unlockAchievement a) { s with
        playerProgressions :=
          s.playerProgressions.insert p (s.rewarded floatMul required player achievement)
        achievements := s.achievements.insert a { achievement with isUnlocked := true }
        playerAchievements :=
          s.playerAchievements.insert p (s.playerAchievements.getD p [] ++ [a])
        stats := stats }

end Calls

section Outcomes
variable {floatMul : UInt32 → ℚ → UInt32} {required : UInt32 → UInt32} {s t : SharedProgression}
  {p q k : UInt32} {c : Call} {player : PlayerProgressionData}

structure SameRates (s t : SharedProgression) : Prop where
  maxLevel : t.maxLevel = s.maxLevel
  skillPointsPerLevel : t.skillPointsPerLevel = s.skillPointsPerLevel
  experienceMultiplier : t.experienceMultiplier = s.experienceMultiplier

theorem SameRates.levelUps_eq (h : SameRates s t) (fuel : ℕ) (player : PlayerProgressionData) :
    t.levelUps required fuel player = s.levelUps required fuel player := by
  induction fuel generalizing player with
  | zero => rfl
  | succ fuel ih =>
    rw [levelUps, levelUps, h.maxLevel, ih, levelUp, levelUp, h.skillPointsPerLevel]

theorem SameRates.rewarded_eq (h : SameRates s t) (player : PlayerProgressionData)
    (achievement : AchievementData) : t.rewarded floatMul required player achievement =
      s.rewarded floatMul required player achievement := by
  simp only [rewarded, adjustedAmount, Bool.false_and, Bool.false_eq_true, if_false, h.maxLevel,
    h.experienceMultiplier, h.levelUps_eq]

theorem Accepted.sameRates (h : s.Accepted floatMul required p c t) : SameRates s t := by
  cases h with
  | unlock => exact ⟨rfl, rfl, rfl⟩
  | spend => exact ⟨rfl, rfl, rfl⟩
  | achieve => exact ⟨rfl, rfl, rfl⟩

theorem call_unlockSkill (k : UInt32) :
    s.Refused p (.unlockSkill k) ∧ s.unlockSkill p k = (s, false) ∨
      ¬ s.Refused p (.unlockSkill k) ∧ (s.unlockSkill p k).2 = true ∧
        s.Accepted floatMul required p (.unlockSkill k) (s.unlockSkill p k).1 := by
  unfold unlockSkill
  cases hskill : s.getSkill k with
  | none =>
    refine Or.inl ⟨fun skill h => absurd (hskill.symm.trans h) (Option.some_ne_none skill).symm, ?_⟩
    cases s.getPlayerProgression p <;> rfl
  | some skill =>
    have hrefused : s.Refused p (.unlockSkill k) ↔
        skill.isUnlocked ∨ ¬ s.checkSkillPrerequisites p k := by
      simp only [Refused, hskill, Option.some.injEq, forall_eq']
    rw [hrefused]
    cases hplayer : s.getPlayerProgression p with
    | none =>
      refine Or.inl ⟨Or.inr ?_, rfl⟩
      simp [checkSkillPrerequisites, hskill, hplayer]
    | some player =>
      dsimp only
      split_ifs with hunlocked hcheck
      · exact Or.inl ⟨Or.inl hunlocked, rfl⟩
      · exact Or.inr ⟨not_or_intro hunlocked (not_not.mpr hcheck), rfl,
          .unlock hskill (Bool.eq_false_iff.mpr hunlocked) hcheck⟩
      · exact Or.inl ⟨Or.inr hcheck, rfl⟩

theorem call_spendSkillPoint (hc : c = .spendSkillPoint k ∨ c = .upgradeSkill k) :
    s.Refused p c ∧ s.spendSkillPoint p k = (s, false) ∨
      ¬ s.Refused p c ∧ (s.spendSkillPoint p k).2 = true ∧
        s.Accepted floatMul required p c (s.spendSkillPoint p k).1 := by
  have hcall : s.Refused p c ↔ s.Refused p (.spendSkillPoint k) := by
    rcases hc with rfl | rfl
    · exact Iff.rfl
    · exact Iff.rfl
  rw [hcall]
  unfold spendSkillPoint
  cases hskill : s.getSkill k with
  | none =>
    refine Or.inl ⟨fun skill h => absurd (hskill.symm.trans h) (Option.some_ne_none skill).symm, ?_⟩
    cases s.getPlayerProgression p <;> rfl
  | some skill =>
    have hrefused : s.Refused p (.spendSkillPoint k) ↔ s.getPlayerSkillPoints p < 1 ∨
        skill.maxLevel ≤ skill.currentLevel ∨ ¬ s.checkSkillPrerequisites p k := by
      simp only [Refused, hskill, Option.some.injEq, forall_eq']
    rw [hrefused]
    cases hplayer : s.getPlayerProgression p with
    | none =>
      refine Or.inl ⟨Or.inl ?_, rfl⟩
      rw [getPlayerSkillPoints, hplayer]
      decide
    | some player =>
      have hpoints : s.getPlayerSkillPoints p = player.skillPoints := by
        rw [getPlayerSkillPoints, hplayer]
      rw [hpoints]
      dsimp only
      split_ifs with hpoints hlevel hcheck
      · exact Or.inl ⟨Or.inl hpoints, rfl⟩
      · exact Or.inl ⟨Or.inr (Or.inl hlevel), rfl⟩
      · exact Or.inr ⟨not_or_intro hpoints (not_or_intro hlevel (not_not.mpr hcheck)), rfl,
          .spend hc hplayer hskill (not_le.mp hlevel) hcheck⟩
      · exact Or.inl ⟨Or.inr (Or.inr hcheck), rfl⟩

theorem addExperience_fst (hplayer : s.getPlayerProgression p = some player) (amount : UInt32)
    (g : Bool) : ∃ stats, (s.addExperience floatMul required p amount g).1 = { s with
      playerProgressions := s.playerProgressions.insert p
        (s.levelUps required (s.maxLevel.toNat - player.level.toNat) { player with
          experience := player.experience + s.adjustedAmount floatMul amount g })
      stats := stats } := by
  rw [addExperience, hplayer]
  exact ⟨_, rfl⟩

variable (floatMul required) in
theorem experience_reward (hplayer : s.getPlayerProgression p = some player) (amount : UInt32) :
    ∃ stats, (if amount > 0 then (s.addExperience floatMul required p amount false).1 else s) =
      { s with
        playerProgressions := s.playerProgressions.insert p
          (if amount > 0 then
            s.levelUps required (s.maxLevel.toNat - player.level.toNat) { player with
              experience := player.experience + s.adjustedAmount floatMul amount false }
          else player)
        stats := stats } := by
  split_ifs with hamount
  · exact addExperience_fst hplayer amount false
  · rw [OrdMap.insert_of_find? hplayer]
    exact ⟨s.stats, rfl⟩

theorem skillPoint_reward {m : OrdMap UInt32 PlayerProgressionData}
    (hplayers : s.playerProgressions = m.insert p player) (amount : UInt32) :
    (if amount > 0 then (s.addSkillPoint p amount).1 else s) = { s with
      playerProgressions := m.insert p
        (if amount > 0 then { player with skillPoints := player.skillPoints + amount }
        else player) } := by
  split_ifs with hamount
  · rw [addSkillPoint, getPlayerProgression, hplayers, OrdMap.find?_insert_self]
    simp only [setPlayer, hplayers, OrdMap.insert_insert]
  · rw [← hplayers]

variable (floatMul required) in
theorem rewards_fst (hplayer : s.getPlayerProgression p = some player)
    (achievement : AchievementData) :
    ∃ stats, (let t := if achievement.experienceReward > 0 then
        (s.addExperience floatMul required p achievement.experienceReward false).1 else s
      if achievement.skillPointReward > 0 then
        (t.addSkillPoint p achievement.skillPointReward).1 else t) =
      { s with
        playerProgressions :=
          s.playerProgressions.insert p (s.rewarded floatMul required player achievement)
        stats := stats } := by
  obtain ⟨stats, hexperience⟩ :=
    experience_reward floatMul required hplayer achievement.experienceReward
  refine ⟨stats, ?_⟩
  dsimp only
  rw [hexperience, skillPoint_reward rfl]
  rfl

variable (floatMul required) in
theorem unlockAchievement_fst {a : UInt32} {achievement : AchievementData}
    (hplayer : s.getPlayerProgression p = some player)
    (hachievement : s.achievements.find? a = some achievement)
    (hlocked : achievement.isUnlocked = false) :
    (s.unlockAchievement floatMul required p a).2 = true ∧
      s.Accepted floatMul required p (.unlockAchievement a)
        (s.unlockAchievement floatMul required p a).1 := by
  have hcheck : s.checkAchievementRequirements p a = true := by
    rw [checkAchievementRequirements, hachievement]
  unfold unlockAchievement
  rw [hplayer, hachievement]
  simp only [hlocked, hcheck, Bool.false_eq_true, if_false, not_true_eq_false, true_and]
  let t : SharedProgression := { s with
    achievements := s.achievements.insert a { achievement with isUnlocked := true }
    playerAchievements :=
      s.playerAchievements.insert p (s.playerAchievements.getD p [] ++ [a]) }
  have hplayer' : t.getPlayerProgression p = some player := hplayer
  obtain ⟨stats, hrewards⟩ := rewards_fst floatMul required hplayer' achievement
  have hrates : SameRates s t := ⟨rfl, rfl, rfl⟩
  rw [hrates.rewarded_eq] at hrewards
  refine hrewards ▸ ?_
  exact .achieve hplayer hachievement hlocked stats

theorem call_cases (s : SharedProgression) (p : UInt32) (c : Call) :
    s.Refused p c ∧ s.apply floatMul required (c.op p) = (s, false) ∨
      ¬ s.Refused p c ∧ s.callResult floatMul required p c = true ∧
        s.Accepted floatMul required p c (s.callStep floatMul required p c) := by
  cases c with
  | unlockSkill k => exact call_unlockSkill k
  | spendSkillPoint k => exact call_spendSkillPoint (Or.inl rfl)
  | upgradeSkill k => exact call_spendSkillPoint (Or.inr rfl)
  | unlockAchievement a =>
    change _ ∧ s.unlockAchievement floatMul required p a = _ ∨ _
    cases hplayer : s.getPlayerProgression p with
    | none =>
      refine Or.inl ⟨Or.inl hplayer, ?_⟩
      rw [unlockAchievement, hplayer]
    | some player =>
      cases hachievement : s.achievements.find? a with
      | none =>
        refine Or.inl ⟨Or.inr fun x h => ?_, ?_⟩
        · exact absurd (hachievement.symm.trans h) (Option.some_ne_none x).symm
        · rw [unlockAchievement, hplayer, hachievement]
      | some achievement =>
        have hrefused : s.Refused p (.unlockAchievement a) ↔ achievement.isUnlocked := by
          simp only [Refused, hplayer, hachievement, Option.some.injEq, forall_eq',
            Option.some_ne_none, false_or]
        rw [hrefused]
        cases hlocked : achievement.isUnlocked with
        | true =>
          refine Or.inl ⟨rfl, ?_⟩
          rw [unlockAchievement, hplayer, hachievement]
          exact if_pos hlocked
        | false =>
          exact Or.inr ⟨Bool.false_ne_true,
            unlockAchievement_fst floatMul required hplayer hachievement hlocked⟩

end Outcomes

end SharedProgression
end WitcherMP.Progression
