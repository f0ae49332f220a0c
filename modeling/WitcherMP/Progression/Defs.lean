import WitcherMP.Lib.OrdMap
import WitcherMP.Lib.Word32
import Mathlib.Algebra.Order.Field.Rat

/-! Levels, skills and achievements of the players, and the experience of their groups. Times,
texts, callbacks and the averages of the statistics are left out. `floatMul` is the product of a count
and a `float`, cut down to an integer again, and `required` the experience that a level takes. -/

namespace WitcherMP.Progression

structure SkillData where
  skillId : UInt32 := 0
  maxLevel : UInt32 := 5
  currentLevel : UInt32 := 0
  experienceRequired : UInt32 := 100
  prerequisites : List UInt32 := []
  isUnlocked : Bool := false
  isActive : Bool := false
deriving DecidableEq

structure PlayerProgressionData where
  playerId : UInt32 := 0
  level : UInt32 := 1
  experience : UInt32 := 0
  experienceToNextLevel : UInt32 := 1000
  skillPoints : UInt32 := 0
  abilityPoints : UInt32 := 0
deriving DecidableEq

structure GroupProgressionData where
  groupId : UInt32 := 0
  members : List UInt32 := []
  sharedExperience : UInt32 := 0
  memberContributions : OrdMap UInt32 UInt32 := .empty
deriving DecidableEq

structure AchievementData where
  achievementId : UInt32 := 0
  experienceReward : UInt32 := 0
  skillPointReward : UInt32 := 0
  requirements : List UInt32 := []
  isUnlocked : Bool := false
deriving DecidableEq

structure ProgressionStats where
  totalPlayers : UInt32 := 0
  totalExperience : UInt32 := 0
  highestLevel : UInt32 := 1
deriving DecidableEq

/-- The state; `SetMaxLevel` lets no level limit below one through. -/
structure SharedProgression where
  initialized : Bool := false
  playerProgressions : OrdMap UInt32 PlayerProgressionData := .empty
  groupProgressions : OrdMap UInt32 GroupProgressionData := .empty
  skills : OrdMap UInt32 SkillData := .empty
  achievements : OrdMap UInt32 AchievementData := .empty
  playerAchievements : OrdMap UInt32 (List UInt32) := .empty
  experienceMultiplier : ℚ := 1
  groupExperienceBonus : ℚ := 1 / 5
  maxLevel : UInt32 := 100
  one_le_maxLevel : 1 ≤ maxLevel := by decide
  skillPointsPerLevel : UInt32 := 1
  groupProgressionEnabled : Bool := true
  stats : ProgressionStats := {}
deriving DecidableEq

namespace SharedProgression

def setMaxLevel (s : SharedProgression) (maxLevel : UInt32) : SharedProgression :=
  { s with
    maxLevel := max 1 (min 1000 maxLevel)
    one_le_maxLevel := le_max_left _ _ }

def getPlayerProgression (s : SharedProgression) (playerId : UInt32) :
    Option PlayerProgressionData := s.playerProgressions.find? playerId

def getSkill (s : SharedProgression) (skillId : UInt32) : Option SkillData :=
  s.skills.find? skillId

def setPlayer (s : SharedProgression) (playerId : UInt32) (player : PlayerProgressionData) :
    SharedProgression :=
  { s with playerProgressions := s.playerProgressions.insert playerId player }

def setSkill (s : SharedProgression) (skillId : UInt32) (skill : SkillData) : SharedProgression :=
  { s with skills := s.skills.insert skillId skill }

def getPlayerLevel (s : SharedProgression) (playerId : UInt32) : UInt32 :=
  match s.getPlayerProgression playerId with
  | none => 0
  | some player => player.level

def getPlayerExperience (s : SharedProgression) (playerId : UInt32) : UInt32 :=
  match s.getPlayerProgression playerId with
  | none => 0
  | some player => player.experience

def getPlayerSkillPoints (s : SharedProgression) (playerId : UInt32) : UInt32 :=
  match s.getPlayerProgression playerId with
  | none => 0
  | some player => player.skillPoints

def updatePlayerStats (s : SharedProgression) (playerId : UInt32) : SharedProgression :=
  { s with stats := { s.stats with
      totalExperience := s.stats.totalExperience + s.getPlayerExperience playerId
      highestLevel := max s.stats.highestLevel (s.getPlayerLevel playerId) } }

/-- The exponential curve, whose base `1.2f` is 5033165 / 4194304. At level 0 and from level 85 on
the power does not fit 32 bits, and C++ does not say what it is cut down to. -/
def calculateExperienceRequired (level : UInt32) : UInt32 :=
  .ofNat (1000 * 5033165 ^ (level.toNat - 1) / 4194304 ^ (level.toNat - 1))

section Levels
variable (floatMul : UInt32 → ℚ → UInt32) (required : UInt32 → UInt32)

def addPlayer (s : SharedProgression) (playerId : UInt32) : SharedProgression :=
  if ¬ s.initialized then s else
  let player : PlayerProgressionData :=
    { playerId := playerId, level := 1, experience := 0, experienceToNextLevel := required 2 }
  let s := s.setPlayer playerId player
  { s with stats := { s.stats with totalPlayers := s.stats.totalPlayers + 1 } }

/-- What is left to the next level, not the mark itself; the difference wraps. -/
def calculateExperienceToNextLevel (player : PlayerProgressionData) : PlayerProgressionData :=
  { player with experienceToNextLevel := required (player.level + 1) - player.experience }

def levelUp (s : SharedProgression) (player : PlayerProgressionData) : PlayerProgressionData :=
  calculateExperienceToNextLevel required { player with
    level := player.level + 1
    skillPoints := player.skillPoints + s.skillPointsPerLevel
    abilityPoints := player.abilityPoints + 1 }

def levelUpPlayer (s : SharedProgression) (playerId : UInt32) : SharedProgression × Bool :=
  match s.getPlayerProgression playerId with
  | none => (s, false)
  | some player =>
    if player.level ≥ s.maxLevel then (s, false)
    else (s.setPlayer playerId (s.levelUp required player), true)

def levelUps (s : SharedProgression) : ℕ → PlayerProgressionData → PlayerProgressionData
  | 0, player => player
  | fuel + 1, player =>
    if player.experience ≥ player.experienceToNextLevel ∧ player.level < s.maxLevel then
      levelUps s fuel (s.levelUp required player)
    else player

def adjustedAmount (s : SharedProgression) (amount : UInt32) (isGroupExperience : Bool) : UInt32 :=
  let adjusted := floatMul amount s.experienceMultiplier
  if isGroupExperience && s.groupProgressionEnabled then
    floatMul adjusted (1 + s.groupExperienceBonus)
  else adjusted

def addExperience (s : SharedProgression) (playerId amount : UInt32) (isGroupExperience : Bool) :
    SharedProgression × Bool :=
  match s.getPlayerProgression playerId with
  | none => (s, false)
  | some player =>
    let player := { player with
      experience := player.experience + s.adjustedAmount floatMul amount isGroupExperience }
    let player := s.levelUps required (s.maxLevel.toNat - player.level.toNat) player
    let s := s.setPlayer playerId player
    (s.updatePlayerStats playerId, true)

def distributeGroupExperience (s : SharedProgression) (groupId : UInt32) :
    SharedProgression × Bool :=
  match s.groupProgressions.find? groupId with
  | none => (s, false)
  | some group =>
    if group.members.isEmpty then (s, false)
    else
      let experiencePerMember : UInt32 :=
        .ofNat (group.sharedExperience.toNat / group.members.length)
      -- the two updates of the loop's body touch different maps
      let s := group.members.foldl (fun s playerId =>
        (s.addExperience floatMul required playerId experiencePerMember true).1) s
      let memberContributions := group.members.foldl (fun contributions playerId =>
        contributions.insert playerId (contributions.getD playerId 0 + experiencePerMember))
        group.memberContributions
      let group := { group with
        memberContributions := memberContributions, sharedExperience := 0 }
      ({ s with groupProgressions := s.groupProgressions.insert groupId group }, true)

end Levels

def addSkillPoint (s : SharedProgression) (playerId amount : UInt32) : SharedProgression × Bool :=
  match s.getPlayerProgression playerId with
  | none => (s, false)
  | some player =>
    (s.setPlayer playerId { player with skillPoints := player.skillPoints + amount }, true)

/-- The player's level is compared with what the skill calls experience. -/
def checkSkillPrerequisites (s : SharedProgression) (playerId skillId : UInt32) : Bool :=
  match s.getSkill skillId with
  | none => false
  | some skill =>
    match s.getPlayerProgression playerId with
    | none => false
    | some player =>
      if player.level < skill.experienceRequired then false
      else skill.prerequisites.all fun prereqId =>
        match s.getSkill prereqId with
        | none => false
        | some prereq => prereq.isUnlocked

def spendSkillPoint (s : SharedProgression) (playerId skillId : UInt32) :
    SharedProgression × Bool :=
  match s.getPlayerProgression playerId, s.getSkill skillId with
  | some player, some skill =>
    if player.skillPoints < 1 then (s, false)
    else if skill.currentLevel ≥ skill.maxLevel then (s, false)
    else if ¬ s.checkSkillPrerequisites playerId skillId then (s, false)
    else
      let s := s.setPlayer playerId { player with skillPoints := player.skillPoints - 1 }
      (s.setSkill skillId { skill with currentLevel := skill.currentLevel + 1 }, true)
  | _, _ => (s, false)

def upgradeSkill (s : SharedProgression) (playerId skillId : UInt32) : SharedProgression × Bool :=
  s.spendSkillPoint playerId skillId

def unlockSkill (s : SharedProgression) (playerId skillId : UInt32) : SharedProgression × Bool :=
  match s.getPlayerProgression playerId, s.getSkill skillId with
  | some _, some skill =>
    if skill.isUnlocked then (s, false)
    else if ¬ s.checkSkillPrerequisites playerId skillId then (s, false)
    else (s.setSkill skillId { skill with isUnlocked := true, isActive := true }, true)
  | _, _ => (s, false)

/-- All unlocked skills, whoever unlocked them. -/
def getPlayerSkills (s : SharedProgression) (_playerId : UInt32) : List SkillData :=
  (s.skills.filter fun _ skill => skill.isUnlocked).entries.map Prod.snd

def getPlayerAchievements (s : SharedProgression) (playerId : UInt32) : List AchievementData :=
  (s.playerAchievements.getD playerId []).filterMap s.achievements.find?

section Achievements
variable (floatMul : UInt32 → ℚ → UInt32) (required : UInt32 → UInt32)

/-- The requirements are gone through, but none is checked. -/
def checkAchievementRequirements (s : SharedProgression) (_playerId achievementId : UInt32) : Bool :=
  match s.achievements.find? achievementId with
  | none => false
  | some _ => true

/-- An achievement is unlocked once for all players. -/
def unlockAchievement (s : SharedProgression) (playerId achievementId : UInt32) :
    SharedProgression × Bool :=
  match s.getPlayerProgression playerId, s.achievements.find? achievementId with
  | some _, some achievement =>
    if achievement.isUnlocked then (s, false)
    else if ¬ s.checkAchievementRequirements playerId achievementId then (s, false)
    else
      let unlocked := { achievement with isUnlocked := true }
      let s := { s with
        achievements := s.achievements.insert achievementId unlocked
        playerAchievements := s.playerAchievements.insert playerId
          (s.playerAchievements.getD playerId [] ++ [achievementId]) }
      let s := if achievement.experienceReward > 0 then
        (s.addExperience floatMul required playerId achievement.experienceReward false).1 else s
      let s := if achievement.skillPointReward > 0 then
        (s.addSkillPoint playerId achievement.skillPointReward).1 else s
      (s, true)
  | _, _ => (s, false)

inductive Op
  | addExperience (playerId amount : UInt32) (isGroupExperience : Bool)
  | levelUpPlayer (playerId : UInt32)
  | addSkillPoint (playerId amount : UInt32)
  | spendSkillPoint (playerId skillId : UInt32)
  | upgradeSkill (playerId skillId : UInt32)
  | unlockSkill (playerId skillId : UInt32)
  | unlockAchievement (playerId achievementId : UInt32)
  | distributeGroupExperience (groupId : UInt32)

def apply (s : SharedProgression) : Op → SharedProgression × Bool
  | .addExperience p n g => s.addExperience floatMul required p n g
  | .levelUpPlayer p => s.levelUpPlayer required p
  | .addSkillPoint p n => s.addSkillPoint p n
  | .spendSkillPoint p k => s.spendSkillPoint p k
  | .upgradeSkill p k => s.upgradeSkill p k
  | .unlockSkill p k => s.unlockSkill p k
  | .unlockAchievement p a => s.unlockAchievement floatMul required p a
  | .distributeGroupExperience g => s.distributeGroupExperience floatMul required g

def step (s : SharedProgression) (op : Op) : SharedProgression := (s.apply floatMul required op).1

end Achievements
end SharedProgression
end WitcherMP.Progression
