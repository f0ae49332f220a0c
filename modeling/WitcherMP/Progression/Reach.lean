import WitcherMP.Progression.Points
import WitcherMP.Progression.Calls
import WitcherMP.Lib.Pointwise

/-! The skills a player can come to unlock alone: by the levels that the achievements still locked
are worth, taken in the best order, and by skills within reach unlocked before those that need
them. -/

namespace WitcherMP.Progression
namespace SharedProgression

section Reach
variable (floatMul : UInt32 → ℚ → UInt32) (required : UInt32 → UInt32) (q : UInt32)
  (s : SharedProgression)

def Earnable (as : List UInt32) : Prop :=
  as.Nodup ∧ ∀ a ∈ as, ∃ achievement,
    s.achievements.find? a = some achievement ∧ achievement.isUnlocked = false

def honours : PlayerProgressionData → List UInt32 → PlayerProgressionData
  | player, [] => player
  | player, a :: as =>
    match s.achievements.find? a with
    | none => honours player as
    | some achievement => honours (s.rewarded floatMul required player achievement) as

inductive Attainable (level : UInt32) : UInt32 → Prop
  | unlocked {k : UInt32} {skill : SkillData} (hskill : s.getSkill k = some skill)
      (hunlocked : skill.isUnlocked) : Attainable level k
  | locked {k : UInt32} {skill : SkillData} (hskill : s.getSkill k = some skill)
      (hlevel : skill.experienceRequired ≤ level)
      (hprereqs : ∀ prereqId ∈ skill.prerequisites, Attainable level prereqId) : Attainable level k

def WithinReach (k : UInt32) : Prop := ∃ player as, s.getPlayerProgression q = some player ∧
  s.Earnable as ∧ s.Attainable (s.honours floatMul required player as).level k

end Reach

section Levels
variable {floatMul : UInt32 → ℚ → UInt32} {required : UInt32 → UInt32} {s t : SharedProgression}
  {a b : PlayerProgressionData} {q k : UInt32} {as : List UInt32}

theorem level_rewarded (player : PlayerProgressionData) (achievement : AchievementData) :
    player.level ≤ (s.rewarded floatMul required player achievement).level := by
  have hlevels := UInt32.le_iff_toNat_le.mpr (s.climb_levelUps required
    (s.maxLevel.toNat - player.level.toNat) { player with
      experience :=
        player.experience + s.adjustedAmount floatMul achievement.experienceReward false }).level
  rw [rewarded]
  split_ifs
  · exact hlevels
  · exact le_rfl
  · exact hlevels
  · exact le_rfl

theorem honours_cons {x : UInt32} {achievement : AchievementData}
    (hachievement : s.achievements.find? x = some achievement) (player : PlayerProgressionData)
    (as : List UInt32) : s.honours floatMul required player (x :: as) =
      s.honours floatMul required (s.rewarded floatMul required player achievement) as := by
  rw [honours, hachievement]

theorem level_honours (player : PlayerProgressionData) (as : List UInt32) :
    player.level ≤ (s.honours floatMul required player as).level := by
  induction as generalizing player with
  | nil => exact le_rfl
  | cons a as ih =>
    rw [honours]
    cases s.achievements.find? a with
    | none => exact ih player
    | some achievement => exact (level_rewarded player achievement).trans (ih _)

theorem SameRates.honours_eq (h : SameRates s t)
    (has : ∀ a ∈ as, t.achievements.find? a = s.achievements.find? a)
    (player : PlayerProgressionData) :
    t.honours floatMul required player as = s.honours floatMul required player as := by
  induction as generalizing player with
  | nil => rfl
  | cons a as ih =>
    obtain ⟨ha, has⟩ := List.forall_mem_cons.mp has
    rw [honours, honours, ha]
    cases s.achievements.find? a with
    | none => exact ih has player
    | some achievement =>
      exact (congrArg (t.honours floatMul required · as)
        (h.rewarded_eq player achievement)).trans (ih has _)

structure SameProgress (a b : PlayerProgressionData) : Prop where
  level : a.level = b.level
  experience : a.experience = b.experience
  experienceToNextLevel : a.experienceToNextLevel = b.experienceToNextLevel

theorem SameProgress.levelUps (h : SameProgress a b) (fuel : ℕ) :
    SameProgress (s.levelUps required fuel a) (s.levelUps required fuel b) := by
  induction fuel generalizing a b with
  | zero => exact h
  | succ fuel ih =>
    rw [SharedProgression.levelUps, SharedProgression.levelUps, h.level, h.experience,
      h.experienceToNextLevel]
    split_ifs
    · refine ih ⟨?_, h.experience, ?_⟩
      · exact congrArg (· + 1) h.level
      · simp only [levelUp, calculateExperienceToNextLevel, h.level, h.experience]
    · exact h

theorem SameProgress.rewarded (h : SameProgress a b) (achievement : AchievementData) :
    SameProgress (s.rewarded floatMul required a achievement)
      (s.rewarded floatMul required b achievement) := by
  have hlevels : SameProgress
      (if achievement.experienceReward > 0 then
        s.levelUps required (s.maxLevel.toNat - a.level.toNat) { a with
          experience :=
            a.experience + s.adjustedAmount floatMul achievement.experienceReward false }
      else a)
      (if achievement.experienceReward > 0 then
        s.levelUps required (s.maxLevel.toNat - b.level.toNat) { b with
          experience :=
            b.experience + s.adjustedAmount floatMul achievement.experienceReward false }
      else b) := by
    split_ifs
    · rw [h.level, h.experience]
      refine SameProgress.levelUps ?_ _
      exact ⟨rfl, rfl, h.experienceToNextLevel⟩
    · exact h
  rw [SharedProgression.rewarded, SharedProgression.rewarded]
  by_cases hpoints : achievement.skillPointReward > 0
  · rw [if_pos hpoints, if_pos hpoints]
    exact ⟨hlevels.level, hlevels.experience, hlevels.experienceToNextLevel⟩
  · rw [if_neg hpoints, if_neg hpoints]
    exact hlevels

theorem SameProgress.honours (h : SameProgress a b) (as : List UInt32) :
    SameProgress (s.honours floatMul required a as) (s.honours floatMul required b as) := by
  induction as generalizing a b with
  | nil => exact h
  | cons x as ih =>
    rw [SharedProgression.honours, SharedProgression.honours]
    cases s.achievements.find? x with
    | none => exact ih h
    | some achievement => exact ih (h.rewarded achievement)

end Levels

section Attainable
variable {floatMul : UInt32 → ℚ → UInt32} {required : UInt32 → UInt32} {s t : SharedProgression}
  {player : PlayerProgressionData} {skill : SkillData} {q k level : UInt32}

theorem checkSkillPrerequisites_iff (hplayer : s.getPlayerProgression q = some player)
    (hskill : s.getSkill k = some skill) :
    s.checkSkillPrerequisites q k ↔ skill.experienceRequired ≤ player.level ∧
      ∀ prereqId ∈ skill.prerequisites, SkillMap.Unlocked s.skills prereqId := by
  constructor
  · intro h
    refine ⟨?_, unlocked_of_checkSkillPrerequisites hskill h⟩
    rw [checkSkillPrerequisites, hskill, hplayer] at h
    by_contra hlevel
    simp only [not_le.mp hlevel, if_true, Bool.false_eq_true] at h
  · rintro ⟨hlevel, hprereqs⟩
    rw [checkSkillPrerequisites, hskill, hplayer]
    simp only [if_neg (not_lt.mpr hlevel)]
    refine List.all_eq_true.mpr fun prereqId hmem => ?_
    obtain ⟨prereq, hprereq, hunlocked⟩ := hprereqs prereqId hmem
    rw [getSkill, hprereq]
    exact hunlocked

theorem attainable_of_checkSkillPrerequisites (hplayer : s.getPlayerProgression q = some player)
    (hlevel : player.level ≤ level) (h : s.checkSkillPrerequisites q k) :
    s.Attainable level k := by
  cases hskill : s.getSkill k with
  | none => simp [checkSkillPrerequisites, hskill] at h
  | some skill =>
    obtain ⟨hrequired, hprereqs⟩ := (checkSkillPrerequisites_iff hplayer hskill).mp h
    refine .locked hskill (hrequired.trans hlevel) fun prereqId hmem => ?_
    obtain ⟨prereq, hprereq, hunlocked⟩ := hprereqs prereqId hmem
    exact .unlocked hprereq hunlocked

theorem Attainable.of_skills (h : t.Attainable level k)
    (hskills : ∀ k skill', t.getSkill k = some skill' → ∃ skill, s.getSkill k = some skill ∧
      skill.experienceRequired = skill'.experienceRequired ∧
      skill.prerequisites = skill'.prerequisites ∧ (skill'.isUnlocked → s.Attainable level k)) :
    s.Attainable level k := by
  induction h with
  | unlocked hskill hunlocked =>
    obtain ⟨-, -, -, -, hattainable⟩ := hskills _ _ hskill
    exact hattainable hunlocked
  | locked hskill hlevel _ ih =>
    obtain ⟨skill, hskill', hrequired, hprereqs, -⟩ := hskills _ _ hskill
    exact .locked hskill' (hrequired ▸ hlevel) (hprereqs ▸ ih)

theorem Attainable.of_setSkill {j : UInt32} {skill' : SkillData} (h : t.Attainable level k)
    (hskills : t.skills = s.skills.insert j skill') (hskill : s.getSkill j = some skill)
    (hrequired : skill'.experienceRequired = skill.experienceRequired)
    (hprereqs : skill'.prerequisites = skill.prerequisites)
    (hunlocked : skill'.isUnlocked → s.Attainable level j) : s.Attainable level k := by
  refine h.of_skills fun i x hx => ?_
  rw [getSkill, hskills, OrdMap.find?_insert] at hx
  split_ifs at hx with hi
  · obtain rfl := Option.some.inj hx
    exact ⟨skill, hi ▸ hskill, hrequired.symm, hprereqs.symm, fun h => hi ▸ hunlocked h⟩
  · exact ⟨x, hx, rfl, rfl, .unlocked hx⟩

theorem Attainable.of_skills_eq (h : t.Attainable level k) (hskills : t.skills = s.skills) :
    s.Attainable level k :=
  h.of_skills fun _ skill hskill =>
    ⟨skill, by rwa [getSkill, ← hskills], rfl, rfl, .unlocked (by rwa [getSkill, ← hskills])⟩

theorem WithinReach.of_callStep {c : Call}
    (h : (s.callStep floatMul required q c).WithinReach floatMul required q k) :
    s.WithinReach floatMul required q k := by
  rcases s.call_cases q c with ⟨-, hrefused⟩ | ⟨-, -, haccepted⟩
  · rwa [callStep, step, hrefused] at h
  have hrates := haccepted.sameRates
  generalize s.callStep floatMul required q c = t at h haccepted hrates
  obtain ⟨player', as, hplayer', has, hattainable⟩ := h
  cases haccepted with
  | unlock hskill hlocked hcheck =>
    rw [hrates.honours_eq fun _ _ => rfl] at hattainable
    exact ⟨player', as, hplayer', has, hattainable.of_setSkill rfl hskill rfl rfl fun _ =>
      attainable_of_checkSkillPrerequisites hplayer' (level_honours player' as) hcheck⟩
  | @spend c j player skill hc hplayer hskill hlevel hcheck =>
    rw [hrates.honours_eq fun _ _ => rfl] at hattainable
    obtain rfl := Option.some.inj
      ((OrdMap.find?_insert_self s.playerProgressions q _).symm.trans hplayer')
    have hsame : SameProgress { player with skillPoints := player.skillPoints - 1 } player :=
      ⟨rfl, rfl, rfl⟩
    rw [(hsame.honours as).level] at hattainable
    exact ⟨player, as, hplayer, has, hattainable.of_setSkill rfl hskill rfl rfl fun h =>
      .unlocked hskill h⟩
  | @achieve a player achievement hplayer hachievement hlocked stats =>
    obtain rfl := Option.some.inj
      ((OrdMap.find?_insert_self s.playerProgressions q _).symm.trans hplayer')
    have hfresh : ∀ b ∈ as, a ≠ b := by
      rintro b hb rfl
      obtain ⟨x, hx, hlocked'⟩ := has.2 a hb
      obtain rfl := Option.some.inj ((OrdMap.find?_insert_self s.achievements a _).symm.trans hx)
      exact Bool.noConfusion hlocked'
    have hsame : ∀ b ∈ as, (s.achievements.insert a { achievement with isUnlocked := true }).find? b
      = s.achievements.find? b := fun b hb => OrdMap.find?_insert_of_ne _ _ (hfresh b hb)
    rw [hrates.honours_eq hsame] at hattainable
    refine ⟨player, a :: as, hplayer, ⟨List.nodup_cons.mpr ⟨fun h => hfresh a h rfl, has.1⟩,
      List.forall_mem_cons.mpr ⟨⟨achievement, hachievement, hlocked⟩, fun b hb => ?_⟩⟩, ?_⟩
    · rw [← hsame b hb]
      exact has.2 b hb
    · rw [honours_cons hachievement]
      exact hattainable.of_skills_eq rfl

end Attainable

section Unlocking
variable {floatMul : UInt32 → ℚ → UInt32} {required : UInt32 → UInt32} {s t u : SharedProgression}
  {player : PlayerProgressionData} {q k level : UInt32}

structure Grown (q : UInt32) (s t : SharedProgression) : Prop where
  record : t.getPlayerProgression q = s.getPlayerProgression q
  skills : OrdMap.Pointwise (fun _ a b => b.experienceRequired = a.experienceRequired ∧
    b.prerequisites = a.prerequisites ∧ (a.isUnlocked → b.isUnlocked)) s.skills t.skills

theorem Grown.refl (q : UInt32) (s : SharedProgression) : Grown q s s :=
  ⟨rfl, OrdMap.Pointwise.refl (fun _ _ => ⟨rfl, rfl, id⟩) _⟩

theorem Grown.trans (h : Grown q s t) (h' : Grown q t u) : Grown q s u where
  record := h'.record.trans h.record
  skills := h.skills.trans h'.skills fun _ _ _ _ hab hbc =>
    ⟨hbc.1.trans hab.1, hbc.2.1.trans hab.2.1, hbc.2.2 ∘ hab.2.2⟩

theorem Grown.unlocked (h : Grown q s t) (hk : SkillMap.Unlocked s.skills k) :
    SkillMap.Unlocked t.skills k := by
  obtain ⟨skill, hskill, hunlocked⟩ := hk
  obtain ⟨skill', hskill', -, -, hkeep⟩ := h.skills.exists_right hskill
  exact ⟨skill', hskill', hkeep hunlocked⟩

variable (floatMul required)

theorem grown_unlockSkill (hcheck : s.checkSkillPrerequisites q k) :
    Grown q s (s.callStep floatMul required q (.unlockSkill k)) ∧
      SkillMap.Unlocked (s.callStep floatMul required q (.unlockSkill k)).skills k := by
  rcases s.call_cases q (.unlockSkill k) with ⟨hrefused, heq⟩ | ⟨-, -, haccepted⟩
  · rw [callStep, step, heq]
    refine ⟨Grown.refl q s, ?_⟩
    cases hskill : s.getSkill k with
    | none => simp [checkSkillPrerequisites, hskill] at hcheck
    | some skill => exact ⟨skill, hskill, (hrefused skill hskill).resolve_right (not_not.mpr hcheck)⟩
  · generalize s.callStep floatMul required q (.unlockSkill k) = t at haccepted
    cases haccepted with
    | unlock hskill hlocked _ =>
      refine ⟨⟨rfl, OrdMap.Pointwise.insert_right (fun _ _ _ => ⟨rfl, rfl, id⟩) hskill
        ⟨rfl, rfl, fun _ => rfl⟩⟩, _, OrdMap.find?_insert_self _ _ _, rfl⟩
    | spend hc => simp at hc

theorem exists_unlocked_all {ks : List UInt32}
    (h : ∀ j ∈ ks, ∀ t, Grown q s t → ∃ own,
      Grown q t (Run.run (callStep floatMul required q) t own) ∧
        SkillMap.Unlocked (Run.run (callStep floatMul required q) t own).skills j)
    (hgrown : Grown q s t) :
    ∃ own, Grown q t (Run.run (callStep floatMul required q) t own) ∧
      ∀ j ∈ ks, SkillMap.Unlocked (Run.run (callStep floatMul required q) t own).skills j := by
  induction ks generalizing t with
  | nil => exact ⟨[], Grown.refl q t, List.forall_mem_nil _⟩
  | cons j ks ih =>
    obtain ⟨hj, hks⟩ := List.forall_mem_cons.mp h
    obtain ⟨own, hown, hunlocked⟩ := hj t hgrown
    obtain ⟨own', hown', hrest⟩ := ih hks (hgrown.trans hown)
    refine ⟨own ++ own', ?_⟩
    rw [Run.run_append]
    exact ⟨hown.trans hown', List.forall_mem_cons.mpr ⟨hown'.unlocked hunlocked, hrest⟩⟩

theorem exists_unlocked (hplayer : s.getPlayerProgression q = some player)
    (h : s.Attainable player.level k) (hgrown : Grown q s t) :
    ∃ own, Grown q t (Run.run (callStep floatMul required q) t own) ∧
      SkillMap.Unlocked (Run.run (callStep floatMul required q) t own).skills k := by
  induction h generalizing t with
  | unlocked hskill hunlocked => exact ⟨[], Grown.refl q t, hgrown.unlocked ⟨_, hskill, hunlocked⟩⟩
  | @locked k skill hskill hlevel hprereqs ih =>
    obtain ⟨own, hown, hunlocked⟩ :=
      exists_unlocked_all floatMul required (fun j hj _ ht => ih j hj ht) hgrown
    have hsofar := hgrown.trans hown
    obtain ⟨skill', hskill', hrequired, hsame, -⟩ := hsofar.skills.exists_right hskill
    have hcheck : (Run.run (callStep floatMul required q) t own).checkSkillPrerequisites q k :=
      (checkSkillPrerequisites_iff (hsofar.record.trans hplayer) hskill').mpr
        ⟨hrequired ▸ hlevel, hsame ▸ hunlocked⟩
    obtain ⟨hlast, hk⟩ := grown_unlockSkill floatMul required hcheck
    refine ⟨own ++ [.unlockSkill k], ?_⟩
    rw [Run.run_append]
    exact ⟨hown.trans hlast, hk⟩

theorem run_unlockAchievement {as : List UInt32} (has : s.Earnable as)
    (hplayer : s.getPlayerProgression q = some player) :
    (Run.run (callStep floatMul required q) s (as.map .unlockAchievement)).getPlayerProgression q
        = some (s.honours floatMul required player as) ∧
      (Run.run (callStep floatMul required q) s (as.map .unlockAchievement)).skills = s.skills := by
  induction as generalizing s player with
  | nil => exact ⟨hplayer, rfl⟩
  | cons a as ih =>
    obtain ⟨hfresh, hnodup⟩ := List.nodup_cons.mp has.1
    obtain ⟨⟨achievement, hachievement, hlocked⟩, hrest⟩ := List.forall_mem_cons.mp has.2
    obtain ⟨-, haccepted⟩ :=
      unlockAchievement_fst floatMul required hplayer hachievement hlocked
    have hrates := haccepted.sameRates
    rw [honours_cons hachievement, List.map_cons, Run.run]
    change (Run.run _ (s.unlockAchievement floatMul required q a).1 _).getPlayerProgression q = _ ∧
      (Run.run _ (s.unlockAchievement floatMul required q a).1 _).skills = _
    generalize (s.unlockAchievement floatMul required q a).1 = t at haccepted hrates
    cases haccepted with
    | spend hc => simp at hc
    | @achieve _ player' achievement' hplayer' hachievement' _ stats =>
      obtain rfl := Option.some.inj (hplayer.symm.trans hplayer')
      obtain rfl := Option.some.inj (hachievement.symm.trans hachievement')
      have hsame : ∀ b ∈ as,
          (s.achievements.insert a { achievement with isUnlocked := true }).find? b
            = s.achievements.find? b := fun b hb =>
        OrdMap.find?_insert_of_ne _ _ fun h => hfresh (h ▸ hb)
      rw [← hrates.honours_eq hsame]
      refine ih ⟨hnodup, fun b hb => ?_⟩ (OrdMap.find?_insert_self _ _ _)
      rw [hsame b hb]
      exact hrest b hb

theorem WithinReach.exists_unlocked (h : s.WithinReach floatMul required q k) :
    ∃ own, SkillMap.Unlocked (Run.run (callStep floatMul required q) s own).skills k := by
  obtain ⟨player, as, hplayer, has, hattainable⟩ := h
  obtain ⟨hplayer', hskills⟩ := run_unlockAchievement floatMul required has hplayer
  obtain ⟨own, -, hunlocked⟩ := SharedProgression.exists_unlocked floatMul required hplayer'
    (hattainable.of_skills_eq hskills.symm) (Grown.refl q _)
  rw [← Run.run_append] at hunlocked
  exact ⟨_, hunlocked⟩

end Unlocking

end SharedProgression
end WitcherMP.Progression
