import WitcherMP.Progression.Skills
import Mathlib.Algebra.BigOperators.Group.Finset.Piecewise

/-! The ledger of the skill points: what the players earned by levels and grants they hold, or
have spent on skills. -/

namespace WitcherMP.Progression
open Finset

structure Climb (maxLevel perLevel : UInt32) (a b : PlayerProgressionData) (spent granted : ℕ) :
    Prop where
  level : a.level.toNat ≤ b.level.toNat
  capped : a.level ≤ maxLevel → b.level ≤ maxLevel
  points : a.skillPoints.toNat + perLevel.toNat * (b.level.toNat - a.level.toNat) + granted < 2 ^ 32 →
    b.skillPoints.toNat + spent
      = a.skillPoints.toNat + perLevel.toNat * (b.level.toNat - a.level.toNat) + granted

section Climb
variable {maxLevel perLevel : UInt32} {a b d : PlayerProgressionData} {m n m' n' : ℕ}

theorem Climb.of_eq (hlevel : b.level = a.level) (hpoints : b.skillPoints = a.skillPoints) :
    Climb maxLevel perLevel a b 0 0 := by
  refine ⟨by rw [hlevel], fun h => hlevel ▸ h, fun _ => ?_⟩
  rw [hlevel, hpoints, Nat.sub_self, Nat.mul_zero]

theorem Climb.trans (h : Climb maxLevel perLevel a b m n) (h' : Climb maxLevel perLevel b d m' n') :
    Climb maxLevel perLevel a d (m + m') (n + n') := by
  have hle := h.level
  have hle' := h'.level
  refine ⟨hle.trans hle', fun ha => h'.capped (h.capped ha), fun hfits => ?_⟩
  have hsplit : perLevel.toNat * (d.level.toNat - a.level.toNat)
      = perLevel.toNat * (b.level.toNat - a.level.toNat)
        + perLevel.toNat * (d.level.toNat - b.level.toNat) := by
    rw [← Nat.mul_add]
    congr 1
    omega
  rw [hsplit] at hfits ⊢
  have hfirst := h.points (by omega)
  have hsecond := h'.points (by omega)
  omega

end Climb

namespace SharedProgression
variable (floatMul : UInt32 → ℚ → UInt32) (required : UInt32 → UInt32)

section OnePlayer
variable (s : SharedProgression)

theorem climb_levelUp {a : PlayerProgressionData} (h : a.level < s.maxLevel) :
    Climb s.maxLevel s.skillPointsPerLevel a (s.levelUp required a) 0 0 := by
  have hlevel : (s.levelUp required a).level.toNat = a.level.toNat + 1 := Word32.toNat_succ_of_lt h
  refine ⟨by omega, fun _ => ?_, fun hfits => ?_⟩
  · exact UInt32.le_iff_toNat_le.mpr (hlevel ▸ UInt32.lt_iff_toNat_lt.mp h)
  · rw [hlevel, Nat.add_sub_cancel_left, Nat.mul_one, Nat.add_zero] at hfits ⊢
    exact Word32.toNat_add hfits

theorem climb_levelUps (fuel : ℕ) (a : PlayerProgressionData) :
    Climb s.maxLevel s.skillPointsPerLevel a (s.levelUps required fuel a) 0 0 := by
  induction fuel generalizing a with
  | zero => exact .of_eq rfl rfl
  | succ fuel ih =>
    rw [levelUps]
    split_ifs with h
    · exact (s.climb_levelUp required h.2).trans (ih _)
    · exact .of_eq rfl rfl

end OnePlayer

def spentBy (p : UInt32) (s : SharedProgression) : Op → ℕ
  | .spendSkillPoint q k | .upgradeSkill q k => if q = p ∧ (s.spendSkillPoint q k).2 then 1 else 0
  | _ => 0

def grantedBy (p : UInt32) (s : SharedProgression) : Op → ℕ
  | .addSkillPoint q n => if q = p ∧ (s.addSkillPoint q n).2 then n.toNat else 0
  | .unlockAchievement q a =>
    if q = p ∧ (s.unlockAchievement floatMul required q a).2 then
      (s.achievements.find? a).elim 0 fun achievement => achievement.skillPointReward.toNat
    else 0
  | _ => 0

structure Books (p : UInt32) (s s' : SharedProgression) (spent granted : ℕ) : Prop where
  maxLevel : s'.maxLevel = s.maxLevel
  perLevel : s'.skillPointsPerLevel = s.skillPointsPerLevel
  players : s'.playerProgressions.keys = s.playerProgressions.keys
  climb : ∀ a b, s.getPlayerProgression p = some a → s'.getPlayerProgression p = some b →
    Climb s.maxLevel s.skillPointsPerLevel a b spent granted

theorem getPlayerProgression_iff_mem {s : SharedProgression} {p : UInt32} :
    (∃ a, s.getPlayerProgression p = some a) ↔ p ∈ s.playerProgressions.keys := by
  rw [OrdMap.mem_keys, Option.ne_none_iff_exists']
  rfl

section Books
variable {p : UInt32} {s s' s'' : SharedProgression} {m n m' n' : ℕ}

theorem Books.of_eq (hmax : s'.maxLevel = s.maxLevel)
    (hper : s'.skillPointsPerLevel = s.skillPointsPerLevel)
    (hplayers : s'.playerProgressions = s.playerProgressions) : Books p s s' 0 0 := by
  refine ⟨hmax, hper, by rw [hplayers], fun a b ha hb => ?_⟩
  rw [getPlayerProgression, hplayers] at hb
  obtain rfl := Option.some.inj (ha.symm.trans hb)
  exact .of_eq rfl rfl

theorem Books.refl (p : UInt32) (s : SharedProgression) : Books p s s 0 0 := .of_eq rfl rfl rfl

theorem Books.trans (h : Books p s s' m n) (h' : Books p s' s'' m' n') :
    Books p s s'' (m + m') (n + n') := by
  refine ⟨h'.maxLevel.trans h.maxLevel, h'.perLevel.trans h.perLevel, h'.players.trans h.players,
    fun a d ha hd => ?_⟩
  obtain ⟨b, hb⟩ := getPlayerProgression_iff_mem.mpr
    (h.players ▸ getPlayerProgression_iff_mem.mp ⟨a, ha⟩)
  have hbd := h'.climb b d hb hd
  rw [h.maxLevel, h.perLevel] at hbd
  exact (h.climb a b ha hb).trans hbd

theorem Books.andThen (h : Books p s s' 0 0) (h' : Books p s' s'' m n) : Books p s s'' m n := by
  simpa only [Nat.zero_add] using h.trans h'

theorem Books.congr (h : Books p s s' m n) (hmax : s''.maxLevel = s'.maxLevel)
    (hper : s''.skillPointsPerLevel = s'.skillPointsPerLevel)
    (hplayers : s''.playerProgressions = s'.playerProgressions) : Books p s s'' m n :=
  h.trans (.of_eq hmax hper hplayers)

theorem books_setPlayer {t : SharedProgression} {q : UInt32} {a b : PlayerProgressionData}
    (hq : s.getPlayerProgression q = some a) (hmax : t.maxLevel = s.maxLevel)
    (hper : t.skillPointsPerLevel = s.skillPointsPerLevel)
    (hplayers : t.playerProgressions = s.playerProgressions.insert q b)
    (hclimb : Climb s.maxLevel s.skillPointsPerLevel a b m n) :
    Books p s t (if q = p then m else 0) (if q = p then n else 0) := by
  refine ⟨hmax, hper, ?_, fun c d hc hd => ?_⟩
  · rw [hplayers, OrdMap.keys_insert]
    exact Option.ne_none_iff_exists'.mpr ⟨a, hq⟩
  · rw [getPlayerProgression, hplayers, OrdMap.find?_insert] at hd
    split_ifs at hd ⊢ with hqp
    · subst hqp
      obtain rfl := Option.some.inj (hq.symm.trans hc)
      exact Option.some.inj hd ▸ hclimb
    · obtain rfl := Option.some.inj (hc.symm.trans hd)
      exact .of_eq rfl rfl

end Books

section Calls
variable (p : UInt32) (s : SharedProgression)

theorem books_addExperience (q n : UInt32) (g : Bool) :
    Books p s (s.addExperience floatMul required q n g).1 0 0 := by
  unfold addExperience
  cases hq : s.getPlayerProgression q with
  | none => exact .refl p s
  | some player =>
    let gained : PlayerProgressionData :=
      { player with experience := player.experience + s.adjustedAmount floatMul n g }
    have hgained : Climb s.maxLevel s.skillPointsPerLevel player gained 0 0 := .of_eq rfl rfl
    have hclimb := s.climb_levelUps required (s.maxLevel.toNat - player.level.toNat) gained
    have hbooks := books_setPlayer (p := p)
      (t := (s.setPlayer q (s.levelUps required (s.maxLevel.toNat - player.level.toNat)
        gained)).updatePlayerStats q) hq rfl rfl rfl (hgained.trans hclimb)
    simp only [Nat.add_zero, ite_self] at hbooks
    exact hbooks

theorem books_levelUpPlayer (q : UInt32) : Books p s (s.levelUpPlayer required q).1 0 0 := by
  unfold levelUpPlayer
  cases hq : s.getPlayerProgression q with
  | none => exact .refl p s
  | some player =>
    dsimp only
    split_ifs with hlevel
    · exact .refl p s
    · have hbooks := books_setPlayer (p := p) (t := (s.setPlayer q (s.levelUp required player))) hq
        rfl rfl rfl (s.climb_levelUp required (not_le.mp hlevel))
      simp only [ite_self] at hbooks
      exact hbooks

theorem books_addSkillPoint (q n : UInt32) :
    Books p s (s.addSkillPoint q n).1 0 (if q = p ∧ (s.addSkillPoint q n).2 then n.toNat else 0) := by
  unfold addSkillPoint
  cases hq : s.getPlayerProgression q with
  | none => simpa using Books.refl p s
  | some player =>
    have hclimb : Climb s.maxLevel s.skillPointsPerLevel player
        { player with skillPoints := player.skillPoints + n } 0 n.toNat := by
      refine ⟨le_rfl, fun h => h, fun hfits => ?_⟩
      rw [Nat.sub_self, Nat.mul_zero, Nat.add_zero] at hfits ⊢
      exact Word32.toNat_add hfits
    have hbooks := books_setPlayer (p := p)
      (t := (s.setPlayer q { player with skillPoints := player.skillPoints + n })) hq
      rfl rfl rfl hclimb
    simpa using hbooks

theorem books_spendSkillPoint (q k : UInt32) :
    Books p s (s.spendSkillPoint q k).1 (if q = p ∧ (s.spendSkillPoint q k).2 then 1 else 0) 0 := by
  rcases s.spendSkillPoint_cases q k with h | ⟨player, skill, hq, -, hpoints, -, -, h⟩
  · rw [h]
    simpa using Books.refl p s
  · rw [h]
    have hclimb : Climb s.maxLevel s.skillPointsPerLevel player
        { player with skillPoints := player.skillPoints - 1 } 1 0 := by
      refine ⟨le_rfl, fun h => h, fun _ => ?_⟩
      rw [Nat.sub_self, Nat.mul_zero, Nat.add_zero]
      exact Word32.toNat_sub hpoints
    have hbooks := books_setPlayer (p := p)
      (t := (s.setPlayer q { player with skillPoints := player.skillPoints - 1 }).setSkill k
        { skill with currentLevel := skill.currentLevel + 1 }) hq rfl rfl rfl hclimb
    simpa using hbooks

theorem books_unlockSkill (q k : UInt32) : Books p s (s.unlockSkill q k).1 0 0 := by
  unfold unlockSkill
  cases s.getPlayerProgression q with
  | none => exact .refl p s
  | some player =>
    cases s.getSkill k with
    | none => exact .refl p s
    | some skill =>
      dsimp only
      split_ifs <;> exact .of_eq rfl rfl rfl

theorem books_distributeGroupExperience (g : UInt32) :
    Books p s (s.distributeGroupExperience floatMul required g).1 0 0 := by
  unfold distributeGroupExperience
  cases s.groupProgressions.find? g with
  | none => exact .refl p s
  | some group =>
    dsimp only
    split_ifs
    · exact .refl p s
    · have hloop := List.foldlRecOn group.members _ (motive := fun s' => Books p s s' 0 0)
        (Books.refl p s) fun s' hs' q _ => hs'.trans (books_addExperience floatMul required p s' q
          (.ofNat (group.sharedExperience.toNat / group.members.length)) true)
      exact hloop.congr rfl rfl rfl

theorem unlockAchievement_cases (q a : UInt32) :
    s.unlockAchievement floatMul required q a = (s, false) ∨
      ∃ player achievement s₂, s.getPlayerProgression q = some player ∧
        s.achievements.find? a = some achievement ∧ Books p s s₂ 0 0 ∧
        s.unlockAchievement floatMul required q a = (if achievement.skillPointReward > 0 then
          (s₂.addSkillPoint q achievement.skillPointReward).1 else s₂, true) := by
  unfold unlockAchievement
  cases hq : s.getPlayerProgression q with
  | none => exact Or.inl rfl
  | some player =>
    cases hach : s.achievements.find? a with
    | none => exact Or.inl rfl
    | some achievement =>
      dsimp only
      by_cases hun : achievement.isUnlocked
      · rw [if_pos hun]
        exact Or.inl rfl
      by_cases hcheck : s.checkAchievementRequirements q a
      · rw [if_neg hun, if_neg (not_not.mpr hcheck)]
        refine Or.inr ⟨player, achievement, _, rfl, rfl, ?_, rfl⟩
        split_ifs
        · refine Books.andThen ?_ (books_addExperience floatMul required p _ q _ false)
          exact .of_eq rfl rfl rfl
        · exact .of_eq rfl rfl rfl
      · rw [if_neg hun, if_pos hcheck]
        exact Or.inl rfl

theorem books_unlockAchievement (q a : UInt32) :
    Books p s (s.unlockAchievement floatMul required q a).1 0
      (grantedBy floatMul required p s (.unlockAchievement q a)) := by
  rw [grantedBy]
  rcases s.unlockAchievement_cases floatMul required p q a with h | ⟨player, ach, s₂, hq, ha, hb, h⟩
  · rw [h]
    simpa using Books.refl p s
  · rw [h, ha, Option.elim_some]
    obtain ⟨player₂, hq₂⟩ := getPlayerProgression_iff_mem.mpr
      (hb.players ▸ getPlayerProgression_iff_mem.mp ⟨player, hq⟩)
    have hgrant := books_addSkillPoint p s₂ q ach.skillPointReward
    have htrue : (s₂.addSkillPoint q ach.skillPointReward).2 = true := by
      rw [addSkillPoint, hq₂]
    rw [htrue] at hgrant
    dsimp only
    by_cases hpos : ach.skillPointReward > 0
    · rw [if_pos hpos]
      exact hb.andThen hgrant
    · have hzero : ach.skillPointReward.toNat = 0 :=
        Nat.eq_zero_of_not_pos fun h => hpos (UInt32.lt_iff_toNat_lt.mpr h)
      rw [if_neg hpos, hzero, ite_self]
      exact hb

theorem books_step (op : Op) : Books p s (s.step floatMul required op) (spentBy p s op)
    (grantedBy floatMul required p s op) := by
  cases op with
  | addExperience q n g => exact s.books_addExperience floatMul required p q n g
  | levelUpPlayer q => exact s.books_levelUpPlayer required p q
  | addSkillPoint q n => exact s.books_addSkillPoint p q n
  | spendSkillPoint q k => exact s.books_spendSkillPoint p q k
  | upgradeSkill q k => exact s.books_spendSkillPoint p q k
  | unlockSkill q k => exact s.books_unlockSkill p q k
  | unlockAchievement q a => exact s.books_unlockAchievement floatMul required p q a
  | distributeGroupExperience g => exact s.books_distributeGroupExperience floatMul required p g

end Calls

/-- No sum of skill points in the call overflows: what a player has, what the levels bring that
are gained in the call, and what the call grants, stay below 2 ^ 32 together. -/
def Fits (s : SharedProgression) (op : Op) : Prop :=
  ∀ p ∈ s.playerProgressions.keys,
    (s.getPlayerSkillPoints p).toNat + s.skillPointsPerLevel.toNat *
        (((s.step floatMul required op).getPlayerLevel p).toNat - (s.getPlayerLevel p).toNat)
      + grantedBy floatMul required p s op < 2 ^ 32

instance decidableFits (s : SharedProgression) (op : Op) : Decidable (Fits floatMul required s op) :=
  Finset.decidableDforallFinset

/-- Freshly added players and unlevelled skills. -/
structure Fresh (s : SharedProgression) : Prop where
  players : ∀ p player, s.getPlayerProgression p = some player →
    player.level = 1 ∧ player.skillPoints = 0
  skills : ∀ k skill, s.getSkill k = some skill → skill.currentLevel = 0

instance decidableFresh (s : SharedProgression) : Decidable s.Fresh :=
  decidable_of_iff ((∀ e ∈ s.playerProgressions.entries, e.2.level = 1 ∧ e.2.skillPoints = 0) ∧
      ∀ e ∈ s.skills.entries, e.2.currentLevel = 0)
    ⟨fun h => ⟨fun p player hp => h.1 (p, player) (OrdMap.find?_eq_some_iff.mp hp),
        fun k skill hk => h.2 (k, skill) (OrdMap.find?_eq_some_iff.mp hk)⟩,
      fun h => ⟨fun e he => h.players e.1 e.2 (OrdMap.find?_eq_some_iff.mpr he),
        fun e he => h.skills e.1 e.2 (OrdMap.find?_eq_some_iff.mpr he)⟩⟩

theorem getPlayerLevel_of_some {s : SharedProgression} {p : UInt32} {a : PlayerProgressionData}
    (h : s.getPlayerProgression p = some a) : s.getPlayerLevel p = a.level := by
  rw [getPlayerLevel, h]

theorem getPlayerSkillPoints_of_some {s : SharedProgression} {p : UInt32}
    {a : PlayerProgressionData} (h : s.getPlayerProgression p = some a) :
    s.getPlayerSkillPoints p = a.skillPoints := by
  rw [getPlayerSkillPoints, h]

variable {floatMul required}

theorem ledger_run {s : SharedProgression} {ops : List Op}
    (h : Run.Along (step floatMul required) (Fits floatMul required) s ops) {p : UInt32}
    {a : PlayerProgressionData} (ha : s.getPlayerProgression p = some a)
    (hcap : a.level ≤ s.maxLevel) :
    ∃ b, (Run.run (step floatMul required) s ops).getPlayerProgression p = some b ∧
      a.level.toNat ≤ b.level.toNat ∧ b.level ≤ s.maxLevel ∧
      b.skillPoints.toNat + Run.total (step floatMul required) (spentBy p) s ops
        = a.skillPoints.toNat + s.skillPointsPerLevel.toNat * (b.level.toNat - a.level.toNat)
          + Run.total (step floatMul required) (grantedBy floatMul required p) s ops := by
  induction ops generalizing s a with
  | nil => exact ⟨a, ha, le_rfl, hcap, by simp [Run.total]⟩
  | cons op ops ih =>
    have hbooks := s.books_step floatMul required p op
    have hmem := getPlayerProgression_iff_mem.mp ⟨a, ha⟩
    obtain ⟨b, hb⟩ := getPlayerProgression_iff_mem.mpr (hbooks.players ▸ hmem)
    have hclimb := hbooks.climb a b ha hb
    have hfits := h.1 p hmem
    rw [getPlayerLevel_of_some ha, getPlayerLevel_of_some hb, getPlayerSkillPoints_of_some ha]
      at hfits
    have hpoints := hclimb.points hfits
    obtain ⟨d, hd, hle, hmax, hrest⟩ := ih h.2 hb (hbooks.maxLevel ▸ hclimb.capped hcap)
    rw [hbooks.maxLevel] at hmax
    rw [hbooks.perLevel] at hrest
    have hle₁ := hclimb.level
    have hsplit : s.skillPointsPerLevel.toNat * (d.level.toNat - a.level.toNat)
        = s.skillPointsPerLevel.toNat * (b.level.toNat - a.level.toNat)
          + s.skillPointsPerLevel.toNat * (d.level.toNat - b.level.toNat) := by
      rw [← Nat.mul_add]
      congr 1
      omega
    refine ⟨d, hd, hle₁.trans hle, hmax, ?_⟩
    rw [hsplit, Run.total, Run.total]
    omega

def skillLevels (s : SharedProgression) : ℕ :=
  OrdMap.sumOver (fun _ skill => skill.currentLevel.toNat) s.skills

theorem skillLevels_of_eq {s s' : SharedProgression} (h : s'.skills = s.skills) :
    s'.skillLevels = s.skillLevels := by
  rw [skillLevels, h, skillLevels]

theorem skillLevels_spend (s : SharedProgression) (q k : UInt32) :
    (s.spendSkillPoint q k).1.skillLevels
      = s.skillLevels + ∑ p ∈ s.playerProgressions.keys,
          if q = p ∧ (s.spendSkillPoint q k).2 then 1 else 0 := by
  rcases s.spendSkillPoint_cases q k with h | ⟨player, skill, hq, hskill, -, hlt, -, h⟩
  · simp [h]
  · have hmem := getPlayerProgression_iff_mem.mp ⟨player, hq⟩
    have hsum := OrdMap.sumOver_replace (fun _ skill => skill.currentLevel.toNat) hskill
      { skill with currentLevel := skill.currentLevel + 1 }
    rw [Word32.toNat_succ_of_lt hlt] at hsum
    simp only [h, and_true, Finset.sum_ite_eq, if_pos hmem]
    change OrdMap.sumOver _ (s.skills.insert k _) = _
    rw [skillLevels]
    omega

theorem skillLevels_unlockSkill (s : SharedProgression) (q k : UInt32) :
    (s.unlockSkill q k).1.skillLevels = s.skillLevels := by
  unfold unlockSkill
  cases s.getPlayerProgression q with
  | none => rfl
  | some player =>
    cases hskill : s.getSkill k with
    | none => rfl
    | some skill =>
      dsimp only
      split_ifs
      · rfl
      · exact Nat.add_right_cancel (OrdMap.sumOver_replace (fun _ skill => skill.currentLevel.toNat)
          hskill { skill with isUnlocked := true, isActive := true })
      · rfl

theorem skillLevels_step (s : SharedProgression) (op : Op) :
    (s.step floatMul required op).skillLevels
      = s.skillLevels + ∑ p ∈ s.playerProgressions.keys, spentBy p s op := by
  have hidle {op : Op} (hsame : (s.step floatMul required op).skillLevels = s.skillLevels)
      (hspent : ∀ p, spentBy p s op = 0) : (s.step floatMul required op).skillLevels
        = s.skillLevels + ∑ p ∈ s.playerProgressions.keys, spentBy p s op := by
    rw [hsame, Finset.sum_eq_zero fun p _ => hspent p, Nat.add_zero]
  cases op with
  | spendSkillPoint q k => exact s.skillLevels_spend q k
  | upgradeSkill q k => exact s.skillLevels_spend q k
  | unlockSkill q k => exact hidle (s.skillLevels_unlockSkill q k) fun _ => rfl
  | addExperience q n g =>
    exact hidle (skillLevels_of_eq (s.skills_addExperience floatMul required q n g)) fun _ => rfl
  | levelUpPlayer q => exact hidle (skillLevels_of_eq (s.skills_levelUpPlayer required q)) fun _ => rfl
  | addSkillPoint q n => exact hidle (skillLevels_of_eq (s.skills_addSkillPoint q n)) fun _ => rfl
  | unlockAchievement q a =>
    exact hidle (skillLevels_of_eq (s.skills_unlockAchievement floatMul required q a)) fun _ => rfl
  | distributeGroupExperience g =>
    exact hidle (skillLevels_of_eq (s.skills_distributeGroupExperience floatMul required g))
      fun _ => rfl

theorem skillLevels_run (s : SharedProgression) (ops : List Op) :
    (Run.run (step floatMul required) s ops).skillLevels = s.skillLevels
      + ∑ p ∈ s.playerProgressions.keys, Run.total (step floatMul required) (spentBy p) s ops := by
  induction ops generalizing s with
  | nil => simp [Run.run, Run.total]
  | cons op ops ih =>
    have hkeys := (s.books_step floatMul required 0 op).players
    simp only [Run.run, Run.total, Finset.sum_add_distrib]
    rw [ih, hkeys, skillLevels_step, Nat.add_assoc]

/-- Points held and points spent are the points for levels and the points granted; no level
passes the limit; and every point spent is a level of a skill. -/
theorem points_balance {s₀ : SharedProgression} (hfresh : s₀.Fresh) {ops : List Op}
    (h : Run.Along (step floatMul required) (Fits floatMul required) s₀ ops) :
    let s := Run.run (step floatMul required) s₀ ops
    (∀ p ∈ s₀.playerProgressions.keys,
      1 ≤ s.getPlayerLevel p ∧ s.getPlayerLevel p ≤ s₀.maxLevel ∧
      (s.getPlayerSkillPoints p).toNat + Run.total (step floatMul required) (spentBy p) s₀ ops
        = s₀.skillPointsPerLevel.toNat * ((s.getPlayerLevel p).toNat - 1)
          + Run.total (step floatMul required) (grantedBy floatMul required p) s₀ ops) ∧
    OrdMap.sumOver (fun _ skill => skill.currentLevel.toNat) s.skills
      = ∑ p ∈ s₀.playerProgressions.keys,
          Run.total (step floatMul required) (spentBy p) s₀ ops := by
  intro s
  refine ⟨fun p hp => ?_, ?_⟩
  · obtain ⟨a, ha⟩ := getPlayerProgression_iff_mem.mpr hp
    obtain ⟨hlevel, hpoints⟩ := hfresh.players p a ha
    obtain ⟨b, hb, hle, hmax, hledger⟩ := ledger_run h ha (hlevel ▸ s₀.one_le_maxLevel)
    rw [getPlayerLevel_of_some hb, getPlayerSkillPoints_of_some hb]
    rw [hlevel] at hle
    refine ⟨UInt32.le_iff_toNat_le.mpr hle, hmax, ?_⟩
    rw [hledger, hlevel, hpoints, UInt32.toNat_zero, UInt32.toNat_one, Nat.zero_add]
  · have hzero : s₀.skillLevels = 0 := by
      refine List.sum_eq_zero fun n hn => ?_
      obtain ⟨e, he, rfl⟩ := List.mem_map.mp hn
      exact congrArg UInt32.toNat (hfresh.skills e.1 e.2 (OrdMap.find?_eq_some_iff.mpr he))
    exact (skillLevels_run s₀ ops).trans (by rw [hzero, Nat.zero_add])

theorem points_balance_one_spent :
    let s₀ : SharedProgression := {
      playerProgressions := .ofList [(7, {})]
      skills := .ofList [(1, { experienceRequired := 1 })]
      achievements := .ofList [(1, { experienceReward := 1000, skillPointReward := 2 })] }
    let ops : List Op := [.unlockAchievement 7 1, .addSkillPoint 7 3, .upgradeSkill 7 1]
    let s := Run.run (step (fun n _ => n) fun n => 1000 * n * n) s₀ ops
    s.getPlayerLevel 7 = 2 ∧ s.getPlayerSkillPoints 7 = 5 ∧
      OrdMap.sumOver (fun _ skill => skill.currentLevel.toNat) s.skills
        = ∑ p ∈ s₀.playerProgressions.keys,
            Run.total (step (fun n _ => n) fun n => 1000 * n * n) (spentBy p) s₀ ops :=
  ⟨by decide +kernel, by decide +kernel,
    (points_balance (by decide +kernel) (by decide +kernel)).2⟩

end SharedProgression
end WitcherMP.Progression
