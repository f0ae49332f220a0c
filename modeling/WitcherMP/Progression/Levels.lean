import WitcherMP.Progression.Points
import Mathlib.Order.Bounds.Basic

/-! The level that a player has after gains of experience, against the table of what each level
requires. The table is compared with the total in one place and with the remainder in another. -/

namespace WitcherMP.Progression.SharedProgression
variable (floatMul : UInt32 → ℚ → UInt32) {required : UInt32 → UInt32}

/-- The largest level up to the limit that the total reaches, or the first. -/
def IsLevelFor (required : UInt32 → UInt32) (maxLevel experience level : UInt32) : Prop :=
  IsGreatest {l | l ≤ maxLevel ∧ (l = 1 ∨ required l ≤ experience)} level

theorem isLevelFor_iff {maxLevel experience level : UInt32} (hone : 1 ≤ level)
    (hmax : level ≤ maxLevel) :
    IsLevelFor required maxLevel experience level ↔ (level = 1 ∨ required level ≤ experience) ∧
      ∀ j, level < j → j ≤ maxLevel → experience < required j := by
  constructor
  · rintro ⟨⟨-, hlevel⟩, hbound⟩
    refine ⟨hlevel, fun j hj hjmax => not_le.mp fun hle => ?_⟩
    exact absurd (hbound ⟨hjmax, Or.inr hle⟩) (not_le.mpr hj)
  · rintro ⟨hlevel, habove⟩
    refine ⟨⟨hmax, hlevel⟩, fun j hj => not_lt.mp fun hlt => ?_⟩
    rcases hj.2 with rfl | hle
    · exact absurd hone (not_le.mpr hlt)
    · exact absurd hle (not_le.mpr (habove j hlt hj.1))

def Rising (required : UInt32 → UInt32) (maxLevel : UInt32) : Prop :=
  ∀ i j, 1 ≤ i → i < j → j ≤ maxLevel → required i < required j

section Loop
variable (s : SharedProgression)

def Remainder (required : UInt32 → UInt32) (a : PlayerProgressionData) : Prop :=
  a.experienceToNextLevel = required (a.level + 1) - a.experience

theorem remainder_levelUp (a : PlayerProgressionData) : Remainder required (s.levelUp required a) := rfl

theorem experience_levelUps (fuel : ℕ) (a : PlayerProgressionData) :
    (s.levelUps required fuel a).experience = a.experience := by
  induction fuel generalizing a with
  | zero => rfl
  | succ fuel ih =>
    rw [levelUps]
    split_ifs
    · exact ih _
    · rfl

theorem levelUps_eq_or_remainder (fuel : ℕ) (a : PlayerProgressionData) :
    s.levelUps required fuel a = a ∨ Remainder required (s.levelUps required fuel a) := by
  induction fuel generalizing a with
  | zero => exact Or.inl rfl
  | succ fuel ih =>
    rw [levelUps]
    split_ifs
    · rcases ih (s.levelUp required a) with h | h
      · exact Or.inr (h.symm ▸ remainder_levelUp s a)
      · exact Or.inr h
    · exact Or.inl rfl

/-- The mark of level `j` is taken for what it is by a player who compares the total with what
is left: the total is past it by enough for the difference to wrap down again, or below half
of it. -/
def Clear (experience mark : UInt32) : Prop :=
  (mark < experience → 2 ^ 32 + mark.toNat ≤ 2 * experience.toNat) ∧
    (experience < mark → 2 * experience.toNat < mark.toNat)

theorem toNat_sub_mark (mark experience : UInt32) : (mark - experience).toNat =
    if experience.toNat ≤ mark.toNat then mark.toNat - experience.toNat
    else 2 ^ 32 + mark.toNat - experience.toNat := by
  have hm := mark.toNat_lt
  have he := experience.toNat_lt
  rw [UInt32.toNat_sub]
  split_ifs <;> omega

theorem stops_iff_of_lt {experience mark : UInt32} (h : experience < mark) :
    ¬ experience ≥ mark - experience ↔ Clear experience mark := by
  have hlt := UInt32.lt_iff_toNat_lt.mp h
  rw [Clear, ge_iff_le, UInt32.le_iff_toNat_le, toNat_sub_mark, if_pos hlt.le,
    UInt32.lt_iff_toNat_lt, UInt32.lt_iff_toNat_lt]
  omega

theorem goes_on_iff_of_le {experience mark : UInt32} (h : mark ≤ experience) :
    experience ≥ mark - experience ↔ Clear experience mark := by
  have hle := UInt32.le_iff_toNat_le.mp h
  have he := experience.toNat_lt
  rw [Clear, ge_iff_le, UInt32.le_iff_toNat_le, toNat_sub_mark, UInt32.lt_iff_toNat_lt,
    UInt32.lt_iff_toNat_lt]
  split_ifs <;> omega

theorem levelUps_right_iff_of_lt (hrising : Rising required s.maxLevel) {a : PlayerProgressionData}
    (hone : 1 ≤ a.level) (hlt : a.level < s.maxLevel)
    (hreached : a.level = 1 ∨ required a.level ≤ a.experience)
    (hbelow : a.experience < required (a.level + 1)) (fuel : ℕ) :
    IsLevelFor required s.maxLevel a.experience (s.levelUps required (fuel + 1) a).level ↔
      a.experience < a.experienceToNextLevel := by
  have habove (j : UInt32) (hj : a.level < j) (hjmax : j ≤ s.maxLevel) :
      a.experience < required j := by
    rcases Word32.eq_or_succ_lt hj with rfl | hgt
    · exact hbelow
    · exact hbelow.trans (hrising _ _ (Word32.one_le_succ_of_lt hlt) hgt hjmax)
  rw [levelUps]
  by_cases hgo : a.experience ≥ a.experienceToNextLevel
  · rw [if_pos ⟨hgo, hlt⟩]
    have hclimb := s.climb_levelUps required fuel (s.levelUp required a)
    have hup : a.level < (s.levelUps required fuel (s.levelUp required a)).level :=
      (Word32.lt_succ_of_lt hlt).trans_le (UInt32.le_iff_toNat_le.mpr hclimb.level)
    have htop := hclimb.capped (Word32.succ_le_of_lt hlt)
    refine iff_of_false (fun hlevel => ?_) (not_lt.mpr hgo)
    rw [isLevelFor_iff (hone.trans hup.le) htop] at hlevel
    rcases hlevel.1 with heq | hreach
    · exact absurd (heq ▸ hup) (not_lt.mpr hone)
    · exact absurd hreach (not_le.mpr (habove _ hup htop))
  · rw [if_neg fun h => hgo h.1, isLevelFor_iff hone hlt.le]
    exact iff_of_true ⟨hreached, habove⟩ (not_le.mp hgo)

theorem levelUps_right_iff (hrising : Rising required s.maxLevel) {a : PlayerProgressionData}
    (hone : 1 ≤ a.level) (hmax : a.level ≤ s.maxLevel)
    (hreached : a.level = 1 ∨ required a.level ≤ a.experience) (hrem : Remainder required a) :
    IsLevelFor required s.maxLevel a.experience
        (s.levelUps required (s.maxLevel.toNat - a.level.toNat) a).level ↔
      ∀ j, a.level < j → j ≤ s.maxLevel → Clear a.experience (required j) := by
  generalize hfuel : s.maxLevel.toNat - a.level.toNat = fuel
  have hmax' := UInt32.le_iff_toNat_le.mp hmax
  induction fuel generalizing a with
  | zero =>
    have hend : a.level = s.maxLevel := UInt32.toNat_inj.mp (by omega)
    have hnone (j : UInt32) (hj : a.level < j) (hjmax : j ≤ s.maxLevel) : False :=
      absurd hj (not_lt.mpr (hend ▸ hjmax))
    rw [levelUps, isLevelFor_iff hone hmax]
    exact iff_of_true ⟨hreached, fun j hj hjmax => (hnone j hj hjmax).elim⟩
      fun j hj hjmax => (hnone j hj hjmax).elim
  | succ fuel ih =>
    have hlt : a.level < s.maxLevel := UInt32.lt_iff_toNat_lt.mpr (by omega)
    have hnext := Word32.toNat_succ_of_lt hlt
    have hup := Word32.lt_succ_of_lt hlt
    have hmaxnext := Word32.succ_le_of_lt hlt
    rcases lt_or_ge a.experience (required (a.level + 1)) with hbelow | hreach
    · rw [s.levelUps_right_iff_of_lt hrising hone hlt hreached hbelow, hrem, ← not_le,
        stops_iff_of_lt hbelow]
      refine ⟨fun hclear j hj hjmax => ?_, fun h => h _ hup hmaxnext⟩
      rcases Word32.eq_or_succ_lt hj with rfl | hgt
      · exact hclear
      · have hmarks := hrising _ _ (Word32.one_le_succ_of_lt hlt) hgt hjmax
        refine ⟨fun h => absurd (hbelow.trans hmarks) h.asymm, fun _ => ?_⟩
        exact (hclear.2 hbelow).trans (UInt32.lt_iff_toNat_lt.mp hmarks)
    · rw [levelUps]
      by_cases hgo : a.experience ≥ required (a.level + 1) - a.experience
      · rw [if_pos ⟨hrem ▸ hgo, hlt⟩]
        have hrest := @ih (s.levelUp required a) (Word32.one_le_succ_of_lt hlt) hmaxnext
          (Or.inr hreach) (remainder_levelUp s a)
          (by change s.maxLevel.toNat - (a.level + 1).toNat = fuel; omega)
          (by change (a.level + 1).toNat ≤ _; omega)
        refine hrest.trans ⟨fun h j hj hjmax => ?_, fun h j hj hjmax => h j (hup.trans hj) hjmax⟩
        rcases Word32.eq_or_succ_lt hj with rfl | hgt
        · exact (goes_on_iff_of_le hreach).mp hgo
        · exact h j hgt hjmax
      · rw [if_neg fun h => hgo (hrem ▸ h.1), isLevelFor_iff hone hmax]
        refine iff_of_false (fun h => ?_) fun h =>
          hgo ((goes_on_iff_of_le hreach).mpr (h _ hup hmaxnext))
        exact absurd (h.2 _ hup hmaxnext) (not_lt.mpr hreach)

/-- The condition on one gain, up to the total `experience`, of a player `a`: below the next
mark the total is also below what the player is marked with; from the next mark on the marks
further up are clear of the total. -/
def Meets (required : UInt32 → UInt32) (maxLevel : UInt32) (a : PlayerProgressionData)
    (experience : UInt32) : Prop :=
  a.level = maxLevel ∨
    if experience < required (a.level + 1) then experience < a.experienceToNextLevel
    else ∀ j, a.level + 1 < j → j ≤ maxLevel → Clear experience (required j)

structure Marked (required : UInt32 → UInt32) (maxLevel : UInt32) (a : PlayerProgressionData) :
    Prop where
  one_le : 1 ≤ a.level
  le_max : a.level ≤ maxLevel
  mark : IsLevelFor required maxLevel a.experience a.level → a.level < maxLevel →
    a.experienceToNextLevel ≤ required (a.level + 1)

theorem gain_right_iff (hrising : Rising required s.maxLevel) {a : PlayerProgressionData}
    (ha : Marked required s.maxLevel a)
    (hright : IsLevelFor required s.maxLevel a.experience a.level) {experience : UInt32}
    (hmore : a.experience ≤ experience) :
    IsLevelFor required s.maxLevel experience
        (s.levelUps required (s.maxLevel.toNat - a.level.toNat)
          { a with experience := experience }).level ↔
      Meets required s.maxLevel a experience := by
  have hreached : a.level = 1 ∨ required a.level ≤ experience :=
    ((isLevelFor_iff ha.one_le ha.le_max).mp hright).1.imp_right (·.trans hmore)
  rcases ha.le_max.eq_or_lt with hend | hlt
  · have hzero : s.maxLevel.toNat - a.level.toNat = 0 := by rw [hend, Nat.sub_self]
    rw [hzero, levelUps, isLevelFor_iff ha.one_le ha.le_max]
    exact iff_of_true ⟨hreached, fun j hj hjmax => absurd hj (not_lt.mpr (hend ▸ hjmax))⟩ (Or.inl hend)
  · have hnext := Word32.toNat_succ_of_lt hlt
    have hlt' := UInt32.lt_iff_toNat_lt.mp hlt
    have hfuel : s.maxLevel.toNat - a.level.toNat = (s.maxLevel.toNat - (a.level + 1).toNat) + 1 := by
      omega
    rw [Meets, or_iff_right hlt.ne, hfuel]
    rcases lt_or_ge experience (required (a.level + 1)) with hbelow | hreach
    · rw [if_pos hbelow]
      exact s.levelUps_right_iff_of_lt (a := { a with experience := experience }) hrising ha.one_le
        hlt hreached hbelow _
    · have hgo : experience ≥ a.experienceToNextLevel := (ha.mark hright hlt).trans hreach
      rw [levelUps, if_pos ⟨hgo, hlt⟩, if_neg (not_lt.mpr hreach)]
      let up := s.levelUp required { a with experience := experience }
      exact s.levelUps_right_iff (a := up) hrising (Word32.one_le_succ_of_lt hlt)
        (Word32.succ_le_of_lt hlt) (Or.inr hreach) (remainder_levelUp s _)

theorem marked_gain {a : PlayerProgressionData} (ha : Marked required s.maxLevel a)
    (hright : IsLevelFor required s.maxLevel a.experience a.level) (experience : UInt32) (fuel : ℕ) :
    Marked required s.maxLevel (s.levelUps required fuel { a with experience := experience }) := by
  have hclimb := s.climb_levelUps required fuel { a with experience := experience }
  have hle : a.level ≤ (s.levelUps required fuel { a with experience := experience }).level :=
    UInt32.le_iff_toNat_le.mpr hclimb.level
  have hmax := hclimb.capped ha.le_max
  refine ⟨ha.one_le.trans hle, hmax, fun hr hlt => ?_⟩
  rcases s.levelUps_eq_or_remainder fuel { a with experience := experience } with heq | hrem
  · rw [heq] at hlt ⊢
    exact ha.mark hright hlt
  · have habove := ((isLevelFor_iff (ha.one_le.trans hle) hmax).mp hr).2 _
      (Word32.lt_succ_of_lt hlt) (Word32.succ_le_of_lt hlt)
    rw [hrem, UInt32.le_iff_toNat_le, toNat_sub_mark,
      if_pos (UInt32.lt_iff_toNat_lt.mp habove).le]
    exact Nat.sub_le _ _

end Loop

def gainStep (required : UInt32 → UInt32) (p : UInt32) (s : SharedProgression) (g : UInt32 × Bool) :
    SharedProgression :=
  (s.addExperience floatMul required p g.1 g.2).1

def RightLevel (required : UInt32 → UInt32) (p : UInt32) (s : SharedProgression) : Prop :=
  IsLevelFor required s.maxLevel (s.getPlayerExperience p) (s.getPlayerLevel p)

def TotalFits (p : UInt32) (s : SharedProgression) (g : UInt32 × Bool) : Prop :=
  (s.getPlayerExperience p).toNat + (s.adjustedAmount floatMul g.1 g.2).toNat < 2 ^ 32

instance decidableTotalFits (p : UInt32) (s : SharedProgression) (g : UInt32 × Bool) :
    Decidable (TotalFits floatMul p s g) :=
  inferInstanceAs (Decidable (_ < _))

def GainMeets (required : UInt32 → UInt32) (p : UInt32) (s : SharedProgression)
    (g : UInt32 × Bool) : Prop :=
  ∀ a, s.getPlayerProgression p = some a →
    Meets required s.maxLevel a (a.experience + s.adjustedAmount floatMul g.1 g.2)

theorem rightLevel_iff {s : SharedProgression} {p : UInt32} {a : PlayerProgressionData}
    (ha : s.getPlayerProgression p = some a) :
    RightLevel required p s ↔ IsLevelFor required s.maxLevel a.experience a.level := by
  rw [RightLevel, getPlayerExperience, getPlayerLevel, ha]

variable {floatMul}

theorem gainStep_right_iff {maxLevel : UInt32} (hrising : Rising required maxLevel) {p : UInt32}
    {s : SharedProgression} {g : UInt32 × Bool}
    (hs : s.maxLevel = maxLevel ∧
      ∃ a, s.getPlayerProgression p = some a ∧ Marked required maxLevel a)
    (hright : RightLevel required p s) (hfits : TotalFits floatMul p s g) :
    let s' := gainStep floatMul required p s g
    (s'.maxLevel = maxLevel ∧ ∃ a, s'.getPlayerProgression p = some a ∧ Marked required maxLevel a) ∧
      (RightLevel required p s' ↔ GainMeets floatMul required p s g) := by
  obtain ⟨rfl, a, ha, hmarked⟩ := hs
  rw [rightLevel_iff ha] at hright
  intro s'
  let experience := a.experience + s.adjustedAmount floatMul g.1 g.2
  let b := s.levelUps required (s.maxLevel.toNat - a.level.toNat) { a with experience := experience }
  have hs' : s' = (s.setPlayer p b).updatePlayerStats p := by
    simp only [s', gainStep, addExperience, ha]
    rfl
  have hb : s'.getPlayerProgression p = some b := by
    rw [hs']
    exact OrdMap.find?_insert_self ..
  have hmax : s'.maxLevel = s.maxLevel := by
    rw [hs']
    rfl
  have hmore : a.experience ≤ experience := by
    rw [TotalFits, getPlayerExperience, ha] at hfits
    rw [UInt32.le_iff_toNat_le, Word32.toNat_add hfits]
    exact Nat.le_add_right _ _
  refine ⟨⟨hmax, b, hb, s.marked_gain hmarked hright _ _⟩, ?_⟩
  have hexp : b.experience = experience := s.experience_levelUps _ _
  rw [rightLevel_iff hb, hmax, hexp, s.gain_right_iff hrising hmarked hright hmore]
  exact ⟨fun h a' ha' => Option.some.inj (ha.symm.trans ha') ▸ h, fun h => h a ha⟩

/-- A new player is at the right level after every gain just when every gain meets its
condition. -/
theorem right_levels_iff {s : SharedProgression} (hinit : s.initialized)
    (hrising : Rising required s.maxLevel) (p : UInt32) {gains : List (UInt32 × Bool)}
    (hfits : Run.Along (gainStep floatMul required p) (TotalFits floatMul p)
      (s.addPlayer required p) gains) :
    Run.Along (gainStep floatMul required p)
        (fun s g => RightLevel required p (gainStep floatMul required p s g))
        (s.addPlayer required p) gains ↔
      Run.Along (gainStep floatMul required p) (GainMeets floatMul required p)
        (s.addPlayer required p) gains := by
  let new : PlayerProgressionData :=
    { playerId := p, level := 1, experience := 0, experienceToNextLevel := required 2 }
  have hnew : (s.addPlayer required p).getPlayerProgression p = some new := by
    rw [addPlayer, if_neg (not_not.mpr hinit)]
    exact OrdMap.find?_insert_self ..
  have hmax : (s.addPlayer required p).maxLevel = s.maxLevel := by
    rw [addPlayer, if_neg (not_not.mpr hinit)]
    rfl
  have hmarked : Marked required s.maxLevel new :=
    ⟨le_rfl, s.one_le_maxLevel, fun _ _ => le_rfl⟩
  have hright : RightLevel required p (s.addPlayer required p) := by
    rw [rightLevel_iff hnew, hmax, isLevelFor_iff le_rfl s.one_le_maxLevel]
    refine ⟨Or.inl rfl, fun j hj hjmax => ?_⟩
    exact UInt32.zero_le.trans_lt (hrising 1 j le_rfl hj hjmax)
  exact Run.along_iff_of_step (I := RightLevel required p)
    (fun s' g => gainStep_right_iff hrising) ⟨hmax, new, hnew, hmarked⟩ hright hfits

theorem rising_calculateExperienceRequired : Rising calculateExperienceRequired 84 := by
  have hsucc : ∀ i : Fin 84, 1 ≤ i.val →
      calculateExperienceRequired (.ofNat i) < calculateExperienceRequired (.ofNat (i.val + 1)) := by
    decide +kernel
  have hlt {m n : ℕ} (hm : 1 ≤ m) (hmn : m + 1 ≤ n) (hn : n ≤ 84) :
      calculateExperienceRequired (.ofNat m) < calculateExperienceRequired (.ofNat n) := by
    induction n, hmn using Nat.le_induction with
    | base => exact hsucc ⟨m, hn⟩ hm
    | succ n hmn ih => exact (ih (by omega)).trans (hsucc ⟨n, hn⟩ (show 1 ≤ n by omega))
  intro i j hi hij hj
  have := hlt (UInt32.le_iff_toNat_le.mp hi) (UInt32.lt_iff_toNat_lt.mp hij)
    (UInt32.le_iff_toNat_le.mp hj)
  rwa [UInt32.ofNat_toNat, UInt32.ofNat_toNat] at this

theorem right_levels_below_second :
    let s : SharedProgression := { initialized := true, maxLevel := 84 }
    Run.Along (gainStep (fun n _ => n) calculateExperienceRequired 7)
      (fun s g => RightLevel calculateExperienceRequired 7
        (gainStep (fun n _ => n) calculateExperienceRequired 7 s g))
      (s.addPlayer calculateExperienceRequired 7) [(100, false), (1000, false)] := by
  refine (right_levels_iff rfl rising_calculateExperienceRequired 7 (by decide +kernel)).mpr
    ⟨fun a ha => Or.inr ?_, fun a ha => Or.inr ?_, trivial⟩
  all_goals
    obtain rfl := Option.some.inj ha
    rw [if_pos (by decide +kernel)]
    decide +kernel

theorem not_right_level_sixth :
    let s : SharedProgression := { initialized := true, maxLevel := 84 }
    let s' := gainStep (fun n _ => n) calculateExperienceRequired 7
      (s.addPlayer calculateExperienceRequired 7) (1300, false)
    Rising calculateExperienceRequired s.maxLevel ∧
      TotalFits (fun n _ => n) 7 (s.addPlayer calculateExperienceRequired 7) (1300, false) ∧
      s'.getPlayerLevel 7 = 6 ∧ ¬ RightLevel calculateExperienceRequired 7 s' := by
  refine ⟨rising_calculateExperienceRequired, by decide +kernel, by decide +kernel, fun h => ?_⟩
  exact absurd h.1.2 (by decide +kernel)

end WitcherMP.Progression.SharedProgression
