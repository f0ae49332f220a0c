import WitcherMP.Progression.Reach
import WitcherMP.Lib.Interference

/-! What one player sees of another's calls. Skills and achievements are unlocked for all players
at once, so what stays unseen is what was refused, and the levels of skills that the other player
has no way to unlock. -/

namespace WitcherMP.Progression
namespace SharedProgression

section Sight
variable (floatMul : UInt32 → ℚ → UInt32) (required : UInt32 → UInt32) (q : UInt32)
  (s : SharedProgression)

/-- A call of `p` that is refused, or levels a skill out of the reach of `q`. -/
def Unseen (p : UInt32) (c : Call) : Prop :=
  s.Refused p c ∨ ∃ k, (c = .spendSkillPoint k ∨ c = .upgradeSkill k) ∧
    ¬ s.WithinReach floatMul required q k

abbrev Alike : SharedProgression → SharedProgression → Prop :=
  Interference.Indistinct (callStep floatMul required q) (callResult floatMul required q) (view q)

def Clouded (k : UInt32) (a b : SkillData) : Prop :=
  b = a ∨ ¬ s.WithinReach floatMul required q k ∧ b = { a with currentLevel := b.currentLevel }

inductive Blurred : SharedProgression → Prop
  | mk {players : OrdMap UInt32 PlayerProgressionData} {skills : OrdMap UInt32 SkillData}
      {won : OrdMap UInt32 (List UInt32)} {stats : ProgressionStats}
      (hrecord : players.find? q = s.playerProgressions.find? q)
      (hwon : won.find? q = s.playerAchievements.find? q)
      (hskills : OrdMap.Pointwise (Clouded floatMul required q s) s.skills skills) :
      Blurred { s with
        playerProgressions := players
        skills := skills
        playerAchievements := won
        stats := stats }

end Sight

section Blurred
variable {floatMul : UInt32 → ℚ → UInt32} {required : UInt32 → UInt32} {s t : SharedProgression}
  {p q k : UInt32} {a b : SkillData} {c : Call}

theorem withinReach_of_checkSkillPrerequisites (h : s.checkSkillPrerequisites q k) :
    s.WithinReach floatMul required q k := by
  cases hplayer : s.getPlayerProgression q with
  | none =>
    rw [checkSkillPrerequisites, hplayer] at h
    cases hskill : s.getSkill k <;> simp [hskill] at h
  | some player =>
    exact ⟨player, [], hplayer, ⟨List.nodup_nil, List.forall_mem_nil _⟩,
      attainable_of_checkSkillPrerequisites hplayer le_rfl h⟩

theorem Clouded.refl (k : UInt32) (a : SkillData) : Clouded floatMul required q s k a a := Or.inl rfl

theorem Clouded.fields (h : Clouded floatMul required q s k a b) :
    b.isUnlocked = a.isUnlocked ∧ b.experienceRequired = a.experienceRequired ∧
      b.prerequisites = a.prerequisites := by
  rcases h with rfl | ⟨-, h⟩
  · exact ⟨rfl, rfl, rfl⟩
  · rw [h]
    exact ⟨rfl, rfl, rfl⟩

theorem Clouded.eq_of_withinReach (h : Clouded floatMul required q s k a b)
    (hreach : s.WithinReach floatMul required q k) : b = a :=
  h.resolve_right fun hout => hout.1 hreach

theorem Clouded.eq_of_unlocked (h : Clouded floatMul required q s k a b)
    (hplayer : s.getPlayerProgression q ≠ none) (hskill : s.getSkill k = some a)
    (hunlocked : a.isUnlocked) : b = a := by
  obtain ⟨player, hplayer⟩ := Option.ne_none_iff_exists'.mp hplayer
  exact h.eq_of_withinReach ⟨player, [], hplayer, ⟨List.nodup_nil, List.forall_mem_nil _⟩,
    .unlocked hskill hunlocked⟩

theorem Blurred.refl (s : SharedProgression) : Blurred floatMul required q s s :=
  .mk rfl rfl (OrdMap.Pointwise.refl Clouded.refl _)

theorem Blurred.record (h : Blurred floatMul required q s t) :
    t.getPlayerProgression q = s.getPlayerProgression q := by
  obtain ⟨hrecord, -, -⟩ := h
  exact hrecord

theorem Blurred.skills (h : Blurred floatMul required q s t) :
    OrdMap.Pointwise (Clouded floatMul required q s) s.skills t.skills := by
  obtain ⟨-, -, hskills⟩ := h
  exact hskills

theorem Blurred.sameRates (h : Blurred floatMul required q s t) : SameRates s t := by
  cases h
  exact ⟨rfl, rfl, rfl⟩

theorem Blurred.check_eq (h : Blurred floatMul required q s t) (k : UInt32) :
    t.checkSkillPrerequisites q k = s.checkSkillPrerequisites q k := by
  rw [Bool.eq_iff_iff]
  cases hplayer : s.getPlayerProgression q with
  | none =>
    have hnone : ∀ u : SharedProgression, u.getPlayerProgression q = none →
        u.checkSkillPrerequisites q k = false := by
      intro u hu
      rw [checkSkillPrerequisites, hu]
      cases u.getSkill k <;> rfl
    rw [hnone s hplayer, hnone t (h.record.trans hplayer)]
  | some player =>
    have hunlocked : ∀ j, SkillMap.Unlocked t.skills j ↔ SkillMap.Unlocked s.skills j := by
      intro j
      constructor
      · rintro ⟨b, hb, hunlocked⟩
        obtain ⟨a, ha, hcloud⟩ := h.skills.exists_left hb
        exact ⟨a, ha, hcloud.fields.1 ▸ hunlocked⟩
      · rintro ⟨a, ha, hunlocked⟩
        obtain ⟨b, hb, hcloud⟩ := h.skills.exists_right ha
        exact ⟨b, hb, hcloud.fields.1.symm ▸ hunlocked⟩
    cases hskill : s.getSkill k with
    | none =>
      have hskill' : t.getSkill k = none := h.skills.eq_none_iff.mp hskill
      rw [checkSkillPrerequisites, checkSkillPrerequisites, hskill, hskill']
    | some skill =>
      obtain ⟨skill', hskill', hcloud⟩ := h.skills.exists_right hskill
      obtain ⟨-, hrequired, hprereqs⟩ := hcloud.fields
      rw [checkSkillPrerequisites_iff (h.record.trans hplayer) hskill',
        checkSkillPrerequisites_iff hplayer hskill, hrequired, hprereqs]
      simp only [hunlocked]

theorem Blurred.view_eq (h : Blurred floatMul required q s t)
    (hplayer : s.getPlayerProgression q ≠ none) : s.view q = t.view q := by
  have hfilter : (s.skills.filter fun _ skill => skill.isUnlocked) =
      t.skills.filter fun _ skill => skill.isUnlocked := by
    refine OrdMap.ext_find? fun k => Option.ext fun a => ?_
    rw [OrdMap.find?_filter_eq_some_iff, OrdMap.find?_filter_eq_some_iff]
    constructor
    · rintro ⟨ha, hunlocked⟩
      obtain ⟨b, hb, hcloud⟩ := h.skills.exists_right ha
      exact ⟨hcloud.eq_of_unlocked hplayer ha hunlocked ▸ hb, hunlocked⟩
    · rintro ⟨hb, hunlocked⟩
      obtain ⟨b, ha, hcloud⟩ := h.skills.exists_left hb
      have := hcloud.eq_of_unlocked hplayer ha (hcloud.fields.1 ▸ hunlocked)
      exact ⟨this ▸ ha, hunlocked⟩
  have hachievements : s.getPlayerAchievements q = t.getPlayerAchievements q := by
    obtain ⟨-, hwon, -⟩ := h
    rw [getPlayerAchievements, getPlayerAchievements, OrdMap.getD, OrdMap.getD, hwon]
  rw [view, view, getPlayerSkills, getPlayerSkills, hfilter, hachievements]

theorem Blurred.refused_iff (h : Blurred floatMul required q s t) (c : Call) :
    t.Refused q c ↔ s.Refused q c := by
  have hskill : ∀ {P Q : SkillData → Prop} (k : UInt32),
      (∀ a b, Clouded floatMul required q s k a b → (P b ↔ Q a)) →
      ((∀ b, t.getSkill k = some b → P b) ↔ ∀ a, s.getSkill k = some a → Q a) := by
    intro P Q k hpq
    constructor
    · intro hp a ha
      obtain ⟨b, hb, hcloud⟩ := h.skills.exists_right ha
      exact (hpq a b hcloud).mp (hp b hb)
    · intro hq b hb
      obtain ⟨a, ha, hcloud⟩ := h.skills.exists_left hb
      exact (hpq a b hcloud).mpr (hq a ha)
  have hpoints : t.getPlayerSkillPoints q = s.getPlayerSkillPoints q := by
    rw [getPlayerSkillPoints, getPlayerSkillPoints, h.record]
  have hspend : ∀ k, t.Refused q (.spendSkillPoint k) ↔ s.Refused q (.spendSkillPoint k) := by
    refine fun k => hskill k fun a b hcloud => ?_
    rw [hpoints, h.check_eq]
    rcases hcloud with rfl | ⟨hout, -⟩
    · exact Iff.rfl
    · have hcheck : ¬ s.checkSkillPrerequisites q k := fun hcheck =>
        hout (withinReach_of_checkSkillPrerequisites hcheck)
      exact iff_of_true (Or.inr (Or.inr hcheck)) (Or.inr (Or.inr hcheck))
  cases c with
  | unlockSkill k =>
    refine hskill k fun a b hcloud => ?_
    rw [h.check_eq, hcloud.fields.1]
  | spendSkillPoint k => exact hspend k
  | upgradeSkill k => exact hspend k
  | unlockAchievement a =>
    obtain ⟨hrecord, -, -⟩ := h
    exact or_congr (by rw [getPlayerProgression, getPlayerProgression, hrecord]) Iff.rfl

theorem Clouded.of_callStep {s' : SharedProgression}
    (hreach : ∀ k, s'.WithinReach floatMul required q k → s.WithinReach floatMul required q k)
    (h : Clouded floatMul required q s k a b) : Clouded floatMul required q s' k a b :=
  h.imp id fun hout => ⟨fun hk => hout.1 (hreach k hk), hout.2⟩

theorem Blurred.accepted {s' t' : SharedProgression} (h : Blurred floatMul required q s t)
    (hreach : ∀ k, s'.WithinReach floatMul required q k → s.WithinReach floatMul required q k)
    (hs : s.Accepted floatMul required q c s') (ht : t.Accepted floatMul required q c t') :
    Blurred floatMul required q s' t' := by
  have hrates := h.sameRates
  obtain ⟨hrecord, hwon, hskills⟩ := h
  have hskills' := hskills.mono fun k a b hab => hab.of_callStep hreach
  have hsame : ∀ {j a b}, s.getSkill j = some a → OrdMap.find? _ j = some b →
      s.checkSkillPrerequisites q j → b = a := fun ha hb hcheck =>
    (hskills.rel ha hb).eq_of_withinReach (withinReach_of_checkSkillPrerequisites hcheck)
  cases hs with
  | unlock hskill hlocked hcheck => cases ht with
    | unlock hskill' =>
      obtain rfl := hsame hskill hskill' hcheck
      exact .mk hrecord hwon (hskills'.insert (.refl _ _))
    | spend hc => simp at hc
  | @spend _ j player _ hc hplayer hskill _ hcheck => cases ht with
    | unlock => simp at hc
    | achieve => simp at hc
    | @spend _ j' player' _ hc' hplayer' hskill' =>
      obtain rfl := Call.eq_of_spends hc' hc
      obtain rfl := hsame hskill hskill' hcheck
      obtain rfl := Option.some.inj (hplayer'.symm.trans (hrecord.trans hplayer))
      refine .mk ?_ hwon (hskills'.insert (.refl _ _))
      exact (OrdMap.find?_insert_self _ _ _).trans (OrdMap.find?_insert_self _ _ _).symm
  | @achieve _ player achievement hplayer hachievement => cases ht with
    | spend hc => simp at hc
    | @achieve _ player' achievement' hplayer' hachievement' =>
      obtain rfl := Option.some.inj (hplayer'.symm.trans (hrecord.trans hplayer))
      obtain rfl := Option.some.inj (hachievement'.symm.trans hachievement)
      refine .mk ?_ ?_ hskills'
      · rw [OrdMap.find?_insert_self, OrdMap.find?_insert_self]
        exact congrArg some (hrates.rewarded_eq _ _)
      · rw [OrdMap.find?_insert_self, OrdMap.find?_insert_self, OrdMap.getD, OrdMap.getD, hwon]

theorem Blurred.callStep (h : Blurred floatMul required q s t) (c : Call) :
    s.callResult floatMul required q c = t.callResult floatMul required q c ∧
      Blurred floatMul required q (s.callStep floatMul required q c)
        (t.callStep floatMul required q c) := by
  rcases s.call_cases q c with ⟨hrefused, heq⟩ | ⟨haccept, hresult, hs⟩
  · rcases t.call_cases q c with ⟨-, heq'⟩ | ⟨haccept, -⟩
    · rw [callResult, callResult, SharedProgression.callStep, SharedProgression.callStep, step, step,
        heq, heq']
      exact ⟨rfl, h⟩
    · exact absurd ((h.refused_iff c).mpr hrefused) haccept
  rcases t.call_cases q c with ⟨hrefused, -⟩ | ⟨-, hresult', ht⟩
  · exact absurd ((h.refused_iff c).mp hrefused) haccept
  exact ⟨hresult.trans hresult'.symm, h.accepted (fun k hk => hk.of_callStep) hs ht⟩

theorem registered_callStep (c : Call) (h : s.getPlayerProgression q ≠ none) :
    (s.callStep floatMul required p c).getPlayerProgression q ≠ none := by
  have hinsert : ∀ player, (s.playerProgressions.insert p player).find? q ≠ none := by
    intro player
    rw [OrdMap.find?_insert]
    split_ifs
    · exact Option.some_ne_none player
    · exact h
  rcases s.call_cases p c with ⟨-, heq⟩ | ⟨-, -, haccepted⟩
  · rwa [SharedProgression.callStep, step, heq]
  · generalize s.callStep floatMul required p c = t at haccepted
    cases haccepted with
    | unlock => exact h
    | spend => exact hinsert _
    | achieve => exact hinsert _

theorem blurred_of_unseen (hpq : p ≠ q) (h : s.Unseen floatMul required q p c) :
    Blurred floatMul required q s (s.callStep floatMul required p c) := by
  rcases s.call_cases p c with ⟨-, heq⟩ | ⟨haccept, -, haccepted⟩
  · rw [SharedProgression.callStep, step, heq]
    exact .refl s
  obtain ⟨k, hc, hout⟩ := h.resolve_left haccept
  generalize s.callStep floatMul required p c = t at haccepted
  cases haccepted with
  | unlock => simp at hc
  | achieve => simp at hc
  | @spend _ j player skill hc' _ hskill =>
    obtain rfl := Call.eq_of_spends hc' hc
    exact .mk (OrdMap.find?_insert_of_ne _ _ hpq) rfl
      (OrdMap.Pointwise.insert_right (fun k a _ => Clouded.refl k a) hskill (Or.inr ⟨hout, rfl⟩))

theorem alike_of_unseen (hpq : p ≠ q) (hplayer : s.getPlayerProgression q ≠ none)
    (h : s.Unseen floatMul required q p c) :
    Alike floatMul required q s (s.callStep floatMul required p c) := by
  refine Interference.indistinct_of_bisim
    (R := fun s t => s.getPlayerProgression q ≠ none ∧ Blurred floatMul required q s t)
    (fun s t h => h.2.view_eq h.1) (fun s t c h => ?_) ⟨hplayer, blurred_of_unseen hpq h⟩
  obtain ⟨hresult, hblurred⟩ := h.2.callStep c
  exact ⟨hresult, registered_callStep c h.1, hblurred⟩

end Blurred

section Seen
variable {floatMul : UInt32 → ℚ → UInt32} {required : UInt32 → UInt32} {s t u : SharedProgression}
  {p q k j : UInt32} {a b d : SkillData} {c : Call}

def Advanced (a b : SkillData) : Prop :=
  (a.isUnlocked → b.isUnlocked) ∧ a.currentLevel ≤ b.currentLevel

def Outgrown (k j : UInt32) (a b : SkillData) : Prop :=
  Advanced a b ∧ (k = j → a.currentLevel < b.currentLevel)

theorem Advanced.refl (a : SkillData) : Advanced a a := ⟨id, le_rfl⟩

theorem Advanced.trans (h : Advanced a b) (h' : Advanced b d) : Advanced a d :=
  ⟨h'.1 ∘ h.1, h.2.trans h'.2⟩

theorem Outgrown.trans (h : Outgrown k j a b) (h' : Advanced b d) : Outgrown k j a d :=
  ⟨h.1.trans h', fun hj => (h.2 hj).trans_le h'.2⟩

theorem lt_levelled (h : a.currentLevel < a.maxLevel) : a.currentLevel < a.currentLevel + 1 := by
  rw [UInt32.lt_iff_toNat_lt, Word32.toNat_succ_of_lt h]
  exact Nat.lt_succ_self _

theorem Outgrown.levelled (h : Outgrown k j a b) (ha : a.currentLevel < a.maxLevel)
    (hb : b.currentLevel < b.maxLevel) :
    Outgrown k j { a with currentLevel := a.currentLevel + 1 }
      { b with currentLevel := b.currentLevel + 1 } := by
  have hsucc := Word32.toNat_succ_of_lt ha
  have hsucc' := Word32.toNat_succ_of_lt hb
  refine ⟨⟨h.1.1, ?_⟩, fun hj => ?_⟩
  · change a.currentLevel + 1 ≤ b.currentLevel + 1
    rw [UInt32.le_iff_toNat_le, hsucc, hsucc']
    exact Nat.succ_le_succ (UInt32.le_iff_toNat_le.mp h.1.2)
  · change a.currentLevel + 1 < b.currentLevel + 1
    rw [UInt32.lt_iff_toNat_lt, hsucc, hsucc']
    exact Nat.succ_lt_succ (UInt32.lt_iff_toNat_lt.mp (h.2 hj))

theorem advanced_callStep (s : SharedProgression) (c : Call) :
    OrdMap.Pointwise (fun _ => Advanced) s.skills (s.callStep floatMul required p c).skills := by
  rcases s.call_cases p c with ⟨-, heq⟩ | ⟨-, -, haccepted⟩
  · rw [callStep, step, heq]
    exact OrdMap.Pointwise.refl (fun _ => Advanced.refl) _
  · generalize s.callStep floatMul required p c = t at haccepted
    cases haccepted with
    | unlock hskill =>
      exact OrdMap.Pointwise.insert_right (fun _ a _ => Advanced.refl a) hskill
        ⟨fun _ => rfl, le_rfl⟩
    | spend _ _ hskill hlevel =>
      exact OrdMap.Pointwise.insert_right (fun _ a _ => Advanced.refl a) hskill
        ⟨id, (lt_levelled hlevel).le⟩
    | achieve => exact OrdMap.Pointwise.refl (fun _ => Advanced.refl) _

variable (floatMul required p) in
theorem advanced_run (s : SharedProgression) (calls : List Call) :
    OrdMap.Pointwise (fun _ => Advanced) s.skills
      (Run.run (callStep floatMul required p) s calls).skills :=
  Run.invariant_run (I := fun t => OrdMap.Pointwise (fun _ => Advanced) s.skills t.skills)
    (fun t c h => h.trans (advanced_callStep t c) fun _ _ _ _ => Advanced.trans)
    (OrdMap.Pointwise.refl (fun _ => Advanced.refl) _) calls

variable (floatMul required p) in
theorem unlocked_run {x : UInt32} {achievement : AchievementData}
    (hachievement : s.achievements.find? x = some achievement) (hunlocked : achievement.isUnlocked)
    (calls : List Call) :
    ∃ achievement', (Run.run (callStep floatMul required p) s calls).achievements.find? x =
      some achievement' ∧ achievement'.isUnlocked := by
  refine Run.invariant_run (I := fun t : SharedProgression => ∃ achievement',
    t.achievements.find? x = some achievement' ∧ achievement'.isUnlocked) (fun t c ht => ?_)
    ⟨achievement, hachievement, hunlocked⟩ calls
  rcases t.call_cases p c with ⟨-, heq⟩ | ⟨-, -, haccepted⟩
  · rwa [callStep, step, heq]
  · generalize t.callStep floatMul required p c = u at haccepted
    cases haccepted with
    | unlock => exact ht
    | spend => exact ht
    | achieve =>
      rw [OrdMap.find?_insert]
      split_ifs
      · exact ⟨_, rfl, rfl⟩
      · exact ht

theorem Accepted.unlocks {x : UInt32}
    (h : s.Accepted floatMul required p (.unlockAchievement x) t) :
    ∃ achievement, t.achievements.find? x = some achievement ∧ achievement.isUnlocked := by
  cases h with
  | spend hc => simp at hc
  | achieve => exact ⟨_, OrdMap.find?_insert_self _ _ _, rfl⟩

theorem callResult_of_unlocked {x : UInt32} {achievement : AchievementData}
    (hachievement : s.achievements.find? x = some achievement) (hunlocked : achievement.isUnlocked) :
    s.callResult floatMul required q (.unlockAchievement x) = false := by
  change (s.unlockAchievement floatMul required q x).2 = false
  rw [unlockAchievement, hachievement]
  cases s.getPlayerProgression q with
  | none => rfl
  | some player => exact congrArg Prod.snd (if_pos hunlocked)

theorem outgrown_callStep (h : OrdMap.Pointwise (Outgrown k) s.skills t.skills)
    (hresult : s.callResult floatMul required q c = t.callResult floatMul required q c) :
    OrdMap.Pointwise (Outgrown k) (s.callStep floatMul required q c).skills
      (t.callStep floatMul required q c).skills := by
  have hfalse : ∀ u : SharedProgression, u.apply floatMul required (c.op q) = (u, false) →
      u.callResult floatMul required q c = false := fun u hu => congrArg Prod.snd hu
  rcases s.call_cases q c with ⟨-, heq⟩ | ⟨-, hs, haccepted⟩
  · rcases t.call_cases q c with ⟨-, heq'⟩ | ⟨-, ht, -⟩
    · rwa [callStep, callStep, step, step, heq, heq']
    · rw [hfalse s heq, ht] at hresult
      exact absurd hresult Bool.false_ne_true
  rcases t.call_cases q c with ⟨-, heq'⟩ | ⟨-, -, haccepted'⟩
  · rw [hfalse t heq', hs] at hresult
    exact absurd hresult.symm Bool.false_ne_true
  generalize s.callStep floatMul required q c = s', t.callStep floatMul required q c = t'
    at haccepted haccepted'
  cases haccepted with
  | unlock hskill => cases haccepted' with
    | unlock hskill' =>
      have hab := h.rel hskill hskill'
      exact h.insert ⟨⟨fun _ => rfl, hab.1.2⟩, hab.2⟩
    | spend hc => simp at hc
  | @spend _ j _ _ hc _ hskill hlevel => cases haccepted' with
    | unlock => simp at hc
    | achieve => simp at hc
    | @spend _ j' _ _ hc' _ hskill' hlevel' =>
      obtain rfl := Call.eq_of_spends hc' hc
      exact h.insert ((h.rel hskill hskill').levelled hlevel hlevel')
  | achieve => cases haccepted' with
    | spend hc => simp at hc
    | achieve => exact h

def weight (skill : SkillData) : ℕ := if skill.isUnlocked then skill.currentLevel.toNat + 1 else 0

theorem sum_view (s : SharedProgression) (q : UInt32) :
    ((s.view q).1.map fun skill => skill.currentLevel.toNat + 1).sum
      = OrdMap.sumOver (fun _ => weight) s.skills := by
  rw [view, getPlayerSkills, OrdMap.sumOver, List.map_map]
  refine Eq.trans ?_ (List.sum_map_ite (fun e : UInt32 × SkillData => e.2.isUnlocked)
    (fun e => e.2.currentLevel.toNat + 1) (fun _ => 0) s.skills.entries).symm
  simp [OrdMap.filter, Function.comp_def]

theorem Advanced.weight_le (h : Advanced a b) : weight a ≤ weight b := by
  have := UInt32.le_iff_toNat_le.mp h.2
  rw [weight, weight]
  by_cases ha : a.isUnlocked
  · rw [if_pos ha, if_pos (h.1 ha)]
    omega
  · rw [if_neg ha]
    exact Nat.zero_le _

theorem view_ne_of_weight_lt (h : OrdMap.Pointwise (fun _ => Advanced) s.skills t.skills)
    (ha : s.getSkill k = some a) (hb : t.getSkill k = some b) (hlt : weight a < weight b) :
    s.view q ≠ t.view q := by
  intro hview
  have hsum := (h.mono fun _ _ _ hab => hab.weight_le).sumOver_lt
    (f := fun _ => weight) (g := fun _ => weight) ha hb hlt
  rw [← sum_view s q, ← sum_view t q, hview] at hsum
  exact lt_irrefl _ hsum

theorem unseen_of_alike (hplayer : s.getPlayerProgression q ≠ none) (later : List Call)
    (h : Alike floatMul required q s
      (Run.run (callStep floatMul required p) (s.callStep floatMul required p c) later)) :
    s.Unseen floatMul required q p c := by
  rcases s.call_cases p c with ⟨hrefused, -⟩ | ⟨-, -, haccepted⟩
  · exact Or.inl hrefused
  generalize s.callStep floatMul required p c = u at h haccepted
  have hlater := advanced_run floatMul required p u later
  have hachieved := fun a (hc : c = .unlockAchievement a) => (hc ▸ haccepted).unlocks
  cases haccepted with
  | @unlock k skill hskill hlocked hcheck =>
    exfalso
    have hmove := OrdMap.Pointwise.insert_right (fun _ a _ => Advanced.refl a) hskill
      (show Advanced skill { skill with isUnlocked := true, isActive := true } from
        ⟨fun _ => rfl, le_rfl⟩)
    obtain ⟨b, hb, hab⟩ := hlater.exists_right (OrdMap.find?_insert_self _ _ _)
    refine view_ne_of_weight_lt (hmove.trans hlater fun _ _ _ _ => Advanced.trans) hskill hb ?_
      h.view_eq
    rw [weight, weight, hlocked, if_neg Bool.false_ne_true, if_pos (hab.1 rfl)]
    exact Nat.succ_pos _
  | @spend _ k player skill hc hplayer' hskill hlevel hcheck =>
    refine Or.inr ⟨k, hc, fun hreach => ?_⟩
    have hmove : OrdMap.Pointwise (Outgrown k) s.skills
        (s.skills.insert k { skill with currentLevel := skill.currentLevel + 1 }) :=
      OrdMap.Pointwise.insert_right (fun j a hj => ⟨.refl a, fun h => absurd h hj⟩) hskill
        ⟨⟨id, (lt_levelled hlevel).le⟩, fun _ => lt_levelled hlevel⟩
    obtain ⟨own, a, ha, hunlocked⟩ := hreach.exists_unlocked
    have houtgrown := h.invariant (J := fun s t => OrdMap.Pointwise (Outgrown k) s.skills t.skills)
      (fun _ _ _ => outgrown_callStep) (hmove.trans hlater fun _ _ _ _ => Outgrown.trans) own
    obtain ⟨b, hb, hab⟩ := houtgrown.exists_right ha
    refine view_ne_of_weight_lt (houtgrown.mono fun _ _ _ => And.left) ha hb ?_ (h own).2
    have := UInt32.lt_iff_toNat_lt.mp (hab.2 rfl)
    rw [weight, weight, if_pos hunlocked, if_pos (hab.1.1 hunlocked)]
    exact Nat.succ_lt_succ this
  | @achieve a player achievement _ hachievement hlocked stats =>
    exfalso
    obtain ⟨player', hplayer'⟩ := Option.ne_none_iff_exists'.mp hplayer
    have hbefore : s.callResult floatMul required q (.unlockAchievement a) = true :=
      (unlockAchievement_fst floatMul required hplayer' hachievement hlocked).1
    obtain ⟨mine, hmine, hunlocked⟩ := hachieved a rfl
    obtain ⟨last, hlast, hunlocked⟩ := unlocked_run floatMul required p hmine hunlocked later
    have hafter := (h.out_eq (.unlockAchievement a)).symm.trans hbefore
    rw [callResult_of_unlocked hlast hunlocked] at hafter
    exact Bool.false_ne_true hafter

end Seen

theorem alike_run_iff (floatMul : UInt32 → ℚ → UInt32) (required : UInt32 → UInt32)
    {p q : UInt32} (hpq : p ≠ q) {s : SharedProgression} (hplayer : s.getPlayerProgression q ≠ none)
    (calls : List Call) :
    Alike floatMul required q s (Run.run (callStep floatMul required p) s calls) ↔
      Run.Along (callStep floatMul required p) (fun s c => s.Unseen floatMul required q p c) s
        calls :=
  Interference.indistinct_run_iff (K := fun s => s.getPlayerProgression q ≠ none)
    (fun _ c h => registered_callStep c h) (fun _ _ h hunseen => alike_of_unseen hpq h hunseen)
    (fun _ _ later h halike => unseen_of_alike h later halike) hplayer calls

theorem alike_run_out_of_reach :
    let s : SharedProgression := {
      playerProgressions := .ofList [(1, { level := 60, skillPoints := 1 }), (2, {})]
      skills := .ofList [(7, { experienceRequired := 50 })] }
    s.callResult (fun n _ => n) calculateExperienceRequired 1 (.spendSkillPoint 7) = true ∧
      Alike (fun n _ => n) calculateExperienceRequired 2 s
        (Run.run (callStep (fun n _ => n) calculateExperienceRequired 1) s [.spendSkillPoint 7]) := by
  refine ⟨by decide +kernel, (alike_run_iff _ _ (by decide) (by decide) _).mpr
    ⟨Or.inr ⟨7, Or.inl rfl, ?_⟩, trivial⟩⟩
  rintro ⟨player, as, hplayer, has, hattainable⟩
  obtain rfl := Option.some.inj hplayer
  cases as with
  | cons a as =>
    obtain ⟨achievement, hachievement, -⟩ := has.2 a (List.mem_cons_self ..)
    exact Option.some_ne_none achievement hachievement.symm
  | nil =>
    cases hattainable with
    | unlocked hskill hunlocked =>
      obtain rfl := Option.some.inj hskill
      exact Bool.false_ne_true hunlocked
    | locked hskill hlevel =>
      obtain rfl := Option.some.inj hskill
      exact absurd hlevel (by decide)

theorem not_alike_unlocked :
    let s : SharedProgression := {
      playerProgressions := .ofList [(1, {}), (2, {})]
      skills := .ofList [(3, { experienceRequired := 1 })] }
    s.getPlayerProgression 1 ≠ none ∧ s.getPlayerProgression 2 ≠ none ∧
      ¬ Alike (fun n _ => n) calculateExperienceRequired 2 s
        (Run.run (callStep (fun n _ => n) calculateExperienceRequired 1) s [.unlockSkill 3]) :=
  ⟨by decide, by decide, fun h => absurd h.view_eq (by decide)⟩

end SharedProgression
end WitcherMP.Progression
