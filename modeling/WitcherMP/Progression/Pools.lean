import WitcherMP.Progression.Calls
import WitcherMP.Progression.Levels
import Mathlib.Algebra.BigOperators.Group.Finset.Basic
import Mathlib.Algebra.BigOperators.Ring.Finset
import Mathlib.Algebra.Order.BigOperators.Group.Finset

/-! The pool of a group, handed out in equal shares: what is left of the division goes nowhere,
and a share is put down for members who are not there to be credited. -/

namespace WitcherMP.Progression.SharedProgression
variable {floatMul : UInt32 → ℚ → UInt32} {required : UInt32 → UInt32}

abbrev Registered (s : SharedProgression) (p : UInt32) : Prop :=
  (s.getPlayerProgression p).isSome = true

def credited (s s' : SharedProgression) (p : UInt32) : UInt32 :=
  s'.getPlayerExperience p - s.getPlayerExperience p

def recorded (group group' : GroupProgressionData) (p : UInt32) : UInt32 :=
  group'.memberContributions.getD p 0 - group.memberContributions.getD p 0

/-- The pool is what registered members are credited with and what stays in it, and what is put
down for a member is what the member is credited with. -/
structure Conserves (s s' : SharedProgression) (group group' : GroupProgressionData) : Prop where
  total : ∑ p ∈ group.members.toFinset with Registered s p, (credited s s' p).toNat +
    group'.sharedExperience.toNat = group.sharedExperience.toNat
  each : ∀ p ∈ group.members, recorded group group' p = credited s s' p

section Loop
variable (floatMul required) (s : SharedProgression) (share : UInt32)

def credit (s : SharedProgression) (p : UInt32) : SharedProgression :=
  (s.addExperience floatMul required p share true).1

theorem getPlayerProgression_credit (p q : UInt32) :
    (s.credit floatMul required share p).getPlayerProgression q =
      if p = q then (s.getPlayerProgression q).map fun player =>
        s.levelUps required (s.maxLevel.toNat - player.level.toNat) { player with
          experience := player.experience + s.adjustedAmount floatMul share true }
      else s.getPlayerProgression q := by
  cases hplayer : s.getPlayerProgression p with
  | none =>
    rw [credit, addExperience, hplayer]
    dsimp only
    split
    · next hpq => rw [← hpq, hplayer, Option.map_none]
    · rfl
  | some player =>
    rw [credit, addExperience, hplayer]
    refine (OrdMap.find?_insert ..).trans ?_
    split
    · next hpq => rw [← hpq, hplayer, Option.map_some]
    · rfl

theorem adjustedAmount_credit (p n : UInt32) :
    (s.credit floatMul required share p).adjustedAmount floatMul n true =
      s.adjustedAmount floatMul n true := by
  unfold credit addExperience
  cases s.getPlayerProgression p with
  | none => rfl
  | some player => rfl

variable {s} in
theorem registered_credit {p q : UInt32} :
    Registered (s.credit floatMul required share p) q ↔ Registered s q := by
  unfold Registered
  rw [getPlayerProgression_credit]
  split
  · rw [Option.isSome_map]
  · rfl

theorem getPlayerExperience_credit {p q : UInt32} (hq : Registered s q) :
    (s.credit floatMul required share p).getPlayerExperience q = s.getPlayerExperience q +
      if p = q then s.adjustedAmount floatMul share true else 0 := by
  obtain ⟨player, hplayer⟩ := Option.isSome_iff_exists.mp hq
  unfold getPlayerExperience
  rw [getPlayerProgression_credit, hplayer]
  by_cases hpq : p = q
  · rw [if_pos hpq, if_pos hpq, Option.map_some]
    exact experience_levelUps ..
  · rw [if_neg hpq, if_neg hpq]
    exact (UInt32.add_zero _).symm

theorem getPlayerExperience_foldl_credit {q : UInt32} (hq : Registered s q)
    (members : List UInt32) :
    (members.foldl (credit floatMul required share) s).getPlayerExperience q =
      s.getPlayerExperience q +
        .ofNat (members.count q) * s.adjustedAmount floatMul share true := by
  induction members generalizing s with
  | nil => simp
  | cons p members ih =>
    have hq' := (registered_credit floatMul required share (p := p)).mpr hq
    rw [List.foldl_cons, ih _ hq', getPlayerExperience_credit floatMul required s share hq,
      adjustedAmount_credit, List.count_cons, UInt32.ofNat_add, UInt32.add_mul, UInt32.add_assoc]
    congr 1
    by_cases hpq : p = q
    · simp [hpq, UInt32.add_comm]
    · simp [hpq]

theorem getPlayerExperience_foldl_of_unregistered {q : UInt32} (hq : ¬ Registered s q)
    (members : List UInt32) :
    (members.foldl (credit floatMul required share) s).getPlayerExperience q = 0 := by
  induction members generalizing s with
  | nil =>
    rw [List.foldl_nil, getPlayerExperience, Option.not_isSome_iff_eq_none.mp hq]
  | cons p members ih => exact ih _ (mt (registered_credit floatMul required share).mp hq)

theorem getD_foldl_insert (contributions : OrdMap UInt32 UInt32) (q : UInt32)
    (members : List UInt32) :
    (members.foldl (fun contributions p =>
      contributions.insert p (contributions.getD p 0 + share)) contributions).getD q 0 =
      contributions.getD q 0 + .ofNat (members.count q) * share := by
  induction members generalizing contributions with
  | nil => simp
  | cons p members ih =>
    rw [List.foldl_cons, ih, OrdMap.getD_insert, List.count_cons, UInt32.ofNat_add, UInt32.add_mul]
    by_cases hpq : p = q
    · rw [if_pos hpq, hpq, if_pos (beq_self_eq_true q), UInt32.add_assoc, UInt32.add_comm share]
      simp
    · simp [hpq]

end Loop

section Handing
variable {s : SharedProgression} {group : GroupProgressionData} {g : UInt32}

def experiencePerMember (group : GroupProgressionData) : UInt32 :=
  .ofNat (group.sharedExperience.toNat / group.members.length)

def handedOut (group : GroupProgressionData) : GroupProgressionData :=
  { group with
    memberContributions := group.members.foldl (fun contributions p =>
      contributions.insert p (contributions.getD p 0 + experiencePerMember group))
      group.memberContributions
    sharedExperience := 0 }

theorem distributeGroupExperience_fst (hgroup : s.groupProgressions.find? g = some group)
    (hmembers : group.members ≠ []) :
    let s' := group.members.foldl (credit floatMul required (experiencePerMember group)) s
    (s.distributeGroupExperience floatMul required g).1 =
      { s' with groupProgressions := s'.groupProgressions.insert g (handedOut group) } := by
  have hsome : ¬ group.members.isEmpty = true := by
    rw [List.isEmpty_iff]
    exact hmembers
  rw [distributeGroupExperience, hgroup]
  dsimp only
  rw [if_neg hsome]
  rfl

theorem toNat_shares (group : GroupProgressionData) (p : UInt32) :
    (.ofNat (group.members.count p) * experiencePerMember group : UInt32).toNat =
      group.members.count p * (group.sharedExperience.toNat / group.members.length) := by
  have hle : group.members.count p * (group.sharedExperience.toNat / group.members.length) ≤
      group.sharedExperience.toNat :=
    calc group.members.count p * (group.sharedExperience.toNat / group.members.length)
      _ ≤ group.members.length * (group.sharedExperience.toNat / group.members.length) :=
        Nat.mul_le_mul_right _ List.count_le_length
      _ ≤ group.sharedExperience.toNat := Nat.mul_div_le ..
  rw [experiencePerMember, ← UInt32.ofNat_mul]
  exact UInt32.toNat_ofNat_of_lt' (lt_of_le_of_lt hle group.sharedExperience.toNat_lt)

theorem recorded_handedOut (group : GroupProgressionData) (p : UInt32) :
    recorded group (handedOut group) p =
      .ofNat (group.members.count p) * experiencePerMember group := by
  have hfold := getD_foldl_insert (experiencePerMember group) group.memberContributions p
    group.members
  rw [recorded, handedOut, hfold, UInt32.add_comm, UInt32.add_sub_cancel]

theorem credited_distribute (hgroup : s.groupProgressions.find? g = some group)
    (hmembers : group.members ≠ []) (p : UInt32) :
    credited s (s.distributeGroupExperience floatMul required g).1 p =
      if Registered s p then .ofNat (group.members.count p) *
        s.adjustedAmount floatMul (experiencePerMember group) true else 0 := by
  have hexperience : (s.distributeGroupExperience floatMul required g).1.getPlayerExperience p =
      (group.members.foldl (credit floatMul required (experiencePerMember group)) s).getPlayerExperience
        p := by
    rw [distributeGroupExperience_fst hgroup hmembers]
    rfl
  rw [credited, hexperience]
  split
  · next hp =>
    rw [getPlayerExperience_foldl_credit floatMul required s _ hp, UInt32.add_comm,
      UInt32.add_sub_cancel]
  · next hp =>
    rw [getPlayerExperience_foldl_of_unregistered floatMul required s _ hp, getPlayerExperience,
      Option.not_isSome_iff_eq_none.mp hp]
    rfl

/-- The rates leave what registered members are owed as it is. -/
def KeepsShares (floatMul : UInt32 → ℚ → UInt32) (s : SharedProgression)
    (group : GroupProgressionData) : Prop :=
  ∀ p ∈ group.members, Registered s p →
    .ofNat (group.members.count p) * s.adjustedAmount floatMul (experiencePerMember group) true =
      .ofNat (group.members.count p) * experiencePerMember group

theorem keepsShares_of_unit_rates (hmultiplier : s.experienceMultiplier = 1)
    (hbonus : s.groupExperienceBonus = 0)
    (hexact : floatMul (experiencePerMember group) 1 = experiencePerMember group) :
    KeepsShares floatMul s group := by
  have hadjusted : s.adjustedAmount floatMul (experiencePerMember group) true =
      experiencePerMember group := by
    unfold adjustedAmount
    rw [hmultiplier, hbonus, add_zero, hexact]
    dsimp only
    rw [hexact, ite_self]
  intro p _ _
  rw [hadjusted]

theorem sum_credited (hgroup : s.groupProgressions.find? g = some group)
    (hmembers : group.members ≠ []) (hkeeps : KeepsShares floatMul s group) :
    ∑ p ∈ group.members.toFinset with Registered s p,
        (credited s (s.distributeGroupExperience floatMul required g).1 p).toNat =
      ∑ p ∈ group.members.toFinset with Registered s p, group.members.count p *
        (group.sharedExperience.toNat / group.members.length) := by
  refine Finset.sum_congr rfl fun p hp => ?_
  obtain ⟨hp, hregistered⟩ := Finset.mem_filter.mp hp
  rw [credited_distribute hgroup hmembers, if_pos hregistered,
    hkeeps p (List.mem_toFinset.mp hp) hregistered, toNat_shares]

theorem sum_shares (hall : ∀ p ∈ group.members, Registered s p) :
    ∑ p ∈ group.members.toFinset with Registered s p, group.members.count p *
        (group.sharedExperience.toNat / group.members.length) =
      group.members.length * (group.sharedExperience.toNat / group.members.length) := by
  have hfilter : group.members.toFinset.filter (Registered s) = group.members.toFinset :=
    Finset.filter_true_of_mem fun p hp => hall p (List.mem_toFinset.mp hp)
  rw [hfilter, ← Finset.sum_mul, List.sum_toFinset_count_eq_length]

theorem Conserves.divides (hgroup : s.groupProgressions.find? g = some group)
    (hmembers : group.members ≠ []) (h : Conserves s
      (s.distributeGroupExperience floatMul required g).1 group (handedOut group)) :
    group.members.length ∣ group.sharedExperience.toNat ∧
      (group.sharedExperience = 0 ∨ ∀ p ∈ group.members, Registered s p) ∧
      KeepsShares floatMul s group := by
  have hkeeps : KeepsShares floatMul s group := by
    intro p hp hregistered
    rw [← recorded_handedOut, h.each p hp, credited_distribute hgroup hmembers,
      if_pos hregistered]
  have hpool : (handedOut group).sharedExperience.toNat = 0 := rfl
  have hsum := h.total
  rw [sum_credited hgroup hmembers hkeeps, hpool, Nat.add_zero] at hsum
  by_cases hall : ∀ p ∈ group.members, Registered s p
  · rw [sum_shares hall] at hsum
    exact ⟨⟨_, hsum.symm⟩, Or.inr hall, hkeeps⟩
  · obtain ⟨p, hnot⟩ := not_forall.mp hall
    obtain ⟨hp, hregistered⟩ := Classical.not_imp.mp hnot
    have hnothing := congrArg UInt32.toNat (h.each p hp)
    rw [recorded_handedOut, toNat_shares, credited_distribute hgroup hmembers,
      if_neg hregistered] at hnothing
    have hshare : group.sharedExperience.toNat / group.members.length = 0 :=
      (Nat.mul_eq_zero.mp hnothing).resolve_left (List.count_pos_iff.mpr hp).ne'
    have hempty : group.sharedExperience.toNat = 0 := by
      rw [← hsum]
      exact Finset.sum_eq_zero fun q _ => by rw [hshare, Nat.mul_zero]
    exact ⟨hempty ▸ Nat.dvd_zero _, Or.inl (UInt32.toNat.inj hempty), hkeeps⟩

theorem conserves_of_divides (hgroup : s.groupProgressions.find? g = some group)
    (hmembers : group.members ≠ [])
    (hdvd : group.members.length ∣ group.sharedExperience.toNat)
    (hthere : group.sharedExperience = 0 ∨ ∀ p ∈ group.members, Registered s p)
    (hkeeps : KeepsShares floatMul s group) :
    Conserves s (s.distributeGroupExperience floatMul required g).1 group (handedOut group) where
  total := by
    have hpool : (handedOut group).sharedExperience.toNat = 0 := rfl
    rw [sum_credited hgroup hmembers hkeeps, hpool, Nat.add_zero]
    rcases hthere with hempty | hall
    · have hshare : group.sharedExperience.toNat = 0 := congrArg UInt32.toNat hempty
      rw [hshare, Nat.zero_div]
      exact Finset.sum_eq_zero fun q _ => Nat.mul_zero _
    · rw [sum_shares hall, Nat.mul_div_cancel' hdvd]
  each p hp := by
    rw [recorded_handedOut, credited_distribute hgroup hmembers]
    split
    · next hregistered => exact (hkeeps p hp hregistered).symm
    · next hregistered =>
      have hempty := hthere.resolve_right fun hall => hregistered (hall p hp)
      rw [experiencePerMember, hempty]
      simp

/-- A pool is conserved just when the group has no members, or when it can be divided among them,
each of them is there or the pool is empty, and the rates leave the shares as they are. -/
theorem distribute_conserves_iff (hgroup : s.groupProgressions.find? g = some group) :
    let s' := (s.distributeGroupExperience floatMul required g).1
    (∃ group', s'.groupProgressions.find? g = some group' ∧ Conserves s s' group group') ↔
      group.members = [] ∨ (group.members.length ∣ group.sharedExperience.toNat ∧
        (group.sharedExperience = 0 ∨ ∀ p ∈ group.members, Registered s p) ∧
        KeepsShares floatMul s group) := by
  intro s'
  by_cases hmembers : group.members = []
  · have hsame : s' = s := by
      show (s.distributeGroupExperience floatMul required g).1 = s
      rw [distributeGroupExperience, hgroup]
      dsimp only
      rw [if_pos (List.isEmpty_iff.mpr hmembers)]
    refine iff_of_true ⟨group, hsame ▸ hgroup, ?_, ?_⟩ (Or.inl hmembers)
    · simp [hmembers]
    · simp [hmembers]
  · have hfound : s'.groupProgressions.find? g = some (handedOut group) := by
      show (s.distributeGroupExperience floatMul required g).1.groupProgressions.find? g = _
      rw [distributeGroupExperience_fst hgroup hmembers]
      exact OrdMap.find?_insert_self ..
    rw [or_iff_right hmembers]
    constructor
    · rintro ⟨group', hgroup', hconserves⟩
      obtain rfl := Option.some.inj (hfound.symm.trans hgroup')
      exact hconserves.divides hgroup hmembers
    · rintro ⟨hdvd, hthere, hkeeps⟩
      exact ⟨handedOut group, hfound, conserves_of_divides hgroup hmembers hdvd hthere hkeeps⟩

end Handing

theorem distribute_conserves_iff_six :
    let group : GroupProgressionData := { groupId := 1, members := [1, 2], sharedExperience := 6 }
    let s : SharedProgression :=
      { playerProgressions := .ofList [(1, {}), (2, {})]
        groupProgressions := .ofList [(1, group)]
        groupExperienceBonus := 0 }
    let s' := (s.distributeGroupExperience (fun n _ => n) calculateExperienceRequired 1).1
    (∃ group', s'.groupProgressions.find? 1 = some group' ∧ Conserves s s' group group') ↔
      group.members = [] ∨ (group.members.length ∣ group.sharedExperience.toNat ∧
        (group.sharedExperience = 0 ∨ ∀ p ∈ group.members, Registered s p) ∧
        KeepsShares (fun n _ => n) s group) :=
  distribute_conserves_iff rfl

theorem not_distribute_conserves :
    ¬ ∀ (s : SharedProgression) (g : UInt32) (group : GroupProgressionData),
      s.experienceMultiplier = 1 → s.groupExperienceBonus = 0 →
      s.groupProgressions.find? g = some group → (∀ p ∈ group.members, Registered s p) →
      let s' := (s.distributeGroupExperience (fun n _ => n) calculateExperienceRequired g).1
      ∃ group', s'.groupProgressions.find? g = some group' ∧ Conserves s s' group group' := by
  intro hconserves
  let group : GroupProgressionData := { groupId := 1, members := [1, 2], sharedExperience := 7 }
  let s : SharedProgression :=
    { playerProgressions := .ofList [(1, {}), (2, {})]
      groupProgressions := .ofList [(1, group)]
      groupExperienceBonus := 0 }
  have hall : ∀ p ∈ group.members, Registered s p :=
    List.forall_mem_cons.mpr ⟨rfl, List.forall_mem_singleton.mpr rfl⟩
  obtain ⟨group', hgroup', htotal, -⟩ := hconserves s 1 group rfl rfl rfl hall
  have hpool : group'.sharedExperience = 0 := by
    rw [← Option.some.inj hgroup']
  rw [hpool] at htotal
  exact absurd htotal (by decide +kernel)

end WitcherMP.Progression.SharedProgression
