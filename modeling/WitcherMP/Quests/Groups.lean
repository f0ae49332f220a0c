import WitcherMP.Quests.Defs
import WitcherMP.Lib.Run

/-! Groups and the players' lists of their groups say the same thing. -/

namespace WitcherMP.Quests.CooperativeQuestSystem

def members (s : CooperativeQuestSystem) (groupId : UInt32) : List UInt32 :=
  (s.getGroup groupId).elim [] QuestGroup.members

def groupsOf (s : CooperativeQuestSystem) (playerId : UInt32) : List UInt32 :=
  s.playerGroups.getD playerId []

section Updates
variable (s : CooperativeQuestSystem) (g g' p p' : UInt32) (group : QuestGroup)

@[simp] theorem groupsOf_setGroup : (s.setGroup g group).groupsOf p = s.groupsOf p := rfl

theorem count_groupsOf_add : ((s.addToPlayerGroups p g).groupsOf p').count g'
    = (s.groupsOf p').count g' + if p = p' ∧ g = g' then 1 else 0 := by
  rw [groupsOf, addToPlayerGroups, OrdMap.getD_insert]
  by_cases hp : p = p'
  · subst hp
    rw [if_pos rfl, List.count_append, List.count_singleton, groupsOf]
    simp
  · rw [if_neg hp, if_neg fun h => hp h.1, groupsOf, add_zero]

theorem count_groupsOf_remove : ((s.removeFromPlayerGroups p g).groupsOf p').count g'
    = (s.groupsOf p').count g' - if p = p' ∧ g = g' then 1 else 0 := by
  rw [groupsOf, removeFromPlayerGroups, OrdMap.getD_insert]
  by_cases hp : p = p'
  · subst hp
    rw [if_pos rfl, List.count_erase, groupsOf]
    simp
  · rw [if_neg hp, if_neg fun h => hp h.1, groupsOf, Nat.sub_zero]

def removeFromAll (s : CooperativeQuestSystem) (g : UInt32) (ps : List UInt32) :
    CooperativeQuestSystem :=
  ps.foldl (fun s memberId => s.removeFromPlayerGroups memberId g) s

theorem removeFromAll_frame (ps : List UInt32) :
    (s.removeFromAll g ps).groups = s.groups ∧ (s.removeFromAll g ps).stats = s.stats ∧
      (s.removeFromAll g ps).nextGroupId = s.nextGroupId := by
  induction ps generalizing s with
  | nil => exact ⟨rfl, rfl, rfl⟩
  | cons p ps ih => exact ih (s.removeFromPlayerGroups p g)

theorem count_groupsOf_removeFromAll (ps : List UInt32) :
    ((s.removeFromAll g ps).groupsOf p').count g'
      = (s.groupsOf p').count g' - if g = g' then ps.count p' else 0 := by
  induction ps generalizing s with
  | nil => simp [removeFromAll]
  | cons p ps ih =>
    have hcons : s.removeFromAll g (p :: ps) = (s.removeFromPlayerGroups p g).removeFromAll g ps := rfl
    rw [hcons, ih, count_groupsOf_remove, List.count_cons]
    by_cases hg : g = g' <;> by_cases hp : p = p' <;> simp [hg, hp]
    omega

end Updates

structure Coherent (n : ℕ) (s : CooperativeQuestSystem) : Prop where
  mirrored : ∀ g p, (s.groupsOf p).count g = (s.members g).count p
  led : ∀ g group, s.getGroup g = some group → group.members.Nodup ∧ group.leader ∈ group.members
  counted : s.stats.activeGroups = .ofNat s.groups.size
  few : s.groups.size ≤ n
  next : s.nextGroupId = .ofNat (n + 1)
  older : ∀ g group, s.getGroup g = some group → g.toNat ≤ n

theorem coherent_initial (initialized : Bool) (maxGroupSize : UInt32) :
    Coherent 0 { initialized := initialized, maxGroupSize := maxGroupSize } where
  mirrored _ _ := rfl
  led _ _ h := nomatch h
  counted := rfl
  few := le_rfl
  next := rfl
  older _ _ h := nomatch h

variable {n : ℕ} {s : CooperativeQuestSystem}

theorem Coherent.fresh (h : Coherent n s) (hn : n + 1 < 2 ^ 32) : s.getGroup s.nextGroupId = none := by
  rw [Option.eq_none_iff_forall_ne_some]
  intro group hgroup
  have hle := h.older _ _ hgroup
  rw [h.next, UInt32.toNat_ofNat', Nat.mod_eq_of_lt hn] at hle
  omega

theorem Coherent.createGroup (h : Coherent n s) (hn : n + 1 < 2 ^ 32) (p : UInt32) :
    Coherent (n + 1) (s.createGroup p).1 := by
  have hfresh := h.fresh hn
  have hnil : s.members s.nextGroupId = [] := by rw [members, hfresh, Option.elim_none]
  have hget (g : UInt32) : (s.createGroup p).1.getGroup g = if s.nextGroupId = g
      then some { groupId := s.nextGroupId, members := [p], leader := p } else s.getGroup g :=
    OrdMap.find?_insert ..
  have hmem (g : UInt32) : (s.createGroup p).1.members g
      = if s.nextGroupId = g then [p] else s.members g := by
    rw [members, hget]
    split_ifs <;> rfl
  have hcount (g p' : UInt32) : ((s.createGroup p).1.groupsOf p').count g
      = (s.groupsOf p').count g + if p = p' ∧ s.nextGroupId = g then 1 else 0 :=
    count_groupsOf_add ..
  refine ⟨fun g p' => ?_, fun g group hg => ?_, ?_, ?_, ?_, fun g group hg => ?_⟩
  · rw [hcount, h.mirrored, hmem]
    by_cases hg : s.nextGroupId = g
    · subst hg
      simp [hnil, List.count_singleton]
    · simp [hg]
  · rw [hget] at hg
    split_ifs at hg with hnew
    · obtain rfl := Option.some.inj hg
      exact ⟨List.nodup_singleton p, List.mem_singleton_self p⟩
    · exact h.led g group hg
  · change s.stats.activeGroups + 1 = .ofNat (s.groups.insert s.nextGroupId _).size
    rw [OrdMap.size_insert_new hfresh, UInt32.ofNat_add, h.counted]
    rfl
  · change (s.groups.insert s.nextGroupId _).size ≤ n + 1
    rw [OrdMap.size_insert_new hfresh]
    exact Nat.succ_le_succ h.few
  · change s.nextGroupId + 1 = .ofNat (n + 1 + 1)
    rw [h.next, UInt32.ofNat_add (n + 1)]
    rfl
  · rw [hget] at hg
    split_ifs at hg with hnew
    · rw [← hnew, h.next, UInt32.toNat_ofNat', Nat.mod_eq_of_lt hn]
    · exact (h.older g group hg).trans (Nat.le_succ n)

theorem Coherent.replace (h : Coherent n s) {s' : CooperativeQuestSystem} {g : UInt32}
    {group : QuestGroup} (hg : s.getGroup g = some group) (group' : QuestGroup)
    (hgroups : s'.groups = s.groups.insert g group')
    (hactive : s'.stats.activeGroups = s.stats.activeGroups)
    (hnext : s'.nextGroupId = s.nextGroupId)
    (hself : ∀ p, (s'.groupsOf p).count g = group'.members.count p)
    (hother : ∀ g' p, g ≠ g' → (s'.groupsOf p).count g' = (s.groupsOf p).count g')
    (hnodup : group'.members.Nodup) (hleader : group'.leader ∈ group'.members) : Coherent n s' := by
  have hget (g' : UInt32) : s'.getGroup g' = if g = g' then some group' else s.getGroup g' := by
    rw [getGroup, hgroups]
    exact OrdMap.find?_insert ..
  refine ⟨fun g' p => ?_, fun g' grp hgrp => ?_, ?_, ?_, ?_, fun g' grp hgrp => ?_⟩
  · rw [members, hget]
    split_ifs with heq
    · subst heq
      exact hself p
    · rw [hother g' p heq, h.mirrored, members]
  · rw [hget] at hgrp
    split_ifs at hgrp with heq
    · obtain rfl := Option.some.inj hgrp
      exact ⟨hnodup, hleader⟩
    · exact h.led g' grp hgrp
  · rw [hactive, h.counted, hgroups, OrdMap.size_insert_old hg]
  · rw [hgroups, OrdMap.size_insert_old hg]
    exact h.few
  · rw [hnext, h.next]
  · rw [hget] at hgrp
    split_ifs at hgrp with heq
    · exact heq ▸ h.older g group hg
    · exact h.older g' grp hgrp

theorem Coherent.joinGroup (h : Coherent n s) (g p : UInt32) : Coherent n (s.joinGroup g p).1 := by
  unfold CooperativeQuestSystem.joinGroup
  cases hg : s.getGroup g with
  | none => exact h
  | some group =>
    dsimp only
    split_ifs with hjoin
    · have hmem : s.members g = group.members := by rw [members, hg, Option.elim_some]
      have hnew : p ∉ group.members := by
        intro hp
        simp [canPlayerJoinGroup, isPlayerInGroup, hg, hp] at hjoin
      obtain ⟨hnodup, hleader⟩ := h.led g group hg
      refine h.replace hg { group with members := group.members ++ [p] } rfl rfl rfl
        (fun p' => ?_) (fun g' p' hne => ?_) ?_ (List.mem_append_left _ hleader)
      · have := count_groupsOf_add
          (s.setGroup g { group with members := group.members ++ [p] }) g g p p'
        change ((CooperativeQuestSystem.addToPlayerGroups _ p g).groupsOf p').count g = _
        rw [this, groupsOf_setGroup, h.mirrored, hmem, List.count_append, List.count_singleton]
        simp
      · have := count_groupsOf_add
          (s.setGroup g { group with members := group.members ++ [p] }) g g' p p'
        change ((CooperativeQuestSystem.addToPlayerGroups _ p g).groupsOf p').count g' = _
        rw [this, groupsOf_setGroup, if_neg fun h => hne h.2, add_zero]
      · exact List.nodup_append.mpr ⟨hnodup, List.nodup_singleton p, fun a ha b hb => by
          rintro rfl
          exact hnew (List.mem_singleton.mp hb ▸ ha)⟩
    · exact h

theorem Coherent.dissolve (h : Coherent n s) {s' : CooperativeQuestSystem} {g : UInt32}
    {group : QuestGroup} (hg : s.getGroup g = some group) (hgroups : s'.groups = s.groups.erase g)
    (hactive : s'.stats.activeGroups = s.stats.activeGroups - 1)
    (hnext : s'.nextGroupId = s.nextGroupId) (hself : ∀ p, (s'.groupsOf p).count g = 0)
    (hother : ∀ g' p, g ≠ g' → (s'.groupsOf p).count g' = (s.groupsOf p).count g') :
    Coherent n s' := by
  have hget (g' : UInt32) : s'.getGroup g' = if g = g' then none else s.getGroup g' := by
    rw [getGroup, hgroups]
    exact OrdMap.find?_erase ..
  have hsize := OrdMap.size_erase hg
  refine ⟨fun g' p => ?_, fun g' grp hgrp => ?_, ?_, ?_, ?_, fun g' grp hgrp => ?_⟩
  · rw [members, hget]
    split_ifs with heq
    · subst heq
      exact hself p
    · rw [hother g' p heq, h.mirrored, members]
  · rw [hget] at hgrp
    split_ifs at hgrp
    exact h.led g' grp hgrp
  · rw [hactive, h.counted, hgroups, ← hsize, UInt32.ofNat_add]
    exact UInt32.add_sub_cancel _ 1
  · have := h.few
    rw [hgroups]
    omega
  · rw [hnext, h.next]
  · rw [hget] at hgrp
    split_ifs at hgrp
    exact h.older g' grp hgrp

theorem Coherent.disbandGroup (h : Coherent n s) (g : UInt32) : Coherent n (s.disbandGroup g).1 := by
  unfold CooperativeQuestSystem.disbandGroup
  cases hg : s.getGroup g with
  | none => exact h
  | some group =>
    have hmem : s.members g = group.members := by rw [members, hg, Option.elim_some]
    obtain ⟨hgroups, hstats, hnext⟩ := removeFromAll_frame s g group.members
    refine h.dissolve hg ?_ ?_ hnext (fun p => ?_) (fun g' p hne => ?_)
    · exact congrArg (OrdMap.erase · g) hgroups
    · exact congrArg (fun stats => stats.activeGroups - 1) hstats
    · refine (count_groupsOf_removeFromAll s g g p group.members).trans ?_
      rw [if_pos rfl, h.mirrored, hmem, Nat.sub_self]
    · refine (count_groupsOf_removeFromAll s g g' p group.members).trans ?_
      rw [if_neg hne, Nat.sub_zero]

theorem Coherent.leaveGroup (h : Coherent n s) (g p : UInt32) : Coherent n (s.leaveGroup g p).1 := by
  unfold CooperativeQuestSystem.leaveGroup
  cases hg : s.getGroup g with
  | none => exact h
  | some group =>
    have hmem : s.members g = group.members := by rw [members, hg, Option.elim_some]
    obtain ⟨hnodup, hleader⟩ := h.led g group hg
    dsimp only
    generalize hleft : (s.setGroup g
      { group with members := group.members.erase p }).removeFromPlayerGroups p g = s₂
    have hgroups : s₂.groups = s.groups.insert g { group with members := group.members.erase p } := by
      rw [← hleft]
      rfl
    have hstats : s₂.stats = s.stats := by
      rw [← hleft]
      rfl
    have hnext : s₂.nextGroupId = s.nextGroupId := by
      rw [← hleft]
      rfl
    have hself (p' : UInt32) : (s₂.groupsOf p').count g = (group.members.erase p).count p' := by
      rw [← hleft, count_groupsOf_remove, groupsOf_setGroup, h.mirrored, hmem, List.count_erase]
      simp
    have hother (g' p' : UInt32) (hne : g ≠ g') :
        (s₂.groupsOf p').count g' = (s.groupsOf p').count g' := by
      rw [← hleft, count_groupsOf_remove, groupsOf_setGroup, if_neg fun h => hne h.2, Nat.sub_zero]
    split_ifs with hlead
    · cases hrest : group.members.erase p with
      | nil =>
        have hget : s₂.getGroup g = some { group with members := [] } := by
          rw [getGroup, hgroups, hrest, OrdMap.find?_insert_self]
        have hdisband : (s₂.disbandGroup g).1 = { s₂ with
            groups := s₂.groups.erase g
            stats := { s₂.stats with activeGroups := s₂.stats.activeGroups - 1 } } := by
          simp [CooperativeQuestSystem.disbandGroup, hget]
        dsimp only
        rw [hdisband]
        refine h.dissolve hg ?_ ?_ hnext (fun p' => ?_) hother
        · rw [← OrdMap.erase_insert s.groups g, ← hgroups]
        · exact congrArg (fun stats => stats.activeGroups - 1) hstats
        · refine (hself p').trans ?_
          rw [hrest, List.count_nil]
      | cons next rest =>
        have hin : next ∈ group.members.erase p := hrest ▸ List.mem_cons_self ..
        dsimp only
        refine h.replace hg { group with members := next :: rest, leader := next } ?_
          (congrArg QuestStats.activeGroups hstats) hnext (fun p' => ?_) hother ?_
          (List.mem_cons_self ..)
        · change s₂.groups.insert g _ = _
          rw [hgroups, OrdMap.insert_insert]
        · rw [groupsOf_setGroup, hself, hrest]
        · exact hrest ▸ hnodup.erase p
    · exact h.replace hg { group with members := group.members.erase p } hgroups
        (congrArg QuestStats.activeGroups hstats) hnext hself hother (hnodup.erase p)
        ((List.mem_erase_of_ne hlead).mpr hleader)

def isCreation : GroupOp → Bool
  | .createGroup _ => true
  | _ => false

theorem Coherent.step (h : Coherent n s) (op : GroupOp)
    (hn : isCreation op → n + 1 < 2 ^ 32) :
    Coherent (n + [op].countP isCreation) (s.groupStep op) := by
  cases op with
  | createGroup p => exact h.createGroup (hn rfl) p
  | joinGroup g p => exact h.joinGroup g p
  | leaveGroup g p => exact h.leaveGroup g p
  | disbandGroup g => exact h.disbandGroup g

theorem Coherent.run (h : Coherent n s) {ops : List GroupOp}
    (hn : n + ops.countP isCreation < 2 ^ 32) :
    Coherent (n + ops.countP isCreation) (Run.run groupStep s ops) := by
  induction ops generalizing n s with
  | nil => exact h
  | cons op ops ih =>
    have hcons : (op :: ops).countP isCreation = [op].countP isCreation + ops.countP isCreation := by
      rw [← List.countP_append, List.singleton_append]
    rw [hcons, ← Nat.add_assoc] at hn ⊢
    refine ih (h.step op fun hc => ?_) hn
    rw [List.countP_singleton, if_pos hc] at hn
    omega

/-- The groups list their members, the players list their groups, and both agree. -/
theorem groups_consistent (initialized : Bool) (maxGroupSize : UInt32) {ops : List GroupOp}
    (hops : ops.countP isCreation < 2 ^ 32) :
    let s := Run.run groupStep { initialized := initialized, maxGroupSize := maxGroupSize } ops
    (∀ g p, (s.groupsOf p).count g = if p ∈ s.members g then 1 else 0) ∧
      (∀ g group, s.getGroup g = some group →
        group.members.Nodup ∧ group.members ≠ [] ∧ group.leader ∈ group.members) ∧
      s.stats.activeGroups.toNat = s.groups.size := by
  intro s
  have hcoh : Coherent (ops.countP isCreation) s := by
    have := (coherent_initial initialized maxGroupSize).run (by rwa [Nat.zero_add])
    rwa [Nat.zero_add] at this
  refine ⟨fun g p => ?_, fun g group hg => ?_, ?_⟩
  · rw [hcoh.mirrored]
    cases hg : s.getGroup g with
    | none => simp [members, hg]
    | some group =>
      rw [members, hg, Option.elim_some]
      exact List.Nodup.count (hcoh.led g group hg).1
  · obtain ⟨hnodup, hleader⟩ := hcoh.led g group hg
    exact ⟨hnodup, List.ne_nil_of_mem hleader, hleader⟩
  · rw [hcoh.counted, UInt32.toNat_ofNat', Nat.mod_eq_of_lt (hcoh.few.trans_lt hops)]

theorem groups_consistent_passing :
    let s := Run.run groupStep {} [.createGroup 7, .joinGroup 1 8, .leaveGroup 1 7, .createGroup 8]
    s.groupsOf 8 = [1, 2] ∧ ∀ g p, (s.groupsOf p).count g = if p ∈ s.members g then 1 else 0 :=
  ⟨by decide +kernel, (groups_consistent false 4 (by decide)).1⟩

end WitcherMP.Quests.CooperativeQuestSystem
