import WitcherMP.Monsters.Lives

/-! The groups of monsters: who is in them, who leads, and whether the members are on the
table. A group keeps the leader it had when its last member goes, and a monster that is taken
off the table by name stays in its groups. -/

namespace WitcherMP.Monsters

def MonsterGroup.Led (group : MonsterGroup) : Prop :=
  if group.members = [] then group.leader = 0 else group.leader ∈ group.members

def MonsterGroup.Outlasts (group : MonsterGroup) (ids : List UInt32) : Prop :=
  group.members = [] ∨ group.members = [0] ∨ ∃ m ∈ group.members, m ∉ ids

namespace MonsterGroup
variable {group : MonsterGroup} {m : UInt32} {ids : List UInt32}

theorem led_of_nil (h : group.members = []) : group.Led ↔ group.leader = 0 := by
  rw [Led, if_pos h]

theorem led_of_ne_nil (h : group.members ≠ []) : group.Led ↔ group.leader ∈ group.members := by
  rw [Led, if_neg h]

theorem led_without_iff (h : group.Led) : (group.without m).Led ↔ (group.members = [m] → m = 0) := by
  have hmembers : (group.without m).members = group.members.erase m := rfl
  have hleader : (group.without m).leader = if group.leader = m then
      (group.members.erase m).headD group.leader else group.leader := rfl
  by_cases hrest : group.members.erase m = []
  · rw [led_of_nil (hmembers.trans hrest), hleader, hrest, List.headD_nil, ite_self]
    rcases List.erase_eq_nil_iff.mp hrest with hnil | hone
    · rw [hnil]
      exact iff_of_true ((led_of_nil hnil).mp h) nofun
    · have hled : group.leader = m := by
        have := (led_of_ne_nil (by rw [hone]; exact List.cons_ne_nil m [])).mp h
        rwa [hone, List.mem_singleton] at this
      rw [hled, forall_prop_of_true hone]
  · have hone : group.members ≠ [m] := fun hone => hrest (by rw [hone, List.erase_cons_head])
    have hne : group.members ≠ [] := fun hnil => hrest (by rw [hnil, List.erase_nil])
    refine iff_of_true ?_ fun h => absurd h hone
    rw [led_of_ne_nil (hmembers ▸ hrest), hleader, hmembers]
    split_ifs with hlead
    · obtain ⟨x, rest, heq⟩ := List.exists_cons_of_ne_nil hrest
      rw [heq]
      exact List.mem_cons_self ..
    · exact (List.mem_erase_of_ne hlead).mpr ((led_of_ne_nil hne).mp h)

theorem foldl_without_of_nil (h : group.members = []) : ids.foldl without group = group := by
  have hsame : ∀ m, group.without m = group := by
    intro m
    obtain ⟨groupId, name, members, leader, pattern, center, radius, isActive⟩ := group
    obtain rfl : members = [] := h
    simp [without]
  induction ids with
  | nil => rfl
  | cons m ids ih => rw [List.foldl_cons, hsame, ih]

theorem members_foldl_without (h : group.members.Nodup) :
    (ids.foldl without group).members = group.members.filter (· ∉ ids) := by
  induction ids generalizing group with
  | nil => simp
  | cons m ids ih =>
    have hmembers : (group.without m).members = group.members.erase m := rfl
    rw [List.foldl_cons, ih (hmembers ▸ h.erase m), hmembers, h.erase_eq_filter, List.filter_filter]
    refine List.filter_congr fun x _ => ?_
    by_cases hx : x = m <;> simp [hx]

theorem outlasts_without_iff (hnodup : group.members.Nodup) (hzero : 0 ∉ ids)
    (hlast : group.members = [m] → m = 0) :
    (group.without m).Outlasts ids ↔ group.Outlasts (m :: ids) := by
  have hmembers : (group.without m).members = group.members.erase m := rfl
  unfold Outlasts
  rw [hmembers]
  constructor
  · rintro (hnil | hone | ⟨x, hx, hout⟩)
    · rcases List.erase_eq_nil_iff.mp hnil with hnil | hone
      · exact Or.inl hnil
      · exact Or.inr (Or.inl (hlast hone ▸ hone))
    · have h0 : (0 : UInt32) ∈ group.members.erase m := hone ▸ List.mem_singleton_self 0
      obtain ⟨hne, hmem⟩ := hnodup.mem_erase_iff.mp h0
      exact Or.inr (Or.inr ⟨0, hmem, List.not_mem_cons_of_ne_of_not_mem hne hzero⟩)
    · obtain ⟨hne, hmem⟩ := hnodup.mem_erase_iff.mp hx
      exact Or.inr (Or.inr ⟨x, hmem, List.not_mem_cons_of_ne_of_not_mem hne hout⟩)
  · rintro (hnil | hone | ⟨x, hx, hout⟩)
    · exact Or.inl (by rw [hnil, List.erase_nil])
    · by_cases hm : m = 0
      · exact Or.inl (by rw [hone, hm, List.erase_cons_head])
      · exact Or.inr (Or.inl (by rw [hone, List.erase_of_not_mem (by simpa using hm)]))
    · have hmem := hnodup.mem_erase_iff.mpr ⟨List.ne_of_not_mem_cons hout, hx⟩
      exact Or.inr (Or.inr ⟨x, hmem, List.not_mem_of_not_mem_cons hout⟩)

theorem led_foldl_without_iff (hnodup : group.members.Nodup) (hled : group.Led)
    (hids : ids.Pairwise (· < ·)) : (ids.foldl without group).Led ↔ group.Outlasts ids := by
  induction ids generalizing group with
  | nil =>
    refine iff_of_true hled ?_
    cases hmembers : group.members with
    | nil => exact Or.inl hmembers
    | cons m rest => exact Or.inr (Or.inr ⟨m, hmembers ▸ List.mem_cons_self .., List.not_mem_nil⟩)
  | cons m ids ih =>
    obtain ⟨hless, hids⟩ := List.pairwise_cons.mp hids
    rw [List.foldl_cons]
    by_cases hlast : group.members = [m] → m = 0
    · have hzero : (0 : UInt32) ∉ ids := fun h => UInt32.not_lt_zero (hless 0 h)
      rw [ih (hnodup.erase m) ((led_without_iff hled).mpr hlast) hids]
      exact outlasts_without_iff hnodup hzero hlast
    · obtain ⟨hone, hm⟩ := Classical.not_imp.mp hlast
      have hnil : (group.without m).members = [] := by
        change group.members.erase m = []
        rw [hone, List.erase_cons_head]
      rw [foldl_without_of_nil hnil]
      refine iff_of_false (mt (led_without_iff hled).mp hlast) ?_
      rintro (h | h | ⟨x, hx, hout⟩)
      · rw [hone] at h
        cases h
      · rw [hone, List.singleton_inj] at h
        exact hm h
      · rw [hone, List.mem_singleton] at hx
        exact hout (hx ▸ List.mem_cons_self ..)

end MonsterGroup

/-- The members of a group are distinct and on the table, and one of them leads. -/
structure MonsterGroup.InOrder (monsters : OrdMap UInt32 MonsterAIData) (group : MonsterGroup) :
    Prop where
  distinct : group.members.Nodup
  there : ∀ m ∈ group.members, monsters.find? m ≠ none
  led : group.Led

theorem MonsterGroup.InOrder.joined_iff {monsters : OrdMap UInt32 MonsterAIData}
    {group : MonsterGroup} {m : UInt32} (h : group.InOrder monsters) (hm : monsters.find? m ≠ none) :
    MonsterGroup.InOrder monsters { group with
      members := group.members ++ [m], leader := if group.leader = 0 then m else group.leader } ↔
      m ∉ group.members := by
  constructor
  · rintro ⟨hdistinct, -, -⟩ hin
    exact (List.nodup_append.mp hdistinct).2.2 m hin m (List.mem_singleton_self m) rfl
  · intro hout
    refine ⟨List.nodup_append.mpr ⟨h.distinct, List.nodup_singleton m, ?_⟩, ?_, ?_⟩
    · intro x hx y hy heq
      exact hout (List.mem_singleton.mp hy ▸ heq ▸ hx)
    · intro x hx
      rcases List.mem_append.mp hx with hx | hx
      · exact h.there x hx
      · rwa [List.mem_singleton.mp hx]
    · rw [MonsterGroup.led_of_ne_nil (List.append_ne_nil_of_right_ne_nil _ (List.cons_ne_nil m []))]
      dsimp only
      split_ifs with hlead
      · exact List.mem_append_right _ (List.mem_singleton_self m)
      · have hne : group.members ≠ [] := fun hnil => hlead ((MonsterGroup.led_of_nil hnil).mp h.led)
        exact List.mem_append_left _ ((MonsterGroup.led_of_ne_nil hne).mp h.led)

namespace SyncedMonsterAI

def Orderly (s : SyncedMonsterAI) : Prop := ∀ e ∈ s.groups.entries, e.2.InOrder s.monsters

def MonsterOp.OfPacks : MonsterOp → Prop
  | .addMonster .. | .removeMonster .. | .createMonsterGroup .. | .addMonsterToGroup ..
  | .removeMonsterFromGroup .. | .updateAI .. => True
  | _ => False

/-- A monster that is removed is in no group, one that joins a group is not yet in it, the last
to leave a group is the number 0, and an update does not clear away all members of a group. -/
def Considerate (s : SyncedMonsterAI) : MonsterOp → Prop
  | .removeMonster m => ∀ e ∈ s.groups.entries, m ∉ e.2.members
  | .addMonsterToGroup g m => ∀ group ∈ s.getMonsterGroup g, m ∉ group.members
  | .removeMonsterFromGroup g m => ∀ group ∈ s.getMonsterGroup g, group.members = [m] → m = 0
  | .updateAI _ => s.initialized → ∀ e ∈ s.groups.entries, e.2.Outlasts s.deadIds
  | _ => True

instance (group : MonsterGroup) (ids : List UInt32) : Decidable (group.Outlasts ids) :=
  inferInstanceAs (Decidable (_ ∨ _ ∨ ∃ m ∈ _, _))

instance decidableConsiderate (s : SyncedMonsterAI) : ∀ op, Decidable (s.Considerate op)
  | .removeMonster .. => inferInstanceAs (Decidable (∀ e ∈ _, _))
  | .addMonsterToGroup .. => inferInstanceAs (Decidable (∀ group ∈ _, _))
  | .removeMonsterFromGroup .. => inferInstanceAs (Decidable (∀ group ∈ _, _ → _))
  | .updateAI _ => inferInstanceAs (Decidable (_ → ∀ e ∈ _, _))
  | .initializeAI | .shutdown | .addMonster .. | .processMonsterAI .. | .makeDecision ..
  | .changeMonsterState .. | .setMonsterTarget .. | .clearMonsterTarget ..
  | .synchronizeMonster .. | .processMonsterUpdate .. | .setSyncOwner .. | .createMonsterGroup ..
  | .updateGroupBehavior .. | .onPlayerEnterRange .. | .onPlayerLeaveRange .. | .onPlayerAttack ..
  | .onPlayerDeath .. | .enableGroupBehavior .. => isTrue trivial

section Calls
variable {s : SyncedMonsterAI}

theorem forall_groups_iff {P : MonsterGroup → Prop} :
    (∀ e ∈ s.groups.entries, P e.2) ↔ ∀ g group, s.getMonsterGroup g = some group → P group := by
  constructor
  · exact fun h g group hgroup => h (g, group) (OrdMap.find?_eq_some_iff.mp hgroup)
  · exact fun h e he => h e.1 e.2 (OrdMap.find?_eq_some_iff.mpr he)

theorem Orderly.of_getMonsterGroup (h : s.Orderly) {g : UInt32} {group : MonsterGroup}
    (hgroup : s.getMonsterGroup g = some group) : group.InOrder s.monsters :=
  forall_groups_iff.mp h g group hgroup

theorem Orderly.setMonsterGroup_iff (h : s.Orderly) (g : UInt32) (group : MonsterGroup) :
    (s.setMonsterGroup g group).Orderly ↔ group.InOrder s.monsters := by
  refine forall_groups_iff.trans ⟨fun h' => ?_, fun hgroup g' group' hget => ?_⟩
  · exact h' g group ((getMonsterGroup_setMonsterGroup ..).trans (if_pos rfl))
  · rw [getMonsterGroup_setMonsterGroup] at hget
    split_ifs at hget
    · exact Option.some.inj hget ▸ hgroup
    · exact h.of_getMonsterGroup hget

theorem Orderly.addMonster (h : s.Orderly) (d : MonsterAIData) (now : ℚ) :
    (s.addMonster d now).Orderly := by
  by_cases hinit : s.initialized
  · have hgroups : (s.addMonster d now).groups = s.groups := by
      rw [SyncedMonsterAI.addMonster, if_neg (not_not.mpr hinit)]
    intro e he
    obtain ⟨hdistinct, hthere, hled⟩ := h e (hgroups ▸ he)
    refine ⟨hdistinct, fun m hm => ?_, hled⟩
    change (s.addMonster d now).getMonster m ≠ none
    rw [getMonster_addMonster hinit]
    split_ifs
    · exact Option.some_ne_none _
    · exact hthere m hm
  · rwa [SyncedMonsterAI.addMonster, if_pos hinit]

theorem Orderly.createMonsterGroup (h : s.Orderly) (name : String) (pattern : BehaviorPattern) :
    (s.createMonsterGroup name pattern).1.Orderly := by
  have hnext : { s with nextGroupId := s.nextGroupId + 1 }.Orderly := h
  exact (hnext.setMonsterGroup_iff s.nextGroupId _).mpr ⟨List.nodup_nil, nofun, rfl⟩

theorem Orderly.removeMonster_iff (h : s.Orderly) (m : UInt32) :
    (s.removeMonster m).Orderly ↔ s.Considerate (.removeMonster m) := by
  have hgroups : (s.removeMonster m).groups = s.groups := by
    unfold removeMonster
    cases s.getMonster m <;> rfl
  have hfind (m' : UInt32) : (s.removeMonster m).monsters.find? m'
      = if m = m' then none else s.monsters.find? m' := s.getMonster_removeMonster m m'
  unfold Orderly
  rw [hgroups]
  constructor
  · intro h' e he hm
    exact (h' e he).there m hm ((hfind m).trans (if_pos rfl))
  · intro hout e he
    obtain ⟨hdistinct, hthere, hled⟩ := h e he
    refine ⟨hdistinct, fun m' hm' => ?_, hled⟩
    have hne : m ≠ m' := fun heq => hout e he (heq ▸ hm')
    rw [hfind, if_neg hne]
    exact hthere m' hm'

theorem Orderly.addMonsterToGroup_iff (h : s.Orderly) (g m : UInt32) :
    (s.addMonsterToGroup g m).Orderly ↔ s.Considerate (.addMonsterToGroup g m) := by
  unfold addMonsterToGroup
  cases hgroup : s.getMonsterGroup g with
  | none => exact iff_of_true h (by simp [Considerate, hgroup])
  | some group =>
    have hin := h.of_getMonsterGroup hgroup
    have hcond : s.Considerate (.addMonsterToGroup g m) ↔ m ∉ group.members := by
      simp [Considerate, hgroup]
    rw [hcond]
    cases hmonster : s.getMonster m with
    | none => exact iff_of_true h fun hm => hin.there m hm hmonster
    | some monster =>
      dsimp only
      rw [h.setMonsterGroup_iff]
      exact hin.joined_iff (Option.ne_none_iff_exists'.mpr ⟨monster, hmonster⟩)

theorem Orderly.removeMonsterFromGroup_iff (h : s.Orderly) (g m : UInt32) :
    (s.removeMonsterFromGroup g m).Orderly ↔ s.Considerate (.removeMonsterFromGroup g m) := by
  unfold removeMonsterFromGroup
  cases hgroup : s.getMonsterGroup g with
  | none => exact iff_of_true h (by simp [Considerate, hgroup])
  | some group =>
    have hin := h.of_getMonsterGroup hgroup
    have hcond : s.Considerate (.removeMonsterFromGroup g m) ↔ (group.members = [m] → m = 0) := by
      simp [Considerate, hgroup]
    rw [hcond, ← MonsterGroup.led_without_iff hin.led]
    refine (h.setMonsterGroup_iff g _).trans ⟨MonsterGroup.InOrder.led, fun hled => ?_⟩
    exact ⟨hin.distinct.erase m, fun x hx => hin.there x (List.mem_of_mem_erase hx), hled⟩

theorem sorted_deadIds (s : SyncedMonsterAI) : s.deadIds.Pairwise (· < ·) :=
  List.pairwise_map.mpr (s.monsters.sorted.filter _)

theorem mem_deadIds_iff_of_steady {s₁ : SyncedMonsterAI} (hsteady : Steady s s₁) {m : UInt32} :
    m ∈ s₁.deadIds ↔ m ∈ s.deadIds := by
  rw [mem_deadIds, mem_deadIds]
  constructor
  · rintro ⟨monster', hmonster', hdead⟩
    obtain ⟨monster, hmonster, hcalm⟩ := hsteady.entry hmonster'
    exact ⟨monster, hmonster, hcalm.dead.mp hdead⟩
  · rintro ⟨monster, hmonster, hdead⟩
    obtain ⟨monster', hmonster', hcalm⟩ := rel_some_left (hmonster ▸ hsteady.monsters m)
    exact ⟨monster', hmonster', hcalm.dead.mpr hdead⟩

theorem Orderly.steady (h : s.Orderly) {s₁ : SyncedMonsterAI} (hsteady : Steady s s₁) :
    s₁.Orderly := by
  refine forall_groups_iff.mpr fun g group' hgroup' => ?_
  have hrel := hsteady.groups g
  rw [hgroup'] at hrel
  obtain ⟨group, hgroup, hroll⟩ := rel_some_right hrel
  obtain ⟨hdistinct, hthere, hled⟩ := h.of_getMonsterGroup hgroup
  refine ⟨hroll.members ▸ hdistinct, fun m hm => ?_, ?_⟩
  · exact mt (rel_eq_none_iff (hsteady.monsters m)).mp (hthere m (hroll.members ▸ hm))
  · rw [MonsterGroup.Led, hroll.members, hroll.leader]
    exact hled

theorem Orderly.buryAll_iff (h : s.Orderly) :
    (s.buryAll s.deadIds).Orderly ↔ ∀ e ∈ s.groups.entries, e.2.Outlasts s.deadIds := by
  rw [Orderly, forall_groups_iff, forall_groups_iff (P := fun group => group.Outlasts s.deadIds)]
  refine forall_congr' fun g => ?_
  rw [getMonsterGroup_buryAll]
  cases hgroup : s.getMonsterGroup g with
  | none => simp
  | some group =>
    have hin := h.of_getMonsterGroup hgroup
    simp only [Option.map_some, Option.some.injEq, forall_eq']
    rw [← MonsterGroup.led_foldl_without_iff hin.distinct hin.led s.sorted_deadIds]
    refine ⟨MonsterGroup.InOrder.led, fun hled => ⟨?_, fun m hm => ?_, hled⟩⟩
    · rw [MonsterGroup.members_foldl_without hin.distinct]
      exact hin.distinct.filter _
    · rw [MonsterGroup.members_foldl_without hin.distinct, List.mem_filter, decide_eq_true_eq] at hm
      change (s.buryAll s.deadIds).getMonster m ≠ none
      rw [getMonster_buryAll, if_neg hm.2]
      exact hin.there m hm.1

theorem Orderly.updateAI_iff (h : s.Orderly) (sqrt : ℚ → ℚ) (now : ℚ) :
    (s.updateAI sqrt now).Orderly ↔ s.Considerate (.updateAI now) := by
  rw [Considerate]
  by_cases hinit : s.initialized
  · obtain ⟨s₁, hsteady, heq⟩ := s.updateAI_spec sqrt now hinit
    rw [heq, forall_prop_of_true hinit, (h.steady hsteady).buryAll_iff,
      forall_groups_iff (P := fun group => group.Outlasts s₁.deadIds),
      forall_groups_iff (P := fun group => group.Outlasts s.deadIds)]
    refine forall_congr' fun g => ?_
    have hrel := hsteady.groups g
    cases hgroup : s.getMonsterGroup g with
    | none =>
      rw [(rel_eq_none_iff hrel).mpr hgroup]
      simp
    | some group =>
      rw [hgroup] at hrel
      obtain ⟨group', hgroup', hroll⟩ := rel_some_left hrel
      simp only [hgroup', Option.some.injEq, forall_eq', MonsterGroup.Outlasts, hroll.members,
        mem_deadIds_iff_of_steady hsteady]
  · rw [updateAI, if_pos hinit]
    exact iff_of_true h fun h => absurd h hinit

end Calls

theorem Orderly.monsterStep_iff {s : SyncedMonsterAI} (h : s.Orderly) (sqrt : ℚ → ℚ)
    {op : MonsterOp} (hop : op.OfPacks) : (monsterStep sqrt s op).Orderly ↔ s.Considerate op := by
  cases op with
  | addMonster d now => exact iff_of_true (h.addMonster d now) trivial
  | removeMonster m => exact h.removeMonster_iff m
  | createMonsterGroup name pattern => exact iff_of_true (h.createMonsterGroup name pattern) trivial
  | addMonsterToGroup g m => exact h.addMonsterToGroup_iff g m
  | removeMonsterFromGroup g m => exact h.removeMonsterFromGroup_iff g m
  | updateAI now => exact h.updateAI_iff sqrt now
  | _ => exact hop.elim

/-- The groups are in order throughout a run exactly if every call of it is considerate. -/
theorem orderly_along_iff (sqrt : ℚ → ℚ) (initialized : Bool)
    (playerThreats : OrdMap UInt32 (List UInt32)) {ops : List MonsterOp}
    (hops : ∀ op ∈ ops, op.OfPacks) :
    let s : SyncedMonsterAI := { initialized := initialized, playerThreats := playerThreats }
    Run.Along (monsterStep sqrt) (fun s op => (monsterStep sqrt s op).Orderly) s ops ↔
      Run.Along (monsterStep sqrt) Considerate s ops := by
  intro s
  have hstart : s.Orderly := fun e he => absurd he List.not_mem_nil
  exact Run.along_iff_of_step (K := fun _ => True)
    (fun s op _ h hop => ⟨trivial, h.monsterStep_iff sqrt hop⟩) trivial hstart
    (Run.along_of_forall s hops)

theorem orderly_along_pack :
    let ops : List MonsterOp := [.addMonster {} 0, .addMonster {} 0, .createMonsterGroup "pack" .pack,
      .addMonsterToGroup 1 1, .addMonsterToGroup 1 2, .removeMonsterFromGroup 1 1,
      .addMonster { currentState := .dead } 0, .addMonsterToGroup 1 3, .updateAI 1, .removeMonster 1]
    Run.Along (monsterStep id) (fun s op => (monsterStep id s op).Orderly) { initialized := true } ops := by
  intro ops
  have hops : ∀ op ∈ ops, op.OfPacks := by simp [ops, MonsterOp.OfPacks]
  have hconsiderate : Run.Along (monsterStep id) Considerate { initialized := true } ops := by
    decide +kernel
  exact (orderly_along_iff id true .empty hops).mpr hconsiderate

theorem not_orderly_joined_or_left :
    let pack : List MonsterOp :=
      [.addMonster {} 0, .createMonsterGroup "pack" .pack, .addMonsterToGroup 1 1]
    let s : SyncedMonsterAI := Run.run (monsterStep id) { initialized := true } pack
    s.Orderly ∧ ¬ (monsterStep id s (.addMonsterToGroup 1 1)).Orderly ∧
      ¬ (monsterStep id s (.removeMonster 1)).Orderly ∧
      ¬ (monsterStep id s (.removeMonsterFromGroup 1 1)).Orderly := by
  intro pack s
  have hentries : s.groups.entries
      = [(1, { groupId := 1, name := "pack", members := [1], leader := 1 })] := by decide +kernel
  have hmonster : s.getMonster 1 ≠ none := by decide +kernel
  have hstart : s.Orderly := by
    rintro e he
    rw [hentries, List.mem_singleton] at he
    subst he
    refine ⟨List.nodup_singleton 1, fun m hm => List.mem_singleton.mp hm ▸ hmonster, ?_⟩
    exact (MonsterGroup.led_of_ne_nil (List.cons_ne_nil 1 [])).mpr (List.mem_singleton_self 1)
  refine ⟨hstart, mt (hstart.addMonsterToGroup_iff 1 1).mp ?_,
    mt (hstart.removeMonster_iff 1).mp ?_, mt (hstart.removeMonsterFromGroup_iff 1 1).mp ?_⟩
  · decide +kernel
  · decide +kernel
  · decide +kernel

end SyncedMonsterAI
end WitcherMP.Monsters
