import WitcherMP.Quests.Rosters

/-! Who takes part in a quest: nobody twice, no more than there is room for, and one of them
in charge. No call checks whether a player takes part already, and the owner may walk away. -/

namespace WitcherMP.Quests

structure QuestData.Proper (quest : QuestData) : Prop where
  nodup : quest.participants.Nodup
  room : quest.isCooperative → quest.participants.length ≤ quest.maxParticipants.toNat
  owned : quest.state = .inProgress → quest.participants ≠ [] →
    quest.syncOwner ∈ quest.participants

section Quest
variable {quest : QuestData} {p : UInt32}

theorem proper_of_empty (h : quest.participants = []) : quest.Proper where
  nodup := h ▸ List.nodup_nil
  room _ := by
    rw [h]
    exact Nat.zero_le _
  owned _ hne := absurd h hne

theorem nodup_append_singleton_iff {l : List UInt32} (h : l.Nodup) : (l ++ [p]).Nodup ↔ p ∉ l := by
  rw [List.nodup_append_comm, List.singleton_append, List.nodup_cons]
  exact and_iff_left h

theorem QuestData.Proper.started_iff (h : quest.Proper)
    (hroom : quest.isCooperative → quest.participants.length < quest.maxParticipants.toNat) :
    QuestData.Proper { quest with
      state := .inProgress, participants := quest.participants ++ [p], syncOwner := p } ↔
      p ∉ quest.participants := by
  rw [← nodup_append_singleton_iff h.nodup]
  refine ⟨QuestData.Proper.nodup, fun hnodup => ⟨hnodup, fun hcoop => ?_, fun _ _ => ?_⟩⟩
  · rw [List.length_append]
    exact hroom hcoop
  · exact List.mem_append_right _ (List.mem_singleton_self p)

theorem QuestData.Proper.joined_iff (h : quest.Proper)
    (hroom : quest.participants.length < quest.maxParticipants.toNat) :
    QuestData.Proper { quest with participants := quest.participants ++ [p] } ↔
      p ∉ quest.participants ∧ (quest.state = .inProgress → quest.participants = [] →
        quest.syncOwner = p) := by
  rw [← nodup_append_singleton_iff h.nodup]
  constructor
  · refine fun h' => ⟨h'.nodup, fun hstate hnil => ?_⟩
    have howner : quest.syncOwner ∈ quest.participants ++ [p] :=
      h'.owned hstate (List.append_ne_nil_of_right_ne_nil _ (List.cons_ne_nil p []))
    rwa [hnil, List.nil_append, List.mem_singleton] at howner
  · refine fun ⟨hnodup, hempty⟩ => ⟨hnodup, fun _ => ?_, fun hstate _ => ?_⟩
    · rw [List.length_append]
      exact hroom
    · by_cases hnil : quest.participants = []
      · exact List.mem_append_right _ (List.mem_singleton.mpr (hempty hstate hnil))
      · exact List.mem_append_left _ (h.owned hstate hnil)

theorem QuestData.Proper.left_iff (h : quest.Proper) :
    QuestData.Proper { quest with participants := quest.participants.erase p } ↔
      (quest.state = .inProgress → quest.syncOwner = p → quest.participants.length ≤ 1) := by
  have hlength := List.length_erase_le (a := p) (l := quest.participants)
  constructor
  · intro h' hstate howner
    by_contra hmany
    have hmem : p ∈ quest.participants :=
      howner ▸ h.owned hstate fun hnil => hmany (hnil ▸ Nat.zero_le 1)
    have hrest : quest.participants.erase p ≠ [] := by
      rw [← List.length_pos_iff, List.length_erase_of_mem hmem]
      omega
    exact List.Nodup.not_mem_erase h.nodup (howner ▸ h'.owned hstate hrest)
  · refine fun hlast => ⟨h.nodup.erase p, fun hcoop => hlength.trans (h.room hcoop),
      fun hstate hrest => ?_⟩
    have hnil : quest.participants ≠ [] := fun hnil => hrest (by rw [hnil, List.erase_nil])
    have hmem : quest.syncOwner ∈ quest.participants := h.owned hstate hnil
    by_cases howner : quest.syncOwner = p
    · have hone := hlast hstate howner
      rw [howner] at hmem
      refine absurd (List.length_eq_zero_iff.mp ?_) hrest
      rw [List.length_erase_of_mem hmem]
      omega
    · exact (List.mem_erase_of_ne howner).mpr hmem

end Quest

namespace CooperativeQuestSystem

def Proper (s : CooperativeQuestSystem) : Prop :=
  ∀ questId quest, s.getQuest questId = some quest → quest.Proper

def OfParties : QuestOp → Prop
  | .addQuest quest => quest.participants = []
  | .startQuest .. | .joinQuest .. | .leaveQuest .. | .abandonQuest ..
  | .transferQuestOwnership .. => True
  | .completeQuest .. | .updateObjective .. | .onPlayerEnterArea .. | .onPlayerKillMonster ..
  | .onPlayerCollectItem .. | .onPlayerTalkToNpc .. | .onPlayerUseObject .. => False

instance : DecidablePred OfParties
  | .addQuest _ => inferInstanceAs (Decidable (_ = _))
  | .startQuest .. | .joinQuest .. | .leaveQuest .. | .abandonQuest ..
  | .transferQuestOwnership .. => isTrue trivial
  | .completeQuest .. | .updateObjective .. | .onPlayerEnterArea .. | .onPlayerKillMonster ..
  | .onPlayerCollectItem .. | .onPlayerTalkToNpc .. | .onPlayerUseObject .. => isFalse id

/-- Nobody is let in twice, an empty quest in progress goes to its owner, and an owner leaves
as the last. -/
def Admissible (s : CooperativeQuestSystem) : QuestOp → Prop
  | .startQuest q p => s.initialized → s.validateQuestStart q p → p ∉ s.participants q
  | .joinQuest q p => s.canPlayerJoinQuest q p → p ∉ s.participants q ∧
      ∀ quest ∈ s.getQuest q, quest.state = .inProgress → quest.participants = [] →
        quest.syncOwner = p
  | .leaveQuest q p => ∀ quest ∈ s.getQuest q, quest.state = .inProgress → quest.syncOwner = p →
      quest.participants.length ≤ 1
  | _ => True

instance decidableAdmissible (s : CooperativeQuestSystem) : ∀ op, Decidable (s.Admissible op)
  | .startQuest _ _ => inferInstanceAs (Decidable (_ → _ → _))
  | .joinQuest _ _ => inferInstanceAs (Decidable (_ → _ ∧ ∀ quest ∈ _, _ → _ → _))
  | .leaveQuest _ _ => inferInstanceAs (Decidable (∀ quest ∈ _, _ → _ → _))
  | .addQuest .. | .abandonQuest .. | .transferQuestOwnership .. | .completeQuest ..
  | .updateObjective .. | .onPlayerEnterArea .. | .onPlayerKillMonster .. | .onPlayerCollectItem ..
  | .onPlayerTalkToNpc .. | .onPlayerUseObject .. => isTrue trivial

variable {s s' : CooperativeQuestSystem}

theorem Proper.replace_iff (h : s.Proper) {q : UInt32} {quest' : QuestData}
    (hs' : s'.quests = s.quests.insert q quest') : s'.Proper ↔ quest'.Proper := by
  have hget (q' : UInt32) : s'.getQuest q' = if q = q' then some quest' else s.getQuest q' := by
    rw [getQuest, hs']
    exact OrdMap.find?_insert ..
  constructor
  · exact fun h' => h' q quest' ((hget q).trans (if_pos rfl))
  · intro h' q' quest hquest
    rw [hget] at hquest
    split_ifs at hquest
    · exact Option.some.inj hquest ▸ h'
    · exact h q' quest hquest

theorem Proper.addQuest (h : s.Proper) {quest : QuestData} (hnil : quest.participants = []) :
    (s.addQuest quest).Proper := by
  by_cases hinit : s.initialized
  · exact (h.replace_iff (addQuest_spec hinit quest).1).mpr (proper_of_empty hnil)
  · rwa [CooperativeQuestSystem.addQuest, if_pos hinit]

theorem room_of_validateQuestStart {q p : UInt32} {quest : QuestData}
    (hq : s.getQuest q = some quest) (hvalid : s.validateQuestStart q p) (hcoop : quest.isCooperative) :
    quest.participants.length < quest.maxParticipants.toNat := by
  simp only [validateQuestStart, hq] at hvalid
  split_ifs at hvalid with hstate hpre hjoin
  simpa [canPlayerJoinQuest, hq, hcoop] using hjoin

theorem Proper.startQuest_iff (h : s.Proper) (q p : UInt32) :
    (s.startQuest q p).1.Proper ↔ s.Admissible (.startQuest q p) := by
  have hadm : s.Admissible (.startQuest q p) ↔
      (s.initialized → s.validateQuestStart q p → p ∉ s.participants q) := Iff.rfl
  unfold startQuest
  rw [hadm]
  by_cases hinit : s.initialized
  · rw [if_neg (not_not.mpr hinit), forall_prop_of_true hinit]
    cases hq : s.getQuest q with
    | none => exact iff_of_true h fun _ => participants_of_none hq ▸ List.not_mem_nil
    | some quest =>
      rw [participants_of_getQuest hq]
      dsimp only
      split_ifs with hvalid
      · refine (h.replace_iff rfl).trans ?_
        rw [forall_prop_of_true hvalid]
        exact (h q quest hq).started_iff (room_of_validateQuestStart hq hvalid)
      · exact iff_of_true h fun h' => absurd h' hvalid
  · rw [if_pos hinit]
    exact iff_of_true h fun h' => absurd h' hinit

theorem Proper.joinQuest_iff (h : s.Proper) (q p : UInt32) :
    (s.joinQuest q p).1.Proper ↔ s.Admissible (.joinQuest q p) := by
  unfold joinQuest
  cases hq : s.getQuest q with
  | none => exact iff_of_true h (by simp [Admissible, canPlayerJoinQuest, hq])
  | some quest =>
    have hcan : s.canPlayerJoinQuest q p ↔
        quest.isCooperative ∧ quest.participants.length < quest.maxParticipants.toNat := by
      simp [canPlayerJoinQuest, hq]
    have hadm : s.Admissible (.joinQuest q p) ↔ (s.canPlayerJoinQuest q p →
        p ∉ quest.participants ∧ (quest.state = .inProgress → quest.participants = [] →
          quest.syncOwner = p)) := by
      simp [Admissible, hq, participants_of_getQuest hq]
    rw [hadm]
    dsimp only
    split_ifs with hjoin
    · refine iff_of_true h fun h' => absurd h' fun h' => ?_
      simp [(hcan.mp h').1, h'] at hjoin
    · have h' : s.canPlayerJoinQuest q p := by
        by_contra h'
        simp [h'] at hjoin
      refine (h.replace_iff rfl).trans ?_
      rw [forall_prop_of_true h']
      exact (h q quest hq).joined_iff (hcan.mp h').2

theorem Proper.leaveQuest_iff (h : s.Proper) (q p : UInt32) :
    (s.leaveQuest q p).1.Proper ↔ s.Admissible (.leaveQuest q p) := by
  unfold leaveQuest
  cases hq : s.getQuest q with
  | none => exact iff_of_true h (by simp [Admissible, hq])
  | some quest =>
    have hadm : s.Admissible (.leaveQuest q p) ↔
        (quest.state = .inProgress → quest.syncOwner = p → quest.participants.length ≤ 1) := by
      simp [Admissible, hq]
    rw [hadm]
    exact (h.replace_iff rfl).trans (h q quest hq).left_iff

theorem Proper.abandonQuest (h : s.Proper) (q p : UInt32) : (s.abandonQuest q p).1.Proper := by
  unfold CooperativeQuestSystem.abandonQuest
  cases hq : s.getQuest q with
  | none => exact h
  | some quest =>
    obtain ⟨hnodup, hroom, -⟩ := h q quest hq
    dsimp only
    split_ifs
    · exact h
    · refine (h.replace_iff rfl).mpr ⟨hnodup.erase p, fun hcoop => ?_, fun hstate => nomatch hstate⟩
      exact List.length_erase_le.trans (hroom hcoop)

theorem Proper.transferQuestOwnership (h : s.Proper) (q p₁ p₂ : UInt32) :
    (s.transferQuestOwnership q p₁ p₂).1.Proper := by
  unfold CooperativeQuestSystem.transferQuestOwnership
  cases hq : s.getQuest q with
  | none => exact h
  | some quest =>
    obtain ⟨hnodup, hroom, -⟩ := h q quest hq
    dsimp only
    split_ifs with howner hmem
    · exact h
    · have hproper : QuestData.Proper { quest with syncOwner := p₂ } :=
        ⟨hnodup, hroom, fun _ _ => hmem⟩
      exact (h.replace_iff rfl).mpr hproper
    · exact h

theorem Proper.step_iff (h : s.Proper) {op : QuestOp} (hop : OfParties op) :
    (s.questStep op).Proper ↔ s.Admissible op := by
  cases op with
  | addQuest quest => exact iff_of_true (h.addQuest hop) trivial
  | startQuest q p => exact h.startQuest_iff q p
  | joinQuest q p => exact h.joinQuest_iff q p
  | leaveQuest q p => exact h.leaveQuest_iff q p
  | abandonQuest q p => exact iff_of_true (h.abandonQuest q p) trivial
  | transferQuestOwnership q p₁ p₂ => exact iff_of_true (h.transferQuestOwnership q p₁ p₂) trivial
  | _ => exact hop.elim

theorem proper_initial (initialized : Bool) (maxGroupSize : UInt32) :
    Proper { initialized := initialized, maxGroupSize := maxGroupSize } := fun _ _ h => nomatch h

/-- In every state of a run all quests are properly manned, if and only if every call of the
run is admissible. -/
theorem proper_along_iff (initialized : Bool) (maxGroupSize : UInt32) {ops : List QuestOp}
    (hops : ∀ op ∈ ops, OfParties op) :
    let s : CooperativeQuestSystem := { initialized := initialized, maxGroupSize := maxGroupSize }
    Run.Along questStep (fun s op => (s.questStep op).Proper) s ops ↔
      Run.Along questStep Admissible s ops := by
  intro s
  exact Run.along_iff_of_step (K := fun _ => True)
    (fun _ _ _ hm hop => ⟨trivial, hm.step_iff hop⟩) trivial
    (proper_initial initialized maxGroupSize) (Run.along_of_forall s hops)

theorem proper_along_handed_over :
    let s : CooperativeQuestSystem := { initialized := true, maxGroupSize := 4 }
    let ops : List QuestOp :=
      [.addQuest { questId := 1, state := .available, isCooperative := true, maxParticipants := 2 },
       .startQuest 1 7, .joinQuest 1 8, .transferQuestOwnership 1 7 8, .leaveQuest 1 7]
    Run.Along questStep (fun s op => (s.questStep op).Proper) s ops :=
  (proper_along_iff true 4 (by decide)).mpr (by decide +kernel)

theorem not_proper_joined_or_left :
    let ops (op : QuestOp) : List QuestOp :=
      [.addQuest { questId := 1, state := .available, isCooperative := true, maxParticipants := 3 },
       .startQuest 1 7, .joinQuest 1 8, op]
    (∀ op ∈ ops (.joinQuest 1 8) ++ ops (.leaveQuest 1 7), OfParties op) ∧
      ¬ Proper (Run.run questStep { initialized := true } (ops (.joinQuest 1 8))) ∧
      ¬ Proper (Run.run questStep { initialized := true } (ops (.leaveQuest 1 7))) := by
  intro ops
  let played (participants : List UInt32) : QuestData :=
    { questId := 1, state := .inProgress, isCooperative := true, maxParticipants := 3
      participants := participants, syncOwner := 7 }
  refine ⟨by decide, fun h => ?_, fun h => ?_⟩
  · have hquest : (Run.run questStep { initialized := true } (ops (.joinQuest 1 8))).getQuest 1
        = some (played [7, 8, 8]) := by decide +kernel
    exact absurd (h 1 _ hquest).nodup (by decide)
  · have hquest : (Run.run questStep { initialized := true } (ops (.leaveQuest 1 7))).getQuest 1
        = some (played [8]) := by decide +kernel
    exact absurd ((h 1 _ hquest).owned rfl (by decide)) (by decide)

end CooperativeQuestSystem
end WitcherMP.Quests
