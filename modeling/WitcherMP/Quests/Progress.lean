import WitcherMP.Quests.Defs
import WitcherMP.Lib.Prerequisites
import WitcherMP.Lib.Run

/-! How quests move on: none is started before the quests it requires are completed. -/

namespace WitcherMP.Quests
open Relation Prerequisites

namespace QuestData

def Started (quest : QuestData) : Prop :=
  quest.state = .inProgress ∨ quest.state = .completed ∨ quest.state = .abandoned

def ObjectivesDone (quest : QuestData) : Prop :=
  ∀ objective ∈ quest.objectives, ¬ objective.isOptional → objective.isCompleted

end QuestData

abbrev QuestMap := OrdMap UInt32 QuestData

namespace QuestMap

def Completed (m : QuestMap) (questId : UInt32) : Prop :=
  ∃ quest, m.find? questId = some quest ∧ quest.state = .completed

def Requires (m : QuestMap) (questId requiredId : UInt32) : Prop :=
  ∃ quest, m.find? questId = some quest ∧ requiredId ∈ quest.requiredQuests

def started (m : QuestMap) : Set UInt32 :=
  {questId | ∃ quest, m.find? questId = some quest ∧ quest.Started}

structure Edit (m : QuestMap) (quest quest' : QuestData) : Prop where
  id : quest'.questId = quest.questId
  required : quest'.requiredQuests = quest.requiredQuests
  keeps : quest.Started → quest'.Started
  starts : quest'.Started → quest.Started ∨ ∀ r ∈ quest.requiredQuests, m.Completed r
  stays : quest.state = .completed → quest'.state = .completed ∧ quest'.objectives = quest.objectives
  completes : quest'.state = .completed → quest.state = .completed ∨ quest'.ObjectivesDone

inductive Move (m : QuestMap) : QuestMap → Prop
  | add {quest : QuestData} (hfresh : m.find? quest.questId = none)
      (hstate : quest.state = .notStarted ∨ quest.state = .available) :
      Move m (m.insert quest.questId quest)
  | edit {questId : UInt32} {quest quest' : QuestData} (hquest : m.find? questId = some quest)
      (hedit : m.Edit quest quest') : Move m (m.insert questId quest')

theorem Edit.of_eq {m : QuestMap} {quest quest' : QuestData}
    (hid : quest'.questId = quest.questId) (hreq : quest'.requiredQuests = quest.requiredQuests)
    (hstate : quest'.state = quest.state) (hobj : quest'.objectives = quest.objectives) :
    m.Edit quest quest' := by
  refine ⟨hid, hreq, fun h => ?_, fun h => Or.inl ?_, fun h => ⟨hstate.trans h, hobj⟩,
    fun h => Or.inl (hstate.symm.trans h)⟩
  · rwa [QuestData.Started, hstate]
  · rwa [QuestData.Started, hstate] at h

theorem Edit.of_inProgress {m : QuestMap} {quest quest' : QuestData}
    (hid : quest'.questId = quest.questId) (hreq : quest'.requiredQuests = quest.requiredQuests)
    (hstate : quest.state = .inProgress) (hstate' : quest'.state = .inProgress) : m.Edit quest quest' := by
  refine ⟨hid, hreq, fun _ => Or.inl hstate', fun _ => Or.inl (Or.inl hstate), fun h => ?_, fun h => ?_⟩
  · exact absurd (hstate.symm.trans h) (by decide)
  · exact absurd (hstate'.symm.trans h) (by decide)

end QuestMap

namespace CooperativeQuestSystem
variable (s : CooperativeQuestSystem)

theorem completed_of_checkQuestPrerequisites {s : CooperativeQuestSystem} {questId playerId : UInt32}
    {quest : QuestData} (hquest : s.getQuest questId = some quest)
    (h : s.checkQuestPrerequisites questId playerId) :
    ∀ r ∈ quest.requiredQuests, QuestMap.Completed s.quests r := by
  intro r hr
  simp only [checkQuestPrerequisites, hquest, List.all_eq_true] at h
  have hdone := h r hr
  cases hreq : s.getQuest r with
  | none => simp [hreq] at hdone
  | some required => exact ⟨required, hreq, by simpa [hreq] using hdone⟩

theorem of_validateQuestStart {s : CooperativeQuestSystem} {questId playerId : UInt32}
    {quest : QuestData} (hquest : s.getQuest questId = some quest)
    (h : s.validateQuestStart questId playerId) :
    quest.state = .available ∧ s.checkQuestPrerequisites questId playerId := by
  simp only [validateQuestStart, hquest] at h
  split_ifs at h with hstate hpre hjoin
  exact ⟨not_not.mp hstate, hpre⟩

theorem objectivesDone_of_isQuestComplete {s : CooperativeQuestSystem} {questId : UInt32}
    {quest : QuestData} (hquest : s.getQuest questId = some quest) (h : s.isQuestComplete questId) :
    quest.ObjectivesDone := by
  simp only [isQuestComplete, hquest, List.all_eq_true, Bool.or_eq_true] at h
  exact fun objective hobj hopt => (h objective hobj).resolve_left hopt

theorem moves_addQuest {quest : QuestData} (hfresh : s.quests.find? (s.assignedId quest) = none)
    (hstate : quest.state = .notStarted ∨ quest.state = .available) :
    ReflTransGen QuestMap.Move s.quests (s.addQuest quest).quests := by
  unfold addQuest
  by_cases hinit : s.initialized
  · rw [if_neg (not_not.mpr hinit)]
    let added : QuestData := { quest with questId := s.assignedId quest }
    have hadd : QuestMap.Move s.quests (s.quests.insert added.questId added) := .add hfresh hstate
    exact .single hadd
  · rw [if_pos hinit]

theorem moves_setQuest {s s' : CooperativeQuestSystem} {questId : UInt32} {quest quest' : QuestData}
    (hquest : s.getQuest questId = some quest) (hs' : s'.quests = s.quests.insert questId quest')
    (hedit : QuestMap.Edit s.quests quest quest') :
    ReflTransGen QuestMap.Move s.quests s'.quests := by
  rw [hs']
  exact .single (.edit hquest hedit)

theorem moves_startQuest (questId playerId : UInt32) :
    ReflTransGen QuestMap.Move s.quests (s.startQuest questId playerId).1.quests := by
  unfold startQuest
  by_cases hinit : s.initialized
  · rw [if_neg (not_not.mpr hinit)]
    cases hquest : s.getQuest questId with
    | none => exact .refl
    | some quest =>
      dsimp only
      split_ifs with hvalid
      · obtain ⟨hstate, hpre⟩ := of_validateQuestStart hquest hvalid
        refine moves_setQuest hquest rfl ⟨rfl, rfl, fun _ => Or.inl rfl, fun _ => Or.inr ?_,
          fun h => ?_, fun h => nomatch h⟩
        · exact completed_of_checkQuestPrerequisites hquest hpre
        · exact absurd (hstate.symm.trans h) (by decide)
      · exact .refl
  · rw [if_pos hinit]

theorem moves_completeQuest (questId playerId : UInt32) :
    ReflTransGen QuestMap.Move s.quests (s.completeQuest questId playerId).1.quests := by
  unfold completeQuest
  cases hquest : s.getQuest questId with
  | none => exact .refl
  | some quest =>
    dsimp only
    split_ifs with hstate hdone
    · exact .refl
    · have hobj := objectivesDone_of_isQuestComplete hquest hdone
      have hprog : quest.state = .inProgress := not_not.mp hstate
      exact moves_setQuest hquest rfl ⟨rfl, rfl, fun _ => Or.inr (Or.inl rfl),
        fun _ => Or.inl (Or.inl hprog), fun _ => ⟨rfl, rfl⟩, fun _ => Or.inr hobj⟩
    · exact .refl

theorem moves_abandonQuest (questId playerId : UInt32) :
    ReflTransGen QuestMap.Move s.quests (s.abandonQuest questId playerId).1.quests := by
  unfold abandonQuest
  cases hquest : s.getQuest questId with
  | none => exact .refl
  | some quest =>
    dsimp only
    split_ifs with hstate
    · exact .refl
    · have hprog : quest.state = .inProgress := not_not.mp hstate
      refine moves_setQuest hquest rfl ⟨rfl, rfl, fun _ => Or.inr (Or.inr rfl),
        fun _ => Or.inl (Or.inl hprog), fun h => ?_, fun h => nomatch h⟩
      exact absurd (hprog.symm.trans h) (by decide)

theorem moves_updateObjective (questId objectiveId progress : UInt32) :
    ReflTransGen QuestMap.Move s.quests
      (s.updateObjective questId objectiveId progress).1.quests := by
  unfold updateObjective
  cases hquest : s.getQuest questId with
  | none => exact .refl
  | some quest =>
    dsimp only
    split_ifs with hstate
    · exact .refl
    · cases advanceFirst objectiveId progress quest.objectives with
      | none => exact .refl
      | some objectives =>
        have hprog : quest.state = .inProgress := not_not.mp hstate
        exact moves_setQuest hquest rfl (.of_inProgress rfl rfl hprog hprog)

theorem moves_joinQuest (questId playerId : UInt32) :
    ReflTransGen QuestMap.Move s.quests (s.joinQuest questId playerId).1.quests := by
  unfold joinQuest
  cases hquest : s.getQuest questId with
  | none => exact .refl
  | some quest =>
    dsimp only
    split_ifs with hjoin
    · exact .refl
    · exact moves_setQuest hquest rfl (.of_eq rfl rfl rfl rfl)

theorem moves_leaveQuest (questId playerId : UInt32) :
    ReflTransGen QuestMap.Move s.quests (s.leaveQuest questId playerId).1.quests := by
  unfold leaveQuest
  cases hquest : s.getQuest questId with
  | none => exact .refl
  | some quest => exact moves_setQuest hquest rfl (.of_eq rfl rfl rfl rfl)

theorem moves_transferQuestOwnership (questId fromPlayer toPlayer : UInt32) :
    ReflTransGen QuestMap.Move s.quests
      (s.transferQuestOwnership questId fromPlayer toPlayer).1.quests := by
  unfold transferQuestOwnership
  cases hquest : s.getQuest questId with
  | none => exact .refl
  | some quest =>
    dsimp only
    split_ifs with howner hmem
    · exact .refl
    · exact moves_setQuest hquest rfl (.of_eq rfl rfl rfl rfl)
    · exact .refl

theorem moves_foldl {α : Type*} {f : CooperativeQuestSystem → α → CooperativeQuestSystem}
    (hf : ∀ s a, ReflTransGen QuestMap.Move s.quests (f s a).quests) (as : List α) :
    ReflTransGen QuestMap.Move s.quests (as.foldl f s).quests := by
  induction as generalizing s with
  | nil => exact .refl
  | cons a as ih => exact (hf s a).trans (ih (f s a))

theorem moves_updateObjectives (questId : UInt32) (objectives : List QuestObjective) :
    ReflTransGen QuestMap.Move s.quests (s.updateObjectives questId objectives).quests := by
  refine s.moves_foldl (fun s objective => ?_) objectives
  exact s.moves_updateObjective questId objective.objectiveId 1

theorem moves_processQuestTriggers (questId : UInt32) (triggerType : String) (playerId : UInt32) :
    ReflTransGen QuestMap.Move s.quests
      (s.processQuestTriggers questId triggerType playerId).quests := by
  unfold processQuestTriggers
  cases s.getQuest questId with
  | none => exact .refl
  | some quest => exact s.moves_updateObjectives questId _

theorem moves_onPlayerEnterArea (playerId : UInt32) (areaId : String) :
    ReflTransGen QuestMap.Move s.quests (s.onPlayerEnterArea playerId areaId).quests := by
  refine s.moves_foldl (fun s e => ?_) _
  dsimp only
  split_ifs
  · exact s.moves_processQuestTriggers ..
  · exact .refl

theorem moves_onPlayerEvent (type target : String) :
    ReflTransGen QuestMap.Move s.quests (s.onPlayerEvent type target).quests := by
  refine s.moves_foldl (fun s e => ?_) _
  dsimp only
  split_ifs
  · exact s.moves_updateObjectives ..
  · exact .refl

/-- Quests are added under fresh ids, and not yet started. -/
def Allowed (s : CooperativeQuestSystem) : QuestOp → Prop
  | .addQuest quest => s.quests.find? (s.assignedId quest) = none ∧
      (quest.state = .notStarted ∨ quest.state = .available)
  | _ => True

instance decidableAllowed (s : CooperativeQuestSystem) : ∀ op, Decidable (s.Allowed op)
  | .addQuest _ => inferInstanceAs (Decidable (_ ∧ _))
  | .startQuest .. | .joinQuest .. | .leaveQuest .. | .abandonQuest .. | .transferQuestOwnership ..
  | .completeQuest .. | .updateObjective .. | .onPlayerEnterArea .. | .onPlayerKillMonster ..
  | .onPlayerCollectItem .. | .onPlayerTalkToNpc .. | .onPlayerUseObject .. => isTrue trivial

theorem moves_questStep {op : QuestOp} (hop : s.Allowed op) :
    ReflTransGen QuestMap.Move s.quests (s.questStep op).quests := by
  cases op with
  | addQuest quest => exact s.moves_addQuest hop.1 hop.2
  | startQuest q p => exact s.moves_startQuest q p
  | joinQuest q p => exact s.moves_joinQuest q p
  | leaveQuest q p => exact s.moves_leaveQuest q p
  | abandonQuest q p => exact s.moves_abandonQuest q p
  | transferQuestOwnership q p₁ p₂ => exact s.moves_transferQuestOwnership q p₁ p₂
  | completeQuest q p => exact s.moves_completeQuest q p
  | updateObjective q o n => exact s.moves_updateObjective q o n
  | onPlayerEnterArea p a => exact s.moves_onPlayerEnterArea p a
  | onPlayerKillMonster p m => exact s.moves_onPlayerEvent "kill" m
  | onPlayerCollectItem p i => exact s.moves_onPlayerEvent "collect" (toString i.toNat)
  | onPlayerTalkToNpc p n => exact s.moves_onPlayerEvent "talk" n
  | onPlayerUseObject p o => exact s.moves_onPlayerEvent "use" o

end CooperativeQuestSystem

namespace QuestMap

structure Sound (m : QuestMap) : Prop where
  keyed : ∀ questId quest, m.find? questId = some quest → quest.questId = questId
  done : ∀ questId quest, m.find? questId = some quest → quest.state = .completed →
    quest.ObjectivesDone
  required : ∀ questId quest, m.find? questId = some quest → quest.Started →
    ∀ r ∈ quest.requiredQuests, m.Completed r
  orderly : Orderly m.Requires m.started

theorem sound_empty : Sound .empty where
  keyed _ _ h := nomatch h
  done _ _ h := nomatch h
  required _ _ h := nomatch h
  orderly := by
    have hstarted : started .empty = ∅ := Set.eq_empty_of_forall_notMem fun _ ⟨_, h, _⟩ => nomatch h
    rw [hstarted]
    exact orderly_empty

structure Onward (m m' : QuestMap) : Prop where
  completed : ∀ questId, m.Completed questId → m'.Completed questId
  started : m.started ⊆ m'.started

theorem Onward.refl (m : QuestMap) : Onward m m := ⟨fun _ h => h, subset_rfl⟩

theorem Onward.trans {m m' m'' : QuestMap} (h : Onward m m') (h' : Onward m' m'') : Onward m m'' :=
  ⟨fun q hq => h'.completed q (h.completed q hq), h.started.trans h'.started⟩

theorem Completed.started {m : QuestMap} {questId : UInt32} (h : m.Completed questId) :
    questId ∈ m.started := by
  obtain ⟨quest, hquest, hstate⟩ := h
  exact ⟨quest, hquest, Or.inr (Or.inl hstate)⟩

theorem requires_insert {m : QuestMap} {questId : UInt32} {quest : QuestData} {a b : UInt32} :
    Requires (m.insert questId quest) a b ↔
      if questId = a then b ∈ quest.requiredQuests else m.Requires a b := by
  unfold Requires
  rw [OrdMap.find?_insert]
  split_ifs with h
  · simp
  · rfl

theorem mem_started_insert {m : QuestMap} {questId a : UInt32} {quest : QuestData} :
    a ∈ started (m.insert questId quest) ↔ if questId = a then quest.Started else a ∈ m.started := by
  unfold started
  rw [Set.mem_ofPred_eq, OrdMap.find?_insert]
  split_ifs with h
  · simp
  · rfl

theorem completed_insert {m : QuestMap} {questId a : UInt32} {quest : QuestData} :
    Completed (m.insert questId quest) a ↔
      if questId = a then quest.state = .completed else m.Completed a := by
  unfold Completed
  rw [OrdMap.find?_insert]
  split_ifs with h
  · simp
  · rfl

variable {m m' : QuestMap}

theorem onward_add {quest : QuestData} (hfresh : m.find? quest.questId = none) :
    Onward m (m.insert quest.questId quest) where
  completed a ha := by
    obtain ⟨old, hold, -⟩ := id ha
    rw [completed_insert, if_neg fun heq => by rw [← heq, hfresh] at hold; exact nomatch hold]
    exact ha
  started a ha := by
    obtain ⟨old, hold, -⟩ := id ha
    rw [mem_started_insert, if_neg fun heq => by rw [← heq, hfresh] at hold; exact nomatch hold]
    exact ha

theorem onward_edit {questId : UInt32} {quest quest' : QuestData}
    (hquest : m.find? questId = some quest) (hedit : m.Edit quest quest') :
    Onward m (m.insert questId quest') where
  completed a ha := by
    rw [completed_insert]
    split_ifs with heq
    · obtain ⟨old, hold, hstate⟩ := ha
      obtain rfl : quest = old := Option.some.inj (hquest.symm.trans (heq ▸ hold))
      exact (hedit.stays hstate).1
    · exact ha
  started a ha := by
    rw [mem_started_insert]
    split_ifs with heq
    · obtain ⟨old, hold, hstate⟩ := ha
      obtain rfl : quest = old := Option.some.inj (hquest.symm.trans (heq ▸ hold))
      exact hedit.keeps hstate
    · exact ha

theorem Sound.add (h : Sound m) {quest : QuestData} (hfresh : m.find? quest.questId = none)
    (hstate : quest.state = .notStarted ∨ quest.state = .available) :
    Sound (m.insert quest.questId quest) := by
  have hnot : ¬ quest.Started := by
    unfold QuestData.Started
    rcases hstate with h | h <;> simp [h]
  refine ⟨fun a q hq => ?_, fun a q hq hdone => ?_, fun a q hq hst r hr => ?_, ?_⟩
  · rw [OrdMap.find?_insert] at hq
    split_ifs at hq with heq
    · exact Option.some.inj hq ▸ heq
    · exact h.keyed a q hq
  · rw [OrdMap.find?_insert] at hq
    split_ifs at hq with heq
    · obtain rfl := Option.some.inj hq
      exact absurd (Or.inr (Or.inl hdone)) hnot
    · exact h.done a q hq hdone
  · rw [OrdMap.find?_insert] at hq
    split_ifs at hq with heq
    · obtain rfl := Option.some.inj hq
      exact absurd hst hnot
    · exact (onward_add hfresh).completed r (h.required a q hq hst r hr)
  · have hsame : started (m.insert quest.questId quest) = m.started := by
      ext a
      rw [mem_started_insert]
      split_ifs with heq
      · refine iff_of_false hnot ?_
        rintro ⟨old, hold, -⟩
        rw [← heq, hfresh] at hold
        exact nomatch hold
      · rfl
    rw [hsame]
    refine h.orderly.congr fun a ha b hab => ?_
    rw [requires_insert] at hab
    split_ifs at hab with heq
    · obtain ⟨old, hold, -⟩ := ha
      rw [← heq, hfresh] at hold
      exact nomatch hold
    · exact hab

theorem Sound.edit (h : Sound m) {questId : UInt32} {quest quest' : QuestData}
    (hquest : m.find? questId = some quest) (hedit : m.Edit quest quest') :
    Sound (m.insert questId quest') := by
  have hreq (hst : quest'.Started) : ∀ r ∈ quest.requiredQuests, m.Completed r := by
    rcases hedit.starts hst with hold | hnew
    · exact h.required questId quest hquest hold
    · exact hnew
  have hrequires : (Requires (m.insert questId quest')) = m.Requires := by
    funext a b
    refine propext (requires_insert.trans ?_)
    split_ifs with heq
    · subst heq
      simp [Requires, hquest, hedit.required]
    · rfl
  refine ⟨fun a q hq => ?_, fun a q hq hdone => ?_, fun a q hq hst r hr => ?_, ?_⟩
  · rw [OrdMap.find?_insert] at hq
    split_ifs at hq with heq
    · obtain rfl := Option.some.inj hq
      exact (hedit.id.trans (h.keyed questId quest hquest)).trans heq
    · exact h.keyed a q hq
  · rw [OrdMap.find?_insert] at hq
    split_ifs at hq with heq
    · obtain rfl := Option.some.inj hq
      rcases hedit.completes hdone with hold | hobj
      · rw [QuestData.ObjectivesDone, (hedit.stays hold).2]
        exact h.done questId quest hquest hold
      · exact hobj
    · exact h.done a q hq hdone
  · refine (onward_edit hquest hedit).completed r ?_
    rw [OrdMap.find?_insert] at hq
    split_ifs at hq with heq
    · obtain rfl := Option.some.inj hq
      exact hreq hst r (hedit.required ▸ hr)
    · exact h.required a q hq hst r hr
  · rw [hrequires]
    by_cases hst : quest'.Started
    · have hins : started (m.insert questId quest') = insert questId m.started := by
        ext a
        rw [mem_started_insert, Set.mem_insert_iff]
        split_ifs with heq
        · exact iff_of_true hst (Or.inl heq.symm)
        · simp [show a ≠ questId from fun h => heq h.symm]
      rw [hins]
      refine h.orderly.insert ?_
      rintro b ⟨old, hold, hb⟩
      obtain rfl : quest = old := Option.some.inj (hquest.symm.trans hold)
      exact (hreq hst b hb).started
    · have hsame : started (m.insert questId quest') = m.started := by
        ext a
        rw [mem_started_insert]
        split_ifs with heq
        · refine iff_of_false hst ?_
          rintro ⟨old, hold, hold'⟩
          obtain rfl : quest = old := Option.some.inj (hquest.symm.trans (heq ▸ hold))
          exact hst (hedit.keeps hold')
        · rfl
      rw [hsame]
      exact h.orderly

theorem Sound.moves (h : Sound m) (hm : ReflTransGen Move m m') : Sound m' ∧ Onward m m' := by
  induction hm with
  | refl => exact ⟨h, .refl m⟩
  | tail _ hmove ih =>
    obtain ⟨hs, ho⟩ := ih
    cases hmove with
    | add hfresh hstate => exact ⟨hs.add hfresh hstate, ho.trans (onward_add hfresh)⟩
    | edit hquest hedit => exact ⟨hs.edit hquest hedit, ho.trans (onward_edit hquest hedit)⟩

end QuestMap

namespace CooperativeQuestSystem

theorem moves_run {s : CooperativeQuestSystem} {ops : List QuestOp}
    (h : Run.Along questStep Allowed s ops) :
    ReflTransGen QuestMap.Move s.quests (Run.run questStep s ops).quests := by
  induction ops generalizing s with
  | nil => exact .refl
  | cons op ops ih => exact (s.moves_questStep h.1).trans (ih h.2)

theorem questId_of_run (initialized : Bool) {ops : List QuestOp}
    (h : Run.Along questStep Allowed { initialized := initialized } ops) {questId : UInt32}
    {quest : QuestData}
    (hquest : (Run.run questStep { initialized := initialized } ops).getQuest questId = some quest) :
    quest.questId = questId :=
  (QuestMap.sound_empty.moves (moves_run h)).1.keyed questId quest hquest

/-- At any time of a run: what is started had all it requires completed, what is completed has
its objectives done and stays completed to the end of the run, and nothing that in the end
lies on a cycle of requirements is started. -/
theorem started_in_order (initialized : Bool) {ops later : List QuestOp}
    (h : Run.Along questStep Allowed { initialized := initialized } (ops ++ later)) :
    let s := Run.run questStep { initialized := initialized } ops
    let s' := Run.run questStep s later
    (∀ questId quest, s.getQuest questId = some quest →
      (quest.state = .inProgress ∨ quest.state = .completed) →
      ∀ r ∈ quest.requiredQuests, ∃ required, s.getQuest r = some required ∧
        required.state = .completed) ∧
    (∀ questId quest, s.getQuest questId = some quest → quest.state = .completed →
      (∀ o ∈ quest.objectives, ¬ o.isOptional → o.isCompleted) ∧
      ∃ quest', s'.getQuest questId = some quest' ∧ quest'.state = .completed) ∧
    (∀ questId, TransGen (QuestMap.Requires s'.quests) questId questId →
      ∀ quest, s.getQuest questId = some quest → ¬ quest.Started) := by
  intro s s'
  have hmoves : ReflTransGen QuestMap.Move OrdMap.empty s.quests :=
    moves_run (Run.along_append_iff.mp h).1
  have hmoves' : ReflTransGen QuestMap.Move s.quests s'.quests :=
    moves_run (Run.along_append_iff.mp h).2
  obtain ⟨hsound, -⟩ := QuestMap.sound_empty.moves hmoves
  obtain ⟨hsound', honward⟩ := hsound.moves hmoves'
  refine ⟨fun q quest hq hst r hr => ?_, fun q quest hq hdone => ⟨?_, ?_⟩, fun q hcycle quest hq hst => ?_⟩
  · exact hsound.required q quest hq (hst.imp_right Or.inl) r hr
  · exact hsound.done q quest hq hdone
  · exact honward.completed q ⟨quest, hq, hdone⟩
  · exact hsound'.orderly.not_cycle (honward.started ⟨quest, hq, hst⟩) .refl hcycle

theorem started_in_order_second :
    let s := Run.run questStep { initialized := true }
      [.addQuest { questId := 1, state := .available },
       .addQuest { questId := 2, state := .available, requiredQuests := [1] },
       .startQuest 2 7, .startQuest 1 7, .completeQuest 1 7, .startQuest 2 7]
    (s.getQuest 2).map QuestData.state = some .inProgress ∧
      ∀ questId quest, s.getQuest questId = some quest →
        (quest.state = .inProgress ∨ quest.state = .completed) →
        ∀ r ∈ quest.requiredQuests, ∃ required, s.getQuest r = some required ∧
          required.state = .completed :=
  ⟨by decide +kernel,
    (@started_in_order true
      [.addQuest { questId := 1, state := .available },
       .addQuest { questId := 2, state := .available, requiredQuests := [1] },
       .startQuest 2 7, .startQuest 1 7, .completeQuest 1 7, .startQuest 2 7] []
      (by decide +kernel)).1⟩

end CooperativeQuestSystem
end WitcherMP.Quests
