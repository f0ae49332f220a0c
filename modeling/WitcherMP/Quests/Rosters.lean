import WitcherMP.Quests.Defs
import WitcherMP.Lib.Run
import Mathlib.Data.List.Count

/-! The quests of each player against the participants of each quest: two lists that say the
same as long as no call rewrites one of them alone. -/

namespace WitcherMP.Quests
namespace CooperativeQuestSystem

def removeQuest (s : CooperativeQuestSystem) (questId : UInt32) : CooperativeQuestSystem :=
  match s.getQuest questId with
  | none => s
  | some _ => { s with quests := s.quests.erase questId }

inductive RosterOp
  | addQuest (quest : QuestData)
  | removeQuest (questId : UInt32)
  | startQuest (questId playerId : UInt32)
  | joinQuest (questId playerId : UInt32)
  | leaveQuest (questId playerId : UInt32)
  | abandonQuest (questId playerId : UInt32)
  | synchronizeQuest (questId : UInt32) (syncData : QuestSyncData)

def rosterStep (s : CooperativeQuestSystem) : RosterOp → CooperativeQuestSystem
  | .addQuest quest => s.addQuest quest
  | .removeQuest q => s.removeQuest q
  | .startQuest q p => (s.startQuest q p).1
  | .joinQuest q p => (s.joinQuest q p).1
  | .leaveQuest q p => (s.leaveQuest q p).1
  | .abandonQuest q p => (s.abandonQuest q p).1
  | .synchronizeQuest q d => s.synchronizeQuest q d

def RosterOp.Unattended : RosterOp → Prop
  | .addQuest quest => quest.participants = []
  | _ => True

instance : DecidablePred RosterOp.Unattended
  | .addQuest _ => inferInstanceAs (Decidable (_ = _))
  | .removeQuest .. | .startQuest .. | .joinQuest .. | .leaveQuest .. | .abandonQuest ..
  | .synchronizeQuest .. => isTrue trivial

def questsOf (s : CooperativeQuestSystem) (playerId : UInt32) : List UInt32 :=
  s.playerQuests.getD playerId []

def participants (s : CooperativeQuestSystem) (questId : UInt32) : List UInt32 :=
  (s.getQuest questId).elim [] QuestData.participants

def Mirrored (s : CooperativeQuestSystem) : Prop :=
  ∀ questId playerId, questId ∈ s.questsOf playerId ↔
    ∃ quest, s.getQuest questId = some quest ∧ playerId ∈ quest.participants

section Lists
variable {s : CooperativeQuestSystem} {q q' p p' : UInt32} {quest : QuestData}

theorem participants_of_getQuest (h : s.getQuest q = some quest) :
    s.participants q = quest.participants := by rw [participants, h, Option.elim_some]

theorem participants_of_none (h : s.getQuest q = none) : s.participants q = [] := by
  rw [participants, h, Option.elim_none]

theorem mem_participants :
    p ∈ s.participants q ↔ ∃ quest, s.getQuest q = some quest ∧ p ∈ quest.participants := by
  cases h : s.getQuest q with
  | none => simp [participants_of_none h]
  | some quest => simp [participants_of_getQuest h]

theorem mirrored_iff : s.Mirrored ↔ ∀ q p, q ∈ s.questsOf p ↔ p ∈ s.participants q :=
  forall_congr' fun _ => forall_congr' fun _ => by rw [mem_participants]

theorem questsOf_addToPlayerQuests : (s.addToPlayerQuests p q).questsOf p'
    = if p = p' then s.questsOf p ++ [q] else s.questsOf p' := OrdMap.getD_insert ..

theorem questsOf_removeFromPlayerQuests : (s.removeFromPlayerQuests p q).questsOf p'
    = if p = p' then (s.questsOf p).erase q else s.questsOf p' := OrdMap.getD_insert ..

theorem participants_of_insert {m : OrdMap UInt32 QuestData} (h : s.quests = m.insert q quest) :
    s.participants q' = if q = q' then quest.participants
      else (m.find? q').elim [] QuestData.participants := by
  rw [participants, getQuest, h, OrdMap.find?_insert]
  split_ifs <;> rfl

theorem two_le_count_iff {l : List UInt32} {a : UInt32} : a ∈ l.erase a ↔ 2 ≤ l.count a := by
  rw [← List.count_pos_iff, List.count_erase_self]
  omega

end Lists

section Step
variable {s s' : CooperativeQuestSystem} {q p : UInt32}

section Touched
variable (q)

theorem Mirrored.iff_at (h : s.Mirrored)
    (hlists : ∀ q' p, q ≠ q' → (q' ∈ s'.questsOf p ↔ q' ∈ s.questsOf p))
    (hparts : ∀ q', q ≠ q' → s'.participants q' = s.participants q') :
    s'.Mirrored ↔ ∀ p, q ∈ s'.questsOf p ↔ p ∈ s'.participants q := by
  rw [mirrored_iff] at h ⊢
  constructor
  · exact fun h' => h' q
  · intro h' q' p
    by_cases hq : q = q'
    · exact hq ▸ h' p
    · rw [hlists q' p hq, hparts q' hq, h]

theorem Mirrored.iff_replaced (h : s.Mirrored) (hlists : s'.playerQuests = s.playerQuests)
    (hparts : ∀ q', q ≠ q' → s'.participants q' = s.participants q') :
    s'.Mirrored ↔ ∀ p, p ∈ s.participants q ↔ p ∈ s'.participants q := by
  have hof (p : UInt32) : s'.questsOf p = s.questsOf p := by rw [questsOf, hlists, questsOf]
  rw [h.iff_at q (fun q' p _ => by rw [hof]) hparts]
  refine forall_congr' fun p => ?_
  rw [hof, mirrored_iff.mp h]

theorem Mirrored.iff_emptied (h : s.Mirrored) (hlists : s'.playerQuests = s.playerQuests)
    (hparts : ∀ q', q ≠ q' → s'.participants q' = s.participants q')
    (hnil : s'.participants q = []) : s'.Mirrored ↔ s.participants q = [] := by
  rw [h.iff_replaced q hlists hparts, hnil, List.eq_nil_iff_forall_not_mem]
  simp only [List.not_mem_nil, iff_false]

end Touched

theorem Mirrored.added (h : s.Mirrored) {quest quest' : QuestData} (hq : s.getQuest q = some quest)
    (hquest' : quest'.participants = quest.participants ++ [p]) :
    ((s.setQuest q quest').addToPlayerQuests p q).Mirrored := by
  have hparts (q' : UInt32) : ((s.setQuest q quest').addToPlayerQuests p q).participants q'
      = if q = q' then quest'.participants else s.participants q' := participants_of_insert rfl
  have hlists (p' : UInt32) : ((s.setQuest q quest').addToPlayerQuests p q).questsOf p'
      = if p = p' then s.questsOf p ++ [q] else s.questsOf p' := questsOf_addToPlayerQuests
  refine (h.iff_at q (fun q' p' hne => ?_) fun q' hne => ?_).mpr fun p' => ?_
  · rw [hlists]
    split_ifs with hp
    · simp [hp, Ne.symm hne]
    · rfl
  · rw [hparts, if_neg hne]
  · rw [hlists, hparts, if_pos rfl, hquest', ← participants_of_getQuest hq]
    split_ifs with hp
    · simp [hp]
    · simp [Ne.symm hp, mirrored_iff.mp h q p']

def EvenlyListed (s : CooperativeQuestSystem) (q p : UInt32) : Prop :=
  2 ≤ (s.participants q).count p ↔ 2 ≤ (s.questsOf p).count q

instance (q p : UInt32) : Decidable (s.EvenlyListed q p) := inferInstanceAs (Decidable (_ ↔ _))

theorem Mirrored.iff_removed (h : s.Mirrored) {quest quest' : QuestData}
    (hq : s.getQuest q = some quest) (hquest' : quest'.participants = quest.participants.erase p)
    (hs' : s'.quests = s.quests.insert q quest')
    (hlists : ∀ p', s'.questsOf p' = if p = p' then (s.questsOf p).erase q else s.questsOf p') :
    s'.Mirrored ↔ s.EvenlyListed q p := by
  have hparts (q' : UInt32) : s'.participants q'
      = if q = q' then quest'.participants else s.participants q' := participants_of_insert hs'
  rw [h.iff_at q (fun q' p' hne => ?_) fun q' hne => by rw [hparts, if_neg hne]]
  · rw [EvenlyListed, ← two_le_count_iff, ← two_le_count_iff, participants_of_getQuest hq, hparts,
      if_pos rfl, hquest']
    constructor
    · intro h'
      have hp := h' p
      rw [hlists, if_pos rfl] at hp
      exact hp.symm
    · intro heven p'
      rw [hlists]
      split_ifs with hp
      · exact hp ▸ heven.symm
      · rw [List.mem_erase_of_ne (Ne.symm hp), mirrored_iff.mp h, participants_of_getQuest hq]
  · rw [hlists]
    split_ifs with hp
    · rw [List.mem_erase_of_ne (Ne.symm hne), hp]
    · rfl

end Step

/-- No quest with participants is removed or replaced, and a snapshot brings the members that
are there. -/
def Attended (s : CooperativeQuestSystem) : RosterOp → Prop
  | .addQuest quest => s.initialized → s.participants (s.assignedId quest) = []
  | .removeQuest q => s.participants q = []
  | .startQuest _ _ | .joinQuest _ _ => True
  | .leaveQuest q p => s.EvenlyListed q p
  | .abandonQuest q p => ∀ quest ∈ s.getQuest q, quest.state = .inProgress → s.EvenlyListed q p
  | .synchronizeQuest q d => ∀ quest ∈ s.getQuest q,
      quest.participants ⊆ d.participants ∧ d.participants ⊆ quest.participants

instance decidableAttended (s : CooperativeQuestSystem) : ∀ op, Decidable (s.Attended op)
  | .addQuest _ => inferInstanceAs (Decidable (_ → _))
  | .removeQuest _ => inferInstanceAs (Decidable (_ = _))
  | .startQuest _ _ | .joinQuest _ _ => isTrue trivial
  | .leaveQuest _ _ => inferInstanceAs (Decidable (EvenlyListed _ _ _))
  | .abandonQuest _ _ => inferInstanceAs (Decidable (∀ quest ∈ _, _ → _))
  | .synchronizeQuest _ _ => inferInstanceAs (Decidable (∀ quest ∈ _, _ ∧ _))

variable {s : CooperativeQuestSystem}

theorem addQuest_spec (hinit : s.initialized) (quest : QuestData) :
    (s.addQuest quest).quests = s.quests.insert (s.assignedId quest)
        { quest with questId := s.assignedId quest } ∧
      (s.addQuest quest).playerQuests = s.playerQuests := by
  rw [addQuest, if_neg (not_not.mpr hinit)]
  exact ⟨rfl, rfl⟩

theorem Mirrored.addQuest_iff (h : s.Mirrored) {quest : QuestData} (hnil : quest.participants = []) :
    (s.addQuest quest).Mirrored ↔ s.Attended (.addQuest quest) := by
  rw [Attended]
  by_cases hinit : s.initialized
  · obtain ⟨hquests, hlists⟩ := addQuest_spec hinit quest
    rw [forall_prop_of_true hinit]
    refine h.iff_emptied (s.assignedId quest) hlists (fun q' hne => ?_) ?_
    · exact (participants_of_insert hquests).trans (if_neg hne)
    · exact (participants_of_insert hquests).trans ((if_pos rfl).trans hnil)
  · rw [addQuest, if_pos hinit]
    exact iff_of_true h fun h' => absurd h' hinit

theorem Mirrored.removeQuest_iff (h : s.Mirrored) (q : UInt32) :
    (s.removeQuest q).Mirrored ↔ s.participants q = [] := by
  unfold removeQuest
  cases hq : s.getQuest q with
  | none => exact iff_of_true h (participants_of_none hq)
  | some quest =>
    have hparts (q' : UInt32) : CooperativeQuestSystem.participants
        { s with quests := s.quests.erase q } q' = if q = q' then [] else s.participants q' := by
      rw [participants, getQuest, OrdMap.find?_erase]
      split_ifs <;> rfl
    exact h.iff_emptied q rfl (fun q' hne => (hparts q').trans (if_neg hne))
      ((hparts q).trans (if_pos rfl))

theorem Mirrored.startQuest (h : s.Mirrored) (q p : UInt32) : (s.startQuest q p).1.Mirrored := by
  unfold CooperativeQuestSystem.startQuest
  by_cases hinit : s.initialized
  · rw [if_neg (not_not.mpr hinit)]
    cases hq : s.getQuest q with
    | none => exact h
    | some quest =>
      dsimp only
      split_ifs
      · exact h.added hq rfl
      · exact h
  · rwa [if_pos hinit]

theorem Mirrored.joinQuest (h : s.Mirrored) (q p : UInt32) : (s.joinQuest q p).1.Mirrored := by
  unfold CooperativeQuestSystem.joinQuest
  cases hq : s.getQuest q with
  | none => exact h
  | some quest =>
    dsimp only
    split_ifs
    · exact h
    · exact h.added hq rfl

theorem Mirrored.leaveQuest_iff (h : s.Mirrored) (q p : UInt32) :
    (s.leaveQuest q p).1.Mirrored ↔ s.EvenlyListed q p := by
  unfold leaveQuest
  cases hq : s.getQuest q with
  | none =>
    have hnot : q ∉ s.questsOf p := by
      rw [mirrored_iff.mp h, participants_of_none hq]
      exact List.not_mem_nil
    refine iff_of_true h ?_
    rw [EvenlyListed, participants_of_none hq, List.count_eq_zero_of_not_mem hnot, List.count_nil]
  | some quest => exact h.iff_removed hq rfl rfl fun p' => questsOf_removeFromPlayerQuests

theorem Mirrored.abandonQuest_iff (h : s.Mirrored) (q p : UInt32) :
    (s.abandonQuest q p).1.Mirrored ↔ s.Attended (.abandonQuest q p) := by
  unfold abandonQuest
  cases hq : s.getQuest q with
  | none => exact iff_of_true h (by simp [Attended, hq])
  | some quest =>
    have hatt : s.Attended (.abandonQuest q p) ↔ (quest.state = .inProgress → s.EvenlyListed q p) := by
      simp [Attended, hq]
    rw [hatt]
    dsimp only
    split_ifs with hstate
    · exact iff_of_true h fun hprog => absurd hprog hstate
    · have hprog : quest.state = .inProgress := not_not.mp hstate
      rw [forall_prop_of_true hprog]
      let abandoned : QuestData := { quest with
        state := .abandoned, participants := quest.participants.erase p }
      have herase : abandoned.participants = quest.participants.erase p := rfl
      exact h.iff_removed hq herase rfl fun p' => questsOf_removeFromPlayerQuests

theorem Mirrored.synchronizeQuest_iff (h : s.Mirrored) (q : UInt32) (d : QuestSyncData) :
    (s.synchronizeQuest q d).Mirrored ↔ s.Attended (.synchronizeQuest q d) := by
  unfold synchronizeQuest
  cases hq : s.getQuest q with
  | none => exact iff_of_true h (by simp [Attended, hq])
  | some quest =>
    let quest' : QuestData := { quest with
      state := d.state, objectives := d.objectives, participants := d.participants
      syncOwner := d.syncOwner }
    have hparts (q' : UInt32) : (s.setQuest q quest').participants q'
        = if q = q' then quest'.participants else s.participants q' := participants_of_insert rfl
    have hatt : s.Attended (.synchronizeQuest q d) ↔
        quest.participants ⊆ d.participants ∧ d.participants ⊆ quest.participants := by
      simp [Attended, hq]
    rw [hatt]
    have hiff : (s.setQuest q quest').Mirrored ↔
        ∀ p, p ∈ s.participants q ↔ p ∈ (s.setQuest q quest').participants q :=
      h.iff_replaced q rfl fun q' hne => (hparts q').trans (if_neg hne)
    refine hiff.trans ?_
    rw [participants_of_getQuest hq, (hparts q).trans (if_pos rfl)]
    constructor
    · exact fun hsame => ⟨fun p => (hsame p).mp, fun p => (hsame p).mpr⟩
    · exact fun ⟨hsub, hsup⟩ p => ⟨@hsub p, @hsup p⟩

theorem Mirrored.step_iff (h : s.Mirrored) {op : RosterOp} (hop : op.Unattended) :
    (s.rosterStep op).Mirrored ↔ s.Attended op := by
  cases op with
  | addQuest quest => exact h.addQuest_iff hop
  | removeQuest q => exact h.removeQuest_iff q
  | startQuest q p => exact iff_of_true (h.startQuest q p) trivial
  | joinQuest q p => exact iff_of_true (h.joinQuest q p) trivial
  | leaveQuest q p => exact h.leaveQuest_iff q p
  | abandonQuest q p => exact h.abandonQuest_iff q p
  | synchronizeQuest q d => exact h.synchronizeQuest_iff q d

theorem mirrored_initial (initialized : Bool) (maxGroupSize : UInt32) :
    Mirrored { initialized := initialized, maxGroupSize := maxGroupSize } := by
  intro q p
  constructor
  · exact fun h => nomatch h
  · rintro ⟨quest, hq, -⟩
    cases hq

/-- In every state of a run the lists of the players mirror those of the quests, if and only
if no call of the run rewrites the participants of a quest behind the players' lists. -/
theorem mirrored_along_iff (initialized : Bool) (maxGroupSize : UInt32) {ops : List RosterOp}
    (hops : ∀ op ∈ ops, op.Unattended) :
    let s : CooperativeQuestSystem := { initialized := initialized, maxGroupSize := maxGroupSize }
    Run.Along rosterStep (fun s op => (s.rosterStep op).Mirrored) s ops ↔
      Run.Along rosterStep Attended s ops := by
  intro s
  exact Run.along_iff_of_step (K := fun _ => True)
    (fun _ _ _ hm hop => ⟨trivial, hm.step_iff hop⟩) trivial
    (mirrored_initial initialized maxGroupSize) (Run.along_of_forall s hops)

theorem mirrored_along_emptied :
    let s : CooperativeQuestSystem := { initialized := true, maxGroupSize := 4 }
    let ops : List RosterOp :=
      [.addQuest { questId := 1, state := .available, isCooperative := true, maxParticipants := 2 },
       .startQuest 1 7, .joinQuest 1 8, .leaveQuest 1 7, .leaveQuest 1 8, .removeQuest 1]
    Run.Along rosterStep (fun s op => (s.rosterStep op).Mirrored) s ops :=
  (mirrored_along_iff true 4 (by decide)).mpr (by decide +kernel)

theorem not_mirrored_removed :
    let ops : List RosterOp :=
      [.addQuest { questId := 1, state := .available }, .startQuest 1 7, .removeQuest 1]
    (∀ op ∈ ops, op.Unattended) ∧ ¬ Mirrored (Run.run rosterStep { initialized := true } ops) := by
  refine ⟨by decide, fun h => ?_⟩
  obtain ⟨quest, hquest, -⟩ := (h 1 7).mp (by decide +kernel)
  have hnone : (Run.run rosterStep { initialized := true } [.addQuest
      { questId := 1, state := .available }, .startQuest 1 7, .removeQuest 1]).getQuest 1 = none := by
    decide +kernel
  exact absurd (hnone.symm.trans hquest) (Option.some_ne_none quest).symm

end CooperativeQuestSystem
end WitcherMP.Quests
