import WitcherMP.Story.Defs
import WitcherMP.Lib.Run
import Mathlib.Data.List.Nodup

/-! The quests that a story has completed and those it offers. Completing a quest looks at both
lists, moving the story on looks at one of them. -/

namespace WitcherMP.Story

def StoryProgressionData.Separate (progression : StoryProgressionData) : Prop :=
  progression.completedQuests.Nodup ∧ progression.availableQuests.Nodup ∧
    ∀ questId ∈ progression.completedQuests, questId ∉ progression.availableQuests

instance (progression : StoryProgressionData) : Decidable progression.Separate :=
  inferInstanceAs (Decidable (_ ∧ _))

namespace SharedStoryMode

inductive QuestOp
  | session (op : Op)
  | startStoryQuest (sessionId : UInt32) (questId : String)
  | completeStoryQuest (sessionId : UInt32) (questId : String)
  | advanceStoryProgression (sessionId : UInt32) (nextQuestId : String)

def questStep (s : SharedStoryMode) : QuestOp → SharedStoryMode
  | .session op => s.step op
  | .startStoryQuest id q => (s.startStoryQuest id q).1
  | .completeStoryQuest id q => (s.completeStoryQuest id q).1
  | .advanceStoryProgression id q => (s.advanceStoryProgression id q).1

def AllSeparate (s : SharedStoryMode) : Prop := ∀ id, (s.storyProgression id).Separate

/-- The story is not moved on to a quest that it has completed. -/
def GoesOn (s : SharedStoryMode) : QuestOp → Prop
  | .advanceStoryProgression id q => ∀ session, s.getStorySession id = some session →
    session.isActive → q ∉ (s.storyProgression id).completedQuests
  | _ => True

variable {s : SharedStoryMode} {progression : StoryProgressionData}

theorem separate_empty (sessionId : UInt32) :
    StoryProgressionData.Separate { sessionId := sessionId } :=
  ⟨List.nodup_nil, List.nodup_nil, fun _ h => absurd h List.not_mem_nil⟩

theorem nodup_insertNew {l : List String} (h : l.Nodup) (q : String) :
    (if l.contains q then l else l ++ [q]).Nodup := by
  split_ifs with hq
  · exact h
  · rw [← List.concat_eq_append]
    exact h.concat fun hmem => hq (List.contains_iff_mem.mpr hmem)

theorem mem_insertNew {l : List String} {q q' : String} :
    q' ∈ (if l.contains q then l else l ++ [q]) ↔ q' ∈ l ∨ q' = q := by
  split_ifs with hq
  · refine ⟨Or.inl, fun h => h.elim id fun heq => ?_⟩
    exact heq ▸ List.contains_iff_mem.mp hq
  · rw [List.mem_append, List.mem_singleton]

theorem StoryProgressionData.Separate.completed (h : progression.Separate) (q : String) :
    StoryProgressionData.Separate { progression with
      completedQuests := if progression.completedQuests.contains q
        then progression.completedQuests else progression.completedQuests ++ [q]
      availableQuests := progression.availableQuests.erase q } := by
  obtain ⟨hcompleted, havailable, hseparate⟩ := h
  refine ⟨nodup_insertNew hcompleted q, havailable.erase q, fun q' hq' hmem => ?_⟩
  obtain ⟨hne, hmem⟩ := havailable.mem_erase_iff.mp hmem
  exact hseparate q' ((mem_insertNew.mp hq').resolve_right hne) hmem

theorem StoryProgressionData.Separate.advanced_iff (h : progression.Separate) (q : String) :
    StoryProgressionData.Separate { progression with
      availableQuests := if progression.availableQuests.contains q
        then progression.availableQuests else progression.availableQuests ++ [q] } ↔
      q ∉ progression.completedQuests := by
  obtain ⟨hcompleted, havailable, hseparate⟩ := h
  constructor
  · rintro ⟨-, -, hafter⟩ hq
    exact hafter q hq (mem_insertNew.mpr (Or.inr rfl))
  · intro hq
    refine ⟨hcompleted, nodup_insertNew havailable q, fun q' hq' hmem => ?_⟩
    rcases mem_insertNew.mp hmem with hmem | rfl
    · exact hseparate q' hq' hmem
    · exact hq hq'

theorem storyProgression_set (s : SharedStoryMode) (id id' : UInt32)
    (progression : StoryProgressionData) :
    (s.setStoryProgression id progression).storyProgression id'
      = if id = id' then progression else s.storyProgression id' := OrdMap.getD_insert ..

theorem AllSeparate.congr {s' : SharedStoryMode} (h : AllSeparate s)
    (hs' : s'.storyProgressions = s.storyProgressions) : AllSeparate s' := by
  intro id
  rw [storyProgression, hs']
  exact h id

theorem AllSeparate.set_iff (h : AllSeparate s) (id : UInt32) :
    AllSeparate (s.setStoryProgression id progression) ↔ progression.Separate := by
  constructor
  · intro hs
    have hid := hs id
    rwa [storyProgression_set, if_pos rfl] at hid
  · intro hprogression id'
    rw [storyProgression_set]
    split_ifs
    · exact hprogression
    · exact h id'

@[simp] theorem storyProgressions_endStorySession (s : SharedStoryMode) (id : UInt32) :
    (s.endStorySession id).1.storyProgressions = s.storyProgressions := by
  unfold endStorySession
  split <;> rfl

@[simp] theorem storyProgressions_leaveStorySession (s : SharedStoryMode) (id p : UInt32) :
    (s.leaveStorySession id p).1.storyProgressions = s.storyProgressions := by
  unfold leaveStorySession
  split
  · rfl
  · dsimp only
    split_ifs
    · exact storyProgressions_endStorySession ..
    · rfl

theorem AllSeparate.step (h : AllSeparate s) (op : Op) : AllSeparate (s.step op) := by
  cases op with
  | createStorySession name type p =>
    rw [SharedStoryMode.step, createStorySession]
    split_ifs
    · exact AllSeparate.congr ((h.set_iff s.nextSessionId).mpr (separate_empty s.nextSessionId)) rfl
    · exact h
  | joinStorySession id p role =>
    refine h.congr ?_
    rw [SharedStoryMode.step, joinStorySession]
    split
    · rfl
    · split_ifs <;> rfl
  | leaveStorySession id p => exact h.congr (storyProgressions_leaveStorySession ..)
  | endStorySession id => exact h.congr (storyProgressions_endStorySession ..)
  | setPlayerRole id p role =>
    refine h.congr ?_
    rw [SharedStoryMode.step, setPlayerRole]
    split
    · rfl
    · split_ifs <;> rfl
  | transferHost id p p' =>
    refine h.congr ?_
    rw [SharedStoryMode.step, transferHost]
    split
    · rfl
    · split_ifs <;> rfl
  | kickPlayer id p =>
    refine h.congr ?_
    rw [SharedStoryMode.step, kickPlayer]
    split
    · rfl
    · split_ifs
      · exact storyProgressions_leaveStorySession ..
      · rfl
      · rfl
  | setMaxSessionSize n => exact h.congr rfl

theorem AllSeparate.questStep_iff (h : AllSeparate s) (op : QuestOp) :
    AllSeparate (s.questStep op) ↔ GoesOn s op := by
  cases op with
  | session op => exact iff_of_true (h.step op) trivial
  | startStoryQuest id q =>
    refine iff_of_true (h.congr ?_) trivial
    rw [questStep, startStoryQuest]
    split
    · rfl
    · split_ifs <;> rfl
  | completeStoryQuest id q =>
    refine iff_of_true ?_ trivial
    rw [questStep, completeStoryQuest]
    cases s.getStorySession id with
    | none => exact h
    | some session =>
      dsimp only
      by_cases hactive : session.isActive
      · rw [if_neg (not_not.mpr hactive)]
        exact (h.set_iff id).mpr (StoryProgressionData.Separate.completed (h id) q)
      · rw [if_pos hactive]
        exact h
  | advanceStoryProgression id q =>
    rw [questStep, advanceStoryProgression, GoesOn]
    cases hget : s.getStorySession id with
    | none => exact iff_of_true h fun session hsome => nomatch hsome
    | some session =>
      simp only [Option.some_inj, forall_eq']
      by_cases hactive : session.isActive
      · rw [if_neg (not_not.mpr hactive)]
        refine (h.set_iff id).trans ((StoryProgressionData.Separate.advanced_iff (h id) q).trans ?_)
        exact ⟨fun hq _ => hq, fun hq => hq hactive⟩
      · rw [if_pos hactive]
        exact iff_of_true h fun hactive' => absurd hactive' hactive

/-- The lists are without repetition and have nothing in common after every call exactly if
no call offers a quest again that the story has completed. -/
theorem separate_along_iff (initialized : Bool) (maxSessionSize : UInt32) (ops : List QuestOp) :
    let start : SharedStoryMode := { initialized := initialized, maxSessionSize := maxSessionSize }
    Run.Along questStep (fun s op => AllSeparate (s.questStep op)) start ops ↔
      Run.Along questStep GoesOn start ops := by
  intro start
  have hstart : AllSeparate start := fun id => separate_empty 0
  refine Run.along_congr_of_step (fun s op h => ?_) hstart
  exact ⟨h.questStep_iff op, (h.questStep_iff op).mpr⟩

theorem not_separate_offered_again :
    ¬ Run.Along questStep (fun s op => AllSeparate (s.questStep op)) { initialized := true }
      [.session (.createStorySession "Velen" .mainCampaign 7), .completeStoryQuest 1 "q003_velen",
        .advanceStoryProgression 1 "q003_velen"] := by
  intro h
  have hseparate := h.2.2.1 1
  revert hseparate
  decide +kernel

end SharedStoryMode
end WitcherMP.Story
