import WitcherMP.GameModes.Quests
import WitcherMP.Lib.Books

/-! The rewards of quests. They are given when a quest in progress is completed, and a quest that
was completed can be started again. -/

namespace WitcherMP.GameModes.QuestSystem
open Books FirstMatch Run
variable {s : QuestSystem} {id x : String}

def rewarded (s : QuestSystem) : Op → List String
  | .completeQuest id hasPlayer => if (s.completeQuest id hasPlayer).2.2 = [] then [] else [id]
  | _ => []

def IsRunning (s : QuestSystem) (id : String) : Prop :=
  ∃ quest, s.getQuest id = some quest ∧ quest.status = .inProgress

def sets (s : QuestSystem) : Op → Option String
  | .startQuest id => if (s.startQuest id).2 then some id else none
  | _ => none

theorem getQuest_rewriteQuest {f : QuestData → QuestData}
    (hf : ∀ quest, (f quest).questId = quest.questId) (x : String) :
    (s.rewriteQuest id f).getQuest x = if id = x then (s.getQuest x).map f else s.getQuest x :=
  find?_modifyFirst_key hf s.quests id x

theorem getQuest_updateGameMode (s : QuestSystem) (mode : GameMode) (x : String) :
    (s.updateGameMode mode).getQuest x
      = (s.getQuest x).map (QuestData.act · (.updateGameMode mode)) := by
  rw [getQuest, quests_updateGameMode, List.find?_map, getQuest]
  refine congrArg (Option.map _) (congrArg (s.quests.find? ·) (funext fun quest => ?_))
  rw [Function.comp_apply, quest.questId_act]

theorem startQuest_cases (s : QuestSystem) (id : String) :
    (∃ quest, s.getQuest id = some quest ∧ quest.isEnabled ∧
      s.startQuest id = (s.rewriteQuest id QuestData.startQuest, true)) ∨
    s.startQuest id = (s, false) := by
  rw [startQuest]
  cases hget : s.getQuest id with
  | none => exact Or.inr rfl
  | some quest =>
    by_cases henabled : quest.isEnabled
    · exact Or.inl ⟨quest, rfl, henabled, if_neg (not_not.mpr henabled)⟩
    · exact Or.inr (if_pos henabled)

theorem completeQuest_cases (s : QuestSystem) (id : String) (hasPlayer : Bool) :
    (∃ quest, s.getQuest id = some quest ∧ quest.status = .inProgress ∧
      s.completeQuest id hasPlayer = (s.rewriteQuest id QuestData.completeQuest, true,
        giveQuestRewards quest hasPlayer)) ∨
    s.completeQuest id hasPlayer = (s, false, []) := by
  rw [completeQuest]
  cases hget : s.getQuest id with
  | none => exact Or.inr rfl
  | some quest =>
    by_cases hstatus : quest.status = .inProgress
    · exact Or.inl ⟨quest, rfl, hstatus, if_neg (not_not.mpr hstatus)⟩
    · exact Or.inr (if_pos hstatus)

theorem questId_startQuest (quest : QuestData) : quest.startQuest.questId = quest.questId :=
  congrArg Prod.fst quest.kept_startQuest

theorem isRunning_of_started (h : (s.startQuest id).2) : IsRunning (s.startQuest id).1 id := by
  rcases startQuest_cases s id with ⟨quest, hget, henabled, heq⟩ | heq
  · rw [heq]
    refine ⟨quest.startQuest, ?_, ?_⟩
    · rw [getQuest_rewriteQuest questId_startQuest, if_pos rfl, hget, Option.map_some]
    · rw [QuestData.startQuest, if_pos henabled]
  · rw [heq] at h
    exact absurd h Bool.false_ne_true

theorem isRunning_startQuest_iff (hx : ¬ IsRunning s x) :
    IsRunning (s.startQuest id).1 x ↔ sets s (.startQuest id) = some x := by
  rw [sets]
  split_ifs with hstarted
  · rw [Option.some_inj]
    by_cases hidx : id = x
    · exact iff_of_true (hidx ▸ isRunning_of_started hstarted) hidx
    · refine iff_of_false ?_ hidx
      rcases startQuest_cases s id with ⟨quest, -, -, heq⟩ | heq
      · rwa [heq, IsRunning, getQuest_rewriteQuest questId_startQuest, if_neg hidx]
      · rwa [heq]
  · refine iff_of_false ?_ fun h => nomatch h
    rcases startQuest_cases s id with ⟨quest, -, -, heq⟩ | heq
    · exact absurd (by rw [heq]) hstarted
    · rwa [heq]

theorem not_isRunning_rewriteQuest (hx : id = x ∨ ¬ IsRunning s x) :
    ¬ IsRunning (s.rewriteQuest id QuestData.completeQuest) x := by
  have hid : ∀ quest : QuestData, quest.completeQuest.questId = quest.questId := fun _ => rfl
  rw [IsRunning, getQuest_rewriteQuest hid]
  split_ifs with hidx
  · rintro ⟨completed, hcompleted, hstatus⟩
    obtain ⟨quest, -, rfl⟩ := Option.map_eq_some_iff.mp hcompleted
    exact nomatch hstatus
  · exact hx.resolve_left hidx

theorem not_isRunning_completeQuest (hx : ¬ IsRunning s x) (hasPlayer : Bool) :
    ¬ IsRunning (s.completeQuest id hasPlayer).1 x := by
  rcases completeQuest_cases s id hasPlayer with ⟨quest, -, -, heq⟩ | heq
  · rw [heq]
    exact not_isRunning_rewriteQuest (Or.inr hx)
  · rw [heq]
    exact hx

theorem not_isRunning_updateGameMode (hx : ¬ IsRunning s x) (mode : GameMode) :
    ¬ IsRunning (s.updateGameMode mode) x := by
  rintro ⟨quest', hget', hstatus⟩
  rw [getQuest_updateGameMode] at hget'
  obtain ⟨quest, hget, rfl⟩ := Option.map_eq_some_iff.mp hget'
  refine hx ⟨quest, hget, ?_⟩
  have hkept (enabled : Bool) (h : (quest.setEnabled enabled).status = .inProgress) :
      quest.status = .inProgress := by
    rw [QuestData.setEnabled] at h
    split_ifs at h
    exact h
  cases mode with
  | story => exact hkept true hstatus
  | exploration => exact hkept _ hstatus

theorem of_mem_rewarded {op : Op} (hx : x ∈ s.rewarded op) : IsRunning s x ∧
    s.step op = s.rewriteQuest x QuestData.completeQuest := by
  cases op with
  | completeQuest id hasPlayer =>
    rw [rewarded] at hx
    split_ifs at hx with hgiven
    · exact absurd hx List.not_mem_nil
    · obtain rfl := List.mem_singleton.mp hx
      rcases completeQuest_cases s x hasPlayer with ⟨quest, hget, hstatus, heq⟩ | heq
      · exact ⟨⟨quest, hget, hstatus⟩, congrArg Prod.fst heq⟩
      · exact absurd (by rw [heq]) hgiven
  | _ => exact absurd hx List.not_mem_nil

theorem closing : Closing step rewarded IsRunning sets := by
  refine ⟨?_, ?_, ?_, ?_⟩
  · intro s op
    cases op with
    | completeQuest id hasPlayer =>
      rw [rewarded]
      split_ifs
      · exact List.nodup_nil
      · exact List.nodup_singleton id
    | _ => exact List.nodup_nil
  · intro s op x hx
    exact (of_mem_rewarded hx).1
  · intro s op x hx
    rw [(of_mem_rewarded hx).2]
    exact not_isRunning_rewriteQuest (Or.inl rfl)
  · intro s op x hx
    cases op with
    | startQuest id => exact isRunning_startQuest_iff hx
    | completeQuest id hasPlayer =>
      exact iff_of_false (not_isRunning_completeQuest hx hasPlayer) fun h => nomatch h
    | updateGameMode mode =>
      exact iff_of_false (not_isRunning_updateGameMode hx mode) fun h => nomatch h

def Rewarding (s : QuestSystem) : Prop := ∀ quest ∈ s.quests, 0 < quest.xpReward

theorem rewarding_run (currentMode : Option GameMode) (ops : List Op) :
    Rewarding (run step (initializeSystem currentMode) ops) := by
  have hstart : Rewarding (initializeSystem currentMode) := by
    cases currentMode with
    | none => unfold Rewarding; decide +kernel
    | some mode => cases mode <;> unfold Rewarding <;> decide +kernel
  intro quest hquest
  rw [quests_run (unique_initializeSystem currentMode)] at hquest
  obtain ⟨first, hfirst, rfl⟩ := List.mem_map.mp hquest
  have hxp : (run QuestData.act first ops).xpReward = first.xpReward :=
    congrArg (fun kept => kept.2.2) (first.kept_run ops)
  exact hxp ▸ hstart first hfirst

theorem Rewarding.rewarded (h : Rewarding s) (hrunning : IsRunning s id) :
    s.rewarded (.completeQuest id true) = [id] := by
  obtain ⟨quest, hget, hstatus⟩ := hrunning
  have hxp : quest.xpReward > 0 := h quest (List.mem_of_find?_eq_some hget)
  have hgiven : (s.completeQuest id true).2.2 ≠ [] := by
    rw [completeQuest, hget]
    dsimp only
    rw [if_neg (not_not.mpr hstatus), giveQuestRewards]
    simp [hxp]
  rw [QuestSystem.rewarded, if_neg hgiven]

/-- In any run, no rewards are given twice, whatever quest is completed next, exactly if no call
starts a quest again whose rewards were given. -/
theorem rewarded_once_iff (currentMode : Option GameMode) (ops : List Op) :
    let start := initializeSystem currentMode
    (∀ before questId, before <+: ops →
      (collect step rewarded start (before ++ [.completeQuest questId true])).Nodup) ↔
    ∀ before questId, before ++ [.startQuest questId] <+: ops →
      ((run step start before).startQuest questId).2 → questId ∉ collect step rewarded start before := by
  intro start
  constructor
  · intro h before id hbefore hstarted hgiven
    have hrunning : IsRunning (run step start (before ++ [.startQuest id])) id := by
      rw [run_snoc]
      exact isRunning_of_started hstarted
    have hnodup := h (before ++ [.startQuest id]) id hbefore
    rw [collect_snoc, (rewarding_run currentMode _).rewarded hrunning, collect_snoc] at hnodup
    have hdisjoint := (List.nodup_append.mp hnodup).2.2
    exact hdisjoint id (List.mem_append_left _ hgiven) id (List.mem_singleton_self id) rfl
  · intro h before id hbefore
    have hnone : NoneReopened step rewarded sets start (before ++ [.completeQuest id true]) := by
      intro earlier op hearlier x hx hopens
      cases op with
      | startQuest id' =>
        rw [sets] at hopens
        split_ifs at hopens with hstarted
        obtain rfl := Option.some.inj hopens
        rcases List.prefix_concat_iff.mp hearlier with hlast | hearlier
        · exact nomatch (List.append_inj' hlast rfl).2
        · exact h earlier id' (hearlier.trans hbefore) hstarted hx
      | completeQuest id' hasPlayer => exact nomatch hopens
      | updateGameMode mode => exact nomatch hopens
    exact (closing.settled_run hnone).1

theorem not_rewarded_once_restarted :
    ¬ ∀ (currentMode : Option GameMode) (ops : List Op),
      (collect step rewarded (initializeSystem currentMode) ops).Nodup := by
  intro h
  have hnodup := h (some .story) [.startQuest "q003_velen", .completeQuest "q003_velen" true,
    .startQuest "q003_velen", .completeQuest "q003_velen" true]
  revert hnodup
  decide +kernel

end WitcherMP.GameModes.QuestSystem
