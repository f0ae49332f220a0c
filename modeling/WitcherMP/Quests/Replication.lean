import WitcherMP.Quests.Defs
import WitcherMP.Lib.Replicas
import Mathlib.Algebra.Order.BigOperators.Group.List

/-! Two quest systems that move one quest on and send each other the state of it. -/

namespace WitcherMP.Quests
open Replicas

structure Update where
  objectiveId : UInt32
  progress : UInt32
deriving DecidableEq

def questNode (questId : UInt32) : Node CooperativeQuestSystem Update QuestSyncData where
  update s u := (s.updateObjective questId u.objectiveId u.progress).1
  take s := s.getQuestSyncData questId
  install s d := s.processQuestUpdate d

def place (objectives : List QuestObjective) (objectiveId : UInt32) : Option ℕ :=
  objectives.findIdx? fun o => o.objectiveId = objectiveId

theorem advanceFirst_eq (objectiveId progress : UInt32) (objectives : List QuestObjective) :
    advanceFirst objectiveId progress objectives
      = (place objectives objectiveId).map fun j => objectives.modify j (·.advance progress) := by
  induction objectives with
  | nil => rfl
  | cons o objectives ih =>
    rw [advanceFirst, place, List.findIdx?_cons]
    by_cases ho : o.objectiveId = objectiveId
    · simp [ho]
    · simp [ho, ih, place, Function.comp_def]

def increments (objectives : List QuestObjective) (j : ℕ) (us : List Update) : List ℕ :=
  (us.filter fun u => place objectives u.objectiveId = some j).map fun u => u.progress.toNat

def reached (o : QuestObjective) (ns : List ℕ) : ℕ :=
  if ns = [] then o.currentCount.toNat else min o.requiredCount.toNat (o.currentCount.toNat + ns.sum)

theorem reached_append (o : QuestObjective) (ns : List ℕ) (n : ℕ) :
    reached o (ns ++ [n]) = min (reached o ns + n) o.requiredCount.toNat := by
  unfold reached
  rw [if_neg (by simp), List.sum_append, List.sum_singleton]
  split_ifs with h
  · subst h
    rw [List.sum_nil]
    omega
  · omega

structure Counted (objectives₀ objectives : List QuestObjective) (us : List Update) : Prop where
  ids : objectives.map QuestObjective.objectiveId = objectives₀.map QuestObjective.objectiveId
  counts : ∀ j o₀, objectives₀[j]? = some o₀ → ∃ o, objectives[j]? = some o ∧
    o.requiredCount = o₀.requiredCount ∧ o.currentCount.toNat = reached o₀ (increments objectives₀ j us)

theorem counted_nil (objectives : List QuestObjective) : Counted objectives objectives [] :=
  ⟨rfl, fun _ o h => ⟨o, h, rfl, rfl⟩⟩

theorem place_congr {os os' : List QuestObjective}
    (h : os'.map QuestObjective.objectiveId = os.map QuestObjective.objectiveId)
    (objectiveId : UInt32) : place os' objectiveId = place os objectiveId := by
  have hmap (l : List QuestObjective) : place l objectiveId
      = (l.map QuestObjective.objectiveId).findIdx? fun i => i = objectiveId := by
    rw [List.findIdx?_map]
    rfl
  rw [hmap, hmap, h]

theorem advance_currentCount {o : QuestObjective} {progress : UInt32}
    (h : o.currentCount.toNat + progress.toNat < 2 ^ 32) :
    (o.advance progress).currentCount.toNat
      = min (o.currentCount.toNat + progress.toNat) o.requiredCount.toNat := by
  rw [← Word32.toNat_add h]
  simp only [QuestObjective.advance]
  rcases le_total (o.currentCount + progress) o.requiredCount with hle | hle
  · rw [min_eq_left hle, Nat.min_eq_left (UInt32.le_iff_toNat_le.mp hle)]
  · rw [min_eq_right hle, Nat.min_eq_right (UInt32.le_iff_toNat_le.mp hle)]

theorem increments_append (os : List QuestObjective) (j : ℕ) (us : List Update) (u : Update) :
    increments os j (us ++ [u]) = increments os j us
      ++ if place os u.objectiveId = some j then [u.progress.toNat] else [] := by
  rw [increments, List.filter_append, List.map_append, increments]
  by_cases h : place os u.objectiveId = some j <;> simp [h]

def Fits (questId : UInt32) (s : CooperativeQuestSystem) (u : Update) : Prop :=
  ∀ quest ∈ s.getQuest questId, ∀ j ∈ place quest.objectives u.objectiveId,
    ∀ o ∈ quest.objectives[j]?, o.currentCount.toNat + u.progress.toNat < 2 ^ 32

instance decidableFits (questId : UInt32) (s : CooperativeQuestSystem) (u : Update) :
    Decidable (Fits questId s u) := by
  unfold Fits
  infer_instance

theorem Counted.update {os₀ os : List QuestObjective} {us : List Update} (h : Counted os₀ os us)
    {u : Update} (hfits : ∀ j ∈ place os u.objectiveId, ∀ o ∈ os[j]?,
      o.currentCount.toNat + u.progress.toNat < 2 ^ 32) :
    Counted os₀ ((advanceFirst u.objectiveId u.progress os).getD os) (us ++ [u]) := by
  rw [advanceFirst_eq]
  have hplace := place_congr h.ids u.objectiveId
  cases hk : place os u.objectiveId with
  | none =>
    refine ⟨h.ids, fun j o₀ ho₀ => ?_⟩
    rw [increments_append, ← hplace, hk, if_neg (by simp), List.append_nil]
    exact h.counts j o₀ ho₀
  | some k =>
    rw [Option.map_some, Option.getD_some]
    constructor
    · rw [← h.ids]
      refine List.ext_getElem? fun j => ?_
      rw [List.getElem?_map, List.getElem?_map, List.getElem?_modify]
      by_cases hj : k = j
      · cases os[j]? <;> simp [hj, QuestObjective.advance]
      · cases os[j]? <;> simp [hj]
    · intro j o₀ ho₀
      obtain ⟨o, ho, hreq, hcount⟩ := h.counts j o₀ ho₀
      rw [increments_append, ← hplace, hk, List.getElem?_modify, ho]
      by_cases hj : k = j
      · subst hj
        have hadd := advance_currentCount (hfits k hk o ho)
        refine ⟨o.advance u.progress, by simp, hreq, ?_⟩
        rw [hadd, if_pos rfl, reached_append, hcount, hreq]
      · refine ⟨o, by simp [hj], hreq, ?_⟩
        rw [if_neg fun heq => hj (Option.some.inj heq), List.append_nil, hcount]

def Holds (questId : UInt32) (os₀ : List QuestObjective) (s : CooperativeQuestSystem)
    (us : List Update) : Prop :=
  ∃ quest, s.getQuest questId = some quest ∧ quest.questId = questId ∧ quest.state = .inProgress ∧
    Counted os₀ quest.objectives us

def Shows (questId : UInt32) (os₀ : List QuestObjective) (d : QuestSyncData) (us : List Update) :
    Prop :=
  d.questId = questId ∧ d.state = .inProgress ∧ Counted os₀ d.objectives us

theorem simulates_lineage (questId : UInt32) (os₀ : List QuestObjective) :
    Simulates (questNode questId) (lineageNode Update) (Holds questId os₀) (Shows questId os₀)
      (Fits questId) where
  update s us u h hfits := by
    obtain ⟨quest, hquest, hid, hstate, hcounted⟩ := h
    have hnew := hcounted.update (hfits quest hquest)
    change Holds questId os₀ (s.updateObjective questId u.objectiveId u.progress).1 (us ++ [u])
    rw [CooperativeQuestSystem.updateObjective, hquest]
    dsimp only
    rw [if_neg (not_not.mpr hstate)]
    cases hadv : advanceFirst u.objectiveId u.progress quest.objectives with
    | none =>
      rw [hadv] at hnew
      exact ⟨quest, hquest, hid, hstate, hnew⟩
    | some objectives =>
      rw [hadv] at hnew
      exact ⟨{ quest with objectives := objectives }, OrdMap.find?_insert_self .., hid, hstate, hnew⟩
  take s us h := by
    obtain ⟨quest, hquest, hid, hstate, hcounted⟩ := h
    change Shows questId os₀ (s.getQuestSyncData questId) us
    rw [CooperativeQuestSystem.getQuestSyncData, hquest]
    exact ⟨hid, hstate, hcounted⟩
  install s us d us' h hd := by
    obtain ⟨quest, hquest, hid, -, -⟩ := h
    obtain ⟨hid', hstate', hcounted'⟩ := hd
    change Holds questId os₀ (s.synchronizeQuest d.questId d) us'
    rw [CooperativeQuestSystem.synchronizeQuest, hid', hquest]
    exact ⟨_, OrdMap.find?_insert_self .., hid, hstate', hcounted'⟩

def Converged (questId : UInt32) (quest₀ : QuestData) (as : List (Action Update))
    (p : Pair CooperativeQuestSystem QuestSyncData) : Prop :=
  ∀ i j o₀, quest₀.objectives[j]? = some o₀ →
    ∃ quest o, (p.state i).getQuest questId = some quest ∧ quest.objectives[j]? = some o ∧
      o.currentCount.toNat = min o₀.requiredCount.toNat
        (o₀.currentCount.toNat + (increments quest₀.objectives j (updates as)).sum)

/-- Every replica goes back to all increments of every objective, or to enough of them; an
objective that starts above what is required was moved on at least once. -/
def Covered (quest₀ : QuestData) (as : List (Action Update)) : Prop :=
  ∀ i j o₀, quest₀.objectives[j]? = some o₀ →
    let own := increments quest₀.objectives j (lineage as i)
    (o₀.currentCount ≤ o₀.requiredCount ∨ own ≠ []) ∧
      (own.sum = (increments quest₀.objectives j (updates as)).sum ∨
        o₀.requiredCount.toNat ≤ o₀.currentCount.toNat + own.sum)

theorem sum_increments_le (os : List QuestObjective) (j : ℕ) (as : List (Action Update)) (i : Side) :
    (increments os j (lineage as i)).sum ≤ (increments os j (updates as)).sum :=
  (((lineage_sublist as i).filter _).map _).sum_le_sum fun _ _ => Nat.zero_le _

theorem reached_eq_iff {o : QuestObjective} {ns : List ℕ} {total : ℕ} (hle : ns.sum ≤ total) :
    reached o ns = min o.requiredCount.toNat (o.currentCount.toNat + total) ↔
      (o.currentCount ≤ o.requiredCount ∨ ns ≠ []) ∧
        (ns.sum = total ∨ o.requiredCount.toNat ≤ o.currentCount.toNat + ns.sum) := by
  unfold reached
  rw [UInt32.le_iff_toNat_le]
  split_ifs with h
  · subst h
    rw [List.sum_nil] at hle ⊢
    simp only [ne_eq, not_true_eq_false, or_false]
    omega
  · simp only [ne_eq, h, not_false_eq_true, or_true, true_and]
    omega

/-- Where no sum overflows, the replicas agree on the total just when no snapshot has taken
away a needed increment. -/
theorem converged_iff {s₀ : CooperativeQuestSystem} {questId : UInt32} {quest₀ : QuestData}
    (hquest : s₀.getQuest questId = some quest₀) (hid : quest₀.questId = questId)
    (hstate : quest₀.state = .inProgress) {as : List (Action Update)}
    (has : Run.Along (questNode questId).step (AtUpdate (Fits questId)) (.start s₀) as) :
    Converged questId quest₀ as (Run.run (questNode questId).step (.start s₀) as) ↔
      Covered quest₀ as := by
  have hstart : Related (Holds questId quest₀.objectives) (Shows questId quest₀.objectives)
      (Pair.start s₀) (Pair.start []) :=
    related_start ⟨quest₀, hquest, hid, hstate, counted_nil _⟩
  have hrun := (simulates_lineage questId quest₀.objectives).run hstart has
  refine forall_congr' fun i => forall_congr' fun j => forall_congr' fun o₀ =>
    forall_congr' fun ho₀ => ?_
  obtain ⟨quest, hq, -, -, hcounted⟩ := hrun.state i
  obtain ⟨o, ho, -, hcount⟩ := hcounted.counts j o₀ ho₀
  refine Iff.trans ?_ (reached_eq_iff (sum_increments_le quest₀.objectives j as i))
  rw [← show _ = reached o₀ (increments quest₀.objectives j (lineage as i)) from hcount]
  constructor
  · rintro ⟨quest', o', hq', ho', h⟩
    obtain rfl := Option.some.inj (hq.symm.trans hq')
    obtain rfl := Option.some.inj (ho.symm.trans ho')
    exact h
  · exact fun h => ⟨quest, o, hq, ho, h⟩

def hunt : QuestData :=
  { questId := 5, state := .inProgress, objectives := [{ objectiveId := 1, requiredCount := 10 }] }

theorem converged_one_sided :
    let s₀ : CooperativeQuestSystem := { quests := .ofList [(5, hunt)] }
    let as : List (Action Update) := [.update .left ⟨1, 3⟩, .snapshot .left, .update .left ⟨1, 4⟩,
      .snapshot .left, .deliver .right 0, .deliver .right 0]
    Converged 5 hunt as (Run.run (questNode 5).step (.start s₀) as) := by
  refine (converged_iff rfl rfl rfl (by decide +kernel)).mpr ?_
  intro i j o₀ ho₀
  have hj : j = 0 := by
    have hlt : j < 1 := (List.getElem?_eq_some_iff.mp ho₀).1
    omega
  subst hj
  obtain rfl := Option.some.inj ho₀
  cases i <;> decide +kernel

theorem not_converged_crossing :
    let s₀ : CooperativeQuestSystem := { quests := .ofList [(5, hunt)] }
    let as : List (Action Update) := [.update .left ⟨1, 3⟩, .update .right ⟨1, 4⟩, .snapshot .left,
      .snapshot .right, .deliver .left 0, .deliver .right 0]
    Run.Along (questNode 5).step (AtUpdate (Fits 5)) (.start s₀) as ∧
      ¬ Converged 5 hunt as (Run.run (questNode 5).step (.start s₀) as) := by
  refine ⟨by decide +kernel, fun h => ?_⟩
  obtain ⟨quest, o, hquest, ho, hcount⟩ := h .left 0 _ rfl
  have hfour : (some quest).map (fun q => q.objectives.map QuestObjective.currentCount)
      = some [4] := by
    rw [← hquest]
    decide +kernel
  have hcurrent : o.currentCount = 4 := by
    have := congrArg (fun counts => counts[0]?) (Option.some.inj hfour)
    rw [List.getElem?_map, ho] at this
    exact Option.some.inj this
  rw [hcurrent] at hcount
  exact absurd hcount (by decide +kernel)

end WitcherMP.Quests
