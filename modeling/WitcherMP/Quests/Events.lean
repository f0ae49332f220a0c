import WitcherMP.Quests.Replication
import WitcherMP.Lib.Pointwise

/-! What the events do to the objectives: the calls of `updateObjective` that one makes, where
each of them lands, and when that is one count for every objective the event is about. -/

namespace WitcherMP.Quests

namespace QuestObjective
variable (o : QuestObjective)

structure Gains (o' : QuestObjective) : Prop where
  count : o'.currentCount.toNat = min (o.currentCount.toNat + 1) o.requiredCount.toNat
  rest : o' = { o with currentCount := o'.currentCount, isCompleted := o'.isCompleted }

def GainsOne (n : ℕ) : Prop :=
  if n = 0 then o.currentCount = o.requiredCount
  else if o.requiredCount.toNat + 1 = 2 ^ 32 then
    (o.currentCount.toNat + n) % 2 ^ 32 = min (o.currentCount.toNat + 1) o.requiredCount.toNat
  else if o.currentCount.toNat + 1 = 2 ^ 32 then o.requiredCount.toNat < n
  else n = 1 ∨ o.requiredCount.toNat ≤ o.currentCount.toNat + 1

def StaysPut (n : ℕ) : Prop :=
  n = 0 ∨ (o.isCompleted = decide (o.currentCount ≥ o.requiredCount) ∧
    if o.requiredCount.toNat + 1 = 2 ^ 32 then (o.currentCount.toNat + n) % 2 ^ 32 = o.currentCount.toNat
    else o.currentCount = o.requiredCount)

theorem advance_iterate (n : ℕ) : (fun o : QuestObjective => o.advance 1)^[n + 1] o = { o with
    currentCount := (Word32.tick o.requiredCount)^[n + 1] o.currentCount
    isCompleted := decide ((Word32.tick o.requiredCount)^[n + 1] o.currentCount ≥ o.requiredCount) } := by
  induction n with
  | zero => rfl
  | succ n ih =>
    have hnext := Function.iterate_succ_apply' (Word32.tick o.requiredCount) (n + 1) o.currentCount
    rw [Function.iterate_succ_apply', ih, hnext]
    rfl

theorem gains_iterate_iff (n : ℕ) :
    o.Gains ((fun o : QuestObjective => o.advance 1)^[n] o) ↔ o.GainsOne n := by
  have hc := o.currentCount.toNat_lt
  have hr := o.requiredCount.toNat_lt
  cases n with
  | zero =>
    rw [Function.iterate_zero_apply, GainsOne, if_pos rfl, ← UInt32.toNat_inj]
    exact ⟨fun h => by have := h.count; omega, fun h => ⟨by omega, rfl⟩⟩
  | succ n =>
    rw [advance_iterate, GainsOne, if_neg (Nat.succ_ne_zero n)]
    have hcount := Word32.toNat_tick_iterate o.requiredCount o.currentCount n
    have hiff (o' : QuestObjective) (h : o' = { o with
        currentCount := o'.currentCount, isCompleted := o'.isCompleted }) :
        o.Gains o' ↔
          o'.currentCount.toNat = min (o.currentCount.toNat + 1) o.requiredCount.toNat :=
      ⟨Gains.count, fun hcount => ⟨hcount, h⟩⟩
    rw [hiff _ rfl]
    dsimp only
    rw [hcount]
    split_ifs <;> omega

theorem stays_iterate_iff (n : ℕ) :
    (fun o : QuestObjective => o.advance 1)^[n] o = o ↔ o.StaysPut n := by
  have hc := o.currentCount.toNat_lt
  have hr := o.requiredCount.toNat_lt
  cases n with
  | zero => exact iff_of_true rfl (Or.inl rfl)
  | succ n =>
    have hcount := Word32.toNat_tick_iterate o.requiredCount o.currentCount n
    have hiff : (Word32.tick o.requiredCount)^[n + 1] o.currentCount = o.currentCount ↔
        if o.requiredCount.toNat + 1 = 2 ^ 32
          then (o.currentCount.toNat + (n + 1)) % 2 ^ 32 = o.currentCount.toNat
        else o.currentCount = o.requiredCount := by
      rw [← UInt32.toNat_inj, hcount, ← UInt32.toNat_inj]
      split_ifs <;> omega
    rw [advance_iterate, StaysPut, or_iff_right (Nat.succ_ne_zero n), ← hiff]
    constructor
    · intro h
      have hsame := congrArg QuestObjective.currentCount h
      have hflag := congrArg QuestObjective.isCompleted h
      dsimp only at hsame hflag
      rw [hsame] at hflag
      exact ⟨hflag.symm, hsame⟩
    · rintro ⟨hflag, hsame⟩
      rw [hsame, ← hflag]

end QuestObjective

def advanceAll (objectives : List QuestObjective) (ids : List UInt32) : List QuestObjective :=
  ids.foldl (fun os objectiveId => (advanceFirst objectiveId 1 os).getD os) objectives

theorem advanceFirst_getD (objectiveId progress : UInt32) (os : List QuestObjective) :
    (advanceFirst objectiveId progress os).getD os
      = match place os objectiveId with
        | none => os
        | some j => os.modify j (·.advance progress) := by
  rw [advanceFirst_eq]
  cases place os objectiveId <;> rfl

theorem map_advanceFirst {β : Type} {f : QuestObjective → β} (hf : ∀ o, f (o.advance 1) = f o)
    (objectiveId : UInt32) (os : List QuestObjective) :
    ((advanceFirst objectiveId 1 os).getD os).map f = os.map f := by
  rw [advanceFirst_getD]
  cases place os objectiveId with
  | none => rfl
  | some j =>
    refine List.ext_getElem? fun i => ?_
    dsimp only
    rw [List.getElem?_map, List.getElem?_map, List.getElem?_modify]
    cases os[i]? with
    | none => rfl
    | some o =>
      by_cases hj : j = i
      · simp [hj, hf]
      · simp [hj]

theorem getElem?_advanceAll (objectives : List QuestObjective) (ids : List UInt32) (j : ℕ) :
    (advanceAll objectives ids)[j]? = objectives[j]?.map
      (fun o => o.advance 1)^[ids.countP fun i => place objectives i = some j] := by
  induction ids generalizing objectives with
  | nil => exact (Option.map_id' (x := objectives[j]?)).symm
  | cons i ids ih =>
    have hplace (i' : UInt32) :
        place ((advanceFirst i 1 objectives).getD objectives) i' = place objectives i' :=
      place_congr (map_advanceFirst (fun _ => rfl) i objectives) i'
    change (advanceAll ((advanceFirst i 1 objectives).getD objectives) ids)[j]? = _
    rw [ih, List.countP_cons]
    simp only [hplace]
    rw [advanceFirst_getD]
    cases hi : place objectives i with
    | none => simp
    | some k =>
      dsimp only
      rw [List.getElem?_modify]
      by_cases hk : k = j
      · subst hk
        cases objectives[k]? <;> simp
      · cases objectives[j]? <;> simp [hk]

def QuestData.advanced (quest : QuestData) (ids : List UInt32) : QuestData :=
  if quest.state = .inProgress then { quest with objectives := advanceAll quest.objectives ids }
  else quest

@[simp] theorem QuestData.advanced_nil (quest : QuestData) : quest.advanced [] = quest := by
  unfold QuestData.advanced
  split_ifs <;> rfl

theorem QuestData.advanced_append (quest : QuestData) (ids ids' : List UInt32) :
    quest.advanced (ids ++ ids') = (quest.advanced ids).advanced ids' := by
  unfold QuestData.advanced
  by_cases hstate : quest.state = .inProgress
  · simp [hstate, advanceAll]
  · simp [hstate]

def QuestData.outline (quest : QuestData) : List (UInt32 × String × String) :=
  quest.objectives.map fun o => (o.objectiveId, o.type, o.target)

namespace CooperativeQuestSystem
variable (s : CooperativeQuestSystem)

def updateAll (calls : List (UInt32 × UInt32)) : CooperativeQuestSystem :=
  calls.foldl (fun s call => (s.updateObjective call.1 call.2 1).1) s

def idsFor (questId : UInt32) (calls : List (UInt32 × UInt32)) : List UInt32 :=
  (calls.filter fun call => call.1 = questId).map Prod.snd

theorem getQuest_updateObjective (questId objectiveId k : UInt32) :
    (s.updateObjective questId objectiveId 1).1.getQuest k
      = (s.getQuest k).map (·.advanced (idsFor k [(questId, objectiveId)])) := by
  by_cases hk : questId = k
  · subst hk
    have hids : idsFor questId [(questId, objectiveId)] = [objectiveId] := by simp [idsFor]
    rw [hids, updateObjective]
    cases hquest : s.getQuest questId with
    | none => simp [hquest]
    | some quest =>
      rw [Option.map_some, QuestData.advanced]
      by_cases hstate : quest.state = .inProgress
      · rw [if_pos hstate]
        dsimp only
        rw [if_neg (not_not.mpr hstate)]
        cases hadv : advanceFirst objectiveId 1 quest.objectives with
        | none =>
          rw [advanceAll, List.foldl_cons, List.foldl_nil, hadv]
          exact hquest
        | some os =>
          rw [advanceAll, List.foldl_cons, List.foldl_nil, hadv]
          exact OrdMap.find?_insert_self ..
      · rw [if_neg hstate]
        dsimp only
        rw [if_pos hstate]
        exact hquest
  · have hids : idsFor k [(questId, objectiveId)] = [] := by simp [idsFor, hk]
    have hsame : (s.updateObjective questId objectiveId 1).1.getQuest k = s.getQuest k := by
      unfold updateObjective
      cases s.getQuest questId with
      | none => rfl
      | some quest =>
        dsimp only
        split_ifs
        · rfl
        · cases advanceFirst objectiveId 1 quest.objectives with
          | none => rfl
          | some os => exact OrdMap.find?_insert_of_ne _ _ hk
    rw [hids, hsame]
    cases s.getQuest k <;> simp

theorem getQuest_updateAll (calls : List (UInt32 × UInt32)) (k : UInt32) :
    (s.updateAll calls).getQuest k = (s.getQuest k).map (·.advanced (idsFor k calls)) := by
  induction calls generalizing s with
  | nil =>
    have hids : idsFor k [] = [] := rfl
    change s.getQuest k = _
    rw [hids]
    cases s.getQuest k <;> simp
  | cons call calls ih =>
    have hids : idsFor k (call :: calls) = idsFor k [call] ++ idsFor k calls := by
      rw [idsFor, idsFor, idsFor, ← List.map_append, ← List.filter_append, List.singleton_append]
    change ((s.updateObjective call.1 call.2 1).1.updateAll calls).getQuest k = _
    rw [ih, getQuest_updateObjective, Option.map_map, hids]
    refine congrArg (Option.map · (s.getQuest k)) (funext fun quest => ?_)
    exact (quest.advanced_append _ _).symm

end CooperativeQuestSystem

inductive QuestEvent
  | enterArea (areaId : String)
  | killMonster (monsterId : String)
  | collectItem (itemId : UInt32)
  | talkToNpc (npcId : String)
  | useObject (objectId : String)

namespace QuestEvent

def type : QuestEvent → String
  | enterArea _ => "reach"
  | killMonster _ => "kill"
  | collectItem _ => "collect"
  | talkToNpc _ => "talk"
  | useObject _ => "use"

def target : QuestEvent → String
  | enterArea areaId => areaId
  | killMonster monsterId => monsterId
  | collectItem itemId => toString itemId.toNat
  | talkToNpc npcId => npcId
  | useObject objectId => objectId

def Wants (event : QuestEvent) (o : QuestObjective) : Prop :=
  o.type = event.type ∧ o.target = event.target

instance (event : QuestEvent) : DecidablePred event.Wants := fun _ =>
  inferInstanceAs (Decidable (_ ∧ _))

end QuestEvent

namespace CooperativeQuestSystem
variable (s : CooperativeQuestSystem)

def handle (playerId : UInt32) : QuestEvent → CooperativeQuestSystem
  | .enterArea areaId => s.onPlayerEnterArea playerId areaId
  | .killMonster monsterId => s.onPlayerKillMonster playerId monsterId
  | .collectItem itemId => s.onPlayerCollectItem playerId itemId
  | .talkToNpc npcId => s.onPlayerTalkToNpc playerId npcId
  | .useObject objectId => s.onPlayerUseObject playerId objectId

def triggerCalls (questId : UInt32) (triggerType : String) : List (UInt32 × UInt32) :=
  match s.getQuest questId with
  | none => []
  | some quest => (quest.objectives.filter fun o => o.type = triggerType).map fun o =>
      (questId, o.objectiveId)

/-- The calls that an event makes. In an area they go by the place of the quest and by a type
of their own. -/
def calls : QuestEvent → List (UInt32 × UInt32)
  | .enterArea areaId => s.quests.entries.flatMap fun e =>
      if e.2.state = .inProgress ∧ e.2.location = areaId then
        s.triggerCalls e.2.questId "enter_area" else []
  | event => s.quests.entries.flatMap fun e =>
      if e.2.state = .inProgress then
        (e.2.objectives.filter fun o => event.Wants o).map fun o => (e.2.questId, o.objectiveId)
      else []

theorem updateObjectives_eq (questId : UInt32) (os : List QuestObjective) :
    s.updateObjectives questId os = s.updateAll (os.map fun o => (questId, o.objectiveId)) := by
  rw [updateAll, List.foldl_map]
  rfl

theorem foldl_updateAll {α : Type} (f : α → List (UInt32 × UInt32)) (as : List α) :
    as.foldl (fun s a => s.updateAll (f a)) s = s.updateAll (as.flatMap f) :=
  List.foldl_flatMap.symm

theorem onPlayerEvent_eq (event : QuestEvent) :
    s.onPlayerEvent event.type event.target
      = s.updateAll (s.quests.entries.flatMap fun e =>
          if e.2.state = .inProgress then
            (e.2.objectives.filter fun o => event.Wants o).map fun o => (e.2.questId, o.objectiveId)
          else []) := by
  rw [← foldl_updateAll, onPlayerEvent]
  refine congrArg (fun f => s.quests.entries.foldl f s) (funext fun s => funext fun e => ?_)
  dsimp only
  split_ifs
  · exact s.updateObjectives_eq _ _
  · rfl

def Outlined (s s' : CooperativeQuestSystem) : Prop :=
  ∀ k, (s'.getQuest k).map QuestData.outline = (s.getQuest k).map QuestData.outline

theorem outlined_updateAll (calls : List (UInt32 × UInt32)) : Outlined s (s.updateAll calls) := by
  have houtline (os : List QuestObjective) (ids : List UInt32) :
      (advanceAll os ids).map (fun o => (o.objectiveId, o.type, o.target))
        = os.map fun o => (o.objectiveId, o.type, o.target) := by
    induction ids generalizing os with
    | nil => rfl
    | cons i ids ih => exact (ih _).trans (map_advanceFirst (fun _ => rfl) i os)
  intro k
  rw [getQuest_updateAll, Option.map_map]
  refine congrArg (Option.map · (s.getQuest k)) (funext fun quest => ?_)
  rw [Function.comp_apply, QuestData.advanced]
  split_ifs
  · exact houtline _ _
  · rfl

theorem triggerCalls_congr {s s' : CooperativeQuestSystem} (h : Outlined s s') (questId : UInt32)
    (triggerType : String) :
    s'.triggerCalls questId triggerType = s.triggerCalls questId triggerType := by
  have key (s : CooperativeQuestSystem) : s.triggerCalls questId triggerType
      = (((s.getQuest questId).map QuestData.outline).getD []
          |>.filter fun x => x.2.1 = triggerType).map fun x => (questId, x.1) := by
    rw [triggerCalls]
    cases s.getQuest questId with
    | none => rfl
    | some quest =>
      rw [Option.map_some, Option.getD_some, QuestData.outline, List.filter_map, List.map_map]
      rfl
  rw [key, key, h]

theorem onPlayerEnterArea_eq (playerId : UInt32) (areaId : String) :
    s.onPlayerEnterArea playerId areaId = s.updateAll (s.calls (.enterArea areaId)) := by
  have key : ∀ (es : List (UInt32 × QuestData)) (s' : CooperativeQuestSystem), Outlined s s' →
      es.foldl (fun s e =>
        let quest := e.2
        if quest.state = .inProgress ∧ quest.location = areaId then
          s.processQuestTriggers quest.questId "enter_area" playerId
        else s) s'
      = s'.updateAll (es.flatMap fun e =>
          if e.2.state = .inProgress ∧ e.2.location = areaId then
            s.triggerCalls e.2.questId "enter_area" else []) := by
    intro es
    induction es with
    | nil => exact fun s' _ => rfl
    | cons e es ih =>
      intro s' h
      have hbody : (if e.2.state = .inProgress ∧ e.2.location = areaId then
            s'.processQuestTriggers e.2.questId "enter_area" playerId else s')
          = s'.updateAll (if e.2.state = .inProgress ∧ e.2.location = areaId then
              s.triggerCalls e.2.questId "enter_area" else []) := by
        split_ifs
        · rw [← triggerCalls_congr h, triggerCalls, processQuestTriggers]
          cases s'.getQuest e.2.questId with
          | none => rfl
          | some quest => exact s'.updateObjectives_eq _ _
        · rfl
      rw [List.foldl_cons, List.flatMap_cons]
      dsimp only
      rw [hbody, ih]
      · exact List.foldl_append.symm
      · exact fun k => (outlined_updateAll s' _ k).trans (h k)
  exact key s.quests.entries s fun _ => rfl

theorem handle_eq (playerId : UInt32) (event : QuestEvent) :
    s.handle playerId event = s.updateAll (s.calls event) := by
  cases event with
  | enterArea areaId => exact s.onPlayerEnterArea_eq playerId areaId
  | killMonster monsterId => exact s.onPlayerEvent_eq (.killMonster monsterId)
  | collectItem itemId => exact s.onPlayerEvent_eq (.collectItem itemId)
  | talkToNpc npcId => exact s.onPlayerEvent_eq (.talkToNpc npcId)
  | useObject objectId => exact s.onPlayerEvent_eq (.useObject objectId)

def Answered (event : QuestEvent) (s s' : CooperativeQuestSystem) : Prop :=
  ∀ questId, Option.Rel (fun quest quest' => List.Forall₂ (fun o o' =>
      if quest.state = .inProgress ∧ event.Wants o then o.Gains o' else o' = o)
    quest.objectives quest'.objectives) (s.getQuest questId) (s'.getQuest questId)

def hits (event : QuestEvent) (questId : UInt32) (quest : QuestData) (j : ℕ) : ℕ :=
  (idsFor questId (s.calls event)).countP fun i => place quest.objectives i = some j

/-- The calls land where they should: on every objective the event is about, once or harmlessly
more or less often, and on no other, or harmlessly. -/
def Answerable (event : QuestEvent) : Prop :=
  ∀ questId quest, s.getQuest questId = some quest → quest.state = .inProgress →
    ∀ j o, quest.objectives[j]? = some o →
      if event.Wants o then o.GainsOne (s.hits event questId quest j)
      else o.StaysPut (s.hits event questId quest j)

end CooperativeQuestSystem

theorem forall₂_iff_of_getElem? {α : Type} {R : α → α → Prop} {f : ℕ → α → α} {as bs : List α}
    (h : ∀ j : ℕ, bs[j]? = as[j]?.map (f j)) :
    List.Forall₂ R as bs ↔ ∀ (j : ℕ) a, as[j]? = some a → R a (f j a) := by
  rw [List.forall₂_iff_get]
  have hlength : as.length = bs.length := by
    refine Nat.le_antisymm (Nat.le_of_not_lt fun hlt => ?_) (Nat.le_of_not_lt fun hlt => ?_)
    · have := h bs.length
      rw [List.getElem?_eq_none le_rfl, List.getElem?_eq_getElem hlt] at this
      cases this
    · have := h as.length
      rw [List.getElem?_eq_none le_rfl, List.getElem?_eq_getElem hlt] at this
      cases this
  constructor
  · rintro ⟨-, hall⟩ j a ha
    obtain ⟨hj, rfl⟩ := List.getElem?_eq_some_iff.mp ha
    have hb := h j
    rw [ha, Option.map_some] at hb
    obtain ⟨hj', hb⟩ := List.getElem?_eq_some_iff.mp hb
    exact hb ▸ hall j hj hj'
  · refine fun hall => ⟨hlength, fun j hj hj' => ?_⟩
    have ha : as[j]? = some (as.get ⟨j, hj⟩) := List.getElem?_eq_getElem hj
    have hb := h j
    rw [ha, Option.map_some] at hb
    obtain ⟨_, hb⟩ := List.getElem?_eq_some_iff.mp hb
    have hget : bs.get ⟨j, hj'⟩ = f j (as.get ⟨j, hj⟩) := hb
    rw [hget]
    exact hall j _ ha

namespace CooperativeQuestSystem
variable (s : CooperativeQuestSystem)

/-- One count for every objective that an event is about and no other change, exactly where
the calls of the event land as they should. -/
theorem answered_iff (playerId : UInt32) (event : QuestEvent) :
    Answered event s (s.handle playerId event) ↔ s.Answerable event := by
  rw [handle_eq]
  refine forall_congr' fun questId => ?_
  rw [getQuest_updateAll, rel_map_iff]
  refine forall_congr' fun quest => forall_congr' fun _ => ?_
  by_cases hstate : quest.state = .inProgress
  · rw [QuestData.advanced, if_pos hstate, forall_prop_of_true hstate,
      forall₂_iff_of_getElem? (getElem?_advanceAll quest.objectives _)]
    refine forall_congr' fun j => forall_congr' fun o => forall_congr' fun _ => ?_
    simp only [hstate, true_and]
    split_ifs
    · exact o.gains_iterate_iff _
    · exact o.stays_iterate_iff _
  · rw [QuestData.advanced, if_neg hstate]
    refine iff_of_true (List.forall₂_same.mpr fun o _ => ?_) fun h => absurd h hstate
    rw [if_neg fun h => hstate h.1]

theorem Answered.gains {event : QuestEvent} {s s' : CooperativeQuestSystem} {questId : UInt32}
    {quest quest' : QuestData} {j : ℕ} {o o' : QuestObjective} (h : Answered event s s')
    (hquest : s.getQuest questId = some quest) (hquest' : s'.getQuest questId = some quest')
    (hstate : quest.state = .inProgress) (ho : quest.objectives[j]? = some o)
    (ho' : quest'.objectives[j]? = some o') (hwants : event.Wants o) : o.Gains o' := by
  have hrel := h questId
  rw [hquest, hquest'] at hrel
  obtain hall | _ := hrel
  rcases Replicas.forall₂_getElem? hall j with ⟨hnone, -⟩ | ⟨d, d', hd, hd', hgains⟩
  · exact absurd (hnone.symm.trans ho) (Option.some_ne_none o).symm
  · obtain rfl := Option.some.inj (hd.symm.trans ho)
    obtain rfl := Option.some.inj (hd'.symm.trans ho')
    rwa [if_pos ⟨hstate, hwants⟩] at hgains

end CooperativeQuestSystem

/-! The objectives as they are made leave their id at zero. -/

def createKillObjective (target : String) (count : UInt32) : QuestObjective :=
  { type := "kill", target := target, requiredCount := count }

def createReachObjective (target : String) : QuestObjective :=
  { type := "reach", target := target, requiredCount := 1 }

namespace CooperativeQuestSystem

theorem not_answered :
    let start (objectives : List QuestObjective) : CooperativeQuestSystem :=
      Run.run questStep { initialized := true }
        [.addQuest { questId := 1, state := .available, objectives := objectives }, .startQuest 1 7]
    let journey := start [createReachObjective "novigrad"]
    let hunt := start [createKillObjective "drowner" 2, createKillObjective "ghoul" 2]
    ¬ Answered (.enterArea "novigrad") journey (journey.handle 7 (.enterArea "novigrad")) ∧
      ¬ Answered (.killMonster "ghoul") hunt (hunt.handle 7 (.killMonster "ghoul")) := by
  intro start journey hunt
  let quest (objectives : List QuestObjective) : QuestData :=
    { questId := 1, state := .inProgress, objectives := objectives, participants := [7], syncOwner := 7 }
  refine ⟨fun h => ?_, fun h => ?_⟩
  · have hbefore : journey.getQuest 1 = some (quest [createReachObjective "novigrad"]) := by
      decide +kernel
    have hafter : (journey.handle 7 (.enterArea "novigrad")).getQuest 1
        = some (quest [createReachObjective "novigrad"]) := by decide +kernel
    exact absurd (h.gains (j := 0) hbefore hafter rfl rfl rfl ⟨rfl, rfl⟩).count (by decide)
  · have hbefore : hunt.getQuest 1
        = some (quest [createKillObjective "drowner" 2, createKillObjective "ghoul" 2]) := by
      decide +kernel
    have hafter : (hunt.handle 7 (.killMonster "ghoul")).getQuest 1
        = some (quest [{ createKillObjective "drowner" 2 with currentCount := 1 },
            createKillObjective "ghoul" 2]) := by decide +kernel
    exact absurd (h.gains (j := 1) hbefore hafter rfl rfl rfl ⟨rfl, rfl⟩).count (by decide)

end CooperativeQuestSystem
end WitcherMP.Quests
