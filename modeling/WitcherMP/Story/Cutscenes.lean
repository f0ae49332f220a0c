import WitcherMP.Story.Defs
import WitcherMP.Lib.Books

/-! The lives of cutscenes. One that was paused and one that is over are both at rest, and a call
that resumes does not tell them apart. A cutscene is meant by its session and its place there. -/

namespace WitcherMP.Story.SharedStoryMode
open FirstMatch Books Run

inductive CutsceneOp
  | startCutscene (sessionId : UInt32) (cutsceneName questId : String) (now : ℤ)
  | endCutscene (sessionId cutsceneId : UInt32) (now : ℤ)
  | skipCutscene (sessionId cutsceneId : UInt32) (now : ℤ)
  | pauseCutscene (sessionId cutsceneId : UInt32)
  | resumeCutscene (sessionId cutsceneId : UInt32)
  | updateCutsceneStates (timedOut : ℤ → Bool) (now : UInt32 → ℕ → ℤ)

def cutsceneStep (s : SharedStoryMode) : CutsceneOp → SharedStoryMode
  | .startCutscene id name quest now => (s.startCutscene id name quest now).1
  | .endCutscene id c now => (s.endCutscene id c now).1
  | .skipCutscene id c now => (s.skipCutscene id c now).1
  | .pauseCutscene id c => (s.pauseCutscene id c).1
  | .resumeCutscene id c => (s.resumeCutscene id c).1
  | .updateCutsceneStates timedOut now => s.updateCutsceneStates timedOut now

def cutsceneAt (s : SharedStoryMode) (x : UInt32 × ℕ) : Option CutsceneSyncData :=
  (s.getStorySession x.1).bind fun session => session.cutscenes[x.2]?

def Plays (s : SharedStoryMode) (x : UInt32 × ℕ) : Prop := (s.cutsceneAt x).any (·.isPlaying)

instance (s : SharedStoryMode) (x : UInt32 × ℕ) : Decidable (s.Plays x) :=
  inferInstanceAs (Decidable (_ = true))

def cutsceneFound (s : SharedStoryMode) (sessionId : UInt32) (p : CutsceneSyncData → Bool) :
    Option (UInt32 × ℕ) :=
  (s.getStorySession sessionId).bind fun session =>
    if session.isActive then (session.cutscenes.findIdx? p).map fun j => (sessionId, j) else none

def cutscenesTimedOut (s : SharedStoryMode) (timedOut : ℤ → Bool) (now : UInt32 → ℕ → ℤ) :
    List (UInt32 × ℕ) :=
  s.storySessions.entries.flatMap fun e => if e.2.isActive then
    ((List.range e.2.cutscenes.length).filter fun j => (e.2.cutscenes[j]?).any fun c =>
      c.isPlaying && timedOut (now e.1 j - c.startTime)).map fun j => (e.1, j) else []

def finishes (s : SharedStoryMode) : CutsceneOp → List (UInt32 × ℕ)
  | .endCutscene id c _ => (s.cutsceneFound id (runsAs c)).toList
  | .skipCutscene id c _ => (s.cutsceneFound id fun d => runsAs c d && d.canSkip).toList
  | .updateCutsceneStates timedOut now => s.cutscenesTimedOut timedOut now
  | _ => []

def callsBack (s : SharedStoryMode) : CutsceneOp → List (UInt32 × ℕ)
  | .endCutscene id c _ => (s.cutsceneFound id (runsAs c)).toList
  | _ => []

def setsPlaying (s : SharedStoryMode) : CutsceneOp → Option (UInt32 × ℕ)
  | .startCutscene id _ _ _ => (s.getStorySession id).bind fun session =>
    if session.isActive then some (id, session.cutscenes.length) else none
  | .resumeCutscene id c => s.cutsceneFound id (restsAs c)
  | _ => none

variable {s : SharedStoryMode} {x : UInt32 × ℕ} {p : CutsceneSyncData → Bool}

theorem cutsceneAt_set (id : UInt32) (session : StorySessionData) :
    (s.setStorySession id session).cutsceneAt x
      = if id = x.1 then session.cutscenes[x.2]? else s.cutsceneAt x := by
  rw [cutsceneAt, getStorySession, setStorySession, OrdMap.find?_insert]
  split_ifs <;> rfl

theorem cutsceneFound_spec {id : UInt32} (h : s.cutsceneFound id p = some x) :
    ∃ c, s.cutsceneAt x = some c ∧ p c := by
  obtain ⟨session, hget, hfound⟩ := Option.bind_eq_some_iff.mp h
  split_ifs at hfound with hactive
  obtain ⟨j, hj, rfl⟩ := Option.map_eq_some_iff.mp hfound
  obtain ⟨hlt, hp, -⟩ := List.findIdx?_eq_some_iff_getElem.mp hj
  refine ⟨session.cutscenes[j], ?_, hp⟩
  rw [cutsceneAt, hget, Option.bind_some, List.getElem?_eq_getElem hlt]

theorem cutsceneAt_rewriteCutscene (id : UInt32) (f : CutsceneSyncData → CutsceneSyncData) :
    (s.rewriteCutscene id p f).1.cutsceneAt x
      = if s.cutsceneFound id p = some x then (s.cutsceneAt x).map f else s.cutsceneAt x := by
  obtain ⟨i, j⟩ := x
  rw [rewriteCutscene, cutsceneFound]
  cases hget : s.getStorySession id with
  | none => simp
  | some session =>
    by_cases hactive : session.isActive
    · by_cases hany : session.cutscenes.any p
      · simp only [hactive, hany, not_true_eq_false, if_false, cutsceneAt_set, getElem?_modifyFirst,
          Option.bind_some, if_true]
        by_cases hid : id = i
        · subst hid
          simp only [if_true, cutsceneAt, hget, Option.bind_some, Option.map_eq_some_iff,
            Prod.mk.injEq, true_and, exists_eq_right]
        · simp [hid]
      · have hnone : session.cutscenes.findIdx? p = none := by
          rw [List.findIdx?_eq_none_iff]
          simpa using hany
        simp [hactive, hany, hnone]
    · simp [hactive]

theorem cutsceneAt_startCutscene (id : UInt32) (name quest : String) (now : ℤ) :
    ∃ c : CutsceneSyncData, c.isPlaying ∧ ∀ x, (s.startCutscene id name quest now).1.cutsceneAt x
      = if s.setsPlaying (.startCutscene id name quest now) = some x then some c
        else s.cutsceneAt x := by
  rw [startCutscene, setsPlaying]
  cases hget : s.getStorySession id with
  | none => exact ⟨{ isPlaying := true }, rfl, fun x => by simp⟩
  | some session =>
    by_cases hactive : session.isActive
    · refine ⟨{
        cutsceneId := s.nextCutsceneId, cutsceneName := name, questId := quest
        hostPlayerId := session.hostPlayerId, participants := session.participants
        startTime := now, isPlaying := true, canSkip := true }, rfl, ?_⟩
      rintro ⟨i, j⟩
      simp only [hactive, not_true_eq_false, if_false, cutsceneAt_set, Option.bind_some, if_true,
        Option.some_inj, Prod.mk.injEq]
      by_cases hid : id = i
      · subst hid
        have hat : s.cutsceneAt (id, j) = session.cutscenes[j]? := by
          rw [cutsceneAt, hget, Option.bind_some]
        rw [if_pos rfl, hat]
        rcases lt_trichotomy j session.cutscenes.length with hlt | rfl | hgt
        · rw [List.getElem?_append_left hlt, if_neg fun h => hlt.ne h.2.symm]
        · rw [List.getElem?_append_right le_rfl, Nat.sub_self, if_pos ⟨rfl, rfl⟩]
          rfl
        · rw [if_neg fun h => hgt.ne h.2, List.getElem?_eq_none hgt.le]
          exact List.getElem?_eq_none (by simpa using Nat.succ_le_of_lt hgt)
      · rw [if_neg hid, if_neg fun h => hid h.1]
        rfl
    · exact ⟨{ isPlaying := true }, rfl, fun x => by simp [hactive]⟩

theorem cutsceneAt_of_starts {id : UInt32} {name quest : String} {now : ℤ}
    (h : s.setsPlaying (.startCutscene id name quest now) = some x) : s.cutsceneAt x = none := by
  obtain ⟨session, hget, hx⟩ := Option.bind_eq_some_iff.mp h
  split_ifs at hx with hactive
  obtain rfl := Option.some.inj hx
  rw [cutsceneAt, hget, Option.bind_some]
  exact List.getElem?_eq_none le_rfl

theorem cutsceneAt_updateCutsceneStates (timedOut : ℤ → Bool) (now : UInt32 → ℕ → ℤ) :
    (s.updateCutsceneStates timedOut now).cutsceneAt x
      = (s.getStorySession x.1).bind fun session => (session.cutscenes[x.2]?).map fun c =>
        if session.isActive then timeOut timedOut (now x.1 x.2) c else c := by
  rw [cutsceneAt, getStorySession, updateCutsceneStates, OrdMap.find?_mapEntries, Option.bind_map]
  refine Option.bind_congr fun session _ => ?_
  by_cases hactive : session.isActive
  · simp [hactive, List.getElem?_mapIdx]
  · simp [hactive]

theorem mem_cutscenesTimedOut {timedOut : ℤ → Bool} {now : UInt32 → ℕ → ℤ} :
    x ∈ s.cutscenesTimedOut timedOut now ↔ ∃ session, s.getStorySession x.1 = some session ∧
      session.isActive ∧ ∃ c, session.cutscenes[x.2]? = some c ∧
        (c.isPlaying && timedOut (now x.1 x.2 - c.startTime)) := by
  obtain ⟨i, j⟩ := x
  constructor
  · intro h
    obtain ⟨⟨k, session⟩, he, hmem⟩ := List.mem_flatMap.mp h
    split_ifs at hmem with hactive
    · obtain ⟨j', hj', heq⟩ := List.mem_map.mp hmem
      obtain ⟨rfl, rfl⟩ := Prod.mk.inj heq
      obtain ⟨c, hc, hlate⟩ := (Option.any_eq_true _ _).mp (List.mem_filter.mp hj').2
      exact ⟨session, OrdMap.find?_eq_some_iff.mpr he, hactive, c, hc, hlate⟩
    · exact absurd hmem List.not_mem_nil
  · rintro ⟨session, hget, hactive, c, hc, hlate⟩
    refine List.mem_flatMap.mpr ⟨(i, session), OrdMap.find?_eq_some_iff.mp hget, ?_⟩
    rw [if_pos hactive]
    refine List.mem_map.mpr ⟨j, List.mem_filter.mpr ⟨?_, ?_⟩, rfl⟩
    · exact List.mem_range.mpr (List.getElem?_eq_some_iff.mp hc).1
    · exact (Option.any_eq_true _ _).mpr ⟨c, hc, hlate⟩

theorem nodup_cutscenesTimedOut (timedOut : ℤ → Bool) (now : UInt32 → ℕ → ℤ) :
    (s.cutscenesTimedOut timedOut now).Nodup := by
  refine List.nodup_flatMap.mpr ⟨fun e _ => ?_, s.storySessions.sorted.imp fun {e e'} hlt => ?_⟩
  · split_ifs
    · exact (List.nodup_range.filter _).map fun _ _ h => (Prod.mk.inj h).2
    · exact List.nodup_nil
  · intro x hx hx'
    have hfst : ∀ e : UInt32 × StorySessionData, x ∈ (if e.2.isActive then
        ((List.range e.2.cutscenes.length).filter fun j => (e.2.cutscenes[j]?).any fun c =>
          c.isPlaying && timedOut (now e.1 j - c.startTime)).map fun j => (e.1, j) else []) →
        x.1 = e.1 := by
      intro e he
      split_ifs at he
      · obtain ⟨j, -, rfl⟩ := List.mem_map.mp he
        rfl
      · exact absurd he List.not_mem_nil
    exact hlt.ne ((hfst e hx).symm.trans (hfst e' hx'))

theorem plays_iff : s.Plays x ↔ ∃ c, s.cutsceneAt x = some c ∧ c.isPlaying :=
  Option.any_eq_true ..

theorem nodup_toList (o : Option (UInt32 × ℕ)) : o.toList.Nodup := by
  cases o with
  | none => exact List.nodup_nil
  | some x => exact List.nodup_singleton x

theorem plays_of_found {id : UInt32} (hp : ∀ c, p c → c.isPlaying) (h : s.cutsceneFound id p = some x) :
    s.Plays x := by
  obtain ⟨c, hc, hpc⟩ := cutsceneFound_spec h
  exact plays_iff.mpr ⟨c, hc, hp c hpc⟩

section Rewritten
variable {id : UInt32} {f : CutsceneSyncData → CutsceneSyncData}

theorem plays_stopped_iff (hf : ∀ c, (f c).isPlaying = false) :
    (s.rewriteCutscene id p f).1.Plays x ↔ s.cutsceneFound id p ≠ some x ∧ s.Plays x := by
  rw [Plays, cutsceneAt_rewriteCutscene]
  split_ifs with hfound
  · obtain ⟨c, hc, -⟩ := cutsceneFound_spec hfound
    rw [hc, Option.map_some, Option.any_some, hf]
    exact iff_of_false Bool.false_ne_true fun h => h.1 hfound
  · exact ⟨fun h => ⟨hfound, h⟩, And.right⟩

theorem plays_started_iff (hf : ∀ c, (f c).isPlaying = true) :
    (s.rewriteCutscene id p f).1.Plays x ↔ s.cutsceneFound id p = some x ∨ s.Plays x := by
  rw [Plays, cutsceneAt_rewriteCutscene]
  split_ifs with hfound
  · obtain ⟨c, hc, -⟩ := cutsceneFound_spec hfound
    rw [hc, Option.map_some, Option.any_some, hf]
    exact iff_of_true rfl (Or.inl hfound)
  · exact ⟨Or.inr, fun h => h.resolve_left hfound⟩

end Rewritten

theorem plays_of_updateCutsceneStates {timedOut : ℤ → Bool} {now : UInt32 → ℕ → ℤ}
    (h : (s.updateCutsceneStates timedOut now).Plays x) : s.Plays x := by
  rw [plays_iff, cutsceneAt_updateCutsceneStates] at h
  obtain ⟨c, hc, hplays⟩ := h
  obtain ⟨session, hget, hsession⟩ := Option.bind_eq_some_iff.mp hc
  obtain ⟨d, hd, rfl⟩ := Option.map_eq_some_iff.mp hsession
  refine plays_iff.mpr ⟨d, ?_, ?_⟩
  · rw [cutsceneAt, hget, Option.bind_some, hd]
  · split_ifs at hplays with hactive
    · rw [timeOut] at hplays
      split_ifs at hplays
      exact hplays
    · exact hplays

theorem closing : Closing cutsceneStep finishes Plays setsPlaying := by
  refine ⟨?_, ?_, ?_, ?_⟩
  · intro s op
    cases op with
    | endCutscene id c now => exact nodup_toList _
    | skipCutscene id c now => exact nodup_toList _
    | updateCutsceneStates timedOut now => exact nodup_cutscenesTimedOut timedOut now
    | _ => exact List.nodup_nil
  · intro s op x hx
    cases op with
    | endCutscene id c now =>
      refine plays_of_found (fun d hd => ?_) (Option.mem_toList.mp hx)
      exact (Bool.and_eq_true_iff.mp hd).2
    | skipCutscene id c now =>
      refine plays_of_found (fun d hd => ?_) (Option.mem_toList.mp hx)
      exact (Bool.and_eq_true_iff.mp (Bool.and_eq_true_iff.mp hd).1).2
    | updateCutsceneStates timedOut now =>
      obtain ⟨session, hget, -, c, hc, hlate⟩ := mem_cutscenesTimedOut.mp hx
      refine plays_iff.mpr ⟨c, ?_, (Bool.and_eq_true_iff.mp hlate).1⟩
      rw [cutsceneAt, hget, Option.bind_some, hc]
    | _ => exact absurd hx List.not_mem_nil
  · intro s op x hx hplays
    cases op with
    | endCutscene id c now =>
      exact ((plays_stopped_iff fun _ => rfl).mp hplays).1 (Option.mem_toList.mp hx)
    | skipCutscene id c now =>
      exact ((plays_stopped_iff fun _ => rfl).mp hplays).1 (Option.mem_toList.mp hx)
    | updateCutsceneStates timedOut now =>
      obtain ⟨session, hget, hactive, c, hc, hlate⟩ := mem_cutscenesTimedOut.mp hx
      rw [cutsceneStep, Plays, cutsceneAt_updateCutsceneStates, hget, Option.bind_some, hc,
        Option.map_some, if_pos hactive, timeOut, if_pos hlate] at hplays
      exact Bool.false_ne_true hplays
    | _ => exact absurd hx List.not_mem_nil
  · intro s op x hx
    have hnothing : ¬ (none : Option (UInt32 × ℕ)) = some x := fun h => nomatch h
    cases op with
    | startCutscene id name quest now =>
      obtain ⟨c, hc, hat⟩ := s.cutsceneAt_startCutscene id name quest now
      rw [cutsceneStep, Plays, hat]
      split_ifs with hstarts
      · exact iff_of_true hc hstarts
      · exact iff_of_false hx hstarts
    | resumeCutscene id c =>
      exact (plays_started_iff fun _ => rfl).trans ⟨fun h => h.resolve_right hx, Or.inl⟩
    | pauseCutscene id c =>
      exact iff_of_false (fun h => hx ((plays_stopped_iff fun _ => rfl).mp h).2) hnothing
    | endCutscene id c now =>
      exact iff_of_false (fun h => hx ((plays_stopped_iff fun _ => rfl).mp h).2) hnothing
    | skipCutscene id c now =>
      exact iff_of_false (fun h => hx ((plays_stopped_iff fun _ => rfl).mp h).2) hnothing
    | updateCutsceneStates timedOut now =>
      exact iff_of_false (fun h => hx (plays_of_updateCutsceneStates h)) hnothing

theorem isSome_cutsceneAt_step (op : CutsceneOp) (h : (s.cutsceneAt x).isSome) :
    ((s.cutsceneStep op).cutsceneAt x).isSome := by
  have hrewrite (id : UInt32) (p : CutsceneSyncData → Bool) (f : CutsceneSyncData → CutsceneSyncData) :
      ((s.rewriteCutscene id p f).1.cutsceneAt x).isSome := by
    rw [cutsceneAt_rewriteCutscene]
    split_ifs
    · rwa [Option.isSome_map]
    · exact h
  cases op with
  | startCutscene id name quest now =>
    obtain ⟨c, -, hat⟩ := s.cutsceneAt_startCutscene id name quest now
    rw [cutsceneStep, hat]
    split_ifs
    · rfl
    · exact h
  | endCutscene id c now => exact hrewrite ..
  | skipCutscene id c now => exact hrewrite ..
  | pauseCutscene id c => exact hrewrite ..
  | resumeCutscene id c => exact hrewrite ..
  | updateCutsceneStates timedOut now =>
    rw [cutsceneStep, cutsceneAt_updateCutsceneStates]
    rw [cutsceneAt] at h
    cases hget : s.getStorySession x.1 with
    | none => simp [hget] at h
    | some session => simpa [hget] using h

theorem isSome_cutsceneAt_finished (s : SharedStoryMode) (ops : List CutsceneOp) :
    ∀ x ∈ collect cutsceneStep finishes s ops, ((run cutsceneStep s ops).cutsceneAt x).isSome := by
  induction ops using List.reverseRecOn with
  | nil => exact fun x hx => absurd hx List.not_mem_nil
  | append_singleton ops op ih =>
    intro x hx
    rw [collect_snoc] at hx
    rw [run_snoc]
    refine isSome_cutsceneAt_step op ?_
    rcases List.mem_append.mp hx with hx | hx
    · exact ih x hx
    · obtain ⟨c, hc, -⟩ := plays_iff.mp (closing.was_open _ op x hx)
      rw [hc]
      rfl

theorem callsBack_sublist (s : SharedStoryMode) (ops : List CutsceneOp) :
    (collect cutsceneStep callsBack s ops).Sublist (collect cutsceneStep finishes s ops) := by
  induction ops generalizing s with
  | nil => exact List.Sublist.slnil
  | cons op ops ih =>
    refine List.Sublist.append ?_ (ih _)
    cases op with
    | endCutscene id c now => exact List.Sublist.refl _
    | _ => exact List.nil_sublist _

/-- In a run from any state, a cutscene that was ended, skipped or timed out never plays again,
and the callback is fired for it once at most, exactly if no call that resumes finds one that
was finished before. -/
theorem finished_for_good_iff (s : SharedStoryMode) (ops : List CutsceneOp) :
    (∀ before, before <+: ops →
      (∀ x ∈ collect cutsceneStep finishes s before, ¬ (run cutsceneStep s before).Plays x) ∧
        (collect cutsceneStep callsBack s before).Nodup) ↔
    ∀ before sessionId cutsceneId x, before ++ [.resumeCutscene sessionId cutsceneId] <+: ops →
      (run cutsceneStep s before).cutsceneFound sessionId (restsAs cutsceneId) = some x →
        x ∉ collect cutsceneStep finishes s before := by
  constructor
  · intro h before id c x hbefore hfound hx
    have hnone := closing.noneReopened fun earlier hearlier => (h earlier hearlier).1
    exact hnone before (.resumeCutscene id c) hbefore x hx hfound
  · intro h before hbefore
    have hnone : NoneReopened cutsceneStep finishes setsPlaying s ops := by
      intro earlier op hearlier x hx hopens
      cases op with
      | startCutscene id name quest now =>
        have hsome := isSome_cutsceneAt_finished s earlier x hx
        rw [cutsceneAt_of_starts hopens] at hsome
        exact Bool.false_ne_true hsome
      | resumeCutscene id c => exact h earlier id c x hearlier hopens hx
      | _ => exact nomatch hopens
    obtain ⟨hnodup, hclosed⟩ := closing.settled_run (hnone.earlier hbefore)
    exact ⟨hclosed, hnodup.sublist (callsBack_sublist s before)⟩

theorem not_finished_for_good_resumed :
    ¬ ∀ (s : SharedStoryMode) (ops before : List CutsceneOp), before <+: ops →
      (∀ x ∈ collect cutsceneStep finishes s before, ¬ (run cutsceneStep s before).Plays x) ∧
        (collect cutsceneStep callsBack s before).Nodup := by
  intro h
  let s := (SharedStoryMode.createStorySession { initialized := true } "Velen" .mainCampaign 7).1
  have hnodup := (h s [.startCutscene 1 "cs001" "q003_velen" 5, .endCutscene 1 1 8,
    .resumeCutscene 1 1, .endCutscene 1 1 9] _ List.prefix_rfl).2
  revert hnodup
  decide +kernel

end WitcherMP.Story.SharedStoryMode
