import WitcherMP.Story.Sessions
import WitcherMP.Lib.Tallies

/-! The count of active sessions. Ending and leaving count down without asking whether the session
still counts. -/

namespace WitcherMP.Story.SharedStoryMode
open Tallies

def Counted (s : SharedStoryMode) : Prop :=
  s.stats.activeSessions.toNat = tally (·.isActive) s.storySessions

instance (s : SharedStoryMode) : Decidable s.Counted := inferInstanceAs (Decidable (_ = _))

/-- A session is made under an id that no active session has, and the counter can count it; what
is ended, or left by the last one, is active. -/
def KeepsCount (s : SharedStoryMode) : Op → Prop
  | .createStorySession _ _ _ => s.initialized →
    ¬ Filed (·.isActive) s.storySessions s.nextSessionId ∧
      tally (·.isActive) s.storySessions + 1 < 2 ^ 32
  | .endStorySession id => ∀ session, s.getStorySession id = some session → session.isActive
  | .leaveStorySession id p => ∀ session, s.getStorySession id = some session →
    session.participants.erase p = [] → session.isActive
  | _ => True

variable {s : SharedStoryMode} {session : StorySessionData}

theorem Counted.endStorySession_iff (h : Counted s) (id : UInt32) :
    Counted (s.endStorySession id).1 ↔
      ∀ session, s.getStorySession id = some session → session.isActive := by
  unfold endStorySession
  cases hget : s.getStorySession id with
  | none => exact iff_of_true h fun session hsome => nomatch hsome
  | some session =>
    simp only [Option.some_inj, forall_eq']
    exact counted_ended_iff h hget rfl rfl Bool.false_ne_true

theorem Counted.leaveStorySession_iff (h : Counted s) (id p : UInt32) :
    Counted (s.leaveStorySession id p).1 ↔ ∀ session, s.getStorySession id = some session →
      session.participants.erase p = [] → session.isActive := by
  unfold leaveStorySession
  cases hget : s.getStorySession id with
  | none => exact iff_of_true h fun session hsome => nomatch hsome
  | some session =>
    simp only [Option.some_inj, forall_eq', participants_withoutPlayer]
    split_ifs with hlast
    · have hended : Counted ((s.setStorySession id (withoutPlayer session p)).endStorySession id).1
          ↔ session.isActive := by
        unfold endStorySession
        rw [getStorySession_set, if_pos rfl]
        exact counted_ended_iff h hget (OrdMap.insert_insert ..) rfl Bool.false_ne_true
      exact hended.trans ⟨fun hactive _ => hactive, fun hactive => hactive hlast⟩
    · refine iff_of_true ?_ fun hlast' => absurd hlast' hlast
      exact counted_kept h hget rfl rfl (isActive_withoutPlayer session p)

theorem Counted.step_iff (h : Counted s) (op : Op) : Counted (s.step op) ↔ KeepsCount s op := by
  cases op with
  | createStorySession name type p =>
    rw [step, createStorySession, KeepsCount]
    split_ifs with hinit
    · refine Iff.trans ?_ ⟨fun hfree _ => hfree, fun hfree => hfree hinit⟩
      exact counted_up_iff h rfl
    · exact iff_of_true h fun hinit' => absurd hinit' hinit
  | joinStorySession id p role =>
    refine iff_of_true ?_ trivial
    rw [step, joinStorySession]
    cases hget : s.getStorySession id with
    | none => exact h
    | some session =>
      dsimp only
      split_ifs
      · exact h
      · exact h
      · exact counted_kept h hget rfl rfl rfl
      · exact h
  | leaveStorySession id p => exact h.leaveStorySession_iff id p
  | endStorySession id => exact h.endStorySession_iff id
  | setPlayerRole id p role =>
    refine iff_of_true ?_ trivial
    rw [step, setPlayerRole]
    cases hget : s.getStorySession id with
    | none => exact h
    | some session =>
      dsimp only
      split_ifs
      · exact counted_kept h hget rfl rfl rfl
      · exact h
      · exact h
  | transferHost id p p' =>
    refine iff_of_true ?_ trivial
    rw [step, transferHost]
    cases hget : s.getStorySession id with
    | none => exact h
    | some session =>
      dsimp only
      split_ifs
      · exact h
      · exact counted_kept h hget rfl rfl rfl
      · exact h
      · exact h
  | kickPlayer id p =>
    refine iff_of_true ?_ trivial
    rw [step, kickPlayer]
    cases hget : s.getStorySession id with
    | none => exact h
    | some session =>
      dsimp only
      split_ifs with hactive hin
      · refine (h.leaveStorySession_iff id p).mpr fun session' hget' _ => ?_
        obtain rfl := Option.some.inj (hget.symm.trans hget')
        exact hactive
      · exact h
      · exact h
  | setMaxSessionSize n => exact iff_of_true h trivial

theorem counted_along_iff (initialized : Bool) (maxSessionSize : UInt32) (ops : List Op) :
    let start : SharedStoryMode := { initialized := initialized, maxSessionSize := maxSessionSize }
    Run.Along step (fun s op => Counted (s.step op)) start ops ↔
      Run.Along step KeepsCount start ops := by
  intro start
  have hstart : Counted start := rfl
  refine Run.along_congr_of_step (fun s op h => ?_) hstart
  exact ⟨Counted.step_iff h op, (Counted.step_iff h op).mpr⟩

end WitcherMP.Story.SharedStoryMode
