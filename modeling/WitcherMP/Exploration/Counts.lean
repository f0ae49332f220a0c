import WitcherMP.Exploration.Sessions
import WitcherMP.Story.Counts

/-! The count of active exploration sessions, and with it the same of the story sessions. -/

namespace WitcherMP.Exploration
open Tallies

namespace ExplorationMode

def Counted (s : ExplorationMode) : Prop :=
  s.stats.activeSessions.toNat = tally (·.isActive) s.explorationSessions

instance (s : ExplorationMode) : Decidable s.Counted := inferInstanceAs (Decidable (_ = _))

/-- A session is made under an id that no active session has, and the counter can count it; what
is ended, or left by the last one, is active. -/
def KeepsCount (s : ExplorationMode) : Op → Prop
  | .createExplorationSession _ _ => s.initialized →
    ¬ Filed (·.isActive) s.explorationSessions s.nextSessionId ∧
      tally (·.isActive) s.explorationSessions + 1 < 2 ^ 32
  | .endExplorationSession id =>
    ∀ session, s.getExplorationSession id = some session → session.isActive
  | .leaveExplorationSession id p => ∀ session, s.getExplorationSession id = some session →
    session.participants.erase p = [] → session.isActive
  | _ => True

variable {s : ExplorationMode} {session : ExplorationSessionData}

theorem Writes.kept {op : Op} {id count : UInt32} (hw : Writes s op id session count)
    (hcount : count = s.stats.activeSessions) :
    ∃ old, s.getExplorationSession id = some old ∧ session.isActive = old.isActive := by
  have hone : (1 : UInt32) ≠ 0 := by decide
  cases hw with
  | created hinit => exact absurd (by grind) hone
  | leftLast hget hnone => exact absurd (by grind) hone
  | ended hget => exact absurd (by grind) hone
  | left hget hleft => exact ⟨_, hget, isActive_withoutPlayer ..⟩
  | joined hget => exact ⟨_, hget, rfl⟩
  | positioned hget => exact ⟨_, hget, rfl⟩
  | placed hget => exact ⟨_, hget, rfl⟩
  | unlocked hget => exact ⟨_, hget, rfl⟩
  | locked hget => exact ⟨_, hget, rfl⟩
  | traveled hget => exact ⟨_, hget, rfl⟩

theorem Counted.step (h : Counted s) {op : Op}
    (hquiet : ∀ id session count, Writes s op id session count → count = s.stats.activeSessions) :
    Counted (s.step op) := by
  rcases (effect_step s op).sessions with ⟨hsame, hcount⟩ | ⟨id, session, count, hw, hset, hcount⟩
  · rw [Counted, hsame, hcount]
    exact h
  · have hcount' := hquiet id session count hw
    obtain ⟨old, hget, hactive⟩ := hw.kept hcount'
    exact counted_kept h hget hset (hcount.trans hcount') hactive

theorem Counted.leaveExplorationSession_iff (h : Counted s) (id p : UInt32) :
    Counted (s.leaveExplorationSession id p).1 ↔ ∀ session,
      s.getExplorationSession id = some session → session.participants.erase p = [] →
        session.isActive := by
  unfold leaveExplorationSession
  cases hget : s.getExplorationSession id with
  | none => exact iff_of_true h fun session hsome => nomatch hsome
  | some session =>
    simp only [Option.some_inj, forall_eq', participants_withoutPlayer]
    split_ifs with hlast
    · have hended : Counted ((s.setExplorationSession id
          (withoutPlayer session p)).endExplorationSession id).1 ↔ session.isActive := by
        unfold endExplorationSession
        rw [getExplorationSession_set, if_pos rfl]
        exact counted_ended_iff h hget (OrdMap.insert_insert ..) rfl Bool.false_ne_true
      exact hended.trans ⟨fun hactive _ => hactive, fun hactive => hactive hlast⟩
    · refine iff_of_true ?_ fun hlast' => absurd hlast' hlast
      exact counted_kept h hget rfl rfl (isActive_withoutPlayer session p)

theorem Counted.step_iff (h : Counted s) (op : Op) : Counted (s.step op) ↔ KeepsCount s op := by
  cases op with
  | createExplorationSession name p =>
    rw [ExplorationMode.step, createExplorationSession, KeepsCount]
    split_ifs with hinit
    · refine Iff.trans ?_ ⟨fun hfree _ => hfree, fun hfree => hfree hinit⟩
      exact counted_up_iff h rfl
    · exact iff_of_true h fun hinit' => absurd hinit' hinit
  | leaveExplorationSession id p => exact h.leaveExplorationSession_iff id p
  | endExplorationSession id =>
    rw [ExplorationMode.step, endExplorationSession, KeepsCount]
    cases hget : s.getExplorationSession id with
    | none => exact iff_of_true h fun session hsome => absurd hsome.symm (Option.some_ne_none session)
    | some session =>
      simp only [Option.some_inj, forall_eq']
      exact counted_ended_iff h hget rfl rfl Bool.false_ne_true
  | _ =>
    refine iff_of_true (h.step fun id session count hw => ?_) trivial
    cases hw <;> rfl

theorem counted_along_iff (maxSessionSize maxContractParticipants : UInt32) (ops : List Op) :
    let start := initializeMode { maxSessionSize, maxContractParticipants }
    Run.Along step (fun s op => Counted (s.step op)) start ops ↔
      Run.Along step KeepsCount start ops := by
  intro start
  have hstart : Counted start := rfl
  refine Run.along_congr_of_step (fun s op h => ?_) hstart
  exact ⟨Counted.step_iff h op, (Counted.step_iff h op).mpr⟩

end ExplorationMode

/-- In either mode, the count is the number of active sessions after every call of a run exactly if
no call of the run ends a session that has ended. -/
theorem active_sessions_counted_iff (initialized : Bool)
    (maxSessionSize maxExplorationSize maxContractParticipants : UInt32)
    (storyOps : List Story.SharedStoryMode.Op) (explorationOps : List ExplorationMode.Op) :
    let story : Story.SharedStoryMode := { initialized, maxSessionSize }
    let exploration : ExplorationMode :=
      .initializeMode { maxSessionSize := maxExplorationSize, maxContractParticipants }
    (Run.Along Story.SharedStoryMode.step (fun s op => (s.step op).Counted) story storyOps ↔
      Run.Along Story.SharedStoryMode.step Story.SharedStoryMode.KeepsCount story storyOps) ∧
    (Run.Along ExplorationMode.step (fun s op => (s.step op).Counted) exploration explorationOps ↔
      Run.Along ExplorationMode.step ExplorationMode.KeepsCount exploration explorationOps) :=
  ⟨Story.SharedStoryMode.counted_along_iff initialized maxSessionSize storyOps,
    ExplorationMode.counted_along_iff maxExplorationSize maxContractParticipants explorationOps⟩

theorem not_active_sessions_counted_ended_twice :
    (¬ Run.Along Story.SharedStoryMode.step (fun s op => (s.step op).Counted) { initialized := true }
      [.createStorySession "Velen" .mainCampaign 7, .endStorySession 1, .endStorySession 1]) ∧
    ¬ Run.Along ExplorationMode.step (fun s op => (s.step op).Counted) (.initializeMode {})
      [.createExplorationSession "Velen" 7, .endExplorationSession 1, .endExplorationSession 1] := by
  decide +kernel

end WitcherMP.Exploration
