import WitcherMP.Story.Sessions

/-! The role of the host and the field that names the host. Handing over and leaving write both;
joining and giving roles write the roles alone. -/

namespace WitcherMP.Story

def StorySessionData.Ruled (session : StorySessionData) : Prop :=
  session.participants.filter (fun p => session.playerRoles.find? p = some .host)
    = [session.hostPlayerId]

theorem StorySessionData.Shows.ruled_iff {session : StorySessionData} {party : Party UInt32 StoryRole}
    (h : session.Shows party) : session.Ruled ↔ party.Crowned .host := by
  rw [Ruled, h.participants, h.host, h.roles]
  exact Party.crowned_iff_filter.symm

namespace SharedStoryMode

/-- A player who joins does not come as host, and the host and nobody else is given the role. -/
def KeepsRoles (s : SharedStoryMode) : Op → Prop
  | .joinStorySession id p role => ∀ session, s.getStorySession id = some session →
    session.isActive → session.participants.length < s.maxSessionSize.toNat →
      p ∉ session.participants → role ≠ .host
  | .setPlayerRole id p role => ∀ session, s.getStorySession id = some session →
    session.isActive → p ∈ session.participants → (role = .host ↔ p = session.hostPlayerId)
  | _ => True

variable {s : SharedStoryMode} {session : StorySessionData} {id p : UInt32}

section Written
variable (hsound : Sound s) (h : EveryActive StorySessionData.Ruled s)
include hsound h

theorem EveryActive.crowned (hget : s.getStorySession id = some session) (hactive : session.isActive) :
    ∃ party, session.Shows party ∧ party.Crowned .host := by
  obtain ⟨party, hshows⟩ := hsound id session hget hactive
  exact ⟨party, hshows, hshows.ruled_iff.mp (h id session hget hactive)⟩

theorem EveryActive.ruled_withoutPlayer (hget : s.getStorySession id = some session)
    (hactive : session.isActive) (p : UInt32) (hleft : session.participants.erase p ≠ []) :
    (withoutPlayer session p).Ruled := by
  obtain ⟨party, hshows, hcrowned⟩ := EveryActive.crowned hsound h hget hactive
  by_cases hp : p = party.host
  · subst hp
    obtain ⟨heir, hheir, hshows'⟩ := hshows.succeed hleft
    exact hshows'.ruled_iff.mpr (hcrowned.succeed hheir)
  · obtain ⟨hstays, hshows'⟩ := hshows.dismiss hp
    exact hshows'.ruled_iff.mpr (hcrowned.dismiss hstays)

theorem EveryActive.ruled_step_iff (op : Op) :
    EveryActive StorySessionData.Ruled (s.step op) ↔ KeepsRoles s op := by
  rw [h.step_iff]
  cases op with
  | createStorySession name type p =>
    refine iff_of_true (fun session hw => ?_) trivial
    cases hw with
    | created hinit =>
      have hshows : StorySessionData.Shows {
          sessionId := s.nextSessionId, sessionName := name, storyType := type, hostPlayerId := p
          participants := [p], playerRoles := OrdMap.empty.insert p .host, isActive := true }
          (Party.solo p .host) := ⟨rfl, rfl, rfl⟩
      exact hshows.ruled_iff.mpr (Party.crowned_solo p)
  | joinStorySession id p role =>
    constructor
    · intro hw session hget hactive hroom hnew
      obtain ⟨party, hshows, hcrowned⟩ := EveryActive.crowned hsound h hget hactive
      obtain ⟨hmem, hshows'⟩ := hshows.enrol hnew role
      have hruled := hshows'.ruled_iff.mp (hw _ (.joined hget hactive hroom hnew))
      exact (Party.crowned_enrol_iff hcrowned hmem role).mp hruled
    · intro hkeeps _ hw
      cases hw with
      | joined hget hactive hroom hnew =>
        obtain ⟨party, hshows, hcrowned⟩ := EveryActive.crowned hsound h hget hactive
        obtain ⟨hmem, hshows'⟩ := hshows.enrol hnew role
        have hrole := hkeeps _ hget hactive hroom hnew
        exact hshows'.ruled_iff.mpr ((Party.crowned_enrol_iff hcrowned hmem role).mpr hrole)
  | leaveStorySession id p =>
    refine iff_of_true (fun session hw => ?_) trivial
    cases hw with
    | left hget hactive hleft => exact EveryActive.ruled_withoutPlayer hsound h hget hactive p hleft
  | endStorySession id => exact iff_of_true (fun session hw => nomatch hw) trivial
  | setPlayerRole id p role =>
    constructor
    · intro hw session hget hactive hin
      obtain ⟨party, hshows, hcrowned⟩ := EveryActive.crowned hsound h hget hactive
      obtain ⟨hmem, hshows'⟩ := hshows.assign hin role
      have hruled := hshows'.ruled_iff.mp (hw _ (.given hget hactive hin))
      rw [hshows.host]
      exact (Party.crowned_assign_iff hcrowned hmem role).mp hruled
    · intro hkeeps _ hw
      cases hw with
      | @given _ _ _ session hget hactive hin =>
        obtain ⟨party, hshows, hcrowned⟩ := EveryActive.crowned hsound h hget hactive
        obtain ⟨hmem, hshows'⟩ := hshows.assign hin role
        have hrole := hkeeps session hget hactive hin
        rw [hshows.host] at hrole
        exact hshows'.ruled_iff.mpr ((Party.crowned_assign_iff hcrowned hmem role).mpr hrole)
  | transferHost id p p' =>
    refine iff_of_true (fun session hw => ?_) trivial
    cases hw with
    | handedOver hget hactive hhost hin =>
      subst hhost
      obtain ⟨party, hshows, hcrowned⟩ := EveryActive.crowned hsound h hget hactive
      obtain ⟨hmem, hshows'⟩ := hshows.handOver hin
      exact hshows'.ruled_iff.mpr (hcrowned.handOver hmem (by decide))
  | kickPlayer id p =>
    refine iff_of_true (fun session hw => ?_) trivial
    cases hw with
    | kicked hget hactive hin hleft =>
      exact EveryActive.ruled_withoutPlayer hsound h hget hactive p hleft
  | setMaxSessionSize n => exact iff_of_true (fun session hw => nomatch hw) trivial

end Written

/-- Role and field name the same host after every call exactly if nobody joins as host, and
the role is given to the host alone and never taken from the host. -/
theorem sole_hosts_along_iff (initialized : Bool) (maxSessionSize : UInt32) (ops : List Op) :
    let start : SharedStoryMode := { initialized := initialized, maxSessionSize := maxSessionSize }
    Run.Along step (fun s op => EveryActive StorySessionData.Ruled (s.step op)) start ops ↔
      Run.Along step KeepsRoles start ops := by
  intro start
  refine Run.along_congr_of_step (I := fun s => Sound s ∧ EveryActive StorySessionData.Ruled s)
    (fun s op h => ?_) ⟨sound_initial initialized maxSessionSize, fun _ _ h => nomatch h⟩
  have hiff := EveryActive.ruled_step_iff h.1 h.2 op
  exact ⟨hiff, fun hkeeps => ⟨h.1.step op, hiff.mpr hkeeps⟩⟩

theorem not_sole_hosts_joined :
    ¬ Run.Along step (fun s op => EveryActive StorySessionData.Ruled (s.step op)) { initialized := true }
      [.createStorySession "Velen" .mainCampaign 7, .joinStorySession 1 8 .host] := by
  intro h
  let session : StorySessionData := {
    sessionId := 1, sessionName := "Velen", storyType := .mainCampaign, hostPlayerId := 7
    participants := [7, 8], playerRoles := (OrdMap.empty.insert 7 .host).insert 8 .host
    isActive := true }
  have hruled : session.Ruled := h.2.1 1 session (by decide +kernel) rfl
  revert hruled
  unfold StorySessionData.Ruled
  decide +kernel

end SharedStoryMode
end WitcherMP.Story
