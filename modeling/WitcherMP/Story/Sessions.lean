import WitcherMP.Story.Defs
import WitcherMP.Lib.Party
import WitcherMP.Lib.Run

/-! An active session is a party at all times: its participants, its host and its roles
stay in line. -/

namespace WitcherMP.Story

structure StorySessionData.Shows (session : StorySessionData) (party : Party UInt32 StoryRole) :
    Prop where
  participants : session.participants = party.members
  host : session.hostPlayerId = party.host
  roles : session.playerRoles = party.roles

namespace SharedStoryMode

theorem withoutPlayer_of_ne {session : StorySessionData} {p : UInt32} (hp : session.hostPlayerId ≠ p) :
    withoutPlayer session p = { session with
      participants := session.participants.erase p
      playerRoles := session.playerRoles.erase p } := by
  unfold withoutPlayer
  dsimp only
  split
  · rfl
  · rw [if_neg hp]

theorem withoutPlayer_host {session : StorySessionData} {first : UInt32} {rest : List UInt32}
    (hrest : session.participants.erase session.hostPlayerId = first :: rest) :
    withoutPlayer session session.hostPlayerId = { session with
      hostPlayerId := first
      participants := first :: rest
      playerRoles := (session.playerRoles.erase session.hostPlayerId).insert first .host } := by
  unfold withoutPlayer
  dsimp only
  rw [hrest]
  dsimp only
  rw [if_pos rfl]

theorem exists_withoutPlayer (session : StorySessionData) (p : UInt32) :
    ∃ host roles, withoutPlayer session p = { session with
      hostPlayerId := host
      participants := session.participants.erase p
      playerRoles := roles } := by
  unfold withoutPlayer
  dsimp only
  split
  · exact ⟨session.hostPlayerId, _, rfl⟩
  · split_ifs
    · exact ⟨_, _, rfl⟩
    · exact ⟨session.hostPlayerId, _, rfl⟩

@[simp] theorem participants_withoutPlayer (session : StorySessionData) (p : UInt32) :
    (withoutPlayer session p).participants = session.participants.erase p := by
  obtain ⟨host, roles, heq⟩ := exists_withoutPlayer session p
  rw [heq]

@[simp] theorem isActive_withoutPlayer (session : StorySessionData) (p : UInt32) :
    (withoutPlayer session p).isActive = session.isActive := by
  obtain ⟨host, roles, heq⟩ := exists_withoutPlayer session p
  rw [heq]

end SharedStoryMode

namespace StorySessionData.Shows
open SharedStoryMode
variable {session : StorySessionData} {party : Party UInt32 StoryRole} {p : UInt32}

theorem enrol (h : session.Shows party) (hp : p ∉ session.participants) (role : StoryRole) :
    ∃ hnew, StorySessionData.Shows { session with
      participants := session.participants ++ [p]
      playerRoles := session.playerRoles.insert p role } (party.enrol p hnew role) :=
  ⟨h.participants ▸ hp, congrArg (· ++ [p]) h.participants, h.host, congrArg (·.insert p role) h.roles⟩

theorem assign (h : session.Shows party) (hp : p ∈ session.participants) (role : StoryRole) :
    ∃ hmem, StorySessionData.Shows { session with
      playerRoles := session.playerRoles.insert p role } (party.assign p hmem role) :=
  ⟨h.participants ▸ hp, h.participants, h.host, congrArg (·.insert p role) h.roles⟩

theorem handOver (h : session.Shows party) (hp : p ∈ session.participants) :
    ∃ hmem, StorySessionData.Shows { session with
        hostPlayerId := p
        playerRoles := (session.playerRoles.insert session.hostPlayerId .participant).insert p .host }
      (((party.assign party.host party.host_mem .participant).assign p hmem .host).appoint p hmem) := by
  refine ⟨h.participants ▸ hp, h.participants, rfl, ?_⟩
  rw [h.roles, h.host]
  rfl

theorem succeed (h : session.Shows party) (hleft : session.participants.erase party.host ≠ []) :
    ∃ heir hheir, (withoutPlayer session party.host).Shows
      ((party.dismiss party.host heir hheir).assign heir hheir .host) := by
  obtain ⟨first, rest, hrest⟩ := List.exists_cons_of_ne_nil hleft
  have hmembers : first :: rest = party.members.erase party.host := by rw [← h.participants, hrest]
  have hfirst : first ∈ party.members.erase party.host := hmembers ▸ List.mem_cons_self ..
  refine ⟨first, hfirst, ?_⟩
  rw [← h.host] at hrest
  have heq := withoutPlayer_host hrest
  rw [h.host] at heq
  rw [heq]
  refine ⟨hmembers, rfl, ?_⟩
  exact congrArg (fun roles => (roles.erase party.host).insert first .host) h.roles

theorem dismiss (h : session.Shows party) (hp : p ≠ party.host) :
    ∃ hstays, (withoutPlayer session p).Shows (party.dismiss p party.host hstays) := by
  have hstays : party.host ∈ party.members.erase p := (List.mem_erase_of_ne hp.symm).mpr party.host_mem
  refine ⟨hstays, ?_⟩
  rw [withoutPlayer_of_ne (h.host ▸ hp.symm)]
  exact ⟨congrArg (·.erase p) h.participants, h.host, congrArg (·.erase p) h.roles⟩

theorem withoutPlayer (h : session.Shows party) (p : UInt32)
    (hleft : session.participants.erase p ≠ []) : ∃ party, (withoutPlayer session p).Shows party := by
  by_cases hp : p = party.host
  · subst hp
    obtain ⟨heir, hheir, hshows'⟩ := h.succeed hleft
    exact ⟨_, hshows'⟩
  · obtain ⟨hstays, hshows'⟩ := h.dismiss hp
    exact ⟨_, hshows'⟩

end StorySessionData.Shows

namespace SharedStoryMode

def Hosted (session : StorySessionData) : Prop := session.isActive → ∃ party, session.Shows party

def Sound (s : SharedStoryMode) : Prop :=
  ∀ id session, s.getStorySession id = some session → Hosted session

variable {s : SharedStoryMode} {session : StorySessionData}

theorem getStorySession_set (s : SharedStoryMode) (id id' : UInt32) (session : StorySessionData) :
    (s.setStorySession id session).getStorySession id'
      = if id = id' then some session else s.getStorySession id' := OrdMap.find?_insert ..

inductive Writes (s : SharedStoryMode) : Op → StorySessionData → Prop
  | created {name : String} {type : StoryModeType} {p : UInt32} (hinit : s.initialized) :
    Writes s (.createStorySession name type p) {
      sessionId := s.nextSessionId, sessionName := name, storyType := type, hostPlayerId := p
      participants := [p], playerRoles := OrdMap.empty.insert p .host, isActive := true }
  | joined {id p : UInt32} {role : StoryRole} {session : StorySessionData}
    (hget : s.getStorySession id = some session) (hactive : session.isActive)
    (hroom : session.participants.length < s.maxSessionSize.toNat) (hnew : p ∉ session.participants) :
    Writes s (.joinStorySession id p role) { session with
      participants := session.participants ++ [p]
      playerRoles := session.playerRoles.insert p role }
  | left {id p : UInt32} {session : StorySessionData} (hget : s.getStorySession id = some session)
    (hactive : session.isActive) (hleft : session.participants.erase p ≠ []) :
    Writes s (.leaveStorySession id p) (withoutPlayer session p)
  | kicked {id p : UInt32} {session : StorySessionData} (hget : s.getStorySession id = some session)
    (hactive : session.isActive) (hin : p ∈ session.participants)
    (hleft : session.participants.erase p ≠ []) :
    Writes s (.kickPlayer id p) (withoutPlayer session p)
  | given {id p : UInt32} {role : StoryRole} {session : StorySessionData}
    (hget : s.getStorySession id = some session) (hactive : session.isActive)
    (hin : p ∈ session.participants) :
    Writes s (.setPlayerRole id p role) { session with
      playerRoles := session.playerRoles.insert p role }
  | handedOver {id p p' : UInt32} {session : StorySessionData}
    (hget : s.getStorySession id = some session) (hactive : session.isActive)
    (hhost : session.hostPlayerId = p) (hin : p' ∈ session.participants) :
    Writes s (.transferHost id p p') { session with
      hostPlayerId := p'
      playerRoles := (session.playerRoles.insert p .participant).insert p' .host }

def EveryActive (P : StorySessionData → Prop) (s : SharedStoryMode) : Prop :=
  ∀ id session, s.getStorySession id = some session → session.isActive → P session

variable {P : StorySessionData → Prop}

theorem EveryActive.set (h : EveryActive P s) (id : UInt32) (hsession : session.isActive → P session) :
    EveryActive P (s.setStorySession id session) := by
  intro id' session' hget hactive
  rw [getStorySession_set] at hget
  split_ifs at hget with hid
  · obtain rfl := Option.some.inj hget
    exact hsession hactive
  · exact h id' session' hget hactive

theorem EveryActive.congr {s' : SharedStoryMode} (h : EveryActive P s)
    (hs' : s'.storySessions = s.storySessions) : EveryActive P s' := by
  intro id session hget
  refine h id session ?_
  rwa [getStorySession, ← hs']

theorem EveryActive.written {s' : SharedStoryMode} (h : EveryActive P s') {id : UInt32}
    (hs' : s'.storySessions = s.storySessions.insert id session) (hactive : session.isActive) :
    P session := by
  refine h id session ?_ hactive
  rw [getStorySession, hs', OrdMap.find?_insert_self]

theorem EveryActive.write_iff (h : EveryActive P s) {s' : SharedStoryMode} {id : UInt32}
    (hs' : s'.storySessions = s.storySessions.insert id session) (hactive : session.isActive) :
    EveryActive P s' ↔ P session := by
  constructor
  · intro h'
    exact h'.written hs' hactive
  · intro hp
    exact EveryActive.congr (h.set id fun _ => hp) hs'

theorem EveryActive.set_iff (h : EveryActive P s) {s' : SharedStoryMode} {id : UInt32} {op : Op}
    (hs' : s'.storySessions = s.storySessions.insert id session) (hactive : session.isActive)
    (hw : Writes s op session) (honly : ∀ session', Writes s op session' → session' = session) :
    EveryActive P s' ↔ ∀ session', Writes s op session' → P session' := by
  rw [h.write_iff hs' hactive]
  constructor
  · intro hp session' hw'
    rw [honly session' hw']
    exact hp
  · intro hall
    exact hall session hw

theorem EveryActive.endStorySession (h : EveryActive P s) (id : UInt32) :
    EveryActive P (s.endStorySession id).1 := by
  unfold SharedStoryMode.endStorySession
  cases hget : s.getStorySession id with
  | none => exact h
  | some session =>
    refine (h.set id ?_).congr rfl
    exact fun hactive => absurd hactive Bool.false_ne_true

theorem EveryActive.leaveStorySession_iff (h : EveryActive P s) (id p : UInt32) :
    EveryActive P (s.leaveStorySession id p).1 ↔ ∀ session, s.getStorySession id = some session →
      session.isActive → session.participants.erase p ≠ [] → P (withoutPlayer session p) := by
  unfold SharedStoryMode.leaveStorySession
  cases hget : s.getStorySession id with
  | none => exact iff_of_true h fun session hsome => nomatch hsome
  | some session =>
    simp only [Option.some_inj, forall_eq', participants_withoutPlayer]
    split_ifs with hempty
    · refine iff_of_true ?_ fun _ hleft => absurd hempty hleft
      unfold SharedStoryMode.endStorySession
      rw [getStorySession_set, if_pos rfl]
      refine EveryActive.congr (s := s.setStorySession id
        { withoutPlayer session p with isActive := false }) (h.set id ?_) ?_
      · exact fun hactive => absurd hactive Bool.false_ne_true
      · exact OrdMap.insert_insert ..
    · constructor
      · exact fun h' hactive _ => h'.written rfl ((isActive_withoutPlayer session p).trans hactive)
      · intro hp
        refine h.set id fun hactive => ?_
        rw [isActive_withoutPlayer] at hactive
        exact hp hactive hempty

theorem EveryActive.tested_iff (h : EveryActive P s) {op : Op} (id : UInt32)
    (test : StorySessionData → Prop) (change : StorySessionData → StorySessionData)
    (hactive : ∀ session, test session → (change session).isActive)
    (hwrites : ∀ session', Writes s op session' ↔
      ∃ session, s.getStorySession id = some session ∧ test session ∧ change session = session')
    (hset : ∀ session, s.getStorySession id = some session → test session →
      s.step op = s.setStorySession id (change session))
    (hskip : (∀ session, s.getStorySession id = some session → ¬ test session) → s.step op = s) :
    EveryActive P (s.step op) ↔ ∀ session', Writes s op session' → P session' := by
  by_cases htest : ∃ session, s.getStorySession id = some session ∧ test session
  · obtain ⟨session, hget, htest⟩ := htest
    rw [hset session hget htest]
    refine h.set_iff rfl (hactive session htest) ((hwrites _).mpr ⟨session, hget, htest, rfl⟩) ?_
    intro session' hw
    obtain ⟨session₂, hget', -, rfl⟩ := (hwrites session').mp hw
    rw [Option.some.inj (hget.symm.trans hget')]
  · rw [hskip fun session hget hok => htest ⟨session, hget, hok⟩]
    refine iff_of_true h fun session' hw => ?_
    obtain ⟨session, hget, hok, -⟩ := (hwrites session').mp hw
    exact absurd ⟨session, hget, hok⟩ htest

theorem EveryActive.joinStorySession_iff (h : EveryActive P s) (id p : UInt32) (role : StoryRole) :
    EveryActive P (s.step (.joinStorySession id p role)) ↔
      ∀ session', Writes s (.joinStorySession id p role) session' → P session' := by
  refine h.tested_iff id
    (fun session => session.isActive ∧
      session.participants.length < s.maxSessionSize.toNat ∧ p ∉ session.participants)
    (fun session => { session with
      participants := session.participants ++ [p]
      playerRoles := session.playerRoles.insert p role })
    (fun session hok => hok.1) (fun session' => ⟨?_, ?_⟩) (fun session hget hok => ?_) fun hnone => ?_
  · intro hw
    cases hw with
    | joined hget hactive hroom hnew => exact ⟨_, hget, ⟨hactive, hroom, hnew⟩, rfl⟩
  · rintro ⟨session, hget, ⟨hactive, hroom, hnew⟩, rfl⟩
    exact .joined hget hactive hroom hnew
  · obtain ⟨hactive, hroom, hnew⟩ := hok
    rw [SharedStoryMode.step, joinStorySession, hget]
    dsimp only
    rw [if_neg (not_not.mpr hactive), if_neg (Nat.not_le.mpr hroom),
      if_neg (mt List.contains_iff_mem.mp hnew)]
  · rw [SharedStoryMode.step, joinStorySession]
    cases hget : s.getStorySession id with
    | none => rfl
    | some session =>
      dsimp only
      split_ifs with hactive hfull hin
      iterate 2 rfl
      · exact absurd ⟨hactive, Nat.lt_of_not_le hfull, mt List.contains_iff_mem.mpr hin⟩
          (hnone session hget)
      · rfl

theorem EveryActive.setPlayerRole_iff (h : EveryActive P s) (id p : UInt32) (role : StoryRole) :
    EveryActive P (s.step (.setPlayerRole id p role)) ↔
      ∀ session', Writes s (.setPlayerRole id p role) session' → P session' := by
  refine h.tested_iff id (fun session => session.isActive ∧ p ∈ session.participants)
    (fun session => { session with playerRoles := session.playerRoles.insert p role })
    (fun session hok => hok.1) (fun session' => ⟨?_, ?_⟩) (fun session hget hok => ?_) fun hnone => ?_
  · intro hw
    cases hw with
    | given hget hactive hin => exact ⟨_, hget, ⟨hactive, hin⟩, rfl⟩
  · rintro ⟨session, hget, ⟨hactive, hin⟩, rfl⟩
    exact .given hget hactive hin
  · obtain ⟨hactive, hin⟩ := hok
    rw [SharedStoryMode.step, setPlayerRole, hget]
    dsimp only
    rw [if_neg (not_not.mpr hactive), if_neg (not_not.mpr (List.contains_iff_mem.mpr hin))]
  · rw [SharedStoryMode.step, setPlayerRole]
    cases hget : s.getStorySession id with
    | none => rfl
    | some session =>
      dsimp only
      split_ifs with hactive hin
      · exact absurd ⟨hactive, List.contains_iff_mem.mp hin⟩ (hnone session hget)
      iterate 2 rfl

theorem EveryActive.transferHost_iff (h : EveryActive P s) (id p p' : UInt32) :
    EveryActive P (s.step (.transferHost id p p')) ↔
      ∀ session', Writes s (.transferHost id p p') session' → P session' := by
  refine h.tested_iff id
    (fun session => session.isActive ∧ session.hostPlayerId = p ∧ p' ∈ session.participants)
    (fun session => { session with
      hostPlayerId := p'
      playerRoles := (session.playerRoles.insert p .participant).insert p' .host })
    (fun session hok => hok.1) (fun session' => ⟨?_, ?_⟩) (fun session hget hok => ?_) fun hnone => ?_
  · intro hw
    cases hw with
    | handedOver hget hactive hhost hin => exact ⟨_, hget, ⟨hactive, hhost, hin⟩, rfl⟩
  · rintro ⟨session, hget, ⟨hactive, hhost, hin⟩, rfl⟩
    exact .handedOver hget hactive hhost hin
  · obtain ⟨hactive, hhost, hin⟩ := hok
    rw [SharedStoryMode.step, transferHost, hget]
    dsimp only
    rw [if_neg (not_not.mpr hactive), if_neg (not_not.mpr hhost),
      if_neg (not_not.mpr (List.contains_iff_mem.mpr hin))]
  · rw [SharedStoryMode.step, transferHost]
    cases hget : s.getStorySession id with
    | none => rfl
    | some session =>
      dsimp only
      split_ifs with hactive hother hin
      · rfl
      · exact absurd ⟨hactive, not_ne_iff.mp hother, List.contains_iff_mem.mp hin⟩
          (hnone session hget)
      iterate 2 rfl

theorem EveryActive.kickPlayer_iff (h : EveryActive P s) (id p : UInt32) :
    EveryActive P (s.step (.kickPlayer id p)) ↔
      ∀ session', Writes s (.kickPlayer id p) session' → P session' := by
  have hleave := h.leaveStorySession_iff id p
  rw [SharedStoryMode.step, kickPlayer]
  cases hget : s.getStorySession id with
  | none =>
    refine iff_of_true h fun session' hw => ?_
    cases hw with
    | kicked hget' => exact nomatch hget.symm.trans hget'
  | some session =>
    simp only [hget, Option.some_inj, forall_eq'] at hleave
    dsimp only
    split_ifs with hactive hin
    · refine hleave.trans ⟨fun hp session' hw => ?_, fun hp _ hleft => ?_⟩
      · cases hw with
        | kicked hget' hactive' _ hleft =>
          obtain rfl := Option.some.inj (hget.symm.trans hget')
          exact hp hactive' hleft
      · exact hp _ (.kicked hget hactive (List.contains_iff_mem.mp hin) hleft)
    · refine iff_of_true h fun session' hw => ?_
      cases hw with
      | kicked hget' _ hin' =>
        obtain rfl := Option.some.inj (hget.symm.trans hget')
        exact absurd (List.contains_iff_mem.mpr hin') hin
    · refine iff_of_true h fun session' hw => ?_
      cases hw with
      | kicked hget' hactive' =>
        obtain rfl := Option.some.inj (hget.symm.trans hget')
        exact absurd hactive' hactive

theorem EveryActive.step_iff (h : EveryActive P s) (op : Op) :
    EveryActive P (s.step op) ↔ ∀ session, Writes s op session → P session := by
  cases op with
  | createStorySession name type p =>
    rw [SharedStoryMode.step, createStorySession]
    split_ifs with hinit
    · refine h.set_iff rfl rfl (.created hinit) fun session' hw => ?_
      cases hw
      rfl
    · refine iff_of_true h fun session' hw => ?_
      cases hw with
      | created hinit' => exact absurd hinit' hinit
  | joinStorySession id p role => exact h.joinStorySession_iff id p role
  | leaveStorySession id p =>
    refine (h.leaveStorySession_iff id p).trans ⟨fun hp session' hw => ?_, ?_⟩
    · cases hw with
      | left hget hactive hleft => exact hp _ hget hactive hleft
    · exact fun hp session hget hactive hleft => hp _ (.left hget hactive hleft)
  | endStorySession id =>
    refine iff_of_true (h.endStorySession id) fun session' hw => ?_
    cases hw
  | setPlayerRole id p role => exact h.setPlayerRole_iff id p role
  | transferHost id p p' => exact h.transferHost_iff id p p'
  | kickPlayer id p => exact h.kickPlayer_iff id p
  | setMaxSessionSize n =>
    refine iff_of_true (h.congr rfl) fun session' hw => ?_
    cases hw

theorem sound_initial (initialized : Bool) (maxSessionSize : UInt32) :
    Sound { initialized := initialized, maxSessionSize := maxSessionSize } :=
  fun _ _ h => nomatch h

theorem Sound.writes (h : Sound s) {op : Op} (hw : Writes s op session) :
    ∃ party, session.Shows party := by
  cases hw with
  | created hinit => exact ⟨Party.solo _ .host, rfl, rfl, rfl⟩
  | joined hget hactive hroom hnew =>
    obtain ⟨party, hshows⟩ := h _ _ hget hactive
    obtain ⟨hmem, hshows'⟩ := hshows.enrol hnew _
    exact ⟨_, hshows'⟩
  | left hget hactive hleft =>
    obtain ⟨party, hshows⟩ := h _ _ hget hactive
    exact hshows.withoutPlayer _ hleft
  | kicked hget hactive hin hleft =>
    obtain ⟨party, hshows⟩ := h _ _ hget hactive
    exact hshows.withoutPlayer _ hleft
  | given hget hactive hin =>
    obtain ⟨party, hshows⟩ := h _ _ hget hactive
    obtain ⟨hmem, hshows'⟩ := hshows.assign hin _
    exact ⟨_, hshows'⟩
  | handedOver hget hactive hhost hin =>
    subst hhost
    obtain ⟨party, hshows⟩ := h _ _ hget hactive
    obtain ⟨hmem, hshows'⟩ := hshows.handOver hin
    exact ⟨_, hshows'⟩

theorem Sound.step (h : Sound s) (op : Op) : Sound (s.step op) :=
  (EveryActive.step_iff (P := fun session => ∃ party, session.Shows party) h op).mpr
    fun _ hw => h.writes hw

/-- Whatever is called in whatever order, an active session has its participants once each,
one of them its host, and roles for just these. -/
theorem sessions_aligned (initialized : Bool) (maxSessionSize : UInt32) (ops : List Op) :
    let s := Run.run SharedStoryMode.step
      { initialized := initialized, maxSessionSize := maxSessionSize } ops
    ∀ id session, s.getStorySession id = some session → session.isActive →
      session.participants.Nodup ∧ session.participants ≠ [] ∧
      session.hostPlayerId ∈ session.participants ∧
      session.playerRoles.keys = session.participants.toFinset := by
  intro s id session hget hactive
  have hsound : Sound s :=
    Run.invariant_run (fun _ op h => h.step op) (sound_initial initialized maxSessionSize) ops
  obtain ⟨party, hpart, hhost, hroles⟩ := hsound id session hget hactive
  rw [hpart, hhost, hroles]
  exact ⟨party.nodup, party.nonempty, party.host_mem, party.keyed⟩

theorem sessions_aligned_inherited :
    let s := Run.run SharedStoryMode.step { initialized := true }
      [.createStorySession "Velen" .mainCampaign 7, .joinStorySession 1 8 .spectator,
        .leaveStorySession 1 7]
    ∃ session, s.getStorySession 1 = some session ∧ session.isActive ∧
      session.hostPlayerId = 8 ∧ session.playerRoles.keys = session.participants.toFinset := by
  refine ⟨{
    sessionId := 1, sessionName := "Velen", storyType := .mainCampaign, hostPlayerId := 8
    participants := [8], playerRoles := OrdMap.empty.insert 8 .host, isActive := true },
    by decide +kernel, rfl, rfl, ?_⟩
  exact (sessions_aligned true 4 [.createStorySession "Velen" .mainCampaign 7,
    .joinStorySession 1 8 .spectator, .leaveStorySession 1 7] 1 _ (by decide +kernel) rfl).2.2.2

end SharedStoryMode
end WitcherMP.Story
