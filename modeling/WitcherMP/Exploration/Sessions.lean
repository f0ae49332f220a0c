import WitcherMP.Exploration.Defs
import WitcherMP.Lib.Run

/-! What a call does to the table of sessions and to the count of those that are active. -/

namespace WitcherMP.Exploration.ExplorationMode
open FirstMatch

theorem exists_withoutPlayer (session : ExplorationSessionData) (p : UInt32) :
    ∃ host, withoutPlayer session p = { session with
      hostPlayerId := host
      participants := session.participants.erase p
      playerPositions := session.playerPositions.erase p
      playerRegions := session.playerRegions.erase p } := by
  unfold withoutPlayer
  dsimp only
  split
  · exact ⟨session.hostPlayerId, rfl⟩
  · split_ifs
    · exact ⟨_, rfl⟩
    · exact ⟨session.hostPlayerId, rfl⟩

@[simp] theorem participants_withoutPlayer (session : ExplorationSessionData) (p : UInt32) :
    (withoutPlayer session p).participants = session.participants.erase p := by
  obtain ⟨host, heq⟩ := exists_withoutPlayer session p
  rw [heq]

@[simp] theorem isActive_withoutPlayer (session : ExplorationSessionData) (p : UInt32) :
    (withoutPlayer session p).isActive = session.isActive := by
  obtain ⟨host, heq⟩ := exists_withoutPlayer session p
  rw [heq]

@[simp] theorem fastTravelPoints_withoutPlayer (session : ExplorationSessionData) (p : UInt32) :
    (withoutPlayer session p).fastTravelPoints = session.fastTravelPoints := by
  obtain ⟨host, heq⟩ := exists_withoutPlayer session p
  rw [heq]

theorem getExplorationSession_set (s : ExplorationMode) (id id' : UInt32)
    (session : ExplorationSessionData) :
    (s.setExplorationSession id session).getExplorationSession id'
      = if id = id' then some session else s.getExplorationSession id' := OrdMap.find?_insert ..

inductive Writes (s : ExplorationMode) : Op → UInt32 → ExplorationSessionData → UInt32 → Prop
  | created {name : String} {p : UInt32} (hinit : s.initialized) :
    Writes s (.createExplorationSession name p) s.nextSessionId
      { sessionId := s.nextSessionId, sessionName := name, hostPlayerId := p, participants := [p]
        isActive := true } (s.stats.activeSessions + 1)
  | joined {id p : UInt32} {session : ExplorationSessionData}
    (hget : s.getExplorationSession id = some session) (hactive : session.isActive)
    (hroom : session.participants.length < s.maxSessionSize.toNat) (hnew : p ∉ session.participants) :
    Writes s (.joinExplorationSession id p) id
      { session with participants := session.participants ++ [p] } s.stats.activeSessions
  | left {id p : UInt32} {session : ExplorationSessionData}
    (hget : s.getExplorationSession id = some session) (hleft : session.participants.erase p ≠ []) :
    Writes s (.leaveExplorationSession id p) id (withoutPlayer session p) s.stats.activeSessions
  | leftLast {id p : UInt32} {session : ExplorationSessionData}
    (hget : s.getExplorationSession id = some session) (hnone : session.participants.erase p = []) :
    Writes s (.leaveExplorationSession id p) id { withoutPlayer session p with isActive := false }
      (s.stats.activeSessions - 1)
  | ended {id : UInt32} {session : ExplorationSessionData}
    (hget : s.getExplorationSession id = some session) :
    Writes s (.endExplorationSession id) id { session with isActive := false }
      (s.stats.activeSessions - 1)
  | positioned {id p : UInt32} {v : Combat.Vector4F} {session : ExplorationSessionData}
    (hget : s.getExplorationSession id = some session) (hactive : session.isActive) :
    Writes s (.updatePlayerPosition id p v) id
      { session with playerPositions := session.playerPositions.insert p v } s.stats.activeSessions
  | placed {id p : UInt32} {r : ExplorationRegion} {session : ExplorationSessionData}
    (hget : s.getExplorationSession id = some session) (hactive : session.isActive) :
    Writes s (.updatePlayerRegion id p r) id
      { session with playerRegions := session.playerRegions.insert p r } s.stats.activeSessions
  | unlocked {id k : UInt32} {point : FastTravelPoint} {session : ExplorationSessionData}
    (hget : s.getExplorationSession id = some session) (hactive : session.isActive)
    (hpoint : s.fastTravelPoints.find? k = some point) :
    Writes s (.unlockFastTravelPoint id k) id { session with
      fastTravelPoints := session.fastTravelPoints ++ [{ point with isUnlocked := true }] }
      s.stats.activeSessions
  | locked {id k : UInt32} {session : ExplorationSessionData}
    (hget : s.getExplorationSession id = some session) (hactive : session.isActive) :
    Writes s (.lockFastTravelPoint id k) id { session with
      fastTravelPoints := modifyFirst (·.pointId = k) (fun point =>
        { point with isUnlocked := false }) session.fastTravelPoints } s.stats.activeSessions
  | traveled {id p k : UInt32} {point : FastTravelPoint} {session : ExplorationSessionData}
    (hget : s.getExplorationSession id = some session) (hactive : session.isActive)
    (hin : p ∈ session.participants)
    (hfound : session.fastTravelPoints.find? (isOpen k) = some point) :
    Writes s (.fastTravelToPoint id p k) id
      { session with playerPositions := session.playerPositions.insert p point.position }
      s.stats.activeSessions

structure Effect (s : ExplorationMode) (op : Op) (s' : ExplorationMode) : Prop where
  points : s'.fastTravelPoints = s.fastTravelPoints
  sessions : (s'.explorationSessions = s.explorationSessions ∧
      s'.stats.activeSessions = s.stats.activeSessions) ∨
    ∃ id session count, Writes s op id session count ∧
      s'.explorationSessions = s.explorationSessions.insert id session ∧
      s'.stats.activeSessions = count

variable {s : ExplorationMode}

theorem Effect.none (s : ExplorationMode) (op : Op) : Effect s op s := ⟨rfl, Or.inl ⟨rfl, rfl⟩⟩

theorem Effect.some {op : Op} {id : UInt32} {session : ExplorationSessionData}
    (hw : Writes s op id session s.stats.activeSessions) :
    Effect s op (s.setExplorationSession id session) :=
  ⟨rfl, Or.inr ⟨id, session, _, hw, rfl, rfl⟩⟩

theorem effect_leaveExplorationSession (id p : UInt32) :
    Effect s (.leaveExplorationSession id p) (s.leaveExplorationSession id p).1 := by
  unfold leaveExplorationSession
  cases hget : s.getExplorationSession id with
  | none => exact Effect.none s _
  | some session =>
    simp only [participants_withoutPlayer]
    split_ifs with hnone
    · unfold endExplorationSession
      rw [getExplorationSession_set, if_pos rfl]
      refine ⟨rfl, Or.inr ⟨id, _, _, .leftLast hget hnone, ?_, rfl⟩⟩
      exact OrdMap.insert_insert ..
    · exact Effect.some (.left hget hnone)

theorem effect_createExplorationSession (name : String) (p : UInt32) :
    Effect s (.createExplorationSession name p) (s.createExplorationSession name p).1 := by
  rw [createExplorationSession]
  split_ifs with hinit
  · exact ⟨rfl, Or.inr ⟨_, _, _, .created hinit, rfl, rfl⟩⟩
  · exact Effect.none s _

theorem effect_joinExplorationSession (id p : UInt32) :
    Effect s (.joinExplorationSession id p) (s.joinExplorationSession id p).1 := by
  rw [joinExplorationSession]
  cases hget : s.getExplorationSession id with
  | none => exact Effect.none s _
  | some session =>
    dsimp only
    split_ifs with hactive hfull hin
    · exact Effect.none s _
    · exact Effect.none s _
    · refine Effect.some (.joined hget hactive (Nat.lt_of_not_le hfull) fun hp => ?_)
      exact hin (List.contains_iff_mem.mpr hp)
    · exact Effect.none s _

theorem effect_endExplorationSession (id : UInt32) :
    Effect s (.endExplorationSession id) (s.endExplorationSession id).1 := by
  rw [endExplorationSession]
  cases hget : s.getExplorationSession id with
  | none => exact Effect.none s _
  | some session => exact ⟨rfl, Or.inr ⟨_, _, _, .ended hget, rfl, rfl⟩⟩

theorem effect_updatePlayerPosition (id p : UInt32) (v : Combat.Vector4F) :
    Effect s (.updatePlayerPosition id p v) (s.updatePlayerPosition id p v).1 := by
  rw [updatePlayerPosition]
  cases hget : s.getExplorationSession id with
  | none => exact Effect.none s _
  | some session =>
    dsimp only
    split_ifs with hactive
    · exact Effect.some (.positioned hget hactive)
    · exact Effect.none s _

theorem effect_updatePlayerRegion (id p : UInt32) (r : ExplorationRegion) :
    Effect s (.updatePlayerRegion id p r) (s.updatePlayerRegion id p r).1 := by
  rw [updatePlayerRegion]
  cases hget : s.getExplorationSession id with
  | none => exact Effect.none s _
  | some session =>
    dsimp only
    split_ifs with hactive
    · exact Effect.some (.placed hget hactive)
    · exact Effect.none s _

theorem effect_unlockFastTravelPoint (id k : UInt32) :
    Effect s (.unlockFastTravelPoint id k) (s.unlockFastTravelPoint id k).1 := by
  rw [unlockFastTravelPoint]
  cases hget : s.getExplorationSession id with
  | none => exact Effect.none s _
  | some session =>
    cases hpoint : s.fastTravelPoints.find? k with
    | none =>
      dsimp only
      split_ifs <;> exact Effect.none s _
    | some point =>
      dsimp only
      split_ifs with hactive hany
      · exact Effect.none s _
      · exact Effect.some (.unlocked hget hactive hpoint)
      · exact Effect.none s _

theorem effect_lockFastTravelPoint (id k : UInt32) :
    Effect s (.lockFastTravelPoint id k) (s.lockFastTravelPoint id k).1 := by
  rw [lockFastTravelPoint]
  cases hget : s.getExplorationSession id with
  | none => exact Effect.none s _
  | some session =>
    dsimp only
    split_ifs with hactive hany
    · exact Effect.some (.locked hget hactive)
    · exact Effect.none s _
    · exact Effect.none s _

theorem effect_fastTravelToPoint (id p k : UInt32) :
    Effect s (.fastTravelToPoint id p k) (s.fastTravelToPoint id p k).1 := by
  rw [fastTravelToPoint]
  cases hget : s.getExplorationSession id with
  | none => exact Effect.none s _
  | some session =>
    dsimp only
    split_ifs with hactive hin
    · cases hfound : session.fastTravelPoints.find? (isOpen k) with
      | none => exact Effect.none s _
      | some point =>
        exact Effect.some (.traveled hget hactive (List.contains_iff_mem.mp hin) hfound)
    · exact Effect.none s _
    · exact Effect.none s _

theorem effect_step (s : ExplorationMode) (op : Op) : Effect s op (s.step op) := by
  cases op with
  | createExplorationSession name p => exact effect_createExplorationSession name p
  | joinExplorationSession id p => exact effect_joinExplorationSession id p
  | leaveExplorationSession id p => exact effect_leaveExplorationSession id p
  | endExplorationSession id => exact effect_endExplorationSession id
  | setMaxSessionSize n => exact ⟨rfl, Or.inl ⟨rfl, rfl⟩⟩
  | updatePlayerPosition id p v => exact effect_updatePlayerPosition id p v
  | updatePlayerRegion id p r => exact effect_updatePlayerRegion id p r
  | unlockFastTravelPoint id k => exact effect_unlockFastTravelPoint id k
  | lockFastTravelPoint id k => exact effect_lockFastTravelPoint id k
  | fastTravelToPoint id p k => exact effect_fastTravelToPoint id p k
  | createMonsterContract name description monsterType location region level reward =>
    exact ⟨rfl, Or.inl ⟨rfl, rfl⟩⟩
  | joinMonsterContract id c p =>
    rw [step, joinMonsterContract]
    repeat' split
    all_goals exact ⟨rfl, Or.inl ⟨rfl, rfl⟩⟩
  | leaveMonsterContract id c p =>
    rw [step, leaveMonsterContract]
    repeat' split
    all_goals exact ⟨rfl, Or.inl ⟨rfl, rfl⟩⟩
  | completeMonsterContract id c =>
    rw [step, completeMonsterContract]
    repeat' split
    all_goals exact ⟨rfl, Or.inl ⟨rfl, rfl⟩⟩

def EverySession (P : UInt32 → ExplorationSessionData → Prop) (s : ExplorationMode) : Prop :=
  ∀ id session, s.getExplorationSession id = some session → P id session

theorem EverySession.step {P : UInt32 → ExplorationSessionData → Prop} (h : EverySession P s) {op : Op}
    (hw : ∀ id session count, Writes s op id session count → P id session) :
    EverySession P (s.step op) := by
  intro id session hget
  rcases (effect_step s op).sessions with ⟨hsame, -⟩ | ⟨id', session', count, hwrites, hset, -⟩
  · refine h id session ?_
    rwa [getExplorationSession, hsame] at hget
  · rw [getExplorationSession, hset, OrdMap.find?_insert] at hget
    split_ifs at hget with hid
    · obtain rfl := Option.some.inj hget
      exact hid ▸ hw id' session' count hwrites
    · exact h id session hget

def Peopled : ExplorationMode → Prop :=
  EverySession fun _ session => session.isActive → session.participants ≠ []

theorem Peopled.step (h : Peopled s) (op : Op) : Peopled (s.step op) := by
  refine EverySession.step h fun id session count hw hactive => ?_
  cases hw with
  | created hinit => exact List.cons_ne_nil _ _
  | joined hget _ hroom hnew => exact List.append_ne_nil_of_right_ne_nil _ (List.cons_ne_nil _ _)
  | left hget hleft =>
    rw [participants_withoutPlayer]
    exact hleft
  | leftLast hget hnone => exact absurd hactive Bool.false_ne_true
  | ended hget => exact absurd hactive Bool.false_ne_true
  | @positioned id p v session hget hactive => exact h id session hget hactive
  | @placed id p r session hget hactive => exact h id session hget hactive
  | @unlocked id k point session hget hactive => exact h id session hget hactive
  | @locked id k session hget hactive => exact h id session hget hactive
  | traveled hget hactive hin hfound => exact List.ne_nil_of_mem hin

end WitcherMP.Exploration.ExplorationMode
