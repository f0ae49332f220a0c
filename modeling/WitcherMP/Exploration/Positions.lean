import WitcherMP.Exploration.Sessions

/-! Whose positions and regions a session keeps. Leaving takes them away, and travelling asks
whether the player is in the session; an update does not ask. -/

namespace WitcherMP.Exploration.ExplorationMode

def Tracked : ExplorationMode → Prop :=
  EverySession fun _ session => ∀ p,
    p ∈ session.playerPositions.keys ∨ p ∈ session.playerRegions.keys → p ∈ session.participants

/-- And the queries return nobody else. -/
def OnlyParticipants (s : ExplorationMode) : Prop :=
  s.Tracked ∧ EverySession (fun id session =>
    (∀ region, ∀ p ∈ s.getPlayersInRegion id region, p ∈ session.participants) ∧
      ∀ inRadius playerId, ∀ p ∈ s.getNearbyPlayers inRadius id playerId, p ∈ session.participants) s

def OfParticipant (s : ExplorationMode) : Op → Prop
  | .updatePlayerPosition id p _ =>
    ∀ session, s.getExplorationSession id = some session → session.isActive → p ∈ session.participants
  | .updatePlayerRegion id p _ =>
    ∀ session, s.getExplorationSession id = some session → session.isActive → p ∈ session.participants
  | _ => True

variable {s : ExplorationMode}

theorem mem_keys_of_mem_filter {α : Type*} {m : OrdMap UInt32 α} {P : UInt32 × α → Bool} {p : UInt32}
    (hp : p ∈ (m.entries.filter P).map Prod.fst) : p ∈ m.keys := by
  obtain ⟨e, he, rfl⟩ := List.mem_map.mp hp
  rw [OrdMap.keys, List.mem_toFinset]
  exact List.mem_map_of_mem (List.mem_of_mem_filter he)

theorem onlyParticipants_iff : s.OnlyParticipants ↔ s.Tracked := by
  refine and_iff_left_of_imp fun h id session hget => ⟨fun region p hp => ?_, fun inRadius q p hp => ?_⟩
  · rw [getPlayersInRegion, hget] at hp
    exact h id session hget p (Or.inr (mem_keys_of_mem_filter hp))
  · rw [getNearbyPlayers, hget] at hp
    exact h id session hget p (Or.inl (mem_keys_of_mem_filter hp))

theorem tracked_withoutPlayer {session : ExplorationSessionData} {q : UInt32}
    (h : ∀ p, p ∈ session.playerPositions.keys ∨ p ∈ session.playerRegions.keys →
      p ∈ session.participants) (p : UInt32)
    (hp : p ∈ (withoutPlayer session q).playerPositions.keys ∨
      p ∈ (withoutPlayer session q).playerRegions.keys) :
    p ∈ (withoutPlayer session q).participants := by
  obtain ⟨host, heq⟩ := exists_withoutPlayer session q
  rw [heq] at hp ⊢
  simp only [OrdMap.mem_keys, OrdMap.find?_erase] at hp
  have hne : q ≠ p := by
    rintro rfl
    simp at hp
  rw [if_neg hne, if_neg hne, ← OrdMap.mem_keys, ← OrdMap.mem_keys] at hp
  exact (List.mem_erase_of_ne hne.symm).mpr (h p hp)

theorem Tracked.step (h : Tracked s) {op : Op} (hop : OfParticipant s op) : Tracked (s.step op) := by
  refine EverySession.step h fun id session count hw p hp => ?_
  have hinsert : ∀ {α : Type} {m : OrdMap UInt32 α} {q : UInt32} {v : α},
      p ∈ (m.insert q v).keys → p = q ∨ p ∈ m.keys := by
    intro α m q v hmem
    rwa [OrdMap.keys_insert_eq, Finset.mem_insert] at hmem
  cases hw with
  | created hinit =>
    have hnone : ∀ {α : Type}, p ∉ (OrdMap.empty : OrdMap UInt32 α).keys := fun hmem =>
      OrdMap.mem_keys.mp hmem rfl
    exact absurd hp (not_or.mpr ⟨hnone, hnone⟩)
  | joined hget => exact List.mem_append_left _ (h _ _ hget p hp)
  | left hget => exact tracked_withoutPlayer (h _ _ hget) p hp
  | leftLast hget => exact tracked_withoutPlayer (h _ _ hget) p hp
  | ended hget => exact h _ _ hget p hp
  | @positioned _ _ _ session hget hactive =>
    rcases hp with hp | hp
    · rcases hinsert hp with rfl | hp
      · exact hop session hget hactive
      · exact h _ _ hget p (Or.inl hp)
    · exact h _ _ hget p (Or.inr hp)
  | @placed _ _ _ session hget hactive =>
    rcases hp with hp | hp
    · exact h _ _ hget p (Or.inl hp)
    · rcases hinsert hp with rfl | hp
      · exact hop session hget hactive
      · exact h _ _ hget p (Or.inr hp)
  | unlocked hget => exact h _ _ hget p hp
  | locked hget => exact h _ _ hget p hp
  | traveled hget hactive hin =>
    rcases hp with hp | hp
    · rcases hinsert hp with rfl | hp
      · exact hin
      · exact h _ _ hget p (Or.inl hp)
    · exact h _ _ hget p (Or.inr hp)

theorem OfParticipant.of_tracked {op : Op} (h : Tracked (s.step op)) : OfParticipant s op := by
  cases op with
  | updatePlayerPosition id p v =>
    intro session hget hactive
    rw [ExplorationMode.step, updatePlayerPosition, hget] at h
    dsimp only at h
    rw [if_neg (not_not.mpr hactive)] at h
    refine h id _ ((getExplorationSession_set ..).trans (if_pos rfl)) p (Or.inl ?_)
    rw [OrdMap.keys_insert_eq]
    exact Finset.mem_insert_self ..
  | updatePlayerRegion id p r =>
    intro session hget hactive
    rw [ExplorationMode.step, updatePlayerRegion, hget] at h
    dsimp only at h
    rw [if_neg (not_not.mpr hactive)] at h
    refine h id _ ((getExplorationSession_set ..).trans (if_pos rfl)) p (Or.inr ?_)
    rw [OrdMap.keys_insert_eq]
    exact Finset.mem_insert_self ..
  | _ => trivial

/-- Sessions keep and return positions and regions of participants only, after every call of a run,
exactly if every update of the run is one of a participant. -/
theorem only_participants_along_iff (maxSessionSize maxContractParticipants : UInt32)
    (ops : List Op) :
    let start := initializeMode { maxSessionSize, maxContractParticipants }
    Run.Along step (fun s op => OnlyParticipants (s.step op)) start ops ↔
      Run.Along step OfParticipant start ops := by
  intro start
  have hstart : Tracked start := fun id session hget => absurd hget.symm (Option.some_ne_none session)
  refine Run.along_congr_of_step (fun s op h => ?_) hstart
  rw [onlyParticipants_iff]
  exact ⟨⟨OfParticipant.of_tracked, h.step⟩, h.step⟩

theorem not_only_participants_late_update :
    ¬ ∀ ops : List Op, Run.Along step (fun s op => OnlyParticipants (s.step op))
      (initializeMode {}) ops := by
  intro h
  have hlate := h [.createExplorationSession "Velen" 7, .joinExplorationSession 1 8,
    .leaveExplorationSession 1 8, .updatePlayerPosition 1 8 {}]
  have hnearby := (hlate.2.2.2.1.2 1 _ rfl).2 (fun _ _ => true) 7 8
  revert hnearby
  decide +kernel

end WitcherMP.Exploration.ExplorationMode
