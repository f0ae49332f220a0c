import WitcherMP.Core.Handlers

/-! The creatures: where they come from, and what hits leave of them over a run. -/

namespace WitcherMP.Core.Witcher3MPServer
open Combat (Vector4F)
open scoped WitcherMP.Networking
variable {s t : Witcher3MPServer} {client : Client} {msg : Packet}

def handling (m : Witcher3MPServer × Phase) (e : Event) : Option (Client × Packet) :=
  if e = .main ∧ m.2 = .update then m.1.qMessagesIn.head? else none

def hitIndex (s : Witcher3MPServer) (msg : Packet) : Option ℕ :=
  (msg.take .word32).bind fun r => s.npcList.findIdx? (·.id = r.1)

def npcHits (i : ℕ) (m : Witcher3MPServer × Phase) (e : Event) : ℕ :=
  match handling m e with
  | none => 0
  | some (_, msg) =>
    if msg.header.id = Networking.Types.hitNpc ∧ hitIndex m.1 msg = some i then 1 else 0

structure Spawned (npc : Npc) : Prop where
  known : npc.resourceId ≠ 0
  maxHealth : npc.maxHealth = newNpcHealth npc.resourceId
  health : npc.health = npc.maxHealth
  position : null npc.position = false

theorem sendPlayerData_npcs (h : s.sendPlayerData client msg = some t) :
    t.npcList = s.npcList ∧ t.highestNpcID = s.highestNpcID ∧ t.commandQueue = s.commandQueue := by
  obtain ⟨characterId, recPosition, -, -, s₁, s₂, -, -, h₁, h₂, h₃⟩ := sendPlayerData_eq_some h
  obtain ⟨ext₁, htalk₁, -⟩ := talk_messageOwners (P := fun _ => True) h₁ fun _ _ _ => trivial
  obtain ⟨ext₃, htalk₃, -⟩ := talk_messageClient (P := fun _ => True) h₃ trivial
  have hsecond : s₂.npcList = s₁.npcList ∧ s₂.highestNpcID = s₁.highestNpcID ∧
      s₂.commandQueue = s₁.commandQueue := by
    rcases h₂ with ⟨-, rfl⟩ | ⟨mass, -, h₂⟩
    · exact ⟨rfl, rfl, rfl⟩
    · obtain ⟨ext₂, htalk₂, -⟩ := talk_messageClient (P := fun _ => True) h₂ trivial
      exact htalk₂.npcs
  obtain ⟨hn₁, hh₁, hc₁⟩ := htalk₁.npcs
  obtain ⟨hn₂, hh₂, hc₂⟩ := hsecond
  obtain ⟨hn₃, hh₃, hc₃⟩ := htalk₃.npcs
  exact ⟨hn₃.trans (hn₂.trans hn₁), hh₃.trans (hh₂.trans hh₁), hc₃.trans (hc₂.trans hc₁)⟩

theorem onMessageReceived_npcs (h : s.onMessageReceived client msg = some t) :
    t.highestNpcID = s.highestNpcID ∧ t.commandQueue = s.commandQueue ∧
      ((¬ (msg.header.id = Networking.Types.hitNpc ∧ ∃ i, hitIndex s msg = some i) ∧
          t.npcList = s.npcList) ∨
        ∃ i npc, msg.header.id = Networking.Types.hitNpc ∧ hitIndex s msg = some i ∧
          s.npcList[i]? = some npc ∧
          t.npcList = s.npcList.set i { npc with health := hitHealth npc.health }) := by
  have hother : ∀ {u : Witcher3MPServer}, msg.header.id ≠ Networking.Types.hitNpc →
      (u.npcList = s.npcList ∧ u.highestNpcID = s.highestNpcID ∧ u.commandQueue = s.commandQueue) →
      u.highestNpcID = s.highestNpcID ∧ u.commandQueue = s.commandQueue ∧
      ((¬ (msg.header.id = Networking.Types.hitNpc ∧ ∃ i, hitIndex s msg = some i) ∧
          u.npcList = s.npcList) ∨
        ∃ i npc, msg.header.id = Networking.Types.hitNpc ∧ hitIndex s msg = some i ∧
          s.npcList[i]? = some npc ∧
          u.npcList = s.npcList.set i { npc with health := hitHealth npc.health }) :=
    fun hid ⟨hn, hh, hc⟩ => ⟨hh, hc, .inl ⟨fun h => hid h.1, hn⟩⟩
  rw [onMessageReceived] at h
  split_ifs at h with h₁ h₂ h₃ h₄ h₅
  · exact hother (by rw [h₁]; decide) (sendPlayerData_npcs h)
  · refine hother (by rw [h₂]; decide) ?_
    obtain rfl | ⟨i, ply, moveType, newPos, -, h⟩ := notifyPlayerPosChange_eq_some h
    · exact ⟨rfl, rfl, rfl⟩
    · obtain ⟨ext, htalk, -⟩ := talk_messageAllClients (P := fun _ => True) h fun _ _ _ => trivial
      exact htalk.npcs
  · obtain ⟨id, rest, htake, ⟨hnone, rfl⟩ | ⟨i, npc, hfind, hnpc, h⟩⟩ := hitNpc_eq_some h
    · refine ⟨rfl, rfl, .inl ⟨?_, rfl⟩⟩
      rintro ⟨-, i, hi⟩
      rw [hitIndex, htake, Option.bind_some, hnone] at hi
      cases hi
    · obtain ⟨ext, htalk, -⟩ := talk_messageOwners (P := fun _ => True) h fun _ _ _ => trivial
      obtain ⟨hn, hh, hc⟩ := htalk.npcs
      refine ⟨hh, hc, .inr ⟨i, npc, h₃, ?_, hnpc, hn⟩⟩
      rw [hitIndex, htake, Option.bind_some, hfind]
  · refine hother h₃ ?_
    obtain ⟨rfl, -⟩ | ⟨i, ply, -, h⟩ := gotHit_eq_some h
    · exact ⟨rfl, rfl, rfl⟩
    · obtain ⟨ext, htalk, -⟩ := talk_messageClient (P := fun _ => True) h trivial
      exact htalk.npcs
  · refine hother h₃ ?_
    obtain rfl | ⟨i, ply, s₁, -, -, h₁, h₂⟩ := chat_eq_some h
    · exact ⟨rfl, rfl, rfl⟩
    · obtain ⟨ext₁, htalk₁, -⟩ := talk_messageOwners (P := fun _ => True) h₁ fun _ _ _ => trivial
      obtain ⟨ext₂, htalk₂, -⟩ := talk_messageClient (P := fun _ => True) h₂ trivial
      obtain ⟨hn₁, hh₁, hc₁⟩ := htalk₁.npcs
      obtain ⟨hn₂, hh₂, hc₂⟩ := htalk₂.npcs
      exact ⟨hn₂.trans hn₁, hh₂.trans hh₁, hc₂.trans hc₁⟩
  · cases h
    exact hother h₃ ⟨rfl, rfl, rfl⟩

theorem handleCommand_npcs {command : List Char} (h : s.handleCommand command = some t) :
    t.commandQueue = s.commandQueue ∧
      ((t.npcList = s.npcList ∧ t.highestNpcID = s.highestNpcID) ∨
        ∃ npc, Spawned npc ∧ npc.id = s.highestNpcID ∧ t.npcList = s.npcList ++ [npc] ∧
          t.highestNpcID = s.highestNpcID + 1) := by
  obtain rfl | ⟨name, toPlayer, h⟩ := handleCommand_eq_some h
  · exact ⟨rfl, .inl ⟨rfl, rfl⟩⟩
  · obtain rfl | ⟨i, ply, -, hnull, -, hres, h⟩ := spawn_eq_some h
    · exact ⟨rfl, .inl ⟨rfl, rfl⟩⟩
    · obtain ⟨ext, htalk, -⟩ := talk_messageAllClients (P := fun _ => True) h fun _ _ _ => trivial
      obtain ⟨hn, hh, hc⟩ := htalk.npcs
      exact ⟨hc, .inr ⟨_, ⟨hres, rfl, rfl, hnull⟩, rfl, hn, hh⟩⟩

theorem npcList_step {m m' : Witcher3MPServer × Phase} {e : Event} (h : step m e = some m') :
    (m'.1.npcList = m.1.npcList ∧ ∀ i, npcHits i m e = 0) ∨
      (∃ i npc, m.1.npcList[i]? = some npc ∧
        m'.1.npcList = m.1.npcList.set i { npc with health := hitHealth npc.health } ∧
        ∀ j, npcHits j m e = if j = i then 1 else 0) ∨
      ∃ new, m'.1.npcList = m.1.npcList ++ new ∧ (∀ npc ∈ new, Spawned npc) ∧
        ∀ i, npcHits i m e = 0 := by
  have hidle : ∀ i, (e ≠ .main ∨ m.2 ≠ .update) → npcHits i m e = 0 := by
    intro i hor
    rw [npcHits, handling, if_neg fun h => hor.elim (fun he => he h.1) fun hm => hm h.2]
  obtain ⟨s, phase⟩ := m
  cases e with
  | connect =>
    cases h
    exact .inl ⟨rfl, fun i => hidle i (.inl nofun)⟩
  | close client =>
    cases h
    exact .inl ⟨rfl, fun i => hidle i (.inl nofun)⟩
  | arrive client msg =>
    rw [step] at h
    split_ifs at h <;> cases h <;> exact .inl ⟨rfl, fun i => hidle i (.inl nofun)⟩
  | command text =>
    cases h
    exact .inl ⟨rfl, fun i => hidle i (.inl nofun)⟩
  | main =>
    cases phase with
    | commands =>
      obtain ⟨u, hu, rfl⟩ := Option.map_eq_some_iff.mp h
      rw [handleCommands_eq] at hu
      split_ifs at hu
      obtain ⟨v, hv, rfl⟩ := Option.map_eq_some_iff.mp hu
      have hall : ∃ new, v.npcList = s.npcList ++ new ∧ ∀ npc ∈ new, Spawned npc := by
        refine Loops.of_runs (I := fun v => ∃ new, v.npcList = s.npcList ++ new ∧
          ∀ npc ∈ new, Spawned npc) ?_
          ⟨[], (List.append_nil _).symm, fun _ h => absurd h List.not_mem_nil⟩ hv
        rintro w command w' ⟨new, hw, hnew⟩ hstep
        obtain ⟨-, ⟨hsame, -⟩ | ⟨npc, hnpc, -, hadd, -⟩⟩ := handleCommand_npcs hstep
        · exact ⟨new, hsame.trans hw, hnew⟩
        · refine ⟨new ++ [npc], by rw [hadd, hw, List.append_assoc], fun q hq => ?_⟩
          rcases List.mem_append.mp hq with hq | hq
          · exact hnew q hq
          · rwa [List.mem_singleton.mp hq]
      obtain ⟨new, hv, hnew⟩ := hall
      exact .inr (.inr ⟨new, hv, hnew, fun i => hidle i (.inr nofun)⟩)
    | cleanUp =>
      cases h
      exact .inl ⟨rfl, fun i => hidle i (.inr nofun)⟩
    | update =>
      cases hq : s.qMessagesIn with
      | nil =>
        simp only [step, mainStep, hq] at h
        cases h
        refine .inl ⟨rfl, fun i => ?_⟩
        rw [npcHits, handling, if_pos ⟨rfl, rfl⟩]
        dsimp only
        rw [hq]
        rfl
      | cons r rest =>
        simp only [step, mainStep, hq, Option.map_eq_some_iff] at h
        obtain ⟨u, hu, rfl⟩ := h
        have hhit : ∀ i, npcHits i (s, .update) .main
            = if r.2.header.id = Networking.Types.hitNpc ∧ hitIndex s r.2 = some i then 1 else 0 := by
          intro i
          rw [npcHits, handling, if_pos ⟨rfl, rfl⟩]
          dsimp only
          rw [hq]
          rfl
        obtain ⟨-, -, ⟨hno, hsame⟩ | ⟨i, npc, hid, hindex, hnpc, hset⟩⟩ := onMessageReceived_npcs hu
        · refine .inl ⟨hsame, fun i => ?_⟩
          rw [hhit, if_neg fun h => hno ⟨h.1, i, h.2⟩]
        · refine .inr (.inl ⟨i, npc, hnpc, hset, fun j => ?_⟩)
          have hindex' : hitIndex s r.2 = some i := hindex
          rw [hhit, hindex']
          have hiff : (r.2.header.id = Networking.Types.hitNpc ∧ some i = some j) ↔ j = i := by
            rw [and_iff_right hid, Option.some_inj, eq_comm]
          simp only [hiff]

def Worn (i n : ℕ) (s : Witcher3MPServer) : Prop :=
  (∀ npc, s.npcList[i]? = some npc → npc.resourceId ≠ 0 ∧ null npc.position = false ∧
    npc.maxHealth = newNpcHealth npc.resourceId ∧ npc.health = npc.maxHealth - 50 * n) ∧
  (s.npcList.length ≤ i → n = 0)

theorem hitHealth_eq (health : ℕ) : hitHealth health = health - 50 := by
  rw [hitHealth]
  split_ifs <;> omega

theorem worn_step {i n : ℕ} {m m' : Witcher3MPServer × Phase} {e : Event} (hw : Worn i n m.1)
    (h : step m e = some m') : Worn i (n + npcHits i m e) m'.1 := by
  obtain ⟨hall, hempty⟩ := hw
  rcases npcList_step h with ⟨hsame, hhit⟩ | ⟨j, npc, hnpc, hset, hhit⟩ | ⟨new, hnew, hspawned, hhit⟩
  · rw [Worn, hsame, hhit]
    exact ⟨hall, hempty⟩
  · rw [Worn, hset, hhit, List.length_set]
    by_cases hij : i = j
    · subst hij
      rw [if_pos rfl]
      obtain ⟨hlt, -⟩ := List.getElem?_eq_some_iff.mp hnpc
      obtain ⟨hres, hpos, hmax, hhealth⟩ := hall npc hnpc
      refine ⟨fun q hq => ?_, fun hle => absurd hlt (not_lt.mpr hle)⟩
      rw [List.getElem?_set_self hlt] at hq
      cases hq
      refine ⟨hres, hpos, hmax, ?_⟩
      change hitHealth npc.health = npc.maxHealth - 50 * (n + 1)
      rw [hitHealth_eq, hhealth]
      omega
    · rw [if_neg hij, List.getElem?_set_ne (Ne.symm hij)]
      exact ⟨hall, hempty⟩
  · rw [Worn, hnew, hhit]
    refine ⟨fun npc hnpc => ?_, fun hle => hempty ?_⟩
    · by_cases hlt : i < m.1.npcList.length
      · rw [List.getElem?_append_left hlt] at hnpc
        exact hall npc hnpc
      · have hle := not_lt.mp hlt
        rw [List.getElem?_append_right hle] at hnpc
        obtain ⟨hres, hmax, hhealth, hpos⟩ := hspawned npc (List.mem_of_getElem? hnpc)
        refine ⟨hres, hpos, hmax, ?_⟩
        rw [hempty hle, hhealth]
        rfl
    · rw [List.length_append] at hle
      omega

theorem worn_run {events : List Event} {m : Witcher3MPServer × Phase} (h : run events = some m)
    (i : ℕ) : Worn i (Loops.tally step (npcHits i) ({}, .commands) events) m.1 := by
  have hstart : Worn i 0 {} :=
    ⟨fun npc h => absurd (h.symm : some npc = none) (Option.some_ne_none npc), fun _ => rfl⟩
  exact Loops.of_runs_tally (K := fun n m => Worn i n m.1) (f := npcHits i)
    (fun n m e m' hk hstep => worn_step hk hstep) (s := ({}, .commands)) hstart h

structure Numbered (s : Witcher3MPServer) : Prop where
  ids : ∀ i npc, s.npcList[i]? = some npc → npc.id.toNat = i + 1
  next : s.highestNpcID.toNat = s.npcList.length + 1

theorem Numbered.congr (hs : Numbered s) (hl : t.npcList = s.npcList)
    (hh : t.highestNpcID = s.highestNpcID) : Numbered t :=
  ⟨by rw [hl]; exact hs.ids, by rw [hh, hl]; exact hs.next⟩

theorem Numbered.concat {npc : Npc} (hs : Numbered s) (hid : npc.id = s.highestNpcID)
    (hl : t.npcList = s.npcList ++ [npc]) (hh : t.highestNpcID = s.highestNpcID + 1)
    (hwrap : s.npcList.length + 2 < 2 ^ 32) : Numbered t := by
  have hlen : t.npcList.length = s.npcList.length + 1 := by rw [hl]; exact List.length_append
  refine ⟨fun i q hq => ?_, ?_⟩
  · rw [hl, List.getElem?_append] at hq
    split_ifs at hq with hlt
    · exact hs.ids i q hq
    · obtain ⟨hone, hq⟩ := List.getElem?_eq_some_iff.mp hq
      rw [List.length_singleton] at hone
      have hi : i = s.npcList.length := by omega
      rw [List.getElem_singleton] at hq
      rw [← hq, hid, hs.next, hi]
  · rw [hh, hlen, UInt32.toNat_add, hs.next]
    exact Nat.mod_eq_of_lt hwrap

theorem Numbered.set {i : ℕ} {npc : Npc} (hs : Numbered s) (hnpc : s.npcList[i]? = some npc)
    {health : ℕ} (hl : t.npcList = s.npcList.set i { npc with health := health })
    (hh : t.highestNpcID = s.highestNpcID) : Numbered t := by
  refine ⟨fun j q hq => ?_, by rw [hh, hl, List.length_set]; exact hs.next⟩
  rw [hl] at hq
  by_cases hij : i = j
  · subst hij
    rw [List.getElem?_set_self (List.getElem?_eq_some_iff.mp hnpc).1] at hq
    cases hq
    exact hs.ids i npc hnpc
  · rw [List.getElem?_set_ne hij] at hq
    exact hs.ids j q hq

theorem Numbered.runs {commands : List (List Char)} (hs : Numbered s)
    (hwrap : s.npcList.length + commands.length + 1 < 2 ^ 32)
    (h : Loops.runs handleCommand s commands = some t) :
    Numbered t ∧ t.npcList.length ≤ s.npcList.length + commands.length := by
  induction commands generalizing s with
  | nil =>
    cases h
    exact ⟨hs, Nat.le_refl _⟩
  | cons command commands ih =>
    obtain ⟨u, hu, hrest⟩ := Option.bind_eq_some_iff.mp h
    rw [List.length_cons] at hwrap ⊢
    obtain ⟨-, ⟨hl, hh⟩ | ⟨npc, -, hid, hl, hh⟩⟩ := handleCommand_npcs hu
    · obtain ⟨ht, hle⟩ := ih (hs.congr hl hh) (by rw [hl]; omega) hrest
      rw [hl] at hle
      exact ⟨ht, by omega⟩
    · have hlen : u.npcList.length = s.npcList.length + 1 := by rw [hl]; exact List.length_append
      obtain ⟨ht, hle⟩ := ih (hs.concat hid hl hh (by omega)) (by rw [hlen]; omega) hrest
      exact ⟨ht, by omega⟩

theorem numbered_step {n : ℕ} {m m' : Witcher3MPServer × Phase} {e : Event} (hn : n + 2 < 2 ^ 32)
    (hs : Numbered m.1 ∧ m.1.npcList.length + m.1.commandQueue.length ≤ n)
    (h : step m e = some m') :
    Numbered m'.1 ∧ m'.1.npcList.length + m'.1.commandQueue.length ≤ n + 1 := by
  obtain ⟨hs, hroom⟩ := hs
  obtain ⟨s, phase⟩ := m
  cases e with
  | connect =>
    cases h
    exact ⟨hs.congr rfl rfl, Nat.le_succ_of_le hroom⟩
  | close client =>
    cases h
    exact ⟨hs.congr rfl rfl, Nat.le_succ_of_le hroom⟩
  | arrive client msg =>
    rw [step] at h
    split_ifs at h
    · cases h
      exact ⟨hs.congr rfl rfl, Nat.le_succ_of_le hroom⟩
    · cases h
      exact ⟨hs, Nat.le_succ_of_le hroom⟩
  | command text =>
    cases h
    refine ⟨hs.congr rfl rfl, ?_⟩
    rw [List.length_append, List.length_singleton]
    exact Nat.succ_le_succ hroom
  | main =>
    cases phase with
    | commands =>
      obtain ⟨u, hu, rfl⟩ := Option.map_eq_some_iff.mp h
      rw [handleCommands_eq] at hu
      split_ifs at hu
      obtain ⟨v, hv, rfl⟩ := Option.map_eq_some_iff.mp hu
      have hroom' : s.npcList.length + s.commandQueue.length ≤ n := hroom
      obtain ⟨hnum, hle⟩ := hs.runs (show s.npcList.length + s.commandQueue.length + 1 < 2 ^ 32 by omega) hv
      exact ⟨hnum.congr rfl rfl, (hle.trans hroom').trans (Nat.le_succ n)⟩
    | cleanUp =>
      cases h
      exact ⟨hs.congr rfl rfl, Nat.le_succ_of_le hroom⟩
    | update =>
      cases hq : s.qMessagesIn with
      | nil =>
        simp only [step, mainStep, hq] at h
        cases h
        exact ⟨hs, Nat.le_succ_of_le hroom⟩
      | cons r rest =>
        simp only [step, mainStep, hq, Option.map_eq_some_iff] at h
        obtain ⟨u, hu, rfl⟩ := h
        obtain ⟨hh, hc, ⟨-, hl⟩ | ⟨i, npc, -, -, hnpc, hl⟩⟩ := onMessageReceived_npcs hu
        · refine ⟨hs.congr hl hh, ?_⟩
          rw [hl, hc]
          exact Nat.le_succ_of_le hroom
        · refine ⟨Numbered.set hs hnpc hl hh, ?_⟩
          rw [hl, hc, List.length_set]
          exact Nat.le_succ_of_le hroom

theorem numbered_run {events : List Event} (hlen : events.length + 2 < 2 ^ 32)
    {m : Witcher3MPServer × Phase} (h : run events = some m) : Numbered m.1 := by
  have hstart : Numbered {} ∧ 0 + 0 ≤ 0 :=
    ⟨⟨fun i npc h => absurd (h.symm : some npc = none) (Option.some_ne_none npc), rfl⟩, Nat.le_refl 0⟩
  have hall := Loops.of_runs_counted (B := events.length)
    (K := fun n m => Numbered m.1 ∧ m.1.npcList.length + m.1.commandQueue.length ≤ n)
    (fun n m e m' hn hk _ hm => numbered_step (by omega) hk hm) (n := 0) (s := ({}, .commands)) hstart
    (Nat.le_of_eq (Nat.zero_add _))
    (Loops.along_of_forall (P := fun _ _ => True) (fun _ _ => trivial) _ _) h
  exact hall.1

/-- In every run of fewer than `2 ^ 32` events the creatures have the ids from 1 on. Each stands where
somebody stood, has the full health of its kind, and has lost 50 for each hit on it, down to zero. -/
theorem creatures_run {events : List Event} (hlen : events.length + 2 < 2 ^ 32)
    {m : Witcher3MPServer × Phase} (h : run events = some m) {i : ℕ} {npc : Npc}
    (hnpc : m.1.npcList[i]? = some npc) :
    npc.id.toNat = i + 1 ∧ npc.resourceId ≠ 0 ∧ null npc.position = false ∧
      npc.maxHealth = newNpcHealth npc.resourceId ∧
      npc.health = npc.maxHealth - 50 * Loops.tally step (npcHits i) ({}, .commands) events :=
  ⟨(numbered_run hlen h).ids i npc hnpc, (worn_run h i).1 npc hnpc⟩

def hunt : List Event :=
  [.connect, .arrive 0 (.sendPlayerData { x := 7 } 1), .main, .main, .main, .main,
    .command "spawn Drowner 1".toList, .main, .main, .arrive 0 (.hitNpc 1), .main, .main]

def drowner : Npc := ⟨1, 100, { x := 7 }, 450, 500⟩

theorem creatures_run_hunt :
    drowner.id.toNat = 0 + 1 ∧ drowner.resourceId ≠ 0 ∧ null drowner.position = false ∧
      drowner.maxHealth = newNpcHealth drowner.resourceId ∧
      drowner.health = drowner.maxHealth - 50 * Loops.tally step (npcHits 0) ({}, .commands) hunt :=
  creatures_run (by decide) (Option.some_get (by decide +kernel)).symm (by decide +kernel)

end WitcherMP.Core.Witcher3MPServer
