import WitcherMP.Core.Joins

/-! Over every run that the server survives, all who have joined and are there know where the others
are. Positions must not come from clients that are gone: these are taken, too, and a player that has
left then stays where it was last, for those behind its client in the queue. -/

namespace WitcherMP.Core.Witcher3MPServer
open Combat (Vector4F)
open Latest (heard latest)
open scoped WitcherMP.Networking
variable {s t : Witcher3MPServer} {client : Client} {msg : Packet}

theorem getD_concat (l : List Bool) (b : Bool) (i : ℕ) :
    (l ++ [b]).getD i false = if i = l.length then b else l.getD i false := by
  simp only [List.getD_eq_getElem?_getD]
  split_ifs with h
  · rw [h, List.getElem?_concat_length]
    rfl
  · by_cases hlt : i < l.length
    · rw [List.getElem?_append_left hlt]
    · rw [List.getElem?_eq_none (by rw [List.length_append, List.length_singleton]; omega),
        List.getElem?_eq_none (not_lt.mp hlt)]

theorem Informed.onClientConnect (hi : Informed s) : Informed s.onClientConnect := by
  obtain ⟨t, ht⟩ : ∃ t : Witcher3MPServer, t = { s with
    sockets := s.sockets ++ [true]
    deqConnections := s.deqConnections ++ [some s.sockets.length] } := ⟨_, rfl⟩
  have hopen : ∀ c, t.isConnected c = if c = s.sockets.length then true else s.isConnected c := by
    intro c
    rw [ht]
    exact getD_concat ..
  have hlen : t.sockets.length = s.sockets.length + 1 := by rw [ht]; exact List.length_append
  have hlisten : ∀ c, c ∈ t.listeners → c ∈ s.listeners := by
    intro c hc
    obtain ⟨hc, q, hq, rfl⟩ := mem_listeners.mp hc
    have hq' : some q ∈ s.playerList := by rwa [ht] at hq
    rw [hopen, if_neg (Nat.ne_of_lt (hi.sound.owners q hq'))] at hc
    exact mem_listeners.mpr ⟨hc, q, hq', rfl⟩
  have hinformed : Informed t := by
    obtain ⟨⟨hdist, hf, hiss, hqueued, hown, hsend, hhear⟩, hj, ha⟩ := hi
    refine ⟨⟨by rwa [ht], by rwa [ht], by rwa [ht], fun c hc => ?_, fun q hq => ?_, fun e he => ?_,
      fun e he => ?_⟩, fun c hc hne => ?_, fun c hc => ?_⟩
    · rw [hopen] at hc
      rw [ht]
      split_ifs at hc with hnew
      · exact List.mem_append_right _ (hnew ▸ List.mem_cons_self)
      · exact List.mem_append_left _ (hqueued c hc)
    · exact hlen ▸ (hown q (by rwa [ht] at hq)).trans (Nat.lt_succ_self _)
    · exact hlen ▸ (hsend e (by rwa [ht] at he)).trans (Nat.lt_succ_self _)
    · exact hlen ▸ (hhear e (by rwa [ht] at he)).trans (Nat.lt_succ_self _)
    · have hne' : s.introduced c ≠ [] := by rwa [ht] at hne
      have hlt : c < s.sockets.length := by
        obtain ⟨r, hr⟩ := List.exists_mem_of_ne_nil _ hne'
        obtain ⟨msg, hmsg, -⟩ := Latest.mem_heard.mp hr
        exact hhear _ hmsg
      rw [hopen, if_neg (Nat.ne_of_lt hlt)] at hc
      obtain ⟨-, q, hq, rfl⟩ := mem_listeners.mp (hj c hc hne')
      refine mem_listeners.mpr ⟨?_, q, by rwa [ht], rfl⟩
      rw [hopen, if_neg (Nat.ne_of_lt hlt), hc]
    · have hc' := ha c (hlisten c hc)
      rw [ht]
      exact ⟨hc'.present, hc'.known⟩
  have hsend : s.onClientConnect = t.send s.sockets.length .requestPlayerData := by rw [ht]; rfl
  rw [hsend]
  refine hinformed.talk (talk_send (by rw [hopen, if_pos rfl]) (places_eq_nil ?_))
  change ¬ (Types.requestPlayerData = _ ∨ Types.requestPlayerData = _ ∨ Types.requestPlayerData = _)
  decide

theorem isConnected_of_close {c : Client} (h : (s.close client).isConnected c = true) :
    s.isConnected c = true := by
  rw [isConnected, Witcher3MPServer.close, List.getD_eq_getElem?_getD, List.getElem?_set] at h
  rw [isConnected, List.getD_eq_getElem?_getD]
  split_ifs at h
  · cases h
  · cases h
  · exact h

theorem Informed.close (hi : Informed s) : Informed (s.close client) := by
  have hopen : ∀ c, (s.close client).isConnected c = true → s.isConnected c = true :=
    fun c => isConnected_of_close
  have hlen : (s.close client).sockets.length = s.sockets.length := List.length_set
  obtain ⟨⟨hdist, hf, hiss, hqueued, hown, hsend, hhear⟩, hj, ha⟩ := hi
  refine ⟨⟨hdist, hf, hiss, fun c hc => hqueued c (hopen c hc), fun q hq => hlen ▸ hown q hq,
    fun e he => hlen ▸ hsend e he, fun e he => hlen ▸ hhear e he⟩, fun c hc hne => ?_, fun c hc => ?_⟩
  · obtain ⟨-, q, hq, rfl⟩ := mem_listeners.mp (hj c (hopen c hc) hne)
    exact mem_listeners.mpr ⟨hc, q, hq, rfl⟩
  · obtain ⟨hc, q, hq, rfl⟩ := mem_listeners.mp hc
    have hq' := ha _ (mem_listeners.mpr ⟨hopen _ hc, q, hq, rfl⟩)
    exact ⟨hq'.present, hq'.known⟩

theorem mem_cleanUp {ply : Player} :
    some ply ∈ s.playerList.filter (· ≠ none) ↔ some ply ∈ s.playerList := by
  rw [List.mem_filter]
  exact and_iff_left (decide_eq_true (Option.some_ne_none ply))

theorem reduceOption_cleanUp (l : List (Option Player)) :
    (l.filter (· ≠ none)).reduceOption = l.reduceOption := by
  induction l with
  | nil => rfl
  | cons e l ih =>
    cases e with
    | none => exact ih
    | some ply =>
      rw [List.filter_cons_of_pos (by simp), List.reduceOption_cons_of_some,
        List.reduceOption_cons_of_some, ih]

theorem Informed.cleanUp (hi : Informed s) :
    Informed { s with playerList := s.playerList.filter (· ≠ none) } := by
  obtain ⟨⟨hdist, hf, hiss, hqueued, hown, hsend, hhear⟩, hj, ha⟩ := hi
  refine ⟨⟨by rwa [reduceOption_cleanUp], fun q hq => hf q (mem_cleanUp.mp hq), hiss, hqueued,
    fun q hq => hown q (mem_cleanUp.mp hq), hsend, hhear⟩, fun c hc hne => ?_, fun c hc => ?_⟩
  · obtain ⟨-, q, hq, rfl⟩ := mem_listeners.mp (hj c hc hne)
    exact mem_listeners.mpr ⟨hc, q, mem_cleanUp.mpr hq, rfl⟩
  · obtain ⟨hc, q, hq, rfl⟩ := mem_listeners.mp hc
    have hq' := ha _ (mem_listeners.mpr ⟨hc, q, mem_cleanUp.mp hq, rfl⟩)
    refine ⟨fun p hp => hq'.present p (mem_cleanUp.mp hp), fun r hr hx => ?_⟩
    refine (hq'.known r hr hx).imp (fun ⟨p, hp, h⟩ => ⟨p, mem_cleanUp.mpr hp, h⟩) fun ⟨hgone, hzero⟩ => ?_
    exact ⟨fun ⟨p, hp, h⟩ => hgone ⟨p, mem_cleanUp.mp hp, h⟩, hzero⟩

def Counts (s t : Witcher3MPServer) : Prop :=
  t.qMessagesIn = s.qMessagesIn ∧
    (t.highestPlayerID = s.highestPlayerID ∨ t.highestPlayerID = s.highestPlayerID + 1)

theorem Talk.counts {P : Client × Packet → Prop} {ext : List (Client × Packet)}
    (h : Talk P s ext t) : t.qMessagesIn = s.qMessagesIn ∧ t.highestPlayerID = s.highestPlayerID :=
  ⟨h.qMessagesIn, h.highestPlayerID⟩

theorem sendPlayerData_counts (h : s.sendPlayerData client msg = some t) : Counts s t := by
  obtain ⟨characterId, recPosition, -, -, s₁, s₂, -, -, h₁, h₂, h₃⟩ := sendPlayerData_eq_some h
  obtain ⟨ext₁, htalk₁, -⟩ := talk_messageOwners (P := fun _ => True) h₁ fun _ _ _ => trivial
  obtain ⟨ext₂, htalk₂, -⟩ := talk_mass h₂
  obtain ⟨ext₃, htalk₃, -⟩ := talk_messageClient (P := fun _ => True) h₃ trivial
  obtain ⟨hq₁, hh₁⟩ := htalk₁.counts
  obtain ⟨hq₂, hh₂⟩ := htalk₂.counts
  obtain ⟨hq₃, hh₃⟩ := htalk₃.counts
  exact ⟨hq₃.trans (hq₂.trans hq₁), .inr (hh₃.trans (hh₂.trans hh₁))⟩

theorem notifyPlayerPosChange_counts (h : s.notifyPlayerPosChange client msg = some t) :
    Counts s t := by
  obtain rfl | ⟨i, ply, moveType, newPos, -, h⟩ := notifyPlayerPosChange_eq_some h
  · exact ⟨rfl, .inl rfl⟩
  · obtain ⟨ext, htalk, -⟩ := talk_messageAllClients (P := fun _ => True) h fun _ _ _ => trivial
    exact ⟨htalk.counts.1, .inl htalk.counts.2⟩

theorem hitNpc_counts (h : s.hitNpc msg = some t) : Counts s t := by
  obtain ⟨id, rest, -, ⟨-, rfl⟩ | ⟨i, npc, -, -, h⟩⟩ := hitNpc_eq_some h
  · exact ⟨rfl, .inl rfl⟩
  · obtain ⟨ext, htalk, -⟩ := talk_messageOwners (P := fun _ => True) h fun _ _ _ => trivial
    exact ⟨htalk.counts.1, .inl htalk.counts.2⟩

theorem gotHit_counts (h : s.gotHit client = some t) : Counts s t := by
  obtain ⟨rfl, -⟩ | ⟨i, ply, -, h⟩ := gotHit_eq_some h
  · exact ⟨rfl, .inl rfl⟩
  · obtain ⟨ext, htalk, -⟩ := talk_messageClient (P := fun _ => True) h trivial
    exact ⟨htalk.counts.1, .inl htalk.counts.2⟩

theorem chat_counts (h : s.chat client msg = some t) : Counts s t := by
  obtain rfl | ⟨i, ply, s₁, -, -, h₁, h₂⟩ := chat_eq_some h
  · exact ⟨rfl, .inl rfl⟩
  · obtain ⟨ext₁, htalk₁, -⟩ := talk_messageOwners (P := fun _ => True) h₁ fun _ _ _ => trivial
    obtain ⟨ext₂, htalk₂, -⟩ := talk_messageClient (P := fun _ => True) h₂ trivial
    exact ⟨htalk₂.counts.1.trans htalk₁.counts.1, .inl (htalk₂.counts.2.trans htalk₁.counts.2)⟩

theorem onMessageReceived_counts (h : s.onMessageReceived client msg = some t) : Counts s t := by
  rw [onMessageReceived] at h
  split_ifs at h
  · exact sendPlayerData_counts h
  · exact notifyPlayerPosChange_counts h
  · exact hitNpc_counts h
  · exact gotHit_counts h
  · exact chat_counts h
  · cases h
    exact ⟨rfl, .inl rfl⟩

theorem handleCommand_counts {command : List Char} (h : s.handleCommand command = some t) :
    t.qMessagesIn = s.qMessagesIn ∧ t.highestPlayerID = s.highestPlayerID := by
  obtain rfl | ⟨name, toPlayer, h⟩ := handleCommand_eq_some h
  · exact ⟨rfl, rfl⟩
  · obtain rfl | ⟨i, ply, -, -, -, -, h⟩ := spawn_eq_some h
    · exact ⟨rfl, rfl⟩
    · obtain ⟨ext, htalk, -⟩ := talk_messageAllClients (P := fun _ => True) h fun _ _ _ => trivial
      exact htalk.counts

def Within (n : ℕ) (s : Witcher3MPServer) : Prop :=
  s.highestPlayerID.toNat + s.qMessagesIn.length ≤ n + 1

/-- A position that is taken comes from a client that is there. -/
def InTime (m : Witcher3MPServer × Phase) (e : Event) : Prop :=
  e = .main → m.2 = .update → ∀ r ∈ m.1.qMessagesIn.head?,
    r.2.header.id = Networking.Types.notifyPlayerPosChange → m.1.isConnected r.1 = true

instance decidableInTime (m : Witcher3MPServer × Phase) (e : Event) : Decidable (InTime m e) :=
  inferInstanceAs (Decidable (_ → _))

theorem Informed.onMessageReceived (hi : Informed s) (hroom : s.highestPlayerID.toNat + 1 < 2 ^ 32)
    (hclient : client < s.sockets.length)
    (htime : msg.header.id = Networking.Types.notifyPlayerPosChange → s.isConnected client = true)
    (h : s.onMessageReceived client msg = some t) : Informed t := by
  rw [Witcher3MPServer.onMessageReceived] at h
  split_ifs at h with h₁ h₂
  · exact hi.sendPlayerData hroom hclient h
  · exact hi.notifyPlayerPosChange (htime h₂) h
  · exact hi.hitNpc h
  · exact hi.gotHit h
  · exact hi.chat h
  · cases h
    exact hi

theorem handleCommands_spec (h : s.handleCommands = some t) (hi : Informed s) :
    Informed t ∧ t.qMessagesIn = s.qMessagesIn ∧ t.highestPlayerID = s.highestPlayerID := by
  rw [handleCommands_eq] at h
  split_ifs at h
  obtain ⟨u, hu, rfl⟩ := Option.map_eq_some_iff.mp h
  have hall : Informed u ∧ u.qMessagesIn = s.qMessagesIn ∧ u.highestPlayerID = s.highestPlayerID := by
    refine Loops.of_runs (I := fun u => Informed u ∧ u.qMessagesIn = s.qMessagesIn ∧
      u.highestPlayerID = s.highestPlayerID) ?_ ⟨hi, rfl, rfl⟩ hu
    rintro v command v' ⟨hv, hq, hh⟩ hstep
    obtain ⟨hq', hh'⟩ := handleCommand_counts hstep
    exact ⟨hv.handleCommand hstep, hq'.trans hq, hh'.trans hh⟩
  exact ⟨hall.1.congr rfl rfl rfl rfl rfl fun _ he => he, hall.2⟩

theorem informed_step {n : ℕ} {m m' : Witcher3MPServer × Phase} {e : Event} (hn : n + 2 < 2 ^ 32)
    (hi : Informed m.1 ∧ Within n m.1) (htime : InTime m e) (h : step m e = some m') :
    Informed m'.1 ∧ Within (n + 1) m'.1 := by
  obtain ⟨hi, hw⟩ := hi
  have hlater : ∀ {u : Witcher3MPServer}, u.qMessagesIn.length ≤ m.1.qMessagesIn.length →
      u.highestPlayerID = m.1.highestPlayerID → Within (n + 1) u := by
    intro u hq hh
    rw [Within, hh]
    rw [Within] at hw
    omega
  cases e with
  | connect =>
    cases h
    exact ⟨hi.onClientConnect, hlater (Nat.le_refl _) rfl⟩
  | close client =>
    cases h
    exact ⟨hi.close, hlater (Nat.le_refl _) rfl⟩
  | arrive client msg =>
    rw [step] at h
    split_ifs at h with hopen
    · cases h
      constructor
      · obtain ⟨⟨hdist, hf, hiss, hqueued, hown, hsend, hhear⟩, hj, ha⟩ := hi
        refine ⟨⟨hdist, hf, hiss, hqueued, hown, fun e he => ?_, hhear⟩, hj,
          fun c hc => ⟨(ha c hc).present, (ha c hc).known⟩⟩
        rcases List.mem_append.mp he with he | he
        · exact hsend e he
        · rw [List.mem_singleton.mp he]
          exact lt_of_isConnected hopen
      · have hone : (m.1.qMessagesIn ++ [(client, msg)]).length = m.1.qMessagesIn.length + 1 :=
          List.length_append
        change m.1.highestPlayerID.toNat + (m.1.qMessagesIn ++ [(client, msg)]).length ≤ n + 1 + 1
        rw [Within] at hw
        omega
    · cases h
      exact ⟨hi, hlater (Nat.le_refl _) rfl⟩
  | command text =>
    cases h
    exact ⟨hi.congr rfl rfl rfl rfl rfl fun _ he => he, hlater (Nat.le_refl _) rfl⟩
  | main =>
    obtain ⟨s, phase⟩ := m
    cases phase with
    | commands =>
      obtain ⟨u, hu, rfl⟩ := Option.map_eq_some_iff.mp h
      obtain ⟨hiu, hq, hh⟩ := handleCommands_spec hu hi
      exact ⟨hiu, hlater (by rw [hq]) hh⟩
    | cleanUp =>
      cases h
      exact ⟨hi.cleanUp, hlater (Nat.le_refl _) rfl⟩
    | update =>
      cases hq : s.qMessagesIn with
      | nil =>
        simp only [step, mainStep, hq] at h
        cases h
        exact ⟨hi, hlater (Nat.le_refl _) rfl⟩
      | cons r rest =>
        simp only [step, mainStep, hq, Option.map_eq_some_iff] at h
        obtain ⟨u, hu, rfl⟩ := h
        have hmem : r ∈ s.qMessagesIn := hq ▸ List.mem_cons_self
        have hpop : Informed { s with qMessagesIn := rest } :=
          hi.congr rfl rfl rfl rfl rfl fun e he => hq ▸ List.mem_cons_of_mem _ he
        have hcount : s.highestPlayerID.toNat + (rest.length + 1) ≤ n + 1 := by
          rw [Within] at hw
          dsimp only at hw
          rwa [hq] at hw
        have hroom : s.highestPlayerID.toNat + 1 < 2 ^ 32 := by omega
        refine ⟨hpop.onMessageReceived hroom (hi.sound.senders r hmem)
          (fun hid => htime rfl rfl r (by rw [hq]; rfl) hid) hu, ?_⟩
        obtain ⟨hqu, hhu⟩ := onMessageReceived_counts hu
        rw [Within, hqu]
        rcases hhu with hhu | hhu
        · rw [hhu]
          change s.highestPlayerID.toNat + rest.length ≤ _
          omega
        · rw [hhu, UInt32.toNat_add]
          change (s.highestPlayerID.toNat + 1) % 2 ^ 32 + rest.length ≤ _
          rw [Nat.mod_eq_of_lt hroom]
          omega

theorem informed_initial : Informed {} :=
  ⟨⟨List.nodup_nil, fun _ h => absurd h List.not_mem_nil, fun _ _ h => absurd h List.not_mem_nil,
    fun _ h => Bool.noConfusion (h : false = true), fun _ h => absurd h List.not_mem_nil,
    fun _ h => absurd h List.not_mem_nil, fun _ h => absurd h List.not_mem_nil⟩,
    fun _ h => Bool.noConfusion (h : false = true), fun _ h => absurd h List.not_mem_nil⟩

theorem within_initial : Within 0 {} := by
  rw [Within]
  decide

theorem informed_run {events : List Event} (hlen : events.length + 2 < 2 ^ 32)
    (htime : Loops.Along step InTime ({}, .commands) events) {m : Witcher3MPServer × Phase}
    (h : run events = some m) : Informed m.1 := by
  have hall := Loops.of_runs_counted (K := fun n m => Informed m.1 ∧ Within n m.1)
    (B := events.length) (fun n m e m' hn hk hp hm => informed_step (by omega) hk hp hm)
    (n := 0) ⟨informed_initial, within_initial⟩ (Nat.le_of_eq (Nat.zero_add _)) htime h
  exact hall.1

/-- As far as a run gets, everybody who has joined and is there has been told last of every other
player where the server has it, with its character, and of every player that has left that it is at
the origin. -/
theorem agrees_run {events : List Event} (hlen : events.length + 2 < 2 ^ 32)
    (htime : Loops.Along step InTime ({}, .commands) events) {m : Witcher3MPServer × Phase}
    (h : run events = some m) : Agrees m.1 := (informed_run hlen htime h).agrees

def visit : List Event :=
  [.connect, .connect, .connect, .arrive 0 (.sendPlayerData {} 1), .arrive 1 (.sendPlayerData {} 2),
    .arrive 2 (.sendPlayerData {} 3), .main, .main, .main, .main, .main,
    .arrive 0 (.notifyPlayerPosChange { x := 7 } 1), .close 1, .main, .main, .main, .main]

theorem agrees_run_visit : Agrees ((run visit).get (by decide +kernel)).1 :=
  agrees_run (by decide) (by decide +kernel) (Option.some_get _).symm

end WitcherMP.Core.Witcher3MPServer
