import WitcherMP.Core.Wounds
import WitcherMP.Core.Crashes

/-! What the clients hear of each other's chat, over a run: every line once for each player of a client
that is there, in the order in which the server gets to them, and nothing besides. -/

namespace WitcherMP.Core.Witcher3MPServer
open Combat (Vector4F)
open Latest (heard)
open scoped WitcherMP.Networking
variable {s t : Witcher3MPServer} {c client : Client} {msg : Packet}

def spoken (msg : Packet) : List (UInt32 × List UInt8) :=
  if msg.header.id = Types.chatMessage then
    [(Layout.word32.read (msg.body.take 4), msg.body.drop 4)]
  else []

def said (s : Witcher3MPServer) (c : Client) : List (UInt32 × List UInt8) := heard spoken s.sent c

def playerCount (s : Witcher3MPServer) (c : Client) : ℕ :=
  s.playerList.reduceOption.countP (ownedBy c)

def lines (s : Witcher3MPServer) (c client : Client) (msg : Packet) : List (UInt32 × List UInt8) :=
  match s.firstPlayer client with
  | none => []
  | some ply =>
    if msg.body = [] ∨ s.isConnected c = false then []
    else if c = client then [(0, msg.body.drop (msg.body.length - 100))]
    else List.replicate (s.playerCount c) (ply.id, msg.body.drop (msg.body.length - 100))

def chatLines (c : Client) (m : Witcher3MPServer × Phase) (e : Event) : List (UInt32 × List UInt8) :=
  match handling m e with
  | none => []
  | some (client, msg) =>
    if msg.header.id = Networking.Types.chatMessage then m.1.lines c client msg else []

theorem body_of_take {α : Type} {l : Layout α} {a : α} {rest : Packet} (h : msg.take l = some (a, rest)) :
    rest.body = msg.body.take (msg.body.length - l.width) ∧
      a = l.read (msg.body.drop (msg.body.length - l.width)) := by
  rw [Packet.take] at h
  split_ifs at h
  cases h
  exact ⟨rfl, rfl⟩

theorem reverse_popChars (n : ℕ) (msg : Packet) :
    (popChars n msg).reverse = msg.body.drop (msg.body.length - n) := by
  induction n generalizing msg with
  | zero => rw [Nat.sub_zero, List.drop_length]; rfl
  | succ n ih =>
    rw [popChars, Networking.Message.size]
    by_cases hzero : msg.body.length = 0
    · rw [if_neg (not_not.mpr hzero), ih, List.length_eq_zero_iff.mp hzero, List.drop_nil, List.drop_nil]
    · have hsome : (msg.take .byte).isSome :=
        (take_isSome_iff .byte).mpr (Nat.one_le_iff_ne_zero.mpr hzero)
      obtain ⟨⟨ch, rest⟩, htake⟩ := Option.isSome_iff_exists.mp hsome
      obtain ⟨hrest, hch⟩ := body_of_take htake
      have hwidth : Layout.byte.width = 1 := rfl
      have hlast : msg.body.drop (msg.body.length - 1) = [ch] := by
        have hone : (msg.body.drop (msg.body.length - 1)).length = 1 := by
          rw [List.length_drop]
          omega
        obtain ⟨b, hb⟩ := List.length_eq_one_iff.mp hone
        rw [hwidth, hb] at hch
        rw [hb, hch]
        rfl
      rw [if_pos hzero, htake]
      dsimp only
      rw [List.reverse_cons, ih, hrest, hwidth, List.length_take]
      have hle : msg.body.length - (n + 1) ≤ msg.body.length - 1 := by omega
      have hmin : min (msg.body.length - 1) msg.body.length - n = msg.body.length - (n + 1) := by omega
      rw [hmin, ← hlast, ← List.drop_append_of_le_length (by rw [List.length_take]; omega),
        List.take_append_drop]

theorem spoken_of_id {t : Messages.MessageTypes} (hid : t ≠ Types.chatMessage)
    (h : msg.header.id = t) : spoken msg = [] := if_neg (h ▸ hid)

theorem spoken_chatMessage (id : UInt32) (chars : List UInt8) :
    spoken (.chatMessage id chars) = [(id, chars)] := by
  have hbody : ∀ (chars : List UInt8) (msg : Packet),
      (chars.foldl (Packet.put .byte) msg).body = msg.body ++ chars := by
    intro chars
    induction chars with
    | nil => exact fun msg => (List.append_nil _).symm
    | cons ch chars ih =>
      intro msg
      rw [List.foldl_cons, ih, Packet.body_put, List.append_assoc]
      rfl
  have hall : (Packet.chatMessage id chars).body = Layout.word32.write id ++ chars :=
    hbody chars (.put .word32 (.empty Types.chatMessage) id)
  have hfour : (Layout.word32.write id).length = 4 := Layout.word32.length_write id
  have hread : Layout.word32.read (Layout.word32.write id) = id := by
    have := Layout.word32.read_write id []
    rwa [List.append_nil] at this
  rw [spoken, if_pos (id_chatMessage id chars), hall, List.take_left' hfour, List.drop_left' hfour, hread]

section Heard
variable {P : Client × Packet → Prop} {ext : List (Client × Packet)} {β : Type}
  {tells : Packet → List β}

theorem Talk.heard_of_closed (h : Talk P s ext t) (hclosed : s.isConnected c = false) :
    heard tells ext c = [] := by
  refine List.eq_nil_iff_forall_not_mem.mpr fun b hb => ?_
  obtain ⟨m, hm, -⟩ := Latest.mem_heard.mp hb
  have hopen : s.isConnected c = true := by
    rcases h.mem_ext hm with ⟨hopen, -⟩ | ⟨ply, -, -, hc, -⟩
    · exact hopen
    · exact (mem_listeners.mp hc).1
  exact Bool.false_ne_true (hclosed.symm.trans hopen)

theorem Talk.heard_of_nil (h : Talk P s ext t) (hnot : ∀ id, tells (.updatePos id {} 1) = [])
    (hp : ∀ m, P (c, m) → tells m = []) : heard tells ext c = [] := by
  refine List.eq_nil_iff_forall_not_mem.mpr fun b hb => ?_
  obtain ⟨m, hm, hb⟩ := Latest.mem_heard.mp hb
  have hnil : tells m = [] := by
    rcases h.mem_ext hm with ⟨-, hP⟩ | ⟨ply, -, -, -, hmsg⟩
    · exact hp m hP
    · rw [show m = _ from hmsg]
      exact hnot ply.id
  rw [hnil] at hb
  exact absurd hb List.not_mem_nil

theorem heard_messageOwners {skip : Option Client} {r : β} (h : s.messageOwners msg skip = some t)
    (hnot : ∀ id, tells (.updatePos id {} 1) = []) (hr : tells msg = [r]) :
    ∃ ext, Talk (fun _ => True) s ext t ∧ ∀ c, s.isConnected c = true →
      heard tells ext c = if some c = skip then [] else List.replicate (s.playerCount c) r := by
  let Round (k : ℕ) (t : Witcher3MPServer) : Prop := ∃ ext, Talk (fun _ => True) s ext t ∧
    ∀ c, s.isConnected c = true → heard tells ext c = if some c = skip then []
      else List.replicate ((s.playerList.take k).reduceOption.countP (ownedBy c)) r
  have hround : ∀ k t t', 0 ≤ k → k < 0 + s.playerList.length → Round k t →
      messageOwner msg skip t (t.playerList.getD k none) = some t' → Round (k + 1) t' := by
    rintro k t t' - - ⟨ext, htalk, hall⟩ hstep
    cases hply : t.playerList.getD k none with
    | none =>
      rw [hply] at hstep
      cases hstep
    | some ply =>
      rw [hply, messageOwner] at hstep
      have hs := htalk.getD_of_some hply
      have htake := take_succ_getD (lt_of_getD hs)
      rw [hs] at htake
      have hcount : ∀ c, (s.playerList.take (k + 1)).reduceOption.countP (ownedBy c)
          = (s.playerList.take k).reduceOption.countP (ownedBy c)
            + if ply.ownerClient = c then 1 else 0 := by
        intro c
        rw [htake, List.reduceOption_append, List.countP_append, List.reduceOption_cons_of_some,
          List.reduceOption_nil, List.countP_singleton]
        simp only [ownedBy, decide_eq_true_eq]
      split_ifs at hstep with hskip
      · cases hstep
        refine ⟨ext, htalk, fun c hc => ?_⟩
        rw [hall c hc, hcount]
        split_ifs with hc' howner
        · rfl
        · exact absurd (howner ▸ hskip) hc'
        · rfl
      · obtain ⟨ext', htalk', hsent⟩ := talk_messageClient (P := fun e => e.1 = ply.ownerClient) hstep rfl
        refine ⟨ext ++ ext', htalk.trans (htalk'.mono fun _ _ _ => trivial), fun c hc => ?_⟩
        rw [Latest.heard_append, hall c hc, hcount]
        by_cases howner : ply.ownerClient = c
        · subst howner
          have hone : heard tells ext' ply.ownerClient = [r] := by
            rw [hsent ((htalk.isConnected _).trans hc), Latest.heard_singleton, hr]
          rw [hone, if_neg hskip, if_neg hskip, if_pos rfl, List.replicate_succ']
        · have hnil : heard tells ext' c = [] :=
            htalk'.heard_of_nil hnot fun m hm => absurd hm.symm howner
          rw [hnil, if_neg howner, Nat.add_zero, List.append_nil]
  have hstart : Round 0 s := by
    refine ⟨[], Talk.refl _ s, fun c _ => ?_⟩
    split_ifs <;> rfl
  obtain ⟨ext, htalk, hall⟩ := Loops.of_loop hround hstart h
  rw [Nat.zero_add, List.take_length] at hall
  exact ⟨ext, htalk, hall⟩

end Heard

theorem Talk.said {P : Client × Packet → Prop} {ext : List (Client × Packet)} (h : Talk P s ext t)
    (c : Client) : t.said c = s.said c ++ heard spoken ext c := by
  rw [Witcher3MPServer.said, h.sent, Latest.heard_append]
  rfl

theorem spoken_notice (id : UInt32) : spoken (.updatePos id {} 1) = [] :=
  spoken_of_id (t := Types.updatePos) (by decide) rfl

theorem Talk.said_eq {ext : List (Client × Packet)} (h : Talk (fun e => spoken e.2 = []) s ext t)
    (c : Client) : t.said c = s.said c := by
  rw [h.said, h.heard_of_nil spoken_notice fun _ hm => hm, List.append_nil]

theorem said_chat (h : s.chat client msg = some t) (c : Client) :
    t.said c = s.said c ++ s.lines c client msg := by
  have hsearch : ∃ o, search (ownedBy client) s.playerList = some o := by
    rw [chat, Option.bind_eq_bind] at h
    obtain ⟨o, ho, -⟩ := Option.bind_eq_some_iff.mp h
    exact ⟨o, ho⟩
  obtain ⟨o, ho⟩ := hsearch
  rw [lines, firstPlayer, find_of_search ho]
  rw [chat, ho] at h
  simp only [Option.bind_eq_bind, Option.bind_some, reverse_popChars] at h
  cases o with
  | none =>
    cases h
    exact (List.append_nil _).symm
  | some r =>
    obtain ⟨i, ply⟩ := r
    dsimp only [Option.map_some] at h ⊢
    have hempty : (msg.body.drop (msg.body.length - 100)).length = 0 ↔ msg.body = [] := by
      rw [List.length_drop, ← List.length_eq_zero_iff]
      omega
    by_cases hbody : msg.body = []
    · rw [if_pos (hempty.mpr hbody)] at h
      cases h
      rw [if_pos (.inl hbody), List.append_nil]
    · rw [if_neg (hempty.not.mpr hbody)] at h
      obtain ⟨s₁, h₁, h₂⟩ := Option.bind_eq_some_iff.mp h
      obtain ⟨ext₁, htalk₁, hheard₁⟩ := heard_messageOwners h₁ spoken_notice (spoken_chatMessage _ _)
      obtain ⟨ext₂, htalk₂, hsent₂⟩ := talk_messageClient (P := fun e => e.1 = client) h₂ rfl
      rw [htalk₂.said, htalk₁.said, List.append_assoc]
      by_cases hopen : s.isConnected c = true
      · rw [if_neg (not_or.mpr ⟨hbody, ne_of_eq_of_ne hopen Bool.false_ne_true.symm⟩), hheard₁ c hopen]
        by_cases hc : c = client
        · subst hc
          rw [if_pos rfl, if_pos rfl, hsent₂ ((htalk₁.isConnected _).trans hopen),
            Latest.heard_singleton, spoken_chatMessage, List.nil_append]
        · rw [if_neg fun h => hc (Option.some_inj.mp h), if_neg hc,
            htalk₂.heard_of_nil spoken_notice fun _ hm => absurd hm hc, List.append_nil]
      · have hclosed := Bool.eq_false_iff.mpr hopen
        rw [if_pos (.inr hclosed), htalk₁.heard_of_closed hclosed,
          htalk₂.heard_of_closed ((htalk₁.isConnected c).trans hclosed)]
        rfl

theorem said_onMessageReceived (h : s.onMessageReceived client msg = some t) (c : Client) :
    t.said c = s.said c
      ++ if msg.header.id = Networking.Types.chatMessage then s.lines c client msg else [] := by
  have hother : msg.header.id ≠ Networking.Types.chatMessage → t.said c = s.said c →
      t.said c = s.said c
        ++ if msg.header.id = Networking.Types.chatMessage then s.lines c client msg else [] :=
    fun hid heq => by rw [if_neg hid, List.append_nil, heq]
  rw [onMessageReceived] at h
  split_ifs at h with h₁ h₂ h₃ h₄ h₅
  · refine hother (by rw [h₁]; decide) ?_
    obtain ⟨characterId, recPosition, -, -, s₁, s₂, -, -, h₁, h₂, h₃⟩ := sendPlayerData_eq_some h
    obtain ⟨ext₁, htalk₁, -⟩ := talk_messageOwners (P := fun e => spoken e.2 = []) h₁
      fun _ _ _ => spoken_of_id (t := Types.createPlayer) (by decide) rfl
    obtain ⟨ext₃, htalk₃, -⟩ := talk_messageClient (P := fun e => spoken e.2 = []) h₃
      (spoken_of_id (t := Types.setActorHealth) (by decide) rfl)
    have hmass : s₂.said c = s₁.said c := by
      rcases h₂ with ⟨-, rfl⟩ | ⟨mass, hmass, h₂⟩
      · rfl
      · obtain ⟨ext₂, htalk₂, -⟩ := talk_messageClient (P := fun e => spoken e.2 = []) h₂
          (spoken_of_id (t := Types.massCreatePlayer) (by decide) (massCreate_eq_some hmass).2.1)
        exact htalk₂.said_eq c
    exact (htalk₃.said_eq c).trans (hmass.trans (htalk₁.said_eq c))
  · refine hother (by rw [h₂]; decide) ?_
    obtain rfl | ⟨i, ply, moveType, newPos, -, h⟩ := notifyPlayerPosChange_eq_some h
    · rfl
    · obtain ⟨ext, htalk, -⟩ := talk_messageAllClients (P := fun e => spoken e.2 = []) h
        fun _ _ _ => spoken_of_id (t := Types.updatePos) (by decide) rfl
      exact htalk.said_eq c
  · refine hother (by rw [h₃]; decide) ?_
    obtain ⟨id, rest, -, ⟨-, rfl⟩ | ⟨i, npc, -, -, h⟩⟩ := hitNpc_eq_some h
    · rfl
    · have hmsg : spoken (hitMessage id npc) = [] := by
        rw [hitMessage]
        split_ifs
        · exact spoken_of_id (t := Types.setActorHealth) (by decide) rfl
        · exact spoken_of_id (t := Types.npcDead) (by decide) rfl
      obtain ⟨ext, htalk, -⟩ := talk_messageOwners (P := fun e => spoken e.2 = []) h fun _ _ _ => hmsg
      exact htalk.said_eq c
  · refine hother (by rw [h₄]; decide) ?_
    obtain ⟨rfl, -⟩ | ⟨i, ply, -, h⟩ := gotHit_eq_some h
    · rfl
    · have hmsg : spoken (hitPlayer ply).2 = [] := by
        rw [hitPlayer]
        split_ifs
        · exact spoken_of_id (t := Types.setActorHealth) (by decide) rfl
        · exact spoken_of_id (t := Types.playerDead) (by decide) rfl
      obtain ⟨ext, htalk, -⟩ := talk_messageClient (P := fun e => spoken e.2 = []) h hmsg
      exact htalk.said_eq c
  · rw [if_pos h₅]
    exact said_chat h c
  · cases h
    exact hother h₅ rfl

theorem said_handleCommand {command : List Char} (h : s.handleCommand command = some t) (c : Client) :
    t.said c = s.said c := by
  obtain rfl | ⟨name, toPlayer, h⟩ := handleCommand_eq_some h
  · rfl
  · obtain rfl | ⟨i, ply, -, -, -, -, h⟩ := spawn_eq_some h
    · rfl
    · obtain ⟨ext, htalk, -⟩ := talk_messageAllClients (P := fun e => spoken e.2 = []) h
        fun _ _ _ => spoken_of_id (t := Types.createNpc) (by decide) rfl
      exact htalk.said_eq c

theorem said_step {m m' : Witcher3MPServer × Phase} {e : Event} (h : step m e = some m') (c : Client) :
    m'.1.said c = m.1.said c ++ chatLines c m e := by
  have hidle : (e ≠ .main ∨ m.2 ≠ .update) → m'.1.said c = m.1.said c →
      m'.1.said c = m.1.said c ++ chatLines c m e := by
    intro hor heq
    rw [chatLines, handling, if_neg fun h => hor.elim (fun he => he h.1) fun hm => hm h.2,
      List.append_nil, heq]
  obtain ⟨s, phase⟩ := m
  cases e with
  | connect =>
    refine hidle (.inl fun he => by cases he) ?_
    cases h
    change heard spoken (s.sent ++ [(s.sockets.length, .requestPlayerData)]) c = heard spoken s.sent c
    rw [Latest.heard_append, List.append_right_eq_self]
    refine List.eq_nil_iff_forall_not_mem.mpr fun b hb => ?_
    obtain ⟨m, hm, hb⟩ := Latest.mem_heard.mp hb
    cases List.mem_singleton.mp hm
    rw [spoken_of_id (t := Types.requestPlayerData) (by decide) rfl] at hb
    exact absurd hb List.not_mem_nil
  | close client =>
    cases h
    exact hidle (.inl fun he => by cases he) rfl
  | arrive client msg =>
    refine hidle (.inl fun he => by cases he) ?_
    rw [step] at h
    split_ifs at h <;> cases h <;> rfl
  | command text =>
    cases h
    exact hidle (.inl fun he => by cases he) rfl
  | main =>
    cases phase with
    | commands =>
      refine hidle (.inr fun hm => by cases hm) ?_
      obtain ⟨u, hu, rfl⟩ := Option.map_eq_some_iff.mp h
      rw [handleCommands_eq] at hu
      split_ifs at hu
      obtain ⟨v, hv, rfl⟩ := Option.map_eq_some_iff.mp hu
      exact Loops.of_runs (I := fun w => w.said c = s.said c)
        (fun _ _ _ hw hstep => (said_handleCommand hstep c).trans hw) rfl hv
    | cleanUp =>
      cases h
      exact hidle (.inr fun hm => by cases hm) rfl
    | update =>
      cases hq : s.qMessagesIn with
      | nil =>
        simp only [step, mainStep, hq] at h
        cases h
        rw [chatLines, handling, if_pos ⟨rfl, rfl⟩, hq]
        exact (List.append_nil _).symm
      | cons r rest =>
        simp only [step, mainStep, hq, Option.map_eq_some_iff] at h
        obtain ⟨u, hu, rfl⟩ := h
        rw [chatLines, handling, if_pos ⟨rfl, rfl⟩, hq]
        exact said_onMessageReceived hu c

/-- Over every run, a client has heard of chat just the lines that were handled while it was there, in
order: the last hundred characters of each, under the speaker's id and once for each of its own players,
or under 0 if they are its own. -/
theorem said_run {events : List Event} {m : Witcher3MPServer × Phase} (h : run events = some m)
    (c : Client) : m.1.said c = Loops.collect step (chatLines c) ({}, .commands) events :=
  Loops.of_runs_collect (K := fun l m => m.1.said c = l) (f := chatLines c) (l := [])
    (fun l m e m' hk hstep => by rw [said_step hstep, hk]) (s := ({}, .commands)) rfl h

def greeting : List Event :=
  [.connect, .connect, .arrive 0 (.sendPlayerData {} 1), .arrive 1 (.sendPlayerData {} 2),
    .arrive 0 ((Packet.empty Networking.Types.chatMessage).push [72, 105]), .main, .main, .main, .main,
    .main]

theorem said_run_greeting :
    ((run greeting).get (by decide +kernel)).1.said 1
      = Loops.collect step (chatLines 1) ({}, .commands) greeting :=
  said_run (Option.some_get _).symm 1

end WitcherMP.Core.Witcher3MPServer
