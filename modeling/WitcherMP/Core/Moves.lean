import WitcherMP.Core.Views

/-! The handlers that add no player leave the clients informed. -/

namespace WitcherMP.Core.Witcher3MPServer
open Combat (Vector4F)
open Latest (heard latest)
open scoped WitcherMP.Networking
variable {s t : Witcher3MPServer} {client : Client} {msg : Packet} {x : Option UInt32}

theorem Informed.congr (hi : Informed s) (hl : t.playerList = s.playerList)
    (hh : t.highestPlayerID = s.highestPlayerID) (hd : t.deqConnections = s.deqConnections)
    (hsock : t.sockets = s.sockets) (hsent : t.sent = s.sent)
    (hq : ∀ e ∈ t.qMessagesIn, e ∈ s.qMessagesIn) : Informed t := by
  cases s
  cases t
  cases hl
  cases hh
  cases hd
  cases hsock
  cases hsent
  obtain ⟨⟨hdist, hfresh, hiss, hqueued, hown, hsend, hhear⟩, hj, ha⟩ := hi
  exact ⟨⟨hdist, hfresh, hiss, hqueued, hown, fun e he => hsend e (hq e he), hhear⟩, hj,
    fun c hc => ⟨(ha c hc).present, (ha c hc).known⟩⟩

section Entry
variable {i : ℕ} {ply ply' : Player} (hply : s.playerList.getD i none = some ply)
include hply

theorem mem_playerList_of_getD : some ply ∈ s.playerList :=
  playerList_split hply ▸ List.mem_append_right _ List.mem_cons_self

theorem mem_setEntry {q : Player} :
    some q ∈ (s.setEntry i (some ply')).playerList → q = ply' ∨ some q ∈ s.playerList := by
  intro hq
  rw [playerList_setEntry hply, List.mem_append, List.mem_cons] at hq
  rw [playerList_split hply, List.mem_append, List.mem_cons]
  rcases hq with hq | hq | hq
  · exact .inr (.inl hq)
  · exact .inl (Option.some_inj.mp hq)
  · exact .inr (.inr (.inr hq))

theorem self_mem_setEntry : some ply' ∈ (s.setEntry i (some ply')).playerList := by
  rw [playerList_setEntry hply]
  exact List.mem_append_right _ List.mem_cons_self

theorem mem_setEntry_of_ne {q : Player} (hq : some q ∈ s.playerList) (hne : q ≠ ply) :
    some q ∈ (s.setEntry i (some ply')).playerList := by
  rw [playerList_setEntry hply, List.mem_append, List.mem_cons]
  rw [playerList_split hply, List.mem_append, List.mem_cons] at hq
  rcases hq with hq | hq | hq
  · exact .inl hq
  · exact absurd (Option.some_inj.mp hq) hne
  · exact .inr (.inr hq)

variable (hid : ply'.id = ply.id) (howner : ply'.ownerClient = ply.ownerClient)

include hid in
theorem lives_setEntry (id : UInt32) : (s.setEntry i (some ply')).Lives id ↔ s.Lives id := by
  constructor
  · rintro ⟨q, hq, rfl⟩
    rcases mem_setEntry hply hq with rfl | hq
    · exact ⟨ply, mem_playerList_of_getD hply, hid.symm⟩
    · exact ⟨q, hq, rfl⟩
  · rintro ⟨q, hq, rfl⟩
    by_cases hne : q = ply
    · exact ⟨ply', self_mem_setEntry hply, hne ▸ hid⟩
    · exact ⟨q, mem_setEntry_of_ne hply hq hne, rfl⟩

include howner in
theorem listeners_setEntry_some (c : Client) :
    c ∈ (s.setEntry i (some ply')).listeners ↔ c ∈ s.listeners := by
  rw [mem_listeners, mem_listeners]
  refine and_congr_right fun _ => ?_
  constructor
  · rintro ⟨q, hq, rfl⟩
    rcases mem_setEntry hply hq with rfl | hq
    · exact ⟨ply, mem_playerList_of_getD hply, howner.symm⟩
    · exact ⟨q, hq, rfl⟩
  · rintro ⟨q, hq, rfl⟩
    by_cases hne : q = ply
    · exact ⟨ply', self_mem_setEntry hply, hne ▸ howner⟩
    · exact ⟨q, mem_setEntry_of_ne hply hq hne, rfl⟩

include hid howner in
theorem Sound.setEntry (hs : Sound s) : Sound (s.setEntry i (some ply')) where
  distinct := by
    have hmap : (s.setEntry i (some ply')).playerList.reduceOption.map (·.id)
        = s.playerList.reduceOption.map (·.id) := by
      rw [playerList_setEntry hply]
      nth_rewrite 3 [playerList_split hply]
      simp only [List.reduceOption_append, List.reduceOption_cons_of_some, List.map_append,
        List.map_cons, hid]
    rw [hmap]
    exact hs.distinct
  fresh q hq := by
    rcases mem_setEntry hply hq with rfl | hq
    · rw [hid]
      exact hs.fresh ply (mem_playerList_of_getD hply)
    · exact hs.fresh q hq
  issued := hs.issued
  queued := hs.queued
  owners q hq := by
    rcases mem_setEntry hply hq with rfl | hq
    · rw [howner]
      exact hs.owners ply (mem_playerList_of_getD hply)
    · exact hs.owners q hq
  senders := hs.senders
  hearers := hs.hearers

theorem AgreesBut.setEntry (hid : ply'.id = ply.id) (hchar : ply'.characterId = ply.characterId)
    (howner : ply'.ownerClient = ply.ownerClient) {c : Client}
    (hpos : ply'.position = ply.position ∨ some ply.id = x ∨ ply.ownerClient = c)
    (ha : AgreesBut x s c) : AgreesBut x (s.setEntry i (some ply')) c := by
  constructor
  · intro q hq hown hx
    rcases mem_setEntry hply hq with rfl | hq
    · rw [hid, hchar]
      rw [hid] at hx
      rw [howner] at hown
      rcases hpos with hpos | hpos | hpos
      · rw [hpos]
        exact ha.present ply (mem_playerList_of_getD hply) hown hx
      · exact absurd hpos hx
      · exact absurd hpos hown
    · exact ha.present q hq hown hx
  · intro r hr hx
    rcases ha.known r hr hx with ⟨q, hq, hid', hchar'⟩ | ⟨hgone, hzero⟩
    · by_cases hne : q = ply
      · subst hne
        exact .inl ⟨ply', self_mem_setEntry hply, hid.trans hid', hchar.trans hchar'⟩
      · exact .inl ⟨q, mem_setEntry_of_ne hply hq hne, hid', hchar'⟩
    · exact .inr ⟨fun h => hgone ((lives_setEntry hply hid _).mp h), hzero⟩

end Entry

section Handlers

theorem places_eq_nil (h : ¬ (msg.header.id = Types.updatePos ∨ msg.header.id = Types.createPlayer ∨
    msg.header.id = Types.massCreatePlayer)) : places msg = [] := by
  rw [places, records_eq_nil h]
  rfl

theorem id_chatMessage (id : UInt32) (chars : List UInt8) :
    (Packet.chatMessage id chars).header.id = Types.chatMessage := by
  have hfold : ∀ msg : Packet, (chars.foldl (Packet.put .byte) msg).header.id = msg.header.id := by
    induction chars with
    | nil => exact fun _ => rfl
    | cons c chars ih => exact fun msg => ih _
  exact hfold _

theorem plain_setActorHealth (c : Client) (id : UInt32) (isPlayer : Bool) (curr max : ℕ) :
    Plain (c, .setActorHealth id isPlayer curr max) := by
  refine places_eq_nil ?_
  change ¬ (Types.setActorHealth = _ ∨ Types.setActorHealth = _ ∨ Types.setActorHealth = _)
  decide

theorem plain_hitMessage (c : Client) (id : UInt32) (npc : Npc) : Plain (c, hitMessage id npc) := by
  rw [hitMessage]
  split_ifs
  · exact plain_setActorHealth ..
  · refine places_eq_nil ?_
    change ¬ (Types.npcDead = _ ∨ Types.npcDead = _ ∨ Types.npcDead = _)
    decide

theorem plain_hitPlayer (c : Client) (ply : Player) : Plain (c, (hitPlayer ply).2) := by
  rw [hitPlayer]
  split_ifs
  · exact plain_setActorHealth ..
  · refine places_eq_nil ?_
    change ¬ (Types.playerDead = _ ∨ Types.playerDead = _ ∨ Types.playerDead = _)
    decide

theorem plain_chatMessage (c : Client) (id : UInt32) (chars : List UInt8) :
    Plain (c, .chatMessage id chars) := by
  refine places_eq_nil ?_
  rw [id_chatMessage]
  decide

theorem plain_createNpc (c : Client) (id resId : UInt32) (pos : Vector4F) (health : ℕ) :
    Plain (c, .createNpc id resId pos health) := by
  refine places_eq_nil ?_
  change ¬ (Types.createNpc = _ ∨ Types.createNpc = _ ∨ Types.createNpc = _)
  decide

theorem Informed.hitNpc (hi : Informed s) (h : s.hitNpc msg = some t) : Informed t := by
  obtain ⟨id, rest, -, ⟨-, rfl⟩ | ⟨i, npc, -, -, h⟩⟩ := hitNpc_eq_some h
  · exact hi
  · obtain ⟨ext, htalk, -⟩ := talk_messageOwners (P := Plain) h
      fun ply _ _ => plain_hitMessage ply.ownerClient id npc
    refine Informed.talk ?_ htalk
    exact hi.congr rfl rfl rfl rfl rfl fun _ he => he

theorem hitPlayer_eq (ply : Player) :
    (hitPlayer ply).1.id = ply.id ∧ (hitPlayer ply).1.characterId = ply.characterId ∧
      (hitPlayer ply).1.ownerClient = ply.ownerClient ∧ (hitPlayer ply).1.position = ply.position := by
  rw [hitPlayer]
  split_ifs <;> exact ⟨rfl, rfl, rfl, rfl⟩

theorem Informed.gotHit (hi : Informed s) (h : s.gotHit client = some t) : Informed t := by
  obtain ⟨rfl, -⟩ | ⟨i, ply, hsearch, h⟩ := gotHit_eq_some h
  · exact hi
  · have hget := (search_eq_some hsearch).1
    obtain ⟨hid, hchar, howner, hpos⟩ := hitPlayer_eq ply
    obtain ⟨ext, htalk, -⟩ := talk_messageClient (P := Plain) h (plain_hitPlayer client ply)
    refine Informed.talk ⟨hi.sound.setEntry hget hid howner, fun c hc hne => ?_, fun c hc => ?_⟩ htalk
    · rw [listeners_setEntry_some hget howner]
      exact hi.joined c hc hne
    · rw [listeners_setEntry_some hget howner] at hc
      exact (hi.agrees c hc).setEntry hget hid hchar howner (.inl hpos)

theorem Informed.chat (hi : Informed s) (h : s.chat client msg = some t) : Informed t := by
  obtain rfl | ⟨i, ply, s₁, -, -, h₁, h₂⟩ := chat_eq_some h
  · exact hi
  · obtain ⟨ext₁, htalk₁, -⟩ := talk_messageOwners (P := Plain) h₁
      fun q _ _ => plain_chatMessage q.ownerClient ..
    obtain ⟨ext₂, htalk₂, -⟩ := talk_messageClient (P := Plain) h₂ (plain_chatMessage client ..)
    exact (hi.talk htalk₁).talk htalk₂

theorem Informed.handleCommand {command : List Char} (hi : Informed s)
    (h : s.handleCommand command = some t) : Informed t := by
  obtain rfl | ⟨name, toPlayer, h⟩ := handleCommand_eq_some h
  · exact hi
  · obtain rfl | ⟨i, ply, -, -, -, -, h⟩ := spawn_eq_some h
    · exact hi
    · obtain ⟨ext, htalk, -⟩ := talk_messageAllClients (P := Plain) h
        fun c _ _ => plain_createNpc c ..
      refine Informed.talk ?_ htalk
      exact hi.congr rfl rfl rfl rfl rfl fun _ he => he

end Handlers

theorem Informed.notifyPlayerPosChange (hi : Informed s) (hopen : s.isConnected client = true)
    (h : s.notifyPlayerPosChange client msg = some t) : Informed t := by
  obtain rfl | ⟨i, ply, moveType, newPos, hsearch, h⟩ := notifyPlayerPosChange_eq_some h
  · exact hi
  obtain ⟨hget, hown, -⟩ := search_eq_some hsearch
  have howner : ply.ownerClient = client := of_decide_eq_true hown
  obtain ⟨ply', hply'⟩ : ∃ ply' : Player, ply' = { ply with position := newPos } := ⟨_, rfl⟩
  rw [← hply'] at h
  have hid : ply'.id = ply.id := by rw [hply']
  have hchar : ply'.characterId = ply.characterId := by rw [hply']
  have hown' : ply'.ownerClient = ply.ownerClient := by rw [hply']
  have hpos : ply'.position = newPos := by rw [hply']
  have hmem := mem_playerList_of_getD hget
  have hsound : Sound (s.setEntry i (some ply')) := hi.sound.setEntry hget hid hown'
  have hlisten := fun c => listeners_setEntry_some hget hown' c
  obtain ⟨ext, htalk, hall⟩ := talk_messageAllClients
    (P := fun e => e.2 = .updatePos ply.id newPos moveType ∧ e.1 ≠ client) h
    fun c _ hne => ⟨rfl, fun hc => hne (howner ▸ congrArg some hc)⟩
  have hstays : some ply' ∈ t.playerList := by
    by_contra hnot
    have hclosed := (htalk.dropped (self_mem_setEntry hget) hnot).1
    have hopen' : (s.setEntry i (some ply')).stays ply' = true := by
      change s.isConnected ply'.ownerClient = true
      rw [hown', howner]
      exact hopen
    exact Bool.false_ne_true (hclosed.symm.trans hopen')
  have hplaces : ∀ c e, (e = Packet.updatePos ply.id newPos moveType ∧ c ≠ client) →
      ∀ id ∈ (places e).map Prod.fst, some id = some ply.id := by
    rintro c e ⟨rfl, -⟩ id hid
    rw [places_updatePos] at hid
    rw [List.mem_singleton.mp hid]
  refine ⟨hsound.talk htalk ?_, Joined.talk (fun c hc hne => ?_) htalk ?_, fun c hc => ?_⟩
  · rintro c e ⟨rfl, -⟩ r hr
    rw [introduces_updatePos] at hr
    exact absurd hr List.not_mem_nil
  · rw [hlisten]
    exact hi.joined c hc hne
  · rintro c e - ⟨rfl, -⟩ hne
    exact absurd (introduces_updatePos ..) hne
  · rw [htalk.listeners] at hc
    have hc' : c ∈ s.listeners := (hlisten c).mp hc
    by_cases hself : c = client
    · refine AgreesBut.talk hsound.distinct htalk ?_ hc
        ((hi.agrees c hc').setEntry hget hid hchar hown' (.inr (.inr (howner.trans hself.symm))))
      exact fun e he => absurd hself he.2
    · have hbut : AgreesBut (some ply.id) s c :=
        ⟨fun q hq ho _ => (hi.agrees c hc').present q hq ho (Option.some_ne_none _),
          fun r hr _ => (hi.agrees c hc').known r hr (Option.some_ne_none _)⟩
      have hrest : AgreesBut (some ply.id) t c :=
        AgreesBut.talk hsound.distinct htalk (fun e he => hplaces c e he) hc
          (hbut.setEntry hget hid hchar hown' (.inr (.inl rfl)))
      have hsent := hall c (mem_listeners.mp hc).1 (hi.sound.queued c (mem_listeners.mp hc').1)
        (fun h => hself (by rw [← howner]; exact Option.some_inj.mp h))
      have htold : t.told c ply.id = some newPos := by
        refine htalk.told_of_sent hsent (by rw [places_updatePos]; exact List.mem_cons_self) ?_ ?_
        · rintro e ⟨rfl, -⟩ b hb -
          rw [places_updatePos, List.mem_singleton] at hb
          rw [hb]
        · intro q hq hnot hid'
          have heq : q = ply' := eq_of_id hsound.distinct hq (self_mem_setEntry hget) (hid'.trans hid.symm)
          exact hnot (heq ▸ hstays)
      obtain ⟨-, hintro⟩ := (hi.agrees c hc').present ply hmem (fun h => hself (h ▸ howner))
        (Option.some_ne_none _)
      constructor
      · intro q hq ho _
        by_cases hq' : q.id = ply.id
        · have heq : q = ply' := eq_of_id hsound.distinct (htalk.mem_playerList hq)
            (self_mem_setEntry hget) (hq'.trans hid.symm)
          rw [heq, hid, hchar, hpos, htalk.introduced]
          exact ⟨htold, List.mem_append_left _ hintro⟩
        · exact hrest.present q hq ho fun h => hq' (Option.some_inj.mp h)
      · intro r hr _
        by_cases hr' : r.1 = ply.id
        · rw [htalk.introduced, List.mem_append] at hr
          rcases hr with hr | hr
          · rcases (hi.agrees c hc').known r hr (Option.some_ne_none _) with
              ⟨q, hq, hqid, hqchar⟩ | ⟨hgone, -⟩
            · have heq : q = ply := eq_of_id hi.sound.distinct hq hmem (hqid.trans hr')
              rw [heq] at hqid hqchar
              exact .inl ⟨ply', hstays, hid.trans hqid, hchar.trans hqchar⟩
            · exact absurd ⟨ply, hmem, hr'.symm⟩ hgone
          · obtain ⟨-, e, ⟨rfl, -⟩, hr⟩ := htalk.of_introduced hr
            rw [introduces_updatePos] at hr
            exact absurd hr List.not_mem_nil
        · exact hrest.known r hr fun h => hr' (Option.some_inj.mp h)

end WitcherMP.Core.Witcher3MPServer
