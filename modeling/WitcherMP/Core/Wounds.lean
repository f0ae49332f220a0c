import WitcherMP.Core.Agreement
import WitcherMP.Core.Creatures

/-! The hits that players report, counted over a run: ten of them are a death, and the health starts
anew. A client's hits go to its first player, which stays that as long as the client is there. -/

namespace WitcherMP.Core.Witcher3MPServer
open Combat (Vector4F)
open scoped WitcherMP.Networking
variable {s t : Witcher3MPServer} {c client : Client} {msg : Packet} {n : ℕ}

def firstPlayer (s : Witcher3MPServer) (c : Client) : Option Player :=
  s.playerList.reduceOption.find? (ownedBy c)

def isDeath (c : Client) (e : Client × Packet) : Bool := e.1 = c && e.2.header.id = Types.playerDead

def deaths (s : Witcher3MPServer) (c : Client) : ℕ := s.sent.countP (isDeath c)

def playerHits (c : Client) (m : Witcher3MPServer × Phase) (e : Event) : ℕ :=
  match handling m e with
  | none => 0
  | some (c', msg) =>
    if c' = c ∧ msg.header.id = Networking.Types.gotHit ∧ (m.1.firstPlayer c).isSome then 1 else 0

structure Made (s : Witcher3MPServer) : Prop where
  owners : ∀ ply, some ply ∈ s.playerList → ply.ownerClient < s.sockets.length
  senders : ∀ e ∈ s.qMessagesIn, e.1 < s.sockets.length
  hearers : ∀ e ∈ s.sent, e.1 < s.sockets.length

structure Healthy (c : Client) (n : ℕ) (s : Witcher3MPServer) : Prop where
  absent : s.firstPlayer c = none → n = 0 ∧ s.deaths c = 0
  present : ∀ ply, s.firstPlayer c = some ply →
    ply.maxHealth = 1000 ∧ ply.health = 1000 - 100 * (n % 10) ∧ s.deaths c = n / 10

structure Tended (c : Client) (n : ℕ) (s : Witcher3MPServer) : Prop where
  made : Made s
  early : s.sockets.length ≤ c → n = 0
  healthy : s.isConnected c = true → Healthy c n s

section First
variable {P : Client × Packet → Prop} {ext : List (Client × Packet)} {i : ℕ} {ply ply' : Player}

theorem find_of_search {p : Player → Bool} {l : List (Option Player)} {o : Option (ℕ × Player)}
    (h : search p l = some o) : l.reduceOption.find? p = o.map Prod.snd := by
  induction l generalizing o with
  | nil =>
    cases h
    rfl
  | cons e l ih =>
    cases e with
    | none => cases h
    | some q =>
      rw [search] at h
      rw [List.reduceOption_cons_of_some, List.find?_cons]
      split_ifs at h with hq
      · cases h
        rw [hq]
        rfl
      · obtain ⟨o', ho', rfl⟩ := Option.map_eq_some_iff.mp h
        rw [Bool.eq_false_iff.mpr hq, Option.map_map]
        exact ih ho'

theorem Talk.firstPlayer (h : Talk P s ext t) (hopen : s.isConnected c = true) :
    t.firstPlayer c = s.firstPlayer c := by
  obtain ⟨deq, -, ⟨rfl, -⟩ | ⟨rfl, -, -⟩⟩ := h
  · rfl
  · rw [Witcher3MPServer.firstPlayer, Witcher3MPServer.firstPlayer, reduceOption_kept, List.find?_filter]
    refine congrArg (fun p => List.find? p _) (funext fun q => ?_)
    rw [Bool.decide_and, Bool.decide_eq_true, Bool.decide_eq_true]
    cases hown : ownedBy c q with
    | false => rw [Bool.and_false]
    | true =>
      rw [Bool.and_true, stays, show q.ownerClient = c from of_decide_eq_true hown]
      exact hopen

theorem Talk.deaths (h : Talk P s ext t) (hp : ∀ e, P e → isDeath c e = false) :
    t.deaths c = s.deaths c := by
  have hnone : ext.countP (isDeath c) = 0 := by
    refine List.countP_eq_zero.mpr fun e he => Bool.eq_false_iff.mp ?_
    rcases h.mem_ext he with ⟨-, hP⟩ | ⟨ply, -, -, -, hmsg⟩
    · exact hp e hP
    · have hid : ¬ e.2.header.id = Types.playerDead := by
        rw [hmsg]
        change ¬ Types.updatePos = Types.playerDead
        decide
      rw [isDeath, decide_eq_false hid, Bool.and_false]
  rw [Witcher3MPServer.deaths, h.sent, List.countP_append, hnone, Nat.add_zero]
  rfl

theorem Made.talk (hm : Made s) (h : Talk P s ext t) : Made t where
  owners ply hply := by
    rw [h.sockets]
    exact hm.owners ply (h.mem_playerList hply)
  senders e he := by
    rw [h.qMessagesIn] at he
    rw [h.sockets]
    exact hm.senders e he
  hearers e he := by
    rw [h.sent, List.mem_append] at he
    rw [h.sockets]
    rcases he with he | he
    · exact hm.hearers e he
    · rcases h.mem_ext he with ⟨hopen, -⟩ | ⟨ply', -, -, hc, -⟩
      · exact lt_of_isConnected hopen
      · exact lt_of_isConnected (mem_listeners.mp hc).1

theorem Tended.talk (ht : Tended c n s) (h : Talk P s ext t) (hp : ∀ e, P e → isDeath c e = false) :
    Tended c n t := by
  refine ⟨ht.made.talk h, by rw [h.sockets]; exact ht.early, fun hopen => ?_⟩
  rw [h.isConnected] at hopen
  obtain ⟨habsent, hpresent⟩ := ht.healthy hopen
  refine ⟨?_, ?_⟩
  · rw [h.firstPlayer hopen, h.deaths hp]
    exact habsent
  · rw [h.firstPlayer hopen, h.deaths hp]
    exact hpresent

theorem firstPlayer_setEntry (hply : s.playerList.getD i none = some ply)
    (hown : ply.ownerClient ≠ c) (hown' : ply'.ownerClient ≠ c) :
    (s.setEntry i (some ply')).firstPlayer c = s.firstPlayer c := by
  rw [firstPlayer, firstPlayer, playerList_setEntry hply]
  nth_rewrite 3 [playerList_split hply]
  have hno : ∀ q : Player, q.ownerClient ≠ c → ownedBy c q = false := fun q h => decide_eq_false h
  rw [List.reduceOption_append, List.reduceOption_append, List.reduceOption_cons_of_some,
    List.reduceOption_cons_of_some, List.find?_append, List.find?_append, List.find?_cons,
    List.find?_cons, hno ply hown, hno ply' hown']

theorem firstPlayer_setEntry_search (hsearch : search (ownedBy c) s.playerList = some (some (i, ply)))
    (hown' : ply'.ownerClient = c) : (s.setEntry i (some ply')).firstPlayer c = some ply' := by
  obtain ⟨hget, -, hbefore⟩ := search_eq_some hsearch
  rw [firstPlayer, playerList_setEntry hget, List.reduceOption_append, List.reduceOption_cons_of_some,
    List.find?_append]
  have hnone : (s.playerList.take i).reduceOption.find? (ownedBy c) = none := by
    refine List.find?_eq_none.mpr fun q hq => Bool.eq_false_iff.mp ?_
    obtain ⟨j, hj, hget'⟩ := List.mem_iff_getElem.mp (List.reduceOption_mem_iff.mp hq)
    rw [List.length_take] at hj
    obtain ⟨q', hq', hno⟩ := hbefore j (by omega)
    rw [List.getElem_take] at hget'
    rw [List.getD_eq_getElem _ _ (by omega), hget'] at hq'
    cases hq'
    exact hno
  have hself : ownedBy c ply' = true := decide_eq_true hown'
  rw [hnone, Option.none_or, List.find?_cons, hself]

end First

theorem isDeath_of_id {t : Messages.MessageTypes} (hid : t ≠ Types.playerDead)
    {e : Client × Packet} (h : e.2.header.id = t) : isDeath c e = false := by
  rw [isDeath, h, decide_eq_false hid, Bool.and_false]

theorem isDeath_of_client {e : Client × Packet} (h : e.1 ≠ c) : isDeath c e = false := by
  rw [isDeath, decide_eq_false h, Bool.false_and]

theorem Tended.congr (ht : Tended c n s) (hl : t.playerList.reduceOption = s.playerList.reduceOption)
    (hsock : t.sockets = s.sockets) (hsent : t.sent = s.sent)
    (hq : ∀ e ∈ t.qMessagesIn, e ∈ s.qMessagesIn) : Tended c n t := by
  have hfirst : t.firstPlayer c = s.firstPlayer c := by rw [firstPlayer, firstPlayer, hl]
  have hdeaths : t.deaths c = s.deaths c := by rw [deaths, deaths, hsent]
  refine ⟨⟨fun ply hply => ?_, fun e he => ?_, fun e he => ?_⟩, by rw [hsock]; exact ht.early,
    fun hopen => ?_⟩
  · rw [← List.reduceOption_mem_iff, hl, List.reduceOption_mem_iff] at hply
    rw [hsock]
    exact ht.made.owners ply hply
  · rw [hsock]
    exact ht.made.senders e (hq e he)
  · rw [hsent] at he
    rw [hsock]
    exact ht.made.hearers e he
  · rw [isConnected, hsock] at hopen
    obtain ⟨habsent, hpresent⟩ := ht.healthy hopen
    exact ⟨by rwa [hfirst, hdeaths], by rwa [hfirst, hdeaths]⟩

theorem Made.setEntry {i : ℕ} {ply ply' : Player} (hm : Made s)
    (hply : s.playerList.getD i none = some ply) (howner : ply'.ownerClient = ply.ownerClient) :
    Made (s.setEntry i (some ply')) where
  owners q hq := by
    rcases mem_setEntry hply hq with rfl | hq
    · rw [howner]
      exact hm.owners ply (mem_playerList_of_getD hply)
    · exact hm.owners q hq
  senders := hm.senders
  hearers := hm.hearers

theorem Tended.push (ht : Tended c n s) (ply : Player) (howner : ply.ownerClient < s.sockets.length)
    (hmax : ply.maxHealth = 1000) (hhealth : ply.health = 1000) : Tended c n (s.push ply) := by
  refine ⟨⟨fun q hq => (mem_push.mp hq).elim (ht.made.owners q) fun h => h ▸ howner, ht.made.senders,
    ht.made.hearers⟩, ht.early, fun hopen => ?_⟩
  obtain ⟨habsent, hpresent⟩ := ht.healthy hopen
  have hfirst : (s.push ply).firstPlayer c = (s.firstPlayer c).or ([ply].find? (ownedBy c)) := by
    rw [firstPlayer, Witcher3MPServer.push, List.reduceOption_append, List.find?_append]
    rfl
  cases hold : s.firstPlayer c with
  | some q =>
    rw [hold, Option.some_or] at hfirst
    exact ⟨fun h => absurd (hfirst.symm.trans h) (Option.some_ne_none q),
      fun q' hq' => hpresent q' (hold.trans (hfirst.symm.trans hq'))⟩
  | none =>
    obtain ⟨rfl, hdeaths⟩ := habsent hold
    rw [hold, Option.none_or] at hfirst
    refine ⟨fun _ => ⟨rfl, hdeaths⟩, fun q hq => ?_⟩
    rw [hfirst] at hq
    have hq' := List.mem_singleton.mp (List.mem_of_find?_eq_some hq)
    rw [hq']
    exact ⟨hmax, hhealth, hdeaths⟩

theorem Tended.sendPlayerData (ht : Tended c n s) (hclient : client < s.sockets.length)
    (h : s.sendPlayerData client msg = some t) : Tended c n t := by
  obtain ⟨characterId, recPosition, -, -, s₁, s₂, -, -, h₁, h₂, h₃⟩ := sendPlayerData_eq_some h
  obtain ⟨ext₁, htalk₁, -⟩ := talk_messageOwners (P := fun e => isDeath c e = false) h₁
    fun _ _ _ => isDeath_of_id (t := Types.createPlayer) (by decide) rfl
  have hstart : Tended c n { s with highestPlayerID := s.highestPlayerID + 1 } :=
    ht.congr rfl rfl rfl fun _ he => he
  have ht₁ := hstart.talk htalk₁ fun _ he => he
  have ht₂ : Tended c n s₂ ∧ s₂.sockets = s₁.sockets := by
    rcases h₂ with ⟨-, rfl⟩ | ⟨mass, hmass, h₂⟩
    · exact ⟨ht₁, rfl⟩
    · have hid := (massCreate_eq_some hmass).2.1
      obtain ⟨ext₂, htalk₂, -⟩ := talk_messageClient (P := fun e => isDeath c e = false) h₂
        (isDeath_of_id (t := Types.massCreatePlayer) (by decide) hid)
      exact ⟨ht₁.talk htalk₂ fun _ he => he, htalk₂.sockets⟩
  obtain ⟨ht₂, hsock₂⟩ := ht₂
  obtain ⟨ext₃, htalk₃, -⟩ := talk_messageClient (P := fun e => isDeath c e = false) h₃
    (isDeath_of_id (t := Types.setActorHealth) (by decide) rfl)
  have hlt : client < s₂.sockets.length := by
    rw [hsock₂, htalk₁.sockets]
    exact hclient
  have hpush := ht₂.push (Player.new s.highestPlayerID recPosition 1000 characterId client) hlt rfl rfl
  exact hpush.talk htalk₃ fun _ he => he

theorem Tended.setEntry {i : ℕ} {ply ply' : Player} (ht : Tended c n s)
    (hsearch : search (ownedBy client) s.playerList = some (some (i, ply)))
    (howner : ply'.ownerClient = ply.ownerClient)
    (hkeep : client = c → ply'.health = ply.health ∧ ply'.maxHealth = ply.maxHealth) :
    Tended c n (s.setEntry i (some ply')) := by
  obtain ⟨hget, hown, -⟩ := search_eq_some hsearch
  have hown' : ply.ownerClient = client := of_decide_eq_true hown
  refine ⟨ht.made.setEntry hget howner, ht.early, fun hopen => ?_⟩
  obtain ⟨habsent, hpresent⟩ := ht.healthy hopen
  by_cases hc : client = c
  · subst hc
    obtain ⟨hhealth, hmax⟩ := hkeep rfl
    have hnew := firstPlayer_setEntry_search hsearch (howner.trans hown')
    refine ⟨fun h => absurd (hnew.symm.trans h) (Option.some_ne_none _), fun q hq => ?_⟩
    rw [hnew] at hq
    cases hq
    rw [hhealth, hmax]
    exact hpresent ply (find_of_search hsearch)
  · have hfirst : (s.setEntry i (some ply')).firstPlayer c = s.firstPlayer c :=
      firstPlayer_setEntry hget (hown'.trans_ne hc) ((howner.trans hown').trans_ne hc)
    exact ⟨by rw [hfirst]; exact habsent, by rw [hfirst]; exact hpresent⟩

theorem Tended.notifyPlayerPosChange (ht : Tended c n s)
    (h : s.notifyPlayerPosChange client msg = some t) : Tended c n t := by
  obtain rfl | ⟨i, ply, moveType, newPos, hsearch, h⟩ := notifyPlayerPosChange_eq_some h
  · exact ht
  · obtain ⟨ext, htalk, -⟩ := talk_messageAllClients h (P := fun e => isDeath c e = false)
      fun _ _ _ => isDeath_of_id (t := Types.updatePos) (by decide) rfl
    have hset : Tended c n (s.setEntry i (some { ply with position := newPos })) :=
      ht.setEntry hsearch rfl fun _ => ⟨rfl, rfl⟩
    exact hset.talk htalk fun _ he => he

theorem Tended.hitNpc (ht : Tended c n s) (h : s.hitNpc msg = some t) : Tended c n t := by
  obtain ⟨id, rest, -, ⟨-, rfl⟩ | ⟨i, npc, -, -, h⟩⟩ := hitNpc_eq_some h
  · exact ht
  · have hmsg : ∀ d, isDeath c (d, hitMessage id npc) = false := by
      intro d
      rw [hitMessage]
      split_ifs
      · exact isDeath_of_id (t := Types.setActorHealth) (by decide) rfl
      · exact isDeath_of_id (t := Types.npcDead) (by decide) rfl
    obtain ⟨ext, htalk, -⟩ := talk_messageOwners (P := fun e => isDeath c e = false) h
      fun _ _ _ => hmsg _
    have hset : Tended c n (s.setNpc i { npc with health := hitHealth npc.health }) :=
      ht.congr rfl rfl rfl fun _ he => he
    exact hset.talk htalk fun _ he => he

theorem Tended.chat (ht : Tended c n s) (h : s.chat client msg = some t) : Tended c n t := by
  obtain rfl | ⟨i, ply, s₁, -, -, h₁, h₂⟩ := chat_eq_some h
  · exact ht
  · obtain ⟨ext₁, htalk₁, -⟩ := talk_messageOwners (P := fun e => isDeath c e = false) h₁
      fun _ _ _ => isDeath_of_id (t := Types.chatMessage) (by decide) (id_chatMessage ..)
    obtain ⟨ext₂, htalk₂, -⟩ := talk_messageClient (P := fun e => isDeath c e = false) h₂
      (isDeath_of_id (t := Types.chatMessage) (by decide) (id_chatMessage ..))
    exact (ht.talk htalk₁ fun _ he => he).talk htalk₂ fun _ he => he

theorem Tended.handleCommand {command : List Char} (ht : Tended c n s)
    (h : s.handleCommand command = some t) : Tended c n t := by
  obtain rfl | ⟨name, toPlayer, h⟩ := handleCommand_eq_some h
  · exact ht
  · obtain rfl | ⟨i, ply, -, -, -, -, h⟩ := spawn_eq_some h
    · exact ht
    · obtain ⟨ext, htalk, -⟩ := talk_messageAllClients (P := fun e => isDeath c e = false) h
        fun _ _ _ => isDeath_of_id (t := Types.createNpc) (by decide) rfl
      refine Tended.talk ?_ htalk fun _ he => he
      exact ht.congr rfl rfl rfl fun _ he => he

theorem Healthy.hit {i : ℕ} {ply : Player} (hh : Healthy client n s)
    (hopen : s.isConnected client = true)
    (hsearch : search (ownedBy client) s.playerList = some (some (i, ply)))
    (h : (s.setEntry i (some (hitPlayer ply).1)).messageClient client (hitPlayer ply).2 = some t) :
    Healthy client (n + 1) t := by
  obtain ⟨hmax, hhealth, hdeaths⟩ := hh.present ply (find_of_search hsearch)
  obtain ⟨-, hown, -⟩ := search_eq_some hsearch
  rw [messageClient_of_open (s := s.setEntry i _) hopen] at h
  cases h
  have howner : (hitPlayer ply).1.ownerClient = client :=
    (hitPlayer_eq ply).2.2.1.trans (of_decide_eq_true hown)
  have hfirst : ((s.setEntry i (some (hitPlayer ply).1)).send client (hitPlayer ply).2).firstPlayer client
      = some (hitPlayer ply).1 := firstPlayer_setEntry_search hsearch howner
  have hcount : ((s.setEntry i (some (hitPlayer ply).1)).send client (hitPlayer ply).2).deaths client
      = s.deaths client + if isDeath client (client, (hitPlayer ply).2) then 1 else 0 := by
    rw [deaths, send, List.countP_append, List.countP_singleton]
    rfl
  refine ⟨fun hnone => absurd (hfirst.symm.trans hnone) (Option.some_ne_none _), fun q hq => ?_⟩
  rw [hfirst] at hq
  cases hq
  rw [hcount, hdeaths, hitPlayer]
  by_cases hlow : ply.health > 100
  · rw [if_pos hlow, isDeath_of_id (t := Types.setActorHealth) (by decide) rfl]
    refine ⟨hmax, ?_, ?_⟩
    · change ply.health - 100 = _
      omega
    · change n / 10 + 0 = _
      omega
  · have hdead : isDeath client (client, Packet.playerDead) = true := by
      rw [isDeath, decide_eq_true rfl, Bool.true_and]
      exact decide_eq_true rfl
    rw [if_neg hlow, hdead]
    refine ⟨hmax, ?_, ?_⟩
    · change ply.maxHealth = _
      omega
    · change n / 10 + 1 = _
      omega

theorem Tended.gotHit (ht : Tended c n s) (h : s.gotHit client = some t) :
    Tended c (n + if client = c ∧ (s.firstPlayer c).isSome then 1 else 0) t := by
  obtain ⟨rfl, hnone⟩ | ⟨i, ply, hsearch, h⟩ := gotHit_eq_some h
  · have hno : ¬ (client = c ∧ (t.firstPlayer c).isSome = true) := by
      rintro ⟨rfl, hsome⟩
      rw [firstPlayer, find_of_search hnone] at hsome
      exact Bool.noConfusion hsome
    rwa [if_neg hno, Nat.add_zero]
  · obtain ⟨hget, -, -⟩ := search_eq_some hsearch
    have howner := (hitPlayer_eq ply).2.2.1
    by_cases hc : client = c
    · subst hc
      have hfirst : s.firstPlayer client = some ply := find_of_search hsearch
      rw [if_pos ⟨rfl, by rw [hfirst]; rfl⟩]
      obtain ⟨ext, htalk, -⟩ := talk_messageClient (P := fun _ => True) h trivial
      refine ⟨(ht.made.setEntry hget howner).talk htalk, fun hle => ?_, fun hopen => ?_⟩
      · have hlt := ht.made.owners ply (mem_playerList_of_getD hget)
        rw [htalk.sockets] at hle
        rw [show ply.ownerClient = client from of_decide_eq_true (search_eq_some hsearch).2.1] at hlt
        exact absurd hlt (not_lt.mpr hle)
      · rw [htalk.isConnected] at hopen
        exact (ht.healthy hopen).hit hopen hsearch h
    · rw [if_neg fun hand => hc hand.1, Nat.add_zero]
      obtain ⟨ext, htalk, -⟩ := talk_messageClient (P := fun e => isDeath c e = false) h
        (isDeath_of_client hc)
      exact (ht.setEntry hsearch howner fun h => absurd h hc).talk htalk fun _ he => he

theorem Tended.onMessageReceived (ht : Tended c n s) (hclient : client < s.sockets.length)
    (h : s.onMessageReceived client msg = some t) :
    Tended c (n + if client = c ∧ msg.header.id = Networking.Types.gotHit ∧ (s.firstPlayer c).isSome
      then 1 else 0) t := by
  have hother : msg.header.id ≠ Networking.Types.gotHit → Tended c n t →
      Tended c (n + if client = c ∧ msg.header.id = Networking.Types.gotHit ∧
        (s.firstPlayer c).isSome then 1 else 0) t := by
    intro hid ht
    rwa [if_neg fun h => hid h.2.1, Nat.add_zero]
  rw [Witcher3MPServer.onMessageReceived] at h
  split_ifs at h with h₁ h₂ h₃ h₄ h₅
  · exact hother (by rw [h₁]; decide) (ht.sendPlayerData hclient h)
  · exact hother (by rw [h₂]; decide) (ht.notifyPlayerPosChange h)
  · exact hother (by rw [h₃]; decide) (ht.hitNpc h)
  · have hhit := ht.gotHit h
    simp only [h₄, true_and]
    exact hhit
  · exact hother h₄ (ht.chat h)
  · cases h
    exact hother h₄ ht

theorem Tended.onClientConnect (ht : Tended c n s) : Tended c n s.onClientConnect := by
  obtain ⟨⟨howners, hsenders, hhearers⟩, hearly, hhealthy⟩ := ht
  have hlen : s.onClientConnect.sockets.length = s.sockets.length + 1 := List.length_append
  have hdeaths : s.onClientConnect.deaths c = s.deaths c := by
    have hno : isDeath c (s.sockets.length, .requestPlayerData) = false :=
      isDeath_of_id (t := Types.requestPlayerData) (by decide) rfl
    change (s.sent ++ [(s.sockets.length, Packet.requestPlayerData)]).countP (isDeath c) = _
    rw [List.countP_append, List.countP_singleton, hno]
    rfl
  refine ⟨⟨fun ply hply => ?_, fun e he => ?_, fun e he => ?_⟩, fun hle => ?_, fun hopen => ?_⟩
  · exact hlen ▸ (howners ply hply).trans (Nat.lt_succ_self _)
  · exact hlen ▸ (hsenders e he).trans (Nat.lt_succ_self _)
  · rw [hlen]
    rcases List.mem_append.mp he with he | he
    · exact (hhearers e he).trans (Nat.lt_succ_self _)
    · rw [List.mem_singleton.mp he]
      exact Nat.lt_succ_self _
  · exact hearly (by omega)
  · change (s.sockets ++ [true]).getD c false = true at hopen
    rw [getD_concat] at hopen
    split_ifs at hopen with hnew
    · have hnone : s.firstPlayer c = none := by
        refine List.find?_eq_none.mpr fun ply hply hown => ?_
        have hlt := howners ply (List.reduceOption_mem_iff.mp hply)
        rw [show ply.ownerClient = c from of_decide_eq_true hown, hnew] at hlt
        exact absurd hlt (Nat.lt_irrefl _)
      have hzero : s.deaths c = 0 := by
        refine List.countP_eq_zero.mpr fun e he => Bool.eq_false_iff.mp (isDeath_of_client ?_)
        exact hnew ▸ Nat.ne_of_lt (hhearers e he)
      refine ⟨fun _ => ⟨hearly (Nat.le_of_eq hnew.symm), hdeaths.trans hzero⟩, fun ply hply => ?_⟩
      exact absurd (hnone.symm.trans hply) (Option.some_ne_none ply).symm
    · obtain ⟨habsent, hpresent⟩ := hhealthy hopen
      exact ⟨fun h => hdeaths ▸ habsent h, fun ply h => hdeaths ▸ hpresent ply h⟩

theorem Tended.close (ht : Tended c n s) : Tended c n (s.close client) := by
  obtain ⟨⟨howners, hsenders, hhearers⟩, hearly, hhealthy⟩ := ht
  have hlen : (s.close client).sockets.length = s.sockets.length := List.length_set
  refine ⟨⟨fun ply hply => hlen ▸ howners ply hply, fun e he => hlen ▸ hsenders e he,
    fun e he => hlen ▸ hhearers e he⟩, fun hle => hearly (hlen ▸ hle), fun hopen => ?_⟩
  obtain ⟨habsent, hpresent⟩ := hhealthy (isConnected_of_close hopen)
  exact ⟨habsent, hpresent⟩

theorem tended_step {m m' : Witcher3MPServer × Phase} {e : Event} (ht : Tended c n m.1)
    (h : step m e = some m') : Tended c (n + playerHits c m e) m'.1 := by
  have hidle : (e ≠ .main ∨ m.2 ≠ .update) → n + playerHits c m e = n := by
    intro hor
    rw [playerHits, handling, if_neg fun h => hor.elim (fun he => he h.1) fun hm => hm h.2, Nat.add_zero]
  obtain ⟨s, phase⟩ := m
  cases e with
  | connect =>
    cases h
    rw [hidle (.inl fun he => by cases he)]
    exact ht.onClientConnect
  | close client =>
    cases h
    rw [hidle (.inl fun he => by cases he)]
    exact ht.close
  | arrive client msg =>
    rw [hidle (.inl fun he => by cases he)]
    rw [step] at h
    split_ifs at h with hopen
    · cases h
      obtain ⟨⟨howners, hsenders, hhearers⟩, hearly, hhealthy⟩ := ht
      refine ⟨⟨howners, fun e he => ?_, hhearers⟩, hearly, fun hc => ?_⟩
      · rcases List.mem_append.mp he with he | he
        · exact hsenders e he
        · rw [List.mem_singleton.mp he]
          exact lt_of_isConnected hopen
      · exact ⟨(hhealthy hc).absent, (hhealthy hc).present⟩
    · cases h
      exact ht
  | command text =>
    cases h
    rw [hidle (.inl fun he => by cases he)]
    exact ht.congr rfl rfl rfl fun _ he => he
  | main =>
    cases phase with
    | commands =>
      rw [hidle (.inr fun hm => by cases hm)]
      obtain ⟨u, hu, rfl⟩ := Option.map_eq_some_iff.mp h
      rw [handleCommands_eq] at hu
      split_ifs at hu
      obtain ⟨v, hv, rfl⟩ := Option.map_eq_some_iff.mp hu
      have hall : Tended c n v :=
        Loops.of_runs (I := Tended c n) (fun _ _ _ hw hstep => hw.handleCommand hstep) ht hv
      exact hall.congr rfl rfl rfl fun _ he => he
    | cleanUp =>
      rw [hidle (.inr fun hm => by cases hm)]
      cases h
      exact ht.congr (reduceOption_cleanUp s.playerList) rfl rfl fun _ he => he
    | update =>
      cases hq : s.qMessagesIn with
      | nil =>
        simp only [step, mainStep, hq] at h
        cases h
        have hno : playerHits c (s, .update) .main = 0 := by
          rw [playerHits, handling, if_pos ⟨rfl, rfl⟩]
          dsimp only
          rw [hq]
          rfl
        rwa [hno]
      | cons r rest =>
        simp only [step, mainStep, hq, Option.map_eq_some_iff] at h
        obtain ⟨u, hu, rfl⟩ := h
        have hhits : playerHits c (s, .update) .main
            = if r.1 = c ∧ r.2.header.id = Networking.Types.gotHit ∧ (s.firstPlayer c).isSome
              then 1 else 0 := by
          rw [playerHits, handling, if_pos ⟨rfl, rfl⟩]
          dsimp only
          rw [hq]
          rfl
        rw [hhits]
        have hpop : Tended c n { s with qMessagesIn := rest } :=
          ht.congr rfl rfl rfl fun e he => hq ▸ List.mem_cons_of_mem _ he
        exact hpop.onMessageReceived (ht.made.senders r (hq ▸ List.mem_cons_self)) hu

/-- In every run, as long as a client is there, the number `k` of hits that its first player has taken
says all: every tenth is a death, the client has been told of each, and each hit since the last one has
cost 100 of 1000. -/
theorem wounds_run {events : List Event} {m : Witcher3MPServer × Phase} (h : run events = some m)
    (hopen : m.1.isConnected c = true) {ply : Player} (hply : m.1.firstPlayer c = some ply) :
    ply.maxHealth = 1000 ∧
      ply.health = 1000 - 100 * (Loops.tally step (playerHits c) ({}, .commands) events % 10) ∧
      m.1.deaths c = Loops.tally step (playerHits c) ({}, .commands) events / 10 := by
  have hstart : Tended c 0 {} :=
    ⟨⟨fun _ h => absurd h List.not_mem_nil, fun _ h => absurd h List.not_mem_nil,
      fun _ h => absurd h List.not_mem_nil⟩, fun _ => rfl, fun h => Bool.noConfusion (h : false = true)⟩
  have htended := Loops.of_runs_tally (K := fun n m => Tended c n m.1) (f := playerHits c)
    (fun n m e m' hk hstep => tended_step hk hstep) (s := ({}, .commands)) hstart h
  exact (htended.healthy hopen).present ply hply

def ambush : List Event :=
  [.connect, .arrive 0 (.sendPlayerData { x := 7 } 1)] ++
    List.replicate 11 (.arrive 0 (.empty Networking.Types.gotHit)) ++ List.replicate 15 .main

def victim : Player := ⟨1, { x := 7 }, 900, 1000, 1, 0⟩

theorem wounds_run_ambush :
    victim.maxHealth = 1000 ∧
      victim.health = 1000 - 100 * (Loops.tally step (playerHits 0) ({}, .commands) ambush % 10) ∧
      ((run ambush).get (by decide +kernel)).1.deaths 0
        = Loops.tally step (playerHits 0) ({}, .commands) ambush / 10 :=
  wounds_run (Option.some_get _).symm (by decide +kernel) (by decide +kernel)

end WitcherMP.Core.Witcher3MPServer
