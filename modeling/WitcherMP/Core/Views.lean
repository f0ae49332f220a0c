import WitcherMP.Core.Handlers
import WitcherMP.Lib.Latest

/-! What the clients know of the players. A client that has joined and is still there has every
other player where the server has it, and every player that has left at the origin, provided that
positions are not taken from clients that are gone. -/

namespace WitcherMP.Core.Witcher3MPServer
open Combat (Vector4F)
open Latest (heard latest)
open scoped WitcherMP.Networking
variable {s t : Witcher3MPServer} {client : Client} {x : Option UInt32}

def places (msg : Packet) : List (UInt32 × Vector4F) := msg.records.map fun r => (r.1, r.2.1)

def introduces (msg : Packet) : List (UInt32 × UInt8) := msg.created.map fun r => (r.1, r.2.2)

def told (s : Witcher3MPServer) (client : Client) (id : UInt32) : Option Vector4F :=
  latest (heard places s.sent client) id

def introduced (s : Witcher3MPServer) (client : Client) : List (UInt32 × UInt8) :=
  heard introduces s.sent client

def Lives (s : Witcher3MPServer) (id : UInt32) : Prop := ∃ ply, some ply ∈ s.playerList ∧ ply.id = id

structure AgreesBut (x : Option UInt32) (s : Witcher3MPServer) (client : Client) : Prop where
  present : ∀ ply, some ply ∈ s.playerList → ply.ownerClient ≠ client → some ply.id ≠ x →
    s.told client ply.id = some ply.position ∧ (ply.id, ply.characterId) ∈ s.introduced client
  known : ∀ r ∈ s.introduced client, some r.1 ≠ x →
    (∃ ply, some ply ∈ s.playerList ∧ ply.id = r.1 ∧ ply.characterId = r.2) ∨
      (¬ s.Lives r.1 ∧ s.told client r.1 = some {})

/-- Everybody who has joined and is there has every player where the server has it. -/
def Agrees (s : Witcher3MPServer) : Prop := ∀ client ∈ s.listeners, AgreesBut none s client

def Joined (s : Witcher3MPServer) : Prop :=
  ∀ c, s.isConnected c = true → s.introduced c ≠ [] → c ∈ s.listeners

structure Sound (s : Witcher3MPServer) : Prop where
  distinct : (s.playerList.reduceOption.map (·.id)).Nodup
  fresh : ∀ ply, some ply ∈ s.playerList → ply.id.toNat < s.highestPlayerID.toNat
  issued : ∀ c, ∀ r ∈ s.introduced c, r.1.toNat < s.highestPlayerID.toNat
  queued : ∀ c, s.isConnected c = true → some c ∈ s.deqConnections
  owners : ∀ ply, some ply ∈ s.playerList → ply.ownerClient < s.sockets.length
  senders : ∀ e ∈ s.qMessagesIn, e.1 < s.sockets.length
  hearers : ∀ e ∈ s.sent, e.1 < s.sockets.length

theorem records_eq_nil {msg : Packet} (h : ¬ (msg.header.id = Types.updatePos ∨
    msg.header.id = Types.createPlayer ∨ msg.header.id = Types.massCreatePlayer)) :
    msg.records = [] := if_neg h

theorem records_updatePos (id : UInt32) (pos : Vector4F) (moveType : UInt8) :
    (Packet.updatePos id pos moveType).records = [(id, pos, moveType)] :=
  Packet.records_putRecord (.inl rfl) _

theorem records_createPlayer (id : UInt32) (pos : Vector4F) (characterId : UInt8) :
    (Packet.createPlayer id pos characterId).records = [(id, pos, characterId)] :=
  Packet.records_putRecord (.inr rfl) _

theorem places_updatePos (id : UInt32) (pos : Vector4F) (moveType : UInt8) :
    places (.updatePos id pos moveType) = [(id, pos)] := by
  rw [places, records_updatePos]
  rfl

theorem introduces_updatePos (id : UInt32) (pos : Vector4F) (moveType : UInt8) :
    introduces (.updatePos id pos moveType) = [] := rfl

theorem places_createPlayer (id : UInt32) (pos : Vector4F) (characterId : UInt8) :
    places (.createPlayer id pos characterId) = [(id, pos)] := by
  rw [places, records_createPlayer]
  rfl

theorem introduces_createPlayer (id : UInt32) (pos : Vector4F) (characterId : UInt8) :
    introduces (.createPlayer id pos characterId) = [(id, characterId)] := by
  have hid : ¬ (Packet.createPlayer id pos characterId).header.id = Types.updatePos := by
    change ¬ Types.createPlayer = Types.updatePos
    decide
  rw [introduces, Packet.created, if_neg hid, records_createPlayer]
  rfl

theorem introduces_of_places_nil {msg : Packet} (h : places msg = []) : introduces msg = [] := by
  rw [introduces, Packet.created, List.map_eq_nil_iff.mp h, ite_self]
  rfl

section Heard
variable {P : Client × Packet → Prop} {ext : List (Client × Packet)}

theorem Talk.sent (h : Talk P s ext t) : t.sent = s.sent ++ ext := by
  obtain ⟨deq, -, ⟨rfl, -⟩ | ⟨rfl, -, -⟩⟩ := h <;> rfl

theorem Talk.highestPlayerID (h : Talk P s ext t) : t.highestPlayerID = s.highestPlayerID := by
  obtain ⟨deq, -, ⟨rfl, -⟩ | ⟨rfl, -, -⟩⟩ := h <;> rfl

theorem Talk.qMessagesIn (h : Talk P s ext t) : t.qMessagesIn = s.qMessagesIn := by
  obtain ⟨deq, -, ⟨rfl, -⟩ | ⟨rfl, -, -⟩⟩ := h <;> rfl

theorem mem_notices {left : List Player} {clients : List Client} {e : Client × Packet} :
    e ∈ notices left clients ↔
      ∃ ply ∈ left, e.1 ∈ clients ∧ e.2 = .updatePos ply.id {} 1 := by
  obtain ⟨c, msg⟩ := e
  simp only [notices, List.mem_flatMap, List.mem_map, Prod.mk.injEq]
  constructor
  · rintro ⟨ply, hply, c', hc', rfl, rfl⟩
    exact ⟨ply, hply, hc', rfl⟩
  · rintro ⟨ply, hply, hc, rfl⟩
    exact ⟨ply, hply, c, hc, rfl, rfl⟩

theorem Talk.mem_playerList (h : Talk P s ext t) {ply : Player} (hply : some ply ∈ t.playerList) :
    some ply ∈ s.playerList := by
  obtain ⟨deq, -, ⟨rfl, -⟩ | ⟨rfl, -, -⟩⟩ := h
  · exact hply
  · exact (mem_kept.mp hply).1

theorem Talk.dropped (h : Talk P s ext t) {ply : Player} (hply : some ply ∈ s.playerList)
    (hnot : some ply ∉ t.playerList) :
    s.stays ply = false ∧ ∀ c ∈ s.listeners, (c, .updatePos ply.id {} 1) ∈ ext := by
  obtain ⟨deq, -, ⟨rfl, -⟩ | ⟨rfl, -, hall⟩⟩ := h
  · exact absurd hply hnot
  · have hclosed : s.stays ply = false :=
      Bool.eq_false_iff.mpr fun hopen => hnot (mem_kept.mpr ⟨hply, hopen⟩)
    exact ⟨hclosed, fun c hc => hall _ (mem_notices.mpr ⟨ply, mem_goneIn.mpr ⟨hply, hclosed⟩, hc, rfl⟩)⟩

theorem Talk.mem_ext (h : Talk P s ext t) {e : Client × Packet} (he : e ∈ ext) :
    (s.isConnected e.1 = true ∧ P e) ∨
      ∃ ply, some ply ∈ s.playerList ∧ some ply ∉ t.playerList ∧ e.1 ∈ s.listeners ∧
        e.2 = .updatePos ply.id {} 1 := by
  obtain ⟨deq, -, ⟨rfl, hext⟩ | ⟨rfl, hext, -⟩⟩ := h
  · exact .inl (hext e he)
  · refine (hext e he).imp_right fun hnot => ?_
    obtain ⟨ply, hply, hc, hmsg⟩ := mem_notices.mp hnot
    obtain ⟨hmem, hclosed⟩ := mem_goneIn.mp hply
    refine ⟨ply, hmem, fun hkept => ?_, hc, hmsg⟩
    rw [(mem_kept.mp hkept).2] at hclosed
    cases hclosed

theorem Talk.listeners (h : Talk P s ext t) {c : Client} : c ∈ t.listeners ↔ c ∈ s.listeners := by
  rw [mem_listeners, mem_listeners, h.isConnected]
  refine and_congr_right fun hopen => exists_congr fun ply => and_congr_left fun howner => ?_
  refine ⟨h.mem_playerList, fun hply => ?_⟩
  by_contra hnot
  have hclosed := (h.dropped hply hnot).1
  rw [stays, howner, hopen] at hclosed
  cases hclosed

theorem Talk.told (h : Talk P s ext t) (c : Client) (id : UInt32) :
    t.told c id = latest (heard places s.sent c ++ heard places ext c) id := by
  rw [Witcher3MPServer.told, h.sent, Latest.heard_append]

theorem Talk.introduced (h : Talk P s ext t) (c : Client) :
    t.introduced c = s.introduced c ++ heard introduces ext c := by
  rw [Witcher3MPServer.introduced, h.sent, Latest.heard_append]
  rfl

theorem Talk.said_of_heard (h : Talk P s ext t) {c : Client} {id : UInt32} {b : UInt32 × Vector4F}
    (hstay : ∀ q, some q ∈ s.playerList → some q ∉ t.playerList → q.id ≠ id)
    (hb : b ∈ heard places ext c) (hid : b.1 = id) : ∃ msg, P (c, msg) ∧ b ∈ places msg := by
  obtain ⟨msg, hmsg, hb⟩ := Latest.mem_heard.mp hb
  rcases h.mem_ext hmsg with ⟨-, hP⟩ | ⟨q, hq, hnot, -, hmsg⟩
  · exact ⟨msg, hP, hb⟩
  · rw [show msg = _ from hmsg, places_updatePos, List.mem_singleton] at hb
    rw [hb] at hid
    exact absurd hid (hstay q hq hnot)

theorem Talk.told_of_sent (h : Talk P s ext t) {c : Client} {id : UInt32} {pos : Vector4F} {msg : Packet}
    (hsent : (c, msg) ∈ ext) (hplace : (id, pos) ∈ places msg)
    (honly : ∀ msg, P (c, msg) → ∀ b ∈ places msg, b.1 = id → b.2 = pos)
    (hstay : ∀ q, some q ∈ s.playerList → some q ∉ t.playerList → q.id ≠ id) :
    t.told c id = some pos := by
  rw [h.told]
  refine Latest.latest_append_of_forall (Latest.mem_heard.mpr ⟨msg, hsent, hplace⟩) fun b hb hid => ?_
  obtain ⟨said, hP, hb⟩ := h.said_of_heard hstay hb hid
  exact honly said hP b hb hid

theorem mem_places_of_introduces {msg : Packet} {r : UInt32 × UInt8} (h : r ∈ introduces msg) :
    r.1 ∈ (places msg).map Prod.fst := by
  obtain ⟨r', hr', rfl⟩ := List.mem_map.mp h
  have hmem : r' ∈ msg.records := by
    rw [Packet.created] at hr'
    split_ifs at hr'
    · exact absurd hr' List.not_mem_nil
    · exact hr'
  exact List.mem_map_of_mem (List.mem_map_of_mem hmem)

theorem eq_of_id (hs : (s.playerList.reduceOption.map (·.id)).Nodup) {ply ply' : Player}
    (h : some ply ∈ s.playerList) (h' : some ply' ∈ s.playerList) (hid : ply.id = ply'.id) :
    ply = ply' :=
  List.inj_on_of_nodup_map hs (List.reduceOption_mem_iff.mpr h) (List.reduceOption_mem_iff.mpr h') hid

theorem zero_of_heard (h : Talk P s ext t)
    (hp : ∀ msg, P (client, msg) → ∀ id ∈ (places msg).map Prod.fst, some id = x) {id : UInt32}
    (hx : some id ≠ x) : ∀ b ∈ heard places ext client, b.1 = id → b.2 = {} := by
  rintro b hb rfl
  obtain ⟨msg, hmem, hb⟩ := Latest.mem_heard.mp hb
  rcases h.mem_ext hmem with ⟨-, hP⟩ | ⟨ply', -, -, -, hmsg⟩
  · exact absurd (hp msg hP b.1 (List.mem_map_of_mem hb)) hx
  · rw [show msg = _ from hmsg, places_updatePos, List.mem_singleton] at hb
    rw [hb]

theorem heard_of_dropped (h : Talk P s ext t) (hc : client ∈ s.listeners) {ply : Player}
    (hply : some ply ∈ s.playerList) (hnot : some ply ∉ t.playerList) :
    (ply.id, ({} : Vector4F)) ∈ heard places ext client :=
  Latest.mem_heard.mpr ⟨_, (h.dropped hply hnot).2 client hc, by
    rw [places_updatePos]
    exact List.mem_cons_self⟩

variable (hs : (s.playerList.reduceOption.map (·.id)).Nodup) (h : Talk P s ext t)
include hs h

theorem not_lives_of_dropped {ply : Player} (hply : some ply ∈ s.playerList)
    (hnot : some ply ∉ t.playerList) : ¬ t.Lives ply.id := by
  rintro ⟨ply', hply', hid⟩
  exact hnot (eq_of_id hs (h.mem_playerList hply') hply hid ▸ hply')

theorem ne_of_heard (hp : ∀ msg, P (client, msg) → ∀ id ∈ (places msg).map Prod.fst, some id = x)
    {ply : Player} (hply : some ply ∈ t.playerList) (hx : some ply.id ≠ x) :
    ∀ b ∈ heard places ext client, b.1 ≠ ply.id := by
  rintro b hb hid
  obtain ⟨msg, hmem, hb⟩ := Latest.mem_heard.mp hb
  rcases h.mem_ext hmem with ⟨-, hP⟩ | ⟨ply', hply', hnot, -, hmsg⟩
  · exact hx (hid ▸ hp msg hP b.1 (List.mem_map_of_mem hb))
  · rw [show msg = _ from hmsg, places_updatePos, List.mem_singleton] at hb
    rw [hb] at hid
    exact hnot (eq_of_id hs hply' (h.mem_playerList hply) hid ▸ hply)

theorem AgreesBut.talk (hp : ∀ msg, P (client, msg) → ∀ id ∈ (places msg).map Prod.fst, some id = x)
    (hc : client ∈ s.listeners) (ha : AgreesBut x s client) : AgreesBut x t client := by
  constructor
  · intro ply hply howner hx
    obtain ⟨htold, hintro⟩ := ha.present ply (h.mem_playerList hply) howner hx
    refine ⟨?_, ?_⟩
    · rw [h.told, Latest.latest_append_of_notMem (ne_of_heard hs h hp hply hx)]
      exact htold
    · rw [h.introduced]
      exact List.mem_append_left _ hintro
  · intro r hr hx
    rw [h.introduced, List.mem_append] at hr
    rcases hr with hr | hr
    · rw [h.told]
      rcases ha.known r hr hx with ⟨ply, hply, hid, hchar⟩ | ⟨hgone, hzero⟩
      · by_cases hkept : some ply ∈ t.playerList
        · exact .inl ⟨ply, hkept, hid, hchar⟩
        · have hheard := heard_of_dropped h hc hply hkept
          rw [hid] at hheard
          refine .inr ⟨hid ▸ not_lives_of_dropped hs h hply hkept, ?_⟩
          exact Latest.latest_append_of_forall hheard (zero_of_heard h hp hx)
      · refine .inr ⟨fun ⟨ply, hply, hid⟩ => hgone ⟨ply, h.mem_playerList hply, hid⟩, ?_⟩
        exact Latest.latest_append_of_eq hzero (zero_of_heard h hp hx)
    · obtain ⟨msg, hmem, hr⟩ := Latest.mem_heard.mp hr
      rcases h.mem_ext hmem with ⟨-, hP⟩ | ⟨ply', -, -, -, hmsg⟩
      · exact absurd (hp msg hP r.1 (mem_places_of_introduces hr)) hx
      · rw [show msg = _ from hmsg, introduces_updatePos] at hr
        exact absurd hr List.not_mem_nil

end Heard

section Plain
variable {P : Client × Packet → Prop} {ext : List (Client × Packet)}

def Plain (e : Client × Packet) : Prop := places e.2 = []

theorem lt_of_isConnected (h : s.isConnected client = true) : client < s.sockets.length := by
  by_contra hle
  rw [isConnected, List.getD_eq_default _ _ (not_lt.mp hle)] at h
  cases h

theorem Talk.of_introduced (h : Talk P s ext t) {c : Client} {r : UInt32 × UInt8}
    (hr : r ∈ heard introduces ext c) :
    s.isConnected c = true ∧ ∃ msg, P (c, msg) ∧ r ∈ introduces msg := by
  obtain ⟨msg, hmem, hr⟩ := Latest.mem_heard.mp hr
  rcases h.mem_ext hmem with ⟨hopen, hP⟩ | ⟨ply', -, -, -, hmsg⟩
  · exact ⟨hopen, msg, hP, hr⟩
  · rw [show msg = _ from hmsg, introduces_updatePos] at hr
    exact absurd hr List.not_mem_nil

theorem reduceOption_sublist (h : Talk P s ext t) :
    t.playerList.reduceOption.Sublist s.playerList.reduceOption := by
  obtain ⟨deq, -, ⟨rfl, -⟩ | ⟨rfl, -, -⟩⟩ := h
  · exact List.Sublist.refl _
  · exact reduceOption_kept ▸ List.filter_sublist

theorem Sound.talk (hs : Sound s) (h : Talk P s ext t)
    (hp : ∀ c msg, P (c, msg) → ∀ r ∈ introduces msg, r.1.toNat < s.highestPlayerID.toNat) :
    Sound t where
  distinct := hs.distinct.sublist ((reduceOption_sublist h).map _)
  fresh ply hply := by
    rw [h.highestPlayerID]
    exact hs.fresh ply (h.mem_playerList hply)
  issued c r hr := by
    rw [h.highestPlayerID]
    rw [h.introduced, List.mem_append] at hr
    rcases hr with hr | hr
    · exact hs.issued c r hr
    · obtain ⟨-, msg, hP, hr⟩ := h.of_introduced hr
      exact hp c msg hP r hr
  queued c hc := by
    rw [h.isConnected] at hc
    obtain ⟨deq, hdeq, ⟨rfl, -⟩ | ⟨rfl, -, -⟩⟩ := h <;> exact hdeq c hc (hs.queued c hc)
  owners ply hply := by
    rw [h.sockets]
    exact hs.owners ply (h.mem_playerList hply)
  senders e he := by
    rw [h.qMessagesIn] at he
    rw [h.sockets]
    exact hs.senders e he
  hearers e he := by
    rw [h.sent, List.mem_append] at he
    rw [h.sockets]
    rcases he with he | he
    · exact hs.hearers e he
    · rcases h.mem_ext he with ⟨hopen, -⟩ | ⟨ply', -, -, hc, -⟩
      · exact lt_of_isConnected hopen
      · exact lt_of_isConnected (mem_listeners.mp hc).1

theorem Joined.talk (hj : Joined s) (h : Talk P s ext t)
    (hp : ∀ c msg, s.isConnected c = true → P (c, msg) → introduces msg ≠ [] → c ∈ s.listeners) :
    Joined t := by
  intro c hc hne
  rw [h.isConnected] at hc
  rw [h.listeners]
  by_cases hs : s.introduced c = []
  · rw [h.introduced, hs, List.nil_append] at hne
    obtain ⟨r, hr⟩ := List.exists_mem_of_ne_nil _ hne
    obtain ⟨-, msg, hP, hr⟩ := h.of_introduced hr
    exact hp c msg hc hP (List.ne_nil_of_mem hr)
  · exact hj c hc hs

structure Informed (s : Witcher3MPServer) : Prop where
  sound : Sound s
  joined : Joined s
  agrees : Agrees s

theorem Informed.talk (hi : Informed s) (h : Talk Plain s ext t) : Informed t := by
  have hnone : ∀ msg : Packet, places msg = [] → introduces msg = [] :=
    fun msg => introduces_of_places_nil
  refine ⟨hi.sound.talk h fun c msg hP r hr => ?_, hi.joined.talk h fun c msg _ hP hne => ?_,
    fun c hc => ?_⟩
  · rw [hnone msg hP] at hr
    exact absurd hr List.not_mem_nil
  · exact absurd (hnone msg hP) hne
  · rw [h.listeners] at hc
    refine AgreesBut.talk hi.sound.distinct h (fun msg hP id hid => ?_) hc (hi.agrees c hc)
    rw [show places msg = [] from hP] at hid
    exact absurd hid List.not_mem_nil

end Plain
end WitcherMP.Core.Witcher3MPServer
