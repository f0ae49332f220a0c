import WitcherMP.Core.Moves

/-! A player that joins: the others are told of it, its client is told of them, and everybody is
informed again, whether or not the client is still there. -/

namespace WitcherMP.Core.Witcher3MPServer
open Combat (Vector4F)
open Latest (heard latest)
open scoped WitcherMP.Networking
variable {s t s₁ s₂ : Witcher3MPServer} {client : Client} {n : UInt32}

def positions (s : Witcher3MPServer) : List (UInt32 × Vector4F) :=
  s.playerList.reduceOption.map fun ply => (ply.id, ply.position)

def characters (s : Witcher3MPServer) : List (UInt32 × UInt8) :=
  s.playerList.reduceOption.map fun ply => (ply.id, ply.characterId)

def push (s : Witcher3MPServer) (ply : Player) : Witcher3MPServer :=
  { s with playerList := s.playerList ++ [some ply] }

theorem mass_tells {mass : Packet}
    (h : massCreate s.playerList (.empty Types.massCreatePlayer) = some mass) :
    places mass = s.positions ∧ introduces mass = s.characters := by
  obtain ⟨-, hid, hbody⟩ := massCreate_eq_some h
  have hid' : mass.header.id = Types.massCreatePlayer := hid
  have hrecords : mass.records
      = s.playerList.reduceOption.map fun ply => (ply.id, ply.position, ply.characterId) := by
    rw [Packet.records, hid', if_pos (.inr (.inr rfl)), Networking.Message.size, hbody]
    exact Packet.readMany_records _
  have hcreated : mass.created = mass.records := by
    rw [Packet.created, hid', if_neg (by decide)]
  rw [places, introduces, hcreated, hrecords, List.map_map, List.map_map]
  exact ⟨rfl, rfl⟩

theorem talk_mass
    (h : (s₁.playerList = [] ∧ s₂ = s₁) ∨
      ∃ mass, massCreate s₁.playerList (.empty Types.massCreatePlayer) = some mass ∧
        s₁.messageClient client mass = some s₂) :
    ∃ ext, Talk (fun e => e.1 = client ∧ introduces e.2 = s₁.characters) s₁ ext s₂ ∧
      (s₁.isConnected client = true → s₂.playerList = s₁.playerList ∧
        heard places ext client = s₁.positions ∧ heard introduces ext client = s₁.characters) := by
  rcases h with ⟨hnil, rfl⟩ | ⟨mass, hmass, h⟩
  · refine ⟨[], Talk.refl _ _, fun _ => ⟨rfl, ?_, ?_⟩⟩
    · rw [positions, hnil]
      rfl
    · rw [characters, hnil]
      rfl
  · obtain ⟨hplaces, hintro⟩ := mass_tells hmass
    obtain ⟨ext, htalk, hsent⟩ := talk_messageClient
      (P := fun e => e.1 = client ∧ introduces e.2 = s₁.characters) h ⟨rfl, hintro⟩
    refine ⟨ext, htalk, fun hopen => ?_⟩
    rw [messageClient_of_open hopen] at h
    cases h
    rw [hsent hopen, Latest.heard_singleton, Latest.heard_singleton]
    exact ⟨rfl, hplaces, hintro⟩

section Push
variable {ply : Player}

theorem mem_push {q : Player} : some q ∈ (s.push ply).playerList ↔ some q ∈ s.playerList ∨ q = ply := by
  rw [push, List.mem_append, List.mem_singleton, Option.some_inj]

theorem lives_push (id : UInt32) : (s.push ply).Lives id ↔ s.Lives id ∨ ply.id = id := by
  constructor
  · rintro ⟨q, hq, rfl⟩
    rcases mem_push.mp hq with hq | rfl
    · exact .inl ⟨q, hq, rfl⟩
    · exact .inr rfl
  · rintro (⟨q, hq, rfl⟩ | rfl)
    · exact ⟨q, mem_push.mpr (.inl hq), rfl⟩
    · exact ⟨ply, mem_push.mpr (.inr rfl), rfl⟩

theorem listeners_push (c : Client) :
    c ∈ (s.push ply).listeners ↔
      c ∈ s.listeners ∨ (s.isConnected c = true ∧ c = ply.ownerClient) := by
  rw [mem_listeners, mem_listeners]
  constructor
  · rintro ⟨hopen, q, hq, rfl⟩
    rcases mem_push.mp hq with hq | rfl
    · exact .inl ⟨hopen, q, hq, rfl⟩
    · exact .inr ⟨hopen, rfl⟩
  · rintro (⟨hopen, q, hq, rfl⟩ | ⟨hopen, rfl⟩)
    · exact ⟨hopen, q, mem_push.mpr (.inl hq), rfl⟩
    · exact ⟨hopen, ply, mem_push.mpr (.inr rfl), rfl⟩

theorem Sound.push (hs : Sound s) (hnew : ¬ s.Lives ply.id)
    (hid : ply.id.toNat < s.highestPlayerID.toNat) (howner : ply.ownerClient < s.sockets.length) :
    Sound (s.push ply) where
  distinct := by
    rw [Witcher3MPServer.push, List.reduceOption_append, List.map_append]
    refine List.nodup_append.mpr ⟨hs.distinct, List.nodup_singleton _, fun id hmem id' hmem' => ?_⟩
    obtain ⟨q, hq, rfl⟩ := List.mem_map.mp hmem
    rw [List.mem_singleton.mp hmem']
    exact fun heq => hnew ⟨q, List.reduceOption_mem_iff.mp hq, heq⟩
  fresh q hq := (mem_push.mp hq).elim (hs.fresh q) fun h => h ▸ hid
  issued := hs.issued
  queued := hs.queued
  owners q hq := (mem_push.mp hq).elim (hs.owners q) fun h => h ▸ howner
  senders := hs.senders
  hearers := hs.hearers

theorem AgreesBut.push {c : Client} (ha : AgreesBut (some ply.id) s c) :
    AgreesBut (some ply.id) (s.push ply) c := by
  constructor
  · intro q hq hown hx
    rcases mem_push.mp hq with hq | rfl
    · exact ha.present q hq hown hx
    · exact absurd rfl hx
  · intro r hr hx
    rcases ha.known r hr hx with ⟨q, hq, h⟩ | ⟨hgone, hzero⟩
    · exact .inl ⟨q, mem_push.mpr (.inl hq), h⟩
    · refine .inr ⟨fun hlive => ?_, hzero⟩
      rcases (lives_push r.1).mp hlive with hlive | hid
      · exact hgone hlive
      · exact hx (congrArg some hid.symm)

theorem AgreesBut.weaken {c : Client} (ha : AgreesBut none s c) (x : Option UInt32) :
    AgreesBut x s c :=
  ⟨fun q hq hown _ => ha.present q hq hown (Option.some_ne_none _),
    fun r hr _ => ha.known r hr (Option.some_ne_none _)⟩

theorem AgreesBut.complete {c : Client} {id : UInt32} (ha : AgreesBut (some id) s c)
    (hpresent : ∀ ply, some ply ∈ s.playerList → ply.ownerClient ≠ c → ply.id = id →
      s.told c id = some ply.position ∧ (id, ply.characterId) ∈ s.introduced c)
    (hknown : ∀ r ∈ s.introduced c, r.1 = id →
      (∃ ply, some ply ∈ s.playerList ∧ ply.id = r.1 ∧ ply.characterId = r.2) ∨
        (¬ s.Lives r.1 ∧ s.told c r.1 = some {})) : AgreesBut none s c := by
  constructor
  · intro q hq hown _
    by_cases hid : q.id = id
    · rw [hid]
      exact hpresent q hq hown hid
    · exact ha.present q hq hown fun h => hid (Option.some_inj.mp h)
  · intro r hr _
    by_cases hid : r.1 = id
    · exact hknown r hr hid
    · exact ha.known r hr fun h => hid (Option.some_inj.mp h)

end Push

structure Heard (s : Witcher3MPServer) (ply : Player) (c : Client) : Prop where
  rest : AgreesBut (some ply.id) s c
  told : s.told c ply.id = some ply.position
  introduced : (ply.id, ply.characterId) ∈ s.introduced c
  only : ∀ r ∈ s.introduced c, r.1 = ply.id → r.2 = ply.characterId

structure Announced (s : Witcher3MPServer) (client : Client) (ply : Player) : Prop where
  sound : Sound s
  room : ply.id.toNat < s.highestPlayerID.toNat
  new : ¬ s.Lives ply.id
  joined : ∀ c, s.isConnected c = true → c ≠ client → s.introduced c ≠ [] → c ∈ s.listeners
  others : ∀ c ∈ s.listeners, c ≠ client → Heard s ply c
  own : s.isConnected client = true → ∀ r ∈ s.introduced client, r.1 ≠ ply.id ∧
    ((∃ q, some q ∈ s.playerList ∧ q.id = r.1 ∧ q.characterId = r.2) ∨
      (¬ s.Lives r.1 ∧ s.told client r.1 = some {}))

section Announce
variable {ext : List (Client × Packet)} {ply : Player}

theorem Informed.announced (hi : Informed s) (hid : s.highestPlayerID = ply.id)
    (hroom : ply.id.toNat + 1 < 2 ^ 32)
    (h : Talk (fun e => e.2 = .createPlayer ply.id ply.position ply.characterId ∧ e.1 ≠ client ∧
        s.Owns e.1) { s with highestPlayerID := ply.id + 1 } ext s₁)
    (hall : ∀ c ∈ s.listeners, c ≠ client →
      (c, .createPlayer ply.id ply.position ply.characterId) ∈ ext) :
    Announced s₁ client ply := by
  obtain ⟨s₀, hs₀⟩ : ∃ s₀ : Witcher3MPServer, s₀ = { s with highestPlayerID := ply.id + 1 } := ⟨_, rfl⟩
  rw [← hs₀] at h
  have hnext : s₀.highestPlayerID.toNat = ply.id.toNat + 1 := by
    rw [hs₀, UInt32.toNat_add]
    exact Nat.mod_eq_of_lt hroom
  have hlt : s.highestPlayerID.toNat < s₀.highestPlayerID.toNat := by rw [hnext, hid]; omega
  have hfresh : ¬ s.Lives ply.id := by
    rintro ⟨q, hq, hqid⟩
    have := hi.sound.fresh q hq
    rw [hid, hqid] at this
    exact Nat.lt_irrefl _ this
  have hissued : ∀ c, ∀ r ∈ s.introduced c, r.1 ≠ ply.id := by
    rintro c r hr hrid
    have := hi.sound.issued c r hr
    rw [hid, hrid] at this
    exact Nat.lt_irrefl _ this
  have hsound : Sound s₀ := by
    obtain ⟨hdist, hf, hiss, hqueued, hown, hsend, hhear⟩ := hi.sound
    refine ⟨by rwa [hs₀], fun q hq => ?_, fun c r hr => ?_, by rwa [hs₀], by rwa [hs₀], by rwa [hs₀],
      by rwa [hs₀]⟩
    · exact (hf q (by rwa [hs₀] at hq)).trans hlt
    · exact (hiss c r (by rwa [hs₀] at hr)).trans hlt
  have hintro₀ : ∀ c, s₀.introduced c = s.introduced c := fun c => by rw [hs₀]; rfl
  have hlisten₀ : ∀ c, c ∈ s₀.listeners ↔ c ∈ s.listeners := fun c => by rw [hs₀]; rfl
  have hagree₀ : ∀ c ∈ s₀.listeners, AgreesBut none s₀ c := fun c hc => by
    have := hi.agrees c ((hlisten₀ c).mp hc)
    rw [hs₀]
    exact ⟨this.present, this.known⟩
  have hplaces : ∀ c msg, (msg = .createPlayer ply.id ply.position ply.characterId ∧ c ≠ client ∧
      s.Owns c) → ∀ id ∈ (places msg).map Prod.fst, some id = some ply.id := by
    rintro c msg ⟨rfl, -⟩ id hmem
    rw [places_createPlayer] at hmem
    rw [List.mem_singleton.mp hmem]
  have hjoined : Joined s₁ := by
    have hj : Joined s₀ := fun c hc hne => by
      rw [hintro₀] at hne
      rw [hlisten₀]
      refine hi.joined c ?_ hne
      rwa [hs₀] at hc
    refine hj.talk h ?_
    rintro c msg hc ⟨-, -, hown⟩ -
    rw [hlisten₀]
    rw [hs₀] at hc
    exact mem_listeners.mpr ⟨hc, hown⟩
  refine ⟨hsound.talk h ?_, ?_, ?_, fun c hc _ => hjoined c hc, fun c hc hne => ?_, fun hopen r hr => ?_⟩
  · rintro c msg ⟨rfl, -⟩ r hr
    rw [introduces_createPlayer] at hr
    rw [List.mem_singleton.mp hr, hnext]
    exact Nat.lt_succ_self _
  · rw [h.highestPlayerID, hnext]
    exact Nat.lt_succ_self _
  · rintro ⟨q, hq, hqid⟩
    exact hfresh ⟨q, by have := h.mem_playerList hq; rwa [hs₀] at this, hqid⟩
  · rw [h.listeners] at hc
    have hsent := hall c ((hlisten₀ c).mp hc) hne
    refine ⟨AgreesBut.talk hsound.distinct h (fun msg => hplaces c msg) hc ((hagree₀ c hc).weaken _), ?_,
      ?_, ?_⟩
    · refine h.told_of_sent hsent (by rw [places_createPlayer]; exact List.mem_cons_self) ?_ ?_
      · rintro msg ⟨rfl, -⟩ b hb -
        rw [places_createPlayer, List.mem_singleton] at hb
        rw [hb]
      · exact fun q hq _ hid => hfresh ⟨q, by rwa [hs₀] at hq, hid⟩
    · rw [h.introduced]
      refine List.mem_append_right _ (Latest.mem_heard.mpr ⟨_, hsent, ?_⟩)
      rw [introduces_createPlayer]
      exact List.mem_cons_self
    · intro r hr hrid
      rw [h.introduced, hintro₀, List.mem_append] at hr
      rcases hr with hr | hr
      · exact absurd hrid (hissued c r hr)
      · obtain ⟨-, msg, ⟨rfl, -⟩, hr⟩ := h.of_introduced hr
        rw [introduces_createPlayer] at hr
        rw [List.mem_singleton.mp hr]
  · have hown : heard introduces ext client = [] := by
      refine List.eq_nil_iff_forall_not_mem.mpr fun r hr => ?_
      obtain ⟨-, msg, ⟨-, hne, -⟩, -⟩ := h.of_introduced hr
      exact hne rfl
    have hr' : r ∈ s.introduced client := by rwa [h.introduced, hown, List.append_nil, hintro₀] at hr
    refine ⟨hissued client r hr', ?_⟩
    have hlist := hjoined client hopen (List.ne_nil_of_mem hr)
    rw [h.listeners] at hlist
    refine (AgreesBut.talk hsound.distinct h ?_ hlist (hagree₀ client hlist)).known r hr
      (Option.some_ne_none _)
    exact fun msg hP => absurd rfl hP.2.1

theorem Announced.mass (ha : Announced s₁ client ply)
    (h : Talk (fun e => e.1 = client ∧ introduces e.2 = s₁.characters) s₁ ext s₂)
    (hopen : s₁.isConnected client = true → s₂.playerList = s₁.playerList ∧
      heard places ext client = s₁.positions ∧ heard introduces ext client = s₁.characters) :
    Announced s₂ client ply ∧ (s₁.isConnected client = true → ∀ q, some q ∈ s₂.playerList →
      s₂.told client q.id = some q.position ∧ (q.id, q.characterId) ∈ s₂.introduced client) := by
  have hnone : ∀ c, c ≠ client → heard introduces ext c = [] := by
    refine fun c hne => List.eq_nil_iff_forall_not_mem.mpr fun r hr => ?_
    obtain ⟨-, msg, ⟨heq, -⟩, -⟩ := h.of_introduced hr
    exact hne heq
  refine ⟨⟨ha.sound.talk h ?_, ?_, ?_, fun c hc hne => ?_, fun c hc hne => ?_, fun hc r hr => ?_⟩,
    fun hc q hq => ?_⟩
  · rintro c msg ⟨-, heq⟩ r hr
    rw [heq] at hr
    obtain ⟨q, hq, rfl⟩ := List.mem_map.mp hr
    exact ha.sound.fresh q (List.reduceOption_mem_iff.mp hq)
  · rw [h.highestPlayerID]
    exact ha.room
  · exact fun ⟨q, hq, hid⟩ => ha.new ⟨q, h.mem_playerList hq, hid⟩
  · rw [h.isConnected] at hc
    rw [h.introduced, hnone c hne, List.append_nil, h.listeners]
    exact ha.joined c hc hne
  · rw [h.listeners] at hc
    obtain ⟨hrest, htold, hintro, honly⟩ := ha.others c hc hne
    refine ⟨AgreesBut.talk ha.sound.distinct h (fun msg hP => absurd hP.1 hne) hc hrest, ?_, ?_, ?_⟩
    · rw [h.told, Latest.latest_append_of_notMem]
      · exact htold
      · rintro b hb hid
        obtain ⟨msg, ⟨heq, -⟩, -⟩ := h.said_of_heard (fun q hq _ hid => ha.new ⟨q, hq, hid⟩) hb hid
        exact hne heq
    · rw [h.introduced]
      exact List.mem_append_left _ hintro
    · rw [h.introduced, hnone c hne, List.append_nil]
      exact honly
  · rw [h.isConnected] at hc
    obtain ⟨hlist, hplaces, hintro⟩ := hopen hc
    rw [h.introduced, hintro, List.mem_append] at hr
    rcases hr with hr | hr
    · obtain ⟨hne, hknown⟩ := ha.own hc r hr
      refine ⟨hne, ?_⟩
      rw [hlist]
      refine hknown.imp_right fun ⟨hgone, hzero⟩ => ⟨fun ⟨q, hq, hid⟩ => hgone ⟨q, hlist ▸ hq, hid⟩, ?_⟩
      rw [h.told, hplaces, Latest.latest_append_of_notMem]
      · exact hzero
      · rintro b hb hid
        obtain ⟨q, hq, rfl⟩ := List.mem_map.mp hb
        exact hgone ⟨q, List.reduceOption_mem_iff.mp hq, hid⟩
    · obtain ⟨q, hq, rfl⟩ := List.mem_map.mp hr
      rw [List.reduceOption_mem_iff] at hq
      exact ⟨fun hid => ha.new ⟨q, hq, hid⟩, .inl ⟨q, hlist ▸ hq, rfl, rfl⟩⟩
  · obtain ⟨hlist, hplaces, hintro⟩ := hopen hc
    rw [hlist] at hq
    have hmem : q ∈ s₁.playerList.reduceOption := List.reduceOption_mem_iff.mpr hq
    rw [h.told, hplaces, h.introduced, hintro]
    refine ⟨Latest.latest_append_of_forall (List.mem_map.mpr ⟨q, hmem, rfl⟩) fun b hb hid => ?_,
      List.mem_append_right _ (List.mem_map.mpr ⟨q, hmem, rfl⟩)⟩
    obtain ⟨q', hq', rfl⟩ := List.mem_map.mp hb
    rw [eq_of_id ha.sound.distinct (List.reduceOption_mem_iff.mp hq') hq hid]

theorem Announced.pushed (ha : Announced s₂ client ply) (howner : ply.ownerClient = client)
    (hopen : s₂.isConnected client = true)
    (hown : ∀ q, some q ∈ s₂.playerList →
      s₂.told client q.id = some q.position ∧ (q.id, q.characterId) ∈ s₂.introduced client) :
    Informed (s₂.push ply) := by
  have hclient : ply.ownerClient < s₂.sockets.length := howner ▸ lt_of_isConnected hopen
  refine ⟨ha.sound.push ha.new ha.room hclient, fun c hc hne => ?_, fun c hc => ?_⟩
  · rw [listeners_push]
    by_cases hself : c = client
    · exact .inr ⟨hc, hself.trans howner.symm⟩
    · exact .inl (ha.joined c hc hself hne)
  · by_cases hself : c = client
    · subst hself
      constructor
      · intro q hq hqown _
        rcases mem_push.mp hq with hq | rfl
        · exact hown q hq
        · exact absurd howner hqown
      · intro r hr _
        obtain ⟨hne, hknown⟩ := ha.own hopen r hr
        refine hknown.imp (fun ⟨q, hq, h⟩ => ⟨q, mem_push.mpr (.inl hq), h⟩)
          fun ⟨hgone, hzero⟩ => ⟨?_, hzero⟩
        exact fun hlive => ((lives_push r.1).mp hlive).elim hgone fun hid => hne hid.symm
    · have hlist : c ∈ s₂.listeners :=
        ((listeners_push c).mp hc).resolve_right fun h => hself (h.2.trans howner)
      obtain ⟨hrest, htold, hintro, honly⟩ := ha.others c hlist hself
      refine hrest.push.complete (fun q hq _ hid => ?_) fun r hr hid => ?_
      · rcases mem_push.mp hq with hq | rfl
        · exact absurd ⟨q, hq, hid⟩ ha.new
        · exact ⟨htold, hintro⟩
      · exact .inl ⟨ply, mem_push.mpr (.inr rfl), hid.symm, (honly r hr hid).symm⟩

theorem Announced.left (ha : Announced s₂ client ply) (howner : ply.ownerClient = client)
    (hclient : client < s₂.sockets.length) (hclosed : s₂.isConnected client = false)
    (h : Talk Plain (s₂.push ply) ext t) (hnot : some ply ∉ t.playerList) : Informed t := by
  have hsound : Sound (s₂.push ply) := ha.sound.push ha.new ha.room (howner ▸ hclient)
  have hself : ∀ c, s₂.isConnected c = true → c ≠ client := by
    rintro c hc rfl
    exact Bool.false_ne_true (hclosed.symm.trans hc)
  have hplain : ∀ c : Client, ∀ msg, Plain (c, msg) → ∀ id ∈ (places msg).map Prod.fst,
      some id = some ply.id := by
    intro c msg hP id hid
    rw [show places msg = [] from hP] at hid
    exact absurd hid List.not_mem_nil
  have hjoined : Joined (s₂.push ply) := fun c hc hne =>
    (listeners_push c).mpr (.inl (ha.joined c hc (hself c hc) hne))
  refine ⟨hsound.talk h fun c msg hP r hr => ?_, hjoined.talk h fun c msg _ hP hne => ?_, fun c hc => ?_⟩
  · rw [introduces_of_places_nil hP] at hr
    exact absurd hr List.not_mem_nil
  · exact absurd (introduces_of_places_nil hP) hne
  · rw [h.listeners] at hc
    have hlist : c ∈ s₂.listeners := ((listeners_push c).mp hc).resolve_right fun h =>
      hself c h.1 (h.2.trans howner)
    have hrest := (ha.others c hlist (hself c (mem_listeners.mp hlist).1)).rest
    have hmem : some ply ∈ (s₂.push ply).playerList := mem_push.mpr (.inr rfl)
    have hgone := not_lives_of_dropped hsound.distinct h hmem hnot
    have htold : t.told c ply.id = some {} := by
      rw [h.told]
      refine Latest.latest_append_of_forall (heard_of_dropped h hc hmem hnot) ?_
      refine zero_of_heard (x := none) h (fun msg hP id hid => ?_) (Option.some_ne_none _)
      rw [show places msg = [] from hP] at hid
      exact absurd hid List.not_mem_nil
    refine (AgreesBut.talk hsound.distinct h (hplain c) hc hrest.push).complete ?_ ?_
    · exact fun q hq _ hid => absurd ⟨q, hq, hid⟩ hgone
    · rintro r - hid
      rw [hid]
      exact .inr ⟨hgone, htold⟩

end Announce

theorem Informed.sendPlayerData (hi : Informed s) (hroom : s.highestPlayerID.toNat + 1 < 2 ^ 32)
    (hclient : client < s.sockets.length) {msg : Packet}
    (h : s.sendPlayerData client msg = some t) : Informed t := by
  obtain ⟨characterId, recPosition, -, -, s₁, s₂, -, -, h₁, h₂, h₃⟩ := sendPlayerData_eq_some h
  obtain ⟨ply, hply⟩ : ∃ ply, ply = Player.new s.highestPlayerID recPosition 1000 characterId client :=
    ⟨_, rfl⟩
  have howner : ply.ownerClient = client := by rw [hply]; rfl
  obtain ⟨ext₁, htalk₁, hall⟩ := talk_messageOwners
    (P := fun e => e.2 = .createPlayer ply.id ply.position ply.characterId ∧ e.1 ≠ client ∧ s.Owns e.1)
    h₁ fun q hq hne => ⟨by rw [hply]; rfl, fun h => hne (congrArg some h), q, hq, rfl⟩
  have ha₁ : Announced s₁ client ply := by
    subst hply
    exact hi.announced rfl hroom htalk₁ fun c hc hne => hall c hc fun h => hne (Option.some_inj.mp h)
  obtain ⟨ext₂, htalk₂, hown⟩ := talk_mass h₂
  obtain ⟨ha₂, hall₂⟩ := ha₁.mass htalk₂ hown
  have hsock : s₂.sockets = s.sockets := htalk₂.sockets.trans htalk₁.sockets
  have hpush : (s₂.push ply).messageClient client (.setActorHealth 0 true 1000 1000) = some t := by
    rw [hply]
    exact h₃
  obtain ⟨ext₃, htalk₃, -⟩ := talk_messageClient (P := Plain) hpush (plain_setActorHealth ..)
  by_cases hopen : s₂.isConnected client = true
  · have hopen₁ : s₁.isConnected client = true := (htalk₂.isConnected client).symm.trans hopen
    exact (ha₂.pushed howner hopen (hall₂ hopen₁)).talk htalk₃
  · have hclosed := Bool.eq_false_iff.mpr hopen
    have hclosed' : (s₂.push ply).isConnected client = false := hclosed
    refine ha₂.left howner (hsock ▸ hclient) hclosed htalk₃ fun hmem => ?_
    rcases messageClient_of_closed hclosed' hpush with ⟨-, ext, rfl, -⟩ | ⟨hno, -⟩
    · have hstays := (mem_kept.mp hmem).2
      rw [stays, howner] at hstays
      exact hopen hstays
    · exact hno ⟨ply, mem_push.mpr (.inr rfl), howner⟩

end WitcherMP.Core.Witcher3MPServer
