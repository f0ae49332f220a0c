import WitcherMP.Core.Drops

/-! What the server says while it handles a message. Whatever a handler sends, at most once it drops
the players whose owners are gone; everything else goes to clients that are there. -/

namespace WitcherMP.Core.Witcher3MPServer
variable {s t u : Witcher3MPServer} {P Q : Client × Packet → Prop}
  {ext ext' : List (Client × Packet)}

def Lists (s : Witcher3MPServer) (deqConnections : List (Option Client)) : Prop :=
  ∀ client, s.isConnected client = true → some client ∈ s.deqConnections →
    some client ∈ deqConnections

def Talk (P : Client × Packet → Prop) (s : Witcher3MPServer) (ext : List (Client × Packet))
    (t : Witcher3MPServer) : Prop :=
  ∃ deqConnections, s.Lists deqConnections ∧
    ((t = { s with deqConnections := deqConnections, sent := s.sent ++ ext } ∧
        ∀ e ∈ ext, s.isConnected e.1 = true ∧ P e) ∨
      (t = { s with playerList := s.kept, deqConnections := deqConnections, sent := s.sent ++ ext } ∧
        (∀ e ∈ ext, (s.isConnected e.1 = true ∧ P e) ∨ e ∈ notices s.gone s.listeners) ∧
        ∀ e ∈ notices s.gone s.listeners, e ∈ ext))

theorem lists_refl (s : Witcher3MPServer) : s.Lists s.deqConnections := fun _ _ h => h

theorem lists_filter (s : Witcher3MPServer) : s.Lists (s.deqConnections.filter (· ≠ none)) :=
  fun _ _ h => List.mem_filter.mpr ⟨h, by simp⟩

theorem gone_kept {deqConnections : List (Option Client)} {sent : List (Client × Packet)} :
    ({ s with playerList := s.kept, deqConnections := deqConnections, sent := sent } :
      Witcher3MPServer).gone = [] := by
  refine List.eq_nil_iff_forall_not_mem.mpr fun ply hply => ?_
  obtain ⟨hmem, hclosed⟩ := mem_goneIn.mp hply
  have hopen := (mem_kept.mp hmem).2
  rw [stays] at hopen hclosed
  exact Bool.false_ne_true (hclosed.symm.trans hopen)

theorem kept_kept {deqConnections : List (Option Client)} {sent : List (Client × Packet)} :
    ({ s with playerList := s.kept, deqConnections := deqConnections, sent := sent } :
      Witcher3MPServer).kept = s.kept := s.map_filter_kept

theorem Talk.refl (P : Client × Packet → Prop) (s : Witcher3MPServer) : Talk P s [] s :=
  ⟨s.deqConnections, s.lists_refl, .inl ⟨by rw [List.append_nil], fun _ h => absurd h List.not_mem_nil⟩⟩

theorem Talk.mono (h : Talk P s ext t) (hpq : ∀ e ∈ ext, P e → Q e) : Talk Q s ext t := by
  obtain ⟨deq, hdeq, ⟨ht, hext⟩ | ⟨ht, hext, hnot⟩⟩ := h
  · exact ⟨deq, hdeq, .inl ⟨ht, fun e he => ⟨(hext e he).1, hpq e he (hext e he).2⟩⟩⟩
  · exact ⟨deq, hdeq, .inr ⟨ht, fun e he => (hext e he).imp_left fun h => ⟨h.1, hpq e he h.2⟩, hnot⟩⟩

theorem Talk.trans (h : Talk P s ext t) (h' : Talk P t ext' u) : Talk P s (ext ++ ext') u := by
  obtain ⟨deq, hdeq, ⟨rfl, hext⟩ | ⟨rfl, hext, hnot⟩⟩ := h
  · obtain ⟨deq', hdeq', ⟨rfl, hext'⟩ | ⟨rfl, hext', hnot'⟩⟩ := h'
    · refine ⟨deq', fun c hc h => hdeq' c hc (hdeq c hc h), .inl ⟨?_, ?_⟩⟩
      · rw [List.append_assoc]
      · exact fun e he => (List.mem_append.mp he).elim (hext e) (hext' e)
    · refine ⟨deq', fun c hc h => hdeq' c hc (hdeq c hc h), .inr ⟨?_, ?_, ?_⟩⟩
      · rw [List.append_assoc]
        rfl
      · exact fun e he => (List.mem_append.mp he).elim (fun h => .inl (hext e h)) (hext' e)
      · exact fun e he => List.mem_append_right _ (hnot' e he)
  · obtain ⟨deq', hdeq', ⟨rfl, hext'⟩ | ⟨rfl, hext', -⟩⟩ := h'
    · refine ⟨deq', fun c hc h => hdeq' c hc (hdeq c hc h), .inr ⟨?_, ?_, ?_⟩⟩
      · rw [List.append_assoc]
      · exact fun e he => (List.mem_append.mp he).elim (hext e) fun h => .inl (hext' e h)
      · exact fun e he => List.mem_append_left _ (hnot e he)
    · rw [kept_kept, List.append_assoc]
      refine ⟨deq', fun c hc h => hdeq' c hc (hdeq c hc h), .inr ⟨rfl, ?_, ?_⟩⟩
      · intro e he
        rcases List.mem_append.mp he with he | he
        · exact hext e he
        · refine (hext' e he).imp_right fun h => ?_
          rw [gone_kept] at h
          exact absurd h List.not_mem_nil
      · exact fun e he => List.mem_append_left _ (hnot e he)

variable {client : Client} {msg : Packet}

theorem Drops.talk {deqConnections : List (Option Client)} (hdeq : s.Lists deqConnections)
    (h : Drops s t deqConnections) : ∃ ext, Talk P s ext t := by
  obtain ⟨ext, rfl, hperm⟩ := h
  exact ⟨ext, deqConnections, hdeq, .inr ⟨rfl, fun e he => .inr (hperm.mem_iff.mp he),
    fun e he => hperm.mem_iff.mpr he⟩⟩

theorem talk_send (hopen : s.isConnected client = true) (hp : P (client, msg)) :
    Talk P s [(client, msg)] (s.send client msg) := by
  refine ⟨s.deqConnections, s.lists_refl, .inl ⟨rfl, fun e he => ?_⟩⟩
  rw [List.mem_singleton.mp he]
  exact ⟨hopen, hp⟩

theorem talk_messageClient (h : s.messageClient client msg = some t) (hp : P (client, msg)) :
    ∃ ext, Talk P s ext t ∧ (s.isConnected client = true → ext = [(client, msg)]) := by
  by_cases hopen : s.isConnected client = true
  · rw [messageClient_of_open hopen] at h
    cases h
    exact ⟨[(client, msg)], talk_send hopen hp, fun _ => rfl⟩
  · rcases messageClient_of_closed (Bool.eq_false_iff.mpr hopen) h with ⟨-, hdrop⟩ | ⟨-, rfl⟩
    · obtain ⟨ext, htalk⟩ := hdrop.talk s.lists_filter
      exact ⟨ext, htalk, fun h => absurd h hopen⟩
    · refine ⟨[], ⟨_, s.lists_filter, .inl ⟨?_, fun _ h => absurd h List.not_mem_nil⟩⟩,
        fun h => absurd h hopen⟩
      rw [List.append_nil]
      rfl

theorem Talk.sockets (h : Talk P s ext t) : t.sockets = s.sockets := by
  obtain ⟨deq, -, ⟨rfl, -⟩ | ⟨rfl, -, -⟩⟩ := h <;> rfl

theorem Talk.npcs (h : Talk P s ext t) :
    t.npcList = s.npcList ∧ t.highestNpcID = s.highestNpcID ∧ t.commandQueue = s.commandQueue := by
  obtain ⟨deq, -, ⟨rfl, -⟩ | ⟨rfl, -, -⟩⟩ := h <;> exact ⟨rfl, rfl, rfl⟩

theorem Talk.isConnected (h : Talk P s ext t) (client : Client) :
    t.isConnected client = s.isConnected client := by
  rw [Witcher3MPServer.isConnected, h.sockets]
  rfl

theorem Talk.getD_of_some (h : Talk P s ext t) {i : ℕ} {ply : Player}
    (hply : t.playerList.getD i none = some ply) : s.playerList.getD i none = some ply := by
  obtain ⟨deq, -, ⟨rfl, -⟩ | ⟨rfl, -, -⟩⟩ := h
  · exact hply
  · exact (Option.filter_eq_some_iff.mp ((getD_kept i).symm.trans hply)).1

variable {skip : Option Client}

theorem talk_messageOwners (h : s.messageOwners msg skip = some t)
    (hp : ∀ ply, some ply ∈ s.playerList → some ply.ownerClient ≠ skip → P (ply.ownerClient, msg)) :
    ∃ ext, Talk P s ext t ∧
      ∀ client ∈ s.listeners, some client ≠ skip → (client, msg) ∈ ext := by
  let Round (k : ℕ) (t : Witcher3MPServer) : Prop := ∃ ext, Talk P s ext t ∧
    ∀ i < k, ∀ ply, s.playerList.getD i none = some ply → s.stays ply = true →
      some ply.ownerClient ≠ skip → (ply.ownerClient, msg) ∈ ext
  have hround : ∀ k t t', 0 ≤ k → k < 0 + s.playerList.length → Round k t →
      messageOwner msg skip t (t.playerList.getD k none) = some t' → Round (k + 1) t' := by
    rintro k t t' - - ⟨ext, htalk, hall⟩ hstep
    cases hply : t.playerList.getD k none with
    | none =>
      rw [hply] at hstep
      cases hstep
    | some ply =>
      rw [hply, messageOwner] at hstep
      have hs := htalk.getD_of_some hply
      have hmem : some ply ∈ s.playerList :=
        playerList_split hs ▸ List.mem_append_right _ List.mem_cons_self
      split_ifs at hstep with hskip
      · cases hstep
        refine ⟨ext, htalk, fun i hi ply' hply' hopen hne => ?_⟩
        rcases Nat.lt_succ_iff_lt_or_eq.mp hi with hi | rfl
        · exact hall i hi ply' hply' hopen hne
        · rw [hs] at hply'
          cases hply'
          exact absurd hskip hne
      · obtain ⟨ext', htalk', hsent⟩ := talk_messageClient hstep (hp ply hmem hskip)
        refine ⟨ext ++ ext', htalk.trans htalk', fun i hi ply' hply' hopen hne => ?_⟩
        rcases Nat.lt_succ_iff_lt_or_eq.mp hi with hi | rfl
        · exact List.mem_append_left _ (hall i hi ply' hply' hopen hne)
        · rw [hs] at hply'
          cases hply'
          rw [hsent ((htalk.isConnected _).trans hopen)]
          exact List.mem_append_right _ List.mem_cons_self
  have hstart : Round 0 s := ⟨[], Talk.refl P s, fun i hi => absurd hi (Nat.not_lt_zero i)⟩
  obtain ⟨ext, htalk, hall⟩ := Loops.of_loop hround hstart h
  rw [Nat.zero_add] at hall
  refine ⟨ext, htalk, fun client hclient hne => ?_⟩
  obtain ⟨hopen, ply, hmem, rfl⟩ := mem_listeners.mp hclient
  obtain ⟨i, hi, hget⟩ := List.mem_iff_getElem.mp hmem
  exact hall i hi ply (by rw [List.getD_eq_getElem _ _ hi, hget]) hopen hne

section All
variable {ignore : Option Client}

theorem Talk.eraseNull (h : Talk P s ext t) : Talk P s ext t.eraseNull := by
  obtain ⟨deq, hdeq, ht⟩ := h
  refine ⟨deq.filter (· ≠ none), fun c hc hmem => List.mem_filter.mpr ⟨hdeq c hc hmem, by simp⟩, ?_⟩
  rcases ht with ⟨rfl, hext⟩ | ⟨rfl, hext, hnot⟩
  · exact .inl ⟨rfl, hext⟩
  · exact .inr ⟨rfl, hext, hnot⟩

theorem lists_set {k : ℕ} (hk : s.deqConnections.getD k none = some client)
    (hclosed : s.isConnected client = false) : s.Lists (s.deqConnections.set k none) := by
  intro c hc hmem
  obtain ⟨i, hi, hget⟩ := List.mem_iff_getElem.mp hmem
  have hne : k ≠ i := by
    rintro rfl
    rw [List.getD_eq_getElem _ _ hi, hget] at hk
    cases hk
    exact Bool.false_ne_true (hclosed.symm.trans hc)
  refine List.mem_iff_getElem.mpr ⟨i, by rwa [List.length_set], ?_⟩
  rw [List.getElem_set_of_ne hne, hget]

theorem talk_visitClient {k : ℕ} (h : visitClient msg ignore k s = some t)
    (hp : ∀ c, s.isConnected c = true → some c ≠ ignore → P (c, msg)) :
    ∃ ext, Talk P s ext t ∧
      (∀ i, i ≠ k → t.deqConnections.getD i none = s.deqConnections.getD i none) ∧
      ∀ c, s.deqConnections.getD k none = some c → s.isConnected c = true → some c ≠ ignore →
        (c, msg) ∈ ext := by
  rw [visitClient] at h
  cases hk : s.deqConnections.getD k none with
  | none =>
    rw [hk] at h
    cases h
  | some client =>
    rw [hk] at h
    dsimp only at h
    by_cases hopen : s.isConnected client = true
    · rw [if_pos hopen] at h
      cases h
      by_cases hne : some client ≠ ignore
      · rw [if_pos hne]
        refine ⟨[(client, msg)], talk_send hopen (hp client hopen hne), fun _ _ => rfl, fun c hc _ _ => ?_⟩
        cases hc
        exact List.mem_cons_self
      · rw [if_neg hne]
        refine ⟨[], Talk.refl P s, fun _ _ => rfl, fun c hc _ hne' => ?_⟩
        cases hc
        exact absurd hne' hne
    · have hclosed := Bool.eq_false_iff.mpr hopen
      rw [if_neg hopen, Option.bind_eq_some_iff] at h
      obtain ⟨u, hu, h⟩ := h
      split_ifs at h with hlen
      cases h
      have hset : ∀ i, i ≠ k →
          (s.deqConnections.set k none).getD i none = s.deqConnections.getD i none := by
        intro i hi
        rw [List.getD_eq_getElem?_getD, List.getElem?_set_ne (Ne.symm hi), List.getD_eq_getElem?_getD]
      have hno : ∀ c, some client = some c → s.isConnected c = true → some c ≠ ignore →
          ∀ ext : List (Client × Packet), (c, msg) ∈ ext := by
        intro c hc hc'
        cases hc
        exact absurd hc' hopen
      rcases onClientDisconnect_cases hclosed hu with ⟨-, ext, rfl, hperm⟩ | ⟨-, rfl⟩
      · have hdeq : (s.dropWith ext).deqConnections = s.deqConnections := by
          rw [dropWith] at hlen ⊢
          dsimp only at hlen ⊢
          split_ifs at hlen ⊢ with hone
          · rfl
          · exact List.filter_eq_self.mpr (List.length_filter_eq_length_iff.mp hlen)
        rw [hdeq]
        refine ⟨ext, ⟨_, lists_set hk hclosed, .inr ⟨rfl, fun e he => .inr (hperm.mem_iff.mp he),
          fun e he => hperm.mem_iff.mpr he⟩⟩, hset, fun c hc hc' hne => hno c hc hc' hne ext⟩
      · refine ⟨[], ⟨_, lists_set hk hclosed, .inl ⟨?_, fun _ h => absurd h List.not_mem_nil⟩⟩, hset,
          fun c hc hc' hne => hno c hc hc' hne []⟩
        rw [List.append_nil]

theorem talk_messageAllClients (h : s.messageAllClients msg ignore = some t)
    (hp : ∀ c, s.isConnected c = true → some c ≠ ignore → P (c, msg)) :
    ∃ ext, Talk P s ext t ∧ ∀ c, s.isConnected c = true → some c ∈ s.deqConnections →
      some c ≠ ignore → (c, msg) ∈ ext := by
  let Round (k : ℕ) (t : Witcher3MPServer) : Prop := ∃ ext, Talk P s ext t ∧
    (∀ i, k ≤ i → t.deqConnections.getD i none = s.deqConnections.getD i none) ∧
    ∀ i < k, ∀ c, s.deqConnections.getD i none = some c → s.isConnected c = true →
      some c ≠ ignore → (c, msg) ∈ ext
  have hround : ∀ k t t', 0 ≤ k → k < 0 + s.deqConnections.length → Round k t →
      visitClient msg ignore k t = some t' → Round (k + 1) t' := by
    rintro k t t' - - ⟨ext, htalk, hrest, hall⟩ hstep
    obtain ⟨ext', htalk', hsame, hsent⟩ := talk_visitClient (P := P) hstep
      fun c hc => hp c ((htalk.isConnected c).symm.trans hc)
    refine ⟨ext ++ ext', htalk.trans htalk', fun i hi => ?_, fun i hi c hc hopen hne => ?_⟩
    · rw [hsame i (Nat.ne_of_gt hi), hrest i (Nat.le_of_succ_le hi)]
    · rcases Nat.lt_succ_iff_lt_or_eq.mp hi with hi | rfl
      · exact List.mem_append_left _ (hall i hi c hc hopen hne)
      · have hentry := (hrest i (Nat.le_refl i)).trans hc
        exact List.mem_append_right _ (hsent c hentry ((htalk.isConnected c).trans hopen) hne)
  have hstart : Round 0 s :=
    ⟨[], Talk.refl P s, fun _ _ => rfl, fun i hi => absurd hi (Nat.not_lt_zero i)⟩
  obtain ⟨u, hu, rfl⟩ := Option.map_eq_some_iff.mp h
  obtain ⟨ext, htalk, -, hall⟩ := Loops.of_loop hround hstart hu
  rw [Nat.zero_add] at hall
  refine ⟨ext, htalk.eraseNull, fun c hc hmem hne => ?_⟩
  obtain ⟨i, hi, hget⟩ := List.mem_iff_getElem.mp hmem
  exact hall i hi c (by rw [List.getD_eq_getElem _ _ hi, hget]) hc hne

end All
end WitcherMP.Core.Witcher3MPServer
