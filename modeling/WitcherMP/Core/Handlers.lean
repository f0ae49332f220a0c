import WitcherMP.Core.Talk

/-! What each handler does, once for all that is proved of them: how it changes the lists, and to
whom it talks of what. -/

namespace WitcherMP.Core.Witcher3MPServer
open Combat (Vector4F)
open scoped WitcherMP.Networking
variable {s t : Witcher3MPServer} {client : Client} {msg : Packet}

section Search
variable {p : Player → Bool} {l : List (Option Player)}

theorem search_eq_some {i : ℕ} {ply : Player} (h : search p l = some (some (i, ply))) :
    l.getD i none = some ply ∧ p ply = true ∧
      ∀ j < i, ∃ q, l.getD j none = some q ∧ p q = false := by
  induction l generalizing i with
  | nil => cases h
  | cons e l ih =>
    cases e with
    | none => cases h
    | some q =>
      rw [search] at h
      split_ifs at h with hq
      · cases h
        exact ⟨rfl, hq, fun j hj => absurd hj (Nat.not_lt_zero j)⟩
      · obtain ⟨o, ho, hmap⟩ := Option.map_eq_some_iff.mp h
        obtain ⟨⟨k, ply'⟩, rfl, hr⟩ := Option.map_eq_some_iff.mp hmap
        cases hr
        obtain ⟨hget, hp, hbefore⟩ := ih ho
        refine ⟨hget, hp, fun j hj => ?_⟩
        cases j with
        | zero => exact ⟨q, rfl, Bool.eq_false_iff.mpr hq⟩
        | succ j => exact hbefore j (Nat.lt_of_succ_lt_succ hj)

theorem search_eq_some_none (h : search p l = some none) : ∀ e ∈ l, ∃ q, e = some q ∧ p q = false := by
  induction l with
  | nil => exact fun e he => absurd he List.not_mem_nil
  | cons e l ih =>
    cases e with
    | none => cases h
    | some q =>
      rw [search] at h
      split_ifs at h with hq
      · cases h
      · obtain ⟨o, ho, hmap⟩ := Option.map_eq_some_iff.mp h
        rw [Option.map_eq_none_iff] at hmap
        subst hmap
        exact List.forall_mem_cons.mpr ⟨⟨q, rfl, Bool.eq_false_iff.mpr hq⟩, ih ho⟩

theorem search_eq_none_iff :
    search p l = none ↔
      ∃ i < l.length, l.getD i none = none ∧ ∀ j < i, ∃ q, l.getD j none = some q ∧ p q = false := by
  induction l with
  | nil => exact ⟨fun h => (Option.some_ne_none _ h).elim, fun ⟨i, hi, _⟩ => absurd hi (Nat.not_lt_zero i)⟩
  | cons e l ih =>
    cases e with
    | none =>
      exact ⟨fun _ => ⟨0, Nat.zero_lt_succ _, rfl, fun j hj => absurd hj (Nat.not_lt_zero j)⟩, fun _ => rfl⟩
    | some q =>
      rw [search]
      by_cases hq : p q = true
      · rw [if_pos hq]
        refine ⟨fun h => (Option.some_ne_none _ h).elim, fun ⟨i, _, hi, hbefore⟩ => ?_⟩
        cases i with
        | zero => cases hi
        | succ i =>
          obtain ⟨q', hq', hp⟩ := hbefore 0 (Nat.zero_lt_succ i)
          cases hq'
          exact absurd (hp.symm.trans hq) Bool.false_ne_true
      · rw [if_neg hq, Option.map_eq_none_iff, ih]
        constructor
        · rintro ⟨i, hi, hnone, hbefore⟩
          refine ⟨i + 1, Nat.succ_lt_succ hi, hnone, fun j hj => ?_⟩
          cases j with
          | zero => exact ⟨q, rfl, Bool.eq_false_iff.mpr hq⟩
          | succ j => exact hbefore j (Nat.lt_of_succ_lt_succ hj)
        · rintro ⟨i, hi, hnone, hbefore⟩
          cases i with
          | zero => cases hnone
          | succ i =>
            exact ⟨i, Nat.lt_of_succ_lt_succ hi, hnone, fun j hj => hbefore (j + 1) (Nat.succ_lt_succ hj)⟩

end Search

theorem sendPlayerData_eq_some (h : s.sendPlayerData client msg = some t) :
    ∃ characterId recPosition rest rest', ∃ s₁ s₂ : Witcher3MPServer,
      msg.take .byte = some (characterId, rest) ∧ rest.take vector = some (recPosition, rest') ∧
      ({ s with highestPlayerID := s.highestPlayerID + 1 } : Witcher3MPServer).messageOwners
          (.createPlayer s.highestPlayerID recPosition characterId) (some client) = some s₁ ∧
      ((s₁.playerList = [] ∧ s₂ = s₁) ∨
        ∃ mass, massCreate s₁.playerList (.empty Types.massCreatePlayer) = some mass ∧
          s₁.messageClient client mass = some s₂) ∧
      ({ s₂ with playerList := s₂.playerList ++
          [some (Player.new s.highestPlayerID recPosition 1000 characterId client)] } :
        Witcher3MPServer).messageClient client (.setActorHealth 0 true 1000 1000) = some t := by
  simp only [sendPlayerData, Option.bind_eq_bind, Option.bind_eq_some_iff] at h
  obtain ⟨⟨characterId, rest⟩, htake, ⟨recPosition, rest'⟩, htake', s₁, h₁, s₂, h₂, h₃⟩ := h
  refine ⟨characterId, recPosition, rest, rest', s₁, s₂, htake, htake', h₁, ?_, h₃⟩
  rw [messageMassCreate] at h₂
  split_ifs at h₂ with hlen
  · exact .inr (Option.bind_eq_some_iff.mp h₂)
  · cases h₂
    exact .inl ⟨List.length_eq_zero_iff.mp (not_not.mp hlen), rfl⟩

theorem massCreate_eq_some {l : List (Option Player)} {msg mass : Packet}
    (h : massCreate l msg = some mass) :
    l = l.reduceOption.map some ∧ mass.header.id = msg.header.id ∧
      mass.body = msg.body ++
        (l.reduceOption.map fun ply => (ply.id, ply.position, ply.characterId)).flatMap record.write := by
  induction l generalizing msg with
  | nil =>
    cases h
    exact ⟨rfl, rfl, (List.append_nil _).symm⟩
  | cons e l ih =>
    cases e with
    | none => cases h
    | some ply =>
      obtain ⟨hl, hid, hbody⟩ := ih h
      rw [List.reduceOption_cons_of_some]
      refine ⟨by rw [List.map_cons, ← hl], hid, ?_⟩
      rw [hbody, Packet.body_putRecord, List.map_cons, List.flatMap_cons, List.append_assoc]

theorem notifyPlayerPosChange_eq_some (h : s.notifyPlayerPosChange client msg = some t) :
    t = s ∨ ∃ i affected moveType newPos,
      search (ownedBy client) s.playerList = some (some (i, affected)) ∧
      (s.setEntry i (some { affected with position := newPos })).messageAllClients
        (.updatePos affected.id newPos moveType) (some affected.ownerClient) = some t := by
  simp only [notifyPlayerPosChange, Option.bind_eq_bind, Option.bind_eq_some_iff] at h
  obtain ⟨o, ho, h⟩ := h
  cases o with
  | none =>
    cases h
    exact .inl rfl
  | some r =>
    obtain ⟨i, affected⟩ := r
    simp only [Option.bind_eq_some_iff] at h
    obtain ⟨⟨moveType, rest⟩, -, ⟨newPos, rest'⟩, -, h⟩ := h
    exact .inr ⟨i, affected, moveType, newPos, ho, h⟩

def hitMessage (id : UInt32) (npc : Npc) : Packet :=
  if npc.health > 50 then .setActorHealth id false (hitHealth npc.health) npc.maxHealth
  else .npcDead id

theorem hitNpc_eq_some (h : s.hitNpc msg = some t) :
    ∃ id rest, msg.take .word32 = some (id, rest) ∧
      ((s.npcList.findIdx? (·.id = id) = none ∧ t = s) ∨
        ∃ i npc, s.npcList.findIdx? (·.id = id) = some i ∧ s.npcList[i]? = some npc ∧
          (s.setNpc i { npc with health := hitHealth npc.health }).messageOwners (hitMessage id npc) none
            = some t) := by
  simp only [hitNpc, Option.bind_eq_bind, Option.bind_eq_some_iff] at h
  obtain ⟨⟨id, rest⟩, htake, h⟩ := h
  refine ⟨id, rest, htake, ?_⟩
  dsimp only at h
  cases hfind : s.npcList.findIdx? (·.id = id) with
  | none =>
    rw [hfind] at h
    cases h
    exact .inl ⟨rfl, rfl⟩
  | some i =>
    rw [hfind] at h
    obtain ⟨npc, hnpc, h⟩ := Option.bind_eq_some_iff.mp h
    refine .inr ⟨i, npc, rfl, hnpc, ?_⟩
    rw [hitMessage]
    split_ifs at h ⊢
    · exact h
    · exact h

def hitPlayer (ply : Player) : Player × Packet :=
  if ply.health > 100 then
    ({ ply with health := ply.health - 100 }, .setActorHealth 0 true (ply.health - 100) ply.maxHealth)
  else ({ ply with health := ply.maxHealth }, .playerDead)

theorem gotHit_eq_some (h : s.gotHit client = some t) :
    (t = s ∧ search (ownedBy client) s.playerList = some none) ∨
      ∃ i ply, search (ownedBy client) s.playerList = some (some (i, ply)) ∧
        (s.setEntry i (some (hitPlayer ply).1)).messageClient client (hitPlayer ply).2 = some t := by
  simp only [gotHit, Option.bind_eq_bind, Option.bind_eq_some_iff] at h
  obtain ⟨o, ho, h⟩ := h
  cases o with
  | none =>
    cases h
    exact .inl ⟨rfl, ho⟩
  | some r =>
    obtain ⟨i, ply⟩ := r
    refine .inr ⟨i, ply, ho, ?_⟩
    rw [hitPlayer]
    dsimp only at h
    split_ifs at h ⊢
    · exact h
    · exact h

theorem chat_eq_some (h : s.chat client msg = some t) :
    t = s ∨ ∃ i ply s₁, search (ownedBy client) s.playerList = some (some (i, ply)) ∧
      (popChars 100 msg).reverse ≠ [] ∧
      s.messageOwners (.chatMessage ply.id (popChars 100 msg).reverse) (some client) = some s₁ ∧
      s₁.messageClient client (.chatMessage 0 (popChars 100 msg).reverse) = some t := by
  simp only [chat, Option.bind_eq_bind, Option.bind_eq_some_iff] at h
  obtain ⟨o, ho, h⟩ := h
  cases o with
  | none =>
    cases h
    exact .inl rfl
  | some r =>
    obtain ⟨i, ply⟩ := r
    dsimp only at h
    split_ifs at h with hlen
    · cases h
      exact .inl rfl
    · obtain ⟨s₁, h₁, h₂⟩ := Option.bind_eq_some_iff.mp h
      exact .inr ⟨i, ply, s₁, ho, fun hnil => hlen (hnil ▸ rfl), h₁, h₂⟩

theorem spawn_eq_some {name toPlayer : List Char} (h : s.spawn name toPlayer = some t) :
    t = s ∨ ∃ i ply, some ply ∈ s.playerList ∧ null ply.position = false ∧
      s.playerList.getD i none = some ply ∧ findResID name ≠ 0 ∧
      ({ s with
        highestNpcID := s.highestNpcID + 1
        npcList := s.npcList ++ [Npc.new s.highestNpcID (findResID name) ply.position
          (newNpcHealth (findResID name))] } : Witcher3MPServer).messageAllClients
        (.createNpc s.highestNpcID (findResID name) ply.position (newNpcHealth (findResID name))) none
          = some t := by
  rw [spawn] at h
  dsimp only at h
  split_ifs at h with hres
  · cases h
    exact .inl rfl
  · simp only [Option.bind_eq_bind, Option.bind_eq_some_iff] at h
    obtain ⟨n, -, o, ho, h⟩ := h
    split_ifs at h with hnull
    · cases h
      exact .inl rfl
    · cases o with
      | none => exact absurd rfl hnull
      | some r =>
        obtain ⟨i, ply⟩ := r
        obtain ⟨hget, -, -⟩ := search_eq_some ho
        exact .inr ⟨i, ply, playerList_split hget ▸ List.mem_append_right _ List.mem_cons_self,
          Bool.eq_false_iff.mpr hnull, hget, hres, h⟩

theorem handleCommand_eq_some {command : List Char} (h : s.handleCommand command = some t) :
    t = s ∨ ∃ name toPlayer, s.spawn name toPlayer = some t := by
  rw [handleCommand] at h
  split at h
  · split_ifs at h
    · exact .inr ⟨_, _, h⟩
    · cases h
      exact .inl rfl
  · cases h
    exact .inl rfl

theorem handleCommands_eq (s : Witcher3MPServer) : s.handleCommands =
    if 256 ≤ s.commandQueue.length then none
    else (Loops.runs handleCommand s s.commandQueue).map fun t => { t with commandQueue := [] } := by
  rw [handleCommands, Loops.countLoop_eq, Loops.loop_getD]
  split <;> rfl

end WitcherMP.Core.Witcher3MPServer
