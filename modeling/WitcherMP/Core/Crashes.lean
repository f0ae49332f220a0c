import WitcherMP.Core.Handlers

/-! When the server goes down. Entries are emptied while a message is sent to the owners of all
players, but the loops that send do not expect empty entries: they read through a null pointer. -/

namespace WitcherMP.Core.Witcher3MPServer
open Combat (Vector4F)
open Loops (loop)
open scoped WitcherMP.Networking
variable {s t : Witcher3MPServer} {client : Client} {msg : Packet} {skip : Option Client} {k n : ℕ}

def AllStay (s : Witcher3MPServer) (k : ℕ) : Prop :=
  ∀ j, k ≤ j → j < s.playerList.length → ∃ q, s.playerList.getD j none = some q ∧ s.stays q = true

/-- From an entry on, a message can be sent to all owners: there is no empty entry, and an owner that
is found gone is the last that is. -/
def Reaches (s : Witcher3MPServer) (skip : Option Client) (k : ℕ) : Prop :=
  ∀ j, k ≤ j → j < s.playerList.length → ∃ q, s.playerList.getD j none = some q ∧
    (s.stays q = false → some q.ownerClient ≠ skip →
      s.playerList.length < 256 ∧ s.AllStay (j + 1))

theorem allStay_iff (hk : k < s.playerList.length) :
    s.AllStay k ↔ (∃ q, s.playerList.getD k none = some q ∧ s.stays q = true) ∧ s.AllStay (k + 1) := by
  constructor
  · exact fun h => ⟨h k (Nat.le_refl k) hk, fun j hj => h j (Nat.le_of_succ_le hj)⟩
  · rintro ⟨hfirst, hrest⟩ j hj hlt
    rcases Nat.eq_or_lt_of_le hj with rfl | hj
    · exact hfirst
    · exact hrest j hj hlt

theorem reaches_iff (hk : k < s.playerList.length) :
    s.Reaches skip k ↔ (∃ q, s.playerList.getD k none = some q ∧
      (s.stays q = false → some q.ownerClient ≠ skip →
        s.playerList.length < 256 ∧ s.AllStay (k + 1))) ∧ s.Reaches skip (k + 1) := by
  constructor
  · exact fun h => ⟨h k (Nat.le_refl k) hk, fun j hj => h j (Nat.le_of_succ_le hj)⟩
  · rintro ⟨hfirst, hrest⟩ j hj hlt
    rcases Nat.eq_or_lt_of_le hj with rfl | hj
    · exact hfirst
    · exact hrest j hj hlt

theorem AllStay.reaches (h : s.AllStay k) : s.Reaches skip k := by
  intro j hj hlt
  obtain ⟨q, hq, hopen⟩ := h j hj hlt
  exact ⟨q, hq, fun hclosed => absurd (hclosed.symm.trans hopen) Bool.false_ne_true⟩

theorem isSome_loop_of_kept (hn : k + n = s.playerList.length) (ht : t.playerList = s.kept)
    (hsock : t.sockets = s.sockets) :
    (loop (fun i t => messageOwner msg skip t (t.playerList.getD i none)) k n t).isSome ↔
      s.AllStay k := by
  induction n generalizing k t with
  | zero =>
    refine ⟨fun _ j hj hlt => ?_, fun _ => rfl⟩
    omega
  | succ n ih =>
    have hk : k < s.playerList.length := by omega
    have hentry : t.playerList.getD k none = (s.playerList.getD k none).filter s.stays := by
      rw [ht, getD_kept]
    rw [loop, allStay_iff hk, hentry]
    cases hq : s.playerList.getD k none with
    | none =>
      refine ⟨fun h => Bool.noConfusion (h : false = true), ?_⟩
      rintro ⟨⟨q, hq', -⟩, -⟩
      cases hq'
    | some q =>
      by_cases hopen : s.stays q = true
      · have hconn : t.isConnected q.ownerClient = true := by
          rw [isConnected, hsock]
          exact hopen
        have hrest : ∀ u : Witcher3MPServer, u.playerList = s.kept → u.sockets = s.sockets →
            ((loop (fun i t => messageOwner msg skip t (t.playerList.getD i none)) (k + 1) n u).isSome ↔
              s.AllStay (k + 1)) := fun u hu hus => ih (by omega) hu hus
        rw [Option.filter_some, if_pos hopen, messageOwner]
        have hfirst : ∃ q', some q = some q' ∧ s.stays q' = true := ⟨q, rfl, hopen⟩
        rw [and_iff_right hfirst]
        split_ifs
        · exact hrest t ht hsock
        · rw [messageClient_of_open hconn]
          exact hrest _ ht hsock
      · rw [Option.filter_some, if_neg hopen]
        refine ⟨fun h => Bool.noConfusion (h : false = true), ?_⟩
        rintro ⟨⟨q', hq', hopen'⟩, -⟩
        cases hq'
        exact absurd hopen' hopen

theorem isSome_loop (hn : k + n = s.playerList.length) (ht : t.playerList = s.playerList)
    (hsock : t.sockets = s.sockets) :
    (loop (fun i t => messageOwner msg skip t (t.playerList.getD i none)) k n t).isSome ↔
      s.Reaches skip k := by
  induction n generalizing k t with
  | zero =>
    refine ⟨fun _ j hj hlt => ?_, fun _ => rfl⟩
    omega
  | succ n ih =>
    have hk : k < s.playerList.length := by omega
    have hrest : ∀ u : Witcher3MPServer, u.playerList = s.playerList → u.sockets = s.sockets →
        ((loop (fun i t => messageOwner msg skip t (t.playerList.getD i none)) (k + 1) n u).isSome ↔
          s.Reaches skip (k + 1)) := fun u hu hus => ih (by omega) hu hus
    have hconn : ∀ c, t.isConnected c = s.isConnected c := fun c => by
      rw [isConnected, hsock]
      rfl
    rw [loop, reaches_iff hk, ht]
    cases hq : s.playerList.getD k none with
    | none =>
      refine ⟨fun h => Bool.noConfusion (h : false = true), ?_⟩
      rintro ⟨⟨q, hq', -⟩, -⟩
      cases hq'
    | some q =>
      rw [messageOwner]
      by_cases hskip : some q.ownerClient = skip
      · have hfirst : ∃ q', some q = some q' ∧ (s.stays q' = false → some q'.ownerClient ≠ skip →
            s.playerList.length < 256 ∧ s.AllStay (k + 1)) := by
          refine ⟨q, rfl, fun _ hne => absurd hskip hne⟩
        rw [if_pos hskip, Option.bind_some, and_iff_right hfirst]
        exact hrest t ht hsock
      · rw [if_neg hskip]
        by_cases hopen : s.stays q = true
        · rw [messageClient_of_open ((hconn _).trans hopen)]
          have hfirst : ∃ q', some q = some q' ∧ (s.stays q' = false → some q'.ownerClient ≠ skip →
              s.playerList.length < 256 ∧ s.AllStay (k + 1)) := by
            refine ⟨q, rfl, fun hclosed => ?_⟩
            exact absurd (hclosed.symm.trans hopen) Bool.false_ne_true
          rw [and_iff_right hfirst]
          exact hrest _ ht hsock
        · have hclosed := Bool.eq_false_iff.mpr hopen
          have hclosed' : t.isConnected q.ownerClient = false := (hconn _).trans hclosed
          have hcond : (∃ q', some q = some q' ∧ (s.stays q' = false → some q'.ownerClient ≠ skip →
              s.playerList.length < 256 ∧ s.AllStay (k + 1))) ↔
                s.playerList.length < 256 ∧ s.AllStay (k + 1) := by
            constructor
            · rintro ⟨q', hq', h⟩
              cases hq'
              exact h hclosed hskip
            · exact fun h => ⟨q, rfl, fun _ _ => h⟩
          rw [hcond]
          cases hmsg : t.messageClient q.ownerClient msg with
          | none =>
            have hlen := (messageClient_eq_none_iff.mp hmsg).2
            rw [ht] at hlen
            refine ⟨fun h => Bool.noConfusion (h : false = true), fun h => ?_⟩
            exact absurd hlen (not_le.mpr h.1.1)
          | some u =>
            have hlen : s.playerList.length < 256 := by
              by_contra hle
              have hnone : t.messageClient q.ownerClient msg = none :=
                messageClient_eq_none_iff.mpr ⟨hclosed', by rw [ht]; exact not_lt.mp hle⟩
              rw [hnone] at hmsg
              cases hmsg
            have hown : t.Owns q.ownerClient := by
              refine ⟨q, ?_, rfl⟩
              rw [ht, playerList_split hq]
              exact List.mem_append_right _ List.mem_cons_self
            obtain ⟨-, ext, rfl, -⟩ | ⟨hno, -⟩ := messageClient_of_closed hclosed' hmsg
            · have hkept : t.kept = s.kept := by
                have hstays : t.stays = s.stays := funext fun ply => hconn ply.ownerClient
                rw [kept, kept, ht, hstays]
              rw [Option.bind_some]
              refine Iff.trans (isSome_loop_of_kept (by omega) ?_ ?_)
                ⟨fun h => ⟨⟨hlen, h⟩, h.reaches⟩, fun h => h.1.2⟩
              · exact hkept
              · exact hsock
            · exact absurd hown hno

theorem messageOwners_isSome_iff : (s.messageOwners msg skip).isSome ↔ s.Reaches skip 0 :=
  isSome_loop (Nat.zero_add _) rfl rfl

def Misses (s : Witcher3MPServer) (skip : Option Client) (k : ℕ) : Prop :=
  ∃ i < k, ∃ q, s.playerList.getD i none = some q ∧ s.stays q = false ∧ some q.ownerClient ≠ skip

theorem misses_succ :
    s.Misses skip (k + 1) ↔ s.Misses skip k ∨
      ∃ q, s.playerList.getD k none = some q ∧ s.stays q = false ∧ some q.ownerClient ≠ skip := by
  constructor
  · rintro ⟨i, hi, h⟩
    rcases Nat.lt_succ_iff_lt_or_eq.mp hi with hi | rfl
    · exact .inl ⟨i, hi, h⟩
    · exact .inr h
  · rintro (⟨i, hi, h⟩ | h)
    · exact ⟨i, hi.trans (Nat.lt_succ_self k), h⟩
    · exact ⟨k, Nat.lt_succ_self k, h⟩

theorem playerList_messageOwners (h : s.messageOwners msg skip = some t) :
    (s.Misses skip s.playerList.length → t.playerList = s.kept) ∧
      (¬ s.Misses skip s.playerList.length → t.playerList = s.playerList) := by
  let Round (k : ℕ) (t : Witcher3MPServer) : Prop := t.sockets = s.sockets ∧
    ((s.Misses skip k ∧ t.playerList = s.kept) ∨ (¬ s.Misses skip k ∧ t.playerList = s.playerList))
  have hround : ∀ k t t', 0 ≤ k → k < 0 + s.playerList.length → Round k t →
      messageOwner msg skip t (t.playerList.getD k none) = some t' → Round (k + 1) t' := by
    rintro k t t' - - ⟨hsock, hlist⟩ hstep
    have hconn : t.isConnected = s.isConnected := funext fun c => by
      rw [isConnected, hsock]
      rfl
    have hstays : t.stays = s.stays := funext fun q => congrFun hconn q.ownerClient
    have hkept : t.kept = s.kept := by
      rcases hlist with ⟨-, hlist⟩ | ⟨-, hlist⟩
      · rw [kept, hstays, hlist]
        exact s.map_filter_kept
      · rw [kept, hstays, hlist]
        rfl
    cases hq : t.playerList.getD k none with
    | none =>
      rw [hq] at hstep
      cases hstep
    | some q =>
      rw [hq, messageOwner] at hstep
      have hs : s.playerList.getD k none = some q := by
        rcases hlist with ⟨-, hlist⟩ | ⟨-, hlist⟩
        · rw [hlist, getD_kept] at hq
          exact (Option.filter_eq_some_iff.mp hq).1
        · rwa [hlist] at hq
      have hone : (∃ q', s.playerList.getD k none = some q' ∧ s.stays q' = false ∧
          some q'.ownerClient ≠ skip) ↔ s.stays q = false ∧ some q.ownerClient ≠ skip := by
        rw [hs]
        constructor
        · rintro ⟨q', hq', h⟩
          cases hq'
          exact h
        · exact fun h => ⟨q, rfl, h⟩
      by_cases hskip : some q.ownerClient = skip
      · rw [if_pos hskip] at hstep
        cases hstep
        have hsame : s.Misses skip (k + 1) ↔ s.Misses skip k :=
          misses_succ.trans (or_iff_left fun h => (hone.mp h).2 hskip)
        rw [hsame.symm] at hlist
        exact ⟨hsock, hlist⟩
      · rw [if_neg hskip] at hstep
        by_cases hopen : s.stays q = true
        · rw [messageClient_of_open ((congrFun hconn _).trans hopen)] at hstep
          cases hstep
          have hsame : s.Misses skip (k + 1) ↔ s.Misses skip k :=
            misses_succ.trans (or_iff_left fun h => Bool.false_ne_true ((hone.mp h).1.symm.trans hopen))
          rw [hsame.symm] at hlist
          exact ⟨hsock, hlist⟩
        · have hclosed := Bool.eq_false_iff.mpr hopen
          have hown : t.Owns q.ownerClient := by
            refine ⟨q, ?_, rfl⟩
            rw [playerList_split hq]
            exact List.mem_append_right _ List.mem_cons_self
          obtain ⟨-, ext, rfl, -⟩ | ⟨hno, -⟩ :=
            messageClient_of_closed ((congrFun hconn _).trans hclosed) hstep
          · exact ⟨hsock, .inl ⟨misses_succ.mpr (.inr (hone.mpr ⟨hclosed, hskip⟩)), hkept⟩⟩
          · exact absurd hown hno
  have hnone : ¬ s.Misses skip 0 := by
    rintro ⟨i, hi, -⟩
    exact absurd hi (Nat.not_lt_zero i)
  have hstart : Round 0 s := ⟨rfl, .inr ⟨hnone, rfl⟩⟩
  obtain ⟨-, hlist⟩ := Loops.of_loop hround hstart h
  rw [Nat.zero_add] at hlist
  rcases hlist with ⟨hmiss, hlist⟩ | ⟨hmiss, hlist⟩
  · exact ⟨fun _ => hlist, fun h => absurd hmiss h⟩
  · exact ⟨fun h => absurd h hmiss, fun _ => hlist⟩

theorem length_messageOwners (h : s.messageOwners msg skip = some t) :
    t.playerList.length = s.playerList.length := by
  obtain ⟨hmiss, hno⟩ := playerList_messageOwners h
  by_cases h : s.Misses skip s.playerList.length
  · rw [hmiss h, kept, List.length_map]
  · rw [hno h]

theorem length_messageClient (h : s.messageClient client msg = some t) :
    t.playerList.length = s.playerList.length := by
  by_cases hopen : s.isConnected client = true
  · rw [messageClient_of_open hopen] at h
    cases h
    rfl
  · obtain ⟨-, ext, rfl, -⟩ | ⟨-, rfl⟩ := messageClient_of_closed (Bool.eq_false_iff.mpr hopen) h
    · exact List.length_map _
    · rfl

theorem messageClient_isSome_iff :
    (s.messageClient client msg).isSome ↔ s.isConnected client = true ∨ s.playerList.length < 256 := by
  rw [Option.isSome_iff_ne_none, ne_eq, messageClient_eq_none_iff, not_and_or, not_le,
    Bool.not_eq_false]

theorem take_isSome_iff {α : Type} (l : Layout α) :
    (msg.take l).isSome ↔ l.width ≤ msg.body.length := by
  rw [Packet.take, Networking.Message.size]
  split_ifs with h
  · exact ⟨fun _ => h, fun _ => rfl⟩
  · exact ⟨fun hsome => Bool.noConfusion (hsome : false = true), fun hle => absurd hle h⟩

theorem length_take {α : Type} {l : Layout α} {a : α} {rest : Packet}
    (h : msg.take l = some (a, rest)) : rest.body.length + l.width = msg.body.length := by
  rw [Packet.take, Networking.Message.size] at h
  split_ifs at h with hle
  cases h
  rw [List.length_take]
  omega

theorem massCreate_isSome_iff {l : List (Option Player)} {mass : Packet} :
    (massCreate l mass).isSome ↔ ∀ e ∈ l, e ≠ none := by
  induction l generalizing mass with
  | nil => exact ⟨fun _ e he => absurd he List.not_mem_nil, fun _ => rfl⟩
  | cons e l ih =>
    rw [List.forall_mem_cons]
    cases e with
    | none => exact ⟨fun h => Bool.noConfusion (h : false = true), fun h => absurd rfl h.1⟩
    | some ply => exact ih.trans (and_iff_right (Option.some_ne_none ply)).symm

theorem exists_getD_iff {P : Player → Prop} {l : List (Option Player)} :
    (∀ j < l.length, ∃ q, l.getD j none = some q ∧ P q) ↔ ∀ e ∈ l, ∃ q, e = some q ∧ P q := by
  constructor
  · intro h e he
    obtain ⟨j, hj, rfl⟩ := List.mem_iff_getElem.mp he
    obtain ⟨q, hq, hp⟩ := h j hj
    exact ⟨q, by rwa [List.getD_eq_getElem _ _ hj] at hq, hp⟩
  · intro h j hj
    obtain ⟨q, hq, hp⟩ := h l[j] (List.getElem_mem hj)
    exact ⟨q, by rwa [List.getD_eq_getElem _ _ hj], hp⟩

theorem staying_of_messageOwners (h : s.messageOwners msg skip = some t) (hfull : none ∉ t.playerList) :
    ∀ e ∈ s.playerList, ∃ q, e = some q ∧ (s.stays q = true ∨ some q.ownerClient = skip) := by
  have hreach := messageOwners_isSome_iff.mp (Option.isSome_iff_exists.mpr ⟨t, h⟩)
  refine exists_getD_iff.mp fun j hj => ?_
  obtain ⟨q, hq, -⟩ := hreach j (Nat.zero_le j) hj
  refine ⟨q, hq, ?_⟩
  by_contra hno
  rw [not_or, Bool.not_eq_true] at hno
  have hkept := (playerList_messageOwners h).1 ⟨j, hj, q, hq, hno⟩
  have hget : t.playerList.getD j none = none := by
    rw [hkept, getD_kept, hq, Option.filter_some, hno.1]
    rfl
  have hlt : j < t.playerList.length := length_messageOwners h ▸ hj
  rw [List.getD_eq_getElem _ _ hlt] at hget
  exact hfull (hget ▸ List.getElem_mem hlt)

theorem messageOwners_of_staying (msg : Packet)
    (h : ∀ e ∈ s.playerList, ∃ q, e = some q ∧ (s.stays q = true ∨ some q.ownerClient = skip)) :
    ∃ t, s.messageOwners msg skip = some t ∧ t.playerList = s.playerList ∧
      ∀ c, t.isConnected c = s.isConnected c := by
  have hstay := exists_getD_iff.mpr h
  have hnot {q : Player} (hor : s.stays q = true ∨ some q.ownerClient = skip)
      (hclosed : s.stays q = false) : some q.ownerClient = skip :=
    hor.resolve_left fun hopen => Bool.false_ne_true (hclosed.symm.trans hopen)
  have hmiss : ¬ s.Misses skip s.playerList.length := by
    rintro ⟨j, hj, q, hq, hclosed, hne⟩
    obtain ⟨q', hq', hor⟩ := hstay j hj
    cases Option.some_inj.mp (hq'.symm.trans hq)
    exact hne (hnot hor hclosed)
  have hreach : s.Reaches skip 0 := by
    intro j _ hj
    obtain ⟨q, hq, hor⟩ := hstay j hj
    exact ⟨q, hq, fun hclosed hne => absurd (hnot hor hclosed) hne⟩
  have hsome : (s.messageOwners msg skip).isSome := messageOwners_isSome_iff.mpr hreach
  obtain ⟨t, ht⟩ := Option.isSome_iff_exists.mp hsome
  obtain ⟨ext, htalk, -⟩ := talk_messageOwners (P := fun _ => True) ht fun _ _ _ => trivial
  exact ⟨t, ht, (playerList_messageOwners ht).2 hmiss, htalk.isConnected⟩

theorem messageMassCreate_of_full (hfull : none ∉ s.playerList)
    (hroom : s.isConnected client = true ∨ s.playerList.length < 256) :
    ∃ t, s.messageMassCreate client = some t ∧ t.playerList.length = s.playerList.length ∧
      t.isConnected client = s.isConnected client := by
  rw [messageMassCreate]
  split_ifs
  · have hall : (massCreate s.playerList (.empty Types.massCreatePlayer)).isSome :=
      massCreate_isSome_iff.mpr fun e he hnone => hfull (hnone ▸ he)
    obtain ⟨mass, hmass⟩ := Option.isSome_iff_exists.mp hall
    have hsend : (s.messageClient client mass).isSome := messageClient_isSome_iff.mpr hroom
    obtain ⟨t, ht⟩ := Option.isSome_iff_exists.mp hsend
    obtain ⟨ext, htalk, -⟩ := talk_messageClient (P := fun _ => True) ht trivial
    rw [hmass, Option.bind_some]
    exact ⟨t, ht, length_messageClient ht, htalk.isConnected client⟩
  · exact ⟨s, rfl, rfl, rfl⟩

theorem body_of_joining {a : UInt8} {v : Vector4F} {rest rest' : Packet}
    (h : msg.take .byte = some (a, rest)) (h' : rest.take vector = some (v, rest')) :
    17 ≤ msg.body.length := by
  have hone := length_take h
  have hmore := length_take h'
  have hw : Layout.byte.width = 1 ∧ vector.width = 16 := ⟨rfl, rfl⟩
  omega

theorem exists_take_of_body (h : 17 ≤ msg.body.length) :
    ∃ a rest v rest', msg.take .byte = some (a, rest) ∧
      rest.take vector = some (v, rest') := by
  have hw : Layout.byte.width = 1 ∧ vector.width = 16 := ⟨rfl, rfl⟩
  have hbyte : (msg.take .byte).isSome := (take_isSome_iff .byte).mpr (by omega)
  obtain ⟨⟨a, rest⟩, htake⟩ := Option.isSome_iff_exists.mp hbyte
  have hone := length_take htake
  have hvector : (rest.take vector).isSome := (take_isSome_iff vector).mpr (by omega)
  obtain ⟨⟨v, rest'⟩, htake'⟩ := Option.isSome_iff_exists.mp hvector
  exact ⟨a, rest, v, rest', htake, htake'⟩

/-- A player can join exactly when there is no empty entry and no other owner is gone. -/
theorem sendPlayerData_isSome_iff :
    (s.sendPlayerData client msg).isSome ↔ 17 ≤ msg.body.length ∧
      (∀ e ∈ s.playerList, ∃ q, e = some q ∧ (s.stays q = true ∨ q.ownerClient = client)) ∧
      (s.isConnected client = true ∨ s.playerList.length + 1 < 256) := by
  have hskip (q : Player) : some q.ownerClient = some client ↔ q.ownerClient = client :=
    Option.some_inj
  simp only [← hskip]
  constructor
  · intro h
    obtain ⟨t, h⟩ := Option.isSome_iff_exists.mp h
    obtain ⟨characterId, recPosition, rest, rest', s₁, s₂, htake, htake', h₁, h₂, h₃⟩ :=
      sendPlayerData_eq_some h
    obtain ⟨ext₁, htalk₁, -⟩ := talk_messageOwners (P := fun _ => True) h₁ fun _ _ _ => trivial
    have hfull : none ∉ s₁.playerList ∧ s₂.playerList.length = s₁.playerList.length ∧
        s₂.isConnected client = s₁.isConnected client := by
      rcases h₂ with ⟨hnil, rfl⟩ | ⟨mass, hmass, h₂⟩
      · exact ⟨hnil ▸ List.not_mem_nil, rfl, rfl⟩
      · have hall := massCreate_isSome_iff.mp (Option.isSome_iff_exists.mpr ⟨mass, hmass⟩)
        obtain ⟨ext₂, htalk₂, -⟩ := talk_messageClient (P := fun _ => True) h₂ trivial
        exact ⟨fun hnone => hall none hnone rfl, length_messageClient h₂, htalk₂.isConnected client⟩
    obtain ⟨hfull, hlen, hconn⟩ := hfull
    have hstay := staying_of_messageOwners h₁ hfull
    refine ⟨body_of_joining htake htake', hstay, ?_⟩
    have hlast := messageClient_isSome_iff.mp (Option.isSome_iff_exists.mpr ⟨t, h₃⟩)
    have hconn₂ : s₂.isConnected client = s.isConnected client :=
      hconn.trans (htalk₁.isConnected client)
    have hlen₁ := length_messageOwners h₁
    have hlen₂ : s₂.playerList.length = s.playerList.length := hlen.trans hlen₁
    rw [← hconn₂, ← hlen₂]
    refine hlast.imp_right fun h => ?_
    have hpush : (s₂.playerList ++ [some (Player.new s.highestPlayerID recPosition 1000 characterId
        client)]).length = s₂.playerList.length + 1 := List.length_append
    exact hpush ▸ h
  · rintro ⟨hbody, hall, hroom⟩
    obtain ⟨characterId, rest, recPosition, rest', htake, htake'⟩ := exists_take_of_body hbody
    let s₀ : Witcher3MPServer := { s with highestPlayerID := s.highestPlayerID + 1 }
    have hall₀ : ∀ e ∈ s₀.playerList, ∃ q, e = some q ∧
        (s₀.stays q = true ∨ some q.ownerClient = some client) := hall
    obtain ⟨s₁, h₁, hlist₁, hconn₁⟩ := messageOwners_of_staying
      (.createPlayer s.highestPlayerID recPosition characterId) hall₀
    have hfull₁ : none ∉ s₁.playerList := by
      intro hnone
      obtain ⟨q, hq, -⟩ := hall none (hlist₁ ▸ hnone)
      exact Option.some_ne_none q hq.symm
    have hlen₁ : s₁.playerList.length = s.playerList.length := congrArg List.length hlist₁
    have hroom₁ : s₁.isConnected client = true ∨ s₁.playerList.length < 256 := by
      rw [hconn₁ client, hlen₁]
      exact hroom.imp_right (Nat.lt_of_succ_lt ·)
    obtain ⟨s₂, h₂, hlen₂, hconn₂⟩ := messageMassCreate_of_full hfull₁ hroom₁
    have hlast : (({ s₂ with playerList := s₂.playerList ++
        [some (Player.new s.highestPlayerID recPosition 1000 characterId client)] } :
          Witcher3MPServer).messageClient client (.setActorHealth 0 true 1000 1000)).isSome := by
      refine messageClient_isSome_iff.mpr (hroom.imp (fun h => (hconn₂.trans (hconn₁ client)).trans h) fun h => ?_)
      rw [List.length_append, hlen₂, hlen₁]
      exact h
    rw [sendPlayerData]
    simp only [Option.bind_eq_bind]
    rw [htake, Option.bind_some]
    dsimp only
    rw [htake', Option.bind_some, h₁, Option.bind_some, h₂, Option.bind_some]
    exact hlast

/-- A hit on a creature goes through exactly when all owners can be told. -/
theorem hitNpc_isSome_iff :
    (s.hitNpc msg).isSome ↔ ∃ id rest, msg.take .word32 = some (id, rest) ∧
      ((∀ npc ∈ s.npcList, npc.id ≠ id) ∨ s.Reaches none 0) := by
  constructor
  · intro h
    obtain ⟨t, h⟩ := Option.isSome_iff_exists.mp h
    obtain ⟨id, rest, htake, ⟨hnone, -⟩ | ⟨i, npc, -, -, h⟩⟩ := hitNpc_eq_some h
    · refine ⟨id, rest, htake, .inl fun npc hnpc hid => ?_⟩
      have hfalse := List.findIdx?_eq_none_iff.mp hnone npc hnpc
      exact Bool.false_ne_true (hfalse.symm.trans (decide_eq_true hid))
    · have hreach := messageOwners_isSome_iff.mp (Option.isSome_iff_exists.mpr ⟨t, h⟩)
      exact ⟨id, rest, htake, .inr hreach⟩
  · rintro ⟨id, rest, htake, hor⟩
    rw [hitNpc]
    simp only [Option.bind_eq_bind, htake, Option.bind_some]
    cases hfind : s.npcList.findIdx? (·.id = id) with
    | none => rfl
    | some i =>
      obtain ⟨hi, hid, -⟩ := List.findIdx?_eq_some_iff_getElem.mp hfind
      have hreach : s.Reaches none 0 :=
        hor.resolve_left fun h => h _ (List.getElem_mem hi) (of_decide_eq_true hid)
      dsimp only
      rw [List.getElem?_eq_getElem hi, Option.bind_some]
      split_ifs
      · exact messageOwners_isSome_iff.mpr hreach
      · exact messageOwners_isSome_iff.mpr hreach

theorem popChars_eq_nil_iff {n : ℕ} : popChars (n + 1) msg = [] ↔ msg.body = [] := by
  rw [popChars, Networking.Message.size]
  by_cases hnil : msg.body = []
  · have hzero : ¬ msg.body.length ≠ 0 := by rw [hnil]; exact fun h => h rfl
    rw [if_neg hzero]
    refine iff_of_true ?_ hnil
    induction n with
    | zero => rfl
    | succ n ih => rwa [popChars, Networking.Message.size, if_neg hzero]
  · have hpos : msg.body.length ≠ 0 := fun h => hnil (List.length_eq_zero_iff.mp h)
    have hsome : (msg.take .byte).isSome :=
      (take_isSome_iff .byte).mpr (Nat.one_le_iff_ne_zero.mpr hpos)
    obtain ⟨⟨ch, rest⟩, htake⟩ := Option.isSome_iff_exists.mp hsome
    rw [if_pos hpos, htake]
    exact iff_of_false (List.cons_ne_nil _ _) hnil

/-- A chat message goes through exactly when no entry is empty in front of the speaker's, and, if there
is anything to say, everybody can be told. -/
theorem chat_isSome_iff :
    (s.chat client msg).isSome ↔ ∃ o, search (ownedBy client) s.playerList = some o ∧
      (o = none ∨ msg.body = [] ∨ (s.Reaches (some client) 0 ∧
        (s.isConnected client = true ∨ s.playerList.length < 256))) := by
  constructor
  · intro h
    obtain ⟨t, h⟩ := Option.isSome_iff_exists.mp h
    have hsearch : ∃ o, search (ownedBy client) s.playerList = some o := by
      rw [chat, Option.bind_eq_bind] at h
      obtain ⟨o, ho, -⟩ := Option.bind_eq_some_iff.mp h
      exact ⟨o, ho⟩
    obtain ⟨o, ho⟩ := hsearch
    refine ⟨o, ho, ?_⟩
    by_cases hnone : o = none
    · exact .inl hnone
    by_cases hbody : msg.body = []
    · exact .inr (.inl hbody)
    refine .inr (.inr ?_)
    obtain ⟨⟨i, ply⟩, rfl⟩ := Option.ne_none_iff_exists'.mp hnone
    have htext : (popChars 100 msg).reverse.length ≠ 0 := fun hlen =>
      hbody (popChars_eq_nil_iff.mp (List.reverse_eq_nil_iff.mp (List.length_eq_zero_iff.mp hlen)))
    rw [chat, ho] at h
    dsimp only [Option.bind_eq_bind, Option.bind_some] at h
    rw [if_neg htext] at h
    obtain ⟨s₁, h₁, h₂⟩ := Option.bind_eq_some_iff.mp h
    refine ⟨messageOwners_isSome_iff.mp (Option.isSome_iff_exists.mpr ⟨s₁, h₁⟩), ?_⟩
    have hlast := messageClient_isSome_iff.mp (Option.isSome_iff_exists.mpr ⟨t, h₂⟩)
    obtain ⟨ext, htalk, -⟩ := talk_messageOwners (P := fun _ => True) h₁ fun _ _ _ => trivial
    rwa [htalk.isConnected, length_messageOwners h₁] at hlast
  · rintro ⟨o, ho, hor⟩
    rw [chat, ho]
    dsimp only [Option.bind_eq_bind, Option.bind_some]
    cases o with
    | none => rfl
    | some r =>
      obtain ⟨i, ply⟩ := r
      dsimp only
      split_ifs with htext
      · rfl
      · have hbody : msg.body ≠ [] := fun hbody =>
          htext (by rw [List.length_reverse, popChars_eq_nil_iff.mpr hbody]; rfl)
        obtain ⟨hreach, hroom⟩ := (hor.resolve_left (Option.some_ne_none _)).resolve_left hbody
        have hsome : (s.messageOwners (.chatMessage ply.id (popChars 100 msg).reverse)
            (some client)).isSome := messageOwners_isSome_iff.mpr hreach
        obtain ⟨s₁, h₁⟩ := Option.isSome_iff_exists.mp hsome
        obtain ⟨ext, htalk, -⟩ := talk_messageOwners (P := fun _ => True) h₁ fun _ _ _ => trivial
        rw [h₁, Option.bind_some, messageClient_isSome_iff, htalk.isConnected, length_messageOwners h₁]
        exact hroom

theorem gotHit_isSome_iff :
    (s.gotHit client).isSome ↔ ∃ o, search (ownedBy client) s.playerList = some o ∧
      (o = none ∨ s.isConnected client = true ∨ s.playerList.length < 256) := by
  have hset : ∀ i ply, ((s.setEntry i (some ply)).playerList.length = s.playerList.length) :=
    fun i ply => List.length_set
  constructor
  · intro h
    obtain ⟨t, h⟩ := Option.isSome_iff_exists.mp h
    rcases gotHit_eq_some h with ⟨-, hnone⟩ | ⟨i, ply, hsearch, h⟩
    · exact ⟨none, hnone, .inl rfl⟩
    · refine ⟨_, hsearch, .inr ?_⟩
      have hlast := messageClient_isSome_iff.mp (Option.isSome_iff_exists.mpr ⟨t, h⟩)
      rwa [hset] at hlast
  · rintro ⟨o, ho, hor⟩
    rw [gotHit, ho]
    dsimp only [Option.bind_eq_bind, Option.bind_some]
    cases o with
    | none => rfl
    | some r =>
      obtain ⟨i, ply⟩ := r
      have hroom := hor.resolve_left (Option.some_ne_none _)
      dsimp only
      split_ifs
      · rw [messageClient_isSome_iff, hset]
        exact hroom
      · rw [messageClient_isSome_iff, hset]
        exact hroom

end WitcherMP.Core.Witcher3MPServer
