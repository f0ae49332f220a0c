import WitcherMP.Core.Defs
import Mathlib.Data.List.ReduceOption
import Mathlib.Data.List.Perm.Lattice

/-! What the report of a closed connection comes to. It leads to the reports of all others that are
found closed on the way, one inside the other; in the end every entry of a closed connection is
empty, and everybody else has been told of each of these players once. -/

namespace WitcherMP.Core.Witcher3MPServer
variable {s : Witcher3MPServer}

def stays (s : Witcher3MPServer) (ply : Player) : Bool := s.isConnected ply.ownerClient

def goneIn (s : Witcher3MPServer) (l : List (Option Player)) : List Player :=
  l.reduceOption.filter fun ply => !s.stays ply

def listenersIn (s : Witcher3MPServer) (l : List (Option Player)) : List Client :=
  (l.reduceOption.filter s.stays).map (·.ownerClient)

def gone (s : Witcher3MPServer) : List Player := s.goneIn s.playerList

def listeners (s : Witcher3MPServer) : List Client := s.listenersIn s.playerList

def kept (s : Witcher3MPServer) : List (Option Player) := s.playerList.map (Option.filter s.stays)

def notices (left : List Player) (clients : List Client) : List (Client × Packet) :=
  left.flatMap fun ply => clients.map fun client => (client, .updatePos ply.id {} 1)

def toAll (clients : List Client) (msg : Packet) : List (Client × Packet) :=
  clients.map fun client => (client, msg)

def dropWith (s : Witcher3MPServer) (ext : List (Client × Packet)) : Witcher3MPServer :=
  { s with
    playerList := s.kept
    deqConnections := if s.gone.length ≤ 1 then s.deqConnections
      else s.deqConnections.filter (· ≠ none)
    sent := s.sent ++ ext }

section Entries
variable {l : List (Option Player)} {ply : Player}

theorem take_succ_getD {k : ℕ} (hk : k < l.length) :
    l.take (k + 1) = l.take k ++ [l.getD k none] := by
  rw [List.take_add_one, List.getD_eq_getElem?_getD, List.getElem?_eq_getElem hk]
  rfl

@[simp] theorem goneIn_concat_none : s.goneIn (l ++ [none]) = s.goneIn l := by
  rw [goneIn, List.reduceOption_append, List.reduceOption_cons_of_none, List.reduceOption_nil,
    List.append_nil]
  rfl

@[simp] theorem listenersIn_concat_none : s.listenersIn (l ++ [none]) = s.listenersIn l := by
  rw [listenersIn, List.reduceOption_append, List.reduceOption_cons_of_none, List.reduceOption_nil,
    List.append_nil]
  rfl

theorem goneIn_concat (s : Witcher3MPServer) (l : List (Option Player)) (ply : Player) :
    s.goneIn (l ++ [some ply]) = s.goneIn l ++ if s.stays ply then [] else [ply] := by
  rw [goneIn, List.reduceOption_append, List.reduceOption_cons_of_some, List.reduceOption_nil,
    List.filter_append, List.filter_singleton]
  cases h : s.stays ply <;> rfl

theorem listenersIn_concat (s : Witcher3MPServer) (l : List (Option Player)) (ply : Player) :
    s.listenersIn (l ++ [some ply])
      = s.listenersIn l ++ if s.stays ply then [ply.ownerClient] else [] := by
  rw [listenersIn, List.reduceOption_append, List.reduceOption_cons_of_some, List.reduceOption_nil,
    List.filter_append, List.filter_singleton, List.map_append]
  cases h : s.stays ply <;> rfl

theorem mem_goneIn : ply ∈ s.goneIn l ↔ some ply ∈ l ∧ s.stays ply = false := by
  rw [goneIn, List.mem_filter, List.reduceOption_mem_iff, Bool.not_eq_true']

theorem mem_listeners {client : Client} :
    client ∈ s.listeners ↔
      s.isConnected client = true ∧ ∃ ply, some ply ∈ s.playerList ∧ ply.ownerClient = client := by
  simp only [listeners, listenersIn, List.mem_map, List.mem_filter, List.reduceOption_mem_iff, stays]
  constructor
  · rintro ⟨ply, ⟨hmem, hopen⟩, rfl⟩
    exact ⟨hopen, ply, hmem, rfl⟩
  · rintro ⟨hopen, ply, hmem, rfl⟩
    exact ⟨ply, ⟨hmem, hopen⟩, rfl⟩

theorem mem_kept : some ply ∈ s.kept ↔ some ply ∈ s.playerList ∧ s.stays ply = true := by
  simp only [kept, List.mem_map, Option.filter_eq_some_iff]
  exact ⟨fun ⟨_, hmem, he, hopen⟩ => ⟨he ▸ hmem, hopen⟩, fun ⟨hmem, hopen⟩ => ⟨_, hmem, rfl, hopen⟩⟩

theorem getD_kept (i : ℕ) : s.kept.getD i none = (s.playerList.getD i none).filter s.stays := by
  rw [kept, List.getD_eq_getElem?_getD, List.getElem?_map, List.getD_eq_getElem?_getD]
  cases s.playerList[i]? <;> rfl

theorem reduceOption_kept : s.kept.reduceOption = s.playerList.reduceOption.filter s.stays := by
  rw [kept]
  induction s.playerList with
  | nil => rfl
  | cons e l ih =>
    cases e with
    | none => exact ih
    | some ply =>
      rw [List.map_cons, Option.filter_some, List.reduceOption_cons_of_some, List.filter_cons]
      split_ifs
      · rw [List.reduceOption_cons_of_some, ih]
      · rw [List.reduceOption_cons_of_none, ih]

theorem map_filter_kept (s : Witcher3MPServer) : s.kept.map (Option.filter s.stays) = s.kept := by
  rw [kept, List.map_map]
  refine List.map_congr_left fun e _ => ?_
  cases e with
  | none => rfl
  | some ply =>
    rw [Function.comp_apply, Option.filter_some]
    split_ifs with hopen
    · rw [Option.filter_some, if_pos hopen]
    · rfl

theorem kept_of_goneIn_nil (h : s.gone = []) : s.kept = s.playerList := by
  rw [kept]
  refine (List.map_congr_left fun e he => ?_).trans (List.map_id _)
  cases e with
  | none => rfl
  | some ply =>
    have hopen : s.stays ply = true := by
      by_contra hclosed
      have hgone : ply ∈ s.gone := mem_goneIn.mpr ⟨he, Bool.eq_false_iff.mpr hclosed⟩
      rw [h] at hgone
      exact absurd hgone List.not_mem_nil
    rw [Option.filter_some, if_pos hopen, id]

end Entries

section Emptied
variable {i : ℕ} {ply : Player}

theorem lt_of_getD (h : s.playerList.getD i none = some ply) : i < s.playerList.length := by
  by_contra hle
  rw [List.getD_eq_default _ _ (not_lt.mp hle)] at h
  cases h

theorem playerList_split (h : s.playerList.getD i none = some ply) :
    s.playerList = s.playerList.take i ++ some ply :: s.playerList.drop (i + 1) := by
  have hlt := lt_of_getD h
  have hget : s.playerList[i] = some ply := by rwa [List.getD_eq_getElem _ _ hlt] at h
  rw [← hget, List.cons_getElem_drop_succ, List.take_append_drop]

theorem playerList_setEntry (h : s.playerList.getD i none = some ply) (e : Option Player) :
    (s.setEntry i e).playerList = s.playerList.take i ++ e :: s.playerList.drop (i + 1) := by
  rw [setEntry, List.set_eq_take_append_cons_drop, if_pos (lt_of_getD h)]

variable (h : s.playerList.getD i none = some ply) (hclosed : s.stays ply = false)
include h hclosed

theorem gone_setEntry : s.gone.Perm (ply :: (s.setEntry i none).gone) := by
  have hsplit := playerList_split h
  rw [gone, goneIn, hsplit, gone, goneIn, playerList_setEntry h none]
  simp only [List.reduceOption_append, List.reduceOption_cons_of_some,
    List.reduceOption_cons_of_none, List.filter_append]
  rw [List.filter_cons_of_pos (by rw [hclosed]; rfl)]
  exact List.perm_middle

theorem listeners_setEntry : (s.setEntry i none).listeners = s.listeners := by
  have hsplit := playerList_split h
  rw [listeners, listenersIn, listeners, listenersIn, playerList_setEntry h none]
  nth_rewrite 3 [hsplit]
  simp only [List.reduceOption_append, List.reduceOption_cons_of_some,
    List.reduceOption_cons_of_none, List.filter_append]
  rw [List.filter_cons_of_neg (by rw [hclosed]; decide)]
  rfl

theorem kept_setEntry : (s.setEntry i none).kept = s.kept := by
  have hsplit := playerList_split h
  rw [kept, kept, playerList_setEntry h none]
  nth_rewrite 3 [hsplit]
  rw [List.map_append, List.map_append, List.map_cons, List.map_cons, Option.filter_some, hclosed]
  rfl

end Emptied

section Report

theorem perm_notices {ply : Player} {left left' : List Player} {clients : List Client}
    (h : left.Perm (ply :: left')) :
    (notices left' clients ++ toAll clients (.updatePos ply.id {} 1)).Perm (notices left clients) := by
  have hcons : notices (ply :: left') clients
      = toAll clients (.updatePos ply.id {} 1) ++ notices left' clients := List.flatMap_cons
  have hperm : (notices left clients).Perm (notices (ply :: left') clients) := h.flatMap_right _
  rw [hcons] at hperm
  exact List.perm_append_comm.trans hperm.symm

def Reports (report : Witcher3MPServer → Client → Option Witcher3MPServer) (s : Witcher3MPServer) :
    Prop :=
  ∀ client, s.isConnected client = false →
    if ∃ ply ∈ s.gone, ply.ownerClient = client then
      ∃ ext, report s client = some (s.dropWith ext) ∧ ext.Perm (notices s.gone s.listeners)
    else report s client = some s

def SentAfter (s : Witcher3MPServer) (msg : Packet) (k : ℕ) (t : Witcher3MPServer) : Prop :=
  ∃ ext, t = { s with
      playerList := s.kept
      deqConnections := s.deqConnections.filter (· ≠ none)
      sent := s.sent ++ ext } ∧
    ext.Perm (notices s.gone s.listeners ++ toAll (s.listenersIn (s.playerList.take k)) msg)

def Sending (s : Witcher3MPServer) (msg : Packet) (k : ℕ) (t : Witcher3MPServer) : Prop :=
  (s.goneIn (s.playerList.take k) = [] ∧
    t = { s with sent := s.sent ++ toAll (s.listenersIn (s.playerList.take k)) msg }) ∨
  (s.goneIn (s.playerList.take k) ≠ [] ∧ SentAfter s msg k t)

theorem toAll_concat (clients : List Client) (client : Client) (msg : Packet) :
    toAll (clients ++ [client]) msg = toAll clients msg ++ [(client, msg)] := List.map_append

theorem eraseNull_dropWith (t : Witcher3MPServer) (ext : List (Client × Packet)) :
    (t.dropWith ext).eraseNull = { t with
      playerList := t.kept
      deqConnections := t.deqConnections.filter (· ≠ none)
      sent := t.sent ++ ext } := by
  simp only [eraseNull, dropWith]
  split_ifs
  · rfl
  · rw [List.filter_filter]
    simp only [Bool.and_self]

variable {report : Witcher3MPServer → Client → Option Witcher3MPServer} {msg : Packet} {k : ℕ}

theorem sending_of_nil {t : Witcher3MPServer}
    (ht : t = { s with sent := s.sent ++ toAll (s.listenersIn (s.playerList.take k)) msg })
    (hreport : Reports report t) (hnil : s.goneIn (s.playerList.take k) = []) {ply : Player}
    (hply : s.playerList.getD k none = some ply) :
    ∃ t', messageClientWith report t ply.ownerClient msg = some t' ∧ Sending s msg (k + 1) t' := by
  have htake := take_succ_getD (lt_of_getD hply)
  rw [hply] at htake
  by_cases hopen : s.stays ply = true
  · refine ⟨t.send ply.ownerClient msg, if_pos (by rw [ht]; exact hopen), .inl ⟨?_, ?_⟩⟩
    · rw [htake, goneIn_concat, hnil, if_pos hopen, List.nil_append]
    · rw [ht, htake, listenersIn_concat, if_pos hopen, toAll_concat, send, List.append_assoc]
  · have hclosed := Bool.eq_false_iff.mpr hopen
    have hmem : some ply ∈ s.playerList :=
      playerList_split hply ▸ List.mem_append_right _ List.mem_cons_self
    have hrep := hreport ply.ownerClient (by rw [ht]; exact hclosed)
    have hgone : t.gone = s.gone := by rw [ht]; rfl
    have hlisten : t.listeners = s.listeners := by rw [ht]; rfl
    have hkept : t.kept = s.kept := by rw [ht]; rfl
    rw [if_pos ⟨ply, hgone ▸ mem_goneIn.mpr ⟨hmem, hclosed⟩, rfl⟩] at hrep
    obtain ⟨ext, hext, hperm⟩ := hrep
    rw [hgone, hlisten] at hperm
    refine ⟨(t.dropWith ext).eraseNull, ?_,
      .inr ⟨?_, toAll (s.listenersIn (s.playerList.take k)) msg ++ ext, ?_, ?_⟩⟩
    · rw [messageClientWith, if_neg (by rw [ht]; exact hopen), hext]
      rfl
    · rw [htake, goneIn_concat, if_neg hopen]
      exact List.append_ne_nil_of_right_ne_nil _ (List.cons_ne_nil _ _)
    · rw [eraseNull_dropWith, hkept, ht, List.append_assoc]
    · rw [htake, listenersIn_concat, if_neg hopen, List.append_nil]
      exact List.perm_append_comm.trans (hperm.append_right _)

theorem sending_of_sentAfter {t : Witcher3MPServer} (ht : SentAfter s msg k t)
    (hne : s.goneIn (s.playerList.take k) ≠ []) {ply : Player}
    (hply : t.playerList.getD k none = some ply) :
    ∃ t', messageClientWith report t ply.ownerClient msg = some t' ∧ Sending s msg (k + 1) t' := by
  obtain ⟨ext, ht, hperm⟩ := ht
  rw [ht, getD_kept, Option.filter_eq_some_iff] at hply
  obtain ⟨hply, hopen⟩ := hply
  have htake := take_succ_getD (lt_of_getD hply)
  rw [hply] at htake
  refine ⟨t.send ply.ownerClient msg, if_pos (by rw [ht]; exact hopen),
    .inr ⟨?_, ext ++ [(ply.ownerClient, msg)], ?_, ?_⟩⟩
  · rw [htake, goneIn_concat]
    exact List.append_ne_nil_of_left_ne_nil hne _
  · rw [ht, send, List.append_assoc]
  · rw [htake, listenersIn_concat, if_pos hopen, toAll_concat, ← List.append_assoc]
    exact hperm.append_right _

theorem sending_of_none {t : Witcher3MPServer} (ht : Sending s msg k t)
    (hk : k < s.playerList.length) (hnone : t.playerList.getD k none = none) :
    Sending s msg (k + 1) t := by
  have htake := take_succ_getD hk
  rcases ht with ⟨hnil, ht⟩ | ⟨hne, ext, ht, hperm⟩
  · have hs : s.playerList.getD k none = none := by rwa [ht] at hnone
    rw [hs] at htake
    refine .inl ⟨?_, ?_⟩
    · rw [htake, goneIn_concat_none, hnil]
    · rw [htake, listenersIn_concat_none, ht]
  · rw [ht, getD_kept] at hnone
    cases hs : s.playerList.getD k none with
    | none =>
      rw [hs] at htake
      refine .inr ⟨?_, ext, ht, ?_⟩
      · rwa [htake, goneIn_concat_none]
      · rwa [htake, listenersIn_concat_none]
    | some ply =>
      rw [hs] at htake hnone
      have hclosed : ¬ s.stays ply = true := fun hopen => by
        rw [Option.filter_some, if_pos hopen] at hnone
        cases hnone
      refine .inr ⟨?_, ext, ht, ?_⟩
      · rw [htake, goneIn_concat]
        exact List.append_ne_nil_of_left_ne_nil hne _
      · rwa [htake, listenersIn_concat, if_neg hclosed, List.append_nil]

theorem forPlayers_sending
    (hreport : ∀ t : Witcher3MPServer, t.playerList = s.playerList → t.sockets = s.sockets →
      Reports report t) (msg : Packet) :
    ∃ t, forPlayers (tellOwner report msg) s = some t ∧ Sending s msg s.playerList.length t := by
  have hstart : Sending s msg 0 s := .inl ⟨rfl, by rw [List.take_zero]; exact (congrArg
    (fun l => { s with sent := l }) (List.append_nil _)).symm⟩
  have hround : ∀ k t, 0 ≤ k → k < 0 + s.playerList.length → Sending s msg k t →
      ∃ t', tellOwner report msg t (t.playerList.getD k none) = some t' ∧ Sending s msg (k + 1) t' := by
    intro k t _ hk ht
    rw [Nat.zero_add] at hk
    cases hply : t.playerList.getD k none with
    | none => exact ⟨t, rfl, sending_of_none ht hk hply⟩
    | some ply =>
      rcases ht with ⟨hnil, ht⟩ | ⟨hne, ht⟩
      · exact sending_of_nil ht (hreport t (by rw [ht]) (by rw [ht])) hnil (by rwa [ht] at hply)
      · exact sending_of_sentAfter ht hne hply
  have hloop := Loops.loop_total hround hstart
  rwa [Nat.zero_add] at hloop

theorem Sending.final {t : Witcher3MPServer} (h : Sending s msg s.playerList.length t) :
    ∃ ext, t = { s with
        playerList := s.kept
        deqConnections := if s.gone = [] then s.deqConnections
          else s.deqConnections.filter (· ≠ none)
        sent := s.sent ++ ext } ∧
      ext.Perm (notices s.gone s.listeners ++ toAll s.listeners msg) := by
  rw [Sending, SentAfter, List.take_length] at h
  rcases h with ⟨hnil, ht⟩ | ⟨hne, ext, ht, hperm⟩
  · have hgone : s.gone = [] := hnil
    refine ⟨toAll s.listeners msg, ?_, ?_⟩
    · rw [ht, if_pos hgone, kept_of_goneIn_nil hgone]
      rfl
    · rw [hgone]
      exact List.Perm.refl _
  · have hgone : s.gone ≠ [] := hne
    exact ⟨ext, by rw [if_neg hgone, ht], hperm⟩

def Reporting (s : Witcher3MPServer) (client : Client) (k : ℕ) (t : Witcher3MPServer) : Prop :=
  ((∀ ply, some ply ∈ s.playerList.take k → ply.ownerClient ≠ client) ∧ t = s) ∨
  ((∃ ply ∈ s.gone, ply.ownerClient = client) ∧
    ∃ ext, t = s.dropWith ext ∧ ext.Perm (notices s.gone s.listeners))

theorem dropped_of_sending {i : ℕ} {ply : Player} {t : Witcher3MPServer}
    (hply : s.playerList.getD i none = some ply) (hclosed : s.stays ply = false)
    (h : Sending (s.setEntry i none) (.updatePos ply.id {} 1) s.playerList.length t) :
    ∃ ext, t = s.dropWith ext ∧ ext.Perm (notices s.gone s.listeners) := by
  have hlen : s.playerList.length = (s.setEntry i none).playerList.length := List.length_set.symm
  rw [hlen] at h
  obtain ⟨ext, ht, hperm⟩ := h.final
  have hgone := gone_setEntry hply hclosed
  rw [listeners_setEntry hply hclosed] at hperm
  refine ⟨ext, ?_, hperm.trans (perm_notices hgone)⟩
  have hcount : (s.setEntry i none).gone = [] ↔ s.gone.length ≤ 1 := by
    rw [hgone.length_eq, List.length_cons, ← List.length_eq_zero_iff]
    omega
  rw [ht, kept_setEntry hply hclosed, dropWith]
  simp only [hcount]
  rfl

theorem reporting_succ {client : Client} (hclosed : s.isConnected client = false)
    (hreport : ∀ t : Witcher3MPServer, t.playerList.length = s.playerList.length →
      t.gone.length < s.gone.length → Reports report t)
    (hk : k < s.playerList.length) {t : Witcher3MPServer} (ht : Reporting s client k t) :
    ∃ t', kickEntry report client k t = some t' ∧ Reporting s client (k + 1) t' := by
  have htake := take_succ_getD hk
  rcases ht with ⟨hnone, rfl⟩ | ⟨hsome, ext, rfl, hperm⟩
  · rw [kickEntry]
    cases hply : t.playerList.getD k none with
    | none =>
      refine ⟨t, rfl, .inl ⟨fun ply hmem => ?_, rfl⟩⟩
      rw [htake, hply, List.mem_append, List.mem_singleton] at hmem
      exact hmem.elim (hnone ply) fun h => absurd h (Option.some_ne_none ply)
    | some ply =>
      dsimp only
      by_cases howner : ply.ownerClient = client
      · have hgoneply : t.stays ply = false := by rw [stays, howner, hclosed]
        have hperm := gone_setEntry hply hgoneply
        have hlen : (t.setEntry k none).playerList.length = t.playerList.length := List.length_set
        have hrec : ∀ v : Witcher3MPServer, v.playerList = (t.setEntry k none).playerList →
            v.sockets = (t.setEntry k none).sockets → Reports report v := by
          intro v hv hsock
          have hgone : v.gone = (t.setEntry k none).gone := by
            simp only [gone, goneIn, stays, isConnected, hv, hsock]
          refine hreport v (by rw [hv, hlen]) ?_
          rw [hgone, hperm.length_eq]
          exact Nat.lt_succ_self _
        obtain ⟨u, hu, hsend⟩ := forPlayers_sending hrec (.updatePos ply.id {} 1)
        rw [if_pos howner]
        rw [hlen] at hsend
        exact ⟨u, hu, .inr ⟨⟨ply, hperm.mem_iff.mpr List.mem_cons_self, howner⟩,
          dropped_of_sending hply hgoneply hsend⟩⟩
      · rw [if_neg howner]
        refine ⟨t, rfl, .inl ⟨fun ply' hmem => ?_, rfl⟩⟩
        rw [htake, hply, List.mem_append, List.mem_singleton] at hmem
        exact hmem.elim (hnone ply') fun h => by cases h; exact howner
  · refine ⟨s.dropWith ext, ?_, .inr ⟨hsome, ext, rfl, hperm⟩⟩
    have hkept : (s.dropWith ext).playerList.getD k none = (s.playerList.getD k none).filter s.stays :=
      getD_kept k
    rw [kickEntry, hkept]
    cases hply : (s.playerList.getD k none).filter s.stays with
    | none => rfl
    | some ply =>
      obtain ⟨-, hopen⟩ := Option.filter_eq_some_iff.mp hply
      refine if_neg fun howner => ?_
      rw [stays, howner, hclosed] at hopen
      cases hopen

theorem reports_onClientDisconnectWith (fuel : ℕ) :
    ∀ s : Witcher3MPServer, s.playerList.length < 256 → s.gone.length < fuel →
      Reports (onClientDisconnectWith fuel) s := by
  induction fuel with
  | zero => exact fun s _ h => absurd h (Nat.not_lt_zero _)
  | succ fuel ih =>
    intro s hlen hfuel client hclosed
    have hstart : Reporting s client 0 s := .inl ⟨fun _ h => absurd h List.not_mem_nil, rfl⟩
    have hround : ∀ k t, 0 ≤ k → k < 0 + s.playerList.length → Reporting s client k t →
        ∃ t', kickEntry (onClientDisconnectWith fuel) client k t = some t' ∧
          Reporting s client (k + 1) t' := by
      intro k t _ hk ht
      rw [Nat.zero_add] at hk
      exact reporting_succ hclosed (fun v hv hgone => ih v (hv ▸ hlen) (by omega)) hk ht
    obtain ⟨t, ht, hrep⟩ := Loops.loop_total hround hstart
    have hrun : onClientDisconnectWith (fuel + 1) s client = some t := by
      rw [onClientDisconnectWith, Loops.countLoop_eq, if_neg (not_le.mpr hlen)]
      exact ht
    rw [Nat.zero_add, Reporting, List.take_length] at hrep
    rcases hrep with ⟨hnone, rfl⟩ | ⟨hsome, ext, rfl, hperm⟩
    · rw [if_neg]
      · exact hrun
      · rintro ⟨ply, hmem, howner⟩
        exact hnone ply (mem_goneIn.mp hmem).1 howner
    · rw [if_pos hsome]
      exact ⟨ext, hrun, hperm⟩

theorem length_gone_le (s : Witcher3MPServer) : s.gone.length ≤ s.playerList.length :=
  (List.length_filter_le _ _).trans (List.reduceOption_length_le _)

theorem reports_onClientDisconnect (hlen : s.playerList.length < 256) :
    Reports onClientDisconnect s := by
  have hreports := reports_onClientDisconnectWith _ s hlen (Nat.lt_succ_of_le s.length_gone_le)
  intro client hclosed
  rw [onClientDisconnect]
  exact hreports client hclosed

theorem onClientDisconnect_eq_none_iff {client : Client} (hclosed : s.isConnected client = false) :
    s.onClientDisconnect client = none ↔ 256 ≤ s.playerList.length := by
  constructor
  · intro hnone
    by_contra hlen
    have hrep := reports_onClientDisconnect (not_le.mp hlen) client hclosed
    split_ifs at hrep with hown
    · obtain ⟨ext, hext, -⟩ := hrep
      rw [hnone] at hext
      cases hext
    · rw [hnone] at hrep
      cases hrep
  · intro hlen
    rw [onClientDisconnect, onClientDisconnectWith, Loops.countLoop_eq, if_pos hlen]

end Report

section Message
variable {client : Client} {msg : Packet} {t : Witcher3MPServer}

def Owns (s : Witcher3MPServer) (client : Client) : Prop :=
  ∃ ply, some ply ∈ s.playerList ∧ ply.ownerClient = client

theorem owns_iff_gone (hclosed : s.isConnected client = false) :
    s.Owns client ↔ ∃ ply ∈ s.gone, ply.ownerClient = client := by
  refine exists_congr fun ply => ?_
  rw [gone, mem_goneIn]
  refine ⟨fun ⟨hmem, howner⟩ => ⟨⟨hmem, ?_⟩, howner⟩, fun ⟨⟨hmem, _⟩, howner⟩ => ⟨hmem, howner⟩⟩
  rw [stays, howner, hclosed]

def Drops (s t : Witcher3MPServer) (deqConnections : List (Option Client)) : Prop :=
  ∃ ext, t = { s with
      playerList := s.kept
      deqConnections := deqConnections
      sent := s.sent ++ ext } ∧ ext.Perm (notices s.gone s.listeners)

theorem messageClient_of_open (hopen : s.isConnected client = true) :
    s.messageClient client msg = some (s.send client msg) := if_pos hopen

theorem onClientDisconnect_cases (hclosed : s.isConnected client = false)
    (h : s.onClientDisconnect client = some t) :
    (s.Owns client ∧ ∃ ext, t = s.dropWith ext ∧ ext.Perm (notices s.gone s.listeners)) ∨
      (¬ s.Owns client ∧ t = s) := by
  have hlen : s.playerList.length < 256 := by
    by_contra hle
    rw [(onClientDisconnect_eq_none_iff hclosed).mpr (not_lt.mp hle)] at h
    cases h
  have hrep := reports_onClientDisconnect hlen client hclosed
  rw [h] at hrep
  split_ifs at hrep with hown
  · obtain ⟨ext, hext, hperm⟩ := hrep
    exact .inl ⟨(owns_iff_gone hclosed).mpr hown, ext, Option.some_inj.mp hext, hperm⟩
  · exact .inr ⟨fun h => hown ((owns_iff_gone hclosed).mp h), Option.some_inj.mp hrep⟩

/-- The report does not end where there are 256 entries. Elsewhere all players whose owners are gone are
dropped, if the client has one, and each owner that is there is told of each of them once for each of
its own. -/
theorem onClientDisconnect_drops (hclosed : s.isConnected client = false) :
    (s.onClientDisconnect client = none ↔ 256 ≤ s.playerList.length) ∧
      ∀ t, s.onClientDisconnect client = some t →
        (s.Owns client ∧ ∃ ext, t = s.dropWith ext ∧ ext.Perm (notices s.gone s.listeners)) ∨
          (¬ s.Owns client ∧ t = s) :=
  ⟨onClientDisconnect_eq_none_iff hclosed, fun _ => onClientDisconnect_cases hclosed⟩

def abandoned : Witcher3MPServer where
  playerList := [some (.new 1 {} 1000 0 0), some (.new 2 {} 1000 0 1), some (.new 3 {} 1000 0 2)]
  sockets := [false, true, false]

theorem onClientDisconnect_drops_abandoned :
    (abandoned.onClientDisconnect 2 = none ↔ 256 ≤ abandoned.playerList.length) ∧
      ∀ t, abandoned.onClientDisconnect 2 = some t →
        (abandoned.Owns 2 ∧ ∃ ext, t = abandoned.dropWith ext ∧
          ext.Perm (notices abandoned.gone abandoned.listeners)) ∨ (¬ abandoned.Owns 2 ∧ t = abandoned) :=
  onClientDisconnect_drops (by decide)

theorem messageClient_of_closed (hclosed : s.isConnected client = false)
    (h : s.messageClient client msg = some t) :
    (s.Owns client ∧ Drops s t (s.deqConnections.filter (· ≠ none))) ∨
      (¬ s.Owns client ∧ t = s.eraseNull) := by
  rw [messageClient, messageClientWith, hclosed, if_neg Bool.false_ne_true, Option.map_eq_some_iff] at h
  obtain ⟨u, hu, rfl⟩ := h
  rcases onClientDisconnect_cases hclosed hu with ⟨hown, ext, rfl, hperm⟩ | ⟨hown, rfl⟩
  · exact .inl ⟨hown, ext, eraseNull_dropWith s ext, hperm⟩
  · exact .inr ⟨hown, rfl⟩

theorem messageClient_eq_none_iff :
    s.messageClient client msg = none ↔ s.isConnected client = false ∧ 256 ≤ s.playerList.length := by
  rw [messageClient, messageClientWith]
  by_cases hopen : s.isConnected client = true
  · rw [if_pos hopen, hopen]
    exact ⟨fun h => (Option.some_ne_none _ h).elim, fun h => absurd h.1 Bool.true_eq_false_eq_False⟩
  · have hclosed := Bool.eq_false_iff.mpr hopen
    rw [if_neg hopen, Option.map_eq_none_iff, onClientDisconnect_eq_none_iff hclosed]
    exact ⟨fun h => ⟨hclosed, h⟩, fun h => h.2⟩

end Message
end WitcherMP.Core.Witcher3MPServer
