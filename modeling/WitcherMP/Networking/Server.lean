import WitcherMP.Networking.Defs
import Mathlib.Data.List.Basic

/-! The server's list of clients: accepted ones are put at its end, and one whose socket is found
closed when a message is sent is reported and taken out. Log lines and received messages are left
out, and so are connections that fail to be made. -/

namespace WitcherMP.Networking
variable {T : Type} [Inhabited T]

structure Connection (T : Type) [Inhabited T] where
  id : UInt32 := 0
  isOpen : Bool := true
  qMessagesOut : List (Message T) := []
deriving DecidableEq

abbrev Client := Option ℕ

/-- All connections ever made, the list of clients, and the calls of `OnClientDisconnect`. -/
structure Server (T : Type) [Inhabited T] where
  made : List (Connection T) := []
  deqConnections : List Client := []
  disconnects : List Client := []
  nIDCounter : UInt32 := 10000
  maxClients : ℕ := 100
deriving DecidableEq

namespace Server

def isConnected (s : Server T) : Client → Bool
  | none => false
  | some p => s.made[p]?.any (·.isOpen)

def modifyConnection (s : Server T) (p : ℕ) (f : Connection T → Connection T) : Server T :=
  { s with made := s.made.modify p f }

def send (s : Server T) (client : Client) (msg : Message T) : Server T :=
  match client with
  | none => s
  | some p => s.modifyConnection p fun c => { c with qMessagesOut := c.qMessagesOut ++ [msg] }

def onClientConnect (s : Server T) : Bool := ¬ s.deqConnections.length ≥ s.maxClients

def onClientDisconnect (s : Server T) (client : Client) : Server T :=
  { s with disconnects := s.disconnects ++ [client] }

def connectToClient (uid : UInt32) (c : Connection T) : Connection T :=
  if c.isOpen then { c with id := uid } else c

def clientConnection (s : Server T) : Server T :=
  let newconn := s.made.length
  let s := { s with made := s.made ++ [({} : Connection T)] }
  if s.onClientConnect then
    let s := { s with deqConnections := s.deqConnections ++ [some newconn] }
    { s.modifyConnection newconn (connectToClient s.nIDCounter) with nIDCounter := s.nIDCounter + 1 }
  else s

/-- The pointer is reset before the list is searched for it. -/
def messageClient (s : Server T) (client : Client) (msg : Message T) : Server T :=
  if s.isConnected client then s.send client msg else
  let s := s.onClientDisconnect client
  let client : Client := none
  { s with deqConnections := s.deqConnections.filter (· ≠ client) }

def visitClients (msg : Message T) (pIgnoreClient : Client) :
    Server T → List Client → Server T × List Client × Bool
  | s, [] => (s, [], false)
  | s, client :: clients =>
    if s.isConnected client then
      let s := if client ≠ pIgnoreClient then s.send client msg else s
      let (s, clients, bInvalidClientExists) := visitClients msg pIgnoreClient s clients
      (s, client :: clients, bInvalidClientExists)
    else
      let s := s.onClientDisconnect client
      let (s, clients, _) := visitClients msg pIgnoreClient s clients
      (s, none :: clients, true)

def messageAllClients (s : Server T) (msg : Message T) (pIgnoreClient : Client) : Server T :=
  let (s, clients, bInvalidClientExists) := visitClients msg pIgnoreClient s s.deqConnections
  { s with deqConnections := if bInvalidClientExists then clients.filter (· ≠ none) else clients }

inductive Event (T : Type) [Inhabited T]
  | connect
  | close (p : ℕ)
  | messageClient (client : Client) (msg : Message T)
  | messageAllClients (msg : Message T) (pIgnoreClient : Client)

/-- There are no pointers to connections that have not been made. -/
def step (s : Server T) : Event T → Option (Server T)
  | .connect => some s.clientConnection
  | .close p =>
    if p < s.made.length then some (s.modifyConnection p fun c => { c with isOpen := false }) else none
  | .messageClient client msg =>
    if ∀ p ∈ client, p < s.made.length then some (s.messageClient client msg) else none
  | .messageAllClients msg pIgnoreClient => some (s.messageAllClients msg pIgnoreClient)

def Settled (s : Server T) : Prop :=
  ∀ p, some p ∈ s.disconnects →
    some p ∉ s.deqConnections ∧ s.disconnects.count (some p) = 1

/-- A message is not sent over a closed connection to a client that is in the list or has been
reported. -/
def InTime (s : Server T) : Event T → Prop
  | .messageClient client _ => ∀ p ∈ client, ¬ s.isConnected (some p) →
    some p ∉ s.deqConnections ∧ some p ∉ s.disconnects
  | _ => True

structure Listed (s : Server T) : Prop where
  nodup : s.deqConnections.Nodup
  listed : ∀ c ∈ s.deqConnections, ∃ p, c = some p ∧ p < s.made.length
  reported : ∀ p, some p ∈ s.disconnects → p < s.made.length

section Steps
variable {s : Server T}

@[simp] theorem length_made_modify (p : ℕ) (f : Connection T → Connection T) :
    (s.modifyConnection p f).made.length = s.made.length := List.length_modify ..

theorem isConnected_send (client client' : Client) (msg : Message T) :
    (s.send client msg).isConnected client' = s.isConnected client' := by
  cases client with
  | none => rfl
  | some p =>
    cases client' with
    | none => rfl
    | some p' =>
      rw [send, isConnected, isConnected, modifyConnection, List.getElem?_modify]
      cases s.made[p']? with
      | none => rfl
      | some c =>
        dsimp only [Option.map_some, Option.any_some]
        split_ifs <;> rfl

theorem send_eq (client : Client) (msg : Message T) :
    (s.send client msg).deqConnections = s.deqConnections ∧
      (s.send client msg).disconnects = s.disconnects ∧
      (s.send client msg).made.length = s.made.length := by
  cases client with
  | none => exact ⟨rfl, rfl, rfl⟩
  | some p => exact ⟨rfl, rfl, length_made_modify ..⟩

theorem visitClients_spec (msg : Message T) (ignore : Client) (s : Server T) (clients : List Client) :
    let r := visitClients msg ignore s clients
    r.1.made.length = s.made.length ∧
      r.1.disconnects = s.disconnects ++ clients.filter (! s.isConnected ·) ∧
      r.2.1.filter (· ≠ none) = clients.filter s.isConnected ∧
      (r.2.2 = false → r.2.1 = clients ∧ ∀ c ∈ clients, s.isConnected c) := by
  induction clients generalizing s with
  | nil => exact ⟨rfl, (List.append_nil _).symm, rfl, fun _ => ⟨rfl, fun c hc => absurd hc List.not_mem_nil⟩⟩
  | cons client clients ih =>
    rw [visitClients]
    by_cases hc : s.isConnected client
    · have hsend : ∃ s', (if client ≠ ignore then s.send client msg else s) = s' ∧
          s'.made.length = s.made.length ∧ s'.disconnects = s.disconnects ∧
          s'.isConnected = s.isConnected := by
        obtain ⟨-, hd, hm⟩ := send_eq (s := s) client msg
        split_ifs
        · exact ⟨_, rfl, hm, hd, funext fun c => isConnected_send client c msg⟩
        · exact ⟨_, rfl, rfl, rfl, rfl⟩
      obtain ⟨s', hs', hm, hd, hconn⟩ := hsend
      obtain ⟨ihm, ihd, ihf, ihn⟩ := ih s'
      rw [hm] at ihm
      rw [hd, hconn] at ihd
      rw [hconn] at ihf ihn
      have hne : client ≠ none := by
        rintro rfl
        cases hc
      rw [if_pos hc, hs']
      refine ⟨ihm, ?_, ?_, fun hnone => ?_⟩
      · rwa [List.filter_cons_of_neg (by simp [hc])]
      · rw [List.filter_cons_of_pos hc]
        exact (List.filter_cons_of_pos (by simpa using hne)).trans (congrArg _ ihf)
      · obtain ⟨hsame, hall⟩ := ihn hnone
        exact ⟨congrArg _ hsame, List.forall_mem_cons.mpr ⟨hc, hall⟩⟩
    · have hconn : (s.onClientDisconnect client).isConnected = s.isConnected := by
        funext c
        cases c <;> rfl
      obtain ⟨ihm, ihd, ihf, -⟩ := ih (s.onClientDisconnect client)
      rw [hconn] at ihd ihf
      rw [if_neg hc]
      refine ⟨ihm, ihd.trans ?_, ?_, fun h => absurd h Bool.true_eq_false_eq_False⟩
      · rw [List.filter_cons_of_pos (by simp [hc]), onClientDisconnect, List.append_assoc]
        rfl
      · rw [List.filter_cons_of_neg hc]
        exact ihf

theorem messageAllClients_spec (s : Server T) (msg : Message T) (ignore : Client) :
    (s.messageAllClients msg ignore).made.length = s.made.length ∧
      (s.messageAllClients msg ignore).deqConnections = s.deqConnections.filter s.isConnected ∧
      (s.messageAllClients msg ignore).disconnects
        = s.disconnects ++ s.deqConnections.filter (! s.isConnected ·) := by
  obtain ⟨hm, hd, hf, hn⟩ := visitClients_spec msg ignore s s.deqConnections
  refine ⟨hm, ?_, hd⟩
  rw [messageAllClients]
  dsimp only
  split_ifs with hinvalid
  · exact hf
  · obtain ⟨hsame, hall⟩ := hn (Bool.eq_false_iff.mpr hinvalid)
    rw [hsame, List.filter_eq_self.mpr hall]

theorem Listed.filter_ne_none (h : Listed s) : s.deqConnections.filter (· ≠ none) = s.deqConnections := by
  refine List.filter_eq_self.mpr fun c hc => ?_
  obtain ⟨p, rfl, -⟩ := h.listed c hc
  rfl

theorem Listed.lt (h : Listed s) {p : ℕ} (hp : some p ∈ s.deqConnections) : p < s.made.length := by
  obtain ⟨p', hp', hlt⟩ := h.listed _ hp
  rwa [Option.some.inj hp']

theorem Listed.congr (h : Listed s) {s' : Server T} (hm : s'.made.length = s.made.length)
    (hdeq : s'.deqConnections = s.deqConnections) (hd : s'.disconnects = s.disconnects) : Listed s' := by
  refine ⟨hdeq ▸ h.nodup, ?_, ?_⟩
  · rw [hdeq, hm]
    exact h.listed
  · rw [hd, hm]
    exact h.reported

theorem settled_congr {s' : Server T} (hdeq : s'.deqConnections = s.deqConnections)
    (hd : s'.disconnects = s.disconnects) : Settled s' ↔ Settled s := by
  rw [Settled, Settled, hdeq, hd]

theorem clientConnection_spec (s : Server T) :
    s.clientConnection.made.length = s.made.length + 1 ∧ s.clientConnection.disconnects = s.disconnects ∧
      (s.clientConnection.deqConnections = s.deqConnections ∨
        s.clientConnection.deqConnections = s.deqConnections ++ [some s.made.length]) := by
  rw [clientConnection]
  dsimp only
  split_ifs
  · exact ⟨by simp [modifyConnection], rfl, Or.inr rfl⟩
  · exact ⟨by simp, rfl, Or.inl rfl⟩

theorem settled_clientConnection (h : Listed s) (hs : Settled s) :
    Listed s.clientConnection ∧ Settled s.clientConnection := by
  obtain ⟨hm, hd, hdeq⟩ := clientConnection_spec s
  have hnew : some s.made.length ∉ s.deqConnections := fun hmem => lt_irrefl _ (h.lt hmem)
  have hlisted : ∀ c ∈ s.deqConnections, ∃ p, c = some p ∧ p < s.made.length + 1 := by
    intro c hc
    obtain ⟨p, rfl, hlt⟩ := h.listed c hc
    exact ⟨p, rfl, by omega⟩
  have hreported : ∀ p, some p ∈ s.clientConnection.disconnects → p < s.clientConnection.made.length := by
    rw [hd, hm]
    intro p hp
    have hlt := h.reported p hp
    omega
  rcases hdeq with hdeq | hdeq
  · refine ⟨⟨hdeq ▸ h.nodup, ?_, hreported⟩, (settled_congr hdeq hd).mpr hs⟩
    rwa [hdeq, hm]
  · refine ⟨⟨?_, ?_, hreported⟩, ?_⟩
    · rw [hdeq]
      exact List.nodup_append.mpr ⟨h.nodup, List.nodup_singleton _, fun c hc c' hc' heq =>
        hnew (List.mem_singleton.mp hc' ▸ heq ▸ hc)⟩
    · rw [hdeq, hm]
      refine List.forall_mem_append.mpr ⟨hlisted, ?_⟩
      rw [List.forall_mem_singleton]
      exact ⟨_, rfl, Nat.lt_succ_self _⟩
    · intro p hp
      rw [hd] at hp ⊢
      obtain ⟨hout, hone⟩ := hs p hp
      refine ⟨?_, hone⟩
      rw [hdeq, List.mem_append, List.mem_singleton]
      rintro (hmem | heq)
      · exact hout hmem
      · exact lt_irrefl _ (Option.some.inj heq ▸ h.reported p hp)

theorem settled_messageClient_iff (h : Listed s) (hs : Settled s) {client : Client}
    (hmade : ∀ p ∈ client, p < s.made.length) (msg : Message T) :
    Listed (s.messageClient client msg) ∧
      (Settled (s.messageClient client msg) ↔ InTime s (.messageClient client msg)) := by
  rw [messageClient]
  split_ifs with hconn
  · obtain ⟨hdeq, hd, hm⟩ := send_eq (s := s) client msg
    refine ⟨h.congr hm hdeq hd, iff_of_true ((settled_congr hdeq hd).mpr hs) fun p hp hnot => ?_⟩
    exact absurd (hp ▸ hconn) hnot
  · dsimp only [onClientDisconnect]
    rw [h.filter_ne_none]
    refine ⟨⟨h.nodup, h.listed, ?_⟩, ?_⟩
    · intro p hp
      rcases List.mem_append.mp hp with hp | hp
      · exact h.reported p hp
      · exact hmade p (List.mem_singleton.mp hp).symm
    · cases client with
      | none =>
        refine iff_of_true (fun p hp => ?_) fun p hp => absurd hp (Option.not_mem_none p)
        have hp' : some p ∈ s.disconnects := by simpa using hp
        simpa using hs p hp'
      | some q =>
        constructor
        · intro hsettled p hp _
          obtain rfl : q = p := Option.some.inj hp
          obtain ⟨hout, hone⟩ := hsettled q (by simp)
          refine ⟨hout, fun hmem => ?_⟩
          have hpos := List.count_pos_iff.mpr hmem
          rw [List.count_append, List.count_singleton_self] at hone
          omega
        · intro hintime p hp
          obtain ⟨hout, hfirst⟩ := hintime q rfl hconn
          by_cases hpq : p = q
          · subst hpq
            refine ⟨hout, ?_⟩
            rw [List.count_append, List.count_eq_zero_of_not_mem hfirst, List.count_singleton_self]
          · have hp' : some p ∈ s.disconnects := by simpa [hpq] using hp
            obtain ⟨hout', hone⟩ := hs p hp'
            refine ⟨hout', ?_⟩
            rw [List.count_append, hone, List.count_singleton, if_neg (by simpa using Ne.symm hpq)]

theorem settled_messageAllClients (h : Listed s) (hs : Settled s) (msg : Message T) (ignore : Client) :
    Listed (s.messageAllClients msg ignore) ∧ Settled (s.messageAllClients msg ignore) := by
  obtain ⟨hm, hdeq, hd⟩ := messageAllClients_spec s msg ignore
  refine ⟨⟨?_, ?_, ?_⟩, ?_⟩
  · rw [hdeq]
    exact h.nodup.filter _
  · rw [hdeq, hm]
    exact fun c hc => h.listed c (List.mem_of_mem_filter hc)
  · rw [hd, hm]
    intro p hp
    rcases List.mem_append.mp hp with hp | hp
    · exact h.reported p hp
    · exact h.lt (List.mem_of_mem_filter hp)
  · intro p hp
    rw [hd] at hp ⊢
    rw [hdeq, List.count_append]
    by_cases hbefore : some p ∈ s.disconnects
    · obtain ⟨hout, hone⟩ := hs p hbefore
      refine ⟨fun hmem => hout (List.mem_of_mem_filter hmem), ?_⟩
      rw [hone, List.count_eq_zero_of_not_mem fun hmem => hout (List.mem_of_mem_filter hmem)]
    · have hnow := (List.mem_append.mp hp).resolve_left hbefore
      refine ⟨fun hmem => ?_, ?_⟩
      · have hopen := (List.mem_filter.mp hmem).2
        simp [hopen] at hnow
      · rw [List.count_eq_zero_of_not_mem hbefore, Nat.zero_add]
        exact List.count_eq_one_of_mem (h.nodup.filter _) hnow

theorem step_spec (h : Listed s) (hs : Settled s) (e : Event T) :
    (step s e = none → InTime s e) ∧
      ∀ s', step s e = some s' → Listed s' ∧ (Settled s' ↔ InTime s e) := by
  cases e with
  | connect =>
    obtain ⟨hl, hset⟩ := settled_clientConnection h hs
    exact ⟨fun _ => trivial, fun s' hs' => Option.some.inj hs' ▸ ⟨hl, iff_of_true hset trivial⟩⟩
  | close p =>
    refine ⟨fun _ => trivial, fun s' hs' => ?_⟩
    rw [step, Option.ite_none_right_eq_some] at hs'
    rw [← Option.some.inj hs'.2]
    exact ⟨h.congr (length_made_modify ..) rfl rfl, iff_of_true hs trivial⟩
  | messageClient client msg =>
    constructor
    · intro hnone p hp _
      have hlt : ¬ p < s.made.length := by
        intro hlt
        rw [step, if_pos] at hnone
        · cases hnone
        · exact fun p' hp' => Option.mem_unique hp hp' ▸ hlt
      exact ⟨fun hmem => hlt (h.lt hmem), fun hmem => hlt (h.reported p hmem)⟩
    · intro s' hs'
      rw [step, Option.ite_none_right_eq_some] at hs'
      rw [← Option.some.inj hs'.2]
      exact settled_messageClient_iff h hs hs'.1 msg
  | messageAllClients msg ignore =>
    obtain ⟨hl, hset⟩ := settled_messageAllClients h hs msg ignore
    exact ⟨fun _ => trivial, fun s' hs' => Option.some.inj hs' ▸ ⟨hl, iff_of_true hset trivial⟩⟩

end Steps

theorem listed_initial (maxClients : ℕ) : Listed ({ maxClients } : Server T) where
  nodup := List.nodup_nil
  listed := fun _ hc => absurd hc List.not_mem_nil
  reported := fun _ hp => absurd hp List.not_mem_nil

/-- Clients that are reported leave the list and are not reported again, throughout a run, exactly
if no message of the run is for a client that is known and whose connection is closed. -/
theorem settled_throughout_iff (maxClients : ℕ) (events : List (Event T)) :
    Run.Throughout step Settled ({ maxClients } : Server T) events ↔
      Run.AtEach step InTime ({ maxClients } : Server T) events := by
  refine Run.throughout_iff_atEach_of_returning (K := Listed) (Q := fun _ => True)
    (fun s e h hs _ => step_spec h hs e) (listed_initial maxClients) ?_ fun _ _ => trivial
  exact fun _ hp => absurd hp List.not_mem_nil

theorem not_settled_throughout_message :
    ¬ ∀ events : List (Event Messages.MessageTypes), Run.Throughout step Settled {} events := by
  intro h
  have hfinal : Settled (T := Messages.MessageTypes) _ :=
    (h [.connect, .close 0, .messageClient (some 0) {}]).final rfl
  exact (hfinal 0 (by decide)).1 (by decide)

end Server
end WitcherMP.Networking
