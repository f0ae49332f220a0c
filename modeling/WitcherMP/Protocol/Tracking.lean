import WitcherMP.Protocol.Pending
import WitcherMP.Lib.Run

/-! Packets in flight are pending, up to the first retransmission. -/

namespace WitcherMP.Protocol

open Compression Messages Batching

structure Fresh (n : ℕ) (packets : List NetworkPacket) : Prop where
  ids : packets.map (fun packet => packet.header.packetId)
    = (List.range' (n + 1) packets.length).map UInt32.ofNat
  waiting : ∀ packet ∈ packets, packet.isAcknowledged = false

section Packets
variable {n : ℕ} {packets : List NetworkPacket}

theorem fresh_nil : Fresh n [] := ⟨rfl, fun _ h => nomatch h⟩

theorem Fresh.toNat_id (h : Fresh n packets) (hn : n + packets.length < 2 ^ 32)
    {packet : NetworkPacket} (hp : packet ∈ packets) :
    n < packet.header.packetId.toNat ∧ packet.header.packetId.toNat ≤ n + packets.length := by
  have hid := List.mem_map_of_mem (f := fun packet => packet.header.packetId) hp
  rw [h.ids, List.mem_map] at hid
  obtain ⟨i, hi, hid⟩ := hid
  rw [List.mem_range'_1] at hi
  rw [← hid, UInt32.toNat_ofNat', Nat.mod_eq_of_lt (by omega)]
  omega

theorem Fresh.nodup (h : Fresh n packets) (hn : n + packets.length < 2 ^ 32) :
    (packets.map fun packet => packet.header.packetId).Nodup := by
  rw [h.ids]
  refine List.Nodup.map_on (fun i hi j hj hij => ?_) List.nodup_range'
  rw [List.mem_range'_1] at hi hj
  have hnat := congrArg UInt32.toNat hij
  rwa [UInt32.toNat_ofNat', UInt32.toNat_ofNat', Nat.mod_eq_of_lt (by omega),
    Nat.mod_eq_of_lt (by omega)] at hnat

end Packets

section Creation
variable [Inhabited MessageTypes] {n : ℕ}

theorem OptimizedNetworkProtocol.createEach_fresh {p : OptimizedNetworkProtocol}
    (hn : p.nextPacketId = .ofNat (n + 1)) (stamp : ℕ → UInt32) (flags : UInt16) (i : ℕ)
    (groups : List (List (PrioritizedMessage MessageTypes))) :
    let r := p.createEach stamp flags i groups
    Fresh n r.1 ∧ r.2.nextPacketId = .ofNat (n + r.1.length + 1) := by
  induction groups generalizing p n i with
  | nil => exact ⟨fresh_nil, hn⟩
  | cons messages groups ih =>
    have hnext : (p.createPacket (stamp i) messages).2.nextPacketId = .ofNat (n + 1 + 1) := by
      change p.nextPacketId + 1 = _
      rw [hn, UInt32.ofNat_add (n + 1)]
      rfl
    obtain ⟨⟨hids, hwaiting⟩, hafter⟩ := ih hnext (i + 1)
    refine ⟨⟨?_, ?_⟩, ?_⟩
    · rw [createEach, List.length_cons, List.range'_succ, List.map_cons, List.map_cons]
      exact congrArg₂ _ hn hids
    · intro packet hp
      rcases List.mem_cons.mp hp with rfl | hp
      · rfl
      · exact hwaiting packet hp
    · rw [createEach, List.length_cons]
      refine hafter.trans (congrArg UInt32.ofNat ?_)
      omega

namespace ProtocolState
variable (dc : DataCompression) (clock : ℕ → ℚ)
  (std : StdSort (PrioritizedMessage MessageTypes) sendOrder)

theorem createPackets_fresh {s : ProtocolState} (hn : s.nextPacketId = .ofNat (n + 1))
    (stamp : ℕ → UInt32) (messages : List (PrioritizedMessage MessageTypes)) :
    let r := s.createPackets dc clock std stamp messages
    Fresh n r.1 ∧ r.2.nextPacketId = .ofNat (n + r.1.length + 1) ∧
      r.2.pendingPackets = s.pendingPackets := by
  have hcreate (flags : UInt16) (groups : List (List (PrioritizedMessage MessageTypes))) :=
    OptimizedNetworkProtocol.createEach_fresh hn stamp flags 0 groups
  unfold createPackets
  split_ifs
  · exact ⟨fresh_nil, hn, rfl⟩
  all_goals
    dsimp only
    split
    · exact ⟨(hcreate _ _).1, (hcreate _ _).2, rfl⟩
    · exact ⟨(hcreate _ _).1, (hcreate _ _).2, rfl⟩

theorem getPacketsToSend_spec {s : ProtocolState} (hn : s.nextPacketId = .ofNat (n + 1))
    (stamp : ℕ → UInt32) (messages : List (PrioritizedMessage MessageTypes)) :
    let r := s.getPacketsToSend dc clock std stamp messages
    Fresh n r.1 ∧ r.2.nextPacketId = .ofNat (n + r.1.length + 1) ∧
      r.2.pendingPackets
        = s.pendingPackets.insertAll (fun packet => packet.header.packetId) r.1 := by
  unfold getPacketsToSend
  split_ifs
  · exact ⟨fresh_nil, hn, rfl⟩
  · obtain ⟨hfresh, hnext, hpending⟩ := createPackets_fresh dc clock std hn stamp messages
    refine ⟨hfresh, hnext, ?_⟩
    dsimp only
    rw [hpending]
  · exact ⟨fresh_nil, hn, rfl⟩

variable (s : ProtocolState) (id k : UInt32) (now : ℚ)

theorem find?_markPacketAcknowledged : (s.markPacketAcknowledged id now).pendingPackets.find? k
    = if id = k then none else s.pendingPackets.find? k := by
  unfold markPacketAcknowledged
  cases hget : s.pendingPackets.find? id with
  | none => exact OrdMap.find?_of_eq_none hget k
  | some packet => exact OrdMap.find?_erase ..

theorem find?_markPacketLost : (s.markPacketLost id).pendingPackets.find? k
    = if id = k then none else s.pendingPackets.find? k := by
  unfold markPacketLost
  cases hget : s.pendingPackets.find? id with
  | none => exact OrdMap.find?_of_eq_none hget k
  | some packet => exact OrdMap.find?_erase ..

theorem find?_markPacketSent : (s.markPacketSent id now).pendingPackets.find? k
    = (s.pendingPackets.find? k).map fun packet =>
      if id = k then { packet with sendTime := now } else packet := by
  unfold markPacketSent
  cases hget : s.pendingPackets.find? id with
  | none =>
    by_cases hk : id = k
    · rw [← hk, hget, Option.map_none]
    · simp [hk]
  | some packet =>
    refine (OrdMap.find?_insert ..).trans ?_
    split_ifs with hk
    · rw [← hk, hget, Option.map_some]
    · exact Option.map_id'.symm

theorem find?_handleRetransmission {q : NetworkPacket} :
    (s.handleRetransmission now).pendingPackets.find? k = some q
      ↔ s.pendingPackets.find? k = some q ∧ ¬ overdue now q := by
  refine OrdMap.find?_filter_eq_some_iff.trans (and_congr_right fun _ => ?_)
  exact decide_eq_true_iff

end ProtocolState
end Creation

structure Flight [Inhabited MessageTypes] where
  protocol : ProtocolState
  outstanding : List NetworkPacket := []

namespace Flight

inductive Op [Inhabited MessageTypes]
  | getPacketsToSend (stamp : ℕ → UInt32) (messages : List (PrioritizedMessage MessageTypes))
  | markPacketSent (packetId : UInt32) (now : ℚ)
  | markPacketAcknowledged (packetId : UInt32) (now : ℚ)
  | markPacketLost (packetId : UInt32)
  | handleRetransmission (now : ℚ)

def without (packetId : UInt32) (outstanding : List NetworkPacket) : List NetworkPacket :=
  outstanding.filter fun packet => packet.header.packetId ≠ packetId

theorem mem_without {id : UInt32} {packet : NetworkPacket} {outstanding : List NetworkPacket} :
    packet ∈ without id outstanding ↔ packet ∈ outstanding ∧ packet.header.packetId ≠ id := by
  rw [without, List.mem_filter, decide_eq_true_iff]

section Steps
variable [Inhabited MessageTypes] (dc : DataCompression) (clock : ℕ → ℚ)
  (std : StdSort (PrioritizedMessage MessageTypes) sendOrder)

def step (f : Flight) : Op → Flight
  | .getPacketsToSend stamp messages =>
    let r := f.protocol.getPacketsToSend dc clock std stamp messages
    { protocol := r.2, outstanding := f.outstanding ++ r.1 }
  | .markPacketSent id now => { f with protocol := f.protocol.markPacketSent id now }
  | .markPacketAcknowledged id now =>
    { protocol := f.protocol.markPacketAcknowledged id now, outstanding := without id f.outstanding }
  | .markPacketLost id =>
    { protocol := f.protocol.markPacketLost id, outstanding := without id f.outstanding }
  | .handleRetransmission now => { f with protocol := f.protocol.handleRetransmission now }

def handedOut (f : Flight) : Op → ℕ
  | .getPacketsToSend stamp messages =>
    (f.protocol.getPacketsToSend dc clock std stamp messages).1.length
  | .markPacketSent .. | .markPacketAcknowledged .. | .markPacketLost .. => 0
  | .handleRetransmission .. => 0

def Tracked (f : Flight) : Prop :=
  ∀ packet ∈ f.outstanding, ∃ now, f.protocol.pendingPackets.find? packet.header.packetId
    = some { packet with sendTime := now }

/-- No packet is overdue when retransmissions are looked for. -/
def Calm (f : Flight) : Op → Prop
  | .handleRetransmission now => ∀ e ∈ f.protocol.pendingPackets.entries, ¬ overdue now e.2
  | _ => True

instance decidableCalm (f : Flight) (op : Op) : Decidable (Calm f op) :=
  match op with
  | .handleRetransmission now =>
    inferInstanceAs (Decidable (∀ e ∈ f.protocol.pendingPackets.entries, ¬ overdue now e.2))
  | .getPacketsToSend .. | .markPacketSent .. | .markPacketAcknowledged .. | .markPacketLost .. =>
    inferInstanceAs (Decidable True)

structure Accounted (n : ℕ) (f : Flight) : Prop where
  next : f.protocol.nextPacketId = .ofNat (n + 1)
  older : ∀ packet ∈ f.outstanding, packet.header.packetId.toNat ≤ n
  owned : ∀ id q, f.protocol.pendingPackets.find? id = some q →
    ∃ packet ∈ f.outstanding, packet.header.packetId = id

variable {dc clock std} {n : ℕ} {f : Flight}

theorem Accounted.getPacketsToSend (h : Accounted n f) (stamp : ℕ → UInt32)
    (messages : List (PrioritizedMessage MessageTypes))
    (hn : n + f.handedOut dc clock std (.getPacketsToSend stamp messages) < 2 ^ 32) :
    Accounted (n + f.handedOut dc clock std (.getPacketsToSend stamp messages))
      (f.step dc clock std (.getPacketsToSend stamp messages)) := by
  obtain ⟨hfresh, hnext, hpending⟩ :=
    ProtocolState.getPacketsToSend_spec dc clock std h.next stamp messages
  refine ⟨hnext, fun packet hp => ?_, fun id q hq => ?_⟩
  · rcases List.mem_append.mp hp with hp | hp
    · exact (h.older packet hp).trans (Nat.le_add_right _ _)
    · exact (hfresh.toNat_id hn hp).2
  · rw [step, hpending] at hq
    rcases OrdMap.find?_insertAll_cases hq with ⟨hnew, hid⟩ | hold
    · exact ⟨q, List.mem_append_right _ hnew, hid⟩
    · obtain ⟨packet, hp, hid⟩ := h.owned id q hold
      exact ⟨packet, List.mem_append_left _ hp, hid⟩

theorem Tracked.getPacketsToSend (h : Tracked f) (hacc : Accounted n f) (stamp : ℕ → UInt32)
    (messages : List (PrioritizedMessage MessageTypes))
    (hn : n + f.handedOut dc clock std (.getPacketsToSend stamp messages) < 2 ^ 32) :
    Tracked (f.step dc clock std (.getPacketsToSend stamp messages)) := by
  obtain ⟨hfresh, -, hpending⟩ :=
    ProtocolState.getPacketsToSend_spec dc clock std hacc.next stamp messages
  intro packet hp
  rw [step, hpending]
  rcases List.mem_append.mp hp with hp | hp
  · rw [OrdMap.find?_insertAll_of_notMem]
    · exact h packet hp
    · rintro hmem
      obtain ⟨new, hnew, hid⟩ := List.mem_map.mp hmem
      have hlow := hacc.older packet hp
      have hhigh := (hfresh.toNat_id hn hnew).1
      rw [hid] at hhigh
      exact absurd hhigh (not_lt.mpr hlow)
  · exact ⟨packet.sendTime, OrdMap.find?_insertAll_of_mem _ (hfresh.nodup hn) hp⟩

theorem Accounted.forget (h : Accounted n f) {id : UInt32} {f' : Flight}
    (hnext : f'.protocol.nextPacketId = f.protocol.nextPacketId)
    (hout : f'.outstanding = without id f.outstanding)
    (hfind : ∀ k, f'.protocol.pendingPackets.find? k
      = if id = k then none else f.protocol.pendingPackets.find? k) : Accounted n f' := by
  refine ⟨hnext.trans h.next, fun packet hp => ?_, fun k q hq => ?_⟩
  · rw [hout] at hp
    exact h.older packet (mem_without.mp hp).1
  · rw [hfind] at hq
    split_ifs at hq with hk
    obtain ⟨packet, hp, rfl⟩ := h.owned k q hq
    rw [hout]
    exact ⟨packet, mem_without.mpr ⟨hp, Ne.symm hk⟩, rfl⟩

theorem Tracked.forget (h : Tracked f) {id : UInt32} {f' : Flight}
    (hout : f'.outstanding = without id f.outstanding)
    (hfind : ∀ k, f'.protocol.pendingPackets.find? k
      = if id = k then none else f.protocol.pendingPackets.find? k) : Tracked f' := by
  intro packet hp
  rw [hout] at hp
  obtain ⟨hp, hid⟩ := mem_without.mp hp
  rw [hfind, if_neg (Ne.symm hid)]
  exact h packet hp

theorem Tracked.handleRetransmission_iff (h : Tracked f) (hacc : Accounted n f) (now : ℚ) :
    Tracked (f.step dc clock std (.handleRetransmission now))
      ↔ Calm f (.handleRetransmission now) := by
  constructor
  · intro hkept e he hlate
    obtain ⟨packet, hp, hid⟩ := hacc.owned e.1 e.2 (OrdMap.find?_eq_some_iff.mpr he)
    obtain ⟨t, hfound⟩ := hkept packet hp
    obtain ⟨hbefore, hfine⟩ := (ProtocolState.find?_handleRetransmission ..).mp hfound
    rw [hid, OrdMap.find?_eq_some_iff.mpr he] at hbefore
    exact hfine (Option.some.inj hbefore ▸ hlate)
  · intro hcalm packet hp
    obtain ⟨t, hfound⟩ := h packet hp
    refine ⟨t, (ProtocolState.find?_handleRetransmission ..).mpr ⟨hfound, ?_⟩⟩
    exact hcalm (packet.header.packetId, _) (OrdMap.find?_eq_some_iff.mp hfound)

theorem nextPacketId_markPacketSent (s : ProtocolState) (id : UInt32) (now : ℚ) :
    (s.markPacketSent id now).nextPacketId = s.nextPacketId := by
  unfold ProtocolState.markPacketSent
  cases s.pendingPackets.find? id <;> rfl

theorem nextPacketId_markPacketAcknowledged (s : ProtocolState) (id : UInt32) (now : ℚ) :
    (s.markPacketAcknowledged id now).nextPacketId = s.nextPacketId := by
  unfold ProtocolState.markPacketAcknowledged
  cases s.pendingPackets.find? id <;> rfl

theorem nextPacketId_markPacketLost (s : ProtocolState) (id : UInt32) :
    (s.markPacketLost id).nextPacketId = s.nextPacketId := by
  unfold ProtocolState.markPacketLost
  cases s.pendingPackets.find? id <;> rfl

theorem Accounted.step (h : Accounted n f) (op : Op) (hn : n + f.handedOut dc clock std op < 2 ^ 32) :
    Accounted (n + f.handedOut dc clock std op) (f.step dc clock std op) := by
  cases op with
  | getPacketsToSend stamp messages => exact h.getPacketsToSend stamp messages hn
  | markPacketSent id now =>
    refine ⟨(nextPacketId_markPacketSent ..).trans h.next, h.older, fun k q hq => ?_⟩
    rw [Flight.step, ProtocolState.find?_markPacketSent, Option.map_eq_some_iff] at hq
    obtain ⟨q', hq', -⟩ := hq
    exact h.owned k q' hq'
  | markPacketAcknowledged id now =>
    exact h.forget (nextPacketId_markPacketAcknowledged ..) rfl
      fun k => ProtocolState.find?_markPacketAcknowledged ..
  | markPacketLost id =>
    exact h.forget (nextPacketId_markPacketLost ..) rfl
      fun k => ProtocolState.find?_markPacketLost ..
  | handleRetransmission now =>
    refine ⟨h.next, h.older, fun k q hq => ?_⟩
    exact h.owned k q ((ProtocolState.find?_handleRetransmission ..).mp hq).1

theorem Tracked.step_iff (h : Tracked f) (hacc : Accounted n f) (op : Op)
    (hn : n + f.handedOut dc clock std op < 2 ^ 32) :
    Tracked (f.step dc clock std op) ↔ Calm f op := by
  cases op with
  | getPacketsToSend stamp messages =>
    exact iff_of_true (h.getPacketsToSend hacc stamp messages hn) trivial
  | markPacketSent id now =>
    refine iff_of_true (fun packet hp => ?_) trivial
    obtain ⟨t, hfound⟩ := h packet hp
    rw [step, ProtocolState.find?_markPacketSent, hfound, Option.map_some]
    split_ifs
    · exact ⟨now, rfl⟩
    · exact ⟨t, rfl⟩
  | markPacketAcknowledged id now =>
    exact iff_of_true (h.forget rfl fun k => ProtocolState.find?_markPacketAcknowledged ..) trivial
  | markPacketLost id =>
    exact iff_of_true (h.forget rfl fun k => ProtocolState.find?_markPacketLost ..) trivial
  | handleRetransmission now => exact h.handleRetransmission_iff hacc now

variable (dc clock std) in
/-- Until packet ids repeat, every packet in flight is pending after every call exactly when
no call for retransmissions ever finds a packet overdue. -/
theorem tracked_iff_calm (initialized priorityEnabled compressionEnabled batchingEnabled : Bool)
    (compressionLevel : CompressionLevel) (compression : Option DataCompression)
    (batching : Option SmartBatching) {ops : List Op} :
    let start : Flight := {
      protocol := .initial initialized priorityEnabled compressionEnabled batchingEnabled
        compressionLevel compression batching }
    Run.total (step dc clock std) (handedOut dc clock std) start ops < 2 ^ 32 →
      (Run.Along (step dc clock std) (fun f op => Tracked (f.step dc clock std op)) start ops
        ↔ Run.Along (step dc clock std) Calm start ops) := by
  intro start hops
  have hacc : Accounted 0 start := ⟨rfl, fun _ h => (nomatch h), fun _ _ h => (nomatch h)⟩
  have htracked : Tracked start := fun _ h => nomatch h
  refine Run.along_iff_of_counted (fun n f op hacc htracked hn => ?_) hacc htracked
    (by rwa [Nat.zero_add])
  exact ⟨hacc.step op hn, htracked.step_iff hacc op hn⟩

end Steps

theorem tracked_while_calm :
    letI : Inhabited MessageTypes := ⟨.batchMessage⟩
    let step := step ⟨true, 64⟩ (fun n => n) (StdSort.insertion sendOrder)
    Run.Along step (fun f op => Tracked (step f op))
      { protocol := .initial true true false false .balanced none none }
      [.getPacketsToSend (fun _ => 9) [{ messageId := 5, data := [1, 2, 3] }], .markPacketSent 1 10,
        .handleRetransmission (21 / 2), .markPacketAcknowledged 1 11, .handleRetransmission 12] := by
  exact (@tracked_iff_calm ⟨.batchMessage⟩ ⟨true, 64⟩ (fun n => n)
    (StdSort.insertion (@sendOrder ⟨.batchMessage⟩)) true true false false .balanced none none _
    (by decide +kernel)).mpr (by decide +kernel)

theorem not_tracked_overdue :
    ¬ ∀ (_ : Inhabited MessageTypes) (dc : DataCompression) (clock : ℕ → ℚ)
      (std : StdSort (PrioritizedMessage MessageTypes) sendOrder) (ops : List Op),
      Run.Along (step dc clock std) (fun f op => Tracked (f.step dc clock std op))
        { protocol := .initial true true false false .balanced none none } ops := by
  intro h
  let default : Inhabited MessageTypes := ⟨.batchMessage⟩
  let ops : List Op :=
    [.getPacketsToSend (fun _ => 9) [{ messageId := 5, data := [1, 2, 3] }], .markPacketSent 1 10,
      .handleRetransmission 12]
  let f : Flight := Run.run (step ⟨true, 64⟩ (fun n => n) (StdSort.insertion sendOrder))
    { protocol := .initial true true false false .balanced none none } ops
  have hlast : Tracked f :=
    (h default ⟨true, 64⟩ (fun n => n) (StdSort.insertion sendOrder) ops).2.2.1
  have hpending : f.protocol.pendingPackets = .empty := by decide +kernel
  have hsent : f.outstanding ≠ [] := by decide +kernel
  obtain ⟨packet, rest, hout⟩ := List.exists_cons_of_ne_nil hsent
  obtain ⟨now, hfound⟩ := hlast packet (hout ▸ List.mem_cons_self ..)
  rw [hpending] at hfound
  exact Option.some_ne_none _ hfound.symm

end Flight
end WitcherMP.Protocol
