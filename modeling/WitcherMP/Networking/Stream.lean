import WitcherMP.Networking.Defs
import Mathlib.Data.List.Basic

/-! What arrives over a connection: at most the first message. -/

namespace WitcherMP.Networking
variable {T : Type} [Inhabited T]

namespace Message

/-- The header announces the body in the way the reader takes it: itself included, or
nothing. -/
def Framed (L : HeaderLayout T) (msg : Message T) : Prop :=
  if msg.header.size = 0 then msg.body = [] else msg.header.size.toNat = L.sizeof + msg.size

theorem Sized.framed_iff {L : HeaderLayout T} {msg : Message T} (h : msg.Sized) :
    msg.Framed L ↔ msg.body = [] := by
  rw [Framed]
  split_ifs with h0
  · rfl
  · have hpos := L.sizeof_pos
    have hle : msg.header.size.toNat ≤ msg.size := by
      rw [h, UInt32.toNat_ofNat']
      exact Nat.mod_le _ _
    refine iff_of_false (by omega) fun hb => h0 ?_
    rw [h, size, hb]
    rfl

end Message

def wires (L : HeaderLayout T) (msgs : List (Message T)) : List UInt8 := msgs.flatMap (Message.wire L)

theorem wires_cons (L : HeaderLayout T) (msg : Message T) (msgs : List (Message T)) :
    wires L (msg :: msgs) = L.bytes msg.header ++ (msg.body ++ wires L msgs) := by
  rw [wires, List.flatMap_cons, Message.wire, List.append_assoc, wires]

theorem wires_of_le {L : HeaderLayout T} {msgs : List (Message T)} {bs rest : List UInt8}
    (h : wires L msgs = bs ++ rest) (hle : L.sizeof ≤ bs.length) :
    ∃ msg msgs', msgs = msg :: msgs' ∧ bs = L.bytes msg.header ++ bs.drop L.sizeof := by
  cases msgs with
  | nil =>
    have hpos := L.sizeof_pos
    obtain ⟨rfl, -⟩ := List.append_eq_nil_iff.mp h.symm
    simp at hle
    omega
  | cons msg msgs =>
    refine ⟨msg, msgs, rfl, ?_⟩
    have htake := congrArg (List.take L.sizeof) h
    rw [wires_cons, List.take_append_of_le_length (by rw [L.length_bytes]),
      List.take_append_of_le_length hle, List.take_of_length_le (by rw [L.length_bytes])] at htake
    rw [htake, List.take_append_drop]

theorem ne_nil_of_wires {L : HeaderLayout T} {msgs : List (Message T)} {h : MessageHeader T}
    {bs : List UInt8} (hw : wires L msgs = L.bytes h ++ bs) : msgs ≠ [] := by
  rintro rfl
  have hpos := L.sizeof_pos
  have hlen := congrArg List.length hw
  rw [List.length_append, L.length_bytes, wires, List.flatMap_nil, List.length_nil] at hlen
  omega

theorem eq_of_wires_singleton {L : HeaderLayout T} {msg : Message T} {h : MessageHeader T}
    {bs : List UInt8} (hw : wires L [msg] = L.bytes h ++ bs) : msg = ⟨h, bs⟩ := by
  rw [wires_cons, wires, List.flatMap_nil, List.append_nil] at hw
  obtain ⟨hb, rfl⟩ := List.append_inj hw (by rw [L.length_bytes, L.length_bytes])
  have hh : msg.header = h := by rw [← L.header_bytes msg.header, hb, L.header_bytes]
  rw [← hh]

namespace Writer

def pending (L : HeaderLayout T) (w : Writer T) : List UInt8 :=
  match w.writing, w.qMessagesOut with
  | some .body, msg :: rest => msg.body ++ wires L rest
  | _, q => wires L q

theorem pending_writeHeader (L : HeaderLayout T) (q : List (Message T)) :
    (writeHeader q).pending L = wires L q := by
  unfold writeHeader pending
  split_ifs <;> rfl

theorem pending_send (L : HeaderLayout T) (w : Writer T) (msg : Message T) :
    (w.send msg).pending L = w.pending L ++ msg.wire L := by
  obtain ⟨q, writing, busy⟩ := w
  cases q with
  | nil =>
    obtain rfl := busy.mpr rfl
    have hsend : send ⟨[], none, busy⟩ msg = writeHeader [msg] := rfl
    rw [hsend, pending_writeHeader]
    simp [pending, wires]
  | cons m q =>
    match writing with
    | none => exact absurd (busy.mp rfl) (List.cons_ne_nil m q)
    | some .header => simp [send, pending, wires]
    | some .body => simp [send, pending, wires]

theorem pending_written (L : HeaderLayout T) (w : Writer T) :
    w.pending L = (w.written L).2 ++ (w.written L).1.pending L := by
  obtain ⟨q, writing, busy⟩ := w
  match writing, q with
  | none, q => rfl
  | some .header, [] => exact absurd (busy.mpr rfl) (by simp)
  | some .body, [] => exact absurd (busy.mpr rfl) (by simp)
  | some .header, msg :: rest =>
    simp only [written, pending, wires_cons]
    split_ifs with hb
    · rfl
    · rw [show msg.body = [] from List.length_eq_zero_iff.mp (by omega), ← pending,
        pending_writeHeader]
      rfl
  | some .body, msg :: rest =>
    have := pending_writeHeader L rest
    simp only [written, pending] at this ⊢
    rw [this]

theorem pending_of_nil (L : HeaderLayout T) (w : Writer T) (h : w.qMessagesOut = []) :
    w.pending L = [] := by
  obtain ⟨q, writing, busy⟩ := w
  subst h
  obtain rfl := busy.mpr rfl
  rfl

end Writer

namespace Reader

inductive After (L : HeaderLayout T) : List UInt8 → Reader T → Prop
  | start : After L [] {}
  | body {h : MessageHeader T} {bs : List UInt8} (hsize : h.size ≠ 0)
      (hlen : h.size.toNat = L.sizeof + bs.length) : After L (L.bytes h) ⟨some .body, ⟨h, bs⟩, []⟩
  | empty {h : MessageHeader T} (hsize : h.size = 0) : After L (L.bytes h) ⟨none, {}, [⟨h, []⟩]⟩
  | full {h : MessageHeader T} {bs : List UInt8} (hsize : h.size ≠ 0)
      (hlen : h.size.toNat = L.sizeof + bs.length) :
      After L (L.bytes h ++ bs) ⟨none, {}, [⟨h, bs⟩]⟩
  | failed {h : MessageHeader T} (hsize : h.size ≠ 0) (hlen : h.size.toNat < L.sizeof) :
      After L (L.bytes h) ⟨none, ⟨h, []⟩, []⟩

theorem length_resize (body : List UInt8) (n : ℕ) : (resize body n).length = n := by
  rw [resize, List.length_append, List.length_take, List.length_replicate]
  omega

theorem After.headerRead (L : HeaderLayout T) (h : MessageHeader T) :
    After L (L.bytes h) (headerRead L {} h) := by
  unfold Reader.headerRead
  have hpos : h.size > 0 ↔ h.size ≠ 0 := UInt32.pos_iff_ne_zero
  simp only [hpos]
  split_ifs with h0 hlt
  · exact .failed h0 hlt
  · exact .body h0 (by rw [length_resize]; omega)
  · exact .empty (not_not.mp h0)

theorem After.read {L : HeaderLayout T} {msgs : List (Message T)} {taken stream rest : List UInt8}
    {r : Reader T} (hr : After L taken r) (hmsgs : wires L msgs = taken ++ stream ++ rest) :
    ∃ taken', After L taken' (r.read L stream).1 ∧
      taken ++ stream = taken' ++ (r.read L stream).2 := by
  cases hr with
  | empty hsize => exact ⟨_, .empty hsize, rfl⟩
  | full hsize hlen => exact ⟨_, .full hsize hlen, rfl⟩
  | failed hsize hlen => exact ⟨_, .failed hsize hlen, rfl⟩
  | start =>
    simp only [Reader.read]
    split_ifs with hlt
    · exact ⟨[], .start, rfl⟩
    · rw [List.nil_append] at hmsgs ⊢
      obtain ⟨msg, msgs', rfl, hstream⟩ := wires_of_le hmsgs (not_lt.mp hlt)
      have htake : L.header (stream.take L.sizeof) = msg.header := by
        rw [hstream, List.take_append_of_le_length (by rw [L.length_bytes]),
          List.take_of_length_le (by rw [L.length_bytes]), L.header_bytes]
      rw [htake]
      exact ⟨_, .headerRead L msg.header, hstream⟩
  | @body h bs hsize hlen =>
    simp only [Reader.read]
    split_ifs with hlt
    · exact ⟨_, .body hsize hlen, rfl⟩
    · refine ⟨L.bytes h ++ stream.take bs.length, .full hsize ?_, ?_⟩
      · rw [List.length_take, Nat.min_eq_left (not_lt.mp hlt), hlen]
      · rw [List.append_assoc, List.take_append_drop]

theorem lt_sizeof_of_rest {L : HeaderLayout T} {stream : List UInt8}
    (h : Reader.read L {} stream = ({}, stream)) : stream.length < L.sizeof := by
  have hpos := L.sizeof_pos
  by_contra hge
  have hdrop : stream.drop L.sizeof = stream := by
    simpa only [Reader.read, if_neg hge] using congrArg Prod.snd h
  have hlen := congrArg List.length hdrop
  rw [List.length_drop] at hlen
  omega

theorem lt_body_of_rest {L : HeaderLayout T} {msg : Message T} {q : List (Message T)}
    {stream : List UInt8}
    (h : Reader.read L ⟨some .body, msg, q⟩ stream = (⟨some .body, msg, q⟩, stream)) :
    stream.length < msg.body.length := by
  by_contra hge
  have hreading := congrArg (fun x => x.1.reading) h
  simp [Reader.read, if_neg hge, addToIncomingMessageQueue] at hreading

theorem After.delivered_iff {L : HeaderLayout T} {msgs : List (Message T)}
    {taken stream : List UInt8} {r : Reader T} (hr : After L taken r)
    (hmsgs : wires L msgs = taken ++ stream) (hrest : r.read L stream = (r, stream)) :
    (r.qMessagesIn = msgs ∧ stream = []) ↔ msgs = [] ∨ ∃ msg, msgs = [msg] ∧ msg.Framed L := by
  cases hr with
  | start =>
    have hlt := lt_sizeof_of_rest hrest
    have hnil : msgs = [] := by
      by_contra hne
      obtain ⟨msg, msgs', rfl⟩ := List.exists_cons_of_ne_nil hne
      have hlen := congrArg List.length hmsgs
      rw [wires_cons, List.length_append, L.length_bytes, List.nil_append] at hlen
      omega
    subst hnil
    exact iff_of_true ⟨rfl, hmsgs.symm⟩ (Or.inl rfl)
  | @body h bs hsize hlen =>
    have hlt : stream.length < bs.length := lt_body_of_rest hrest
    refine iff_of_false (fun hd => ne_nil_of_wires hmsgs hd.1.symm) ?_
    rintro (hnil | ⟨msg, rfl, hf⟩)
    · exact ne_nil_of_wires hmsgs hnil
    · obtain rfl := eq_of_wires_singleton hmsgs
      simp only [Message.Framed, if_neg hsize, Message.size] at hf
      omega
  | @empty h hsize =>
    constructor
    · rintro ⟨rfl, rfl⟩
      exact Or.inr ⟨_, rfl, by simp [Message.Framed, hsize]⟩
    · rintro (hnil | ⟨msg, rfl, hf⟩)
      · exact absurd hnil (ne_nil_of_wires hmsgs)
      · obtain rfl := eq_of_wires_singleton hmsgs
        simp only [Message.Framed, if_pos hsize] at hf
        rw [hf]
        exact ⟨rfl, rfl⟩
  | @full h bs hsize hlen =>
    rw [List.append_assoc] at hmsgs
    constructor
    · rintro ⟨rfl, rfl⟩
      exact Or.inr ⟨_, rfl, by simp [Message.Framed, hsize, Message.size, hlen]⟩
    · rintro (hnil | ⟨msg, rfl, hf⟩)
      · exact absurd hnil (ne_nil_of_wires hmsgs)
      · obtain rfl := eq_of_wires_singleton hmsgs
        simp only [Message.Framed, if_neg hsize, Message.size, List.length_append] at hf
        have hnil : stream = [] := List.length_eq_zero_iff.mp (by omega)
        rw [hnil, List.append_nil]
        exact ⟨rfl, rfl⟩
  | @failed h hsize hlen =>
    refine iff_of_false (fun hd => ne_nil_of_wires hmsgs hd.1.symm) ?_
    rintro (hnil | ⟨msg, rfl, hf⟩)
    · exact ne_nil_of_wires hmsgs hnil
    · obtain rfl := eq_of_wires_singleton hmsgs
      simp only [Message.Framed, if_neg hsize] at hf
      omega

end Reader

namespace Link

def Coherent (L : HeaderLayout T) (l : Link T) (msgs : List (Message T)) : Prop :=
  ∃ taken, Reader.After L taken l.reader ∧ wires L msgs = taken ++ l.stream ++ l.writer.pending L

theorem coherent_initial (L : HeaderLayout T) : Coherent L {} [] := ⟨[], .start, rfl⟩

theorem Coherent.step {L : HeaderLayout T} {l : Link T} {msgs : List (Message T)}
    (h : Coherent L l msgs) (e : Event T) : Coherent L (step L l e) (msgs ++ sent [e]) := by
  obtain ⟨taken, hr, hw⟩ := h
  cases e with
  | send msg =>
    refine ⟨taken, hr, ?_⟩
    have hsnoc : wires L (msgs ++ [msg]) = wires L msgs ++ msg.wire L := by simp [wires]
    change wires L (msgs ++ [msg]) = taken ++ l.stream ++ (l.writer.send msg).pending L
    rw [hsnoc, hw, Writer.pending_send, List.append_assoc (taken ++ l.stream)]
  | complete c =>
    have hsent : sent [Event.complete c] = ([] : List (Message T)) := rfl
    rw [hsent, List.append_nil]
    cases c with
    | written =>
      refine ⟨taken, hr, ?_⟩
      rw [hw, Writer.pending_written]
      simp [Link.step]
    | read =>
      obtain ⟨taken', hr', htaken⟩ := hr.read hw
      exact ⟨taken', hr', by rw [hw, htaken]; rfl⟩

theorem sent_append (es es' : List (Event T)) : sent (es ++ es') = sent es ++ sent es' :=
  List.filterMap_append

theorem Coherent.run {L : HeaderLayout T} {l : Link T} {msgs : List (Message T)}
    (h : Coherent L l msgs) (es : List (Event T)) :
    Coherent L (Run.run (Link.step L) l es) (msgs ++ sent es) := by
  induction es generalizing l msgs with
  | nil => simpa [sent, Run.run] using h
  | cons e es ih =>
    have := ih (h.step e)
    rwa [List.append_assoc, ← sent_append] at this

theorem sent_complete (cs : List Completion) :
    sent (cs.map .complete) = ([] : List (Message T)) := by
  induction cs with
  | nil => rfl
  | cons c cs ih => exact ih

def writes (w : Writer T) : ℕ :=
  2 * w.qMessagesOut.length - if w.writing = some .body then 1 else 0

def reads (r : Reader T) : ℕ :=
  match r.reading with
  | some .header => 2
  | some .body => 1
  | none => 0

theorem writes_writeHeader (q : List (Message T)) : writes (.writeHeader q) = 2 * q.length := by
  unfold Writer.writeHeader writes
  split_ifs <;> simp_all

theorem writes_written_lt (L : HeaderLayout T) {w : Writer T} (h : w.qMessagesOut ≠ []) :
    writes (w.written L).1 < writes w := by
  obtain ⟨q, writing, busy⟩ := w
  match writing, q with
  | none, q => exact absurd (busy.mp rfl) h
  | _, [] => exact absurd rfl h
  | some .header, msg :: rest =>
    simp only [Writer.written]
    split_ifs
    · simp [writes]
    · rw [writes_writeHeader]
      simp [writes]
  | some .body, msg :: rest =>
    simp only [Writer.written]
    rw [writes_writeHeader]
    simp [writes]
    omega

theorem reads_headerRead (L : HeaderLayout T) (r : Reader T) (h : MessageHeader T) :
    reads (r.headerRead L h) ≤ 1 := by
  unfold Reader.headerRead
  dsimp only
  split_ifs <;> simp [reads, Reader.addToIncomingMessageQueue]

theorem reads_read_lt (L : HeaderLayout T) {r : Reader T} {stream : List UInt8}
    (h : r.read L stream ≠ (r, stream)) : reads (r.read L stream).1 < reads r := by
  obtain ⟨reading, msg, q⟩ := r
  match reading with
  | none => exact absurd rfl h
  | some .header =>
    simp only [Reader.read] at h ⊢
    split_ifs at h ⊢ with hlt
    · exact absurd rfl h
    · exact Nat.lt_succ_of_le (reads_headerRead ..)
  | some .body =>
    simp only [Reader.read] at h ⊢
    split_ifs at h ⊢ with hlt
    · exact absurd rfl h
    · exact Nat.one_pos

theorem exists_quiescent (L : HeaderLayout T) (l : Link T) :
    ∃ cs : List Completion, Quiescent L (Run.run (step L) l (cs.map .complete)) := by
  by_cases hw : l.writer.qMessagesOut = []
  · by_cases hr : l.reader.read L l.stream = (l.reader, l.stream)
    · exact ⟨[], hw, hr⟩
    · have hlt := reads_read_lt L hr
      obtain ⟨cs, hcs⟩ := exists_quiescent L (step L l (.complete .read))
      exact ⟨.read :: cs, hcs⟩
  · have hlt := writes_written_lt L hw
    obtain ⟨cs, hcs⟩ := exists_quiescent L (step L l (.complete .written))
    exact ⟨.written :: cs, hcs⟩
termination_by writes l.writer + reads l.reader
decreasing_by
  · exact Nat.add_lt_add_left hlt _
  · exact Nat.add_lt_add_right hlt _

theorem delivers_iff_framed (L : HeaderLayout T) (es : List (Event T)) :
    Delivers L es ↔ sent es = [] ∨ ∃ msg, sent es = [msg] ∧ msg.Framed L := by
  have hcoh (cs : List Completion) :
      Coherent L (Run.run (step L) {} (es ++ cs.map .complete)) (sent es) := by
    have := (coherent_initial L).run (es ++ cs.map .complete)
    rwa [List.nil_append, sent_append, sent_complete, List.append_nil] at this
  have hone (cs : List Completion) (hq : Quiescent L (Run.run (step L) {} (es ++ cs.map .complete))) :
      ((Run.run (step L) {} (es ++ cs.map .complete)).reader.qMessagesIn = sent es ∧
        (Run.run (step L) {} (es ++ cs.map .complete)).stream = []) ↔
      sent es = [] ∨ ∃ msg, sent es = [msg] ∧ msg.Framed L := by
    obtain ⟨taken, hr, hw⟩ := hcoh cs
    have hpending := (Run.run (step L) {} (es ++ cs.map .complete)).writer.pending_of_nil L hq.1
    rw [hpending, List.append_nil] at hw
    exact hr.delivered_iff hw hq.2
  obtain ⟨cs, hcs⟩ := exists_quiescent L (Run.run (step L) {} es)
  rw [← Run.run_append] at hcs
  constructor
  · exact fun h => (hone cs hcs).mp (h.2 cs hcs)
  · exact fun h => ⟨⟨cs, hcs⟩, fun cs' hcs' => (hone cs' hcs').mpr h⟩

/-- Of the messages built by `operator<<` and `operator>>`, a connection passes on a single
one with no body, and nothing else. -/
theorem delivers_iff (L : HeaderLayout T) {es : List (Event T)} (hsized : ∀ msg ∈ sent es, msg.Sized) :
    Delivers L es ↔ sent es = [] ∨ ∃ msg, sent es = [msg] ∧ msg.body = [] := by
  rw [delivers_iff_framed]
  refine or_congr_right (exists_congr fun msg => and_congr_right fun hes => ?_)
  exact (hsized msg (hes ▸ List.mem_singleton_self msg)).framed_iff

theorem delivers_bodyless :
    Delivers messageTypesLayout [.send ⟨⟨⟨2⟩, 0⟩, []⟩] :=
  (delivers_iff messageTypesLayout (by decide)).mpr (Or.inr ⟨_, rfl, rfl⟩)

theorem not_delivers_body_or_second :
    ¬ Delivers messageTypesLayout [.send (Message.push ⟨⟨⟨2⟩, 0⟩, []⟩ (List.replicate 12 1))] ∧
      ¬ Delivers messageTypesLayout [.send ⟨⟨⟨2⟩, 0⟩, []⟩, .send ⟨⟨⟨2⟩, 0⟩, []⟩] :=
  ⟨fun h => absurd (h.2 [.written, .written, .read, .read] (by decide)).1 (by decide),
    fun h => absurd (h.2 [.written, .written, .read] (by decide)).1 (by decide)⟩

end Link
end WitcherMP.Networking
