import WitcherMP.Lib.Bytes
import WitcherMP.Lib.Run
import WitcherMP.Messages.Queue

/-! One direction of a connection: the write loop at the one end, the read loop at the other
and the bytes between them. Socket errors and log lines are left out. -/

namespace WitcherMP.Networking

structure MessageHeader (T : Type) [Inhabited T] where
  id : T := default
  size : UInt32 := 0
deriving DecidableEq

/-- How a header lies in memory: `sizeof` bytes, from which it can be read back. -/
structure HeaderLayout (T : Type) [Inhabited T] where
  sizeof : ℕ
  bytes : MessageHeader T → List UInt8
  header : List UInt8 → MessageHeader T
  sizeof_pos : 0 < sizeof
  length_bytes : ∀ h, (bytes h).length = sizeof
  header_bytes : ∀ h, header (bytes h) = h

scoped instance inhabitedMessageTypes : Inhabited Messages.MessageTypes := ⟨⟨0⟩⟩

def messageTypesLayout : HeaderLayout Messages.MessageTypes where
  sizeof := 8
  bytes h := Bytes.le32 h.id.value.toNat ++ Bytes.le32 h.size.toNat
  header bs := ⟨⟨.ofNat (Bytes.readLE32 bs)⟩, .ofNat (Bytes.readLE32 (bs.drop 4))⟩
  sizeof_pos := by decide
  length_bytes _ := rfl
  header_bytes h := by
    have hdrop : (Bytes.le32 h.id.value.toNat ++ Bytes.le32 h.size.toNat).drop 4
        = Bytes.le32 h.size.toNat ++ [] := rfl
    rw [hdrop, Bytes.readLE32_le32, Bytes.readLE32_le32, Nat.mod_eq_of_lt h.id.value.toNat_lt,
      Nat.mod_eq_of_lt h.size.toNat_lt, UInt32.ofNat_toNat, UInt32.ofNat_toNat]

structure Message (T : Type) [Inhabited T] where
  header : MessageHeader T := {}
  body : List UInt8 := []
deriving DecidableEq

variable {T : Type} [Inhabited T]

namespace Message

def size (msg : Message T) : ℕ := msg.body.length

def push (msg : Message T) (data : List UInt8) : Message T :=
  { header := { msg.header with size := .ofNat (msg.body ++ data).length }, body := msg.body ++ data }

def pull (msg : Message T) (n : ℕ) : List UInt8 × Message T :=
  let i := msg.body.length - n
  (msg.body.drop i,
    { header := { msg.header with size := .ofNat (msg.body.take i).length }, body := msg.body.take i })

/-- The header counts the body, in 32 bits. -/
def Sized (msg : Message T) : Prop := msg.header.size = .ofNat msg.size

instance decidableSized [DecidableEq T] (msg : Message T) : Decidable msg.Sized :=
  inferInstanceAs (Decidable (_ = _))

theorem sized_default (id : T) : (⟨⟨id, 0⟩, []⟩ : Message T).Sized := rfl

theorem sized_push (msg : Message T) (data : List UInt8) : (msg.push data).Sized := rfl

theorem sized_pull (msg : Message T) (n : ℕ) : (msg.pull n).2.Sized := rfl

def wire (L : HeaderLayout T) (msg : Message T) : List UInt8 := L.bytes msg.header ++ msg.body

end Message

inductive Writing
  | header | body
deriving DecidableEq

structure Writer (T : Type) [Inhabited T] where
  qMessagesOut : List (Message T)
  writing : Option Writing
  busy : writing = none ↔ qMessagesOut = []
deriving DecidableEq

namespace Writer

def initial : Writer T := ⟨[], none, Iff.intro (fun _ => rfl) (fun _ => rfl)⟩

def writeHeader (q : List (Message T)) : Writer T :=
  ⟨q, if q = [] then none else some .header, by split_ifs <;> simp [*]⟩

def send (w : Writer T) (msg : Message T) : Writer T :=
  let bWritingMessage := w.qMessagesOut ≠ []
  if h : bWritingMessage then
    ⟨w.qMessagesOut ++ [msg], w.writing, by simp [w.busy, show w.qMessagesOut ≠ [] from h]⟩
  else writeHeader [msg]

def written (L : HeaderLayout T) (w : Writer T) : Writer T × List UInt8 :=
  match w.writing, w.qMessagesOut with
  | some .header, msg :: rest =>
    (if msg.body.length > 0 then ⟨msg :: rest, some .body, by simp⟩ else writeHeader rest,
      L.bytes msg.header)
  | some .body, msg :: rest => (writeHeader rest, msg.body)
  | _, _ => (w, [])

end Writer

inductive Reading
  | header | body
deriving DecidableEq

/-- The message being read and the messages read. No read is under way once one has failed to
make room for the body, or when none was started. -/
structure Reader (T : Type) [Inhabited T] where
  reading : Option Reading := some .header
  msgTemporaryIn : Message T := {}
  qMessagesIn : List (Message T) := []
deriving DecidableEq

namespace Reader

/-- It starts no further read. -/
def addToIncomingMessageQueue (r : Reader T) : Reader T where
  reading := none
  msgTemporaryIn := {}
  qMessagesIn := r.qMessagesIn ++ [r.msgTemporaryIn]

def resize (body : List UInt8) (n : ℕ) : List UInt8 :=
  body.take n ++ List.replicate (n - body.length) 0

def headerRead (L : HeaderLayout T) (r : Reader T) (h : MessageHeader T) : Reader T :=
  let msg := { r.msgTemporaryIn with header := h }
  if h.size > 0 then
    -- below zero the difference is a size no vector can have
    if h.size.toNat < L.sizeof then { r with reading := none, msgTemporaryIn := msg }
    else { r with
      reading := some .body
      msgTemporaryIn := { msg with body := resize msg.body (h.size.toNat - L.sizeof) } }
  else addToIncomingMessageQueue { r with msgTemporaryIn := msg }

def read (L : HeaderLayout T) (r : Reader T) (stream : List UInt8) : Reader T × List UInt8 :=
  match r.reading with
  | none => (r, stream)
  | some .header =>
    if stream.length < L.sizeof then (r, stream)
    else (headerRead L r (L.header (stream.take L.sizeof)), stream.drop L.sizeof)
  | some .body =>
    let n := r.msgTemporaryIn.body.length
    if stream.length < n then (r, stream)
    else (addToIncomingMessageQueue
      { r with msgTemporaryIn := { r.msgTemporaryIn with body := stream.take n } }, stream.drop n)

end Reader

structure Link (T : Type) [Inhabited T] where
  writer : Writer T := .initial
  stream : List UInt8 := []
  reader : Reader T := {}
deriving DecidableEq

inductive Completion
  | written | read
deriving DecidableEq

inductive Event (T : Type) [Inhabited T]
  | send (msg : Message T)
  | complete (c : Completion)

namespace Link

def step (L : HeaderLayout T) (l : Link T) : Event T → Link T
  | .send msg => { l with writer := l.writer.send msg }
  | .complete .written =>
    let (writer, bytes) := l.writer.written L
    { l with writer := writer, stream := l.stream ++ bytes }
  | .complete .read =>
    let (reader, stream) := l.reader.read L l.stream
    { l with reader := reader, stream := stream }

def sent (events : List (Event T)) : List (Message T) :=
  events.filterMap fun
    | .send msg => some msg
    | .complete _ => none

def Quiescent (L : HeaderLayout T) (l : Link T) : Prop :=
  l.writer.qMessagesOut = [] ∧ l.reader.read L l.stream = (l.reader, l.stream)

instance decidableQuiescent [DecidableEq T] (L : HeaderLayout T) (l : Link T) :
    Decidable (Quiescent L l) := inferInstanceAs (Decidable (_ ∧ _))

/-- Left to itself after these events the connection comes to rest, and then exactly the
messages sent are in the incoming queue and no byte is unread. -/
def Delivers (L : HeaderLayout T) (events : List (Event T)) : Prop :=
  let after (cs : List Completion) := Run.run (step L) {} (events ++ cs.map .complete)
  (∃ cs, Quiescent L (after cs)) ∧
    ∀ cs, Quiescent L (after cs) →
      (after cs).reader.qMessagesIn = sent events ∧ (after cs).stream = []

end Link
end WitcherMP.Networking
