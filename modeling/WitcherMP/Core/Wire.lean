import WitcherMP.Combat.Defs
import WitcherMP.Lib.Layouts
import WitcherMP.Networking.Handlers

/-! The messages that the server sends to the game, and the fields it takes off those it gets. Floats
go by their bits; a health is a whole number that a float holds exactly. -/

namespace WitcherMP.Core
open Combat (Vector4F)
open Messages (MessageTypes)
open scoped WitcherMP.Networking

abbrev Packet := Networking.Message MessageTypes

namespace Types

def requestPlayerData : MessageTypes := ⟨200⟩

def updatePos : MessageTypes := ⟨201⟩

def createPlayer : MessageTypes := ⟨203⟩

def massCreatePlayer : MessageTypes := ⟨204⟩

def setActorHealth : MessageTypes := ⟨207⟩

def createNpc : MessageTypes := ⟨208⟩

def npcDead : MessageTypes := ⟨211⟩

def playerDead : MessageTypes := ⟨212⟩

def chatMessage : MessageTypes := ⟨214⟩

end Types

def isZero (bits : UInt32) : Bool := bits = 0 ∨ bits = 0x80000000

def null (v : Vector4F) : Bool := isZero v.x && isZero v.y && isZero v.z && isZero v.w

def float (n : ℕ) : UInt32 :=
  if n = 0 then 0 else
  let e := n.log2
  .ofNat ((126 + e) * 2 ^ 23 + n * 2 ^ (23 - e))

example : float 1000 = 0x447A0000 ∧ float 50 = 0x42480000 := by decide +kernel

def vector : Layout Vector4F :=
  (Layout.word32.pair (Layout.word32.pair (Layout.word32.pair Layout.word32))).map
    (fun p => ⟨p.1, p.2.1, p.2.2.1, p.2.2.2⟩) (fun v => (v.x, v.y, v.z, v.w))
    (fun _ => rfl) (fun _ => rfl)

abbrev Record := UInt32 × Vector4F × UInt8

def record : Layout Record := Layout.word32.pair (vector.pair Layout.byte)

namespace Packet
variable {α : Type}

def empty (id : MessageTypes) : Packet := { header := { id := id } }

def put (l : Layout α) (msg : Packet) (a : α) : Packet := msg.push (l.write a)

def take (l : Layout α) (msg : Packet) : Option (α × Packet) :=
  if l.width ≤ msg.size then
    let (data, rest) := msg.pull l.width
    some (l.read data, rest)
  else none

def putBool (msg : Packet) (b : Bool) : Packet := put .byte msg (if b then 1 else 0)

def putRecord (msg : Packet) (r : Record) : Packet :=
  put .byte (put vector (put .word32 msg r.1) r.2.1) r.2.2

def requestPlayerData : Packet := empty Types.requestPlayerData

def updatePos (id : UInt32) (pos : Vector4F) (moveType : UInt8) : Packet :=
  putRecord (empty Types.updatePos) (id, pos, moveType)

def createPlayer (id : UInt32) (pos : Vector4F) (characterId : UInt8) : Packet :=
  putRecord (empty Types.createPlayer) (id, pos, characterId)

def setActorHealth (id : UInt32) (isPlayer : Bool) (curr max : ℕ) : Packet :=
  put .word32 (put .word32 (putBool (put .word32 (empty Types.setActorHealth) id) isPlayer)
    (float curr)) (float max)

def createNpc (id resId : UInt32) (pos : Vector4F) (health : ℕ) : Packet :=
  put .word32 (put vector (put .word32 (put .word32 (empty Types.createNpc) id) resId) pos)
    (float health)

def npcDead (id : UInt32) : Packet := put .word32 (empty Types.npcDead) id

def playerDead : Packet := empty Types.playerDead

def chatMessage (playerId : UInt32) (chars : List UInt8) : Packet :=
  chars.foldl (put .byte) (put .word32 (empty Types.chatMessage) playerId)

def sendPlayerData (pos : Vector4F) (characterId : UInt8) : Packet :=
  put .byte (put vector (empty Networking.Types.sendPlayerData) pos) characterId

def notifyPlayerPosChange (pos : Vector4F) (moveType : UInt8) : Packet :=
  put .byte (put vector (empty Networking.Types.notifyPlayerPosChange) pos) moveType

def hitNpc (id : UInt32) : Packet := put .word32 (empty Networking.Types.hitNpc) id

def records (msg : Packet) : List Record :=
  if msg.header.id = Types.updatePos ∨ msg.header.id = Types.createPlayer ∨
      msg.header.id = Types.massCreatePlayer then
    record.readMany (msg.size / record.width) msg.body
  else []

def created (msg : Packet) : List Record :=
  if msg.header.id = Types.updatePos then [] else msg.records

@[simp] theorem id_put (l : Layout α) (msg : Packet) (a : α) :
    (put l msg a).header.id = msg.header.id := rfl

@[simp] theorem body_put (l : Layout α) (msg : Packet) (a : α) :
    (put l msg a).body = msg.body ++ l.write a := rfl

@[simp] theorem body_putRecord (msg : Packet) (r : Record) :
    (putRecord msg r).body = msg.body ++ record.write r := by
  simp only [putRecord, body_put, List.append_assoc]
  rfl

theorem take_put (l : Layout α) {msg : Packet} (h : msg.Sized) (a : α) :
    take l (put l msg a) = some (a, msg) := by
  have hsize : (put l msg a).size = msg.body.length + l.width := by
    rw [Networking.Message.size, body_put, List.length_append, l.length_write]
  have hfront : (put l msg a).body.length - l.width = msg.body.length := by
    rw [← Networking.Message.size, hsize, Nat.add_sub_cancel]
  have hread : l.read (l.write a) = a := by
    have := l.read_write a []
    rwa [List.append_nil] at this
  have hback : ({ header := { msg.header with size := .ofNat msg.body.length }, body := msg.body } :
      Packet) = msg := by
    rw [Networking.Message.Sized, Networking.Message.size] at h
    rw [← h]
  rw [take, if_pos (by rw [hsize]; exact Nat.le_add_left _ _), Networking.Message.pull]
  dsimp only
  rw [hfront, body_put, List.drop_left, List.take_left, hread]
  exact congrArg (fun m => some (a, m)) hback

theorem readMany_records (rs : List Record) :
    record.readMany ((rs.flatMap record.write).length / record.width) (rs.flatMap record.write) = rs := by
  have h := record.readMany_flatMap rs []
  rw [List.append_nil] at h
  rw [record.length_flatMap_write, Nat.mul_div_cancel _ (by decide), h]

theorem records_putRecord {id : MessageTypes} (h : id = Types.updatePos ∨ id = Types.createPlayer)
    (r : Record) : (putRecord (empty id) r).records = [r] := by
  have hbody : (putRecord (empty id) r).body = [r].flatMap record.write := by
    rw [body_putRecord, List.flatMap_singleton]
    rfl
  have hid : (putRecord (empty id) r).header.id = id := rfl
  rw [records, hid, if_pos (h.imp_right .inl), Networking.Message.size, hbody, readMany_records]

end Packet
end WitcherMP.Core
