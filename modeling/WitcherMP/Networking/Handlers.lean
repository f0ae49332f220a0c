import WitcherMP.Lib.Traced
import WitcherMP.Networking.Defs

/-! The handlers of the client, which take the fields of a message off the end of its body. A
handler works on a copy of the message; a float or a word has four bytes, and how many a string
object has is a parameter. -/

namespace WitcherMP.Networking

open Messages (MessageTypes)

variable {T : Type} [Inhabited T]

def maxBodySize : ℕ := 2 ^ 63 - 1

/-- Growing too far is a `length_error`; the `error` is the size that was asked for. -/
def resize (body : List UInt8) (size : ℕ) : Except ℕ (List UInt8) :=
  if size ≤ body.length then .ok (body.take size)
  else if size > maxBodySize then .error size
  else .ok (body ++ List.replicate (size - body.length) 0)

namespace Message

def extract (msg : Message T) (sizeof : ℕ) : Traced (Except ℕ (List UInt8 × Message T)) := do
  let i := wrapSub msg.body.length sizeof
  let data ← Traced.getRange msg.body i sizeof
  return (resize msg.body i).map fun body =>
    (data, { header := { msg.header with size := .ofNat body.length }, body := body })

def extractAll : List ℕ → Message T → Traced (Except ℕ (List (List UInt8) × Message T))
  | [], msg => return .ok ([], msg)
  | sizeof :: sizes, msg => do
    match ← msg.extract sizeof with
    | .error size => return .error size
    | .ok (data, msg) => do
      let rest ← extractAll sizes msg
      return rest.map fun r => (data :: r.1, r.2)

end Message

namespace Types

def serverPong : MessageTypes := ⟨4⟩

def sendPlayerData : MessageTypes := ⟨202⟩

def notifyPlayerPosChange : MessageTypes := ⟨206⟩

def hitNpc : MessageTypes := ⟨209⟩

def gotHit : MessageTypes := ⟨210⟩

def chatMessage : MessageTypes := ⟨213⟩

def compressionEnabled : MessageTypes := ⟨300⟩

def compressionDisabled : MessageTypes := ⟨301⟩

end Types

structure Witcher3MPClient where
  compressionEnabled : Bool := true
deriving DecidableEq

structure Handled where
  fields : List (List UInt8)
  rest : Message MessageTypes
  client : Witcher3MPClient

namespace Witcher3MPClient

def handle (client : Witcher3MPClient) (sizes : List ℕ) (msg : Message MessageTypes) :
    Traced (Except ℕ Handled) := do
  let extracted ← msg.extractAll sizes
  return extracted.map fun r => ⟨r.1, r.2, client⟩

def processPong (client : Witcher3MPClient) := client.handle []

def processPlayerData (client : Witcher3MPClient) := client.handle []

def processPositionUpdate (client : Witcher3MPClient) := client.handle [4, 4, 4, 4]

def processChatMessage (sizeofString : ℕ) (client : Witcher3MPClient) :=
  client.handle [sizeofString]

def processHitNPC (client : Witcher3MPClient) := client.handle [4]

def processGotHit (client : Witcher3MPClient) := client.handle []

def processMessage (sizeofString : ℕ) (client : Witcher3MPClient) (msg : Message MessageTypes) :
    Traced (Except ℕ Handled) :=
  if msg.header.id = Types.serverPong then client.processPong msg
  else if msg.header.id = Types.sendPlayerData then client.processPlayerData msg
  else if msg.header.id = Types.notifyPlayerPosChange then client.processPositionUpdate msg
  else if msg.header.id = Types.chatMessage then client.processChatMessage sizeofString msg
  else if msg.header.id = Types.hitNpc then client.processHitNPC msg
  else if msg.header.id = Types.gotHit then client.processGotHit msg
  else if msg.header.id = Types.compressionEnabled then
    return .ok ⟨[], msg, { client with compressionEnabled := true }⟩
  else if msg.header.id = Types.compressionDisabled then
    return .ok ⟨[], msg, { client with compressionEnabled := false }⟩
  else return .ok ⟨[], msg, client⟩

end Witcher3MPClient

def expectedSizes (sizeofString : ℕ) (id : MessageTypes) : List ℕ :=
  if id = Types.notifyPlayerPosChange then [4, 4, 4, 4]
  else if id = Types.chatMessage then [sizeofString]
  else if id = Types.hitNpc then [4]
  else []

namespace Message

theorem toOption_extract {msg : Message T} {sizeof : ℕ} (h : sizeof ≤ msg.body.length) :
    (msg.extract sizeof).toOption = some (.ok (msg.pull sizeof)) := by
  have hi : wrapSub msg.body.length sizeof = msg.body.length - sizeof := if_pos h
  have hresize : resize msg.body (msg.body.length - sizeof) =
      .ok (msg.body.take (msg.body.length - sizeof)) := if_pos (Nat.sub_le ..)
  have htake : (msg.body.drop (msg.body.length - sizeof)).take sizeof =
      msg.body.drop (msg.body.length - sizeof) := by
    refine List.take_of_length_le ?_
    rw [List.length_drop]
    omega
  rw [extract, hi, Traced.toOption_bind, Traced.toOption_getRange, if_pos (by omega),
    Option.bind_some, Traced.toOption_pure, hresize, htake]
  rfl

theorem toOption_extract_of_short {msg : Message T} {sizeof : ℕ} (h : msg.body.length < sizeof) :
    (msg.extract sizeof).toOption = none := by
  have hi : wrapSub msg.body.length sizeof = msg.body.length + 2 ^ 64 - sizeof :=
    if_neg (not_le.mpr h)
  rw [extract, hi, Traced.toOption_bind, Traced.toOption_getRange, if_neg (by omega),
    Option.bind_none]

theorem toOption_extractAll {sizes : List ℕ} {msg : Message T}
    (h : sizes.sum ≤ msg.body.length) :
    ∃ fields rest, (msg.extractAll sizes).toOption = some (.ok (fields, rest)) ∧
      rest.body = msg.body.take (msg.body.length - sizes.sum) ∧
      fields.map List.length = sizes := by
  induction sizes generalizing msg with
  | nil => exact ⟨[], msg, Traced.toOption_pure _, by simp, rfl⟩
  | cons sizeof sizes ih =>
    rw [List.sum_cons] at h
    have hpull : (msg.pull sizeof).2.body = msg.body.take (msg.body.length - sizeof) := rfl
    have hlen : (msg.pull sizeof).2.body.length = msg.body.length - sizeof := by
      rw [hpull, List.length_take]
      omega
    have hrest : sizes.sum ≤ (msg.pull sizeof).2.body.length := by omega
    obtain ⟨fields, rest, hall, hbody, hfields⟩ := ih hrest
    refine ⟨(msg.pull sizeof).1 :: fields, rest, ?_, ?_, ?_⟩
    · rw [extractAll, Traced.toOption_bind, toOption_extract (by omega), Option.bind_some]
      dsimp only
      rw [Traced.toOption_bind, hall]
      rfl
    · rw [hbody, hlen, hpull, List.take_take, List.sum_cons]
      congr 1
      omega
    · have hfirst : (msg.pull sizeof).1.length = sizeof := by
        show (msg.body.drop (msg.body.length - sizeof)).length = sizeof
        rw [List.length_drop]
        omega
      rw [List.map_cons, hfirst, hfields]

theorem toOption_extractAll_of_short {sizes : List ℕ} {msg : Message T}
    (h : msg.body.length < sizes.sum) : (msg.extractAll sizes).toOption = none := by
  induction sizes generalizing msg with
  | nil => simp at h
  | cons sizeof sizes ih =>
    rw [List.sum_cons] at h
    rw [extractAll, Traced.toOption_bind]
    by_cases hfirst : sizeof ≤ msg.body.length
    · have hrest : (msg.pull sizeof).2.body.length < sizes.sum := by
        show (msg.body.take (msg.body.length - sizeof)).length < _
        rw [List.length_take]
        omega
      rw [toOption_extract hfirst, Option.bind_some]
      dsimp only
      rw [Traced.toOption_bind, ih hrest, Option.bind_none]
    · rw [toOption_extract_of_short (not_le.mp hfirst), Option.bind_none]

end Message

namespace Witcher3MPClient

/-- No read is outside the body, no size wraps around, and a body that is too short for the fields
is not handled. -/
structure Careful (sizeofString : ℕ) (client : Witcher3MPClient) (msg : Message MessageTypes) :
    Prop where
  inside : (client.processMessage sizeofString msg).Safe
  unwrapped : ∀ size, (client.processMessage sizeofString msg).value ≠ .error size
  rejected : ∀ handled, (client.processMessage sizeofString msg).value = .ok handled →
    handled.rest.body.length + (expectedSizes sizeofString msg.header.id).sum = msg.body.length

theorem toOption_handle (client : Witcher3MPClient) (sizes : List ℕ) (msg : Message MessageTypes) :
    (client.handle sizes msg).toOption =
      (msg.extractAll sizes).toOption.map fun extracted =>
        extracted.map fun r => ⟨r.1, r.2, client⟩ := by
  rw [handle, Traced.toOption_bind]
  cases (msg.extractAll sizes).toOption with
  | none => rfl
  | some extracted => exact Traced.toOption_pure _

theorem processMessage_eq (sizeofString : ℕ) (client : Witcher3MPClient)
    (msg : Message MessageTypes) :
    ∃ client' : Witcher3MPClient,
      (client.processMessage sizeofString msg).toOption =
        (client'.handle (expectedSizes sizeofString msg.header.id) msg).toOption := by
  unfold processMessage
  split
  · next h => exact ⟨client, by rw [h]; rfl⟩
  split
  · next h => exact ⟨client, by rw [h]; rfl⟩
  split
  · next h => exact ⟨client, by rw [h]; rfl⟩
  split
  · next h => exact ⟨client, by rw [h]; rfl⟩
  split
  · next h => exact ⟨client, by rw [h]; rfl⟩
  split
  · next h => exact ⟨client, by rw [h]; rfl⟩
  split
  · next h => exact ⟨{ client with compressionEnabled := true }, by rw [h]; rfl⟩
  split
  · next h => exact ⟨{ client with compressionEnabled := false }, by rw [h]; rfl⟩
  next hposition hchat hhit _ _ _ =>
    have hnone : expectedSizes sizeofString msg.header.id = [] := by
      rw [expectedSizes, if_neg hposition, if_neg hchat, if_neg hhit]
    exact ⟨client, by rw [hnone]; rfl⟩

theorem careful_iff (sizeofString : ℕ) (client : Witcher3MPClient) (msg : Message MessageTypes) :
    Careful sizeofString client msg ↔
      (expectedSizes sizeofString msg.header.id).sum ≤ msg.body.length := by
  obtain ⟨client', heq⟩ := processMessage_eq sizeofString client msg
  rw [toOption_handle] at heq
  constructor
  · intro h
    by_contra hshort
    rw [Message.toOption_extractAll_of_short (not_le.mp hshort), Option.map_none] at heq
    exact Traced.safe_iff_toOption.mp h.inside heq
  · intro h
    obtain ⟨fields, rest, hall, hbody, -⟩ := Message.toOption_extractAll h
    rw [hall, Option.map_some, Traced.toOption_eq_some_iff] at heq
    obtain ⟨hsafe, hvalue⟩ := heq
    have hok : (client.processMessage sizeofString msg).value = .ok ⟨fields, rest, client'⟩ := hvalue
    refine ⟨hsafe, fun size => ?_, fun handled hhandled => ?_⟩
    · rw [hok]
      exact nofun
    · rw [hok, Except.ok.injEq] at hhandled
      rw [← hhandled, hbody, List.length_take]
      omega

theorem not_careful_hit : ¬ ∀ (sizeofString : ℕ) (client : Witcher3MPClient)
    (msg : Message MessageTypes), Careful sizeofString client msg := by
  intro h
  have hinside := (h 32 {} { header := { id := Types.hitNpc } }).inside
  revert hinside
  decide +kernel

end Witcher3MPClient
end WitcherMP.Networking
