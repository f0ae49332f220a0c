import WitcherMP.Core.Wire
import WitcherMP.Lib.Loops
import WitcherMP.Lib.Scans

/-! The game server: the lists of players and of creatures, the handlers of the messages and of the
commands, and the main loop. A step that reads through a null pointer, that reads or erases what it
must not, or that does not end has no result. A socket closes between two steps of the main thread;
log lines and the ids of connections are left out. -/

namespace WitcherMP.Core
open Combat (Vector4F)
open Loops (countLoop loop)
open Scans (getlines stoi)
open scoped WitcherMP.Networking

/-- A shared pointer to a connection, by the order in which they are accepted. -/
abbrev Client := ℕ

structure Player where
  id : UInt32
  position : Vector4F
  health : ℕ
  maxHealth : ℕ
  characterId : UInt8
  ownerClient : Client
deriving DecidableEq

def Player.new (id : UInt32) (position : Vector4F) (health : ℕ) (characterId : UInt8)
    (ownerClient : Client) : Player := ⟨id, position, health, health, characterId, ownerClient⟩

structure Npc where
  id : UInt32
  resourceId : UInt32
  position : Vector4F
  health : ℕ
  maxHealth : ℕ
deriving DecidableEq

def Npc.new (id resourceId : UInt32) (position : Vector4F) (health : ℕ) : Npc :=
  ⟨id, resourceId, position, health, health⟩

/-- The server with its lists; `sockets` says which connections are open, and `sent` is what went
out, in order. -/
structure Witcher3MPServer where
  highestPlayerID : UInt32 := 1
  playerList : List (Option Player) := []
  highestNpcID : UInt32 := 1
  npcList : List Npc := []
  sockets : List Bool := []
  deqConnections : List (Option Client) := []
  qMessagesIn : List (Client × Packet) := []
  commandQueue : List (List Char) := []
  sent : List (Client × Packet) := []
deriving DecidableEq

namespace Witcher3MPServer

def isConnected (s : Witcher3MPServer) (client : Client) : Bool := s.sockets.getD client false

def send (s : Witcher3MPServer) (client : Client) (msg : Packet) : Witcher3MPServer :=
  { s with sent := s.sent ++ [(client, msg)] }

def eraseNull (s : Witcher3MPServer) : Witcher3MPServer :=
  { s with deqConnections := s.deqConnections.filter (· ≠ none) }

def messageClientWith (onClientDisconnect : Witcher3MPServer → Client → Option Witcher3MPServer)
    (s : Witcher3MPServer) (client : Client) (msg : Packet) : Option Witcher3MPServer :=
  if s.isConnected client then some (s.send client msg)
  else (onClientDisconnect s client).map eraseNull

/-- `for (auto i : PlayerList)`: each entry is read when the loop gets to it. -/
def forPlayers (body : Witcher3MPServer → Option Player → Option Witcher3MPServer)
    (s : Witcher3MPServer) : Option Witcher3MPServer :=
  loop (fun i s => body s (s.playerList.getD i none)) 0 s.playerList.length s

def setEntry (s : Witcher3MPServer) (i : ℕ) (ply : Option Player) : Witcher3MPServer :=
  { s with playerList := s.playerList.set i ply }

def tellOwner (onClientDisconnect : Witcher3MPServer → Client → Option Witcher3MPServer) (msg : Packet)
    (s : Witcher3MPServer) : Option Player → Option Witcher3MPServer
  | none => some s
  | some i => messageClientWith onClientDisconnect s i.ownerClient msg

def kickEntry (onClientDisconnect : Witcher3MPServer → Client → Option Witcher3MPServer)
    (client : Client) (i : ℕ) (s : Witcher3MPServer) : Option Witcher3MPServer :=
  match s.playerList.getD i none with
  | none => some s
  | some ply =>
    if ply.ownerClient = client then
      forPlayers (tellOwner onClientDisconnect (.updatePos ply.id {} 1)) (s.setEntry i none)
    else some s

/-- Owners whose sockets turn out to be closed are reported on the way. Each level of calls empties
an entry. -/
def onClientDisconnectWith : ℕ → Witcher3MPServer → Client → Option Witcher3MPServer
  | 0, _, _ => none
  | fuel + 1, s, client =>
    countLoop (kickEntry (onClientDisconnectWith fuel) client) s.playerList.length 256 0 s

def onClientDisconnect (s : Witcher3MPServer) (client : Client) : Option Witcher3MPServer :=
  onClientDisconnectWith (s.playerList.length + 1) s client

def messageClient (s : Witcher3MPServer) (client : Client) (msg : Packet) :
    Option Witcher3MPServer := messageClientWith onClientDisconnect s client msg

def visitClient (msg : Packet) (ignore : Option Client) (i : ℕ) (s : Witcher3MPServer) :
    Option Witcher3MPServer :=
  match s.deqConnections.getD i none with
  | none => none
  | some client =>
    if s.isConnected client then
      some (if some client ≠ ignore then s.send client msg else s)
    else
      (s.onClientDisconnect client).bind fun t =>
        -- what is erased meanwhile makes the iterators of the loop invalid
        if t.deqConnections.length = s.deqConnections.length then
          some { t with deqConnections := t.deqConnections.set i none }
        else none

def messageAllClients (s : Witcher3MPServer) (msg : Packet) (ignore : Option Client) :
    Option Witcher3MPServer :=
  (loop (visitClient msg ignore) 0 s.deqConnections.length s).map eraseNull

def onClientConnect (s : Witcher3MPServer) : Witcher3MPServer :=
  let newconn := s.sockets.length
  let s := { s with sockets := s.sockets ++ [true] }
  let s := s.send newconn .requestPlayerData
  { s with deqConnections := s.deqConnections ++ [some newconn] }

def close (s : Witcher3MPServer) (client : Client) : Witcher3MPServer :=
  { s with sockets := s.sockets.set client false }

/-- The first player with a property, and where it is: all entries up to it are read. -/
def search (p : Player → Bool) : List (Option Player) → Option (Option (ℕ × Player))
  | [] => some none
  | none :: _ => none
  | some ply :: rest =>
    if p ply then some (some (0, ply))
    else (search p rest).map (Option.map fun r => (r.1 + 1, r.2))

def ownedBy (client : Client) (ply : Player) : Bool := ply.ownerClient = client

def messageOwner (msg : Packet) (skip : Option Client) (s : Witcher3MPServer) :
    Option Player → Option Witcher3MPServer
  | none => none
  | some i => if some i.ownerClient = skip then some s else s.messageClient i.ownerClient msg

def messageOwners (s : Witcher3MPServer) (msg : Packet) (skip : Option Client) :
    Option Witcher3MPServer := forPlayers (messageOwner msg skip) s

def massCreate : List (Option Player) → Packet → Option Packet
  | [], msg => some msg
  | none :: _, _ => none
  | some i :: rest, msg => massCreate rest (.putRecord msg (i.id, i.position, i.characterId))

def messageMassCreate (s : Witcher3MPServer) (client : Client) : Option Witcher3MPServer :=
  if s.playerList.length ≠ 0 then
    (massCreate s.playerList (.empty Types.massCreatePlayer)).bind (s.messageClient client)
  else some s

def sendPlayerData (s : Witcher3MPServer) (client : Client) (msg : Packet) :
    Option Witcher3MPServer := do
  let (characterId, msg) ← msg.take .byte
  let (recPosition, _) ← msg.take vector
  let newPlyID := s.highestPlayerID
  let s := { s with highestPlayerID := s.highestPlayerID + 1 }
  let s ← s.messageOwners (.createPlayer newPlyID recPosition characterId) (some client)
  let s ← s.messageMassCreate client
  let newPly := Player.new newPlyID recPosition 1000 characterId client
  let s := { s with playerList := s.playerList ++ [some newPly] }
  s.messageClient client (.setActorHealth 0 true 1000 1000)

def notifyPlayerPosChange (s : Witcher3MPServer) (client : Client) (msg : Packet) :
    Option Witcher3MPServer := do
  match ← search (ownedBy client) s.playerList with
  | none => return s
  | some (i, affected) =>
    let (moveType, msg) ← msg.take .byte
    let (newPos, _) ← msg.take vector
    let s := s.setEntry i (some { affected with position := newPos })
    s.messageAllClients (.updatePos affected.id newPos moveType) (some affected.ownerClient)

def setNpc (s : Witcher3MPServer) (i : ℕ) (npc : Npc) : Witcher3MPServer :=
  { s with npcList := s.npcList.set i npc }

def hitHealth (health : ℕ) : ℕ := if health > 50 then health - 50 else 0

def hitNpc (s : Witcher3MPServer) (msg : Packet) : Option Witcher3MPServer := do
  let (id, _) ← msg.take .word32
  match s.npcList.findIdx? (·.id = id) with
  | none => return s
  | some i =>
    let npc ← s.npcList[i]?
    let hit := { npc with health := hitHealth npc.health }
    let s := s.setNpc i hit
    if npc.health > 50 then s.messageOwners (.setActorHealth id false hit.health hit.maxHealth) none
    else s.messageOwners (.npcDead id) none

def gotHit (s : Witcher3MPServer) (client : Client) : Option Witcher3MPServer := do
  match ← search (ownedBy client) s.playerList with
  | none => return s
  | some (i, ply) =>
    if ply.health > 100 then
      let hit := { ply with health := ply.health - 100 }
      (s.setEntry i (some hit)).messageClient client (.setActorHealth 0 true hit.health hit.maxHealth)
    else (s.setEntry i (some { ply with health := ply.maxHealth })).messageClient client .playerDead

def popChars : ℕ → Packet → List UInt8
  | 0, _ => []
  | n + 1, msg =>
    if msg.size ≠ 0 then
      match msg.take .byte with
      | none => []
      | some (ch, msg) => ch :: popChars n msg
    else popChars n msg

def chat (s : Witcher3MPServer) (client : Client) (msg : Packet) : Option Witcher3MPServer := do
  match ← search (ownedBy client) s.playerList with
  | none => return s
  | some (_, ply) =>
    -- they are swapped end for end
    let chatMessage := (popChars 100 msg).reverse
    if chatMessage.length = 0 then return s else
    let s ← s.messageOwners (.chatMessage ply.id chatMessage) (some client)
    s.messageClient client (.chatMessage 0 chatMessage)

def onMessageReceived (s : Witcher3MPServer) (client : Client) (msg : Packet) :
    Option Witcher3MPServer :=
  if msg.header.id = Networking.Types.sendPlayerData then s.sendPlayerData client msg
  else if msg.header.id = Networking.Types.notifyPlayerPosChange then s.notifyPlayerPosChange client msg
  else if msg.header.id = Networking.Types.hitNpc then s.hitNpc msg
  else if msg.header.id = Networking.Types.gotHit then s.gotHit client
  else if msg.header.id = Networking.Types.chatMessage then s.chat client msg
  else some s

def resources : List (String × UInt32) :=
  [("Geralt", 1), ("Yennefer", 2), ("Triss", 3), ("Ciri", 4), ("Dandelion", 5), ("Zoltan", 6),
    ("Vesemir", 7), ("Lambert", 8), ("Eskel", 9), ("Keira", 10), ("Drowner", 100), ("Ghoul", 101),
    ("Wraith", 102), ("Leshen", 103), ("Griffin", 104), ("Wyvern", 105), ("Basilisk", 106),
    ("Cockatrice", 107), ("Golem", 108), ("Elemental", 109), ("Silver_Sword", 200),
    ("Steel_Sword", 201), ("Crossbow", 202), ("Bomb", 203), ("Potion", 204), ("Oil", 205),
    ("Decoction", 206), ("Mutagen", 207), ("Rune", 208), ("Glyph", 209), ("Giant", 242),
    ("Troll", 243), ("Dragon", 244)]

def findResID (name : List Char) : UInt32 :=
  ((resources.find? fun r => r.1.toList = name).map Prod.snd).getD 0

/-- Zero where there are no digits; a number that is no `int` is not provided for. -/
def atoi (s : List Char) : Option ℤ :=
  let signed := Scans.sign (s.dropWhile Scans.isspace)
  if signed.2.takeWhile Char.isDigit = [] then some 0 else stoi s

def newNpcHealth (resID : UInt32) : ℕ :=
  if resID = 243 then 3000 else if resID = 244 then 5000 else if resID = 242 then 10000 else 500

def spawn (s : Witcher3MPServer) (name toPlayer : List Char) : Option Witcher3MPServer := do
  let resID := findResID name
  if resID = 0 then return s else
  let toPlayerID := UInt32.ofInt (← atoi toPlayer)
  let spawnTo := ((← search (·.id = toPlayerID) s.playerList).map (·.2.position)).getD {}
  if null spawnTo then return s else
  let newNpcID := s.highestNpcID
  let health := newNpcHealth resID
  let s := { s with
    highestNpcID := s.highestNpcID + 1
    npcList := s.npcList ++ [Npc.new newNpcID resID spawnTo health] }
  s.messageAllClients (.createNpc newNpcID resID spawnTo health) none

def handleCommand (s : Witcher3MPServer) (command : List Char) : Option Witcher3MPServer :=
  match getlines ' ' command with
  | [first, name, toPlayer] => if first = "spawn".toList then s.spawn name toPlayer else some s
  | _ => some s

def handleCommands (s : Witcher3MPServer) : Option Witcher3MPServer :=
  (countLoop (fun i t => t.handleCommand (s.commandQueue.getD i [])) s.commandQueue.length 256 0 s).map
    fun t => { t with commandQueue := [] }

inductive Phase
  | commands | cleanUp | update
deriving DecidableEq

inductive Event
  | connect
  | close (client : Client)
  | arrive (client : Client) (msg : Packet)
  | command (text : List Char)
  | main
deriving DecidableEq

def mainStep (s : Witcher3MPServer) : Phase → Option (Witcher3MPServer × Phase)
  | .commands => s.handleCommands.map (·, .cleanUp)
  | .cleanUp => some ({ s with playerList := s.playerList.filter (· ≠ none) }, .update)
  | .update =>
    match s.qMessagesIn with
    | [] => some (s, .commands)
    | (client, msg) :: rest =>
      ({ s with qMessagesIn := rest }.onMessageReceived client msg).map (·, .update)

/-- Messages arrive from connections that are open. A connection of the source delivers its first
message only; here any number may come. -/
def step (m : Witcher3MPServer × Phase) : Event → Option (Witcher3MPServer × Phase)
  | .connect => some (m.1.onClientConnect, m.2)
  | .close client => some (m.1.close client, m.2)
  | .arrive client msg =>
    if m.1.isConnected client then
      some ({ m.1 with qMessagesIn := m.1.qMessagesIn ++ [(client, msg)] }, m.2)
    else some m
  | .command text => some ({ m.1 with commandQueue := m.1.commandQueue ++ [text] }, m.2)
  | .main => mainStep m.1 m.2

/-- What a run leads to, if nothing goes wrong on the way. -/
def run (events : List Event) : Option (Witcher3MPServer × Phase) :=
  Loops.runs step ({}, .commands) events

end Witcher3MPServer
end WitcherMP.Core
