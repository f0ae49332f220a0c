import WitcherMP.Lib.Run

/-! Connecting to a server by its address. What the socket calls yield are inputs, and the thread that
is started with a connection is a caller of `receiveData` like any other; the calls of the callback and
of `send` are recorded, log lines left out. -/

namespace WitcherMP.Networking

structure IPConnection where
  isConnected : Bool := false
  shouldStop : Bool := false
  serverIP : String := ""
  serverPort : UInt16 := 0
  username : String := ""
  connectionSocket : Bool := false
  reported : List (Bool × String) := []
  sent : List String := []
deriving DecidableEq

namespace IPConnection

def sendData (c : IPConnection) (data : String) (written : Bool) : Bool × IPConnection :=
  if ¬ c.isConnected ∨ ¬ c.connectionSocket then (false, c)
  else (written, { c with sent := c.sent ++ [data] })

def sendConnectionRequest (c : IPConnection) (written : Bool) : Bool × IPConnection :=
  c.sendData ("WITCHER3_MP_CONNECT|" ++ c.username ++ "|" ++ toString c.serverPort.toNat) written

def report (c : IPConnection) (success : Bool) (message : String) : Bool × IPConnection :=
  (success, { c with reported := c.reported ++ [(success, message)] })

/-- `opened`, `connected` and `written` are the answers of `socket`, `connect` and `send`. -/
def openConnection (c : IPConnection) (opened connected written : Bool) : Bool × IPConnection :=
  if ¬ opened then { c with connectionSocket := false }.report false "Failed to create socket"
  else if ¬ connected then { c with connectionSocket := false }.report false "Connection failed"
  else
    let requested := { c with connectionSocket := true }.sendConnectionRequest written
    if ¬ requested.1 then
      { requested.2 with connectionSocket := false }.report false "Failed to send connection request"
    else { requested.2 with isConnected := true }.report true "Connected successfully"

def connectToServer (c : IPConnection) (ip : String) (port : UInt16) (username : String)
    (opened connected written : Bool) : Bool × IPConnection :=
  if c.isConnected then (false, c)
  else
    { c with
      serverIP := ip
      serverPort := port
      username := username
      shouldStop := false }.openConnection opened connected written

def disconnect (c : IPConnection) : IPConnection :=
  if ¬ c.isConnected then c
  else { c with shouldStop := true, isConnected := false, connectionSocket := false }

/-- What `recv` brings: the text goes up to the first null character. -/
inductive Received
  | failed | ended
  | bytes (text : String)

def receiveData (c : IPConnection) (received : Received) : String × IPConnection :=
  if ¬ c.isConnected ∨ ¬ c.connectionSocket then ("", c)
  else
    match received with
    | .failed => ("", c)
    | .ended => ("", c.disconnect)
    | .bytes text => (text, c)

inductive Op
  | connectToServer (ip : String) (port : UInt16) (username : String)
      (opened connected written : Bool)
  | sendData (data : String) (written : Bool)
  | receiveData (received : Received)
  | disconnect

def step (c : IPConnection) : Op → IPConnection
  | .connectToServer ip port username opened connected written =>
    (c.connectToServer ip port username opened connected written).2
  | .sendData data written => (c.sendData data written).2
  | .receiveData received => (c.receiveData received).2
  | .disconnect => c.disconnect

/-- The caller is told that the call failed, and gets nothing. -/
def Refused (c : IPConnection) : Op → Prop
  | .connectToServer ip port username opened connected written =>
    (c.connectToServer ip port username opened connected written).1 = false
  | .sendData data written => (c.sendData data written).1 = false
  | .receiveData received => (c.receiveData received).1 = ""
  | .disconnect => True

def reason (opened connected : Bool) : String :=
  if ¬ opened then "Failed to create socket"
  else if ¬ connected then "Connection failed"
  else "Failed to send connection request"

def refusal (_ : IPConnection) : Op → Option (Bool × String)
  | .connectToServer _ _ _ opened connected _ => some (false, reason opened connected)
  | _ => none

structure Apart (told : List (Bool × String)) (c : IPConnection) : Prop where
  isConnected : c.isConnected = false
  connectionSocket : c.connectionSocket = false
  reported : c.reported = told
  sent : c.sent = []

section Steps
variable {c : IPConnection} {told : List (Bool × String)}

theorem sendData_of_apart (h : c.isConnected = false) (data : String) (written : Bool) :
    c.sendData data written = (false, c) :=
  if_pos (.inl fun hconnected => Bool.false_ne_true (h.symm.trans hconnected))

theorem openConnection_of_apart (h : c.isConnected = false) (opened connected written : Bool) :
    c.openConnection opened connected written =
      { c with connectionSocket := false }.report false (reason opened connected) := by
  have hrequest : { c with connectionSocket := true }.sendConnectionRequest written =
      (false, { c with connectionSocket := true }) :=
    sendData_of_apart (c := { c with connectionSocket := true }) h _ written
  cases opened with
  | false => rfl
  | true =>
    cases connected with
    | false => rfl
    | true =>
      rw [openConnection, hrequest]
      rfl

theorem connectToServer_of_apart (h : c.isConnected = false) (ip : String) (port : UInt16)
    (username : String) (opened connected written : Bool) :
    c.connectToServer ip port username opened connected written =
      { c with
        serverIP := ip
        serverPort := port
        username := username
        shouldStop := false
        connectionSocket := false }.report false (reason opened connected) := by
  rw [connectToServer, if_neg fun hconnected => Bool.false_ne_true (h.symm.trans hconnected)]
  refine (openConnection_of_apart ?_ opened connected written).trans rfl
  exact h

theorem Apart.step (h : Apart told c) (op : Op) :
    Refused c op ∧ Apart (told ++ (refusal c op).toList) (step c op) := by
  have happart : ¬ c.isConnected = true := fun hconnected =>
    Bool.false_ne_true (h.isConnected.symm.trans hconnected)
  have hsame : Apart (told ++ []) c := (List.append_nil told).symm ▸ h
  cases op with
  | connectToServer ip port username opened connected written =>
    rw [Refused, IPConnection.step, connectToServer_of_apart h.isConnected]
    exact ⟨rfl, h.isConnected, rfl, congrArg (· ++ _) h.reported, h.sent⟩
  | sendData data written =>
    rw [Refused, IPConnection.step, sendData_of_apart h.isConnected]
    exact ⟨rfl, hsame⟩
  | receiveData received =>
    have hnothing : c.receiveData received = ("", c) := if_pos (.inl happart)
    rw [Refused, IPConnection.step, hnothing]
    exact ⟨rfl, hsame⟩
  | disconnect =>
    rw [IPConnection.step, IPConnection.disconnect, if_pos happart]
    exact ⟨trivial, hsame⟩

theorem Apart.run (h : Apart told c) (ops : List Op) :
    Run.Along IPConnection.step Refused c ops ∧
      Apart (told ++ Run.gather IPConnection.step refusal c ops) (Run.run IPConnection.step c ops) := by
  induction ops generalizing c told with
  | nil => exact ⟨trivial, (List.append_nil told).symm ▸ h⟩
  | cons op ops ih =>
    obtain ⟨hrefused, hnext⟩ := h.step op
    obtain ⟨hall, hend⟩ := ih hnext
    rw [Run.gather, ← List.append_assoc]
    exact ⟨⟨hrefused, hall⟩, hend⟩

end Steps

/-- Over every run, whatever the network does, no call connects, sends or receives: each attempt ends
with its socket closed, and the callback is told the reason of each, in order. -/
theorem connects_never (ops : List Op) :
    Run.Along step Refused {} ops ∧
      Apart (Run.gather step refusal {} ops) (Run.run step {} ops) :=
  Apart.run ⟨rfl, rfl, rfl, rfl⟩ ops

end IPConnection
end WitcherMP.Networking
