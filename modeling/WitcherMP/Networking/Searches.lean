import WitcherMP.Networking.Discovery
import WitcherMP.Lib.Firsts
import WitcherMP.Lib.Loops

/-! The search for servers: what the caller does to the flags and the thread, and what the thread does
to the list under its lock. A stop waits for the thread, so that it comes before or after each answer;
a thread object that still has a thread to be joined must not get another, which ends the program.
The destruction of the object, which shuts it down and ends the program if a thread is not joined then,
is no call of a run. What the sockets yield and what a ping takes are inputs; callbacks are recorded, log
lines left out. -/

namespace WitcherMP.Networking
open LANDiscovery

structure Response where
  text : String
  ip : String
  port : UInt16
  ping : UInt32
deriving DecidableEq

/-- The state of the thread object: one that has run to its end can still be joined. -/
inductive DiscoveryThread
  | none | running | finished
deriving DecidableEq

structure LANDiscovery where
  isDiscovering : Bool := false
  shouldStop : Bool := false
  discoverySocket : Bool := false
  discoveryThread : DiscoveryThread := .none
  discoveredServers : List ServerInfo := []
  /-- The calls of the two callbacks. -/
  discovered : List ServerInfo := []
  finished : ℕ := 0
deriving DecidableEq

namespace LANDiscovery

def initializeDiscovery (s : LANDiscovery) (opened : Bool) : LANDiscovery :=
  { s with discoverySocket := opened }

def startDiscovery (s : LANDiscovery) : Option LANDiscovery :=
  if s.isDiscovering then some s
  else
    let s := { s with shouldStop := false, isDiscovering := true, discoveredServers := [] }
    if s.discoveryThread = .none then some { s with discoveryThread := .running } else none

def stopDiscovery (s : LANDiscovery) : LANDiscovery :=
  if ¬ s.isDiscovering then s
  else
    { s with
      shouldStop := true
      isDiscovering := false
      discoveryThread := .none
      finished := s.finished + 1 }

def shutdown (s : LANDiscovery) : LANDiscovery := { s.stopDiscovery with discoverySocket := false }

/-- The port that the answer names gives way to the one it was sent from. -/
def serverInfo (r : Response) : Option ServerInfo :=
  let parsed := parseServerResponse r.text {}
  if parsed.1 then some { parsed.2 with ip := r.ip, port := r.port, ping := r.ping } else none

def listen (s : LANDiscovery) (r : Response) : LANDiscovery :=
  match serverInfo r with
  | none => s
  | some serverInfo =>
    if s.discoveredServers.any fun server => server.ip = serverInfo.ip ∧ server.port = serverInfo.port
    then s
    else
      { s with
        discoveredServers := s.discoveredServers ++ [serverInfo]
        discovered := s.discovered ++ [serverInfo] }

inductive Op
  | initializeDiscovery (opened : Bool)
  | shutdown
  | startDiscovery
  | stopDiscovery
  | refreshServers
  /-- An answer gets to the thread. -/
  | response (r : Response)
  /-- The thread has reached its time. -/
  | timeout
deriving DecidableEq

def step (s : LANDiscovery) : Op → Option LANDiscovery
  | .initializeDiscovery opened => some (s.initializeDiscovery opened)
  | .shutdown => some s.shutdown
  | .startDiscovery => s.startDiscovery
  | .stopDiscovery => some s.stopDiscovery
  | .refreshServers => s.startDiscovery
  | .response r =>
    some (if s.discoveryThread = .running ∧ ¬ s.shouldStop ∧ s.discoverySocket then s.listen r else s)
  | .timeout =>
    some (if s.discoveryThread = .running then
      { s with isDiscovering := false, discoveryThread := .finished } else s)

def address (server : ServerInfo) : String × UInt16 := (server.ip, server.port)

end LANDiscovery

inductive Phase
  | idle
  | searching (heard : List ServerInfo)
  | expired (heard : List ServerInfo)
deriving DecidableEq

structure Searches where
  phase : Phase := .idle
  listening : Bool := false
  /-- What the searches heard that were stopped. -/
  stopped : List (List ServerInfo) := []
deriving DecidableEq

namespace Searches

def start (a : Searches) : Option Searches :=
  match a.phase with
  | .idle => some { a with phase := .searching [] }
  | .searching _ => some a
  | .expired _ => none

def stop (a : Searches) : Searches :=
  match a.phase with
  | .searching heard => { a with phase := .idle, stopped := a.stopped ++ [heard] }
  | _ => a

def hear (a : Searches) (r : Response) : Searches :=
  match a.phase with
  | .searching heard =>
    if a.listening then { a with phase := .searching (heard ++ (serverInfo r).toList) } else a
  | _ => a

def timeout (a : Searches) : Searches :=
  match a.phase with
  | .searching heard => { a with phase := .expired heard }
  | _ => a

def step (a : Searches) : LANDiscovery.Op → Option Searches
  | .initializeDiscovery opened => some { a with listening := opened }
  | .shutdown => some { a.stop with listening := false }
  | .startDiscovery => a.start
  | .stopDiscovery => some a.stop
  | .refreshServers => a.start
  | .response r => some (a.hear r)
  | .timeout => some a.timeout

def heard : Phase → Option (List ServerInfo)
  | .idle => none
  | .searching heard => some heard
  | .expired heard => some heard

/-- Of each search, the first answer from each address. -/
def found (a : Searches) : List (List ServerInfo) :=
  (a.stopped ++ (heard a.phase).toList).map (firsts address)

def isDiscovering : Phase → Bool
  | .searching _ => true
  | _ => false

def discoveryThread : Phase → DiscoveryThread
  | .idle => .none
  | .searching _ => .running
  | .expired _ => .finished

def toLANDiscovery (a : Searches) : LANDiscovery where
  isDiscovering := isDiscovering a.phase
  shouldStop := a.phase = .idle ∧ a.stopped ≠ []
  discoverySocket := a.listening
  discoveryThread := discoveryThread a.phase
  discoveredServers := a.found.getLastD []
  discovered := a.found.flatten
  finished := a.stopped.length

section Steps
variable {a : Searches}

theorem listen_of_none {s : LANDiscovery} {r : Response} (h : serverInfo r = none) : s.listen r = s := by
  rw [LANDiscovery.listen, h]

theorem listen_of_some {s : LANDiscovery} {r : Response} {server : ServerInfo}
    (h : serverInfo r = some server) :
    s.listen r = if address server ∈ s.discoveredServers.map address then s else
      { s with
        discoveredServers := s.discoveredServers ++ [server]
        discovered := s.discovered ++ [server] } := by
  rw [LANDiscovery.listen, h]
  refine if_congr ?_ rfl rfl
  simp [address, List.any_eq_true, Prod.ext_iff]

theorem toLANDiscovery_searching {answers : List ServerInfo} (h : a.phase = .searching answers) :
    a.toLANDiscovery = {
      isDiscovering := true
      shouldStop := false
      discoverySocket := a.listening
      discoveryThread := .running
      discoveredServers := firsts address answers
      discovered := (a.stopped.map (firsts address)).flatten ++ firsts address answers
      finished := a.stopped.length } := by
  simp [toLANDiscovery, found, h, heard, isDiscovering, discoveryThread]

theorem startDiscovery_toLANDiscovery (a : Searches) :
    a.toLANDiscovery.startDiscovery = a.start.map toLANDiscovery := by
  cases h : a.phase with
  | idle =>
    simp [startDiscovery, start, toLANDiscovery, found, h, heard, isDiscovering, discoveryThread, firsts]
  | searching answers => simp [startDiscovery, start, h, toLANDiscovery_searching h]
  | expired answers =>
    simp [startDiscovery, start, toLANDiscovery, h, isDiscovering, discoveryThread]

theorem stopDiscovery_toLANDiscovery (a : Searches) :
    a.toLANDiscovery.stopDiscovery = a.stop.toLANDiscovery := by
  cases h : a.phase with
  | idle => simp [stopDiscovery, stop, toLANDiscovery, h, isDiscovering]
  | searching answers =>
    simp [stopDiscovery, stop, toLANDiscovery, found, h, heard, isDiscovering, discoveryThread]
  | expired answers => simp [stopDiscovery, stop, toLANDiscovery, h, isDiscovering]

theorem response_toLANDiscovery (a : Searches) (r : Response) :
    a.toLANDiscovery.step (.response r) = some (a.hear r).toLANDiscovery := by
  rw [LANDiscovery.step]
  congr 1
  cases h : a.phase with
  | idle => simp [toLANDiscovery, hear, h, discoveryThread]
  | searching answers =>
    cases hlisten : a.listening with
    | false => simp [toLANDiscovery_searching h, hear, h, hlisten]
    | true =>
      have hnext : (a.hear r).phase = .searching (answers ++ (serverInfo r).toList) := by
        rw [hear, h]
        exact congrArg Searches.phase (if_pos hlisten)
      have hrest : (a.hear r).stopped = a.stopped ∧ (a.hear r).listening = a.listening := by
        rw [hear, h]
        dsimp only
        rw [if_pos hlisten]
        exact ⟨rfl, rfl⟩
      rw [toLANDiscovery_searching h, toLANDiscovery_searching hnext, hrest.1, hrest.2, hlisten,
        if_pos ⟨rfl, Bool.false_ne_true, rfl⟩]
      cases hserver : serverInfo r with
      | none => rw [listen_of_none hserver, Option.toList_none, List.append_nil]
      | some server =>
        rw [listen_of_some hserver, Option.toList_some, Firsts.firsts_concat]
        by_cases hknown : address server ∈ answers.map address
        · rw [if_pos (Firsts.mem_map_firsts.mpr hknown), if_pos hknown, List.append_nil]
        · rw [if_neg (Firsts.mem_map_firsts.not.mpr hknown), if_neg hknown, List.append_assoc]
  | expired answers => simp [toLANDiscovery, hear, h, discoveryThread]

theorem timeout_toLANDiscovery (a : Searches) :
    a.toLANDiscovery.step .timeout = some a.timeout.toLANDiscovery := by
  cases h : a.phase with
  | idle => simp [LANDiscovery.step, timeout, toLANDiscovery, h, discoveryThread]
  | searching answers =>
    simp [LANDiscovery.step, timeout, toLANDiscovery, found, h, heard, isDiscovering, discoveryThread]
  | expired answers => simp [LANDiscovery.step, timeout, toLANDiscovery, h, discoveryThread]

theorem step_toLANDiscovery (a : Searches) (op : Op) :
    a.toLANDiscovery.step op = (a.step op).map toLANDiscovery := by
  cases op with
  | initializeDiscovery opened => rfl
  | shutdown =>
    rw [LANDiscovery.step, shutdown, stopDiscovery_toLANDiscovery]
    rfl
  | startDiscovery => exact a.startDiscovery_toLANDiscovery
  | stopDiscovery => exact congrArg some a.stopDiscovery_toLANDiscovery
  | refreshServers => exact a.startDiscovery_toLANDiscovery
  | response r => exact a.response_toLANDiscovery r
  | timeout => exact a.timeout_toLANDiscovery

theorem runs_toLANDiscovery (a : Searches) (ops : List Op) :
    Loops.runs LANDiscovery.step a.toLANDiscovery ops = (Loops.runs step a ops).map toLANDiscovery :=
  Loops.runs_map toLANDiscovery step_toLANDiscovery a ops

end Steps

/-- Over every run the code is in the state of the searches: the list holds the first answer from each
address since the last start, in the order in which they came, the one callback has been told of
each found in any search, once a search, and the other of each search that was stopped. -/
theorem searches_run (ops : List Op) :
    Loops.runs LANDiscovery.step {} ops = (Loops.runs step {} ops).map toLANDiscovery :=
  runs_toLANDiscovery {} ops

def Starts (op : Op) : Prop := op = .startDiscovery ∨ op = .refreshServers

section Ends
variable {a : Searches} {answers : List ServerInfo}

theorem step_of_starts (h : a.phase = .expired answers) {op : Op} (hop : Starts op) : a.step op = none := by
  rcases hop with rfl | rfl <;> rw [step, start, h]

theorem step_of_over (h : a.phase = .expired answers) {op : Op} (hop : ¬ Starts op) :
    ∃ a', a.step op = some a' ∧ a'.phase = .expired answers := by
  cases op with
  | initializeDiscovery opened => exact ⟨_, rfl, h⟩
  | shutdown => exact ⟨_, rfl, by simp [stop, h]⟩
  | startDiscovery => exact absurd (.inl rfl) hop
  | stopDiscovery => exact ⟨_, rfl, by simp [stop, h]⟩
  | refreshServers => exact absurd (.inr rfl) hop
  | response r => exact ⟨_, rfl, by simp [hear, h]⟩
  | timeout => exact ⟨_, rfl, by simp [timeout, h]⟩

theorem runs_of_over (h : a.phase = .expired answers) (ops : List Op) :
    Loops.runs step a ops = none ↔ ∃ op ∈ ops, Starts op := by
  induction ops generalizing a with
  | nil => simp [Loops.runs]
  | cons op ops ih =>
    by_cases hop : Starts op
    · exact iff_of_true (by rw [Loops.runs, step_of_starts h hop]; rfl) ⟨op, List.mem_cons_self, hop⟩
    · obtain ⟨a', hstep, hover⟩ := step_of_over h hop
      rw [Loops.runs, hstep, Option.bind_some, ih hover]
      simp [hop]

theorem step_of_not_over (h : ∀ answers, a.phase ≠ .expired answers) (op : Op) :
    ∃ a', a.step op = some a' ∧
      ((∀ answers, a'.phase ≠ .expired answers) ∨
        op = .timeout ∧ isDiscovering a.phase = true ∧ ∃ answers, a'.phase = .expired answers) := by
  cases hphase : a.phase with
  | idle =>
    cases op <;>
      exact ⟨_, by simp only [step, start, hphase]; rfl, .inl (by simp [stop, hear, timeout, hphase])⟩
  | searching answers =>
    cases op with
    | timeout => exact ⟨_, rfl, .inr ⟨rfl, rfl, answers, by simp [timeout, hphase]⟩⟩
    | response r =>
      refine ⟨_, rfl, .inl ?_⟩
      rw [hear, hphase]
      dsimp only
      split_ifs
      · exact fun answers h => by cases h
      · exact h
    | _ => exact ⟨_, by simp only [step, start, hphase]; rfl, .inl (by simp [stop, hphase])⟩
  | expired answers => exact absurd hphase (h answers)

theorem split_of_runs_eq_none (h : ∀ answers, a.phase ≠ .expired answers) {ops : List Op}
    (hnone : Loops.runs step a ops = none) :
    ∃ pre mid post op a', ops = pre ++ .timeout :: mid ++ op :: post ∧ Starts op ∧
      Loops.runs step a pre = some a' ∧ isDiscovering a'.phase = true := by
  induction ops generalizing a with
  | nil => cases hnone
  | cons op ops ih =>
    obtain ⟨a', hstep, hnext | ⟨rfl, hsearching, answers, hover⟩⟩ := step_of_not_over h op
    · rw [Loops.runs, hstep, Option.bind_some] at hnone
      obtain ⟨pre, mid, post, op', a'', rfl, hop', hpre, hsearching⟩ := ih hnext hnone
      exact ⟨op :: pre, mid, post, op', a'', rfl, hop', by rw [Loops.runs, hstep, Option.bind_some, hpre],
        hsearching⟩
    · rw [Loops.runs, hstep, Option.bind_some, runs_of_over hover] at hnone
      obtain ⟨op', hmem, hop'⟩ := hnone
      obtain ⟨mid, post, rfl⟩ := List.append_of_mem hmem
      exact ⟨[], mid, post, op', a, rfl, hop', rfl, hsearching⟩

theorem runs_eq_none_of_split {a' : Searches} {pre mid post : List Op} {op : Op} (hop : Starts op)
    (hpre : Loops.runs step a pre = some a') (hsearching : isDiscovering a'.phase = true) :
    Loops.runs step a (pre ++ .timeout :: mid ++ op :: post) = none := by
  obtain ⟨answers, hphase⟩ : ∃ answers, a'.phase = .searching answers := by
    cases h : a'.phase with
    | searching answers => exact ⟨answers, rfl⟩
    | idle | expired => rw [h] at hsearching; cases hsearching
  have hover : a'.timeout.phase = .expired answers := by rw [timeout, hphase]
  rw [List.append_assoc, Loops.runs_append, hpre, Option.bind_some, List.cons_append, Loops.runs, step,
    Option.bind_some, runs_of_over hover]
  exact ⟨op, List.mem_append_right mid List.mem_cons_self, hop⟩

end Ends

/-- A run ends the program exactly if a search that has come to its time, and so cannot be stopped any
more, is ever followed by another start. -/
theorem runs_eq_none_iff (ops : List Op) :
    Loops.runs LANDiscovery.step {} ops = none ↔
      ∃ pre mid post op s, ops = pre ++ .timeout :: mid ++ op :: post ∧ Starts op ∧
        Loops.runs LANDiscovery.step {} pre = some s ∧ s.isDiscovering = true := by
  have hrun : ∀ ops, Loops.runs LANDiscovery.step {} ops =
      (Loops.runs step {} ops).map toLANDiscovery := runs_toLANDiscovery {}
  rw [hrun, Option.map_eq_none_iff]
  constructor
  · intro hnone
    obtain ⟨pre, mid, post, op, a, hops, hop, hpre, hsearching⟩ :=
      split_of_runs_eq_none (fun answers h => by cases h) hnone
    exact ⟨pre, mid, post, op, a.toLANDiscovery, hops, hop,
      by rw [hrun, hpre, Option.map_some], hsearching⟩
  · rintro ⟨pre, mid, post, op, s, rfl, hop, hpre, hsearching⟩
    rw [hrun] at hpre
    obtain ⟨a, ha, rfl⟩ := Option.map_eq_some_iff.mp hpre
    exact runs_eq_none_of_split hop ha hsearching

end Searches
end WitcherMP.Networking
