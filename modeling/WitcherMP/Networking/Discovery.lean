import WitcherMP.Lib.Scans

/-! Servers in the local network: the answer of a server taken apart. -/

namespace WitcherMP.Networking.LANDiscovery

open Scans

structure ServerInfo where
  name : String := ""
  ip : String := ""
  port : UInt16 := 0
  playerCount : UInt8 := 0
  maxPlayers : UInt8 := 0
  ping : UInt32 := 0
  isPasswordProtected : Bool := false
deriving DecidableEq

def serverResponse : String := "WITCHER3_MP_SERVER_RESPONSE"

def tokens (response : String) : List (List Char) := getlines '|' response.toList

def token (response : String) (i : ℕ) : List Char := (tokens response).getD i []

/-- What is done within the `try`: each field is assigned as soon as its number is read, and the
number is cut down to its type. -/
def assignFields (response : String) (serverInfo : ServerInfo) : Bool × ServerInfo :=
  let serverInfo := { serverInfo with name := .ofList (token response 1) }
  match stoi (token response 2) with
  | none => (false, serverInfo)
  | some port =>
    let serverInfo := { serverInfo with port := .ofInt port }
    match stoi (token response 3) with
    | none => (false, serverInfo)
    | some playerCount =>
      let serverInfo := { serverInfo with playerCount := .ofInt playerCount }
      match stoi (token response 4) with
      | none => (false, serverInfo)
      | some maxPlayers =>
        let serverInfo := { serverInfo with maxPlayers := .ofInt maxPlayers }
        (true, { serverInfo with isPasswordProtected := token response 5 = "true".toList })

def parseServerResponse (response : String) (serverInfo : ServerInfo) : Bool × ServerInfo :=
  if ¬ serverResponse.toList <+: response.toList then (false, serverInfo)
  else if (tokens response).length < 6 then (false, serverInfo)
  else assignFields response serverInfo

structure WellFormed (response : String) (port playerCount maxPlayers : ℕ) : Prop where
  begins : serverResponse.toList <+: response.toList
  fields : 6 ≤ (tokens response).length
  port : decimal (token response 2) = some port ∧ port < 2 ^ 16
  playerCount : decimal (token response 3) = some playerCount ∧ playerCount < 2 ^ 8
  maxPlayers : decimal (token response 4) = some maxPlayers ∧ maxPlayers < 2 ^ 8

structure Parsed (response : String) (serverInfo : ServerInfo) : Prop where
  accepted : (parseServerResponse response serverInfo).1 = true ↔
    ∃ port playerCount maxPlayers, WellFormed response port playerCount maxPlayers
  numbers : ∀ port playerCount maxPlayers, WellFormed response port playerCount maxPlayers →
    let parsed := (parseServerResponse response serverInfo).2
    parsed.port.toNat = port ∧ parsed.playerCount.toNat = playerCount ∧
      parsed.maxPlayers.toNat = maxPlayers
  unchanged : (parseServerResponse response serverInfo).1 = false →
    (parseServerResponse response serverInfo).2 = serverInfo

/-- Some number is missing, and what is assigned before that was there already. -/
def Settled (response : String) (serverInfo : ServerInfo) : Prop :=
  serverInfo.name = .ofList (token response 1) ∧
    (stoi (token response 2) = none ∨
      ∃ port, stoi (token response 2) = some port ∧ serverInfo.port = .ofInt port ∧
        (stoi (token response 3) = none ∨
          ∃ playerCount, stoi (token response 3) = some playerCount ∧
            serverInfo.playerCount = .ofInt playerCount ∧ stoi (token response 4) = none))

theorem WellFormed.scanned {response : String} {port playerCount maxPlayers : ℕ}
    (h : WellFormed response port playerCount maxPlayers) :
    stoi (token response 2) = some (port : ℤ) ∧ stoi (token response 3) = some (playerCount : ℤ) ∧
      stoi (token response 4) = some (maxPlayers : ℤ) :=
  ⟨stoi_of_decimal h.port.1 (h.port.2.trans (by decide)),
    stoi_of_decimal h.playerCount.1 (h.playerCount.2.trans (by decide)),
    stoi_of_decimal h.maxPlayers.1 (h.maxPlayers.2.trans (by decide))⟩

def written (name : String) (port playerCount maxPlayers : ℕ) (password : String) : String :=
  serverResponse ++ "|" ++ name ++ "|" ++ toString port ++ "|" ++ toString playerCount ++ "|" ++
    toString maxPlayers ++ "|" ++ password

theorem delim_notMem_toString (n : ℕ) : '|' ∉ (toString n).toList := by
  intro h
  exact absurd (Numerals.isDigit_of_mem h) (by decide)

theorem tokens_written {name password : String} (hname : '|' ∉ name.toList)
    (hpassword : '|' ∉ password.toList) (hne : password.toList ≠ [])
    (port playerCount maxPlayers : ℕ) :
    tokens (written name port playerCount maxPlayers password) =
      [serverResponse.toList, name.toList, (toString port).toList, (toString playerCount).toList,
        (toString maxPlayers).toList, password.toList] := by
  have hdelim : "|".toList = ['|'] := rfl
  have hbegin : '|' ∉ serverResponse.toList := by decide +kernel
  simp only [tokens, written, String.toList_append, hdelim, List.append_assoc, List.cons_append,
    List.nil_append]
  rw [getlines_append hbegin, getlines_append hname, getlines_append (delim_notMem_toString port),
    getlines_append (delim_notMem_toString playerCount),
    getlines_append (delim_notMem_toString maxPlayers), getlines_of_notMem hpassword hne]

theorem wellFormed_written {name password : String} (hname : '|' ∉ name.toList)
    (hpassword : '|' ∉ password.toList) (hne : password.toList ≠ [])
    {port playerCount maxPlayers : ℕ} (hport : port < 2 ^ 16) (hplayers : playerCount < 2 ^ 8)
    (hlimit : maxPlayers < 2 ^ 8) :
    WellFormed (written name port playerCount maxPlayers password) port playerCount maxPlayers := by
  have htokens := tokens_written hname hpassword hne port playerCount maxPlayers
  refine ⟨?_, ?_, ⟨?_, hport⟩, ⟨?_, hplayers⟩, ⟨?_, hlimit⟩⟩
  · simp only [written, String.toList_append, List.append_assoc]
    exact List.prefix_append ..
  · rw [htokens]
    exact Nat.le_refl 6
  all_goals
    rw [token, htokens]
    exact decimal_toString _

theorem parsed_iff_of_rejected {response : String} {serverInfo left : ServerInfo}
    (hparse : parseServerResponse response serverInfo = (false, left))
    (hbad : ∀ port playerCount maxPlayers, ¬ WellFormed response port playerCount maxPlayers) :
    Parsed response serverInfo ↔ left = serverInfo := by
  constructor
  · intro h
    have hunchanged := h.unchanged
    rw [hparse] at hunchanged
    exact hunchanged rfl
  · intro h
    refine ⟨?_, fun port playerCount maxPlayers hgood => ?_, fun _ => ?_⟩
    · rw [hparse]
      exact iff_of_false Bool.false_ne_true fun ⟨_, _, _, hgood⟩ => hbad _ _ _ hgood
    · exact absurd hgood (hbad _ _ _)
    · rw [hparse]
      exact h

theorem toNat_ofInt16 {n : ℕ} (h : n < 2 ^ 16) : (UInt16.ofInt n).toNat = n := by
  rw [UInt16.ofInt, Int.emod_eq_of_lt (by omega) (by omega), Int.toNat_natCast]
  exact UInt16.toNat_ofNat_of_lt' h

theorem toNat_ofInt8 {n : ℕ} (h : n < 2 ^ 8) : (UInt8.ofInt n).toNat = n := by
  rw [UInt8.ofInt, Int.emod_eq_of_lt (by omega) (by omega), Int.toNat_natCast]
  exact UInt8.toNat_ofNat_of_lt' h

theorem parsed_iff_of_accepted {response : String} {serverInfo left : ServerInfo}
    (hparse : parseServerResponse response serverInfo = (true, left))
    (hport : ∀ port : ℕ, stoi (token response 2) = some (port : ℤ) → left.port = .ofInt port)
    (hplayers : ∀ players : ℕ, stoi (token response 3) = some (players : ℤ) →
      left.playerCount = .ofInt players)
    (hlimit : ∀ limit : ℕ, stoi (token response 4) = some (limit : ℤ) →
      left.maxPlayers = .ofInt limit) :
    Parsed response serverInfo ↔
      ∃ port playerCount maxPlayers, WellFormed response port playerCount maxPlayers := by
  constructor
  · intro h
    exact h.accepted.mp (by rw [hparse])
  · intro hgood
    refine ⟨iff_of_true (by rw [hparse]) hgood, fun port players limit h => ?_, fun hfalse => ?_⟩
    · obtain ⟨hp, hn, hm⟩ := h.scanned
      rw [hparse]
      dsimp only
      rw [hport port hp, hplayers players hn, hlimit limit hm]
      exact ⟨toNat_ofInt16 h.port.2, toNat_ofInt8 h.playerCount.2, toNat_ofInt8 h.maxPlayers.2⟩
    · rw [hparse] at hfalse
      exact absurd hfalse.symm Bool.false_ne_true

theorem parsed_iff_of_fields {response : String} {serverInfo : ServerInfo}
    (hparse : parseServerResponse response serverInfo = assignFields response serverInfo) :
    Parsed response serverInfo ↔
      (∃ port playerCount maxPlayers, WellFormed response port playerCount maxPlayers) ∨
        Settled response serverInfo := by
  obtain ⟨name, ip, port, playerCount, maxPlayers, ping, protect⟩ := serverInfo
  rw [assignFields] at hparse
  cases hport : stoi (token response 2) with
  | none =>
    have hbad : ∀ p n m, ¬ WellFormed response p n m := fun p n m h => by
      simp [h.scanned.1] at hport
    simp only [hport] at hparse
    simp [parsed_iff_of_rejected hparse hbad, Settled, hbad, hport, eq_comm]
  | some p =>
    cases hplayers : stoi (token response 3) with
    | none =>
      have hbad : ∀ p n m, ¬ WellFormed response p n m := fun p n m h => by
        simp [h.scanned.2.1] at hplayers
      simp only [hport, hplayers] at hparse
      simp [parsed_iff_of_rejected hparse hbad, Settled, hbad, hport, hplayers, eq_comm]
    | some n =>
      cases hlimit : stoi (token response 4) with
      | none =>
        have hbad : ∀ p n m, ¬ WellFormed response p n m := fun p n m h => by
          simp [h.scanned.2.2] at hlimit
        simp only [hport, hplayers, hlimit] at hparse
        simp [parsed_iff_of_rejected hparse hbad, Settled, hbad, hport, hplayers, hlimit, eq_comm]
      | some m =>
        simp only [hport, hplayers, hlimit] at hparse
        have hsettled : ¬ Settled response ⟨name, ip, port, playerCount, maxPlayers, ping, protect⟩ := by
          simp [Settled, hport, hplayers, hlimit]
        rw [or_iff_left hsettled]
        refine parsed_iff_of_accepted hparse (fun k hk => ?_) (fun k hk => ?_) fun k hk => ?_
        · rw [hport, Option.some.injEq] at hk
          rw [hk]
        · rw [hplayers, Option.some.injEq] at hk
          rw [hk]
        · rw [hlimit, Option.some.injEq] at hk
          rw [hk]

theorem parsed_iff (response : String) (serverInfo : ServerInfo) :
    Parsed response serverInfo ↔
      ¬ serverResponse.toList <+: response.toList ∨ (tokens response).length < 6 ∨
        (∃ port playerCount maxPlayers, WellFormed response port playerCount maxPlayers) ∨
        Settled response serverInfo := by
  by_cases hbegins : serverResponse.toList <+: response.toList
  swap
  · refine iff_of_true ?_ (Or.inl hbegins)
    exact (parsed_iff_of_rejected (if_pos hbegins) fun _ _ _ h => hbegins h.begins).mpr rfl
  by_cases hfields : (tokens response).length < 6
  · refine iff_of_true ?_ (Or.inr (Or.inl hfields))
    have hparse : parseServerResponse response serverInfo = (false, serverInfo) := by
      rw [parseServerResponse, if_neg (not_not.mpr hbegins), if_pos hfields]
    exact (parsed_iff_of_rejected hparse fun _ _ _ h => absurd h.fields (not_le.mpr hfields)).mpr rfl
  rw [or_iff_right (not_not.mpr hbegins), or_iff_right hfields]
  apply parsed_iff_of_fields
  rw [parseServerResponse, if_neg (not_not.mpr hbegins), if_neg hfields]

theorem not_parsed_port : ¬ ∀ (response : String) (serverInfo : ServerInfo),
    Parsed response serverInfo := by
  intro h
  have haccepted := (h "WITCHER3_MP_SERVER_RESPONSE|a|70000|1|8|false" {}).accepted
  obtain ⟨port, _, _, hgood⟩ := haccepted.mp (by decide +kernel)
  have hdecimal : decimal (token "WITCHER3_MP_SERVER_RESPONSE|a|70000|1|8|false" 2) =
      some 70000 := by decide +kernel
  have hport := hgood.port
  rw [hdecimal, Option.some.injEq] at hport
  omega

end WitcherMP.Networking.LANDiscovery
