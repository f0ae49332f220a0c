import WitcherMP.Lib.OrdMap

/-! A party: members in the order they came, one of them the host, and a role for each.
A party is never empty, so the last member's leaving is no operation on it. -/

namespace WitcherMP

structure Party (κ ρ : Type*) [LinearOrder κ] where
  members : List κ
  nodup : members.Nodup
  host : κ
  host_mem : host ∈ members
  roles : OrdMap κ ρ
  keyed : roles.keys = members.toFinset

namespace Party
variable {κ ρ : Type*} [LinearOrder κ]

theorem nonempty (party : Party κ ρ) : party.members ≠ [] := List.ne_nil_of_mem party.host_mem

def solo (k : κ) (role : ρ) : Party κ ρ where
  members := [k]
  nodup := List.nodup_singleton k
  host := k
  host_mem := List.mem_singleton_self k
  roles := OrdMap.empty.insert k role
  keyed := OrdMap.keys_insert_eq ..

variable (party : Party κ ρ)

def enrol (k : κ) (hk : k ∉ party.members) (role : ρ) : Party κ ρ where
  members := party.members ++ [k]
  nodup := by
    rw [← List.concat_eq_append]
    exact party.nodup.concat hk
  host := party.host
  host_mem := List.mem_append_left _ party.host_mem
  roles := party.roles.insert k role
  keyed := by
    ext k'
    rw [OrdMap.keys_insert_eq, party.keyed, Finset.mem_insert, List.mem_toFinset,
      List.mem_toFinset, List.mem_append, List.mem_singleton, or_comm]

theorem keyed_insert {k : κ} (hk : k ∈ party.members) (role : ρ) :
    (party.roles.insert k role).keys = party.members.toFinset := by
  rw [OrdMap.keys_insert_eq, party.keyed, Finset.insert_eq_of_mem (List.mem_toFinset.mpr hk)]

def assign (k : κ) (hk : k ∈ party.members) (role : ρ) : Party κ ρ :=
  { party with roles := party.roles.insert k role, keyed := party.keyed_insert hk role }

def appoint (k : κ) (hk : k ∈ party.members) : Party κ ρ :=
  { party with host := k, host_mem := hk }

def dismiss (k heir : κ) (hheir : heir ∈ party.members.erase k) : Party κ ρ where
  members := party.members.erase k
  nodup := party.nodup.erase k
  host := heir
  host_mem := hheir
  roles := party.roles.erase k
  keyed := by
    ext k'
    rw [OrdMap.keys_erase, party.keyed, Finset.mem_erase, List.mem_toFinset, List.mem_toFinset,
      party.nodup.mem_erase_iff]

def Crowned (r : ρ) : Prop := ∀ k ∈ party.members, party.roles.find? k = some r ↔ k = party.host

variable {party} {r : ρ}

theorem crowned_iff_filter [DecidableEq ρ] :
    party.Crowned r ↔ party.members.filter (fun k => party.roles.find? k = some r) = [party.host] := by
  constructor
  · intro h
    have hfilter : party.members.filter (fun k => party.roles.find? k = some r)
        = party.members.filter (· = party.host) :=
      List.filter_congr fun k hk => decide_eq_decide.mpr (h k hk)
    rw [hfilter, List.filter_eq, List.count_eq_one_of_mem party.nodup party.host_mem]
    rfl
  · intro h k hk
    have hmem : k ∈ party.members.filter (fun k => party.roles.find? k = some r) ↔ k = party.host := by
      rw [h, List.mem_singleton]
    simpa [hk] using hmem

theorem crowned_solo (k : κ) : (solo k r).Crowned r := by
  intro k' hk'
  obtain rfl := List.mem_singleton.mp hk'
  exact iff_of_true (OrdMap.find?_insert_self ..) rfl

theorem crowned_enrol_iff (h : party.Crowned r) {k : κ} (hk : k ∉ party.members) (role : ρ) :
    (party.enrol k hk role).Crowned r ↔ role ≠ r := by
  have hhost : k ≠ party.host := fun heq => hk (heq ▸ party.host_mem)
  constructor
  · intro hc hrole
    have hnew := hc k (List.mem_append_right _ (List.mem_singleton_self k))
    rw [enrol, OrdMap.find?_insert_self, hrole] at hnew
    exact hhost (hnew.mp rfl)
  · intro hrole k' hk'
    rw [enrol, OrdMap.find?_insert]
    split_ifs with heq
    · rw [← heq]
      exact iff_of_false (fun hsome => hrole (Option.some.inj hsome)) hhost
    · refine h k' ((List.mem_append.mp hk').resolve_right fun hsingle => heq ?_)
      exact (List.mem_singleton.mp hsingle).symm

theorem crowned_assign_iff (h : party.Crowned r) {k : κ} (hk : k ∈ party.members) (role : ρ) :
    (party.assign k hk role).Crowned r ↔ (role = r ↔ k = party.host) := by
  constructor
  · intro hc
    have hself := hc k hk
    rwa [assign, OrdMap.find?_insert_self, Option.some_inj] at hself
  · intro hrole k' hk'
    rw [assign, OrdMap.find?_insert]
    split_ifs with heq
    · rw [← heq, Option.some_inj]
      exact hrole
    · exact h k' hk'

theorem Crowned.handOver (h : party.Crowned r) {k : κ} (hk : k ∈ party.members) {other : ρ}
    (hother : other ≠ r) :
    (((party.assign party.host party.host_mem other).assign k hk r).appoint k hk).Crowned r := by
  intro k' hk'
  simp only [assign, appoint, OrdMap.find?_insert]
  split_ifs with hnew hold
  · exact iff_of_true rfl hnew.symm
  · exact iff_of_false (fun hsome => hother (Option.some.inj hsome)) (Ne.symm hnew)
  · refine iff_of_false (fun hsome => hold ?_) (Ne.symm hnew)
    exact ((h k' hk').mp hsome).symm

theorem Crowned.dismiss (h : party.Crowned r) {k : κ} (hstays : party.host ∈ party.members.erase k) :
    (party.dismiss k party.host hstays).Crowned r := by
  intro k' hk'
  obtain ⟨hne, hmem⟩ := party.nodup.mem_erase_iff.mp hk'
  rw [Party.dismiss, OrdMap.find?_erase, if_neg (Ne.symm hne)]
  exact h k' hmem

theorem Crowned.succeed (h : party.Crowned r) {heir : κ}
    (hheir : heir ∈ party.members.erase party.host) :
    ((party.dismiss party.host heir hheir).assign heir hheir r).Crowned r := by
  intro k' hk'
  obtain ⟨hne, hmem⟩ := party.nodup.mem_erase_iff.mp hk'
  simp only [assign, Party.dismiss, OrdMap.find?_insert, OrdMap.find?_erase]
  split_ifs with hnew hold
  · exact iff_of_true rfl hnew.symm
  · exact absurd hold.symm hne
  · exact iff_of_false (fun hsome => hne ((h k' hmem).mp hsome)) (Ne.symm hnew)

end Party
end WitcherMP
