import WitcherMP.Exploration.Defs
import WitcherMP.Lib.Run
import WitcherMP.Lib.Tallies

/-! Monster contracts, which players of all sessions join, leave and complete. Their ids are
counted in 32 bits, as their completions are. -/

namespace WitcherMP.Exploration.ExplorationMode
open Tallies

def Completes (s : ExplorationMode) : Op → Prop
  | .completeMonsterContract id c => (s.completeMonsterContract id c).2
  | _ => False

instance (s : ExplorationMode) (op : Op) : Decidable (s.Completes op) := by
  cases op <;> unfold Completes <;> infer_instance

def HandsOut (c : UInt32) (s : ExplorationMode) : Op → Prop
  | .createMonsterContract .. => s.nextContractId = c
  | _ => False

def creations (_ : ExplorationMode) : Op → ℕ
  | .createMonsterContract .. => 1
  | _ => 0

def completions (s : ExplorationMode) (op : Op) : ℕ := if s.Completes op then 1 else 0

inductive Files (s : ExplorationMode) : Op → UInt32 → MonsterContract → Prop
  | created {name description monsterType : String} {location : Combat.Vector4F}
    {region : ExplorationRegion} {level reward : UInt32} :
    Files s (.createMonsterContract name description monsterType location region level reward)
      s.nextContractId
      { contractId := s.nextContractId, name, description, monsterType, location, region, level, reward }
  | joined {id c p : UInt32} {contract : MonsterContract}
    (hfind : s.monsterContracts.find? c = some contract) (hactive : contract.isActive)
    (hroom : contract.participants.length < s.maxContractParticipants.toNat)
    (hnew : p ∉ contract.participants) :
    Files s (.joinMonsterContract id c p) c
      { contract with participants := contract.participants ++ [p] }
  | left {id c p : UInt32} {contract : MonsterContract}
    (hfind : s.monsterContracts.find? c = some contract) :
    Files s (.leaveMonsterContract id c p) c
      { contract with participants := contract.participants.erase p }
  | completed {id c : UInt32} {contract : MonsterContract}
    (hfind : s.monsterContracts.find? c = some contract) (hactive : contract.isActive)
    (hcompletes : s.Completes (.completeMonsterContract id c)) :
    Files s (.completeMonsterContract id c) c { contract with isCompleted := true, isActive := false }

def contractSide (s : ExplorationMode) : UInt32 × UInt32 × UInt32 × OrdMap UInt32 MonsterContract :=
  (s.maxContractParticipants, s.nextContractId, s.stats.completedContracts, s.monsterContracts)

structure Filing (s : ExplorationMode) (op : Op) (s' : ExplorationMode) : Prop where
  limit : s'.maxContractParticipants = s.maxContractParticipants
  next : s'.nextContractId = s.nextContractId + UInt32.ofNat (creations s op)
  count : s'.stats.completedContracts = s.stats.completedContracts + UInt32.ofNat (completions s op)
  contracts : (s'.monsterContracts = s.monsterContracts ∧ creations s op = 0 ∧ ¬ s.Completes op) ∨
    ∃ c contract, Files s op c contract ∧
      s'.monsterContracts = s.monsterContracts.insert c contract

variable {s : ExplorationMode}

theorem completions_eq_zero {op : Op} (h : ¬ s.Completes op) : completions s op = 0 := if_neg h

theorem Filing.none {s' : ExplorationMode} {op : Op} (hmake : creations s op = 0)
    (hcomplete : ¬ s.Completes op) (hsame : s'.contractSide = s.contractSide) : Filing s op s' := by
  simp only [contractSide, Prod.mk.injEq] at hsame
  obtain ⟨hlimit, hnext, hcount, hcontracts⟩ := hsame
  refine ⟨hlimit, ?_, ?_, Or.inl ⟨hcontracts, hmake, hcomplete⟩⟩
  · rw [hnext, hmake]
    exact (UInt32.add_zero _).symm
  · rw [hcount, completions_eq_zero hcomplete]
    exact (UInt32.add_zero _).symm

theorem Filing.some {op : Op} {c : UInt32} {contract : MonsterContract} (hmake : creations s op = 0)
    (hcomplete : ¬ s.Completes op) (hfiles : Files s op c contract) :
    Filing s op (s.setMonsterContract c contract) := by
  refine ⟨rfl, ?_, ?_, Or.inr ⟨c, contract, hfiles, rfl⟩⟩
  · rw [hmake]
    exact (UInt32.add_zero _).symm
  · rw [completions_eq_zero hcomplete]
    exact (UInt32.add_zero _).symm

theorem contractSide_leaveExplorationSession (id p : UInt32) :
    (s.leaveExplorationSession id p).1.contractSide = s.contractSide := by
  unfold leaveExplorationSession
  split
  · rfl
  · dsimp only
    split_ifs
    · unfold endExplorationSession
      split <;> rfl
    · rfl

theorem completeMonsterContract_accepted {id c : UInt32} {session : ExplorationSessionData}
    {contract : MonsterContract} (hget : s.getExplorationSession id = some session)
    (hactive : session.isActive) (hfind : s.monsterContracts.find? c = some contract)
    (hopen : contract.isActive) : s.completeMonsterContract id c = ({ s.setMonsterContract c
      { contract with isCompleted := true, isActive := false } with
      stats := { s.stats with completedContracts := s.stats.completedContracts + 1 } }, true) := by
  rw [completeMonsterContract, hget]
  dsimp only
  rw [if_neg (not_not.mpr hactive), hfind]
  dsimp only
  rw [if_neg (not_not.mpr hopen)]
  rfl

theorem completeMonsterContract_cases (id c : UInt32) :
    (∃ contract, s.monsterContracts.find? c = some contract ∧ contract.isActive ∧
      s.completeMonsterContract id c = ({ s.setMonsterContract c
        { contract with isCompleted := true, isActive := false } with
        stats := { s.stats with completedContracts := s.stats.completedContracts + 1 } }, true)) ∨
    s.completeMonsterContract id c = (s, false) := by
  by_cases hfound : ∃ session contract, s.getExplorationSession id = some session ∧
    session.isActive ∧ s.monsterContracts.find? c = some contract ∧ contract.isActive
  · obtain ⟨session, contract, hget, hactive, hfind, hopen⟩ := hfound
    exact Or.inl ⟨contract, hfind, hopen, completeMonsterContract_accepted hget hactive hfind hopen⟩
  · right
    rw [completeMonsterContract]
    cases hget : s.getExplorationSession id with
    | none => rfl
    | some session =>
      dsimp only
      split_ifs with hactive
      · cases hfind : s.monsterContracts.find? c with
        | none => rfl
        | some contract =>
          dsimp only
          rw [if_pos fun hopen => hfound ⟨session, contract, hget, hactive, hfind, hopen⟩]
      · rfl

theorem filing_step (s : ExplorationMode) (op : Op) : Filing s op (s.step op) := by
  cases op with
  | createExplorationSession name p =>
    refine Filing.none rfl id ?_
    rw [step, createExplorationSession]
    split_ifs <;> rfl
  | joinExplorationSession id' p =>
    refine Filing.none rfl id ?_
    rw [step, joinExplorationSession]
    repeat' split
    all_goals rfl
  | leaveExplorationSession id' p =>
    exact Filing.none rfl id (contractSide_leaveExplorationSession id' p)
  | endExplorationSession id' =>
    refine Filing.none rfl id ?_
    rw [step, endExplorationSession]
    split <;> rfl
  | setMaxSessionSize n => exact Filing.none rfl id rfl
  | updatePlayerPosition id' p v =>
    refine Filing.none rfl id ?_
    rw [step, updatePlayerPosition]
    repeat' split
    all_goals rfl
  | updatePlayerRegion id' p r =>
    refine Filing.none rfl id ?_
    rw [step, updatePlayerRegion]
    repeat' split
    all_goals rfl
  | unlockFastTravelPoint id' k =>
    refine Filing.none rfl id ?_
    rw [step, unlockFastTravelPoint]
    repeat' split
    all_goals rfl
  | lockFastTravelPoint id' k =>
    refine Filing.none rfl id ?_
    rw [step, lockFastTravelPoint]
    repeat' split
    all_goals rfl
  | fastTravelToPoint id' p k =>
    refine Filing.none rfl id ?_
    rw [step, fastTravelToPoint]
    repeat' split
    all_goals rfl
  | createMonsterContract name description monsterType location region level reward =>
    refine ⟨rfl, rfl, ?_, Or.inr ⟨_, _, .created, rfl⟩⟩
    exact (UInt32.add_zero _).symm
  | joinMonsterContract id' c p =>
    rw [step, joinMonsterContract]
    cases s.getExplorationSession id' with
    | none => exact Filing.none rfl id rfl
    | some session =>
      cases hfind : s.monsterContracts.find? c with
      | none =>
        dsimp only
        split_ifs <;> exact Filing.none rfl id rfl
      | some contract =>
        dsimp only
        split_ifs with hactive hin hopen hfull hthere
        · exact Filing.none rfl id rfl
        · exact Filing.none rfl id rfl
        · refine Filing.some rfl id (.joined hfind hopen (Nat.lt_of_not_le hfull) fun hp => ?_)
          exact hthere (List.contains_iff_mem.mpr hp)
        · exact Filing.none rfl id rfl
        · exact Filing.none rfl id rfl
        · exact Filing.none rfl id rfl
  | leaveMonsterContract id' c p =>
    rw [step, leaveMonsterContract]
    cases s.getExplorationSession id' with
    | none => exact Filing.none rfl id rfl
    | some session =>
      cases hfind : s.monsterContracts.find? c with
      | none =>
        dsimp only
        split_ifs <;> exact Filing.none rfl id rfl
      | some contract =>
        dsimp only
        split_ifs
        · exact Filing.some rfl id (.left hfind)
        · exact Filing.none rfl id rfl
        · exact Filing.none rfl id rfl
  | completeMonsterContract id' c =>
    rcases completeMonsterContract_cases (s := s) id' c with
      ⟨contract, hfind, hopen, heq⟩ | hrefused
    · have hcompletes : s.Completes (.completeMonsterContract id' c) := by rw [Completes, heq]
      rw [step, heq]
      refine ⟨rfl, (UInt32.add_zero _).symm, ?_,
        Or.inr ⟨c, _, .completed hfind hopen hcompletes, rfl⟩⟩
      rw [completions, if_pos hcompletes]
      rfl
    · have hcompletes : ¬ s.Completes (.completeMonsterContract id' c) := by
        rw [Completes, hrefused]
        exact Bool.false_ne_true
      rw [step, hrefused]
      exact Filing.none rfl hcompletes rfl

/-- Nobody takes part in a contract twice, no more than the limit take part, and it does not go on
when it is completed. -/
structure Proper (limit : UInt32) (contract : MonsterContract) : Prop where
  nodup : contract.participants.Nodup
  within : contract.participants.length ≤ limit.toNat
  closed : ¬ (contract.isActive ∧ contract.isCompleted)

def AllProper (limit : UInt32) (s : ExplorationMode) : Prop :=
  s.maxContractParticipants = limit ∧
    ∀ c contract, s.monsterContracts.find? c = some contract → Proper limit contract

def Closed (c : UInt32) (s : ExplorationMode) : Prop :=
  ∀ contract, s.monsterContracts.find? c = some contract → ¬ contract.isActive

theorem AllProper.step {limit : UInt32} (h : AllProper limit s) (op : Op) :
    AllProper limit (s.step op) := by
  obtain ⟨hlimit, hproper⟩ := h
  have hfiling := filing_step s op
  refine ⟨hfiling.limit.trans hlimit, fun c' contract' hfind' => ?_⟩
  rcases hfiling.contracts with ⟨hsame, -⟩ | ⟨c, contract, hfiles, hset⟩
  · exact hproper c' contract' (hsame ▸ hfind')
  · rw [hset, OrdMap.find?_insert] at hfind'
    split_ifs at hfind' with hc
    · obtain rfl := Option.some.inj hfind'
      cases hfiles with
      | created => exact ⟨List.nodup_nil, Nat.zero_le _, fun h => Bool.false_ne_true h.2⟩
      | joined hfind hactive hroom hnew =>
        obtain ⟨hnodup, -, hclosed⟩ := hproper _ _ hfind
        refine ⟨?_, ?_, hclosed⟩
        · rw [← List.concat_eq_append]
          exact hnodup.concat hnew
        · rw [List.length_append, List.length_singleton]
          exact hlimit ▸ Nat.succ_le_of_lt hroom
      | left hfind =>
        obtain ⟨hnodup, hwithin, hclosed⟩ := hproper _ _ hfind
        exact ⟨hnodup.erase _, List.length_erase_le.trans hwithin, hclosed⟩
      | completed hfind hactive =>
        obtain ⟨hnodup, hwithin, -⟩ := hproper _ _ hfind
        exact ⟨hnodup, hwithin, fun h => Bool.false_ne_true h.1⟩
    · exact hproper c' contract' hfind'

theorem Closed.step {c : UInt32} (h : Closed c s) {op : Op} (hop : ¬ HandsOut c s op) :
    Closed c (s.step op) := by
  intro contract' hfind'
  rcases (filing_step s op).contracts with ⟨hsame, -⟩ | ⟨c', contract, hfiles, hset⟩
  · exact h contract' (hsame ▸ hfind')
  · rw [hset, OrdMap.find?_insert] at hfind'
    split_ifs at hfind' with hc
    · obtain rfl := Option.some.inj hfind'
      subst hc
      cases hfiles with
      | created => exact absurd rfl hop
      | joined hfind hactive => exact absurd hactive (h _ hfind)
      | @left _ c p contract hfind => exact h contract hfind
      | completed hfind hactive => exact Bool.false_ne_true
    · exact h contract' hfind'

theorem Closed.refuses {c : UInt32} (h : Closed c s) (id : UInt32) :
    ¬ (s.completeMonsterContract id c).2 ∧ ∀ p, ¬ (s.joinMonsterContract id c p).2 := by
  constructor
  · rcases completeMonsterContract_cases (s := s) id c with
      ⟨contract, hfind, hopen, -⟩ | hrefused
    · exact absurd hopen (h contract hfind)
    · rw [hrefused]
      exact Bool.false_ne_true
  · intro p
    rw [joinMonsterContract]
    cases s.getExplorationSession id with
    | none => exact Bool.false_ne_true
    | some session =>
      cases hfind : s.monsterContracts.find? c with
      | none =>
        dsimp only
        split_ifs <;> simp
      | some contract =>
        dsimp only
        rw [if_pos (h contract hfind)]
        split_ifs <;> simp

theorem closed_of_completed {id c : UInt32} (h : (s.completeMonsterContract id c).2) :
    Closed c (s.completeMonsterContract id c).1 := by
  rcases completeMonsterContract_cases (s := s) id c with
    ⟨contract, hfind, hopen, heq⟩ | hrefused
  · rw [heq]
    intro contract' hfind'
    rw [show contract' = _ from (Option.some.inj ((OrdMap.find?_insert_self ..).symm.trans hfind')).symm]
    exact Bool.false_ne_true
  · rw [hrefused] at h
    exact absurd h Bool.false_ne_true

structure Tallied (n : ℕ) (s : ExplorationMode) : Prop where
  next : s.nextContractId = UInt32.ofNat (n + 1)
  free : ∀ j, n < j → j ≤ 2 ^ 32 → s.monsterContracts.find? (UInt32.ofNat j) = none
  size : s.monsterContracts.size ≤ n
  counted : s.stats.completedContracts.toNat = tally (·.isCompleted) s.monsterContracts

theorem ofNat_ne_ofNat {i j : ℕ} (hi : 0 < i) (hij : i < j) (hj : j ≤ 2 ^ 32) :
    UInt32.ofNat i ≠ UInt32.ofNat j := by
  intro h
  have hmod := congrArg UInt32.toNat h
  rw [UInt32.toNat_ofNat', UInt32.toNat_ofNat'] at hmod
  omega

section Tallied
variable {n : ℕ} {s' : ExplorationMode} {c : UInt32} {old contract : MonsterContract}

theorem Tallied.made (h : Tallied n s) (hn : n + 1 < 2 ^ 32) (hopen : ¬ contract.isCompleted)
    (hs' : s'.monsterContracts = s.monsterContracts.insert s.nextContractId contract)
    (hnext : s'.nextContractId = s.nextContractId + 1)
    (hcount : s'.stats.completedContracts = s.stats.completedContracts) : Tallied (n + 1) s' := by
  have hfree : s.monsterContracts.find? s.nextContractId = none := by
    rw [h.next]
    exact h.free (n + 1) (Nat.lt_succ_self n) hn.le
  refine ⟨?_, fun j hj hj' => ?_, ?_, ?_⟩
  · rw [hnext, h.next, UInt32.ofNat_add (n + 1)]
    rfl
  · rw [hs', OrdMap.find?_insert, h.next, if_neg (ofNat_ne_ofNat (Nat.succ_pos n) hj hj')]
    exact h.free j (Nat.lt_of_succ_lt hj) hj'
  · rw [hs', OrdMap.size_insert_new hfree]
    exact Nat.succ_le_succ h.size
  · have hunfiled : ¬ Filed (·.isCompleted) s.monsterContracts s.nextContractId := by
      rintro ⟨found, hfound, -⟩
      exact nomatch hfree.symm.trans hfound
    rw [hs', hcount]
    exact (counted_over_iff h.counted hopen).mpr hunfiled

theorem Tallied.replaced (h : Tallied n s) (hfind : s.monsterContracts.find? c = some old)
    (hs' : s'.monsterContracts = s.monsterContracts.insert c contract)
    (hnext : s'.nextContractId = s.nextContractId)
    (hcounted : s'.stats.completedContracts.toNat = tally (·.isCompleted) s'.monsterContracts) :
    Tallied n s' := by
  refine ⟨hnext.trans h.next, fun j hj hj' => ?_, ?_, hcounted⟩
  · have hnone := h.free j hj hj'
    rw [hs', OrdMap.find?_insert]
    split_ifs with hc
    · rw [hc, hnone] at hfind
      exact nomatch hfind
    · exact hnone
  · rw [hs', OrdMap.size_insert_old hfind]
    exact h.size

theorem Tallied.counted_up (h : Tallied n s) (hn : n < 2 ^ 32)
    (hfind : s.monsterContracts.find? c = some old) (hopen : ¬ old.isCompleted)
    (hdone : contract.isCompleted) : (s.stats.completedContracts + 1).toNat
      = tally (·.isCompleted) (s.monsterContracts.insert c contract) := by
  have hunfiled : ¬ Filed (·.isCompleted) s.monsterContracts c := by
    rw [filed_of_find? hfind]
    exact hopen
  have htally := tally_insert (·.isCompleted) s.monsterContracts c contract
  rw [if_neg hunfiled, if_pos hdone] at htally
  have hle := tally_le_size (·.isCompleted) (s.monsterContracts.insert c contract)
  rw [OrdMap.size_insert_old hfind] at hle
  have hsize := h.size
  exact (counted_up_iff h.counted hdone).mpr ⟨hunfiled, by omega⟩

theorem Tallied.step {limit : UInt32} (hproper : AllProper limit s) (h : Tallied n s) {op : Op}
    (hn : n + creations s op < 2 ^ 32) : Tallied (n + creations s op) (s.step op) := by
  have hfiling := filing_step s op
  have huncounted (hcomplete : ¬ s.Completes op) :
      (s.step op).stats.completedContracts = s.stats.completedContracts := by
    rw [hfiling.count, completions_eq_zero hcomplete]
    exact UInt32.add_zero _
  have hunmade (hmake : creations s op = 0) : (s.step op).nextContractId = s.nextContractId := by
    rw [hfiling.next, hmake]
    exact UInt32.add_zero _
  rcases hfiling.contracts with ⟨hsame, hmake, hcomplete⟩ | ⟨c, contract, hfiles, hset⟩
  · rw [hmake]
    refine ⟨(hunmade hmake).trans h.next, ?_, ?_, ?_⟩
    · rw [hsame]
      exact h.free
    · rw [hsame]
      exact h.size
    · rw [hsame, huncounted hcomplete]
      exact h.counted
  · cases hfiles with
    | created => exact h.made hn Bool.false_ne_true hset hfiling.next (huncounted id)
    | joined hfind hactive hroom hnew =>
      exact h.replaced hfind hset (hunmade rfl) (counted_kept h.counted hfind hset (huncounted id) rfl)
    | left hfind =>
      exact h.replaced hfind hset (hunmade rfl) (counted_kept h.counted hfind hset (huncounted id) rfl)
    | @completed id c contract hfind hactive hcompletes =>
      refine h.replaced hfind hset (hunmade rfl) ?_
      have hopen : ¬ contract.isCompleted := fun hdone =>
        (hproper.2 c contract hfind).closed ⟨hactive, hdone⟩
      rw [hset, hfiling.count, completions, if_pos hcompletes]
      exact h.counted_up hn hfind hopen rfl

end Tallied

section Runs
variable (maxSessionSize maxContractParticipants : UInt32)

theorem allProper_run (ops : List Op) : AllProper maxContractParticipants
    (Run.run step (initializeMode { maxSessionSize, maxContractParticipants }) ops) := by
  refine Run.invariant_run (fun s op h => h.step op) ⟨rfl, fun c contract hfind => ?_⟩ ops
  exact nomatch (show none = some contract from hfind)

theorem completedContracts_run (ops : List Op) :
    let start := initializeMode { maxSessionSize, maxContractParticipants }
    (Run.run step start ops).stats.completedContracts
      = UInt32.ofNat (Run.total step completions start ops) := by
  intro start
  rw [← Nat.zero_add (Run.total step completions start ops)]
  refine Run.counted_run
    (K := fun n (s : ExplorationMode) => s.stats.completedContracts = UInt32.ofNat n)
    (fun n s op hs => ?_) rfl ops
  rw [(filing_step s op).count, hs, UInt32.ofNat_add]

theorem tallied_initializeMode :
    Tallied 0 (initializeMode { maxSessionSize, maxContractParticipants }) :=
  ⟨rfl, fun _ _ _ => rfl, le_rfl, rfl⟩

theorem tallied_run (ops : List Op) :
    let start := initializeMode { maxSessionSize, maxContractParticipants }
    Run.total step creations start ops < 2 ^ 32 →
      Tallied (Run.total step creations start ops) (Run.run step start ops) := by
  intro start
  rw [← Nat.zero_add (Run.total step creations start ops)]
  refine (Run.counted_run (K := fun n s => AllProper maxContractParticipants s ∧
    (n < 2 ^ 32 → Tallied n s)) (fun n s op hs => ⟨hs.1.step op, fun hn => ?_⟩) ⟨?_, ?_⟩ ops).2
  · exact (hs.2 (Nat.lt_of_le_of_lt (Nat.le_add_right ..) hn)).step hs.1 hn
  · exact allProper_run maxSessionSize maxContractParticipants []
  · exact fun _ => tallied_initializeMode maxSessionSize maxContractParticipants

/-- After any run, contracts are in order; one that is completed stays completed, and is not
joined, until its id is handed out again; and completions are counted in 32 bits, which while
fewer than `2 ^ 32` contracts are made is the number of completed contracts. -/
theorem contracts_kept (ops : List Op) :
    let start := initializeMode { maxSessionSize, maxContractParticipants }
    let s := Run.run step start ops
    (∀ contractId contract, s.monsterContracts.find? contractId = some contract →
      contract.participants.Nodup ∧
      contract.participants.length ≤ maxContractParticipants.toNat ∧
      ¬ (contract.isActive ∧ contract.isCompleted)) ∧
    (∀ sessionId contractId, (s.completeMonsterContract sessionId contractId).2 → ∀ between,
      Run.Along step (fun s op => ¬ HandsOut contractId s op)
        (s.completeMonsterContract sessionId contractId).1 between →
      ∀ sessionId',
        let s' := Run.run step (s.completeMonsterContract sessionId contractId).1 between
        ¬ (s'.completeMonsterContract sessionId' contractId).2 ∧
          ∀ playerId, ¬ (s'.joinMonsterContract sessionId' contractId playerId).2) ∧
    s.stats.completedContracts.toNat = Run.total step completions start ops % 2 ^ 32 ∧
    (Run.total step creations start ops < 2 ^ 32 →
      s.stats.completedContracts.toNat = tally (·.isCompleted) s.monsterContracts) := by
  intro start s
  refine ⟨fun c contract hfind => ?_, fun id c hcompleted between halong id' => ?_, ?_, fun hn => ?_⟩
  · obtain ⟨hnodup, hwithin, hclosed⟩ :=
      (allProper_run maxSessionSize maxContractParticipants ops).2 c contract hfind
    exact ⟨hnodup, hwithin, hclosed⟩
  · have hclosed := (Run.along_of_step (Q := fun _ _ => True) (I := Closed c)
      (fun s op hs hop => ⟨hs.step hop, trivial⟩) (closed_of_completed hcompleted) halong).1
    exact hclosed.refuses id'
  · rw [completedContracts_run maxSessionSize maxContractParticipants ops, UInt32.toNat_ofNat']
  · exact (tallied_run maxSessionSize maxContractParticipants ops hn).counted

end Runs

def rounds : ℕ → List Op
  | 0 => []
  | n + 1 => rounds n ++ [.createMonsterContract "Jenny" "A wraith" "wraith" {} .velen 5 100,
    .completeMonsterContract 1 (UInt32.ofNat (n + 1))]

theorem run_rounds {session : ExplorationSessionData}
    (hget : s.getExplorationSession 1 = some session) (hactive : session.isActive)
    (hempty : s.monsterContracts = .empty) (hnext : s.nextContractId = 1)
    (hcount : s.stats.completedContracts = 0) {n : ℕ} (hn : n ≤ 2 ^ 32) :
    let s' := Run.run step s (rounds n)
    s'.getExplorationSession 1 = some session ∧ s'.nextContractId = UInt32.ofNat (n + 1) ∧
      s'.stats.completedContracts = UInt32.ofNat n ∧
      (∀ j, n < j → j ≤ 2 ^ 32 → s'.monsterContracts.find? (UInt32.ofNat j) = none) ∧
      tally (·.isCompleted) s'.monsterContracts = n := by
  induction n with
  | zero =>
    refine ⟨hget, hnext, hcount, fun j _ _ => ?_, ?_⟩
    · rw [rounds, Run.run, hempty]
      rfl
    · rw [rounds, Run.run, hempty]
      rfl
  | succ n ih =>
    obtain ⟨hget', hnext', hcount', hfree, htally⟩ := ih (Nat.le_of_succ_le hn)
    intro s'
    let before := Run.run step s (rounds n)
    let contract : MonsterContract := {
      contractId := before.nextContractId, name := "Jenny", description := "A wraith"
      monsterType := "wraith", location := {}, region := .velen, level := 5, reward := 100 }
    let made := (before.createMonsterContract "Jenny" "A wraith" "wraith" {} .velen 5 100).1
    have hmade : made.monsterContracts
        = before.monsterContracts.insert (UInt32.ofNat (n + 1)) contract := by
      rw [← hnext']
      rfl
    have hfind : made.monsterContracts.find? (UInt32.ofNat (n + 1)) = some contract := by
      rw [hmade, OrdMap.find?_insert_self]
    have hrun : s' = (made.completeMonsterContract 1 (UInt32.ofNat (n + 1))).1 := Run.run_append ..
    rw [completeMonsterContract_accepted (s := made) hget' hactive hfind rfl] at hrun
    have hdone : s'.monsterContracts = before.monsterContracts.insert (UInt32.ofNat (n + 1))
        { contract with isCompleted := true, isActive := false } := by
      rw [hrun, setMonsterContract, hmade]
      exact OrdMap.insert_insert ..
    rw [hdone]
    refine ⟨hrun ▸ hget', ?_, ?_, fun j hj hj' => ?_, ?_⟩
    · rw [UInt32.ofNat_add, ← hnext', hrun]
      rfl
    · rw [UInt32.ofNat_add, ← hcount', hrun]
      rfl
    · rw [OrdMap.find?_insert, if_neg (ofNat_ne_ofNat (Nat.succ_pos n) hj hj')]
      exact hfree j (Nat.lt_of_succ_lt hj) hj'
    · have hunfiled : ¬ Filed (·.isCompleted) before.monsterContracts (UInt32.ofNat (n + 1)) := by
        rintro ⟨old, hold, -⟩
        have hnone := hfree (n + 1) (Nat.lt_succ_self n) hn
        exact absurd (hold.symm.trans hnone) (Option.some_ne_none old)
      have hinsert := tally_insert (·.isCompleted) before.monsterContracts (UInt32.ofNat (n + 1))
        { contract with isCompleted := true, isActive := false }
      rw [if_neg hunfiled, if_pos rfl, htally] at hinsert
      exact hinsert

theorem not_completed_counted_wrapped :
    ¬ ∀ ops : List Op, let s := Run.run step (initializeMode {}) ops
      s.stats.completedContracts.toNat = tally (·.isCompleted) s.monsterContracts := by
  intro h
  let s := (createExplorationSession (initializeMode {}) "Velen" 7).1
  have hget : s.getExplorationSession 1 = some {
      sessionId := 1, sessionName := "Velen", hostPlayerId := 7, participants := [7]
      isActive := true } := by decide +kernel
  have hcounted : ∀ n ≤ 2 ^ 32, (UInt32.ofNat n).toNat = n := by
    intro n hn
    obtain ⟨-, -, hcount, -, htally⟩ := run_rounds hget rfl rfl rfl rfl hn
    have hrun : (Run.run step s (rounds n)).stats.completedContracts.toNat
        = tally (·.isCompleted) (Run.run step s (rounds n)).monsterContracts :=
      h (.createExplorationSession "Velen" 7 :: rounds n)
    rwa [hcount, htally] at hrun
  exact absurd (hcounted (2 ^ 32) le_rfl) (by decide)

end WitcherMP.Exploration.ExplorationMode
