import WitcherMP.Exploration.Sessions

/-! Points that were locked. Unlocking adds an entry of the point to the session, locking shuts
the first entry there is, and travelling takes any that is open. -/

namespace WitcherMP.Exploration.ExplorationMode
open FirstMatch

def entriesOf (k : UInt32) (points : List FastTravelPoint) : List FastTravelPoint :=
  points.filter fun point => point.pointId = k

def Unlocks (s : ExplorationMode) (id k : UInt32) : Op → Prop
  | .unlockFastTravelPoint id' k' => id' = id ∧ k' = k ∧ (s.unlockFastTravelPoint id k).2
  | _ => False

def Barred (id k : UInt32) : ExplorationMode → Prop :=
  EverySession fun id' session => id' = id → ∀ point ∈ session.fastTravelPoints, ¬ isOpen k point

def Keyed (s : ExplorationMode) : Prop :=
  ∀ k point, s.fastTravelPoints.find? k = some point → point.pointId = k

variable {s : ExplorationMode} {id k : UInt32} {session : ExplorationSessionData}

theorem not_isOpen_lock (k : UInt32) (point : FastTravelPoint) :
    ¬ isOpen k { point with isUnlocked := false } := by simp [isOpen]

theorem pointId_eq_of_isOpen (point : FastTravelPoint) (h : isOpen k point) : point.pointId = k := by
  simpa using (Bool.and_eq_true_iff.mp (Bool.and_eq_true_iff.mp h).1).1

theorem Barred.step (hkeyed : Keyed s) (h : Barred id k s) {op : Op} (hop : ¬ Unlocks s id k op) :
    Barred id k (s.step op) := by
  refine EverySession.step h fun id' session count hw hid point hpoint => ?_
  subst hid
  cases hw with
  | created hinit => exact absurd hpoint List.not_mem_nil
  | joined hget => exact h _ _ hget rfl point hpoint
  | left hget =>
    rw [fastTravelPoints_withoutPlayer] at hpoint
    exact h _ _ hget rfl point hpoint
  | leftLast hget =>
    dsimp only at hpoint
    rw [fastTravelPoints_withoutPlayer] at hpoint
    exact h _ _ hget rfl point hpoint
  | ended hget => exact h _ _ hget rfl point hpoint
  | positioned hget => exact h _ _ hget rfl point hpoint
  | placed hget => exact h _ _ hget rfl point hpoint
  | @unlocked _ k' added session hget hactive hadded =>
    rcases List.mem_append.mp hpoint with hpoint | hpoint
    · exact h _ _ hget rfl point hpoint
    · intro hopen
      obtain rfl := List.mem_singleton.mp hpoint
      have hpointId : added.pointId = k :=
        pointId_eq_of_isOpen { added with isUnlocked := true } hopen
      obtain rfl : k' = k := (hkeyed k' added hadded).symm.trans hpointId
      refine hop ⟨rfl, rfl, ?_⟩
      rw [unlockFastTravelPoint, hget]
      dsimp only
      rw [if_neg (not_not.mpr hactive), hadded]
      dsimp only
      split_ifs <;> rfl
  | @locked _ k' session hget hactive =>
    rcases mem_modifyFirst hpoint with hpoint | ⟨old, -, -, rfl⟩
    · exact h _ _ hget rfl point hpoint
    · exact not_isOpen_lock k old
  | traveled hget => exact h _ _ hget rfl point hpoint

theorem fastTravelToPoint_accepted_iff {p : UInt32} :
    (s.fastTravelToPoint id p k).2 ↔ ∃ session, s.getExplorationSession id = some session ∧
      session.isActive ∧ p ∈ session.participants ∧
        ∃ point ∈ session.fastTravelPoints, isOpen k point := by
  rw [fastTravelToPoint]
  cases hget : s.getExplorationSession id with
  | none => simp
  | some session =>
    by_cases hactive : session.isActive
    · by_cases hin : p ∈ session.participants
      · cases hfound : session.fastTravelPoints.find? (isOpen k) with
        | none =>
          have hnone := List.find?_eq_none.mp hfound
          simpa [hactive, hin, hfound] using hnone
        | some point =>
          have hopen := List.find?_some hfound
          have hmem := List.mem_of_find?_eq_some hfound
          simpa [hactive, hin, hfound] using ⟨point, hmem, hopen⟩
      · simp [hactive, hin]
    · simp [hactive]

theorem lockFastTravelPoint_accepted (hget : s.getExplorationSession id = some session)
    (hactive : session.isActive) (hany : session.fastTravelPoints.any (·.pointId = k)) :
    s.lockFastTravelPoint id k = (s.setExplorationSession id { session with
      fastTravelPoints := modifyFirst (·.pointId = k) (fun point =>
        { point with isUnlocked := false }) session.fastTravelPoints }, true) := by
  rw [lockFastTravelPoint, hget]
  dsimp only
  rw [if_neg (not_not.mpr hactive), if_neg (not_not.mpr hany)]

theorem lockFastTravelPoint_spec (h : (s.lockFastTravelPoint id k).2) :
    ∃ session, s.getExplorationSession id = some session ∧ session.isActive ∧
      session.fastTravelPoints.any (·.pointId = k) := by
  rw [lockFastTravelPoint] at h
  cases hget : s.getExplorationSession id with
  | none => simp [hget] at h
  | some session =>
    simp only [hget] at h
    split_ifs at h with hactive hany
    · exact ⟨session, rfl, hactive, hany⟩

theorem exists_isOpen_modifyFirst_iff (points : List FastTravelPoint) :
    (∃ point ∈ modifyFirst (·.pointId = k) (fun point => { point with isUnlocked := false }) points,
      isOpen k point) ↔ ∃ point ∈ (entriesOf k points).tail, point.isUnlocked ∧ point.isActive := by
  have hentries (l : List FastTravelPoint) : (∃ point ∈ l, isOpen k point) ↔
      ∃ point ∈ entriesOf k l, point.isUnlocked ∧ point.isActive := by
    simp [entriesOf, isOpen, and_assoc]
  have hfilter := filter_modifyFirst (p := fun point : FastTravelPoint => point.pointId = k)
    (f := fun point => { point with isUnlocked := false }) (fun _ => rfl) points
  rw [hentries, entriesOf, hfilter, ← entriesOf]
  cases entriesOf k points with
  | nil => simp
  | cons first rest => simp

theorem barred_of_locked (hget : s.getExplorationSession id = some session)
    (hactive : session.isActive) (hany : session.fastTravelPoints.any (·.pointId = k))
    (hrest : ∀ point ∈ (entriesOf k session.fastTravelPoints).tail,
      ¬ (point.isUnlocked ∧ point.isActive)) : Barred id k (s.lockFastTravelPoint id k).1 := by
  rw [lockFastTravelPoint_accepted hget hactive hany]
  intro id' session' hget' hid point hpoint hopen
  subst hid
  rw [getExplorationSession_set, if_pos rfl] at hget'
  obtain rfl := Option.some.inj hget'
  obtain ⟨entry, hentry, hboth⟩ := (exists_isOpen_modifyFirst_iff _).mp ⟨point, hpoint, hopen⟩
  exact hrest entry hentry hboth

theorem Barred.refuses (h : Barred id k s) (p : UInt32) : ¬ (s.fastTravelToPoint id p k).2 := by
  intro htravel
  obtain ⟨session, hget, -, -, point, hpoint, hopen⟩ := fastTravelToPoint_accepted_iff.mp htravel
  exact h id session hget rfl point hpoint hopen

theorem keyed_initializeMode (maxSessionSize maxContractParticipants : UInt32) :
    Keyed (initializeMode { maxSessionSize, maxContractParticipants }) := by
  intro k point hfind
  rcases OrdMap.find?_insertAll_cases hfind with ⟨-, hk⟩ | hnone
  · exact hk
  · exact nomatch hnone

theorem peopled_initializeMode (maxSessionSize maxContractParticipants : UInt32) :
    Peopled (initializeMode { maxSessionSize, maxContractParticipants }) := by
  intro id session hget
  exact nomatch (show none = some session from hget)

theorem Keyed.step (h : Keyed s) (op : Op) : Keyed (s.step op) := by
  rw [Keyed, (effect_step s op).points]
  exact h

theorem Barred.run (hkeyed : Keyed s) (h : Barred id k s) {ops : List Op}
    (halong : Run.Along ExplorationMode.step (fun s op => ¬ Unlocks s id k op) s ops) :
    Barred id k (Run.run ExplorationMode.step s ops) := by
  have hrun := Run.along_of_step (Q := fun _ _ => True) (I := fun s => Keyed s ∧ Barred id k s)
    (fun s op hs hop => ⟨⟨hs.1.step op, hs.2.step hs.1 hop⟩, trivial⟩) ⟨hkeyed, h⟩ halong
  exact hrun.1.2

/-- After any run, a point that is locked stays out of reach until it is unlocked again exactly
if behind the entry that is shut, no other one of the point is open. -/
theorem locked_for_good_iff (maxSessionSize maxContractParticipants : UInt32) (ops : List Op)
    (sessionId pointId : UInt32) :
    let s := Run.run step (initializeMode { maxSessionSize, maxContractParticipants }) ops
    ((s.lockFastTravelPoint sessionId pointId).2 → ∀ between,
      Run.Along step (fun s op => ¬ Unlocks s sessionId pointId op)
        (s.lockFastTravelPoint sessionId pointId).1 between →
      ∀ playerId, ¬ ((Run.run step (s.lockFastTravelPoint sessionId pointId).1
        between).fastTravelToPoint sessionId playerId pointId).2) ↔
    ∀ session, s.getExplorationSession sessionId = some session → session.isActive →
      ∀ point ∈ (entriesOf pointId session.fastTravelPoints).tail,
        ¬ (point.isUnlocked ∧ point.isActive) := by
  intro s
  have hkeyed : Keyed s := Run.invariant_run (I := Keyed) (fun _ op h => h.step op)
    (keyed_initializeMode maxSessionSize maxContractParticipants) ops
  have hpeopled : Peopled s := Run.invariant_run (I := Peopled) (fun _ op h => h.step op)
    (peopled_initializeMode maxSessionSize maxContractParticipants) ops
  constructor
  · intro h session hget hactive point hpoint hopen
    have hany : session.fastTravelPoints.any (·.pointId = pointId) := by
      obtain ⟨hmem, hk⟩ := List.mem_filter.mp (List.mem_of_mem_tail hpoint)
      exact List.any_eq_true.mpr ⟨point, hmem, hk⟩
    have hlock := lockFastTravelPoint_accepted hget hactive hany
    obtain ⟨p, hp⟩ := List.exists_mem_of_ne_nil _ (hpeopled sessionId session hget hactive)
    rw [hlock] at h
    refine h rfl [] trivial p (fastTravelToPoint_accepted_iff.mpr ?_)
    refine ⟨_, (getExplorationSession_set ..).trans (if_pos rfl), hactive, hp, ?_⟩
    exact (exists_isOpen_modifyFirst_iff _).mpr ⟨point, hpoint, hopen⟩
  · intro h haccepted between halong
    obtain ⟨session, hget, hactive, hany⟩ := lockFastTravelPoint_spec haccepted
    have hbarred : Barred sessionId pointId _ := barred_of_locked hget hactive hany (h session hget hactive)
    have hkeyed' : Keyed (s.lockFastTravelPoint sessionId pointId).1 :=
      hkeyed.step (.lockFastTravelPoint sessionId pointId)
    exact (hbarred.run hkeyed' halong).refuses

theorem not_locked_for_good_twice :
    ¬ ∀ (ops between : List Op) (sessionId playerId pointId : UInt32),
      let s := Run.run step (initializeMode {}) ops
      (s.lockFastTravelPoint sessionId pointId).2 →
      Run.Along step (fun s op => ¬ Unlocks s sessionId pointId op)
        (s.lockFastTravelPoint sessionId pointId).1 between →
      ¬ ((Run.run step (s.lockFastTravelPoint sessionId pointId).1
        between).fastTravelToPoint sessionId playerId pointId).2 := by
  intro h
  have htravel := h [.createExplorationSession "Toussaint" 7, .unlockFastTravelPoint 1 0,
    .lockFastTravelPoint 1 0, .unlockFastTravelPoint 1 0] [] 1 7 0 (by decide +kernel) trivial
  revert htravel
  decide +kernel

end WitcherMP.Exploration.ExplorationMode
