import WitcherMP.Story.Sessions

/-! The decisions that a story presents. A decision is made by the host it was presented under,
and the option chosen is written down as it comes. -/

namespace WitcherMP.Story
open FirstMatch SharedStoryMode

def StoryDecision.Awaits (d : StoryDecision) : Prop := ¬ d.isCompleted ∧ d.options ≠ []

def StoryDecision.make (optionIndex : UInt32) (d : StoryDecision) : StoryDecision :=
  { d with selectedOption := optionIndex, isCompleted := true }

structure Answerable (host : UInt32) (decisions : List StoryDecision) : Prop where
  first_of_host : ∀ d ∈ decisions, d.Awaits →
    ∀ first, decisions.find? (isPending d.decisionId) = some first → first.hostPlayerId = host
  chosen : ∀ d ∈ decisions, d.isCompleted → d.selectedOption.toNat < d.options.length

structure Steady (host : UInt32) (decisions : List StoryDecision) : Prop where
  awaited : ∀ d ∈ decisions, d.Awaits → d.hostPlayerId = host
  later : decisions.Pairwise fun d d' => d.Awaits → d'.hostPlayerId = host

variable {host host' : UInt32} {decisions : List StoryDecision} {d : StoryDecision}

theorem StoryDecision.Awaits.isPending (h : d.Awaits) : isPending d.decisionId d := by
  simp [SharedStoryMode.isPending, h.1]

theorem StoryDecision.not_awaits_make (optionIndex : UInt32) (d : StoryDecision) :
    ¬ (d.make optionIndex).Awaits := fun h => h.1 rfl

theorem steady_of_none_awaits (h : ∀ d ∈ decisions, ¬ d.Awaits) : Steady host decisions :=
  ⟨fun d hd hawaits => absurd hawaits (h d hd),
    List.pairwise_of_forall_mem_list fun d hd _ _ hawaits => absurd hawaits (h d hd)⟩

theorem Answerable.handOver_iff (h : Answerable host decisions) (hne : host' ≠ host) :
    Answerable host' decisions ↔ ∀ d ∈ decisions, ¬ d.Awaits := by
  constructor
  · intro h' d hd hawaits
    have hsome : (decisions.find? (isPending d.decisionId)).isSome :=
      List.find?_isSome.mpr ⟨d, hd, hawaits.isPending⟩
    obtain ⟨first, hfirst⟩ := Option.isSome_iff_exists.mp hsome
    have hold := h.first_of_host d hd hawaits first hfirst
    exact hne ((h'.first_of_host d hd hawaits first hfirst).symm.trans hold)
  · intro hnone
    exact ⟨fun d hd hawaits => absurd hawaits (hnone d hd), h.chosen⟩

theorem Steady.present (h : Steady host decisions) (hd : d.hostPlayerId = host) :
    Steady host (decisions ++ [d]) := by
  constructor
  · intro d' hd' hawaits
    rcases List.mem_append.mp hd' with hd' | hd'
    · exact h.awaited d' hd' hawaits
    · rw [List.mem_singleton.mp hd', hd]
  · refine List.pairwise_append.mpr ⟨h.later, List.pairwise_singleton .., fun _ _ d' hd' _ => ?_⟩
    rw [List.mem_singleton.mp hd', hd]

theorem Answerable.present_iff (h : Answerable host decisions) (hd : d.hostPlayerId = host) :
    Answerable host (decisions ++ [d]) ↔
      (d.isCompleted → d.selectedOption.toNat < d.options.length) ∧ (d.Awaits →
        ∀ first, decisions.find? (isPending d.decisionId) = some first →
          first.hostPlayerId = host) := by
  have hmem : d ∈ decisions ++ [d] := List.mem_append_right _ (List.mem_singleton_self d)
  constructor
  · intro h'
    refine ⟨h'.chosen d hmem, fun hawaits first hfirst => ?_⟩
    refine h'.first_of_host d hmem hawaits first ?_
    rw [List.find?_append, hfirst, Option.some_or]
  · rintro ⟨hchosen, hfirst⟩
    constructor
    · intro d' hd' hawaits first hfound
      rw [List.find?_append] at hfound
      rcases Option.or_eq_some_iff.mp hfound with hold | ⟨-, hfound⟩
      · rcases List.mem_append.mp hd' with hd' | hd'
        · exact h.first_of_host d' hd' hawaits first hold
        · obtain rfl := List.mem_singleton.mp hd'
          exact hfirst hawaits first hold
      · rw [List.mem_singleton.mp (List.mem_of_find?_eq_some hfound), hd]
    · intro d' hd'
      rcases List.mem_append.mp hd' with hd' | hd'
      · exact h.chosen d' hd'
      · rw [List.mem_singleton.mp hd']
        exact hchosen

section Made
variable {decisionId : UInt32} (hfound : decisions.find? (isPending decisionId) = some d)
  (optionIndex : UInt32)
include hfound

theorem Steady.made (h : Steady host decisions) :
    Steady host (modifyFirst (isPending decisionId) (.make optionIndex) decisions) := by
  obtain ⟨before, after, rfl, -, -, hmodify⟩ := modifyFirst_of_find? (f := .make optionIndex) hfound
  obtain ⟨hbefore, hafter, hcross⟩ := List.pairwise_append.mp h.later
  rw [hmodify]
  constructor
  · intro d' hd' hawaits
    refine h.awaited d' ?_ hawaits
    rcases List.mem_append.mp hd' with hd' | hd'
    · exact List.mem_append_left _ hd'
    · rcases List.mem_cons.mp hd' with rfl | hd'
      · exact absurd hawaits (d.not_awaits_make optionIndex)
      · exact List.mem_append_right _ (List.mem_cons_of_mem d hd')
  · refine List.pairwise_append.mpr ⟨hbefore, List.pairwise_cons.mpr ⟨?_, hafter.of_cons⟩, ?_⟩
    · exact fun _ _ hawaits => absurd hawaits (d.not_awaits_make optionIndex)
    · intro a ha b hb hawaits
      rcases List.mem_cons.mp hb with rfl | hb
      · exact hcross a ha d (List.mem_cons_self ..) hawaits
      · exact hcross a ha b (List.mem_cons_of_mem d hb) hawaits

theorem Answerable.made_iff (h : Answerable host decisions) (hsteady : Steady host decisions) :
    Answerable host (modifyFirst (isPending decisionId) (.make optionIndex) decisions) ↔
      optionIndex.toNat < d.options.length := by
  obtain ⟨before, after, rfl, -, hpending, hmodify⟩ :=
    modifyFirst_of_find? (f := .make optionIndex) hfound
  rw [hmodify]
  constructor
  · intro h'
    exact h'.chosen (d.make optionIndex) (List.mem_append_right _ (List.mem_cons_self ..)) rfl
  · intro hindex
    have hawaits : d.Awaits := by
      refine ⟨?_, List.ne_nil_of_length_pos (Nat.zero_lt_of_lt hindex)⟩
      simpa using (Bool.and_eq_true_iff.mp hpending).2
    have hlater := (List.pairwise_cons.mp (List.pairwise_append.mp hsteady.later).2.1).1
    constructor
    · intro d' hd' hawaits' first hfirst
      have hold : d' ∈ before ++ d :: after := by
        rcases List.mem_append.mp hd' with hd' | hd'
        · exact List.mem_append_left _ hd'
        · rcases List.mem_cons.mp hd' with rfl | hd'
          · exact absurd hawaits' (d.not_awaits_make optionIndex)
          · exact List.mem_append_right _ (List.mem_cons_of_mem d hd')
      rw [List.find?_append] at hfirst
      rcases Option.or_eq_some_iff.mp hfirst with hfirst | ⟨-, hfirst⟩
      · refine h.first_of_host d' hold hawaits' first ?_
        rw [List.find?_append, hfirst, Option.some_or]
      · rcases List.mem_cons.mp (List.mem_of_find?_eq_some hfirst) with rfl | hmem
        · have hstill := List.find?_some hfirst
          simp [isPending, StoryDecision.make] at hstill
        · exact hlater first hmem hawaits
    · intro d' hd' hdone
      rcases List.mem_append.mp hd' with hd' | hd'
      · exact h.chosen d' (List.mem_append_left _ hd') hdone
      · rcases List.mem_cons.mp hd' with rfl | hd'
        · exact hindex
        · exact h.chosen d' (List.mem_append_right _ (List.mem_cons_of_mem d hd')) hdone

end Made

namespace SharedStoryMode
variable {s : SharedStoryMode} {session session' : StorySessionData}

def HandsOver (id : UInt32) (session : StorySessionData) : Op → Prop
  | .leaveStorySession id' p => id' = id ∧ session.hostPlayerId = p ∧ session.participants.erase p ≠ []
  | .kickPlayer id' p => id' = id ∧ session.hostPlayerId = p ∧ session.participants.erase p ≠ []
  | .transferHost id' p p' =>
    id' = id ∧ session.hostPlayerId = p ∧ p' ∈ session.participants ∧ p' ≠ p
  | _ => False

@[simp] theorem decisions_withoutPlayer (session : StorySessionData) (p : UInt32) :
    (withoutPlayer session p).decisions = session.decisions := by
  obtain ⟨host, roles, heq⟩ := exists_withoutPlayer session p
  rw [heq]

theorem hostPlayerId_withoutPlayer_of_ne {p : UInt32} (h : session.hostPlayerId ≠ p) :
    (withoutPlayer session p).hostPlayerId = session.hostPlayerId := by rw [withoutPlayer_of_ne h]

theorem hostPlayerId_withoutPlayer_mem (hleft : session.participants.erase session.hostPlayerId ≠ []) :
    (withoutPlayer session session.hostPlayerId).hostPlayerId
      ∈ session.participants.erase session.hostPlayerId := by
  obtain ⟨first, rest, hrest⟩ := List.exists_cons_of_ne_nil hleft
  rw [withoutPlayer_host hrest, hrest]
  exact List.mem_cons_self ..

theorem Writes.decisions_host {op : Op} (hw : Writes s op session') :
    session'.decisions = [] ∨ ∃ id session, s.getStorySession id = some session ∧ session.isActive ∧
      session'.decisions = session.decisions ∧
        (session'.hostPlayerId = session.hostPlayerId ∨ HandsOver id session op) := by
  cases hw with
  | created hinit => exact Or.inl rfl
  | joined hget hactive hroom hnew => exact Or.inr ⟨_, _, hget, hactive, rfl, Or.inl rfl⟩
  | @left id p session hget hactive hleft =>
    refine Or.inr ⟨id, session, hget, hactive, decisions_withoutPlayer session p, ?_⟩
    by_cases hp : session.hostPlayerId = p
    · exact Or.inr ⟨rfl, hp, hleft⟩
    · exact Or.inl (hostPlayerId_withoutPlayer_of_ne hp)
  | @kicked id p session hget hactive hin hleft =>
    refine Or.inr ⟨id, session, hget, hactive, decisions_withoutPlayer session p, ?_⟩
    by_cases hp : session.hostPlayerId = p
    · exact Or.inr ⟨rfl, hp, hleft⟩
    · exact Or.inl (hostPlayerId_withoutPlayer_of_ne hp)
  | given hget hactive hin => exact Or.inr ⟨_, _, hget, hactive, rfl, Or.inl rfl⟩
  | @handedOver id p p' session hget hactive hhost hin =>
    refine Or.inr ⟨id, session, hget, hactive, rfl, ?_⟩
    by_cases hp : p' = p
    · exact Or.inl (hp.trans hhost.symm)
    · exact Or.inr ⟨rfl, hhost, hin, hp⟩

theorem Sound.writes_of_handsOver (hsound : Sound s) {op : Op} {id : UInt32}
    (hget : s.getStorySession id = some session) (hactive : session.isActive)
    (hover : HandsOver id session op) : ∃ session', Writes s op session' ∧
      session'.decisions = session.decisions ∧ session'.hostPlayerId ≠ session.hostPlayerId := by
  obtain ⟨party, hshows⟩ := hsound id session hget hactive
  have hnodup : session.participants.Nodup := hshows.participants ▸ party.nodup
  have hhost : session.hostPlayerId ∈ session.participants := by
    rw [hshows.participants, hshows.host]
    exact party.host_mem
  cases op with
  | leaveStorySession id' p =>
    obtain ⟨rfl, rfl, hleft⟩ := hover
    refine ⟨_, .left hget hactive hleft, decisions_withoutPlayer .., ?_⟩
    exact (hnodup.mem_erase_iff.mp (hostPlayerId_withoutPlayer_mem hleft)).1
  | kickPlayer id' p =>
    obtain ⟨rfl, rfl, hleft⟩ := hover
    refine ⟨_, .kicked hget hactive hhost hleft, decisions_withoutPlayer .., ?_⟩
    exact (hnodup.mem_erase_iff.mp (hostPlayerId_withoutPlayer_mem hleft)).1
  | transferHost id' p p' =>
    obtain ⟨rfl, rfl, hin, hne⟩ := hover
    exact ⟨_, .handedOver hget hactive rfl hin, rfl, hne⟩
  | _ => exact hover.elim

inductive DecisionOp
  | session (op : Op)
  | presentStoryDecision (sessionId : UInt32) (decision : StoryDecision)
  | makeStoryDecision (sessionId decisionId optionIndex : UInt32)

def decisionStep (s : SharedStoryMode) : DecisionOp → SharedStoryMode
  | .session op => s.step op
  | .presentStoryDecision id d => (s.presentStoryDecision id d).1
  | .makeStoryDecision id d i => (s.makeStoryDecision id d i).1

/-- In an active session, a decision that is pending can be made with any of its options, and
one that is completed has an option of its own selected. -/
def Resolves (s : SharedStoryMode) : Prop :=
  ∀ id session, s.getStorySession id = some session → session.isActive → ∀ d ∈ session.decisions,
    (d.isCompleted → d.selectedOption.toNat < d.options.length) ∧
    (¬ d.isCompleted → ∀ optionIndex : UInt32, optionIndex.toNat < d.options.length →
      (s.makeStoryDecision id d.decisionId optionIndex).2)

/-- Nothing waits in a session that is handed over. What is presented as completed comes with one
of its options, and what waits is not kept from being found by a decision of another host that
has its id. What is made is made with one of its options. -/
def KeepsAnswers (s : SharedStoryMode) : DecisionOp → Prop
  | .session op => ∀ id session, s.getStorySession id = some session → session.isActive →
    HandsOver id session op → ∀ d ∈ session.decisions, ¬ d.Awaits
  | .presentStoryDecision id d => ∀ session, s.getStorySession id = some session → session.isActive →
    (d.isCompleted → d.selectedOption.toNat < d.options.length) ∧
    (d.Awaits → ∀ first, session.decisions.find? (isPending s.nextDecisionId) = some first →
      first.hostPlayerId = session.hostPlayerId)
  | .makeStoryDecision id decisionId optionIndex => ∀ session, s.getStorySession id = some session →
    session.isActive → ∀ d, session.decisions.find? (isPending decisionId) = some d →
      d.hostPlayerId = session.hostPlayerId → optionIndex.toNat < d.options.length

def AllAnswerable (s : SharedStoryMode) : Prop :=
  EveryActive (fun session => Answerable session.hostPlayerId session.decisions) s

def AllSteady (s : SharedStoryMode) : Prop :=
  EveryActive (fun session => Steady session.hostPlayerId session.decisions) s

theorem storySessions_presentStoryDecision {id : UInt32} (hget : s.getStorySession id = some session)
    (hactive : session.isActive) (d : StoryDecision) :
    (s.presentStoryDecision id d).1.storySessions = s.storySessions.insert id { session with
      decisions := session.decisions ++
        [{ d with decisionId := s.nextDecisionId, hostPlayerId := session.hostPlayerId }] } := by
  rw [presentStoryDecision, hget]
  dsimp only
  rw [if_neg (not_not.mpr hactive)]
  rfl

theorem decisions_refused {id : UInt32}
    (h : ∀ session, s.getStorySession id = some session → ¬ session.isActive) :
    (∀ d, s.presentStoryDecision id d = (s, false)) ∧
      ∀ decisionId optionIndex, s.makeStoryDecision id decisionId optionIndex = (s, false) := by
  simp only [presentStoryDecision, makeStoryDecision]
  cases hget : s.getStorySession id with
  | none => exact ⟨fun _ => rfl, fun _ _ => rfl⟩
  | some session =>
    have hended := h session hget
    exact ⟨fun _ => if_pos hended, fun _ _ => if_pos hended⟩

theorem makeStoryDecision_cases {id : UInt32} (hget : s.getStorySession id = some session)
    (hactive : session.isActive) (decisionId optionIndex : UInt32) :
    (∃ d, session.decisions.find? (isPending decisionId) = some d ∧
      d.hostPlayerId = session.hostPlayerId ∧
      (s.makeStoryDecision id decisionId optionIndex).2 ∧
      (s.makeStoryDecision id decisionId optionIndex).1.storySessions
        = s.storySessions.insert id { session with
          decisions := modifyFirst (isPending decisionId) (.make optionIndex) session.decisions }) ∨
    (∀ d, session.decisions.find? (isPending decisionId) = some d →
      d.hostPlayerId ≠ session.hostPlayerId) ∧
      s.makeStoryDecision id decisionId optionIndex = (s, false) := by
  rw [makeStoryDecision, hget]
  dsimp only
  rw [if_neg (not_not.mpr hactive)]
  cases hfound : session.decisions.find? (isPending decisionId) with
  | none => exact Or.inr ⟨fun d hd => (nomatch hd), rfl⟩
  | some d =>
    have hcan : s.canPlayerMakeDecision id d.hostPlayerId ↔ d.hostPlayerId = session.hostPlayerId := by
      rw [canPlayerMakeDecision, hget, decide_eq_true_iff, eq_comm]
    dsimp only
    by_cases hhost : d.hostPlayerId = session.hostPlayerId
    · rw [if_neg (not_not.mpr (hcan.mpr hhost))]
      exact Or.inl ⟨d, rfl, hhost, rfl, rfl⟩
    · rw [if_pos fun h => hhost (hcan.mp h)]
      exact Or.inr ⟨fun d' hd' => Option.some.inj hd' ▸ hhost, rfl⟩

theorem makeStoryDecision_accepted_iff {id decisionId optionIndex : UInt32}
    (hget : s.getStorySession id = some session) (hactive : session.isActive) :
    (s.makeStoryDecision id decisionId optionIndex).2 ↔
      ∃ first, session.decisions.find? (isPending decisionId) = some first ∧
        first.hostPlayerId = session.hostPlayerId := by
  rcases makeStoryDecision_cases hget hactive decisionId optionIndex with
    ⟨d, hfound, hhost, hmade, -⟩ | ⟨hother, hrefused⟩
  · exact iff_of_true hmade ⟨d, hfound, hhost⟩
  · rw [hrefused]
    exact iff_of_false Bool.false_ne_true fun ⟨d, hfound, hhost⟩ => hother d hfound hhost

theorem resolves_iff : Resolves s ↔ AllAnswerable s := by
  refine forall₄_congr fun id session hget hactive => ?_
  constructor
  · intro h
    constructor
    · intro d hd hawaits first hfirst
      have hzero : (0 : UInt32).toNat < d.options.length := List.length_pos_of_ne_nil hawaits.2
      have hmade := (h d hd).2 hawaits.1 0 hzero
      obtain ⟨first', hfirst', hhost⟩ := (makeStoryDecision_accepted_iff hget hactive).mp hmade
      obtain rfl := Option.some.inj (hfirst.symm.trans hfirst')
      exact hhost
    · exact fun d hd => (h d hd).1
  · intro h d hd
    refine ⟨h.chosen d hd, fun hpending optionIndex hindex => ?_⟩
    have hawaits : d.Awaits := ⟨hpending, List.ne_nil_of_length_pos (Nat.zero_lt_of_lt hindex)⟩
    have hsome : (session.decisions.find? (isPending d.decisionId)).isSome :=
      List.find?_isSome.mpr ⟨d, hd, hawaits.isPending⟩
    obtain ⟨first, hfirst⟩ := Option.isSome_iff_exists.mp hsome
    refine (makeStoryDecision_accepted_iff hget hactive).mpr ⟨first, hfirst, ?_⟩
    exact h.first_of_host d hd hawaits first hfirst

theorem Sound.redecided (hsound : Sound s) {s' : SharedStoryMode} {id : UInt32}
    {decisions : List StoryDecision} (hget : s.getStorySession id = some session)
    (hactive : session.isActive)
    (hs' : s'.storySessions = s.storySessions.insert id { session with decisions := decisions }) :
    Sound s' := by
  obtain ⟨party, hshows⟩ := hsound id session hget hactive
  refine (EveryActive.write_iff hsound hs' hactive).mpr ⟨party, ?_⟩
  exact ⟨hshows.participants, hshows.host, hshows.roles⟩

section Step
variable (hsound : Sound s) (h : AllAnswerable s) (hsteady : AllSteady s)

include hsound h in
theorem AllAnswerable.step_iff (op : Op) :
    AllAnswerable (s.step op) ↔ KeepsAnswers s (.session op) := by
  refine (EveryActive.step_iff h op).trans ⟨fun hw id session hget hactive hover => ?_, ?_⟩
  · obtain ⟨session', hw', hdecisions, hne⟩ := hsound.writes_of_handsOver hget hactive hover
    have hnew := hw session' hw'
    rw [hdecisions] at hnew
    exact ((h id session hget hactive).handOver_iff hne).mp hnew
  · intro hkeeps session' hw
    rcases hw.decisions_host with hnil | ⟨id, session, hget, hactive, hdecisions, hhost | hover⟩
    · rw [hnil]
      exact ⟨fun d hd => absurd hd List.not_mem_nil, fun d hd => absurd hd List.not_mem_nil⟩
    · rw [hdecisions, hhost]
      exact h id session hget hactive
    · rw [hdecisions]
      refine ⟨fun d hd hawaits => absurd hawaits (hkeeps id session hget hactive hover d hd), ?_⟩
      exact (h id session hget hactive).chosen

include hsteady in
theorem AllSteady.step {op : Op} (hkeeps : KeepsAnswers s (.session op)) : AllSteady (s.step op) := by
  refine (EveryActive.step_iff hsteady op).mpr fun session' hw => ?_
  rcases hw.decisions_host with hnil | ⟨id, session, hget, hactive, hdecisions, hhost | hover⟩
  · rw [hnil]
    exact steady_of_none_awaits fun d hd => absurd hd List.not_mem_nil
  · rw [hdecisions, hhost]
    exact hsteady id session hget hactive
  · rw [hdecisions]
    exact steady_of_none_awaits (hkeeps id session hget hactive hover)

include hsound h hsteady

theorem AllAnswerable.presented_iff (id : UInt32) (d : StoryDecision) :
    (AllAnswerable (s.presentStoryDecision id d).1 ↔ KeepsAnswers s (.presentStoryDecision id d)) ∧
      Sound (s.presentStoryDecision id d).1 ∧ AllSteady (s.presentStoryDecision id d).1 := by
  by_cases hsome : ∃ session, s.getStorySession id = some session ∧ session.isActive
  · obtain ⟨session, hget, hactive⟩ := hsome
    have hwritten := storySessions_presentStoryDecision hget hactive d
    refine ⟨(EveryActive.write_iff h hwritten hactive).trans ?_,
      hsound.redecided hget hactive hwritten, ?_⟩
    · refine ((h id session hget hactive).present_iff rfl).trans ?_
      simp [KeepsAnswers, StoryDecision.Awaits, hget, hactive]
    · refine (EveryActive.write_iff hsteady hwritten hactive).mpr ?_
      exact (hsteady id session hget hactive).present rfl
  · have hnone : ∀ session, s.getStorySession id = some session → ¬ session.isActive :=
      fun session hget hactive => hsome ⟨session, hget, hactive⟩
    rw [(decisions_refused hnone).1]
    exact ⟨iff_of_true h fun session hget hactive => absurd hactive (hnone session hget),
      hsound, hsteady⟩

theorem AllAnswerable.made_iff (id decisionId optionIndex : UInt32) :
    (AllAnswerable (s.makeStoryDecision id decisionId optionIndex).1 ↔
        KeepsAnswers s (.makeStoryDecision id decisionId optionIndex)) ∧
      Sound (s.makeStoryDecision id decisionId optionIndex).1 ∧
      AllSteady (s.makeStoryDecision id decisionId optionIndex).1 := by
  by_cases hsome : ∃ session, s.getStorySession id = some session ∧ session.isActive
  · obtain ⟨session, hget, hactive⟩ := hsome
    rcases makeStoryDecision_cases hget hactive decisionId optionIndex with
      ⟨d, hfound, hhost, -, hwritten⟩ | ⟨hother, hrefused⟩
    · have hsteady' := hsteady id session hget hactive
      refine ⟨(EveryActive.write_iff h hwritten hactive).trans ?_,
        hsound.redecided hget hactive hwritten, ?_⟩
      · refine ((h id session hget hactive).made_iff hfound optionIndex hsteady').trans ?_
        simp [KeepsAnswers, hget, hactive, hfound, hhost]
      · refine (EveryActive.write_iff hsteady hwritten hactive).mpr ?_
        exact hsteady'.made hfound optionIndex
    · rw [hrefused]
      refine ⟨iff_of_true h fun session' hget' _ d hd hhost => ?_, hsound, hsteady⟩
      obtain rfl := Option.some.inj (hget.symm.trans hget')
      exact absurd hhost (hother d hd)
  · have hnone : ∀ session, s.getStorySession id = some session → ¬ session.isActive :=
      fun session hget hactive => hsome ⟨session, hget, hactive⟩
    rw [(decisions_refused hnone).2]
    exact ⟨iff_of_true h fun session hget hactive => absurd hactive (hnone session hget),
      hsound, hsteady⟩

theorem AllAnswerable.decisionStep_iff (op : DecisionOp) :
    (AllAnswerable (s.decisionStep op) ↔ KeepsAnswers s op) ∧
      (KeepsAnswers s op → Sound (s.decisionStep op) ∧ AllSteady (s.decisionStep op)) := by
  cases op with
  | session op =>
    exact ⟨AllAnswerable.step_iff hsound h op, fun hkeeps => ⟨hsound.step op, hsteady.step hkeeps⟩⟩
  | presentStoryDecision id d =>
    obtain ⟨hiff, hkept⟩ := AllAnswerable.presented_iff hsound h hsteady id d
    exact ⟨hiff, fun _ => hkept⟩
  | makeStoryDecision id decisionId optionIndex =>
    obtain ⟨hiff, hkept⟩ := AllAnswerable.made_iff hsound h hsteady id decisionId optionIndex
    exact ⟨hiff, fun _ => hkept⟩

end Step

/-- Pending decisions can be made and completed ones are made well after every call exactly if
nothing waits where the host changes, and what is presented and chosen is in order. -/
theorem resolves_along_iff (initialized : Bool) (maxSessionSize : UInt32) (ops : List DecisionOp) :
    let start : SharedStoryMode := { initialized := initialized, maxSessionSize := maxSessionSize }
    Run.Along decisionStep (fun s op => Resolves (s.decisionStep op)) start ops ↔
      Run.Along decisionStep KeepsAnswers start ops := by
  intro start
  refine Run.along_congr_of_step (I := fun s => Sound s ∧ AllAnswerable s ∧ AllSteady s)
    (fun s op hs => ?_) ⟨sound_initial initialized maxSessionSize, fun _ _ h => (nomatch h),
      fun _ _ h => (nomatch h)⟩
  obtain ⟨hsound, hanswer, hsteady⟩ := hs
  obtain ⟨hiff, hkeep⟩ := AllAnswerable.decisionStep_iff hsound hanswer hsteady op
  refine ⟨resolves_iff.trans hiff, fun hkeeps => ?_⟩
  exact ⟨(hkeep hkeeps).1, hiff.mpr hkeeps, (hkeep hkeeps).2⟩

theorem not_resolves_handed_over :
    ¬ Run.Along decisionStep (fun s op => Resolves (s.decisionStep op)) { initialized := true }
      [.session (.createStorySession "Velen" .mainCampaign 7),
        .session (.joinStorySession 1 8 .participant),
        .presentStoryDecision 1 { questId := "q003_velen", options := ["spare", "kill"] },
        .session (.transferHost 1 7 8)] := by
  intro h
  let d : StoryDecision :=
    { decisionId := 1, questId := "q003_velen", options := ["spare", "kill"], hostPlayerId := 7 }
  let session : StorySessionData := {
    sessionId := 1, sessionName := "Velen", storyType := .mainCampaign, hostPlayerId := 8
    participants := [7, 8], playerRoles := (OrdMap.empty.insert 7 .participant).insert 8 .host
    decisions := [d], isActive := true }
  have hmade := (h.2.2.2.1 1 session (by decide +kernel) rfl d (List.mem_singleton_self d)).2
    (by decide) 0 (by decide)
  revert hmade
  decide +kernel

end SharedStoryMode
end WitcherMP.Story
