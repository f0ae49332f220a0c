import WitcherMP.Batching.Bounds
import Mathlib.Logic.Function.Iterate

/-! Gathering by size, again and again. A message beyond the limits is never taken, and nothing
behind it is either. -/

namespace WitcherMP.Batching

open Compression Messages

namespace BatchConfig
variable [Inhabited MessageTypes]

def Admits (config : BatchConfig) (message : PrioritizedMessage MessageTypes) : Prop :=
  0 < config.maxMessages ∧ message.data.length ≤ config.maxSize

end BatchConfig

namespace SmartBatching
variable [Inhabited MessageTypes] (dc : DataCompression) (clock : ℕ → ℚ)

def Moves (b b' : SmartBatching) : Prop :=
  ∃ taken, taken ≠ [] ∧ b.pendingMessages = taken ++ b'.pendingMessages ∧ Placed dc b [taken] b'

/-- Repeated calls empty the list, and until then each moves at least one message. -/
def Drains (b : SmartBatching) : Prop :=
  (∃ calls, ((processSizeBatching dc clock)^[calls] b).pendingMessages = []) ∧
    ∀ calls, ((processSizeBatching dc clock)^[calls] b).pendingMessages ≠ [] →
      Moves dc ((processSizeBatching dc clock)^[calls] b)
        ((processSizeBatching dc clock)^[calls + 1] b)

variable {dc} {b : SmartBatching}

theorem config_processSizeBatching (b : SmartBatching) :
    (processSizeBatching dc clock b).config = b.config := by
  rw [processSizeBatching]
  split
  · rfl
  · rfl

theorem pendingMessages_processSizeBatching (b : SmartBatching) :
    (processSizeBatching dc clock b).pendingMessages =
      (takeFitting b.config.maxSize b.config.maxMessages 0 0 b.pendingMessages).2 := by
  rw [processSizeBatching]
  split
  · rfl
  · rfl

theorem moves_of_admits {m : PrioritizedMessage MessageTypes}
    {ms : List (PrioritizedMessage MessageTypes)} (hpending : b.pendingMessages = m :: ms)
    (hm : b.config.Admits m) : Moves dc b (processSizeBatching dc clock b) := by
  have htaken : (takeFitting b.config.maxSize b.config.maxMessages 0 0 b.pendingMessages).1 ≠ [] := by
    rw [hpending, takeFitting, if_pos ⟨by rw [Nat.zero_add]; exact hm.2, hm.1⟩]
    exact List.cons_ne_nil _ _
  refine ⟨_, htaken, ?_, ?_⟩
  · rw [pendingMessages_processSizeBatching, takeFitting_append]
  · have hplaced : Placed dc b (nonempty _) (processSizeBatching dc clock b) :=
      placed_processSizeBatching clock b
    rwa [nonempty, if_neg htaken] at hplaced

theorem stays_of_not_admits {m : PrioritizedMessage MessageTypes} (hm : m ∈ b.pendingMessages)
    (hnot : ¬ b.config.Admits m) : m ∈ (processSizeBatching dc clock b).pendingMessages := by
  have hwithin := takeFitting_within b.config.maxSize b.config.maxMessages 0 0 b.pendingMessages
  rw [← takeFitting_append b.config.maxSize b.config.maxMessages 0 0 b.pendingMessages] at hm
  rw [pendingMessages_processSizeBatching]
  rcases List.mem_append.mp hm with htaken | hrest
  · obtain ⟨hsize, hcount⟩ := hwithin (List.ne_nil_of_mem htaken)
    have hpos := List.length_pos_of_mem htaken
    have hle : m.data.length ≤ sizeOf _ :=
      List.single_le_sum (fun _ _ => Nat.zero_le _) _ (List.mem_map_of_mem htaken)
    exact absurd ⟨by omega, by omega⟩ hnot
  · exact hrest

def AllAdmitted (b : SmartBatching) : Prop := ∀ m ∈ b.pendingMessages, b.config.Admits m

theorem AllAdmitted.call (h : AllAdmitted b) : AllAdmitted (processSizeBatching dc clock b) := by
  intro m hm
  rw [config_processSizeBatching]
  apply h
  rw [pendingMessages_processSizeBatching] at hm
  rw [← takeFitting_append b.config.maxSize b.config.maxMessages 0 0 b.pendingMessages]
  exact List.mem_append_right _ hm

theorem AllAdmitted.calls (h : AllAdmitted b) (calls : ℕ) :
    AllAdmitted ((processSizeBatching dc clock)^[calls] b) := by
  induction calls with
  | zero => exact h
  | succ calls ih =>
    rw [Function.iterate_succ_apply']
    exact ih.call clock

theorem AllAdmitted.moves (h : AllAdmitted b) (hne : b.pendingMessages ≠ []) :
    Moves dc b (processSizeBatching dc clock b) := by
  obtain ⟨m, ms, hpending⟩ := List.exists_cons_of_ne_nil hne
  exact moves_of_admits clock hpending (h m (by rw [hpending]; exact List.mem_cons_self ..))

theorem AllAdmitted.empties (h : AllAdmitted b) :
    ∃ calls, ((processSizeBatching dc clock)^[calls] b).pendingMessages = [] := by
  generalize hlen : b.pendingMessages.length = n
  induction n using Nat.strong_induction_on generalizing b with
  | _ n ih =>
    by_cases hnil : b.pendingMessages = []
    · exact ⟨0, hnil⟩
    · have hcall : AllAdmitted (processSizeBatching dc clock b) := h.call clock
      obtain ⟨taken, htaken, hsplit, -⟩ : Moves dc b (processSizeBatching dc clock b) :=
        h.moves clock hnil
      have hpos := List.length_pos_iff.mpr htaken
      have hsum := congrArg List.length hsplit
      rw [List.length_append, hlen] at hsum
      obtain ⟨calls, hempty⟩ := ih _ (by omega) hcall rfl
      exact ⟨calls + 1, hempty⟩

theorem drains_of_allAdmitted (h : AllAdmitted b) : Drains dc clock b := by
  refine ⟨h.empties clock, fun calls hne => ?_⟩
  rw [Function.iterate_succ_apply']
  exact (h.calls clock calls).moves clock hne

theorem stays_forever {m : PrioritizedMessage MessageTypes} (hm : m ∈ b.pendingMessages)
    (hnot : ¬ b.config.Admits m) (calls : ℕ) :
    m ∈ ((processSizeBatching dc clock)^[calls] b).pendingMessages := by
  induction calls generalizing b with
  | zero => exact hm
  | succ calls ih =>
    rw [Function.iterate_succ_apply]
    apply ih (stays_of_not_admits clock hm hnot)
    rwa [config_processSizeBatching]

/-- The list is emptied, message by message, exactly if each message that waits could be a batch
of its own. -/
theorem drains_iff (dc : DataCompression) (clock : ℕ → ℚ) (b : SmartBatching) :
    Drains dc clock b ↔ ∀ m ∈ b.pendingMessages,
      0 < b.config.maxMessages ∧ m.data.length ≤ b.config.maxSize := by
  refine ⟨fun h m hm => ?_, drains_of_allAdmitted clock⟩
  by_contra hnot
  obtain ⟨calls, hempty⟩ := h.1
  have hstays : m ∈ ((processSizeBatching dc clock)^[calls] b).pendingMessages :=
    stays_forever clock hm hnot calls
  rw [hempty] at hstays
  exact List.not_mem_nil hstays

omit [Inhabited MessageTypes] in
theorem not_drains_large :
    ¬ ∀ (_ : Inhabited MessageTypes) (dc : DataCompression) (clock : ℕ → ℚ) (b : SmartBatching),
      Drains dc clock b := by
  intro h
  let _ : Inhabited MessageTypes := ⟨.batchMessage⟩
  let large : PrioritizedMessage MessageTypes := { data := [0, 0] }
  let b : SmartBatching := { initial { maxSize := 1 } 0 with pendingMessages := [large] }
  obtain ⟨calls, hempty⟩ := (h _ ⟨true, 64⟩ (fun _ => 0) b).1
  have hlarge : ¬ b.config.Admits large := fun hm => absurd hm.2 (by decide)
  have hstays : large ∈ ((processSizeBatching ⟨true, 64⟩ fun _ => 0)^[calls] b).pendingMessages :=
    stays_forever (fun _ => 0) (List.mem_singleton_self _) hlarge calls
  rw [hempty] at hstays
  exact List.not_mem_nil hstays

end SmartBatching
end WitcherMP.Batching
