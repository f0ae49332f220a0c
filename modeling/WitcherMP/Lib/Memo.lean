import WitcherMP.Lib.OrdMap
import Mathlib.Data.Set.Basic

/-! Maps as memos of a partial function: a value on file is handed out instead of a computed
one. Filling a memo keeps what it says; only a change of the function can put it out of date. -/

namespace WitcherMP.Memo
variable {κ α : Type*} [LinearOrder κ] (f : κ → Option α)

def Fills (m m' : OrdMap κ α) : Prop :=
  ∀ k, m'.find? k = m.find? k ∨ m.find? k = none ∧ ∃ v, f k = some v ∧ m'.find? k = some v

def Current (pinned : Set κ) (m : OrdMap κ α) : Prop :=
  ∀ k ∉ pinned, ∀ v w, f k = some v → m.find? k = some w → w = v

variable {f} {m m' m'' : OrdMap κ α} {pinned : Set κ}

theorem Fills.refl (m : OrdMap κ α) : Fills f m m := fun _ => Or.inl rfl

theorem Fills.trans (h : Fills f m m') (h' : Fills f m' m'') : Fills f m m'' := by
  intro k
  rcases h' k with heq | ⟨hnone, v, hv, hm''⟩
  · rw [heq]
    exact h k
  · rcases h k with heq | ⟨-, w, -, hm'⟩
    · exact Or.inr ⟨heq ▸ hnone, v, hv, hm''⟩
    · exact absurd (hnone.symm.trans hm').symm (Option.some_ne_none w)

theorem fills_insert {k : κ} {v : α} (hv : f k = some v) :
    Fills f m (m.insert k ((m.find? k).getD v)) := by
  intro k'
  rw [OrdMap.find?_insert]
  split_ifs with hk
  · subst hk
    cases hm : m.find? k with
    | none => exact Or.inr ⟨rfl, v, hv, rfl⟩
    | some w => exact Or.inl rfl
  · exact Or.inl rfl

theorem Fills.current_iff (h : Fills f m m') : Current f pinned m' ↔ Current f pinned m := by
  constructor
  · intro hc k hk v w hv hw
    rcases h k with heq | ⟨hnone, -⟩
    · exact hc k hk v w hv (heq.trans hw)
    · exact absurd (hnone.symm.trans hw).symm (Option.some_ne_none w)
  · intro hc k hk v w hv hw
    rcases h k with heq | ⟨-, v', hv', hw'⟩
    · exact hc k hk v w hv (heq ▸ hw)
    · exact Option.some.inj ((hw.symm.trans hw').trans (hv'.symm.trans hv))

theorem current_iff_read :
    Current f pinned m ↔ ∀ k ∉ pinned, ∀ v, f k = some v → (m.find? k).getD v = v := by
  constructor
  · intro hc k hk v hv
    cases hm : m.find? k with
    | none => rfl
    | some w => exact hc k hk v w hv hm
  · intro hr k hk v w hv hw
    have hread := hr k hk v hv
    rwa [hw] at hread

theorem current_of_pinned (h : ∀ k, m.find? k ≠ none → k ∈ pinned) : Current f pinned m :=
  fun k hk _ w _ hw => absurd (h k fun hnone => Option.some_ne_none w (hw.symm.trans hnone)) hk

theorem current_empty : Current f pinned (.empty : OrdMap κ α) :=
  current_of_pinned fun _ h => absurd rfl h

end WitcherMP.Memo
