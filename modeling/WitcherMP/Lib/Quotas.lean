import WitcherMP.Lib.Run
import Mathlib.Data.List.Induction

/-! Counters that are set back from time to time. A system hands out of a stock what it let in
before, and a counter keeps the sum handed out since it was set back. Whether that sum stays
within a limit is decided where things are let in. -/

namespace WitcherMP.Quotas

open Run

variable {σ α : Type*}

structure Meter (step : σ → α → σ) where
  counter : σ → ℕ
  stock : σ → ℕ
  letIn : σ → α → ℕ
  handed : σ → α → ℕ
  resets : σ → α → Prop
  live : σ → Prop
  counter_reset : ∀ s a, resets s a → counter (step s a) = 0
  counter_kept : ∀ s a, ¬ resets s a → counter (step s a) = counter s + handed s a
  stock_step : ∀ s a, stock (step s a) + handed s a = stock s + letIn s a
  letIn_only : ∀ s a, letIn s a ≠ 0 → handed s a = 0 ∧ ¬ resets s a
  live_step : ∀ s a, live s → live (step s a)
  drains : ∀ s, live s → ∃ a, handed s a = stock s

namespace Meter
variable {step : σ → α → σ} (m : Meter step)

theorem counter_run {s : σ} {as : List α} (h : Along step (fun s a => ¬ m.resets s a) s as) :
    m.counter (run step s as) = m.counter s + total step m.handed s as := by
  induction as generalizing s with
  | nil => rfl
  | cons a as ih =>
    rw [run, total, ih h.2, m.counter_kept s a h.1, Nat.add_assoc]

theorem exists_since_reset {s : σ} (h : m.counter s = 0) (as : List α) :
    ∃ before segment, before ++ segment = as ∧ m.counter (run step s before) = 0 ∧
      Along step (fun s a => ¬ m.resets s a) (run step s before) segment := by
  induction as using List.reverseRecOn with
  | nil => exact ⟨[], [], rfl, h, trivial⟩
  | append_singleton as a ih =>
    obtain ⟨before, segment, rfl, hzero, hkept⟩ := ih
    by_cases hreset : m.resets (run step s (before ++ segment)) a
    · refine ⟨before ++ segment ++ [a], [], List.append_nil _, ?_, trivial⟩
      rw [run_append]
      exact m.counter_reset _ _ hreset
    · refine ⟨before, segment ++ [a], (List.append_assoc ..).symm, hzero, ?_⟩
      rw [along_append_iff, ← run_append]
      exact ⟨hkept, hreset, trivial⟩

theorem handed_le_stock (s : σ) (a : α) : m.handed s a ≤ m.stock s := by
  have hstock := m.stock_step s a
  by_cases h : m.letIn s a = 0
  · omega
  · rw [(m.letIn_only s a h).1]
    exact Nat.zero_le _

def Fits (L : ℕ) (s : σ) (a : α) : Prop :=
  m.letIn s a ≠ 0 → m.counter s + m.stock s + m.letIn s a ≤ L

theorem fits_step {L : ℕ} {s : σ} {a : α} (h : m.counter s + m.stock s ≤ L) (hfits : m.Fits L s a) :
    m.counter (step s a) + m.stock (step s a) ≤ L := by
  have hstock := m.stock_step s a
  by_cases hreset : m.resets s a
  · have hnone : m.letIn s a = 0 := by
      by_contra hne
      exact (m.letIn_only s a hne).2 hreset
    rw [m.counter_reset s a hreset]
    omega
  · rw [m.counter_kept s a hreset]
    by_cases hnone : m.letIn s a = 0
    · omega
    · have hle := hfits hnone
      omega

/-- Between two points where the counter is set back, and whatever is asked for next, no more
than the limit is handed out. -/
def Within (L : ℕ) (s : σ) (as : List α) : Prop :=
  ∀ before segment, before ++ segment <+: as → m.counter (run step s before) = 0 →
    Along step (fun s a => ¬ m.resets s a) (run step s before) segment →
      ∀ a, total step m.handed (run step s before) (segment ++ [a]) ≤ L

variable {m}

theorem total_segment {s : σ} {segment : List α} (hzero : m.counter s = 0)
    (hkept : Along step (fun s a => ¬ m.resets s a) s segment) (a : α) :
    total step m.handed s (segment ++ [a]) =
      m.counter (run step s segment) + m.handed (run step s segment) a := by
  rw [total_append, m.counter_run hkept, hzero, Nat.zero_add]
  rfl

theorem within_iff {L : ℕ} {s : σ} (hlive : m.live s) (hzero : m.counter s = 0)
    (hstock : m.stock s ≤ L) (as : List α) :
    m.Within L s as ↔ Along step (m.Fits L) s as := by
  constructor
  · intro h
    induction as using List.reverseRecOn with
    | nil => trivial
    | append_singleton as a ih =>
      rw [along_append_iff]
      refine ⟨ih fun before segment hbegins => ?_, fun hlet => ?_, trivial⟩
      · exact h before segment (hbegins.trans (List.prefix_append _ _))
      · obtain ⟨before, segment, hsplit, hzero', hkept⟩ := m.exists_since_reset hzero (as ++ [a])
        have hlive' : m.live (run step s (as ++ [a])) := invariant_run m.live_step hlive _
        obtain ⟨d, hd⟩ := m.drains _ hlive'
        have hle := h before segment (hsplit ▸ List.prefix_refl _) hzero' hkept d
        rw [total_segment hzero' hkept, ← run_append, hsplit, hd, run_append] at hle
        obtain ⟨hnone, hreset⟩ := m.letIn_only _ _ hlet
        have hcounter := m.counter_kept _ _ hreset
        have hstock' := m.stock_step (run step s as) a
        rw [run, run, hcounter] at hle
        omega
  · rintro h before segment hbegins hzero' hkept a
    obtain ⟨rest, rfl⟩ := hbegins
    have hinv : m.counter (run step s (before ++ segment)) +
        m.stock (run step s (before ++ segment)) ≤ L := by
      refine (along_of_step (Q := fun _ _ => True) (I := fun s => m.counter s + m.stock s ≤ L)
        (fun s a hs hfits => ⟨m.fits_step hs hfits, trivial⟩) ?_ (along_append_iff.mp h).1).1
      omega
    have hle := m.handed_le_stock (run step s (before ++ segment)) a
    rw [total_segment hzero' hkept, ← run_append]
    omega

end Meter
end WitcherMP.Quotas
