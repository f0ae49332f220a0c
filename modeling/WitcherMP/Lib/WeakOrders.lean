import Mathlib.Algebra.Order.Group.Unbundled.Abs
import Mathlib.Algebra.Order.Ring.Defs
import Mathlib.Data.Set.Insert
import Mathlib.Order.Defs.Unbundled
import Mathlib.Tactic.Linarith

/-! Strict weak orders on a set: the two laws that are enough, comparison by a key first, and
comparison up to a tolerance first, with a second value to break the ties. -/

namespace WitcherMP.WeakOrders
variable {α κ G τ : Type*}

structure WeakOn (r : α → α → Prop) (S : Set α) : Prop where
  asymm : ∀ a ∈ S, ∀ b ∈ S, r a b → ¬ r b a
  split : ∀ a ∈ S, ∀ b ∈ S, ∀ c ∈ S, r a c → r a b ∨ r b c

theorem weakOn_iff (r : α → α → Prop) (S : Set α) :
    WeakOn r S ↔ IsStrictWeakOrder S fun a b => r a b := by
  constructor
  · rintro ⟨hasymm, hsplit⟩
    have hirrefl : ∀ a ∈ S, ¬ r a a := fun a ha h => hasymm a ha a ha h h
    have hnot : ∀ a ∈ S, ∀ b ∈ S, ∀ c ∈ S, ¬ r a b → ¬ r b c → ¬ r a c :=
      fun a ha b hb c hc hab hbc h => (hsplit a ha b hb c hc h).elim hab hbc
    refine { irrefl := fun a => hirrefl a a.2, trans := fun a b c hab hbc => ?_,
             incomp_trans := fun a b c hab hbc => ?_ }
    · rcases hsplit a a.2 c c.2 b b.2 hab with h | h
      · exact h
      · exact absurd h (hasymm b b.2 c c.2 hbc)
    · exact ⟨hnot a a.2 b b.2 c c.2 hab.1 hbc.1, hnot c c.2 b b.2 a a.2 hbc.2 hab.2⟩
  · intro h
    refine ⟨fun a ha b hb hab hba => ?_, fun a ha b hb c hc hac => ?_⟩
    · exact h.irrefl ⟨a, ha⟩ (h.trans ⟨a, ha⟩ ⟨b, hb⟩ ⟨a, ha⟩ hab hba)
    · by_contra hnot
      rw [not_or] at hnot
      by_cases hba : r b a
      · exact hnot.2 (h.trans ⟨b, hb⟩ ⟨a, ha⟩ ⟨c, hc⟩ hba hac)
      · by_cases hcb : r c b
        · exact hnot.1 (h.trans ⟨a, ha⟩ ⟨c, hc⟩ ⟨b, hb⟩ hac hcb)
        · exact (h.incomp_trans ⟨a, ha⟩ ⟨b, hb⟩ ⟨c, hc⟩ ⟨hnot.1, hba⟩ ⟨hnot.2, hcb⟩).1 hac

section Key
variable [LinearOrder κ]

def lexBy (key : α → κ) (r : α → α → Prop) (a b : α) : Prop :=
  key a < key b ∨ key a = key b ∧ r a b

theorem lexBy_of_eq {key : α → κ} {r : α → α → Prop} {a b : α} (h : key a = key b) :
    lexBy key r a b ↔ r a b := by
  rw [lexBy, h]
  simp

theorem weakOn_lexBy (key : α → κ) (r : α → α → Prop) (S : Set α) :
    WeakOn (lexBy key r) S ↔ ∀ k, WeakOn r {a ∈ S | key a = k} := by
  constructor
  · intro h k
    refine ⟨fun a ⟨ha, hka⟩ b ⟨hb, hkb⟩ hab => ?_, fun a ⟨ha, hka⟩ b ⟨hb, hkb⟩ c ⟨hc, hkc⟩ hac => ?_⟩
    · have hkey : key a = key b := hka.trans hkb.symm
      have hnot := h.asymm a ha b hb ((lexBy_of_eq hkey).mpr hab)
      rwa [lexBy_of_eq hkey.symm] at hnot
    · have hsplit := h.split a ha b hb c hc ((lexBy_of_eq (hka.trans hkc.symm)).mpr hac)
      rwa [lexBy_of_eq (hka.trans hkb.symm), lexBy_of_eq (hkb.trans hkc.symm)] at hsplit
  · intro h
    refine ⟨fun a ha b hb hab hba => ?_, fun a ha b hb c hc hac => ?_⟩
    · rcases hab with hlt | ⟨hkey, hab⟩
      · rcases hba with hgt | ⟨hkey, -⟩
        · exact lt_asymm hlt hgt
        · exact absurd hkey hlt.ne'
      · rw [lexBy_of_eq hkey.symm] at hba
        exact (h (key b)).asymm a ⟨ha, hkey⟩ b ⟨hb, rfl⟩ hab hba
    · rcases lt_trichotomy (key a) (key b) with hlt | heq | hgt
      · exact Or.inl (Or.inl hlt)
      · rcases hac with hlt | ⟨hkey, hac⟩
        · exact Or.inr (Or.inl (heq ▸ hlt))
        · rw [lexBy_of_eq heq, lexBy_of_eq (heq.symm.trans hkey)]
          exact (h (key c)).split a ⟨ha, hkey⟩ b ⟨hb, heq.symm.trans hkey⟩ c ⟨hc, rfl⟩ hac
      · rcases hac with hlt | ⟨hkey, -⟩
        · exact Or.inr (Or.inl (hgt.trans hlt))
        · exact Or.inr (Or.inl (hkey ▸ hgt))

end Key

section Tolerance
variable [CommRing G] [LinearOrder G] [LinearOrder τ]

def tolerant (ε : G) (x : α → G) (t : α → τ) (a b : α) : Prop :=
  if |x a - x b| > ε then x a < x b else t a < t b

def Creeps (ε : G) (x : α → G) (a b c : α) : Prop :=
  x a ≤ x b ∧ x b ≤ x c ∧ x b - x a ≤ ε ∧ x c - x b ≤ ε ∧ ε < x c - x a

variable {ε : G} {x : α → G} {t : α → τ} {a b c : α}

theorem tolerant_of_far (h : ε < |x a - x b|) : tolerant ε x t a b ↔ x a < x b := by
  rw [tolerant, if_pos h]

theorem tolerant_of_near (h : |x a - x b| ≤ ε) : tolerant ε x t a b ↔ t a < t b := by
  rw [tolerant, if_neg (not_lt.mpr h)]

variable [IsStrictOrderedRing G]

theorem tolerant_split (hε : 0 ≤ ε) (hac : tolerant ε x t a c)
    (habc : Creeps ε x a b c → t a < t b ∨ t b < t c)
    (hbca : Creeps ε x b c a → t b < t c ∨ t c < t a)
    (hcab : Creeps ε x c a b → t c < t a ∨ t a < t b) :
    tolerant ε x t a b ∨ tolerant ε x t b c := by
  by_contra hnot
  rw [not_or] at hnot
  obtain ⟨hab, hbc⟩ := hnot
  rcases le_or_gt |x a - x c| ε with hnear | hfar
  · rw [tolerant_of_near hnear] at hac
    rw [abs_le] at hnear
    rcases le_or_gt |x a - x b| ε with hnear' | hfar'
    · rw [tolerant_of_near hnear', not_lt] at hab
      rw [abs_le] at hnear'
      rcases le_or_gt |x b - x c| ε with hnear'' | hfar''
      · rw [tolerant_of_near hnear'', not_lt] at hbc
        exact absurd hac (not_lt.mpr (hbc.trans hab))
      · rw [tolerant_of_far hfar'', not_lt] at hbc
        rw [abs_of_nonneg (sub_nonneg.mpr hbc)] at hfar''
        rcases hcab ⟨by linarith, by linarith, by linarith, by linarith, hfar''⟩ with h | h
        · exact lt_asymm h hac
        · exact absurd h (not_lt.mpr hab)
    · rw [tolerant_of_far hfar', not_lt] at hab
      rw [abs_of_nonneg (sub_nonneg.mpr hab)] at hfar'
      rcases le_or_gt |x b - x c| ε with hnear'' | hfar''
      · rw [tolerant_of_near hnear'', not_lt] at hbc
        rw [abs_le] at hnear''
        rcases hbca ⟨by linarith, by linarith, by linarith, by linarith, hfar'⟩ with h | h
        · exact absurd h (not_lt.mpr hbc)
        · exact lt_asymm h hac
      · rw [tolerant_of_far hfar'', not_lt] at hbc
        linarith
  · have hlt := (tolerant_of_far hfar).mp hac
    rw [abs_sub_comm, abs_of_pos (sub_pos.mpr hlt)] at hfar
    rcases le_or_gt |x a - x b| ε with hnear' | hfar'
    · rw [tolerant_of_near hnear', not_lt] at hab
      rw [abs_le] at hnear'
      rcases le_or_gt |x b - x c| ε with hnear'' | hfar''
      · rw [tolerant_of_near hnear'', not_lt] at hbc
        rw [abs_le] at hnear''
        rcases habc ⟨by linarith, by linarith, by linarith, by linarith, hfar⟩ with h | h
        · exact absurd h (not_lt.mpr hab)
        · exact absurd h (not_lt.mpr hbc)
      · rw [tolerant_of_far hfar'', not_lt] at hbc
        linarith
    · rw [tolerant_of_far hfar', not_lt] at hab
      rcases le_or_gt |x b - x c| ε with hnear'' | hfar''
      · rw [abs_le] at hnear''
        linarith
      · rw [tolerant_of_far hfar'', not_lt] at hbc
        linarith

theorem weakOn_tolerant (hε : 0 ≤ ε) (S : Set α) :
    WeakOn (tolerant ε x t) S ↔ ∀ a ∈ S, ∀ b ∈ S, ∀ c ∈ S, Creeps ε x a b c → t a < t b ∨ t b < t c := by
  constructor
  · rintro h a ha b hb c hc ⟨hab, hbc, hab', hbc', hac⟩
    have hfar : tolerant ε x t a c := by
      rw [tolerant_of_far (by rw [abs_sub_comm]; exact hac.trans_le (le_abs_self _))]
      linarith
    have hsplit := h.split a ha b hb c hc hfar
    rwa [tolerant_of_near (by rw [abs_le]; constructor <;> linarith),
      tolerant_of_near (by rw [abs_le]; constructor <;> linarith)] at hsplit
  · intro h
    refine ⟨fun a _ b _ hab hba => ?_, fun a ha b hb c hc hac => ?_⟩
    · rw [tolerant, abs_sub_comm] at hba
      rw [tolerant] at hab
      split_ifs at hab hba <;> exact lt_asymm hab hba
    · exact tolerant_split hε hac (h a ha b hb c hc) (h b hb c hc a ha) (h c hc a ha b hb)

end Tolerance
end WitcherMP.WeakOrders
