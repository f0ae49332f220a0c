import Mathlib.Data.List.Basic

/-! Items that come into a line at its end, and leave it from the front, so many at a time, or
out of the middle. A book keeps all that ever came, in order, each with what became of it. -/

namespace WitcherMP.Fates

abbrev Book (α φ : Type*) := List (α × Option φ)

variable {α φ : Type*}

def waiting : Book α φ → List α
  | [] => []
  | (a, none) :: book => a :: waiting book
  | (_, some _) :: book => waiting book

def settled [DecidableEq φ] (x : φ) : Book α φ → List α
  | [] => []
  | (a, fate) :: book => if fate = some x then a :: settled x book else settled x book

def drain (due : α → φ) : ℕ → Book α φ → Book α φ
  | 0, book => book
  | _ + 1, [] => []
  | n + 1, (a, none) :: book => (a, some (due a)) :: drain due n book
  | n + 1, (a, some x) :: book => (a, some x) :: drain due (n + 1) book

def sweep (P : α → Bool) (x : φ) : Book α φ → Book α φ
  | [] => []
  | (a, none) :: book => (a, if P a then some x else none) :: sweep P x book
  | (a, some y) :: book => (a, some y) :: sweep P x book

def InFront (x : φ) (book : Book α φ) : Prop :=
  book.Pairwise fun e e' => e.2 = none → e'.2 ≠ some x

section Steps
variable {due : α → φ} {P : α → Bool} {x y : φ} {a : α} {book : Book α φ}

theorem waiting_push : waiting (book ++ [(a, (none : Option φ))]) = waiting book ++ [a] := by
  induction book with
  | nil => rfl
  | cons e book ih =>
    obtain ⟨b, _ | z⟩ := e
    · exact congrArg (b :: ·) ih
    · exact ih

theorem waiting_drain (n : ℕ) : waiting (drain due n book) = (waiting book).drop n := by
  induction book generalizing n with
  | nil => cases n <;> rfl
  | cons e book ih =>
    cases n with
    | zero => rfl
    | succ n =>
      obtain ⟨b, _ | z⟩ := e
      · exact ih n
      · exact ih (n + 1)

theorem waiting_sweep : waiting (sweep P x book) = (waiting book).filter (!P ·) := by
  induction book with
  | nil => rfl
  | cons e book ih =>
    obtain ⟨b, _ | z⟩ := e
    · rw [sweep, waiting, List.filter_cons]
      cases hb : P b
      · exact congrArg (b :: ·) ih
      · exact ih
    · exact ih

theorem map_fst_drain (n : ℕ) : (drain due n book).map Prod.fst = book.map Prod.fst := by
  induction book generalizing n with
  | nil => cases n <;> rfl
  | cons e book ih =>
    cases n with
    | zero => rfl
    | succ n =>
      obtain ⟨b, _ | z⟩ := e
      · exact congrArg (b :: ·) (ih n)
      · exact congrArg (b :: ·) (ih (n + 1))

theorem map_fst_sweep : (sweep P x book).map Prod.fst = book.map Prod.fst := by
  induction book with
  | nil => rfl
  | cons e book ih => obtain ⟨b, _ | z⟩ := e <;> exact congrArg (b :: ·) ih

theorem inFront_push (h : InFront x book) : InFront x (book ++ [(a, none)]) := by
  refine List.pairwise_append.mpr ⟨h, List.pairwise_singleton .., fun e _ e' he' _ => ?_⟩
  rw [List.mem_singleton.mp he']
  exact nofun

theorem inFront_drain (h : InFront x book) (n : ℕ) : InFront x (drain due n book) := by
  induction book generalizing n with
  | nil => cases n <;> exact h
  | cons e book ih =>
    obtain ⟨-, htail⟩ := List.pairwise_cons.mp h
    cases n with
    | zero => exact h
    | succ n =>
      obtain ⟨b, _ | z⟩ := e
      · exact List.pairwise_cons.mpr ⟨fun _ _ hnone => (nomatch hnone), ih htail n⟩
      · exact List.pairwise_cons.mpr ⟨fun _ _ hnone => (nomatch hnone), ih htail (n + 1)⟩

theorem mem_sweep {e : α × Option φ} (he : e ∈ sweep P x book) :
    e ∈ book ∨ P e.1 ∧ e.2 = some x := by
  induction book with
  | nil => exact absurd he List.not_mem_nil
  | cons e' book ih =>
    obtain ⟨b, _ | z⟩ := e'
    · rcases List.mem_cons.mp he with rfl | he
      · cases hb : P b
        · exact Or.inl (List.mem_cons_self ..)
        · exact Or.inr ⟨rfl, rfl⟩
      · exact (ih he).imp_left (List.mem_cons_of_mem _)
    · rcases List.mem_cons.mp he with rfl | he
      · exact Or.inl (List.mem_cons_self ..)
      · exact (ih he).imp_left (List.mem_cons_of_mem _)

theorem mem_drain {n : ℕ} {e : α × Option φ} (he : e ∈ drain due n book) :
    e ∈ book ∨ e.2 = some (due e.1) := by
  induction book generalizing n with
  | nil =>
    cases n with
    | zero => exact Or.inl he
    | succ n => exact absurd he List.not_mem_nil
  | cons e' book ih =>
    cases n with
    | zero => exact Or.inl he
    | succ n =>
      obtain ⟨b, _ | z⟩ := e'
      · rcases List.mem_cons.mp he with rfl | he
        · exact Or.inr rfl
        · exact (ih he).imp_left (List.mem_cons_of_mem _)
      · rcases List.mem_cons.mp he with rfl | he
        · exact Or.inl (List.mem_cons_self ..)
        · exact (ih he).imp_left (List.mem_cons_of_mem _)

theorem inFront_sweep (h : InFront y book) (hne : x ≠ y) : InFront y (sweep P x book) := by
  induction book with
  | nil => exact h
  | cons e book ih =>
    obtain ⟨hhead, htail⟩ := List.pairwise_cons.mp h
    have hrest : ∀ e' ∈ sweep P x book, e.2 = none → e'.2 ≠ some y := by
      intro e' he' hnone
      rcases mem_sweep he' with hmem | ⟨-, hx⟩
      · exact hhead e' hmem hnone
      · rw [hx]
        exact fun heq => hne (Option.some.inj heq)
    obtain ⟨b, _ | z⟩ := e
    · exact List.pairwise_cons.mpr ⟨fun e' he' _ => hrest e' he' rfl, ih htail⟩
    · exact List.pairwise_cons.mpr ⟨fun _ _ hnone => (nomatch hnone), ih htail⟩

variable [DecidableEq φ]

theorem settled_push : settled x (book ++ [(a, none)]) = settled x book := by
  induction book with
  | nil => rfl
  | cons e book ih =>
    rw [List.cons_append, settled, settled, ih]

theorem settled_sweep (hne : x ≠ y) : settled y (sweep P x book) = settled y book := by
  induction book with
  | nil => rfl
  | cons e book ih =>
    obtain ⟨b, _ | z⟩ := e
    · rw [sweep, settled, settled, ih, if_neg (nofun : (none : Option φ) ≠ some y), if_neg]
      split_ifs
      · exact fun heq => hne (Option.some.inj heq)
      · exact nofun
    · rw [sweep, settled, settled, ih]

theorem settled_of_notMem (h : ∀ e ∈ book, e.2 ≠ some x) : settled x book = [] := by
  induction book with
  | nil => rfl
  | cons e book ih =>
    obtain ⟨he, hbook⟩ := List.forall_mem_cons.mp h
    rw [settled, if_neg he, ih hbook]

theorem settled_drain (h : InFront x book) (n : ℕ) :
    settled x (drain due n book)
      = settled x book ++ ((waiting book).take n).filter (due · = x) := by
  induction book generalizing n with
  | nil => cases n <;> rfl
  | cons e book ih =>
    obtain ⟨hhead, htail⟩ := List.pairwise_cons.mp h
    cases n with
    | zero => exact (List.append_nil _).symm
    | succ n =>
      obtain ⟨b, _ | z⟩ := e
      · have hrest : settled x book = [] := settled_of_notMem fun e' he' => hhead e' he' rfl
        have hnil : settled x ((b, none) :: book) = [] := hrest
        rw [hnil, List.nil_append, drain, settled, ih htail n, hrest, List.nil_append, waiting,
          List.take_succ_cons, List.filter_cons]
        simp only [Option.some.injEq, decide_eq_true_eq]
      · rw [drain, settled, settled, waiting, ih htail (n + 1)]
        split_ifs <;> rfl

end Steps

variable [DecidableEq φ]

/-- A book for all that came, with the line and those of the fate `y` as it says, where every
item met a fate that it may meet. -/
structure Account (Q : α → φ → Prop) (y : φ) (book : Book α φ) (came line out : List α) : Prop where
  came : book.map Prod.fst = came
  line : waiting book = line
  out : settled y book = out
  fates : ∀ e ∈ book, ∀ x, e.2 = some x → Q e.1 x
  inFront : InFront y book

section Account
variable {Q : α → φ → Prop} {y : φ} {book : Book α φ} {came line out : List α}

theorem account_nil : Account Q y [] [] [] [] := ⟨rfl, rfl, rfl, nofun, .nil⟩

theorem Account.push (h : Account Q y book came line out) (a : α) :
    Account Q y (book ++ [(a, none)]) (came ++ [a]) (line ++ [a]) out where
  came := by rw [List.map_append, h.came, List.map_singleton]
  line := by rw [waiting_push, h.line]
  out := by rw [settled_push, h.out]
  fates := by
    intro e he x hx
    rcases List.mem_append.mp he with he | he
    · exact h.fates e he x hx
    · rw [List.mem_singleton.mp he] at hx
      cases hx
  inFront := inFront_push h.inFront

theorem Account.drain (h : Account Q y book came line out) {due : α → φ} (hdue : ∀ a, Q a (due a))
    (n : ℕ) : Account Q y (drain due n book) came (line.drop n)
      (out ++ (line.take n).filter (due · = y)) where
  came := (map_fst_drain n).trans h.came
  line := by rw [waiting_drain, h.line]
  out := by rw [settled_drain h.inFront, h.line, h.out]
  fates := by
    intro e he x hx
    rcases mem_drain he with hmem | heq
    · exact h.fates e hmem x hx
    · exact Option.some.inj (heq.symm.trans hx) ▸ hdue e.1
  inFront := inFront_drain h.inFront n

theorem Account.sweep (h : Account Q y book came line out) {P : α → Bool} {x : φ} (hne : x ≠ y)
    (hP : ∀ a, P a → Q a x) :
    Account Q y (sweep P x book) came (line.filter (!P ·)) out where
  came := map_fst_sweep.trans h.came
  line := by rw [waiting_sweep, h.line]
  out := (settled_sweep hne).trans h.out
  fates := by
    intro e he z hz
    rcases mem_sweep he with hmem | ⟨hPe, hx⟩
    · exact h.fates e hmem z hz
    · exact Option.some.inj (hx.symm.trans hz) ▸ hP e.1 hPe
  inFront := inFront_sweep h.inFront hne

theorem Account.mono (h : Account Q y book came line out) {Q' : α → φ → Prop}
    (hQ : ∀ a x, Q a x → Q' a x) : Account Q' y book came line out :=
  ⟨h.came, h.line, h.out, fun e he x hx => hQ e.1 x (h.fates e he x hx), h.inFront⟩

theorem Account.sublist (h : Account Q y book came line out) : (out ++ line).Sublist came := by
  obtain ⟨hcame, hline, hout, -, hfront⟩ := h
  subst hcame hline hout
  clear * - hfront
  induction book with
  | nil => exact .slnil
  | cons e book ih =>
    obtain ⟨hhead, htail⟩ := List.pairwise_cons.mp hfront
    obtain ⟨b, _ | z⟩ := e
    · have hrest : settled y book = [] := settled_of_notMem fun e' he' => hhead e' he' rfl
      have := ih htail
      rw [hrest, List.nil_append] at this
      change (settled y book ++ b :: waiting book).Sublist (b :: book.map Prod.fst)
      rw [hrest]
      exact this.cons_cons b
    · rw [settled, waiting, List.map_cons]
      split_ifs
      · exact (ih htail).cons_cons b
      · exact (ih htail).cons b

end Account

end WitcherMP.Fates
