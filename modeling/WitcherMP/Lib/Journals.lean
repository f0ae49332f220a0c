import WitcherMP.Lib.Run

/-! A journal next to the balances it is about. If every step enters what it does to the balances,
the journal of a run says all that the run has done to them. -/

namespace WitcherMP.Journals
variable {σ α τ κ G : Type*} (journal : σ → List τ) (balance : σ → κ → G) (post : τ → κ → G → G)

def replay (k : κ) (b : G) (ts : List τ) : G := ts.foldl (fun b t => post t k b) b

structure Explained (K : κ → Prop) (ts : List τ) (s s' : σ) : Prop where
  journal : journal s' = journal s ++ ts
  balance : ∀ k, K k → balance s' k = replay post k (balance s k) ts

variable {journal balance post} {K : κ → Prop} {ts us : List τ} {s t u : σ}

theorem replay_append (k : κ) (b : G) (ts us : List τ) :
    replay post k b (ts ++ us) = replay post k (replay post k b ts) us := List.foldl_append

theorem Explained.of_unchanged (hjournal : journal t = journal s)
    (hbalance : ∀ k, K k → balance t k = balance s k) :
    Explained journal balance post K [] s t :=
  ⟨hjournal.trans (List.append_nil _).symm, hbalance⟩

theorem Explained.mono {L : κ → Prop} (h : Explained journal balance post K ts s t)
    (hle : ∀ k, L k → K k) : Explained journal balance post L ts s t :=
  ⟨h.journal, fun k hk => h.balance k (hle k hk)⟩

theorem Explained.trans (h : Explained journal balance post K ts s t)
    (h' : Explained journal balance post K us t u) :
    Explained journal balance post K (ts ++ us) s u where
  journal := by rw [h'.journal, h.journal, List.append_assoc]
  balance k hk := by rw [h'.balance k hk, h.balance k hk, replay_append]

theorem explained_run {step : σ → α → σ} {entered : σ → α → List τ} {K : α → κ → Prop}
    (hstep : ∀ s a, Explained journal balance post (K a) (entered s a) s (step s a)) (s : σ)
    (as : List α) : Explained journal balance post (fun k => ∀ a ∈ as, K a k)
      (Run.collect step entered s as) s (Run.run step s as) := by
  induction as generalizing s with
  | nil => exact .of_unchanged rfl fun _ _ => rfl
  | cons a as ih =>
    have hfirst := (hstep s a).mono (L := fun k => ∀ b ∈ a :: as, K b k) fun k hk =>
      hk a List.mem_cons_self
    have hrest := (ih (step s a)).mono (L := fun k => ∀ b ∈ a :: as, K b k) fun k hk b hb =>
      hk b (List.mem_cons_of_mem a hb)
    exact hfirst.trans hrest

end WitcherMP.Journals
