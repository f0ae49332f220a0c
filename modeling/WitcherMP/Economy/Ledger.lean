import WitcherMP.Economy.Trade
import WitcherMP.Lib.Journals

/-! The completed transactions as a journal. Replayed on the balances before a run, they give the gold
of everybody and the stock of every merchant after it, and the items of every player that has neither
traded nor been given anything. -/

namespace WitcherMP.Economy

inductive Account
  | purse (playerId : UInt32)
  | pack (playerId itemId : UInt32)
  | till (merchantId : UInt32)
  | stock (merchantId itemId : UInt32)
deriving DecidableEq

namespace TransactionData

def Concerns (t : TransactionData) : Account → Prop
  | .purse p => t.playerId = p
  | .pack p i => t.playerId = p ∧ t.itemId = i
  | .till m => t.merchantId = m
  | .stock m i => t.merchantId = m ∧ t.itemId = i

instance (t : TransactionData) : ∀ a, Decidable (t.Concerns a)
  | .purse _ => inferInstanceAs (Decidable (_ = _))
  | .pack _ _ => inferInstanceAs (Decidable (_ ∧ _))
  | .till _ => inferInstanceAs (Decidable (_ = _))
  | .stock _ _ => inferInstanceAs (Decidable (_ ∧ _))

def amount (t : TransactionData) : Account → UInt32
  | .purse _ | .till _ => t.price
  | .pack _ _ | .stock _ _ => t.quantity

def takes (t : TransactionData) : Account → Bool
  | .purse _ | .stock _ _ => t.type = .buy
  | .till _ | .pack _ _ => t.type = .sell

def move (t : TransactionData) (a : Account) (b : UInt32) : UInt32 :=
  if t.takes a then b - t.amount a else b + t.amount a

def post (t : TransactionData) (a : Account) (b : UInt32) : UInt32 :=
  if t.Concerns a then t.move a b else b

end TransactionData

namespace GlobalEconomy
open Journals

def balance (s : GlobalEconomy) : Account → UInt32
  | .purse p => s.getCurrency p .gold
  | .pack p i => s.getItemQuantity p i
  | .till m => ((s.getMerchant m).map MerchantData.goldAmount).getD 0
  | .stock m i => ((s.getMerchant m).map fun merchant => merchant.quantity i).getD 0

def Op.Spares : Op → Account → Prop
  | .trade p₁ p₂ _ _, .pack p _ | .gift p₁ p₂ _ _, .pack p _ => p₁ ≠ p ∧ p₂ ≠ p
  | _, _ => True

section Calls
variable (toFloat : UInt32 → ℚ) (s : GlobalEconomy)

def entered (s : GlobalEconomy) : Op → List TransactionData
  | .buy p m i q => if (s.buyItem toFloat p m i q).2 then [{ s.newTransaction .buy p m i q
      (s.calculateBuyPrice toFloat i m * q) with isCompleted := true }] else []
  | .sell p m i q => if (s.sellItem toFloat p m i q).2 then [{ s.newTransaction .sell p m i q
      (s.calculateSellPrice toFloat i m * q) with isCompleted := true }] else []
  | .trade _ _ _ _ | .gift _ _ _ _ => []

def log (s : GlobalEconomy) : List TransactionData × UInt32 × UInt32 :=
  (s.transactions, s.totalTransactions, s.nextTransactionId)

theorem log_addCurrency (p : UInt32) (c : CurrencyType) (n : UInt32) :
    (s.addCurrency p c n).1.log = s.log := by
  unfold addCurrency
  split <;> rfl

theorem log_removeCurrency (p : UInt32) (c : CurrencyType) (n : UInt32) :
    (s.removeCurrency p c n).1.log = s.log := by
  unfold removeCurrency
  split
  · rfl
  · split <;> rfl

theorem log_addItemToInventory (p i q : UInt32) : (s.addItemToInventory p i q).1.log = s.log := by
  rcases addItemToInventory_cases s p i q with h | ⟨x, item, -, -, -, h⟩ <;> rw [h]
  rfl

theorem log_removeItemFromInventory (p i q : UInt32) :
    (s.removeItemFromInventory p i q).1.log = s.log := by
  rcases removeItemFromInventory_cases s p i q with h | ⟨x, item, -, -, -, h⟩ <;> rw [h]
  rfl

theorem log_foldl_moveItem (fromId toId : UInt32) (es : List (UInt32 × UInt32)) :
    (es.foldl (moveItem fromId toId) s).log = s.log :=
  moveItem_induct (I := fun s' => s'.log = s.log) (fun _ _ _ _ _ _ _ h => h)
    (fun _ _ _ _ _ _ _ h => h) fromId toId es rfl

structure Logs (s s' : GlobalEconomy) (ts : List TransactionData) : Prop where
  transactions : s'.transactions = s.transactions ++ ts
  totalTransactions : s'.totalTransactions = s.totalTransactions + .ofNat ts.length
  numbered : (s'.nextTransactionId = s.nextTransactionId ∧ ts = []) ∨
    (s'.nextTransactionId = s.nextTransactionId + 1 ∧
      (ts.map TransactionData.transactionId).Sublist [s.nextTransactionId])
  valid : ∀ t ∈ ts, t.isCompleted = true ∧ validateTransaction t = true

variable {s} in
theorem Logs.of_log {s' : GlobalEconomy} (h : s'.log = s.log) : Logs s s' [] := by
  obtain ⟨htransactions, hcounters⟩ := Prod.mk.inj h
  obtain ⟨htotal, hnext⟩ := Prod.mk.inj hcounters
  exact ⟨htransactions.trans (List.append_nil _).symm, htotal.trans (UInt32.add_zero _).symm,
    .inl ⟨hnext, rfl⟩, nofun⟩

theorem logs_transaction {s' : GlobalEconomy} {t : TransactionData}
    (hid : t.transactionId = s.nextTransactionId) (hvalid : validateTransaction t = true)
    (h : s'.log = { s with nextTransactionId := s.nextTransactionId + 1 }.log) :
    Logs s (s'.completeTransaction t) [{ t with isCompleted := true }] := by
  obtain ⟨htransactions, hcounters⟩ := Prod.mk.inj h
  obtain ⟨htotal, hnext⟩ := Prod.mk.inj hcounters
  refine ⟨congrArg (· ++ _) htransactions, congrArg (· + 1) htotal, .inr ⟨hnext, ?_⟩, ?_⟩
  · rw [List.map_singleton, hid]
  · intro u hu
    rw [List.mem_singleton.mp hu]
    exact ⟨rfl, hvalid⟩

def Entering (s : GlobalEconomy) (t : TransactionData) (r : GlobalEconomy × Bool) : Prop :=
  Logs s r.1 (if r.2 then [{ t with isCompleted := true }] else [])

theorem entering_rejected (t : TransactionData) : Entering s t (s, false) := Logs.of_log rfl

theorem entering_invalid (t : TransactionData) :
    Entering s t ({ s with nextTransactionId := s.nextTransactionId + 1 }, false) :=
  ⟨(List.append_nil _).symm, (UInt32.add_zero _).symm, .inr ⟨rfl, List.nil_sublist _⟩, nofun⟩

theorem processTransaction_valid {t : TransactionData} (h : processTransaction t = true) :
    validateTransaction t = true := by
  by_contra hv
  rw [processTransaction, if_pos hv] at h
  exact Bool.false_ne_true h

theorem entering_buyItem (p m i q : UInt32) : Entering s (s.newTransaction .buy p m i q
    (s.calculateBuyPrice toFloat i m * q)) (s.buyItem toFloat p m i q) := by
  have rejected := s.entering_rejected (s.newTransaction .buy p m i q
    (s.calculateBuyPrice toFloat i m * q))
  unfold buyItem
  split
  · exact rejected
  split
  case h_2 => exact rejected
  split
  · exact rejected
  split
  · exact rejected
  split
  · exact rejected
  dsimp only
  split
  · exact rejected
  split
  · exact rejected
  split
  case isFalse => exact s.entering_invalid _
  case isTrue hv =>
  exact s.logs_transaction rfl (processTransaction_valid hv)
    ((log_addItemToInventory ..).trans (log_removeCurrency ..))

theorem entering_sellItem (p m i q : UInt32) : Entering s (s.newTransaction .sell p m i q
    (s.calculateSellPrice toFloat i m * q)) (s.sellItem toFloat p m i q) := by
  have rejected := s.entering_rejected (s.newTransaction .sell p m i q
    (s.calculateSellPrice toFloat i m * q))
  unfold sellItem
  split
  · exact rejected
  split
  case h_2 => exact rejected
  split
  · exact rejected
  split
  · exact rejected
  split
  · exact rejected
  dsimp only
  split
  · exact rejected
  split
  case isFalse => exact s.entering_invalid _
  case isTrue hv =>
  exact s.logs_transaction rfl (processTransaction_valid hv)
    ((log_addCurrency ..).trans (log_removeItemFromInventory ..))

theorem logs_step (op : Op) : Logs s (step toFloat s op) (entered toFloat s op) := by
  cases op with
  | buy p m i q => exact s.entering_buyItem toFloat p m i q
  | sell p m i q => exact s.entering_sellItem toFloat p m i q
  | trade p₁ p₂ is₁ is₂ =>
    refine Logs.of_log ?_
    rw [step, apply]
    rcases tradeItems_cases s p₁ p₂ is₁ is₂ with ⟨hr, -⟩ | ⟨x₁, x₂, -, -, -, -, -, hr⟩ <;> rw [hr]
    exact (log_foldl_moveItem ..).trans (log_foldl_moveItem ..)
  | gift p₁ p₂ i q =>
    refine Logs.of_log ?_
    rw [step, apply]
    rcases giftItem_cases s p₁ p₂ i q with hr | ⟨x₁, x₂, -, -, -, -, hr⟩ <;> rw [hr]
    exact s.log_foldl_moveItem p₁ p₂ [(i, q)]

end Calls

section Balances
variable {s s' : GlobalEconomy} {p m : UInt32} {x : PlayerEconomyData} {y : MerchantData}

theorem SameBooks.balance (h : SameBooks s s') (a : Account) : s'.balance a = s.balance a := by
  obtain ⟨-, hplayers, hmerchants⟩ := h
  cases a with
  | purse p => rw [GlobalEconomy.balance, GlobalEconomy.balance, getCurrency, getCurrency,
      getPlayerEconomy, getPlayerEconomy, hplayers]
  | pack p i => rw [GlobalEconomy.balance, GlobalEconomy.balance, getItemQuantity, getItemQuantity,
      getPlayerEconomy, getPlayerEconomy, hplayers]
  | till m => rw [GlobalEconomy.balance, GlobalEconomy.balance, getMerchant, getMerchant, hmerchants]
  | stock m i => rw [GlobalEconomy.balance, GlobalEconomy.balance, getMerchant, getMerchant,
      hmerchants]

theorem Rewrote.purse (h : Rewrote s s' p x m y) (p' : UInt32) :
    s'.balance (.purse p') = if p = p' then x.gold else s.balance (.purse p') := by
  have hfind : s'.getPlayerEconomy p' = if p = p' then some x else s.getPlayerEconomy p' := by
    rw [getPlayerEconomy, h.2.1]
    exact OrdMap.find?_insert ..
  rw [balance, balance, getCurrency, getCurrency, hfind]
  split_ifs <;> rfl

theorem Rewrote.pack (h : Rewrote s s' p x m y) (p' i : UInt32) :
    s'.balance (.pack p' i) = if p = p' then x.quantity i else s.balance (.pack p' i) := by
  have hfind : s'.getPlayerEconomy p' = if p = p' then some x else s.getPlayerEconomy p' := by
    rw [getPlayerEconomy, h.2.1]
    exact OrdMap.find?_insert ..
  rw [balance, balance, getItemQuantity, getItemQuantity, hfind]
  split_ifs <;> rfl

theorem Rewrote.till (h : Rewrote s s' p x m y) (m' : UInt32) :
    s'.balance (.till m') = if m = m' then y.goldAmount else s.balance (.till m') := by
  have hfind : s'.getMerchant m' = if m = m' then some y else s.getMerchant m' := by
    rw [getMerchant, h.2.2]
    exact OrdMap.find?_insert ..
  rw [balance, balance, hfind]
  split_ifs <;> rfl

theorem Rewrote.stock (h : Rewrote s s' p x m y) (m' i : UInt32) :
    s'.balance (.stock m' i) = if m = m' then y.quantity i else s.balance (.stock m' i) := by
  have hfind : s'.getMerchant m' = if m = m' then some y else s.getMerchant m' := by
    rw [getMerchant, h.2.2]
    exact OrdMap.find?_insert ..
  rw [balance, balance, hfind]
  split_ifs <;> rfl

theorem balance_purse (hp : s.getPlayerEconomy p = some x) : s.balance (.purse p) = x.gold :=
  getCurrency_gold hp

theorem balance_pack (hp : s.getPlayerEconomy p = some x) (i : UInt32) :
    s.balance (.pack p i) = x.quantity i := getItemQuantity_eq hp i

theorem balance_till (hm : s.getMerchant m = some y) : s.balance (.till m) = y.goldAmount := by
  rw [balance, hm]
  rfl

theorem balance_stock (hm : s.getMerchant m = some y) (i : UInt32) :
    s.balance (.stock m i) = y.quantity i := by
  rw [balance, hm]
  rfl

end Balances

section Entries
variable (toFloat : UInt32 → ℚ) {s s' : GlobalEconomy} {t : TransactionData}
  {x x' : PlayerEconomyData} {y y' : MerchantData}

theorem Rewrote.balance (h : Rewrote s s' t.playerId x' t.merchantId y')
    (hp : s.getPlayerEconomy t.playerId = some x) (hm : s.getMerchant t.merchantId = some y)
    (hpurse : x'.gold = t.move (.purse t.playerId) x.gold)
    (hpack : ∀ i, x'.quantity i =
      if t.itemId = i then t.move (.pack t.playerId t.itemId) (x.quantity t.itemId) else x.quantity i)
    (htill : y'.goldAmount = t.move (.till t.merchantId) y.goldAmount)
    (hstock : ∀ i, y'.quantity i =
      if t.itemId = i then t.move (.stock t.merchantId t.itemId) (y.quantity t.itemId)
      else y.quantity i) (a : Account) : s'.balance a = t.post a (s.balance a) := by
  cases a with
  | purse p =>
    rw [h.purse]
    by_cases hpp : t.playerId = p
    · subst hpp
      exact (if_pos rfl).trans (hpurse.trans (balance_purse hp ▸ (if_pos rfl).symm))
    · exact (if_neg hpp).trans (if_neg hpp).symm
  | pack p i =>
    rw [h.pack]
    by_cases hpp : t.playerId = p
    · subst hpp
      rw [if_pos rfl, hpack, balance_pack hp]
      by_cases hi : t.itemId = i
      · subst hi
        exact (if_pos rfl).trans (if_pos ⟨rfl, rfl⟩).symm
      · exact (if_neg hi).trans (if_neg fun hc => hi hc.2).symm
    · exact (if_neg hpp).trans (if_neg fun hc => hpp hc.1).symm
  | till m =>
    rw [h.till]
    by_cases hmm : t.merchantId = m
    · subst hmm
      exact (if_pos rfl).trans (htill.trans (balance_till hm ▸ (if_pos rfl).symm))
    · exact (if_neg hmm).trans (if_neg hmm).symm
  | stock m i =>
    rw [h.stock]
    by_cases hmm : t.merchantId = m
    · subst hmm
      rw [if_pos rfl, hstock, balance_stock hm]
      by_cases hi : t.itemId = i
      · subst hi
        exact (if_pos rfl).trans (if_pos ⟨rfl, rfl⟩).symm
      · exact (if_neg hi).trans (if_neg fun hc => hi hc.2).symm
    · exact (if_neg hmm).trans (if_neg fun hc => hmm hc.1).symm

theorem balance_buyItem {p m i q : UInt32} (h : (s.buyItem toFloat p m i q).2 = true) (a : Account) :
    (s.buyItem toFloat p m i q).1.balance a = (s.newTransaction .buy p m i q
      (s.calculateBuyPrice toFloat i m * q)).post a (s.balance a) := by
  rcases buyItem_outcome toFloat s p m i q with
    ⟨hno, -⟩ | ⟨x, y, item, hp, hm, -, -, -, -, -, -, hwrote⟩
  · exact absurd (hno.symm.trans h) Bool.false_ne_true
  · exact Rewrote.balance (t := s.newTransaction .buy p m i q (s.calculateBuyPrice toFloat i m * q))
      hwrote hp hm ((PlayerEconomyData.gold_gain ..).trans (PlayerEconomyData.gold_setGold ..))
      (PlayerEconomyData.quantity_gain _ i q _) rfl (MerchantData.quantity_sold y i q _) a

theorem balance_sellItem {p m i q : UInt32} (h : (s.sellItem toFloat p m i q).2 = true)
    (a : Account) : (s.sellItem toFloat p m i q).1.balance a = (s.newTransaction .sell p m i q
      (s.calculateSellPrice toFloat i m * q)).post a (s.balance a) := by
  rcases sellItem_outcome toFloat s p m i q with
    ⟨hno, -⟩ | ⟨x, y, item, hp, hm, -, -, -, -, -, hwrote⟩
  · exact absurd (hno.symm.trans h) Bool.false_ne_true
  · exact Rewrote.balance (t := s.newTransaction .sell p m i q (s.calculateSellPrice toFloat i m * q))
      hwrote hp hm (PlayerEconomyData.gold_setGold ..)
      (PlayerEconomyData.quantity_lose x i q (item.weight * q)) rfl
      (MerchantData.quantity_bought y i q _) a

theorem getCurrency_setPlayer {p : UInt32} (hp : s.getPlayerEconomy p = some x)
    (hgold : x'.gold = x.gold) (p' : UInt32) :
    (s.setPlayer p x').getCurrency p' .gold = s.getCurrency p' .gold := by
  by_cases hpp : p = p'
  · subst hpp
    rw [getCurrency_gold hp, getCurrency_gold (getPlayerEconomy_setPlayer_self s p x'), hgold]
  · rw [getCurrency, getCurrency, getPlayerEconomy_setPlayer, if_neg hpp]

theorem balance_foldl_moveItem {fromId toId : UInt32} (es : List (UInt32 × UInt32)) {a : Account}
    (ha : ∀ p i, a = .pack p i → fromId ≠ p ∧ toId ≠ p) :
    (es.foldl (moveItem fromId toId) s).balance a = s.balance a := by
  have hmerchants := (foldl_moveItem_frame fromId toId es s).2
  cases a with
  | purse p =>
    exact moveItem_induct (I := fun s' => s'.getCurrency p .gold = s.getCurrency p .gold)
      (fun _ _ i q l x hp h =>
        (getCurrency_setPlayer hp (rfl : (x.gain i q l).gold = x.gold) p).trans h)
      (fun _ _ i q l x hp h =>
        (getCurrency_setPlayer hp (rfl : (x.lose i q l).gold = x.gold) p).trans h) fromId toId es rfl
  | pack p i =>
    obtain ⟨hfrom, hto⟩ := ha p i rfl
    have hplayer : (es.foldl (moveItem fromId toId) s).getPlayerEconomy p = s.getPlayerEconomy p := by
      rw [getPlayerEconomy_foldl_moveItem]
      exact (congrArg (Option.map · _) (funext (PlayerEconomyData.foldl_pass_other hfrom hto es))).trans
        Option.map_id_apply
    rw [balance, balance, getItemQuantity, getItemQuantity, hplayer]
  | till m => rw [balance, balance, getMerchant, getMerchant, hmerchants]
  | stock m i => rw [balance, balance, getMerchant, getMerchant, hmerchants]

theorem explained_step (op : Op) : Explained transactions balance TransactionData.post op.Spares
    (entered toFloat s op) s (step toFloat s op) := by
  refine ⟨(s.logs_step toFloat op).transactions, ?_⟩
  cases op with
  | buy p m i q =>
    rintro a -
    rw [entered, step, apply]
    by_cases hdone : (s.buyItem toFloat p m i q).2 = true
    · rw [if_pos hdone, balance_buyItem toFloat hdone]
      rfl
    · rw [if_neg hdone]
      rcases buyItem_outcome toFloat s p m i q with ⟨-, hsame⟩ | ⟨x, y, item, -, -, -, -, -, -, -, h, -⟩
      · exact hsame.balance a
      · exact absurd h hdone
  | sell p m i q =>
    rintro a -
    rw [entered, step, apply]
    by_cases hdone : (s.sellItem toFloat p m i q).2 = true
    · rw [if_pos hdone, balance_sellItem toFloat hdone]
      rfl
    · rw [if_neg hdone]
      rcases sellItem_outcome toFloat s p m i q with ⟨-, hsame⟩ | ⟨x, y, item, -, -, -, -, -, -, h, -⟩
      · exact hsame.balance a
      · exact absurd h hdone
  | trade p₁ p₂ is₁ is₂ =>
    intro a ha
    have hpack : ∀ p i, a = .pack p i → p₁ ≠ p ∧ p₂ ≠ p := by
      rintro p i rfl
      exact ha
    rw [entered, step, apply]
    rcases tradeItems_cases s p₁ p₂ is₁ is₂ with ⟨hr, -⟩ | ⟨x₁, x₂, -, -, -, -, -, hr⟩ <;> rw [hr]
    · rfl
    · exact (balance_foldl_moveItem is₂.entries fun p i h => (hpack p i h).symm).trans
        (balance_foldl_moveItem is₁.entries hpack)
  | gift p₁ p₂ i q =>
    intro a ha
    have hpack : ∀ p i, a = .pack p i → p₁ ≠ p ∧ p₂ ≠ p := by
      rintro p i rfl
      exact ha
    rw [entered, step, apply]
    rcases giftItem_cases s p₁ p₂ i q with hr | ⟨x₁, x₂, -, -, -, -, hr⟩ <;> rw [hr]
    · rfl
    · exact balance_foldl_moveItem [(i, q)] hpack

end Entries

section Runs
variable (toFloat : UInt32 → ℚ) (s : GlobalEconomy)

theorem numbered_run (ops : List Op) :
    (Run.run (step toFloat) s ops).totalTransactions = s.totalTransactions +
        .ofNat (Run.collect (step toFloat) (entered toFloat) s ops).length ∧
      ((Run.collect (step toFloat) (entered toFloat) s ops).map
        TransactionData.transactionId).Sublist
          ((List.range ops.length).map fun k => s.nextTransactionId + .ofNat k) ∧
      ∀ t ∈ Run.collect (step toFloat) (entered toFloat) s ops,
        t.isCompleted = true ∧ validateTransaction t = true := by
  induction ops generalizing s with
  | nil => exact ⟨(UInt32.add_zero _).symm, .slnil, nofun⟩
  | cons op ops ih =>
    obtain ⟨-, htotal, hnumbered, hvalid⟩ := s.logs_step toFloat op
    obtain ⟨htotal', hids, hvalid'⟩ := ih (step toFloat s op)
    refine ⟨?_, ?_, ?_⟩
    · rw [Run.run, htotal', htotal, Run.collect, List.length_append, UInt32.add_assoc,
        UInt32.ofNat_add]
    · have hrange : (List.range (op :: ops).length).map (fun k => s.nextTransactionId + .ofNat k)
          = s.nextTransactionId :: (List.range ops.length).map
            fun k => s.nextTransactionId + 1 + .ofNat k := by
        rw [List.length_cons, List.range_succ_eq_map, List.map_cons, List.map_map]
        congr 1
        · exact UInt32.add_zero _
        · refine List.map_congr_left fun k _ => ?_
          rw [Function.comp, Nat.succ_eq_add_one, UInt32.ofNat_add, UInt32.add_assoc]
          exact congrArg _ (UInt32.add_comm _ 1)
      rw [Run.collect, List.map_append]
      rcases hnumbered with ⟨hnext, hnone⟩ | ⟨hnext, hone⟩
      · rw [hnext] at hids
        rw [hnone, List.length_cons]
        refine hids.trans (List.Sublist.map _ ?_)
        exact List.range_sublist.mpr (Nat.le_succ _)
      · rw [hnext] at hids
        rw [hrange]
        exact hone.append hids
    · intro t ht
      rcases List.mem_append.mp ht with ht | ht
      · exact hvalid t ht
      · exact hvalid' t ht

/-- Over every run of the trading operations the transactions are a journal: replayed on the balances
at its beginning they give all balances at its end, in the words the code computes in, but for the
packs of players that trade or take part in a gift. They are counted, complete and valid, and bear
numbers in the order in which they were given out. -/
theorem journal_run (ops : List Op) :
    ∃ ts, (Run.run (step toFloat) s ops).transactions = s.transactions ++ ts ∧
      (∀ a, (∀ op ∈ ops, op.Spares a) →
        (Run.run (step toFloat) s ops).balance a = replay TransactionData.post a (s.balance a) ts) ∧
      (Run.run (step toFloat) s ops).totalTransactions = s.totalTransactions + .ofNat ts.length ∧
      (ts.map TransactionData.transactionId).Sublist
        ((List.range ops.length).map fun k => s.nextTransactionId + .ofNat k) ∧
      ∀ t ∈ ts, t.isCompleted = true ∧ validateTransaction t = true := by
  have hexplained := explained_run (fun s op => explained_step (s := s) toFloat op) s ops
  obtain ⟨htotal, hids, hvalid⟩ := numbered_run toFloat s ops
  exact ⟨_, hexplained.journal, hexplained.balance, htotal, hids, hvalid⟩

end Runs
end GlobalEconomy
end WitcherMP.Economy
