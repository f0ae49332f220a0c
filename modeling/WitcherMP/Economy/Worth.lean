import WitcherMP.Economy.Steps

/-! An inventory summed up under a price list or a list of weights. -/

namespace WitcherMP.Economy.GlobalEconomy

def worth (f : UInt32 → ℕ) (inventory : OrdMap UInt32 UInt32) : ℕ :=
  inventory.sumOver fun i n => f i * n.toNat

variable (f : UInt32 → ℕ) (inventory : OrdMap UInt32 UInt32) {i q : UInt32}

theorem entry_worth (i : UInt32) :
    (inventory.find? i).elim 0 (fun n => f i * n.toNat) = f i * (inventory.getD i 0).toNat := by
  rw [OrdMap.getD]
  cases inventory.find? i <;> rfl

theorem worth_insert (i n : UInt32) :
    worth f (inventory.insert i n) + f i * (inventory.getD i 0).toNat
      = worth f inventory + f i * n.toNat := by
  rw [← entry_worth]
  exact OrdMap.sumOver_insert (fun i (n : UInt32) => f i * n.toNat) inventory i n

theorem worth_erase (i : UInt32) :
    worth f (inventory.erase i) + f i * (inventory.getD i 0).toNat = worth f inventory := by
  rw [← entry_worth]
  exact OrdMap.sumOver_erase (fun i (n : UInt32) => f i * n.toNat) inventory i

theorem worth_takeFrom (h : q ≤ inventory.getD i 0) :
    worth f (takeFrom inventory i (inventory.getD i 0) q) + f i * q.toNat = worth f inventory := by
  have hsub := Word32.toNat_sub h
  unfold takeFrom
  split_ifs with hzero
  · have herase := worth_erase f inventory i
    rwa [← hsub, hzero, UInt32.toNat_zero, Nat.zero_add] at herase
  · have hinsert := worth_insert f inventory i (inventory.getD i 0 - q)
    rw [← hsub, Nat.mul_add] at hinsert
    omega

variable (player : PlayerEconomyData) (load : UInt32)

theorem worth_gain (h : (player.quantity i).toNat + q.toNat < 2 ^ 32) :
    worth f (player.gain i q load).inventory = worth f player.inventory + f i * q.toNat := by
  have hinsert := worth_insert f player.inventory i (player.quantity i + q)
  rw [Word32.toNat_add h, Nat.mul_add, ← Nat.add_assoc] at hinsert
  have hswap : ∀ {a b c d : ℕ}, a + b = c + b + d → a = c + d := by omega
  exact hswap hinsert

theorem worth_lose (h : q ≤ player.quantity i) :
    worth f (player.lose i q load).inventory + f i * q.toNat = worth f player.inventory :=
  worth_takeFrom f player.inventory h

end WitcherMP.Economy.GlobalEconomy
