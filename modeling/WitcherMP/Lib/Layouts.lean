import WitcherMP.Lib.Bytes
import Mathlib.Data.List.TakeDrop

/-! Values laid out in memory in a fixed number of bytes, one behind the other. -/

namespace WitcherMP

/-- Reading undoes writing, whatever follows, and writing undoes reading. -/
structure Layout (α : Type*) where
  width : ℕ
  write : α → List UInt8
  read : List UInt8 → α
  length_write : ∀ a, (write a).length = width
  read_write : ∀ a bs, read (write a ++ bs) = a
  write_read : ∀ bs, width ≤ bs.length → write (read bs) = bs.take width

namespace Layout
variable {α β : Type*}

def byte : Layout UInt8 where
  width := 1
  write b := [b]
  read bs := bs.headD 0
  length_write _ := rfl
  read_write _ _ := rfl
  write_read bs h := by
    cases bs with
    | nil => exact absurd h (by decide)
    | cons b bs => rfl

def word16 : Layout UInt16 where
  width := 2
  write w := Bytes.le16 w.toNat
  read bs := .ofNat (Bytes.readLE16 bs)
  length_write _ := rfl
  read_write w bs := by
    rw [Bytes.readLE16_le16, Nat.mod_eq_of_lt w.toNat_lt, UInt16.ofNat_toNat]
  write_read bs h := by
    rw [UInt16.toNat_ofNat', Nat.mod_eq_of_lt (Bytes.readLE16_lt bs), Bytes.le16_readLE16 h]

def word32 : Layout UInt32 where
  width := 4
  write w := Bytes.le32 w.toNat
  read bs := .ofNat (Bytes.readLE32 bs)
  length_write _ := rfl
  read_write w bs := by
    rw [Bytes.readLE32_le32, Nat.mod_eq_of_lt w.toNat_lt, UInt32.ofNat_toNat]
  write_read bs h := by
    rw [UInt32.toNat_ofNat', Nat.mod_eq_of_lt (Bytes.readLE32_lt bs), Bytes.le32_readLE32 h]

def pair (l : Layout α) (m : Layout β) : Layout (α × β) where
  width := l.width + m.width
  write p := l.write p.1 ++ m.write p.2
  read bs := (l.read bs, m.read (bs.drop l.width))
  length_write p := by rw [List.length_append, l.length_write, m.length_write]
  read_write p bs := by
    rw [List.append_assoc, l.read_write, List.drop_left' (l.length_write p.1), m.read_write]
  write_read bs h := by
    dsimp only
    rw [l.write_read bs (by omega), m.write_read _ (by rw [List.length_drop]; omega), List.take_add]

def map (l : Layout α) (f : α → β) (g : β → α) (hfg : ∀ b, f (g b) = b) (hgf : ∀ a, g (f a) = a) :
    Layout β where
  width := l.width
  write b := l.write (g b)
  read bs := f (l.read bs)
  length_write b := l.length_write (g b)
  read_write b bs := by rw [l.read_write, hfg]
  write_read bs h := by rw [hgf, l.write_read bs h]

theorem read_append (l : Layout α) {bs : List UInt8} (h : l.width ≤ bs.length) (cs : List UInt8) :
    l.read (bs ++ cs) = l.read bs := by
  have hsplit : bs ++ cs = l.write (l.read bs) ++ (bs.drop l.width ++ cs) := by
    rw [l.write_read bs h, ← List.append_assoc, List.take_append_drop]
  rw [hsplit, l.read_write]

def readMany (l : Layout α) : ℕ → List UInt8 → List α
  | 0, _ => []
  | n + 1, bs => l.read bs :: readMany l n (bs.drop l.width)

theorem readMany_flatMap (l : Layout α) (as : List α) (bs : List UInt8) :
    l.readMany as.length (as.flatMap l.write ++ bs) = as := by
  induction as with
  | nil => rfl
  | cons a as ih =>
    rw [List.flatMap_cons, List.append_assoc, List.length_cons, readMany, l.read_write,
      List.drop_left' (l.length_write a), ih]

theorem length_flatMap_write (l : Layout α) (as : List α) :
    (as.flatMap l.write).length = as.length * l.width := by
  induction as with
  | nil => exact (Nat.zero_mul _).symm
  | cons a as ih =>
    rw [List.flatMap_cons, List.length_append, l.length_write, ih, List.length_cons, Nat.succ_mul,
      Nat.add_comm]

end Layout
end WitcherMP
