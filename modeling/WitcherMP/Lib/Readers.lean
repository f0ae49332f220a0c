import WitcherMP.Lib.Bytes
import Mathlib.Data.List.TakeDrop

/-! Readers, which take a value off the front of some bytes or fail, the rule that reads a record
back field by field, and that nothing is read from a record that is cut off. -/

namespace WitcherMP

abbrev Reader := StateT (List UInt8) Option

namespace Reader

def Takes {α : Type} (r : Reader α) (bs : List UInt8) (a : α) : Prop :=
  ∀ rest, r (bs ++ rest) = some (a, rest)

theorem takes_pure {α : Type} (a : α) : Takes (pure a) [] a := fun _ => rfl

theorem Takes.bind {α β : Type} {r : Reader α} {f : α → Reader β} {bs cs : List UInt8} {a : α} {b : β}
    (hr : Takes r bs a) (hf : Takes (f a) cs b) : Takes (r >>= f) (bs ++ cs) b := by
  intro rest
  change (r ((bs ++ cs) ++ rest)).bind (fun p => f p.1 p.2) = some (b, rest)
  rw [List.append_assoc, hr, Option.bind_some, hf]

theorem Takes.bind_pure {α β : Type} {r : Reader α} {f : α → β} {bs : List UInt8} {a : α}
    (hr : Takes r bs a) : Takes (r >>= fun a => pure (f a)) bs (f a) := by
  have := hr.bind (f := fun a => pure (f a)) (takes_pure (f a))
  rwa [List.append_nil] at this

theorem Takes.whole {α : Type} {r : Reader α} {bs : List UInt8} {a : α} (hr : Takes r bs a) :
    r bs = some (a, []) := by
  have := hr []
  rwa [List.append_nil] at this

def bytes (n : ℕ) : Reader (List UInt8) := fun bs =>
  if n ≤ bs.length then some (bs.take n, bs.drop n) else none

def u32 : Reader UInt32 := do
  let bs ← bytes 4
  return .ofNat (Bytes.readLE32 bs)

def u64 : Reader UInt64 := do
  let bs ← bytes 8
  return .ofNat (Bytes.readLE64 bs)

def bool : Reader Bool := do
  let bs ← bytes 1
  return bs ≠ [0]

def untilNul : Reader (List UInt8)
  | [] => none
  | b :: bs => if b = 0 then some ([], bs) else (untilNul bs).map fun p => (b :: p.1, p.2)

theorem takes_bytes (bs : List UInt8) {n : ℕ} (h : bs.length = n) : Takes (bytes n) bs bs := by
  intro rest
  rw [bytes, if_pos (by rw [List.length_append]; omega), List.take_left' h, List.drop_left' h]

theorem takes_u32 (w : UInt32) : Takes u32 (Bytes.le32 w.toNat) w := by
  have := (takes_bytes _ (Bytes.length_le32 w.toNat)).bind_pure
    (f := fun bs => UInt32.ofNat (Bytes.readLE32 bs))
  rwa [← List.append_nil (Bytes.le32 w.toNat), Bytes.readLE32_le32, Nat.mod_eq_of_lt w.toNat_lt,
    UInt32.ofNat_toNat, List.append_nil] at this

theorem takes_u64 (w : UInt64) : Takes u64 (Bytes.le64 w.toNat) w := by
  have := (takes_bytes _ (Bytes.length_le64 w.toNat)).bind_pure
    (f := fun bs => UInt64.ofNat (Bytes.readLE64 bs))
  rwa [Bytes.readLE64_le64 w.toNat_lt, UInt64.ofNat_toNat] at this

theorem takes_bool (b : Bool) : Takes bool [if b then 1 else 0] b := by
  have := (takes_bytes [if b then 1 else 0] rfl).bind_pure (f := fun bs => decide (bs ≠ [0]))
  cases b <;> exact this

theorem takes_untilNul {bs : List UInt8} (h : 0 ∉ bs) : Takes untilNul (bs ++ [0]) bs := by
  intro rest
  induction bs with
  | nil => rfl
  | cons b bs ih =>
    obtain ⟨hb, hbs⟩ := not_or.mp (fun hm => h (List.mem_cons.mpr hm))
    rw [List.cons_append, List.cons_append, untilNul, if_neg (Ne.symm hb), ih hbs]
    rfl

def Stable {α : Type} (r : Reader α) : Prop :=
  ∀ bs a rest, r bs = some (a, rest) → ∀ more, r (bs ++ more) = some (a, rest ++ more)

theorem stable_pure {α : Type} (a : α) : Stable (pure a) := by
  intro bs b rest h more
  have hpure : (b, rest) = (a, bs) := (Option.some.inj h).symm
  rw [(Prod.mk.inj hpure).1, (Prod.mk.inj hpure).2]
  rfl

theorem Stable.bind {α β : Type} {r : Reader α} {f : α → Reader β} (hr : Stable r)
    (hf : ∀ a, Stable (f a)) : Stable (r >>= f) := by
  intro bs b rest h more
  obtain ⟨⟨a, left⟩, hfirst, hsecond⟩ := Option.bind_eq_some_iff.mp h
  show (r (bs ++ more)).bind (fun p => f p.1 p.2) = some (b, rest ++ more)
  rw [hr bs a left hfirst more, Option.bind_some]
  exact hf a left b rest hsecond more

theorem stable_bytes (n : ℕ) : Stable (bytes n) := by
  intro bs a rest h more
  rw [bytes, Option.ite_none_right_eq_some, Option.some.injEq, Prod.mk.injEq] at h
  obtain ⟨hle, rfl, rfl⟩ := h
  rw [bytes, if_pos (by rw [List.length_append]; omega), List.take_append_of_le_length hle,
    List.drop_append_of_le_length hle]

theorem stable_u32 : Stable u32 := (stable_bytes 4).bind fun _ => stable_pure _

theorem stable_u64 : Stable u64 := (stable_bytes 8).bind fun _ => stable_pure _

theorem stable_bool : Stable bool := (stable_bytes 1).bind fun _ => stable_pure _

theorem stable_untilNul : Stable untilNul := by
  intro bs
  induction bs with
  | nil => exact fun a rest h => nomatch h
  | cons b bs ih =>
    intro a rest h more
    rw [untilNul] at h
    rw [List.cons_append, untilNul]
    split at h
    · next hb =>
      rw [Option.some.injEq, Prod.mk.injEq] at h
      rw [if_pos hb, h.1, h.2]
    · next hb =>
      obtain ⟨⟨name, left⟩, hname, heq⟩ := Option.map_eq_some_iff.mp h
      rw [if_neg hb, ih name left hname more, ← (Prod.mk.inj heq).1, ← (Prod.mk.inj heq).2]
      rfl

theorem Takes.none_of_cut {α : Type} {r : Reader α} {bs front : List UInt8} {a : α}
    (hr : Takes r bs a) (hstable : Stable r) (hfront : front <+: bs) (hne : front ≠ bs) :
    r front = none := by
  obtain ⟨back, rfl⟩ := hfront
  by_contra hsome
  obtain ⟨⟨b, rest⟩, hread⟩ := Option.ne_none_iff_exists'.mp hsome
  have hwhole := hstable front b rest hread back
  rw [hr.whole, Option.some.injEq, Prod.mk.injEq] at hwhole
  have hback : back = [] := (List.append_eq_nil_iff.mp hwhole.2.symm).2
  exact hne (by rw [hback, List.append_nil])

end Reader
end WitcherMP
