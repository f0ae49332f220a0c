import WitcherMP.Protocol.Defs
import Mathlib.Data.List.TakeDrop
import Mathlib.Data.List.Infix

/-! The records of messages: what is written reads back, and what is read stands in the bytes. -/

namespace WitcherMP.Protocol.OptimizedNetworkProtocol

open Messages

variable [Inhabited MessageTypes]

def content (message : PrioritizedMessage MessageTypes) : UInt32 × MessageTypes × List UInt8 :=
  (message.messageId, message.type, message.data)

theorem serializeMessages_congr {ms ns : List (PrioritizedMessage MessageTypes)}
    (h : ms.map content = ns.map content) : serializeMessages ms = serializeMessages ns := by
  have key : ∀ ms : List (PrioritizedMessage MessageTypes), serializeMessages ms =
      (ms.map content).flatMap fun c => Bytes.le32 c.1.toNat ++ Bytes.le32 c.2.1.value.toNat ++
        Bytes.le32 c.2.2.length ++ c.2.2 := by
    intro ms
    rw [List.flatMap_map]
    rfl
  rw [key, key, h]

theorem length_record (message : PrioritizedMessage MessageTypes) :
    (record message).length = 12 + message.data.length := by
  simp only [record, List.length_append, Bytes.length_le32]

theorem length_serializeMessages_cons (m : PrioritizedMessage MessageTypes)
    (ms : List (PrioritizedMessage MessageTypes)) :
    (serializeMessages (m :: ms)).length = 12 + m.data.length + (serializeMessages ms).length := by
  rw [serializeMessages, List.flatMap_cons, List.length_append, length_record]
  rfl

theorem length_data_le_serializeMessages {m : PrioritizedMessage MessageTypes}
    {ms : List (PrioritizedMessage MessageTypes)} (h : m ∈ ms) :
    m.data.length ≤ (serializeMessages ms).length := by
  induction ms with
  | nil => cases h
  | cons a ms ih =>
    rw [length_serializeMessages_cons]
    rcases List.mem_cons.mp h with rfl | h
    · omega
    · have := ih h
      omega

theorem read_record (m : PrioritizedMessage MessageTypes) (bs : List UInt8) :
    Bytes.readLE32 (record m ++ bs) = m.messageId.toNat ∧
      Bytes.readLE32 ((record m ++ bs).drop 4) = m.type.value.toNat ∧
      Bytes.readLE32 ((record m ++ bs).drop 8) = m.data.length % 2 ^ 32 ∧
      (record m ++ bs).drop 12 = m.data ++ bs := by
  have hid := m.messageId.toNat_lt
  have htype := m.type.value.toNat_lt
  simp only [record, List.append_assoc]
  refine ⟨?_, ?_, ?_, ?_⟩
  · rw [Bytes.readLE32_le32, Nat.mod_eq_of_lt hid]
  · rw [List.drop_left' (Bytes.length_le32 _), Bytes.readLE32_le32, Nat.mod_eq_of_lt htype]
  · rw [← List.append_assoc, List.drop_left' (by simp), Bytes.readLE32_le32]
  · rw [← List.append_assoc, ← List.append_assoc, List.drop_left' (by simp)]

def firstRecord (bs : List UInt8) : Option (PrioritizedMessage MessageTypes × List UInt8) :=
  if 12 ≤ bs.length ∧ Bytes.readLE32 (bs.drop 8) ≤ (bs.drop 12).length then
    some ({ messageId := .ofNat (Bytes.readLE32 bs)
            type := ⟨.ofNat (Bytes.readLE32 (bs.drop 4))⟩
            data := (bs.drop 12).take (Bytes.readLE32 (bs.drop 8)) },
      (bs.drop 12).drop (Bytes.readLE32 (bs.drop 8)))
  else none

theorem extractLoop_of_none {bs : List UInt8} (h : firstRecord bs = none) (fuel : ℕ) :
    extractLoop fuel bs = [] := by
  cases fuel with
  | zero => rfl
  | succ fuel =>
    rw [firstRecord, ite_eq_right_iff] at h
    rw [extractLoop]
    split
    · next h12 =>
      refine if_pos (not_le.mp fun hle => ?_)
      exact absurd (h ⟨h12, hle⟩) (Option.some_ne_none _)
    · rfl

theorem extractLoop_of_some {bs rest : List UInt8} {m : PrioritizedMessage MessageTypes}
    (h : firstRecord bs = some (m, rest)) (fuel : ℕ) :
    extractLoop (fuel + 1) bs = m :: extractLoop fuel rest := by
  rw [firstRecord, Option.ite_none_right_eq_some] at h
  obtain ⟨⟨h12, hle⟩, heq⟩ := h
  obtain ⟨rfl, rfl⟩ := Prod.mk.inj (Option.some.inj heq)
  rw [extractLoop, if_pos h12]
  exact if_neg (not_lt.mpr hle)

theorem record_firstRecord {bs rest : List UInt8} {m : PrioritizedMessage MessageTypes}
    (h : firstRecord bs = some (m, rest)) : record m ++ rest = bs ∧ m.data.length < 2 ^ 32 := by
  rw [firstRecord, Option.ite_none_right_eq_some] at h
  obtain ⟨⟨h12, hle⟩, heq⟩ := h
  obtain ⟨rfl, rfl⟩ := Prod.mk.inj (Option.some.inj heq)
  have hdata : ((bs.drop 12).take (Bytes.readLE32 (bs.drop 8))).length =
      Bytes.readLE32 (bs.drop 8) := by
    rw [List.length_take, min_eq_left hle]
  have hheader : Bytes.le32 (Bytes.readLE32 bs) ++ Bytes.le32 (Bytes.readLE32 (bs.drop 4)) ++
      Bytes.le32 (Bytes.readLE32 (bs.drop 8)) = bs.take 12 := by
    rw [Bytes.le32_readLE32 (by omega), Bytes.le32_readLE32 (by rw [List.length_drop]; omega),
      Bytes.le32_readLE32 (by rw [List.length_drop]; omega), ← List.take_add, ← List.take_add]
  refine ⟨?_, hdata.trans_lt (Bytes.readLE32_lt _)⟩
  rw [record]
  dsimp only
  rw [UInt32.toNat_ofNat', UInt32.toNat_ofNat', Nat.mod_eq_of_lt (Bytes.readLE32_lt _),
    Nat.mod_eq_of_lt (Bytes.readLE32_lt _), hdata, hheader, List.append_assoc,
    List.take_append_drop, List.take_append_drop]

theorem firstRecord_record {m : PrioritizedMessage MessageTypes} (h : m.data.length < 2 ^ 32)
    (rest : List UInt8) :
    ∃ n, firstRecord (record m ++ rest) = some (n, rest) ∧ content n = content m := by
  obtain ⟨hid, htype, hlen, hrest⟩ := read_record m rest
  rw [firstRecord, hid, htype, hlen, hrest, Nat.mod_eq_of_lt h, if_pos, List.take_left,
    List.drop_left]
  · exact ⟨_, rfl, by simp [content]⟩
  · rw [List.length_append, List.length_append, length_record]
    omega

def BeginsRecord (bs : List UInt8) : Prop :=
  ∃ m : PrioritizedMessage MessageTypes, m.data.length < 2 ^ 32 ∧ record m <+: bs

theorem firstRecord_eq_none_iff {bs : List UInt8} : firstRecord bs = none ↔ ¬ BeginsRecord bs := by
  constructor
  · rintro hnone ⟨m, hm, rest, rfl⟩
    obtain ⟨n, hsome, -⟩ := firstRecord_record hm rest
    exact absurd (hsome.symm.trans hnone) (Option.some_ne_none _)
  · intro hbegins
    rw [Option.eq_none_iff_forall_ne_some]
    rintro ⟨m, rest⟩ hsome
    obtain ⟨hbs, hm⟩ := record_firstRecord hsome
    exact hbegins ⟨m, hm, rest, hbs⟩

theorem length_le_length_serializeMessages (ms : List (PrioritizedMessage MessageTypes)) :
    12 * ms.length ≤ (serializeMessages ms).length := by
  induction ms with
  | nil => exact Nat.zero_le _
  | cons m ms ih =>
    rw [length_serializeMessages_cons, List.length_cons]
    omega

theorem extractLoop_append {ms : List (PrioritizedMessage MessageTypes)}
    (hsize : ∀ m ∈ ms, m.data.length < 2 ^ 32) (fuel : ℕ) (s : List UInt8) :
    (extractLoop (ms.length + fuel) (serializeMessages ms ++ s)).map content =
      ms.map content ++ (extractLoop fuel s).map content := by
  induction ms with
  | nil =>
    rw [List.length_nil, Nat.zero_add]
    rfl
  | cons m ms ih =>
    obtain ⟨hm, hms⟩ := List.forall_mem_cons.mp hsize
    have hcons : serializeMessages (m :: ms) ++ s = record m ++ (serializeMessages ms ++ s) :=
      List.append_assoc ..
    obtain ⟨n, hfirst, hn⟩ := firstRecord_record hm (serializeMessages ms ++ s)
    rw [hcons, List.length_cons, Nat.succ_add, extractLoop_of_some hfirst, List.map_cons, hn, ih hms]
    rfl

theorem extractLoop_serializeMessages {ms : List (PrioritizedMessage MessageTypes)}
    (hsize : ∀ m ∈ ms, m.data.length < 2 ^ 32) {s : List UInt8} (hs : s.length < 12) {fuel : ℕ}
    (hfuel : (serializeMessages ms ++ s).length ≤ fuel) :
    (extractLoop fuel (serializeMessages ms ++ s)).map content = ms.map content := by
  have hlen := length_le_length_serializeMessages ms
  rw [List.length_append] at hfuel
  obtain ⟨n, rfl⟩ : ∃ n, fuel = ms.length + n := ⟨fuel - ms.length, by omega⟩
  have hnone : firstRecord s = none := if_neg fun h => absurd h.1 (not_le.mpr hs)
  rw [extractLoop_append hsize, extractLoop_of_none hnone, List.map_nil, List.append_nil]

theorem serializeMessages_extractLoop (fuel : ℕ) (bs : List UInt8) :
    serializeMessages (extractLoop fuel bs) <+: bs := by
  induction fuel generalizing bs with
  | zero => exact List.nil_prefix
  | succ fuel ih =>
    cases h : firstRecord bs with
    | none =>
      rw [extractLoop_of_none h]
      exact List.nil_prefix
    | some p =>
      rw [extractLoop_of_some h, serializeMessages, List.flatMap_cons, ← (record_firstRecord h).1]
      exact (List.prefix_append_right_inj _).mpr (ih _)

theorem length_extractLoop_le (fuel : ℕ) (bs : List UInt8) :
    (extractLoop fuel bs).length ≤ fuel := by
  induction fuel generalizing bs with
  | zero => exact Nat.zero_le _
  | succ fuel ih =>
    cases h : firstRecord bs with
    | none =>
      rw [extractLoop_of_none h]
      exact Nat.zero_le _
    | some p =>
      rw [extractLoop_of_some h]
      exact Nat.succ_le_succ (ih _)

theorem length_data_extractLoop {fuel : ℕ} {bs : List UInt8} {m : PrioritizedMessage MessageTypes}
    (hm : m ∈ extractLoop fuel bs) : m.data.length < 2 ^ 32 := by
  induction fuel generalizing bs with
  | zero => exact absurd hm List.not_mem_nil
  | succ fuel ih =>
    cases h : firstRecord bs with
    | none =>
      rw [extractLoop_of_none h] at hm
      exact absurd hm List.not_mem_nil
    | some p =>
      rw [extractLoop_of_some h] at hm
      rcases List.mem_cons.mp hm with rfl | hm
      · exact (record_firstRecord h).2
      · exact ih hm

theorem extractLoop_rest {fuel : ℕ} {bs : List UInt8} (h : bs.length < 12 * fuel) :
    ∃ rest, serializeMessages (extractLoop fuel bs) ++ rest = bs ∧ ¬ BeginsRecord rest := by
  induction fuel generalizing bs with
  | zero => omega
  | succ fuel ih =>
    cases hfirst : firstRecord bs with
    | none =>
      rw [extractLoop_of_none hfirst]
      exact ⟨bs, rfl, firstRecord_eq_none_iff.mp hfirst⟩
    | some p =>
      obtain ⟨hbs, -⟩ := record_firstRecord hfirst
      have hlen := congrArg List.length hbs
      rw [List.length_append, length_record] at hlen
      have hshort : p.2.length < 12 * fuel := by omega
      obtain ⟨rest, hrest, hbegins⟩ := ih hshort
      refine ⟨rest, ?_, hbegins⟩
      rw [extractLoop_of_some hfirst, serializeMessages, List.flatMap_cons, List.append_assoc,
        ← serializeMessages, hrest, hbs]

theorem extractLoop_congr {m n : ℕ} {bs : List UInt8} (hm : bs.length < 12 * m)
    (hn : bs.length < 12 * n) : extractLoop m bs = extractLoop n bs := by
  induction m generalizing n bs with
  | zero => omega
  | succ m ih =>
    obtain ⟨n, rfl⟩ : ∃ k, n = k + 1 := ⟨n - 1, by omega⟩
    cases hfirst : firstRecord bs with
    | none => rw [extractLoop_of_none hfirst, extractLoop_of_none hfirst]
    | some p =>
      have hlen := congrArg List.length (record_firstRecord hfirst).1
      rw [List.length_append, length_record] at hlen
      have hm' : p.2.length < 12 * m := by omega
      have hn' : p.2.length < 12 * n := by omega
      rw [extractLoop_of_some hfirst, extractLoop_of_some hfirst, ih hm' hn']

end WitcherMP.Protocol.OptimizedNetworkProtocol
