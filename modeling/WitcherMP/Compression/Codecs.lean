import WitcherMP.Compression.Defs
import Mathlib.Data.List.TakeDrop
import Mathlib.Data.List.Infix

/-! What the codecs give back. Each decoder follows its encoder up to the first byte that
went out as a literal although it reads as an escape. -/

namespace WitcherMP.Compression

theorem runLength_spec (current : UInt8) (limit : ℕ) (bs : List UInt8) :
    bs.take (runLength current limit bs) = List.replicate (runLength current limit bs) current ∧
      runLength current limit bs ≤ limit ∧ runLength current limit bs ≤ bs.length := by
  induction limit generalizing bs with
  | zero => simp [runLength]
  | succ limit ih =>
    cases bs with
    | nil => simp [runLength]
    | cons b bs =>
      rw [runLength]
      split
      · next h =>
        obtain ⟨htake, hlimit, hlen⟩ := ih bs
        rw [List.take_succ_cons, htake, h, List.replicate_succ, List.length_cons]
        exact ⟨rfl, by omega, by omega⟩
      · simp

theorem decompressZlib_of_short {bs : List UInt8} (h : bs.length ≤ 2) : decompressZlib bs = bs := by
  match bs with
  | [] => rfl
  | [_] => rfl
  | [_, _] => rfl
  | _ :: _ :: _ :: _ => exact absurd h (by simp)

theorem decompressZlib_literal {b : UInt8} (hb : b ≠ 0xFF) (bs : List UInt8) :
    decompressZlib (b :: bs) = b :: decompressZlib bs := by
  match bs with
  | [] => rfl
  | [_] => rfl
  | _ :: _ :: _ => rw [decompressZlib, if_neg hb]

theorem decompressZlib_literals {b : UInt8} (hb : b ≠ 0xFF) (n : ℕ) (bs : List UInt8) :
    decompressZlib (List.replicate n b ++ bs) = List.replicate n b ++ decompressZlib bs := by
  induction n with
  | zero => rfl
  | succ n ih => rw [List.replicate_succ, List.cons_append, decompressZlib_literal hb, ih,
      List.cons_append]

theorem runLength_stop (current : UInt8) {limit : ℕ} {bs : List UInt8}
    (h : runLength current limit bs < limit) :
    bs[runLength current limit bs]? ≠ some current := by
  induction limit generalizing bs with
  | zero => omega
  | succ limit ih =>
    cases bs with
    | nil => simp
    | cons b bs =>
      rw [runLength] at h ⊢
      split at h
      · next hb =>
        rw [if_pos hb, List.getElem?_cons_succ]
        exact ih (by omega)
      · next hb =>
        rw [if_neg hb, List.getElem?_cons_zero]
        exact fun h => hb (Option.some.inj h)

inductive Token
  | literal (b : UInt8)
  | escape (count value : UInt8)

namespace Token

def bytes : Token → List UInt8
  | literal b => [b]
  | escape count value => [0xFF, count, value]

def expand : Token → List UInt8
  | literal b => [b]
  | escape count value => List.replicate count.toNat value

end Token

def runTokensLoop : ℕ → List UInt8 → List Token
  | fuel + 1, current :: data =>
    let count := runLength current 254 data + 1
    (if count > 3 then [.escape (.ofNat count) current] else List.replicate count (.literal current)) ++
      runTokensLoop fuel (data.drop (count - 1))
  | _, _ => []

def runTokens (data : List UInt8) : List Token := runTokensLoop data.length data

theorem flatMap_literals {f : Token → List UInt8} (hf : ∀ b, f (.literal b) = [b]) (n : ℕ) (b : UInt8)
    (ts : List Token) :
    (List.replicate n (Token.literal b) ++ ts).flatMap f = List.replicate n b ++ ts.flatMap f := by
  induction n with
  | zero => rfl
  | succ n ih =>
    rw [List.replicate_succ, List.replicate_succ, List.cons_append, List.flatMap_cons, ih, hf]
    rfl

theorem bytes_literals (n : ℕ) (b : UInt8) (ts : List Token) :
    (List.replicate n (Token.literal b) ++ ts).flatMap Token.bytes =
      List.replicate n b ++ ts.flatMap Token.bytes :=
  flatMap_literals (fun _ => rfl) n b ts

theorem bytes_runTokens (data : List UInt8) :
    (runTokens data).flatMap Token.bytes = compressZlib data := by
  have key : ∀ (fuel : ℕ) (data : List UInt8),
      (runTokensLoop fuel data).flatMap Token.bytes = compressZlibLoop fuel data := by
    intro fuel
    induction fuel with
    | zero => exact fun data => rfl
    | succ fuel ih =>
      intro data
      cases data with
      | nil => rfl
      | cons current data =>
        rw [runTokensLoop, compressZlibLoop, ← ih]
        split
        · rfl
        · exact bytes_literals _ _ _
  exact key data.length data

inductive Runs : List UInt8 → List Token → Prop
  | nil : Runs [] []
  | long {n : ℕ} {b : UInt8} {data : List UInt8} {ts : List Token} (h3 : 3 < n) (hn : n < 256)
      (h : Runs data ts) : Runs (List.replicate n b ++ data) (.escape (.ofNat n) b :: ts)
  | short {n : ℕ} {b : UInt8} {data : List UInt8} {ts : List Token} (hpos : 0 < n) (h3 : n ≤ 3)
      (hstop : data[0]? ≠ some b) (h : Runs data ts) :
      Runs (List.replicate n b ++ data) (List.replicate n (.literal b) ++ ts)

theorem runs_runTokens (data : List UInt8) : Runs data (runTokens data) := by
  have key : ∀ {fuel : ℕ} {data : List UInt8}, data.length ≤ fuel →
      Runs data (runTokensLoop fuel data) := by
    intro fuel
    induction fuel with
    | zero =>
      intro data h
      rw [List.eq_nil_of_length_eq_zero (Nat.le_zero.mp h)]
      exact Runs.nil
    | succ fuel ih =>
      intro data h
      cases data with
      | nil => exact Runs.nil
      | cons current data =>
        obtain ⟨htake, hlimit, hlen⟩ := runLength_spec current 254 data
        have hstop : runLength current 254 data < 254 →
            data[runLength current 254 data]? ≠ some current := runLength_stop current
        rw [List.length_cons] at h
        rw [runTokensLoop]
        simp only [Nat.add_sub_cancel]
        set n := runLength current 254 data with hn
        have hsplit : current :: data = List.replicate (n + 1) current ++ data.drop n := by
          rw [List.replicate_succ, List.cons_append, ← htake, List.take_append_drop]
        have hrest : Runs (data.drop n) (runTokensLoop fuel (data.drop n)) :=
          ih (by rw [List.length_drop]; omega)
        rw [hsplit]
        split
        · next h3 => exact Runs.long h3 (by omega) hrest
        · next h3 =>
          exact Runs.short (Nat.succ_pos n) (not_lt.mp h3) (by simpa using hstop (by omega)) hrest
  exact key le_rfl

theorem decompressZlib_escape {n : ℕ} (hn : n < 256) (b : UInt8) (ts : List Token) :
    decompressZlib ((Token.escape (.ofNat n) b :: ts).flatMap Token.bytes) =
      List.replicate n b ++ decompressZlib (ts.flatMap Token.bytes) := by
  rw [List.flatMap_cons, Token.bytes, List.cons_append, List.cons_append, List.singleton_append,
    decompressZlib, if_pos rfl, UInt8.toNat_ofNat', Nat.mod_eq_of_lt hn]

theorem Runs.decompress {data : List UInt8} {ts : List Token} (h : Runs data ts) :
    decompressZlib (ts.flatMap Token.bytes) = data ∨
      ∃ p, data[p]? = some 0xFF ∧ data.take p <+: decompressZlib (ts.flatMap Token.bytes) := by
  have hbehind : ∀ {n : ℕ} {b : UInt8} {data out : List UInt8},
      out = data ∨ (∃ p, data[p]? = some 0xFF ∧ data.take p <+: out) →
      List.replicate n b ++ out = List.replicate n b ++ data ∨
        ∃ p, (List.replicate n b ++ data)[p]? = some 0xFF ∧
          (List.replicate n b ++ data).take p <+: List.replicate n b ++ out := by
    intro n b data out h
    refine h.imp (fun h => by rw [h]) fun ⟨p, hp, hbegins⟩ => ⟨n + p, ?_, ?_⟩
    · rw [List.getElem?_append_right (by simp), List.length_replicate, Nat.add_sub_cancel_left, hp]
    · rw [List.take_append, List.length_replicate, Nat.add_sub_cancel_left,
        List.take_of_length_le (by simp)]
      exact (List.prefix_append_right_inj _).mpr hbegins
  induction h with
  | nil => exact Or.inl rfl
  | long h3 hn h ih =>
    rw [decompressZlib_escape hn]
    exact hbehind ih
  | @short n b data ts hpos h3 hstop h ih =>
    rw [bytes_literals]
    by_cases hb : b = 0xFF
    · refine Or.inr ⟨0, ?_, List.nil_prefix⟩
      rw [List.getElem?_append_left (by rwa [List.length_replicate]),
        List.getElem?_replicate_of_lt hpos, hb]
    · rw [decompressZlib_literals hb]
      exact hbehind ih

theorem matchLength_spec (limit : ℕ) (as bs : List UInt8) :
    as.take (matchLength limit as bs) = bs.take (matchLength limit as bs) ∧
      matchLength limit as bs ≤ limit ∧ matchLength limit as bs ≤ as.length ∧
      matchLength limit as bs ≤ bs.length := by
  induction limit generalizing as bs with
  | zero => simp [matchLength]
  | succ limit ih =>
    cases as with
    | nil => simp [matchLength]
    | cons a as =>
      cases bs with
      | nil => simp [matchLength]
      | cons b bs =>
        rw [matchLength]
        split
        · next hab =>
          obtain ⟨htake, hlimit, has, hbs⟩ := ih as bs
          rw [List.take_succ_cons, List.take_succ_cons, htake, hab, List.length_cons,
            List.length_cons]
          exact ⟨rfl, by omega, by omega, by omega⟩
        · simp

structure IsMatch (done rest : List UInt8) (length distance : ℕ) : Prop where
  copy : (done.drop (done.length - distance)).take length = rest.take length
  le_limit : length ≤ 15
  le_rest : length ≤ rest.length
  le_distance : length ≤ distance
  distance_le : distance ≤ done.length ∧ distance ≤ 255

theorem findMatch_spec (done rest : List UInt8) (h : 0 < (findMatch done rest).1) :
    IsMatch done rest (findMatch done rest).1 (findMatch done rest).2 := by
  have key : ∀ (js : List ℕ) (best : ℕ × ℕ),
      (∀ j ∈ js, done.length - 255 ≤ j ∧ j < done.length) →
      (0 < best.1 → IsMatch done rest best.1 best.2) →
      let r := js.foldl (fun best j =>
        let len := matchLength 15 (done.drop j) rest
        if len > best.1 then (len, done.length - j) else best) best
      0 < r.1 → IsMatch done rest r.1 r.2 := by
    intro js
    induction js with
    | nil => exact fun best _ hbest => hbest
    | cons j js ih =>
      intro best hjs hbest
      obtain ⟨hj, hjs⟩ := List.forall_mem_cons.mp hjs
      refine ih _ hjs ?_
      dsimp only
      intro hpos
      by_cases hlen : matchLength 15 (done.drop j) rest > best.1
      · obtain ⟨htake, hlimit, hdone, hrest⟩ := matchLength_spec 15 (done.drop j) rest
        rw [List.length_drop] at hdone
        rw [if_pos hlen]
        refine ⟨?_, hlimit, hrest, hdone, by omega, by omega⟩
        rw [Nat.sub_sub_self hj.2.le, htake]
      · rw [if_neg hlen] at hpos ⊢
        exact hbest hpos
  refine key _ (0, 0) (fun j hj => ?_) (fun h => absurd h (lt_irrefl 0)) h
  rw [List.mem_range'_1] at hj
  omega

theorem copyBack_eq {out : List UInt8} {length distance : ℕ} (hl : length ≤ distance)
    (hd : distance ≤ out.length) :
    copyBack out length distance = (out.drop (out.length - distance)).take length := by
  refine List.ext_getElem? fun k => ?_
  rw [copyBack, List.getElem?_map, List.getElem?_take]
  by_cases hk : k < length
  · have hlt : out.length - distance + k < out.length := by omega
    rw [List.getElem?_range hk, if_pos hk, Option.map_some, Nat.mod_eq_of_lt (by omega),
      List.getElem?_drop, List.getD_eq_getElem?_getD, List.getElem?_eq_getElem hlt, Option.getD_some]
  · rw [if_neg hk, List.getElem?_eq_none (by rw [List.length_range]; omega), Option.map_none]

theorem decompressLZ4Loop_literal {b : UInt8} (hb : ¬ 0x80 ≤ b) (bs out : List UInt8) :
    decompressLZ4Loop (b :: bs) out = decompressLZ4Loop bs (out ++ [b]) := by
  cases bs with
  | nil => rfl
  | cons _ _ => rw [decompressLZ4Loop, if_neg fun h => hb ((Bytes.high_iff b).mp h)]

theorem prefix_of_decompressLZ4Loop {input out result : List UInt8}
    (h : decompressLZ4Loop input out = some result) : out <+: result := by
  induction input, out using decompressLZ4Loop.induct with
  | case1 out => exact Option.some.inj h ▸ List.prefix_refl out
  | case2 b out => exact Option.some.inj h ▸ List.prefix_append out [b]
  | case3 out b bs hb hle =>
    rw [decompressLZ4Loop, if_pos hb, if_pos hle, if_pos rfl] at h
    cases h
  | case4 out b distance bs hb hle h0 ih =>
    rw [decompressLZ4Loop, if_pos hb, if_pos hle, if_neg h0] at h
    exact (List.prefix_append _ _).trans (ih h)
  | case5 out b distance bs hb hle ih =>
    rw [decompressLZ4Loop, if_pos hb, if_neg hle] at h
    exact (List.prefix_append _ _).trans (ih h)
  | case6 out b distance bs hb ih =>
    rw [decompressLZ4Loop, if_neg hb] at h
    exact (List.prefix_append _ _).trans (ih h)

theorem length_ne_zero (token : UInt8) : ((token &&& 0x7F) + 3).toNat ≠ 0 := by
  revert token
  refine Bytes.forall_byte ?_
  decide +kernel

theorem tag_spec : ∀ length < 16, 3 ≤ length →
    (0x80 ||| UInt8.ofNat (length - 3)) &&& 0x80 ≠ 0 ∧
      (((0x80 ||| UInt8.ofNat (length - 3)) &&& 0x7F) + 3).toNat = length := by
  decide +kernel

theorem tag_ne : ∀ length < 16, 0x80 ||| UInt8.ofNat (length - 3) ≠ 0xFF := by
  decide +kernel

theorem decompressLZ4Loop_match {w done rest : List UInt8} {length distance : ℕ}
    (hm : IsMatch done rest length distance) (h3 : 3 ≤ length) (bs : List UInt8) :
    decompressLZ4Loop ([0x80 ||| .ofNat (length - 3), .ofNat distance] ++ bs) (w ++ done) =
      decompressLZ4Loop bs (w ++ (done ++ rest.take length)) := by
  have hlimit := hm.le_limit
  have hle := hm.le_distance
  obtain ⟨hdone, hdist⟩ := hm.distance_le
  obtain ⟨htag, hlen⟩ := tag_spec length (by omega) h3
  have hback : (UInt8.ofNat distance).toNat = distance := by
    rw [UInt8.toNat_ofNat', Nat.mod_eq_of_lt (by omega)]
  have hne : UInt8.ofNat distance ≠ 0 := by
    intro h
    rw [h, UInt8.toNat_zero] at hback
    omega
  have hsum : (w ++ done).length - distance = w.length + (done.length - distance) := by
    rw [List.length_append]
    omega
  have hcopy : copyBack (w ++ done) length distance = rest.take length := by
    rw [copyBack_eq hle (by rw [List.length_append]; omega), ← hm.copy, hsum, List.drop_append,
      List.drop_of_length_le (by omega), List.nil_append, Nat.add_sub_cancel_left]
  rw [List.cons_append, List.singleton_append, decompressLZ4Loop, if_pos htag, hback,
    if_pos (by rw [List.length_append]; omega), if_neg hne, hlen, hcopy, List.append_assoc]

inductive Matches : List UInt8 → List UInt8 → List UInt8 → Prop
  | nil {done : List UInt8} : Matches done [] []
  | copy {done rest code : List UInt8} {length distance : ℕ} (hm : IsMatch done rest length distance)
      (h3 : 3 ≤ length) (h : Matches (done ++ rest.take length) (rest.drop length) code) :
      Matches done rest ([0x80 ||| .ofNat (length - 3), .ofNat distance] ++ code)
  | literal {done rest code : List UInt8} {b : UInt8} (hnone : (findMatch done (b :: rest)).1 < 3)
      (h : Matches (done ++ [b]) rest code) : Matches done (b :: rest) (b :: code)

theorem matches_compressLZ4Loop {fuel : ℕ} (done : List UInt8) {rest : List UInt8}
    (h : rest.length ≤ fuel) : Matches done rest (compressLZ4Loop fuel done rest) := by
  induction fuel generalizing done rest with
  | zero =>
    rw [List.eq_nil_of_length_eq_zero (Nat.le_zero.mp h)]
    exact Matches.nil
  | succ fuel ih =>
    cases rest with
    | nil => exact Matches.nil
    | cons b rest =>
      rw [List.length_cons] at h
      rw [compressLZ4Loop]
      split
      · next h3 =>
        refine Matches.copy (findMatch_spec done (b :: rest) (by omega)) h3 (ih _ ?_)
        rw [List.length_drop, List.length_cons]
        omega
      · next h3 => exact Matches.literal (not_le.mp h3) (ih _ (Nat.le_of_succ_le_succ h))

theorem matches_compressLZ4 (data : List UInt8) : Matches [] data (compressLZ4 data) :=
  matches_compressLZ4Loop [] le_rfl

namespace Matches
variable {done rest code : List UInt8}

theorem decompress (h : Matches done rest code) (w : List UInt8) :
    decompressLZ4Loop code (w ++ done) = some (w ++ (done ++ rest)) ∨
      ∃ p x, rest[p]? = some x ∧ 0x80 ≤ x ∧ p + 1 < rest.length ∧ ∀ out,
        decompressLZ4Loop code (w ++ done) = some out → w ++ (done ++ rest.take p) <+: out := by
  induction h with
  | nil =>
    rw [List.append_nil]
    exact Or.inl rfl
  | @copy done rest code n distance hm h3 h ih =>
    have hle := hm.le_rest
    rw [decompressLZ4Loop_match hm h3]
    rw [List.append_assoc, List.take_append_drop] at ih
    refine ih.imp id fun ⟨p, x, hp, hx, hlast, hout⟩ => ⟨n + p, x, ?_, hx, ?_, fun out ho => ?_⟩
    · rw [← hp, List.getElem?_drop]
    · rw [List.length_drop] at hlast
      omega
    · rw [List.take_add]
      simpa only [List.append_assoc] using hout out ho
  | @literal done rest code b hnone h ih =>
    by_cases hb : 0x80 ≤ b
    · cases h with
      | nil => exact Or.inl (congrArg some (List.append_assoc ..))
      | copy hm h3 h =>
        have hle := hm.le_rest
        exact Or.inr ⟨0, b, rfl, hb, by rw [List.length_cons]; omega, fun out ho => by
          simpa using prefix_of_decompressLZ4Loop ho⟩
      | literal hnone h =>
        exact Or.inr ⟨0, b, rfl, hb, by simp, fun out ho => by
          simpa using prefix_of_decompressLZ4Loop ho⟩
    · rw [decompressLZ4Loop_literal hb, List.append_assoc]
      rw [List.append_assoc, List.singleton_append] at ih
      refine ih.imp id fun ⟨p, x, hp, hx, hlast, hout⟩ =>
        ⟨p + 1, x, hp, hx, Nat.succ_lt_succ hlast, fun out ho => ?_⟩
      rw [List.take_succ_cons]
      simpa only [List.append_assoc, List.singleton_append] using hout out ho

theorem length_le (h : Matches done rest code) : rest.length ≤ 15 * code.length := by
  induction h with
  | nil => exact Nat.zero_le _
  | copy hm h3 h ih =>
    have hlimit := hm.le_limit
    rw [List.length_drop] at ih
    rw [List.length_append]
    simp only [List.length_cons, List.length_nil]
    omega
  | literal hnone h ih =>
    rw [List.length_cons, List.length_cons]
    omega

end Matches
end WitcherMP.Compression
