import WitcherMP.Lib.Json

/-! Strings that are read back from the text that only puts quotes around them. Of all texts that
are read as a string this one is the shortest, so that what is longer than it should be is read
as something else. -/

namespace WitcherMP.Json

theorem skipSpaces_cons {c : Char} (hc : isSpace c = false) (text : List Char) :
    skipSpaces (c :: text) = c :: text :=
  List.dropWhile_cons_of_neg (Bool.not_eq_true _ ▸ hc)

theorem length_hex4 {text rest : List Char} {n : ℕ} (h : hex4 text = some (n, rest)) :
    rest.length < text.length := by
  unfold hex4 at h
  split at h
  · simp only [Option.bind_eq_bind, Option.bind_eq_some_iff] at h
    obtain ⟨a, -, b, -, c, -, d, -, h⟩ := h
    cases h
    simp only [List.length_cons]
    omega
  · cases h

theorem length_parseUnicode {text rest : List Char} {c : Char}
    (h : parseUnicode text = some (c, rest)) : rest.length < text.length := by
  rw [parseUnicode, Option.bind_eq_bind, Option.bind_eq_some_iff] at h
  obtain ⟨⟨high, rest₁⟩, hhigh, h⟩ := h
  have hfour := length_hex4 hhigh
  dsimp only at h
  split_ifs at h with hsingle hpair
  · obtain ⟨-, rfl⟩ := Prod.mk.inj (Option.some.inj h)
    exact hfour
  · rw [parseLow, Option.bind_eq_bind, Option.bind_eq_some_iff] at h
    obtain ⟨⟨low, rest₂⟩, hlow, h⟩ := h
    have hlast := length_hex4 hlow
    dsimp only at h
    split_ifs at h
    obtain ⟨-, rfl⟩ := Prod.mk.inj (Option.some.inj h)
    rw [List.length_drop] at hlast
    omega

theorem length_parseEscape {text rest : List Char} {c : Char}
    (h : parseEscape text = some (c, rest)) : rest.length < text.length := by
  cases text with
  | nil => cases h
  | cons d text =>
    rw [parseEscape] at h
    rw [List.length_cons]
    split_ifs at h
    · exact Nat.lt_succ_of_lt (length_parseUnicode h)
    · obtain ⟨_, -, h⟩ := Option.map_eq_some_iff.mp h
      obtain ⟨-, rfl⟩ := Prod.mk.inj h
      exact Nat.lt_succ_self _

def Tight (text written : List Char) (ok : Prop) : Prop :=
  written.length ≤ text.length ∧ (text.length ≤ written.length → text = written ∧ ok)

theorem Tight.refl (text : List Char) {ok : Prop} (h : ok) : Tight text text ok :=
  ⟨Nat.le_refl _, fun _ => ⟨rfl, h⟩⟩

theorem Tight.imp {text written : List Char} {p q : Prop} (h : Tight text written p) (hpq : p → q) :
    Tight text written q :=
  h.imp_right fun htight hle => (htight hle).imp_right hpq

theorem Tight.cons {text written : List Char} {p : Prop} (h : Tight text written p) (c : Char) :
    Tight (c :: text) (c :: written) p := by
  refine ⟨Nat.succ_le_succ h.1, fun hle => ?_⟩
  obtain ⟨rfl, hp⟩ := h.2 (Nat.le_of_succ_le_succ hle)
  exact ⟨rfl, hp⟩

theorem Tight.then {text u v rest : List Char} {p q : Prop} (h : Tight text (u ++ rest) p)
    (h' : Tight rest v q) : Tight text (u ++ v) (p ∧ q) := by
  obtain ⟨hle, htight⟩ := h
  obtain ⟨hle', htight'⟩ := h'
  rw [List.length_append] at hle htight
  rw [Tight, List.length_append]
  refine ⟨by omega, fun hlast => ?_⟩
  obtain ⟨rfl, hq⟩ := htight' (by omega)
  obtain ⟨rfl, hp⟩ := htight hlast
  exact ⟨rfl, hp, hq⟩

theorem tight_skipSpaces {text text' : List Char} (h : skipSpaces text = text') :
    Tight text text' True := by
  have hsuffix : text' <:+ text := h ▸ List.dropWhile_suffix isSpace
  exact ⟨hsuffix.length_le, fun hle => ⟨(hsuffix.eq_of_length_le hle).symm, trivial⟩⟩

theorem parseChar_raw {c : Char} (hc : Raw c) (rest : List Char) :
    parseChar (c :: rest) = some (c, rest) := by
  rw [parseChar, if_neg hc.2.1, if_pos hc]

theorem tight_parseChar {text rest : List Char} {c : Char} (h : parseChar text = some (c, rest)) :
    Tight text (c :: rest) (Raw c) := by
  cases text with
  | nil => cases h
  | cons d text =>
    rw [parseChar] at h
    split_ifs at h with hslash hraw
    · have hlt := length_parseEscape h
      rw [Tight, List.length_cons, List.length_cons]
      exact ⟨by omega, fun hle => by omega⟩
    · obtain ⟨rfl, rfl⟩ := Prod.mk.inj (Option.some.inj h)
      exact .refl _ hraw

/-- What is `Ok` is read back from what is written, with anything behind it, and no text that is
read as the same thing is as short: not even what is written for it where it is not `Ok`. -/
structure Shortest {α β : Type} (read : Parser β) (value : α → β) (write : α → List Char)
    (Ok : α → Prop) : Prop where
  reads : ∀ a, Ok a → ∀ rest, read (write a ++ rest) = some (value a, rest)
  tight : ∀ text a rest, read text = some (value a, rest) → Tight text (write a ++ rest) (Ok a)

section Shortest
variable {α β γ δ : Type} {read : Parser β} {value : α → β} {write : α → List Char} {Ok : α → Prop}

theorem Shortest.behind (h : Shortest read value write Ok) {read' : Parser γ} {value' : α → γ}
    {c : Char} (hc : isSpace c = false)
    (hread : ∀ text a rest, read' text = some (value' a, rest) ↔
      ∃ text', skipSpaces text = c :: text' ∧ read text' = some (value a, rest)) :
    Shortest read' value' (fun a => c :: write a) Ok where
  reads a hok rest := (hread _ a rest).mpr ⟨_, skipSpaces_cons hc _, h.reads a hok rest⟩
  tight text a rest hsome := by
    obtain ⟨text', hskip, hsome⟩ := (hread text a rest).mp hsome
    have hspaces : Tight text ([] ++ c :: text') True := tight_skipSpaces hskip
    exact (hspaces.then ((h.tight text' a rest hsome).cons c)).imp And.right

theorem Shortest.pair {read₂ : Parser δ} {value₂ : γ → δ} {write₂ : γ → List Char} {Ok₂ : γ → Prop}
    (h : Shortest read value write Ok) (h₂ : Shortest read₂ value₂ write₂ Ok₂) :
    Shortest (fun text => do
        let (b, rest) ← read text
        let (d, rest) ← read₂ rest
        return ((b, d), rest))
      (fun p : α × γ => (value p.1, value₂ p.2)) (fun p => write p.1 ++ write₂ p.2)
      (fun p => Ok p.1 ∧ Ok₂ p.2) where
  reads p hok rest := by
    rw [List.append_assoc, h.reads p.1 hok.1, Option.bind_eq_bind, Option.bind_some]
    dsimp only
    rw [h₂.reads p.2 hok.2]
    rfl
  tight text p rest hsome := by
    simp only [Option.bind_eq_bind, Option.bind_eq_some_iff] at hsome
    obtain ⟨⟨b, rest₁⟩, hfirst, ⟨d, rest₂⟩, hsecond, hsome⟩ := hsome
    obtain ⟨hvalues, rfl⟩ := Prod.mk.inj (Option.some.inj hsome)
    obtain ⟨rfl, rfl⟩ := Prod.mk.inj hvalues
    rw [List.append_assoc]
    exact (h.tight text p.1 rest₁ hfirst).then (h₂.tight rest₁ p.2 rest₂ hsecond)

end Shortest

def Plain (s : List Char) : Prop := ∀ c ∈ s, Raw c

instance (s : List Char) : Decidable (Plain s) := List.decidableBAll Raw s

theorem parseChars_plain {s : List Char} (hs : Plain s) {fuel : ℕ} (hfuel : s.length < fuel)
    (rest : List Char) : parseChars fuel (s ++ '"' :: rest) = some (s, rest) := by
  induction s generalizing fuel with
  | nil =>
    cases fuel with
    | zero => exact absurd hfuel (Nat.not_lt_zero _)
    | succ fuel => rfl
  | cons c s ih =>
    cases fuel with
    | zero => exact absurd hfuel (Nat.not_lt_zero _)
    | succ fuel =>
      obtain ⟨hc, hs⟩ := List.forall_mem_cons.mp hs
      have hquote : ¬ ((c :: s) ++ '"' :: rest).head? = some '"' :=
        fun hhead => hc.1 (Option.some.inj hhead)
      rw [parseChars, if_neg hquote, List.cons_append, parseChar_raw hc]
      rw [Option.bind_eq_bind, Option.bind_some]
      dsimp only
      rw [ih hs (Nat.lt_of_succ_lt_succ hfuel)]
      rfl

theorem tight_parseChars {fuel : ℕ} {text s rest : List Char}
    (h : parseChars fuel text = some (s, rest)) : Tight text (s ++ '"' :: rest) (Plain s) := by
  induction fuel generalizing text s with
  | zero => cases h
  | succ fuel ih =>
    rw [parseChars] at h
    split_ifs at h with hquote
    · obtain ⟨rfl, rfl⟩ := Prod.mk.inj (Option.some.inj h)
      obtain ⟨text', rfl⟩ := List.head?_eq_some_iff.mp hquote
      exact .refl _ fun c hc => absurd hc List.not_mem_nil
    · simp only [Option.bind_eq_bind, Option.bind_eq_some_iff] at h
      obtain ⟨⟨c, rest₁⟩, hchar, ⟨cs, rest₂⟩, hchars, h⟩ := h
      obtain ⟨rfl, rfl⟩ := Prod.mk.inj (Option.some.inj h)
      have hfirst : Tight text ([c] ++ rest₁) (Raw c) := tight_parseChar hchar
      exact (hfirst.then (ih hchars)).imp List.forall_mem_cons.mpr

def writeChars (s : List Char) : List Char := s ++ ['"']

theorem shortest_parseString : Shortest parseString (fun s => s) writeChars Plain where
  reads s hs rest := by
    rw [writeChars, List.append_assoc, List.singleton_append, parseString]
    refine parseChars_plain hs ?_ rest
    rw [List.length_append, List.length_cons]
    omega
  tight text s rest h := by
    rw [writeChars, List.append_assoc, List.singleton_append]
    exact tight_parseChars h

section Items
variable {α β : Type} {item : Parser β} {value : α → β} {write : α → List Char} {Ok : α → Prop}
variable {close : Char}

def writeSeq (write : α → List Char) (close : Char) : α → List α → List Char
  | a, [] => write a ++ [close]
  | a, b :: as => write a ++ ',' :: writeSeq write close b as

def writeItems (write : α → List Char) (close : Char) : List α → List Char
  | [] => [close]
  | a :: as => writeSeq write close a as

theorem parseSeq_reads (h : Shortest item value write Ok) (hclose : isSpace close = false)
    (hcomma : close ≠ ',') {a : α} {as : List α} (hok : ∀ b ∈ a :: as, Ok b) {fuel : ℕ}
    (hfuel : as.length < fuel) (rest : List Char) :
    parseSeq item close fuel (writeSeq write close a as ++ rest)
      = some ((a :: as).map value, rest) := by
  induction as generalizing a fuel with
  | nil =>
    cases fuel with
    | zero => exact absurd hfuel (Nat.not_lt_zero _)
    | succ fuel =>
      rw [writeSeq, List.append_assoc, parseSeq, h.reads a (hok a List.mem_cons_self)]
      rw [Option.bind_eq_bind, Option.bind_some]
      dsimp only
      rw [List.singleton_append, skipSpaces_cons hclose]
      dsimp only
      rw [if_pos rfl]
      rfl
  | cons b as ih =>
    cases fuel with
    | zero => exact absurd hfuel (Nat.not_lt_zero _)
    | succ fuel =>
      obtain ⟨ha, has⟩ := List.forall_mem_cons.mp hok
      rw [writeSeq, List.append_assoc, parseSeq, h.reads a ha, Option.bind_eq_bind, Option.bind_some]
      dsimp only
      rw [List.cons_append, skipSpaces_cons (by decide)]
      dsimp only
      rw [if_neg hcomma.symm, if_pos rfl, ih has (Nat.lt_of_succ_lt_succ hfuel)]
      rfl

theorem parseSeq_ne_nil {fuel : ℕ} {text rest : List Char} :
    parseSeq item close fuel text ≠ some ([], rest) := by
  intro h
  cases fuel with
  | zero => cases h
  | succ fuel =>
    rw [parseSeq, Option.bind_eq_bind, Option.bind_eq_some_iff] at h
    obtain ⟨⟨b, rest₁⟩, -, h⟩ := h
    dsimp only at h
    split at h
    · cases h
    · split_ifs at h
      · cases h
      · obtain ⟨_, -, h⟩ := Option.map_eq_some_iff.mp h
        cases h

theorem tight_parseSeq (h : Shortest item value write Ok) {fuel : ℕ} {text rest : List Char} {a : α}
    {as : List α} (hsome : parseSeq item close fuel text = some ((a :: as).map value, rest)) :
    Tight text (writeSeq write close a as ++ rest) (∀ b ∈ a :: as, Ok b) := by
  induction fuel generalizing text a as with
  | zero => cases hsome
  | succ fuel ih =>
    rw [parseSeq, Option.bind_eq_bind, Option.bind_eq_some_iff] at hsome
    obtain ⟨⟨b, rest₁⟩, hitem, hsome⟩ := hsome
    dsimp only at hsome
    split at hsome
    · cases hsome
    · rename_i c rest₂ hskip
      split_ifs at hsome with hclose hcomma
      · obtain ⟨hvalues, rfl⟩ := Prod.mk.inj (Option.some.inj hsome)
        obtain ⟨rfl, hnil⟩ := List.cons.inj hvalues
        obtain rfl := List.map_eq_nil_iff.mp hnil.symm
        have hfirst := (h.tight text a rest₁ hitem).then (tight_skipSpaces hskip)
        rw [writeSeq, List.append_assoc, List.singleton_append, ← hclose]
        exact hfirst.imp fun hok => List.forall_mem_singleton.mpr hok.1
      · obtain ⟨⟨bs, rest₃⟩, hseq, hsome⟩ := Option.map_eq_some_iff.mp hsome
        obtain ⟨hvalues, rfl⟩ := Prod.mk.inj hsome
        obtain ⟨rfl, rfl⟩ := List.cons.inj hvalues
        have hfirst := (h.tight text a rest₁ hitem).then (tight_skipSpaces hskip)
        cases as with
        | nil => exact absurd hseq parseSeq_ne_nil
        | cons a' as =>
          rw [writeSeq, List.append_assoc, List.cons_append, ← hcomma]
          exact (hfirst.then ((ih hseq).cons c)).imp fun hok =>
            List.forall_mem_cons.mpr ⟨hok.1.1, hok.2⟩

theorem length_lt_writeSeq (write : α → List Char) (close : Char) (a : α) (as : List α) :
    as.length < (writeSeq write close a as).length := by
  induction as generalizing a with
  | nil =>
    rw [writeSeq, List.length_append]
    exact Nat.succ_pos _
  | cons b as ih =>
    rw [writeSeq, List.length_append, List.length_cons, List.length_cons]
    have := ih b
    omega

theorem writeSeq_eq_append (write : α → List Char) (close : Char) (a : α) (as : List α) :
    ∃ text, writeSeq write close a as = write a ++ text := by
  cases as with
  | nil => exact ⟨[close], rfl⟩
  | cons b as => exact ⟨',' :: writeSeq write close b as, rfl⟩

theorem Shortest.items (h : Shortest item value write Ok) (hclose : isSpace close = false)
    (hcomma : close ≠ ',')
    (hstart : ∀ a, ∃ c text, write a = c :: text ∧ isSpace c = false ∧ c ≠ close) :
    Shortest (parseItems item close) (List.map value) (writeItems write close)
      (fun as => ∀ a ∈ as, Ok a) where
  reads as hok rest := by
    cases as with
    | nil =>
      rw [writeItems, parseItems, List.singleton_append, skipSpaces_cons hclose]
      exact if_pos rfl
    | cons a as =>
      obtain ⟨c, text, hwrite, hspace, hother⟩ := hstart a
      obtain ⟨text', hseq⟩ := writeSeq_eq_append write close a as
      have hfuel := length_lt_writeSeq write close a as
      have hread := parseSeq_reads h hclose hcomma hok
        (Nat.lt_of_lt_of_le hfuel (Nat.le_add_right _ rest.length)) rest
      rw [← List.length_append] at hread
      rw [writeItems, ← hread, parseItems, hseq, hwrite, List.cons_append, List.cons_append,
        skipSpaces_cons hspace]
      exact if_neg hother
  tight text as rest hsome := by
    rw [parseItems] at hsome
    split at hsome
    · cases hsome
    · rename_i c rest₁ hskip
      cases as with
      | nil =>
        split_ifs at hsome with hend
        · obtain ⟨-, rfl⟩ := Prod.mk.inj (Option.some.inj hsome)
          rw [writeItems, List.singleton_append, ← hend]
          exact (tight_skipSpaces hskip).imp fun _ a ha => absurd ha List.not_mem_nil
        · exact absurd hsome parseSeq_ne_nil
      | cons a as =>
        split_ifs at hsome
        · cases hsome
        · exact tight_parseSeq h hsome

theorem writeItems_append (write : α → List Char) (close : Char) (as : List α) (b : α) (bs : List α) :
    writeItems write close (as ++ b :: bs)
      = as.flatMap (fun a => write a ++ [',']) ++ writeSeq write close b bs := by
  induction as with
  | nil => rfl
  | cons a as ih =>
    rw [List.flatMap_cons, List.append_assoc, ← ih, List.cons_append]
    cases as with
    | nil => simp [writeItems, writeSeq]
    | cons a' as => simp [writeItems, writeSeq]

theorem parseSeq_eq_none (h : Shortest item value write Ok) {as : List α} (hok : ∀ a ∈ as, Ok a)
    {b : α} (hb : Ok b) {c : Char} (hc : isSpace c = false) (hclose : c ≠ close) (hcomma : c ≠ ',')
    (hother : close ≠ ',') (fuel : ℕ) (rest : List Char) :
    parseSeq item close fuel (as.flatMap (fun a => write a ++ [',']) ++ (write b ++ c :: rest))
      = none := by
  induction as generalizing fuel with
  | nil =>
    cases fuel with
    | zero => rfl
    | succ fuel =>
      rw [List.flatMap_nil, List.nil_append, parseSeq, h.reads b hb, Option.bind_eq_bind]
      rw [Option.bind_some]
      dsimp only
      rw [skipSpaces_cons hc]
      dsimp only
      rw [if_neg hclose, if_neg hcomma]
  | cons a as ih =>
    cases fuel with
    | zero => rfl
    | succ fuel =>
      obtain ⟨ha, has⟩ := List.forall_mem_cons.mp hok
      rw [List.flatMap_cons, List.append_assoc, List.append_assoc, parseSeq, h.reads a ha]
      rw [Option.bind_eq_bind, Option.bind_some]
      dsimp only
      rw [List.singleton_append, skipSpaces_cons (by decide)]
      dsimp only
      rw [if_neg hother.symm, if_pos rfl, ih has, Option.map_none]

end Items

theorem parseWord_eq_some {word : String} {j j' : Json} {text rest : List Char}
    (h : parseWord word j text = some (j', rest)) : j' = j := by
  rw [parseWord] at h
  split_ifs at h
  exact (Prod.mk.inj (Option.some.inj h)).1.symm

theorem parseScalar_eq_some {text rest : List Char} {j : Json}
    (h : parseScalar text = some (j, rest)) :
    j = .null ∨ (∃ b, j = .bool b) ∨ ∃ digits, j = .number digits := by
  rw [parseScalar, Option.or_eq_some_iff, Option.or_eq_some_iff, Option.or_eq_some_iff] at h
  rcases h with h | ⟨-, h | ⟨-, h | ⟨-, h⟩⟩⟩
  · exact .inl (parseWord_eq_some h)
  · exact .inr (.inl ⟨true, parseWord_eq_some h⟩)
  · exact .inr (.inl ⟨false, parseWord_eq_some h⟩)
  · obtain ⟨p, -, h⟩ := Option.map_eq_some_iff.mp h
    exact .inr (.inr ⟨p.1, (Prod.mk.inj h).1.symm⟩)

theorem parseBehind_iff {α : Type} (c : Char) (read : Parser α) (text : List Char)
    (p : α × List Char) : parseBehind c read text = some p ↔
      ∃ text', skipSpaces text = c :: text' ∧ read text' = some p := by
  rw [parseBehind]
  constructor
  · intro h
    split at h
    · cases h
    · rename_i c' text' hskip
      split_ifs at h with hc
      exact ⟨text', hc ▸ hskip, h⟩
  · rintro ⟨text', hskip, hread⟩
    rw [hskip]
    exact (if_pos rfl).trans hread

theorem parseValue_string_iff (fuel : ℕ) (text s rest : List Char) :
    parseValue (fuel + 1) text = some (.string s, rest) ↔
      ∃ text', skipSpaces text = '"' :: text' ∧ parseString text' = some (s, rest) := by
  rw [parseValue]
  constructor
  · intro h
    split at h
    · cases h
    · rename_i c text' hskip
      split_ifs at h with hquote
      · obtain ⟨⟨s', rest'⟩, hread, h⟩ := Option.map_eq_some_iff.mp h
        obtain ⟨hs, rfl⟩ := Prod.mk.inj h
        obtain rfl := Json.string.inj hs
        exact ⟨text', hquote ▸ hskip, hread⟩
      · obtain ⟨_, -, h⟩ := Option.map_eq_some_iff.mp h
        cases h
      · obtain ⟨_, -, h⟩ := Option.map_eq_some_iff.mp h
        cases h
      · rcases parseScalar_eq_some h with h | ⟨_, h⟩ | ⟨_, h⟩ <;> cases h
  · rintro ⟨text', hskip, hread⟩
    rw [hskip]
    dsimp only
    rw [if_pos rfl, hread]
    rfl

theorem parseValue_object_iff (fuel : ℕ) (text : List Char) (members : List (List Char × Json))
    (rest : List Char) :
    parseValue (fuel + 1) text = some (.object members, rest) ↔
      ∃ text', skipSpaces text = '{' :: text' ∧
        parseItems (parseMember (parseValue fuel)) '}' text' = some (members, rest) := by
  rw [parseValue]
  constructor
  · intro h
    split at h
    · cases h
    · rename_i c text' hskip
      split_ifs at h with hquote hbracket hbrace
      · obtain ⟨_, -, h⟩ := Option.map_eq_some_iff.mp h
        cases h
      · obtain ⟨_, -, h⟩ := Option.map_eq_some_iff.mp h
        cases h
      · obtain ⟨⟨members', rest'⟩, hread, h⟩ := Option.map_eq_some_iff.mp h
        obtain ⟨hmembers, rfl⟩ := Prod.mk.inj h
        obtain rfl := Json.object.inj hmembers
        exact ⟨text', hbrace ▸ hskip, hread⟩
      · rcases parseScalar_eq_some h with h | ⟨_, h⟩ | ⟨_, h⟩ <;> cases h
  · rintro ⟨text', hskip, hread⟩
    rw [hskip]
    dsimp only
    rw [if_neg (by decide), if_neg (by decide), if_pos rfl, hread]
    rfl

def writeString (s : List Char) : List Char := '"' :: writeChars s

def writeMember (p : List Char × List Char) : List Char := writeString p.1 ++ ':' :: writeString p.2

def writeObject (members : List (List Char × List Char)) : List Char :=
  '{' :: writeItems writeMember '}' members

def ofStrings (members : List (List Char × List Char)) : Json :=
  .object (members.map fun p => (p.1, .string p.2))

theorem ofStrings_injective : Function.Injective ofStrings := by
  intro members members' h
  refine List.map_injective_iff.mpr (fun p q hpq => ?_) (Json.object.inj h)
  obtain ⟨hname, hvalue⟩ := Prod.mk.inj hpq
  exact Prod.ext hname (Json.string.inj hvalue)

theorem shortest_string (fuel : ℕ) : Shortest (parseValue (fuel + 1)) .string writeString Plain :=
  shortest_parseString.behind (by decide) (parseValue_string_iff fuel)

theorem shortest_member (fuel : ℕ) :
    Shortest (parseMember (parseValue (fuel + 1))) (fun p => (p.1, Json.string p.2)) writeMember
      (fun p => Plain p.1 ∧ Plain p.2) := by
  have hname := shortest_parseString.behind (c := '"') (by decide)
    fun text s rest => parseBehind_iff '"' parseString text (s, rest)
  have hvalue := (shortest_string fuel).behind (c := ':') (by decide)
    fun text s rest => parseBehind_iff ':' (parseValue (fuel + 1)) text (.string s, rest)
  exact hname.pair hvalue

theorem shortest_object (fuel : ℕ) :
    Shortest (parseValue (fuel + 2)) ofStrings writeObject
      (fun members => ∀ p ∈ members, Plain p.1 ∧ Plain p.2) := by
  refine ((shortest_member fuel).items (by decide) (by decide) fun p => ?_).behind (by decide)
    fun text members rest => parseValue_object_iff (fuel + 1) text _ rest
  exact ⟨'"', _, rfl, by decide, by decide⟩

theorem parse_writeObject_iff (members : List (List Char × List Char)) :
    parse (writeObject members) = some (ofStrings members) ↔
      ∀ p ∈ members, Plain p.1 ∧ Plain p.2 := by
  have hlength : (writeObject members).length + 1 = (writeObject members).tail.length + 2 := rfl
  have hshortest := shortest_object (writeObject members).tail.length
  rw [parse, hlength]
  constructor
  · intro h
    rw [Option.bind_eq_bind, Option.bind_eq_some_iff] at h
    obtain ⟨⟨j, rest⟩, hread, h⟩ := h
    dsimp only at h
    split_ifs at h
    obtain rfl := Option.some.inj h
    have htight := hshortest.tight _ members rest hread
    refine (htight.2 ?_).2
    rw [List.length_append]
    exact Nat.le_add_right _ _
  · intro h
    have hread := hshortest.reads members h []
    rw [List.append_nil] at hread
    rw [hread]
    rfl

theorem parse_members_eq_none {members : List (List Char × List Char)}
    (hmembers : ∀ p ∈ members, Plain p.1 ∧ Plain p.2) {p : List Char × List Char}
    (hp : Plain p.1 ∧ Plain p.2) {c : Char} (hc : isSpace c = false) (hclose : c ≠ '}')
    (hcomma : c ≠ ',') (rest : List Char) :
    parse ('{' :: (members.flatMap (fun p => writeMember p ++ [',']) ++
      (writeMember p ++ c :: rest))) = none := by
  have hquote : ∃ text, members.flatMap (fun p => writeMember p ++ [',']) ++
      (writeMember p ++ c :: rest) = '"' :: text := by
    cases members with
    | nil => exact ⟨_, rfl⟩
    | cons q members => exact ⟨_, rfl⟩
  obtain ⟨text, htext⟩ := hquote
  have hseq := parseSeq_eq_none (shortest_member (text.length + 1)) hmembers hp hc hclose hcomma
    (by decide) (text.length + 1) rest
  rw [htext] at hseq ⊢
  have hitems : parseItems (parseMember (parseValue (text.length + 2))) '}' ('"' :: text) = none := by
    rw [parseItems, skipSpaces_cons (by decide)]
    exact (if_neg (by decide)).trans hseq
  have hvalue : parseValue (text.length + 2 + 1) ('{' :: '"' :: text) = none := by
    rw [parseValue, skipSpaces_cons (by decide)]
    dsimp only
    rw [if_neg (by decide), if_neg (by decide), if_pos rfl, hitems, Option.map_none]
  rw [parse, List.length_cons, List.length_cons, hvalue]
  rfl

end WitcherMP.Json
