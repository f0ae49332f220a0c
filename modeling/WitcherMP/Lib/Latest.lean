import Mathlib.Data.List.Basic

/-! Logs of what is said to several listeners, each entry about some keys, and the last that a
listener has heard about a key. -/

namespace WitcherMP.Latest
variable {ι μ β κ ν : Type*} [DecidableEq ι] [DecidableEq κ]

def heard (tells : μ → List β) (log : List (ι × μ)) (i : ι) : List β :=
  (log.filter (·.1 = i)).flatMap fun e => tells e.2

def latest (said : List (κ × ν)) (k : κ) : Option ν := (said.reverse.find? (·.1 = k)).map Prod.snd

theorem heard_append (tells : μ → List β) (log log' : List (ι × μ)) (i : ι) :
    heard tells (log ++ log') i = heard tells log i ++ heard tells log' i := by
  rw [heard, List.filter_append, List.flatMap_append]
  rfl

theorem heard_singleton (tells : μ → List β) (i : ι) (m : μ) : heard tells [(i, m)] i = tells m := by
  have hone : [(i, m)].filter (·.1 = i) = [(i, m)] := List.filter_cons_of_pos (decide_eq_true rfl)
  rw [heard, hone, List.flatMap_singleton]

theorem mem_heard {tells : μ → List β} {log : List (ι × μ)} {i : ι} {b : β} :
    b ∈ heard tells log i ↔ ∃ m, (i, m) ∈ log ∧ b ∈ tells m := by
  simp only [heard, List.mem_flatMap, List.mem_filter, decide_eq_true_eq]
  constructor
  · rintro ⟨⟨j, m⟩, ⟨hmem, rfl⟩, hb⟩
    exact ⟨m, hmem, hb⟩
  · rintro ⟨m, hmem, hb⟩
    exact ⟨(i, m), ⟨hmem, rfl⟩, hb⟩

theorem mem_of_latest {said : List (κ × ν)} {k : κ} {v : ν} (h : latest said k = some v) :
    (k, v) ∈ said := by
  obtain ⟨b, hb, rfl⟩ := Option.map_eq_some_iff.mp h
  have hk : b.1 = k := by simpa using List.find?_some hb
  exact hk ▸ List.mem_reverse.mp (List.mem_of_find?_eq_some hb)

theorem latest_eq_none_iff {said : List (κ × ν)} {k : κ} :
    latest said k = none ↔ ∀ b ∈ said, b.1 ≠ k := by
  simp [latest]

theorem latest_append (said said' : List (κ × ν)) (k : κ) :
    latest (said ++ said') k = (latest said' k).or (latest said k) := by
  rw [latest, List.reverse_append, List.find?_append, Option.map_or]
  rfl

theorem latest_append_of_notMem {said said' : List (κ × ν)} {k : κ} (h : ∀ b ∈ said', b.1 ≠ k) :
    latest (said ++ said') k = latest said k := by
  have hnone : latest said' k = none := by
    rw [latest, Option.map_eq_none_iff, List.find?_eq_none]
    exact fun b hb => by simpa using h b (List.mem_reverse.mp hb)
  rw [latest_append, hnone, Option.none_or]

theorem latest_append_of_forall {said said' : List (κ × ν)} {k : κ} {v : ν} (hmem : (k, v) ∈ said')
    (h : ∀ b ∈ said', b.1 = k → b.2 = v) : latest (said ++ said') k = some v := by
  have hsome : latest said' k = some v := by
    rw [latest]
    cases hfind : said'.reverse.find? (·.1 = k) with
    | none =>
      have hne := List.find?_eq_none.mp hfind (k, v) (List.mem_reverse.mpr hmem)
      exact absurd (decide_eq_true rfl) hne
    | some b =>
      have hb : b.1 = k := by simpa using List.find?_some hfind
      rw [Option.map_some, h b (List.mem_reverse.mp (List.mem_of_find?_eq_some hfind)) hb]
  rw [latest_append, hsome, Option.some_or]

theorem latest_append_of_eq {said said' : List (κ × ν)} {k : κ} {v : ν} (hv : latest said k = some v)
    (h : ∀ b ∈ said', b.1 = k → b.2 = v) : latest (said ++ said') k = some v := by
  by_cases hmem : (k, v) ∈ said'
  · exact latest_append_of_forall hmem h
  · have hne : ∀ b ∈ said', b.1 ≠ k := by
      rintro ⟨k', v'⟩ hb rfl
      exact hmem (h _ hb rfl ▸ hb)
    rw [latest_append_of_notMem hne, hv]

theorem latest_eq_some_iff {said : List (κ × ν)} {k : κ} {v : ν} :
    latest said k = some v ↔
      ∃ before after, said = before ++ (k, v) :: after ∧ ∀ b ∈ after, b.1 ≠ k := by
  constructor
  · intro h
    obtain ⟨b, hb, rfl⟩ := Option.map_eq_some_iff.mp h
    obtain ⟨hk, after, before, hsaid, hne⟩ := List.find?_eq_some_iff_append.mp hb
    have hk : b.1 = k := by simpa using hk
    refine ⟨before.reverse, after.reverse, ?_, fun c hc => ?_⟩
    · rw [← List.reverse_reverse said, hsaid, ← hk]
      simp
    · simpa using hne c (List.mem_reverse.mp hc)
  · rintro ⟨before, after, rfl, hne⟩
    rw [← List.singleton_append, ← List.append_assoc, latest_append_of_notMem hne]
    refine latest_append_of_forall (List.mem_singleton_self _) fun b hb _ => ?_
    rw [List.mem_singleton.mp hb]

theorem latest_of_nodup {said : List (κ × ν)} (h : (said.map Prod.fst).Nodup) (k : κ) :
    latest said k = (said.find? (·.1 = k)).map Prod.snd := by
  cases hfind : said.find? (·.1 = k) with
  | none =>
    rw [Option.map_none, latest_eq_none_iff]
    exact fun b hb => by simpa using List.find?_eq_none.mp hfind b hb
  | some b =>
    obtain ⟨hk, before, after, rfl, -⟩ := List.find?_eq_some_iff_append.mp hfind
    have hk : b.1 = k := by simpa using hk
    rw [Option.map_some, latest_eq_some_iff]
    refine ⟨before, after, by rw [← hk], fun c hc hck => ?_⟩
    rw [List.map_append, List.map_cons] at h
    have hafter := (List.nodup_cons.mp (List.nodup_append.mp h).2.1).1
    exact hafter (hk ▸ hck ▸ List.mem_map_of_mem hc)

end WitcherMP.Latest
