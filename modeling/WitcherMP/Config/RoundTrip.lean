import WitcherMP.Config.Defs

/-! A configuration that is loaded, saved and loaded again. What is read from a line is trimmed,
and is read back from the line it is written to, unless that line has become a comment. -/

namespace WitcherMP.Config.ConfigManager
open Scans

section Trimming
variable {s line : Text} {c : Char}

theorem rdropWhile_cons_of_neg {p : Char → Bool} (h : p c = false) (s : Text) :
    (c :: s).rdropWhile p = c :: s.rdropWhile p := by
  have hc : [c].dropWhile p = [c] := List.dropWhile_cons_of_neg (by simp [h])
  rw [List.rdropWhile, List.reverse_cons, List.dropWhile_append, hc]
  split
  · next hempty => rw [List.rdropWhile, List.isEmpty_iff.mp hempty]; rfl
  · rw [List.reverse_append]; rfl

theorem trim_cases (s : Text) :
    (s.dropWhile isBlank = [] ∧ trim s = []) ∨ ∃ c t, s.dropWhile isBlank = c :: t ∧
      isBlank c = false ∧ trim s = c :: t.rdropWhile isBlank := by
  cases hfront : s.dropWhile isBlank with
  | nil => exact Or.inl ⟨rfl, by rw [trim, hfront, List.rdropWhile_nil]⟩
  | cons c t =>
    have hc : isBlank c = false := by
      have hhead := List.head?_dropWhile_not isBlank s
      rw [hfront] at hhead
      exact hhead
    exact Or.inr ⟨c, t, rfl, hc, by rw [trim, hfront, rdropWhile_cons_of_neg hc]⟩

theorem trim_trim (s : Text) : trim (trim s) = trim s := by
  rcases trim_cases s with ⟨-, htrim⟩ | ⟨c, t, -, hc, htrim⟩
  · rw [htrim]
    rfl
  · rw [htrim, trim, List.dropWhile_cons_of_neg (by simp [hc]), rdropWhile_cons_of_neg hc,
      List.rdropWhile_idempotent]

theorem head?_trim (s : Text) : (trim s).head? = (s.dropWhile isBlank).head? := by
  rcases trim_cases s with ⟨hfront, htrim⟩ | ⟨c, t, hfront, -, htrim⟩
  · rw [hfront, htrim]
  · rw [hfront, htrim]
    rfl

theorem mem_of_mem_trim (h : c ∈ trim s) : c ∈ s :=
  List.dropWhile_subset isBlank ((List.rdropWhile_prefix isBlank _).subset h)

theorem head?_dropWhile_takeWhile (line : Text) :
    ((line.takeWhile (· ≠ '=')).dropWhile isBlank).head? = some '#' ↔
      (line.dropWhile isBlank).head? = some '#' := by
  induction line with
  | nil => rfl
  | cons c cs ih =>
    by_cases hsep : c = '='
    · subst hsep
      simp [isBlank]
    · by_cases hblank : isBlank c = true
      · simpa [hsep, hblank] using ih
      · simp [hsep, hblank]

end Trimming

/-- A setting as it is read: one line, nothing blank at an end, no separator in the name. -/
structure Tidy (pair : Text × Text) : Prop where
  trim_key : trim pair.1 = pair.1
  trim_value : trim pair.2 = pair.2
  separator : '=' ∉ pair.1
  line_key : '\n' ∉ pair.1
  line_value : '\n' ∉ pair.2

section Lines
variable {line : Text} {pair : Text × Text}

theorem setting_eq_some_iff :
    setting line = some pair ↔ line.head? ≠ some '#' ∧ '=' ∈ line ∧
      trim (line.takeWhile (· ≠ '=')) = pair.1 ∧
      trim ((line.dropWhile (· ≠ '=')).drop 1) = pair.2 := by
  rw [setting]
  split
  · next hskip =>
    rcases hskip with rfl | hcomment
    · simp
    · simp [hcomment]
  · next hkeep =>
    have hmark := (not_or.mp hkeep).2
    split
    · next hsep => simp [hmark, hsep, Prod.ext_iff]
    · next hsep => simp [hsep]

theorem tidy_of_setting (hline : '\n' ∉ line) (h : setting line = some pair) : Tidy pair := by
  obtain ⟨-, -, hkey, hvalue⟩ := setting_eq_some_iff.mp h
  constructor
  · rw [← hkey, trim_trim]
  · rw [← hvalue, trim_trim]
  · rw [← hkey]
    intro hmem
    have hbefore := List.mem_takeWhile_imp (mem_of_mem_trim hmem)
    exact absurd hbefore (by decide)
  · rw [← hkey]
    exact fun hmem => hline ((List.takeWhile_sublist _).subset (mem_of_mem_trim hmem))
  · rw [← hvalue]
    intro hmem
    have hrest := (List.drop_sublist _ _).subset (mem_of_mem_trim hmem)
    exact hline ((List.dropWhile_sublist _).subset hrest)

theorem Tidy.settingLine_line (h : Tidy pair) : '\n' ∉ settingLine pair := by
  rw [settingLine, List.mem_append, List.mem_cons]
  rintro (hkey | hsep | hvalue)
  · exact h.line_key hkey
  · exact absurd hsep (by decide)
  · exact h.line_value hvalue

theorem Tidy.setting_settingLine (h : Tidy pair) :
    setting (settingLine pair) = if pair.1.head? = some '#' then none else some pair := by
  have hkey : ∀ c ∈ pair.1, decide (c ≠ '=') = true := by
    intro c hc
    exact decide_eq_true fun hsep => h.separator (hsep ▸ hc)
  have htake : (settingLine pair).takeWhile (· ≠ '=') = pair.1 := by
    rw [settingLine, List.takeWhile_append_of_pos hkey]
    simp
  have hdrop : ((settingLine pair).dropWhile (· ≠ '=')).drop 1 = pair.2 := by
    rw [settingLine, List.dropWhile_append_of_pos hkey]
    simp
  have hmem : '=' ∈ settingLine pair := List.mem_append_right _ (List.mem_cons_self ..)
  have hhead : (settingLine pair).head? = some '#' ↔ pair.1.head? = some '#' := by
    rw [settingLine]
    cases pair.1 with
    | nil => simp
    | cons c cs => rfl
  split
  · next hmark =>
    rw [setting, if_pos (Or.inr (hhead.mpr hmark))]
  · next hmark =>
    rw [setting_eq_some_iff, htake, hdrop]
    exact ⟨fun hcomment => hmark (hhead.mp hcomment), hmem, h.trim_key, h.trim_value⟩

theorem setting_marked_iff :
    (∃ pair, setting line = some pair ∧ pair.1.head? = some '#') ↔
      '=' ∈ line ∧ (line.dropWhile isBlank).head? = some '#' ∧ line.head? ≠ some '#' := by
  constructor
  · rintro ⟨pair, hsetting, hmark⟩
    obtain ⟨hhead, hsep, hkey, -⟩ := setting_eq_some_iff.mp hsetting
    rw [← hkey, head?_trim, head?_dropWhile_takeWhile] at hmark
    exact ⟨hsep, hmark, hhead⟩
  · rintro ⟨hsep, hmark, hhead⟩
    have hkey : (trim (line.takeWhile (· ≠ '='))).head? = some '#' := by
      rw [head?_trim, head?_dropWhile_takeWhile]
      exact hmark
    exact ⟨(trim (line.takeWhile (· ≠ '=')), trim ((line.dropWhile (· ≠ '=')).drop 1)),
      setting_eq_some_iff.mpr ⟨hhead, hsep, rfl, rfl⟩, hkey⟩

end Lines

section Saved
variable {files : Files} {filename : String} {content : Text} {visited : List (Text × Text)}

theorem foldl_loadLine (config : OrdMap Text Text) (lines : List Text) :
    lines.foldl loadLine config = config.insertPairs (lines.filterMap setting) := by
  induction lines generalizing config with
  | nil => rfl
  | cons line lines ih =>
    rw [List.foldl_cons, ih, loadLine]
    cases hsetting : setting line with
    | none => rw [List.filterMap_cons_none hsetting]
    | some pair =>
      rw [List.filterMap_cons_some hsetting]
      rfl

theorem loadConfig_of_content (m : ConfigManager)
    (h : files (getConfigPath filename) = some content) :
    (m.loadConfig files filename).1.config =
      m.config.insertPairs ((getlines '\n' content).filterMap setting) := by
  rw [loadConfig, h]
  exact foldl_loadLine m.config _

theorem fresh_entries :
    ∀ pair ∈ fresh.config.entries, Tidy pair ∧ pair.1.head? ≠ some '#' := by
  have hall : ∀ pair ∈ fresh.config.entries, trim pair.1 = pair.1 ∧ trim pair.2 = pair.2 ∧
      '=' ∉ pair.1 ∧ '\n' ∉ pair.1 ∧ '\n' ∉ pair.2 ∧ pair.1.head? ≠ some '#' := by
    decide +kernel
  intro pair hpair
  obtain ⟨hkey, hvalue, hsep, hlineKey, hlineValue, hmark⟩ := hall pair hpair
  exact ⟨⟨hkey, hvalue, hsep, hlineKey, hlineValue⟩, hmark⟩

theorem header_line : ∀ line ∈ header, '\n' ∉ line := by decide +kernel

theorem tidy_loadConfig (h : files (getConfigPath filename) = some content) :
    ∀ pair ∈ (fresh.loadConfig files filename).1.config.entries, Tidy pair := by
  intro pair hpair
  rw [loadConfig_of_content fresh h] at hpair
  rcases OrdMap.find?_insertPairs_cases (OrdMap.find?_eq_some_iff.mpr hpair) with hread | hdefault
  · obtain ⟨line, hline, hsetting⟩ := List.mem_filterMap.mp hread
    exact tidy_of_setting (notMem_of_mem_getlines hline) hsetting
  · exact (fresh_entries pair (OrdMap.find?_eq_some_iff.mp hdefault)).1

theorem loadConfig_saveConfig (m : ConfigManager) (files : Files) (filename : String)
    (h : ∀ pair ∈ visited, Tidy pair) :
    (m.loadConfig (saveConfig visited files filename true).1 filename).1.config =
      m.config.insertPairs (visited.filter fun pair => pair.1.head? ≠ some '#') := by
  have hfile : (saveConfig visited files filename true).1 (getConfigPath filename) =
      some (unlines (header ++ visited.map settingLine)) := Function.update_self ..
  have hlines : getlines '\n' (unlines (header ++ visited.map settingLine)) =
      header ++ visited.map settingLine := by
    refine getlines_flatMap fun line hline => ?_
    rcases List.mem_append.mp hline with hheader | hsetting
    · exact header_line line hheader
    · obtain ⟨pair, hpair, rfl⟩ := List.mem_map.mp hsetting
      exact (h pair hpair).settingLine_line
  have hheader : header.filterMap setting = [] := by decide
  have hsettings : (visited.map settingLine).filterMap setting =
      visited.filter fun pair => pair.1.head? ≠ some '#' := by
    rw [List.filterMap_map, ← List.filterMap_eq_filter]
    refine List.filterMap_congr fun pair hpair => ?_
    rw [Function.comp_apply, (h pair hpair).setting_settingLine, Option.guard_apply]
    by_cases hmark : pair.1.head? = some '#'
    · simp [hmark]
    · simp [hmark]
  rw [loadConfig_of_content m hfile, hlines, List.filterMap_append, hheader, List.nil_append,
    hsettings]

theorem unmarked_iff (h : files (getConfigPath filename) = some content) :
    (∀ pair ∈ (fresh.loadConfig files filename).1.config.entries, pair.1.head? ≠ some '#') ↔
      ∀ line ∈ getlines '\n' content, '=' ∈ line → (line.dropWhile isBlank).head? = some '#' →
        line.head? = some '#' := by
  have hloaded := loadConfig_of_content fresh h
  constructor
  · intro hunmarked line hline hsep hmark
    by_contra hhead
    obtain ⟨pair, hsetting, hname⟩ := setting_marked_iff.mpr ⟨hsep, hmark, hhead⟩
    have hread : pair.1 ∈ ((getlines '\n' content).filterMap setting).map Prod.fst :=
      List.mem_map.mpr ⟨pair, List.mem_filterMap.mpr ⟨line, hline, hsetting⟩, rfl⟩
    have hthere := OrdMap.find?_insertPairs_ne_none fresh.config hread
    rw [← hloaded] at hthere
    obtain ⟨value, hvalue⟩ := Option.ne_none_iff_exists'.mp hthere
    exact hunmarked (pair.1, value) (OrdMap.find?_eq_some_iff.mp hvalue) hname
  · intro hlines pair hpair hname
    rw [hloaded] at hpair
    rcases OrdMap.find?_insertPairs_cases (OrdMap.find?_eq_some_iff.mpr hpair) with hread | hdefault
    · obtain ⟨line, hline, hsetting⟩ := List.mem_filterMap.mp hread
      obtain ⟨hsep, hmark, hhead⟩ := setting_marked_iff.mp ⟨_, hsetting, hname⟩
      exact hhead (hlines line hline hsep hmark)
    · exact (fresh_entries pair (OrdMap.find?_eq_some_iff.mp hdefault)).2 hname

theorem fresh_of_find?_loadConfig_eq_none (h : files (getConfigPath filename) = some content)
    {key : Text} (hnone : (fresh.loadConfig files filename).1.config.find? key = none) :
    fresh.config.find? key = none := by
  rw [loadConfig_of_content fresh h] at hnone
  by_cases hread : key ∈ ((getlines '\n' content).filterMap setting).map Prod.fst
  · exact absurd hnone (OrdMap.find?_insertPairs_ne_none fresh.config hread)
  · rw [← OrdMap.find?_insertPairs_of_notMem fresh.config hread, hnone]

theorem reload_of_unmarked {savedAs : String} (h : files (getConfigPath filename) = some content)
    (hvisited : visited.Perm (fresh.loadConfig files filename).1.config.entries)
    (hunmarked : ∀ pair ∈ visited, pair.1.head? ≠ some '#') :
    (fresh.loadConfig (saveConfig visited files savedAs true).1 savedAs).1.config =
      (fresh.loadConfig files filename).1.config := by
  have htidy : ∀ pair ∈ visited, Tidy pair := fun pair hpair =>
    tidy_loadConfig h pair (hvisited.mem_iff.mp hpair)
  have hall : (visited.filter fun pair => pair.1.head? ≠ some '#') = visited :=
    List.filter_eq_self.mpr fun pair hpair => decide_eq_true (hunmarked pair hpair)
  have hkeys : (visited.map Prod.fst).Nodup :=
    (hvisited.map Prod.fst).nodup_iff.mpr (OrdMap.nodup_fst _)
  rw [loadConfig_saveConfig fresh files savedAs htidy, hall]
  refine OrdMap.ext_find? fun key => ?_
  cases hkey : (fresh.loadConfig files filename).1.config.find? key with
  | some value =>
    have hpair : (key, value) ∈ visited :=
      hvisited.mem_iff.mpr (OrdMap.find?_eq_some_iff.mp hkey)
    exact OrdMap.find?_insertPairs_of_mem fresh.config hkeys hpair
  | none =>
    have hnew : key ∉ visited.map Prod.fst := by
      intro hmem
      obtain ⟨pair, hpair, rfl⟩ := List.mem_map.mp hmem
      have hfound := OrdMap.find?_eq_some_iff.mpr (hvisited.mem_iff.mp hpair)
      rw [hkey] at hfound
      cases hfound
    rw [OrdMap.find?_insertPairs_of_notMem fresh.config hnew]
    exact fresh_of_find?_loadConfig_eq_none h hkey

theorem unmarked_loadConfig_saveConfig (files : Files) (savedAs : String)
    (h : ∀ pair ∈ visited, Tidy pair) :
    ∀ pair ∈ (fresh.loadConfig (saveConfig visited files savedAs true).1 savedAs).1.config.entries,
      pair.1.head? ≠ some '#' := by
  intro pair hpair hname
  rw [loadConfig_saveConfig fresh files savedAs h] at hpair
  rcases OrdMap.find?_insertPairs_cases (OrdMap.find?_eq_some_iff.mpr hpair) with hkept | hdefault
  · exact absurd hname (by simpa using (List.mem_filter.mp hkept).2)
  · exact (fresh_entries pair (OrdMap.find?_eq_some_iff.mp hdefault)).2 hname

/-- A configuration comes back from the file it is saved to, in whatever order, just when no line
that it was loaded from sets anything after an indented comment mark. -/
theorem reload_iff {savedAs : String} (h : files (getConfigPath filename) = some content)
    (hvisited : visited.Perm (fresh.loadConfig files filename).1.config.entries) :
    (fresh.loadConfig (saveConfig visited files savedAs true).1 savedAs).1 =
        (fresh.loadConfig files filename).1 ↔
      ∀ line ∈ getlines '\n' content, '=' ∈ line → (line.dropWhile isBlank).head? = some '#' →
        line.head? = some '#' := by
  have htidy : ∀ pair ∈ visited, Tidy pair := fun pair hpair =>
    tidy_loadConfig h pair (hvisited.mem_iff.mp hpair)
  have hconfig : ∀ m m' : ConfigManager, m = m' ↔ m.config = m'.config := by
    rintro ⟨config⟩ ⟨config'⟩
    exact ⟨congrArg _, congrArg _⟩
  rw [hconfig, ← unmarked_iff h]
  constructor
  · intro hsame
    rw [← hsame]
    exact unmarked_loadConfig_saveConfig files savedAs htidy
  · intro hunmarked
    exact reload_of_unmarked h hvisited fun pair hpair =>
      hunmarked pair (hvisited.mem_iff.mp hpair)

end Saved

theorem reload_iff_blanks :
    let content := " name = a = b \n#port=1\n".toList
    let loaded := (fresh.loadConfig (fun _ => some content) "config.json").1
    (fresh.loadConfig (saveConfig loaded.config.entries (fun _ => some content) "copy.json" true).1
        "copy.json").1 = loaded ↔
      ∀ line ∈ getlines '\n' content, '=' ∈ line → (line.dropWhile isBlank).head? = some '#' →
        line.head? = some '#' :=
  reload_iff rfl (List.Perm.refl _)

theorem not_reload :
    ¬ ∀ (files : Files) (filename savedAs : String) (content : Text) (visited : List (Text × Text)),
      files (getConfigPath filename) = some content →
      visited.Perm (fresh.loadConfig files filename).1.config.entries →
      (fresh.loadConfig (saveConfig visited files savedAs true).1 savedAs).1 =
        (fresh.loadConfig files filename).1 := by
  intro hreload
  let files : Files := fun _ => some " #a=b".toList
  have hsame := hreload files "config.json" "copy.json" _ _ rfl (List.Perm.refl _)
  have hname := congrArg (fun m => m.getValue "#a".toList []) hsame
  exact absurd hname (by decide +kernel)

end WitcherMP.Config.ConfigManager
