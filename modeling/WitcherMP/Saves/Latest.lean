import WitcherMP.Saves.Files
import WitcherMP.Lib.Run

/-! Loading a player gives the first save made of them, which is the latest one only while
nothing that is loaded has changed since. -/

namespace WitcherMP.Saves.SharedSaveSystem

def idsTaken (s : SharedSaveSystem) : Op → ℕ
  | .savePlayerData .. => if s.initialized then 1 else 0
  | .saveWorldData .. => if s.initialized then 1 else 0
  | .createBackup id _ _ => if s.initialized ∧ s.saveMetadata.find? id ≠ none then 1 else 0

def leaves {α : Type} (a : α) : Writing → Option (Option α)
  | .refused | .cut _ => none
  | .lost _ => some none
  | .done => some (some a)

def written (name : String) : Op → Option (Option (List UInt8))
  | .savePlayerData p d _ file =>
    if playerSaveName p = name then leaves (serializePlayerData d) file else none
  | .saveWorldData w d _ file =>
    if worldSaveName w = name then leaves (serializeWorldData d) file else none
  | .createBackup .. => none

structure TakesId (s s' : SharedSaveSystem) (filePath : String) (bytes : List UInt8) (file : Writing)
    (filed : Option SaveMetadata) : Prop where
  initialized : s'.initialized = s.initialized
  saveDirectory : s'.saveDirectory = s.saveDirectory
  nextSaveId : s'.nextSaveId = s.nextSaveId + 1
  files : s'.files = write s.files filePath bytes file
  saveMetadata : s'.saveMetadata = filed.elim s.saveMetadata (s.saveMetadata.insert s.nextSaveId)

def nextSave (s : SharedSaveSystem) (saveName : String) (type : SaveDataType) (data : List UInt8)
    (now : UInt64) : SaveData where
  saveId := s.nextSaveId
  saveName := saveName
  type := type
  data := data
  timestamp := now
  checksum := calculateChecksum data

theorem save_takesId {s : SharedSaveSystem} (hinit : s.initialized) (saveName description : String)
    (type : SaveDataType) (data : List UInt8) (now : UInt64) (file : Writing) :
    ∃ filed : Option SaveMetadata, (∀ metadata ∈ filed, metadata.saveName = saveName) ∧
      (filed.isSome ↔ file.reported = true) ∧
      TakesId s (s.save saveName description type data now file).1 (s.getSaveFilePath s.nextSaveId)
        (fileBytes (s.nextSave saveName type data now)) file filed := by
  rw [SharedSaveSystem.save, if_neg (not_not.mpr hinit)]
  dsimp only [saveDataToFile, updateSaveMetadata]
  split_ifs with hfile
  · refine ⟨some _, fun _ h => ?_, iff_of_true rfl hfile, rfl, rfl, rfl, rfl, rfl⟩
    rw [← Option.some.inj h]
  · refine ⟨none, fun _ h => ?_, iff_of_false Bool.false_ne_true hfile, rfl, rfl, rfl, rfl, rfl⟩
    cases h

theorem createBackup_takesId {s : SharedSaveSystem} (hinit : s.initialized) {id : UInt32}
    {metadata : SaveMetadata} (hlisted : s.saveMetadata.find? id = some metadata) (now : UInt64)
    (file : Writing) :
    ∃ filed : Option SaveMetadata,
      (∀ backup ∈ filed, backup.saveName
        = metadata.saveName ++ "_backup_" ++ toString s.nextSaveId.toNat) ∧
      (filed.isSome ↔ (s.files (s.getSaveFilePath id)).getD [] ≠ [] ∧ file.reported = true) ∧
      TakesId s (s.createBackup id now file).1 (s.getBackupFilePath id s.nextSaveId)
        ((s.files (s.getSaveFilePath id)).getD []) file filed := by
  rw [SharedSaveSystem.createBackup, if_neg (not_not.mpr hinit), hlisted]
  dsimp only [updateSaveMetadata]
  split_ifs with hfail
  · refine ⟨none, fun _ h => ?_, iff_of_false Bool.false_ne_true fun hboth => ?_, rfl, rfl, rfl, rfl,
      rfl⟩
    · cases h
    · exact hfail.elim hboth.1 fun hdone => hdone hboth.2
  · obtain ⟨horiginal, hdone⟩ := not_or.mp hfail
    refine ⟨some _, fun _ h => ?_, iff_of_true rfl ⟨horiginal, not_not.mp hdone⟩, rfl, rfl, rfl, rfl,
      rfl⟩
    rw [← Option.some.inj h]

theorem createBackup_of_not {s : SharedSaveSystem} {id : UInt32}
    (h : ¬ s.initialized ∨ s.saveMetadata.find? id = none) (now : UInt64) (file : Writing) :
    (s.createBackup id now file).1 = s := by
  rw [SharedSaveSystem.createBackup]
  by_cases hinit : s.initialized
  · rw [if_neg (not_not.mpr hinit), h.resolve_left (not_not.mpr hinit)]
  · rw [if_pos hinit]

section TakesId
variable {s s' : SharedSaveSystem} {bytes : List UInt8} {file : Writing}
variable {filed : Option SaveMetadata}

theorem TakesId.files_save (h : TakesId s s' (s.getSaveFilePath s.nextSaveId) bytes file filed)
    {id : UInt32} (hid : id ≠ s.nextSaveId) :
    s'.files (s.getSaveFilePath id) = s.files (s.getSaveFilePath id) := by
  rw [h.files]
  exact write_of_ne (fun hpath => hid (getSaveFilePath_inj.mp hpath)) bytes file

theorem TakesId.files_backup {saveId : UInt32}
    (h : TakesId s s' (s.getBackupFilePath saveId s.nextSaveId) bytes file filed) (id : UInt32) :
    s'.files (s.getSaveFilePath id) = s.files (s.getSaveFilePath id) := by
  rw [h.files]
  exact write_of_ne (s.getSaveFilePath_ne_backup id saveId s.nextSaveId) bytes file

end TakesId

def Holds (s : SharedSaveSystem) (id : UInt32) (data : List UInt8) : Prop :=
  ∃ saveData, loadDataFromFile s.files (s.getSaveFilePath id) = some saveData ∧
    verifyChecksum saveData ∧ saveData.data = data

def Gives (s : SharedSaveSystem) (id : UInt32) : Option (List UInt8) → Prop
  | some data => s.Holds id data
  | none => loadDataFromFile s.files (s.getSaveFilePath id) = none

structure Filed (n : ℕ) (name : String) (first : Option (Option (List UInt8)))
    (s : SharedSaveSystem) : Prop where
  next : s.nextSaveId = .ofNat (n + 1)
  used : ∀ e ∈ s.saveMetadata.entries, 1 ≤ e.1.toNat ∧ e.1.toNat ≤ n
  found : Option.Rel (fun e contents => s.Gives e.1 contents)
    (s.saveMetadata.entries.find? fun e => e.2.saveName = name) first

theorem filed_initial (initialized : Bool) (saveDirectory : String) (files : Files) (name : String) :
    Filed 0 name none
      { initialized := initialized, saveDirectory := saveDirectory, files := files } where
  next := rfl
  used _ h := nomatch h
  found := Option.Rel.none

section Steps
variable {n : ℕ} {name : String} {first : Option (Option (List UInt8))} {s s' : SharedSaveSystem}

theorem Holds.congr {id : UInt32} {data : List UInt8} (h : s.Holds id data)
    (hdir : s'.saveDirectory = s.saveDirectory)
    (hfile : s'.files (s.getSaveFilePath id) = s.files (s.getSaveFilePath id)) :
    s'.Holds id data := by
  obtain ⟨saveData, hload, hrest⟩ := h
  refine ⟨saveData, ?_, hrest⟩
  rwa [getSaveFilePath_congr hdir, loadDataFromFile, hfile, ← loadDataFromFile]

theorem Gives.congr {id : UInt32} {contents : Option (List UInt8)} (h : s.Gives id contents)
    (hdir : s'.saveDirectory = s.saveDirectory)
    (hfile : s'.files (s.getSaveFilePath id) = s.files (s.getSaveFilePath id)) :
    s'.Gives id contents := by
  cases contents with
  | some data => exact Holds.congr h hdir hfile
  | none =>
    rw [Gives, getSaveFilePath_congr hdir, loadDataFromFile, hfile]
    exact h

theorem Filed.load (h : Filed n name first s) (hinit : s.initialized) :
    (s.load name).2 = first.join := by
  have hfound := h.found
  rw [SharedSaveSystem.load, if_neg (not_not.mpr hinit), findSave]
  cases hfind : s.saveMetadata.entries.find? (fun e => e.2.saveName = name) with
  | none =>
    rw [hfind] at hfound
    cases hfound
    rfl
  | some e =>
    rw [hfind] at hfound
    cases hfound with
    | @some _ contents hgives =>
      have hpos : e.1 ≠ 0 := by
        intro hzero
        have := (h.used e (List.mem_of_find?_eq_some hfind)).1
        rw [hzero] at this
        exact absurd this (by decide)
      dsimp only [Option.map_some, Option.getD_some]
      rw [if_neg hpos]
      cases contents with
      | none =>
        rw [show loadDataFromFile s.files (s.getSaveFilePath e.1) = none from hgives]
        rfl
      | some data =>
        obtain ⟨saveData, hload, hcheck, hdata⟩ := hgives
        rw [hload]
        dsimp only
        rw [if_neg (not_not.mpr hcheck), hdata]
        rfl

theorem Filed.toNat_next (h : Filed n name first s) (hn : n + 1 < 2 ^ 32) :
    s.nextSaveId.toNat = n + 1 := by
  rw [h.next, UInt32.toNat_ofNat', Nat.mod_eq_of_lt hn]

theorem Filed.ne_next (h : Filed n name first s) (hn : n + 1 < 2 ^ 32) {e : UInt32 × SaveMetadata}
    (he : e ∈ s.saveMetadata.entries) : e.1 ≠ s.nextSaveId := by
  intro heq
  have := (h.used e he).2
  rw [heq, h.toNat_next hn] at this
  omega

theorem Filed.found_of_kept (h : Filed n name first s)
    (hkept : ∀ e ∈ s.saveMetadata.entries, ∀ contents, s.Gives e.1 contents → s'.Gives e.1 contents) :
    Option.Rel (fun e contents => s'.Gives e.1 contents)
      (s.saveMetadata.entries.find? fun e => e.2.saveName = name) first := by
  have hfound := h.found
  cases hfind : s.saveMetadata.entries.find? (fun e => e.2.saveName = name) with
  | none =>
    rw [hfind] at hfound
    cases hfound
    exact Option.Rel.none
  | some e =>
    rw [hfind] at hfound
    cases hfound with
    | some hgives => exact .some (hkept e (List.mem_of_find?_eq_some hfind) _ hgives)

theorem Filed.skip (h : Filed n name first s) (hmeta : s'.saveMetadata = s.saveMetadata)
    (hnext : s'.nextSaveId = s.nextSaveId + 1)
    (hkept : ∀ e ∈ s.saveMetadata.entries, ∀ contents, s.Gives e.1 contents → s'.Gives e.1 contents) :
    Filed (n + 1) name first s' := by
  refine ⟨?_, fun e he => ?_, ?_⟩
  · rw [hnext, h.next, UInt32.ofNat_add (n + 1)]
    rfl
  · rw [hmeta] at he
    exact (h.used e he).imp_right fun hle => hle.trans (Nat.le_succ n)
  · rw [hmeta]
    exact h.found_of_kept hkept

theorem Filed.file (h : Filed n name first s) (hn : n + 1 < 2 ^ 32) {metadata : SaveMetadata}
    (hmeta : s'.saveMetadata = s.saveMetadata.insert s.nextSaveId metadata)
    (hnext : s'.nextSaveId = s.nextSaveId + 1)
    (hkept : ∀ e ∈ s.saveMetadata.entries, ∀ contents, s.Gives e.1 contents → s'.Gives e.1 contents)
    {new : Option (Option (List UInt8))} (hother : metadata.saveName ≠ name → new = none)
    (hnew : metadata.saveName = name →
      ∃ contents, new = some contents ∧ s'.Gives s.nextSaveId contents) :
    Filed (n + 1) name (first.or new) s' := by
  have hlast : ∀ e ∈ s.saveMetadata.entries, e.1 < s.nextSaveId := by
    intro e he
    rw [UInt32.lt_iff_toNat_lt, h.toNat_next hn]
    exact Nat.lt_succ_of_le (h.used e he).2
  have hentries : s'.saveMetadata.entries = s.saveMetadata.entries ++ [(s.nextSaveId, metadata)] := by
    rw [hmeta, OrdMap.entries_insert_last hlast]
  refine ⟨?_, fun e he => ?_, ?_⟩
  · rw [hnext, h.next, UInt32.ofNat_add (n + 1)]
    rfl
  · rw [hentries] at he
    rcases List.mem_append.mp he with he | he
    · exact (h.used e he).imp_right fun hle => hle.trans (Nat.le_succ n)
    · rw [List.mem_singleton.mp he, h.toNat_next hn]
      exact ⟨Nat.le_add_left 1 n, le_rfl⟩
  · have hfound := h.found_of_kept hkept
    rw [hentries, List.find?_append]
    cases hfind : s.saveMetadata.entries.find? (fun e => e.2.saveName = name) with
    | some e =>
      rw [hfind] at hfound
      cases hfound with
      | some hgives => exact .some hgives
    | none =>
      rw [hfind] at hfound
      cases hfound
      rw [Option.none_or, Option.none_or]
      by_cases hname : metadata.saveName = name
      · obtain ⟨contents, rfl, hgives⟩ := hnew hname
        rw [List.find?_cons_of_pos (by simpa using hname)]
        exact .some hgives
      · rw [hother hname, List.find?_cons_of_neg (by simpa using hname)]
        exact .none

theorem Filed.kept_of_save (h : Filed n name first s) (hn : n + 1 < 2 ^ 32) {bytes : List UInt8}
    {file : Writing} {filed : Option SaveMetadata}
    (ht : TakesId s s' (s.getSaveFilePath s.nextSaveId) bytes file filed) :
    ∀ e ∈ s.saveMetadata.entries, ∀ contents, s.Gives e.1 contents → s'.Gives e.1 contents :=
  fun _ he _ hgives => hgives.congr ht.saveDirectory (ht.files_save (h.ne_next hn he))

theorem TakesId.holds {saveName : String} {type : SaveDataType} {data : List UInt8} {now : UInt64}
    {filed : Option SaveMetadata}
    (h : TakesId s s' (s.getSaveFilePath s.nextSaveId)
      (fileBytes (s.nextSave saveName type data now)) .done filed)
    (hname : 0 ∉ nameBytes saveName) (hsize : data.length < 2 ^ 32) :
    s'.Holds s.nextSaveId data := by
  have hbytes : s'.files (s'.getSaveFilePath s.nextSaveId)
      = some (fileBytes (s.nextSave saveName type data now)) := by
    rw [getSaveFilePath_congr h.saveDirectory, h.files]
    exact write_done ..
  exact ⟨_, loadDataFromFile_bytes hbytes hname hsize, decide_eq_true rfl, rfl⟩

theorem TakesId.gives {saveName : String} {type : SaveDataType} {data : List UInt8} {now : UInt64}
    {file : Writing} {filed : Option SaveMetadata}
    (h : TakesId s s' (s.getSaveFilePath s.nextSaveId)
      (fileBytes (s.nextSave saveName type data now)) file filed)
    (hname : 0 ∉ nameBytes saveName) (hsize : data.length < 2 ^ 32) {contents : Option (List UInt8)}
    (hleaves : leaves data file = some contents) : s'.Gives s.nextSaveId contents := by
  cases file with
  | refused => cases hleaves
  | cut length => cases hleaves
  | lost length =>
    obtain rfl : contents = none := (Option.some.inj hleaves).symm
    have hpart : s'.files (s'.getSaveFilePath s.nextSaveId)
        = some ((fileBytes (s.nextSave saveName type data now)).dropLast.take length) := by
      rw [getSaveFilePath_congr h.saveDirectory, h.files]
      exact write_lost ..
    exact loadDataFromFile_part hpart (prefix_take_dropLast ..)
      (take_dropLast_ne (fileBytes_ne_nil _) length) hname hsize
  | done =>
    obtain rfl : contents = some data := (Option.some.inj hleaves).symm
    exact h.holds hname hsize

theorem isSome_leaves {α : Type} (a : α) (file : Writing) :
    (leaves a file).isSome = file.reported := by
  cases file <;> rfl

theorem Filed.save (h : Filed n name first s) (hinit : s.initialized) (hn : n + 1 < 2 ^ 32)
    (hplain : Plain name) (saveName description : String) (type : SaveDataType) {data : List UInt8}
    (hsize : data.length < 2 ^ 32) (now : UInt64) (file : Writing) :
    Filed (n + 1) name (first.or (if saveName = name then leaves data file else none))
      (s.save saveName description type data now file).1 := by
  obtain ⟨filed, hnamed, hfiled, htakes⟩ :=
    save_takesId hinit saveName description type data now file
  have hkept := h.kept_of_save hn htakes
  rw [← isSome_leaves data] at hfiled
  cases filed with
  | none =>
    have hnone : leaves data file = none := by
      cases hleaves : leaves data file with
      | none => rfl
      | some contents => exact absurd (hfiled.mpr (hleaves ▸ rfl)) Bool.false_ne_true
    rw [hnone, ite_self, Option.or_none]
    exact h.skip htakes.saveMetadata htakes.nextSaveId hkept
  | some metadata =>
    obtain ⟨contents, hleaves⟩ := Option.isSome_iff_exists.mp (hfiled.mp rfl)
    have hname := hnamed metadata rfl
    refine h.file hn htakes.saveMetadata htakes.nextSaveId hkept (fun hne => ?_) fun heq => ?_
    · exact if_neg fun hsame => hne (hname.trans hsame)
    · obtain rfl : saveName = name := hname.symm.trans heq
      rw [if_pos rfl]
      exact ⟨contents, hleaves, htakes.gives (zero_notMem_nameBytes hplain) hsize hleaves⟩

theorem Filed.createBackup (h : Filed n name first s) (hinit : s.initialized)
    (hname : ∀ (base : String) (m : ℕ), name ≠ base ++ "_backup_" ++ toString m) (id : UInt32) (now : UInt64)
    (file : Writing) (hn : n + s.idsTaken (.createBackup id now file) < 2 ^ 32) :
    Filed (n + s.idsTaken (.createBackup id now file)) name first (s.createBackup id now file).1 := by
  cases hget : s.saveMetadata.find? id with
  | none =>
    rw [idsTaken, if_neg fun hand => hand.2 hget, createBackup_of_not (.inr hget)]
    exact h
  | some metadata =>
    have htaken : s.idsTaken (.createBackup id now file) = 1 :=
      if_pos ⟨hinit, hget ▸ Option.some_ne_none metadata⟩
    rw [htaken] at hn ⊢
    obtain ⟨filed, hnamed, -, htakes⟩ := createBackup_takesId hinit hget now file
    have hkept : ∀ e ∈ s.saveMetadata.entries, ∀ contents, s.Gives e.1 contents →
        (s.createBackup id now file).1.Gives e.1 contents :=
      fun e _ _ hgives => hgives.congr htakes.saveDirectory (htakes.files_backup e.1)
    cases filed with
    | none => exact h.skip htakes.saveMetadata htakes.nextSaveId hkept
    | some backup =>
      rw [← first.or_none]
      refine h.file hn htakes.saveMetadata htakes.nextSaveId hkept (fun _ => rfl) fun heq => ?_
      exact absurd (heq.symm.trans (hnamed backup rfl)) (hname metadata.saveName s.nextSaveId.toNat)

end Steps

theorem initialized_save (s : SharedSaveSystem) (saveName description : String)
    (type : SaveDataType) (data : List UInt8) (now : UInt64) (file : Writing) :
    (s.save saveName description type data now file).1.initialized = s.initialized := by
  by_cases hinit : s.initialized
  · obtain ⟨filed, -, -, htakes⟩ := save_takesId hinit saveName description type data now file
    exact htakes.initialized
  · rw [SharedSaveSystem.save, if_pos hinit]

theorem snd_save (s : SharedSaveSystem) (saveName description : String)
    (type : SaveDataType) (data : List UInt8) (now : UInt64) (file : Writing) :
    (s.save saveName description type data now file).2 = (s.initialized && file.reported) := by
  unfold SharedSaveSystem.save
  cases s.initialized <;> cases file <;> rfl

theorem initialized_step (s : SharedSaveSystem) (op : Op) :
    (s.step op).initialized = s.initialized := by
  cases op with
  | savePlayerData p d now file => exact s.initialized_save ..
  | saveWorldData w d now file => exact s.initialized_save ..
  | createBackup id now file =>
    rw [step]
    by_cases hnot : ¬ s.initialized ∨ s.saveMetadata.find? id = none
    · rw [createBackup_of_not hnot]
    · obtain ⟨hinit, hlisted⟩ := not_or.mp hnot
      obtain ⟨metadata, hlisted⟩ := Option.ne_none_iff_exists'.mp hlisted
      obtain ⟨filed, -, -, htakes⟩ := createBackup_takesId (not_not.mp hinit) hlisted now file
      exact htakes.initialized

section Runs
variable {n : ℕ} {name : String} {first : Option (Option (List UInt8))} {s : SharedSaveSystem}

theorem Filed.step (h : Filed n name first s) (hinit : s.initialized) (hplain : Plain name)
    (hname : ∀ (base : String) (m : ℕ), name ≠ base ++ "_backup_" ++ toString m) (op : Op)
    (hn : n + s.idsTaken op < 2 ^ 32) :
    Filed (n + s.idsTaken op) name (first.or (written name op)) (s.step op) := by
  have hone : (if s.initialized then 1 else 0) = 1 := if_pos hinit
  cases op with
  | savePlayerData p d now file =>
    rw [idsTaken, hone] at hn ⊢
    exact h.save hinit hn hplain (playerSaveName p) _ _ (by simp [serializePlayerData]) now file
  | saveWorldData w d now file =>
    rw [idsTaken, hone] at hn ⊢
    exact h.save hinit hn hplain (worldSaveName w) _ _ (by simp [serializeWorldData]) now file
  | createBackup id now file =>
    have hwritten : written name (.createBackup id now file) = none := rfl
    rw [hwritten, Option.or_none]
    exact h.createBackup hinit hname id now file hn

theorem Filed.run (h : Filed n name first s) (hinit : s.initialized) (hplain : Plain name)
    (hname : ∀ (base : String) (m : ℕ), name ≠ base ++ "_backup_" ++ toString m) {ops : List Op}
    (hn : n + Run.total SharedSaveSystem.step idsTaken s ops < 2 ^ 32) :
    Filed (n + Run.total SharedSaveSystem.step idsTaken s ops) name
      (first.or (ops.filterMap (written name)).head?) (Run.run SharedSaveSystem.step s ops) := by
  induction ops generalizing n first s with
  | nil => rwa [List.filterMap_nil, List.head?_nil, Option.or_none]
  | cons op ops ih =>
    rw [Run.total, ← Nat.add_assoc] at hn ⊢
    have hstep := h.step hinit hplain hname op (by omega)
    have hrest := ih hstep (by rw [initialized_step, hinit]) hn
    have hhead : ((op :: ops).filterMap (written name)).head?
        = (written name op).or (ops.filterMap (written name)).head? := by
      cases hop : written name op with
      | none => rw [List.filterMap_cons_none hop, Option.none_or]
      | some data => rw [List.filterMap_cons_some hop, List.head?_cons, Option.some_or]
    rwa [hhead, ← Option.or_assoc]

end Runs

def saveOf (p : UInt32) : Op → Option PlayerSaveData
  | .savePlayerData p' d _ file => if p' = p ∧ file.reported then some d else none
  | _ => none

def savesOf (p : UInt32) (ops : List Op) : List PlayerSaveData := ops.filterMap (saveOf p)

def filesOf (p : UInt32) (ops : List Op) : List (Option PlayerSaveData) :=
  ops.filterMap fun
    | .savePlayerData p' d _ file => if p' = p then leaves d file else none
    | _ => none

def saved (p : UInt32) (s : SharedSaveSystem) : Op → Option PlayerSaveData
  | .savePlayerData p' d now file =>
    if p' = p ∧ (s.savePlayerData p' d now file).2 then some d else none
  | _ => none

def progress (d : PlayerSaveData) : UInt32 × UInt32 × Vector4F := (d.level, d.experience, d.position)

def LoadsLatest (p : UInt32) (s : SharedSaveSystem) (ops : List Op) : Prop :=
  ∀ d, (Run.gather SharedSaveSystem.step (saved p) s ops).getLast? = some d → ∀ playerData,
    ((Run.run SharedSaveSystem.step s ops).loadPlayerData p playerData).2.map progress
      = some (progress d)

theorem saved_eq (p : UInt32) (s : SharedSaveSystem) (op : Op) :
    saved p s op = if s.initialized then saveOf p op else none := by
  cases op with
  | savePlayerData p' d now file =>
    rw [saved, savePlayerData, snd_save]
    cases s.initialized <;> simp [saveOf]
  | saveWorldData w d now file => exact (ite_self none).symm
  | createBackup id now file => exact (ite_self none).symm

theorem gather_saved {s : SharedSaveSystem} (hinit : s.initialized) (p : UInt32) (ops : List Op) :
    Run.gather SharedSaveSystem.step (saved p) s ops = savesOf p ops := by
  refine Run.gather_eq_filterMap (I := fun s => s.initialized) (fun s op hinit => ⟨?_, ?_⟩) hinit ops
  · rw [initialized_step, hinit]
  · rw [saved_eq, if_pos hinit]

theorem gather_saved_of_not {s : SharedSaveSystem} (hinit : ¬ s.initialized) (p : UInt32)
    (ops : List Op) : Run.gather SharedSaveSystem.step (saved p) s ops = [] := by
  refine (Run.gather_eq_filterMap (g := fun _ => none) (I := fun s => ¬ s.initialized)
    (fun s op hinit => ⟨?_, ?_⟩) hinit ops).trans (List.filterMap_none ops)
  · rwa [initialized_step]
  · rw [saved_eq, if_neg hinit]

theorem filterMap_written_player (p : UInt32) (ops : List Op) :
    ops.filterMap (written (playerSaveName p)) = (filesOf p ops).map (Option.map serializePlayerData) := by
  rw [filesOf, List.map_filterMap]
  refine List.filterMap_congr fun op _ => ?_
  cases op with
  | savePlayerData p' d now file =>
    simp only [written, playerSaveName_inj]
    split_ifs
    · cases file <;> rfl
    · rfl
  | saveWorldData w d now file =>
    have hother : worldSaveName w ≠ playerSaveName p := (playerSaveName_ne_world p w).symm
    rw [written, if_neg hother]
    rfl
  | createBackup id now file => rfl

theorem filesOf_eq_nil_iff (p : UInt32) (ops : List Op) : filesOf p ops = [] ↔ savesOf p ops = [] := by
  rw [filesOf, savesOf, List.filterMap_eq_nil_iff, List.filterMap_eq_nil_iff]
  refine forall₂_congr fun op _ => ?_
  cases op with
  | savePlayerData p' d now file =>
    rw [saveOf]
    cases file <;> simp [leaves, Writing.reported]
  | saveWorldData w d now file => exact iff_of_true rfl rfl
  | createBackup id now file => exact iff_of_true rfl rfl

theorem loadPlayerData_run (saveDirectory : String) (files : Files) (p : UInt32)
    (playerData : PlayerSaveData) {ops : List Op}
    (hops : Run.total SharedSaveSystem.step idsTaken
      { initialized := true, saveDirectory := saveDirectory, files := files } ops < 2 ^ 32) :
    ((Run.run SharedSaveSystem.step
      { initialized := true, saveDirectory := saveDirectory, files := files }
      ops).loadPlayerData p playerData).2 = (filesOf p ops).head?.join.map playerData.restore := by
  have hfiled := (filed_initial true saveDirectory files (playerSaveName p)).run rfl
    (plain_playerSaveName p) (playerSaveName_ne_backup p) (by rwa [Nat.zero_add])
  have hinit := Run.invariant_run (fun s op h => (initialized_step s op).trans h)
    (rfl : SharedSaveSystem.initialized
      { initialized := true, saveDirectory := saveDirectory, files := files } = true) ops
  rw [Option.none_or, filterMap_written_player] at hfiled
  rw [loadPlayerData, hfiled.load hinit]
  cases filesOf p ops with
  | nil => rfl
  | cons d ds =>
    cases d with
    | none => rfl
    | some d => exact deserializePlayerData_serialize playerData d

/-- The last save of the player has what is loaded of the first. -/
def Unmoved (p : UInt32) (ops : List Op) : Prop :=
  (filesOf p ops).head?.join.map progress = (savesOf p ops).getLast?.map progress

/-- As long as the ids last, loading gives the latest save exactly when the player's first save
had the same level, experience and position. -/
theorem loads_latest_iff (initialized : Bool) (saveDirectory : String) (files : Files) (p : UInt32)
    {ops : List Op} (hops : Run.total SharedSaveSystem.step idsTaken
      { initialized := initialized, saveDirectory := saveDirectory, files := files } ops < 2 ^ 32) :
    LoadsLatest p { initialized := initialized, saveDirectory := saveDirectory, files := files } ops
      ↔ (initialized → Unmoved p ops) := by
  cases initialized with
  | false =>
    refine iff_of_true (fun d hd => ?_) fun h => absurd h Bool.false_ne_true
    rw [gather_saved_of_not Bool.false_ne_true] at hd
    cases hd
  | true =>
    rw [LoadsLatest, gather_saved rfl, Unmoved]
    simp only [loadPlayerData_run saveDirectory files p _ hops, forall_const]
    cases hlast : (savesOf p ops).getLast? with
    | none =>
      rw [(filesOf_eq_nil_iff p ops).mpr (List.getLast?_eq_none_iff.mp hlast)]
      exact iff_of_true (fun d h => nomatch h) rfl
    | some d =>
      have hfirst (playerData : PlayerSaveData) :
          ((filesOf p ops).head?.join.map playerData.restore).map progress
            = (filesOf p ops).head?.join.map progress := by
        cases (filesOf p ops).head?.join <;> rfl
      simp only [hfirst]
      constructor
      · exact fun h => h d rfl {}
      · rintro h d' hd' -
        rw [h, Option.some.inj hd']
        rfl

theorem loads_latest_at_rest :
    Unmoved 7 [.savePlayerData 7 { playerId := 7, level := 3 } 10 .done, .createBackup 1 11 .done,
        .saveWorldData 1 {} 12 .done, .savePlayerData 7 { playerId := 7, level := 3 } 13 .done] ∧
      LoadsLatest 7 { initialized := true, saveDirectory := "saves" }
        [.savePlayerData 7 { playerId := 7, level := 3 } 10 .done, .createBackup 1 11 .done,
          .saveWorldData 1 {} 12 .done, .savePlayerData 7 { playerId := 7, level := 3 } 13 .done] := by
  have hrest : Unmoved 7 [.savePlayerData 7 { playerId := 7, level := 3 } 10 .done,
      .createBackup 1 11 .done, .saveWorldData 1 {} 12 .done,
      .savePlayerData 7 { playerId := 7, level := 3 } 13 .done] := by
    unfold Unmoved
    decide
  exact ⟨hrest, (loads_latest_iff true "saves" (fun _ => none) 7 (by decide +kernel)).mpr
    fun _ => hrest⟩

theorem not_loads_latest_second_level :
    ¬ LoadsLatest 7 { initialized := true, saveDirectory := "saves" }
      [.savePlayerData 7 { playerId := 7, level := 3 } 10 .done,
        .savePlayerData 7 { playerId := 7, level := 4 } 11 .done] := by
  intro h
  have hload := h { playerId := 7, level := 4 } (by decide +kernel) {}
  revert hload
  decide +kernel

end WitcherMP.Saves.SharedSaveSystem
