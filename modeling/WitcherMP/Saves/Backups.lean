import WitcherMP.Saves.Latest

/-! Every save in the metadata can be loaded, but for backups: a backup is written to a path of
its own, and looked for under the path of a save. -/

namespace WitcherMP.Saves.SharedSaveSystem

inductive Call
  | op (op : Op)
  | createSave (saveName description : String) (now : UInt64) (file : Writing)
  | deleteSave (saveId : UInt32) (refused : Bool)

def call (s : SharedSaveSystem) : Call → SharedSaveSystem
  | .op op => s.step op
  | .createSave saveName description now file => (s.createSave saveName description now file).1
  | .deleteSave id refused => (s.deleteSave id refused).1

def Loadable (s : SharedSaveSystem) : Prop :=
  ∀ id, s.saveMetadata.find? id ≠ none → (s.loadSave id).2 ∧ (s.validateSaveData id).2

def Readable (s : SharedSaveSystem) (id : UInt32) : Prop := ∃ data, s.Holds id data

theorem loadSave_iff (s : SharedSaveSystem) (id : UInt32) :
    (s.loadSave id).2 ↔ s.initialized ∧ s.saveMetadata.find? id ≠ none ∧ s.Readable id := by
  rw [loadSave]
  by_cases hstart : ¬ s.initialized ∨ s.saveMetadata.find? id = none
  · rw [if_pos hstart]
    refine iff_of_false Bool.false_ne_true fun h => ?_
    exact hstart.elim (fun hinit => hinit h.1) h.2.1
  · rw [if_neg hstart]
    obtain ⟨hinit, hlisted⟩ := not_or.mp hstart
    rw [Readable]
    cases hload : loadDataFromFile s.files (s.getSaveFilePath id) with
    | none =>
      refine iff_of_false Bool.false_ne_true fun ⟨_, _, data, saveData, hsome, _⟩ => ?_
      exact Option.some_ne_none saveData (hsome.symm.trans hload)
    | some saveData =>
      by_cases hcheck : verifyChecksum saveData
      · refine iff_of_true ?_ ⟨not_not.mp hinit, hlisted, saveData.data, saveData, hload, hcheck, rfl⟩
        simp [hcheck]
      · refine iff_of_false ?_ fun ⟨_, _, data, saveData', hsome, hcheck', _⟩ => ?_
        · simp [hcheck]
        · exact hcheck (Option.some.inj (hload.symm.trans hsome) ▸ hcheck')

theorem loadable_iff {s : SharedSaveSystem} : s.Loadable
    ↔ ∀ id, s.saveMetadata.find? id ≠ none → s.initialized ∧ s.Readable id := by
  refine forall_congr' fun id => forall_congr' fun hlisted => ?_
  rw [validateSaveData, and_self, loadSave_iff]
  exact and_congr_right fun _ => and_iff_right hlisted

/-- A file is cut off only under an id that is new, and none is reported that loses its end. -/
def NoneCut (s : SharedSaveSystem) (file : Writing) : Prop :=
  ∀ length, file ≠ .lost length ∧ (file = .cut length → s.saveMetadata.find? s.nextSaveId = none)

/-- Nothing goes into the metadata that the save path of its id does not lead to whole: a backup only
over a save that lies there, and no save of a name with a NUL in it. -/
def Traceable (s : SharedSaveSystem) : Call → Prop
  | .op (.savePlayerData _ _ _ file) => s.NoneCut file
  | .op (.saveWorldData _ _ _ file) => s.NoneCut file
  | .op (.createBackup id _ file) =>
    s.saveMetadata.find? id = none ∨ ¬ file.reported ∨ s.Readable s.nextSaveId
  | .createSave saveName _ _ file => s.NoneCut file ∧ (file = .done → 0 ∉ nameBytes saveName)
  | .deleteSave _ _ => True

section Steps
variable {s s' : SharedSaveSystem}

theorem Readable.congr {id : UInt32} (h : s.Readable id) (hdir : s'.saveDirectory = s.saveDirectory)
    (hfile : s'.files (s.getSaveFilePath id) = s.files (s.getSaveFilePath id)) :
    s'.Readable id := by
  obtain ⟨data, hholds⟩ := h
  exact ⟨data, hholds.congr hdir hfile⟩

theorem Loadable.keep (h : s.Loadable) (hinit : s'.initialized = s.initialized)
    (hdir : s'.saveDirectory = s.saveDirectory) (hmeta : s'.saveMetadata = s.saveMetadata)
    (hfiles : ∀ id, s.saveMetadata.find? id ≠ none →
      s'.files (s.getSaveFilePath id) = s.files (s.getSaveFilePath id)) : s'.Loadable := by
  rw [loadable_iff] at h ⊢
  rw [hinit, hmeta]
  intro id hlisted
  exact (h id hlisted).imp_right fun hread => hread.congr hdir (hfiles id hlisted)

theorem Loadable.insert_iff (h : s.Loadable) (new : UInt32) (hinit : s.initialized)
    (hinit' : s'.initialized = s.initialized) (hdir : s'.saveDirectory = s.saveDirectory)
    (hmeta : ∃ metadata, s'.saveMetadata = s.saveMetadata.insert new metadata)
    (hfiles : ∀ id, id ≠ new → s'.files (s.getSaveFilePath id) = s.files (s.getSaveFilePath id)) :
    s'.Loadable ↔ s'.Readable new := by
  obtain ⟨metadata, hmeta⟩ := hmeta
  rw [loadable_iff] at h ⊢
  rw [hinit', hmeta]
  constructor
  · intro h'
    refine (h' new ?_).2
    rw [OrdMap.find?_insert_self]
    exact Option.some_ne_none metadata
  · intro hnew id hlisted
    refine ⟨hinit, ?_⟩
    by_cases hid : id = new
    · exact hid ▸ hnew
    · rw [OrdMap.find?_insert_of_ne _ _ (Ne.symm hid)] at hlisted
      exact (h id hlisted).2.congr hdir (hfiles id hid)

theorem Loadable.save (h : s.Loadable) {saveName : String} {file : Writing} (hcut : s.NoneCut file)
    (hname : file = .done → 0 ∉ nameBytes saveName) (description : String) (type : SaveDataType)
    {data : List UInt8} (hsize : data.length < 2 ^ 32) (now : UInt64) :
    (s.save saveName description type data now file).1.Loadable := by
  by_cases hinit : s.initialized
  · obtain ⟨filed, -, hfiled, htakes⟩ := save_takesId hinit saveName description type data now file
    cases filed with
    | none =>
      refine h.keep htakes.initialized htakes.saveDirectory htakes.saveMetadata fun id hlisted => ?_
      cases file with
      | refused => exact congrFun htakes.files _
      | cut length =>
        have hid : id ≠ s.nextSaveId := fun hid => hlisted (hid ▸ (hcut length).2 rfl)
        exact htakes.files_save hid
      | lost length => exact absurd rfl (hcut length).1
      | done => exact absurd (hfiled.mpr rfl) Bool.false_ne_true
    | some metadata =>
      obtain rfl : file = .done := by
        cases file with
        | refused => exact absurd (hfiled.mp rfl) Bool.false_ne_true
        | cut length => exact absurd (hfiled.mp rfl) Bool.false_ne_true
        | lost length => exact absurd rfl (hcut length).1
        | done => rfl
      refine (h.insert_iff s.nextSaveId hinit htakes.initialized htakes.saveDirectory
        ⟨metadata, htakes.saveMetadata⟩ fun id hid => htakes.files_save hid).mpr ?_
      exact ⟨data, htakes.holds (hname rfl) hsize⟩
  · rwa [SharedSaveSystem.save, if_pos hinit]

theorem Loadable.createBackup_iff (h : s.Loadable) (id : UInt32) (now : UInt64) (file : Writing) :
    (s.createBackup id now file).1.Loadable
      ↔ s.saveMetadata.find? id = none ∨ ¬ file.reported ∨ s.Readable s.nextSaveId := by
  cases hlisted : s.saveMetadata.find? id with
  | none =>
    rw [createBackup_of_not (.inr hlisted)]
    exact iff_of_true h (.inl rfl)
  | some metadata =>
    obtain ⟨hinit, data, saveData, hload, -⟩ :=
      loadable_iff.mp h id (hlisted ▸ Option.some_ne_none metadata)
    obtain ⟨filed, -, hfiled, htakes⟩ := createBackup_takesId hinit hlisted now file
    rw [or_iff_right (Option.some_ne_none metadata)]
    cases filed with
    | none =>
      refine iff_of_true ?_ (.inl fun hdone => ?_)
      · exact h.keep htakes.initialized htakes.saveDirectory htakes.saveMetadata
          fun id' _ => htakes.files_backup id'
      · exact Bool.false_ne_true (hfiled.mpr ⟨ne_nil_of_load hload, hdone⟩)
    | some backup =>
      refine (h.insert_iff s.nextSaveId hinit htakes.initialized htakes.saveDirectory
        ⟨backup, htakes.saveMetadata⟩ fun id' _ => htakes.files_backup id').trans ?_
      rw [or_iff_right (not_not.mpr (hfiled.mp rfl).2)]
      have hsame := htakes.files_backup s.nextSaveId
      refine ⟨fun hread => ?_, fun hread => hread.congr htakes.saveDirectory hsame⟩
      refine hread.congr htakes.saveDirectory.symm ?_
      rw [getSaveFilePath_congr htakes.saveDirectory, hsame]

theorem Loadable.deleteSave (h : s.Loadable) (id : UInt32) (refused : Bool) :
    (s.deleteSave id refused).1.Loadable := by
  rw [SharedSaveSystem.deleteSave]
  dsimp only
  have hothers (id' : UInt32) (hid : id' ≠ id) :
      (deleteFile s.files (s.getSaveFilePath id) refused).1 (s.getSaveFilePath id')
        = s.files (s.getSaveFilePath id') :=
    deleteFile_of_ne (fun hpath => hid (getSaveFilePath_inj.mp hpath)) refused
  split_ifs with hstart hdeleted
  · exact h
  · rw [loadable_iff] at h ⊢
    intro id' hlisted
    dsimp only at hlisted
    rw [OrdMap.find?_erase] at hlisted
    have hid : id ≠ id' := fun hid => hlisted (if_pos hid)
    rw [if_neg hid] at hlisted
    exact (h id' hlisted).imp_right fun hread => hread.congr rfl (hothers id' hid.symm)
  · exact h.keep rfl rfl rfl fun id' _ => deleteFile_of_not hdeleted _

theorem Loadable.call (h : s.Loadable) {c : Call} (hc : s.Traceable c) : (s.call c).Loadable := by
  cases c with
  | op op =>
    cases op with
    | savePlayerData p d now file =>
      have hname := zero_notMem_nameBytes (plain_playerSaveName p)
      exact h.save hc (fun _ => hname) _ _ (by simp [serializePlayerData]) now
    | saveWorldData w d now file =>
      have hname := zero_notMem_nameBytes (plain_worldSaveName w)
      exact h.save hc (fun _ => hname) _ _ (by simp [serializeWorldData]) now
    | createBackup id now file => exact (h.createBackup_iff id now file).mpr hc
  | createSave saveName description now file =>
    exact h.save hc.1 hc.2 description _ (by simp) now
  | deleteSave id refused => exact h.deleteSave id refused

end Steps

/-- Whatever lies in the directory at the start, every save in the metadata can be loaded after
each call, as long as no backup gets into them. -/
theorem loadable_along (initialized : Bool) (saveDirectory : String) (files : Files)
    {calls : List Call} (h : Run.Along SharedSaveSystem.call Traceable
      { initialized := initialized, saveDirectory := saveDirectory, files := files } calls) :
    Run.Along SharedSaveSystem.call (fun s c => (s.call c).Loadable)
      { initialized := initialized, saveDirectory := saveDirectory, files := files } calls := by
  have hstart : Loadable
      { initialized := initialized, saveDirectory := saveDirectory, files := files } :=
    fun id hlisted => absurd rfl hlisted
  exact (Run.along_of_step (fun s c hs hc => ⟨hs.call hc, hs.call hc⟩) hstart h).2

theorem loadable_along_deleted :
    Run.Along SharedSaveSystem.call (fun s c => (s.call c).Loadable)
      { initialized := true, saveDirectory := "saves", files := fun _ => none }
      [.op (.savePlayerData 7 { playerId := 7, level := 3 } 10 .done),
        .op (.saveWorldData 1 {} 11 .done), .createSave "Kaer Morhen" "camp" 12 (.cut 9),
        .op (.createBackup 1 13 .refused), .deleteSave 1 false] := by
  have hdone (s : SharedSaveSystem) : s.NoneCut .done := fun length => ⟨nofun, nofun⟩
  refine loadable_along true "saves" (fun _ => none) ⟨hdone _, hdone _, ⟨?_, nofun⟩, .inr (.inl ?_), trivial,
    trivial⟩
  · intro length
    refine ⟨nofun, fun _ => ?_⟩
    decide +kernel
  · decide

theorem not_loadable_backup :
    ¬ Loadable (Run.run SharedSaveSystem.call { initialized := true, saveDirectory := "saves" }
      [.op (.savePlayerData 7 { playerId := 7, level := 3 } 10 .done),
        .op (.createBackup 1 11 .done)]) ∧
      ¬ Loadable (Run.run SharedSaveSystem.call { initialized := true, saveDirectory := "saves" }
        [.op (.savePlayerData 7 { playerId := 7, level := 3 } 10 (.lost 20))]) := by
  constructor
  · intro h
    have hload := (h 2 (by decide +kernel)).1
    revert hload
    decide +kernel
  · intro h
    have hload := (h 1 (by decide +kernel)).1
    revert hload
    decide +kernel

end WitcherMP.Saves.SharedSaveSystem
