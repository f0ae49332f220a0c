import WitcherMP.Saves.Backups

/-! A restart begins again with no metadata and the first id: what was saved before is not
found, and the next saves go over its files. -/

namespace WitcherMP.Saves.SharedSaveSystem

inductive Event
  | call (c : Call)
  | restart (created : Bool)

def event (s : SharedSaveSystem) : Event → SharedSaveSystem
  | .call c => s.call c
  | .restart created => s.restart created

/-- No file of a save is written over, whatever the event, and none goes unless it is deleted. -/
def FilesKept (s : SharedSaveSystem) : Event → Prop
  | .call (.deleteSave _ _) => True
  | e => ∀ id bytes, s.files (s.getSaveFilePath id) = some bytes →
      (s.event e).files (s.getSaveFilePath id) = some bytes

def SavesFound (s : SharedSaveSystem) : Event → Prop
  | .call _ => True
  | .restart created => ∀ id metadata, s.saveMetadata.find? id = some metadata →
      (s.restart created).saveMetadata.find? id = some metadata

structure NothingSaved (s : SharedSaveSystem) : Prop where
  files : ∀ id, s.files (s.getSaveFilePath id) = none
  saveMetadata : s.saveMetadata = .empty

/-- The program starts again only while nothing is saved. -/
def StartsEmpty (s : SharedSaveSystem) : Event → Prop
  | .call _ => True
  | .restart _ => s.NothingSaved

def idsUsed (s : SharedSaveSystem) : Event → ℕ
  | .call (.op op) => s.idsTaken op
  | .call (.createSave ..) => if s.initialized then 1 else 0
  | _ => 0

structure Numbered (n : ℕ) (s : SharedSaveSystem) : Prop where
  next : s.nextSaveId = .ofNat (n + 1)
  used : ∀ id, s.files (s.getSaveFilePath id) ≠ none → ∃ m, 1 ≤ m ∧ m ≤ n ∧ id = .ofNat m

section Steps
variable {n : ℕ} {s s' : SharedSaveSystem}

theorem Numbered.unused (h : Numbered n s) (hn : n + 1 ≤ 2 ^ 32) :
    s.files (s.getSaveFilePath s.nextSaveId) = none := by
  by_contra hfile
  obtain ⟨m, hpos, hle, hid⟩ := h.used s.nextSaveId hfile
  rw [h.next, ← UInt32.toNat_inj, UInt32.toNat_ofNat', UInt32.toNat_ofNat'] at hid
  omega

theorem Numbered.mono (h : Numbered n s) (hdir : s'.saveDirectory = s.saveDirectory)
    (hnext : s'.nextSaveId = s.nextSaveId)
    (hfiles : ∀ id, s'.files (s.getSaveFilePath id) ≠ none → s.files (s.getSaveFilePath id) ≠ none) :
    Numbered n s' := by
  refine ⟨hnext.trans h.next, fun id hfile => ?_⟩
  rw [getSaveFilePath_congr hdir] at hfile
  exact h.used id (hfiles id hfile)

theorem Numbered.give (h : Numbered n s) (hdir : s'.saveDirectory = s.saveDirectory)
    (hnext : s'.nextSaveId = s.nextSaveId + 1)
    (hfiles : ∀ id, id ≠ s.nextSaveId →
      s'.files (s.getSaveFilePath id) = s.files (s.getSaveFilePath id)) : Numbered (n + 1) s' := by
  refine ⟨?_, fun id hfile => ?_⟩
  · rw [hnext, h.next, UInt32.ofNat_add (n + 1)]
    rfl
  · rw [getSaveFilePath_congr hdir] at hfile
    by_cases hid : id = s.nextSaveId
    · exact ⟨n + 1, Nat.le_add_left 1 n, le_rfl, hid.trans h.next⟩
    · rw [hfiles id hid] at hfile
      obtain ⟨m, hpos, hle, hm⟩ := h.used id hfile
      exact ⟨m, hpos, hle.trans (Nat.le_succ n), hm⟩

theorem Numbered.save (h : Numbered n s) (hn : n + (if s.initialized then 1 else 0) ≤ 2 ^ 32)
    (saveName description : String) (type : SaveDataType) (data : List UInt8) (now : UInt64)
    (file : Writing) :
    Numbered (n + if s.initialized then 1 else 0)
        (s.save saveName description type data now file).1 ∧
      ∀ id bytes, s.files (s.getSaveFilePath id) = some bytes →
        (s.save saveName description type data now file).1.files (s.getSaveFilePath id)
          = some bytes := by
  by_cases hinit : s.initialized
  · rw [if_pos hinit] at hn ⊢
    obtain ⟨filed, -, -, htakes⟩ := save_takesId hinit saveName description type data now file
    refine ⟨h.give htakes.saveDirectory htakes.nextSaveId fun id hid => htakes.files_save hid,
      fun id bytes hfile => ?_⟩
    have hid : id ≠ s.nextSaveId := by
      rintro rfl
      exact Option.some_ne_none bytes (hfile.symm.trans (h.unused hn))
    rw [htakes.files_save hid, hfile]
  · rw [if_neg hinit, SharedSaveSystem.save, if_pos hinit]
    exact ⟨h, fun id bytes hfile => hfile⟩

theorem Numbered.createBackup (h : Numbered n s) (id : UInt32) (now : UInt64) (file : Writing) :
    Numbered (n + s.idsTaken (.createBackup id now file)) (s.createBackup id now file).1 ∧
      ∀ id', (s.createBackup id now file).1.files (s.getSaveFilePath id')
        = s.files (s.getSaveFilePath id') := by
  by_cases hnot : ¬ s.initialized ∨ s.saveMetadata.find? id = none
  · rw [createBackup_of_not hnot, idsTaken,
      if_neg fun hand => hnot.elim (fun hinit => hinit hand.1) hand.2]
    exact ⟨h, fun id' => rfl⟩
  · obtain ⟨hinit, hlisted⟩ := not_or.mp hnot
    rw [idsTaken, if_pos ⟨not_not.mp hinit, hlisted⟩]
    obtain ⟨metadata, hlisted⟩ := Option.ne_none_iff_exists'.mp hlisted
    obtain ⟨filed, -, -, htakes⟩ := createBackup_takesId (not_not.mp hinit) hlisted now file
    exact ⟨h.give htakes.saveDirectory htakes.nextSaveId fun id' _ => htakes.files_backup id',
      htakes.files_backup⟩

theorem Numbered.deleteSave (h : Numbered n s) (id : UInt32) (refused : Bool) :
    Numbered n (s.deleteSave id refused).1 := by
  have hothers (id' : UInt32)
      (hfile : (deleteFile s.files (s.getSaveFilePath id) refused).1 (s.getSaveFilePath id') ≠ none) :
      s.files (s.getSaveFilePath id') ≠ none := by
    by_cases hid : s.getSaveFilePath id' = s.getSaveFilePath id
    · rw [deleteFile] at hfile
      split_ifs at hfile
      · exact hfile
      · rw [hid] at hfile
        exact absurd (Function.update_self ..) hfile
    · rwa [deleteFile_of_ne hid] at hfile
  rw [SharedSaveSystem.deleteSave]
  dsimp only
  split_ifs
  · exact h
  · exact h.mono rfl rfl hothers
  · exact h.mono rfl rfl hothers

theorem NothingSaved.restart (h : s.NothingSaved) (created : Bool) :
    Numbered 0 (s.restart created) := by
  have hdir : (s.restart created).saveDirectory = s.saveDirectory := by cases created <;> rfl
  have hfiles : (s.restart created).files = s.files := by cases created <;> rfl
  refine ⟨?_, fun id hfile => ?_⟩
  · cases created <;> rfl
  · rw [getSaveFilePath_congr hdir, hfiles] at hfile
    exact absurd (h.files id) hfile

theorem savesFound_restart_iff (s : SharedSaveSystem) (created : Bool) :
    s.SavesFound (.restart created) ↔ s.saveMetadata = .empty := by
  have hmeta : (s.restart created).saveMetadata = .empty := by cases created <;> rfl
  constructor
  · intro h
    refine OrdMap.ext_find? fun id => ?_
    cases hfind : s.saveMetadata.find? id with
    | none => rfl
    | some metadata => exact ((h id metadata hfind).symm.trans (hmeta ▸ rfl))
  · intro h id metadata hfind
    rw [h] at hfind
    cases hfind

theorem Numbered.event (h : Numbered n s) {e : Event} (he : s.StartsEmpty e)
    (hn : n + s.idsUsed e ≤ 2 ^ 32) :
    (∃ m ≤ n + s.idsUsed e, Numbered m (s.event e)) ∧ s.FilesKept e ∧ s.SavesFound e := by
  cases e with
  | restart created =>
    refine ⟨⟨0, Nat.zero_le _, he.restart created⟩, fun id bytes hfile => ?_, ?_⟩
    · exact absurd (hfile.symm.trans (he.files id)) (Option.some_ne_none bytes)
    · exact (s.savesFound_restart_iff created).mpr he.saveMetadata
  | call c =>
    cases c with
    | op op =>
      cases op with
      | savePlayerData p d now file =>
        obtain ⟨hnext, hkept⟩ := h.save hn (playerSaveName p) _ _ (serializePlayerData d) now file
        exact ⟨⟨_, le_rfl, hnext⟩, hkept, trivial⟩
      | saveWorldData w d now file =>
        obtain ⟨hnext, hkept⟩ := h.save hn (worldSaveName w) _ _ (serializeWorldData d) now file
        exact ⟨⟨_, le_rfl, hnext⟩, hkept, trivial⟩
      | createBackup id now file =>
        obtain ⟨hnext, hsame⟩ := h.createBackup id now file
        exact ⟨⟨_, le_rfl, hnext⟩, fun id' bytes hfile => (hsame id').trans hfile, trivial⟩
    | createSave saveName description now file =>
      obtain ⟨hnext, hkept⟩ := h.save hn saveName description .world [] now file
      exact ⟨⟨_, le_rfl, hnext⟩, hkept, trivial⟩
    | deleteSave id refused => exact ⟨⟨n, le_rfl, h.deleteSave id refused⟩, trivial, trivial⟩

end Steps

/-- In a history that begins in a directory without saves, and in which the program starts again
only while nothing is saved, no save is written over and none is lost. -/
theorem saves_kept_along (initialized : Bool) (saveDirectory : String) (files : Files)
    (hfiles : ∀ id, files (getSaveFilePath { saveDirectory := saveDirectory } id) = none)
    {events : List Event}
    (hids : Run.total event idsUsed
      { initialized := initialized, saveDirectory := saveDirectory, files := files } events ≤ 2 ^ 32)
    (hstarts : Run.Along event StartsEmpty
      { initialized := initialized, saveDirectory := saveDirectory, files := files } events) :
    Run.Along event (fun s e => s.FilesKept e ∧ s.SavesFound e)
      { initialized := initialized, saveDirectory := saveDirectory, files := files } events := by
  have hnone : Numbered 0
      { initialized := initialized, saveDirectory := saveDirectory, files := files } :=
    ⟨rfl, fun id hfile => absurd (hfiles id) hfile⟩
  refine Run.along_of_counted (K := fun n s => ∃ m ≤ n, Numbered m s) (fun n s e hk he hn => ?_)
    ⟨0, le_rfl, hnone⟩ ((Nat.zero_add _).trans_le hids) hstarts
  obtain ⟨m, hle, hm⟩ := hk
  obtain ⟨⟨m', hle', hm'⟩, hboth⟩ := hm.event he (by omega)
  exact ⟨⟨m', hle'.trans (Nat.add_le_add_right hle _), hm'⟩, hboth⟩

theorem saves_kept_along_started :
    Run.Along event (fun s e => s.FilesKept e ∧ s.SavesFound e)
      { initialized := true, saveDirectory := "saves", files := fun _ => none }
      [.restart true, .call (.op (.savePlayerData 7 { playerId := 7, level := 3 } 10 .refused)),
        .restart true, .call (.op (.savePlayerData 7 { playerId := 7, level := 3 } 20 .done)),
        .call (.op (.saveWorldData 1 {} 21 .done)),
        .call (.op (.savePlayerData 7 { playerId := 7, level := 4 } 30 .done))] := by
  exact saves_kept_along true "saves" (fun _ => none) (fun _ => rfl) (by decide +kernel)
    ⟨⟨fun _ => rfl, rfl⟩, trivial, ⟨fun _ => rfl, rfl⟩, trivial, trivial, trivial, trivial⟩

theorem not_saves_kept_restart :
    ¬ Run.Along event FilesKept { initialized := true, saveDirectory := "saves" }
        [.call (.op (.savePlayerData 7 { playerId := 7, level := 3 } 10 .done)), .restart true,
          .call (.op (.savePlayerData 8 { playerId := 8, level := 1 } 20 .done))] ∧
      ¬ Run.Along event SavesFound { initialized := true, saveDirectory := "saves" }
        [.call (.op (.savePlayerData 7 { playerId := 7, level := 3 } 10 .done)), .restart true,
          .call (.op (.savePlayerData 8 { playerId := 8, level := 1 } 20 .done))] := by
  constructor
  · rintro ⟨-, -, hkept, -⟩
    have hfile := hkept 1 (fileBytes {
      saveId := 1, saveName := "Player_7", type := .player, timestamp := 10
      data := serializePlayerData { playerId := 7, level := 3 }
      checksum := calculateChecksum (serializePlayerData { playerId := 7, level := 3 }) })
      (by decide +kernel)
    revert hfile
    decide +kernel
  · rintro ⟨-, hfound, -⟩
    have hlost := hfound 1 {
      saveId := 1, saveName := "Player_7", description := "Player save data", createdTime := 10
      lastModified := 10, fileSize := 28, checksum := "939524480" } (by decide +kernel)
    revert hlost
    decide +kernel

end WitcherMP.Saves.SharedSaveSystem
