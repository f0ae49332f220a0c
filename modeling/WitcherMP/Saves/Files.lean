import WitcherMP.Saves.Defs
import WitcherMP.Lib.Numerals
import Mathlib.Algebra.Ring.Nat

/-! Files and records read back as they were written, and no two saves share a file. -/

namespace WitcherMP.Saves

def Plain (name : String) : Prop := ∀ c ∈ name.toList, 0 < c.toNat ∧ c.toNat < 256

theorem plain_of_all {name : String}
    (h : name.toList.all fun c => 0 < c.toNat ∧ c.toNat < 256) : Plain name :=
  fun c hc => of_decide_eq_true (List.all_eq_true.mp h c hc)

theorem Plain.append {a b : String} (ha : Plain a) (hb : Plain b) : Plain (a ++ b) := by
  intro c hc
  rw [String.toList_append, List.mem_append] at hc
  exact hc.elim (ha c) (hb c)

theorem plain_toString (n : ℕ) : Plain (toString n) := by
  intro c hc
  have hdigit := Numerals.isDigit_of_mem hc
  rw [Char.isDigit, Bool.and_eq_true, decide_eq_true_iff, decide_eq_true_iff,
    ge_iff_le, UInt32.le_iff_toNat_le, UInt32.le_iff_toNat_le] at hdigit
  exact ⟨lt_of_lt_of_le (by decide) hdigit.1, lt_of_le_of_lt hdigit.2 (by decide)⟩

theorem zero_notMem_nameBytes {name : String} (h : Plain name) : 0 ∉ nameBytes name := by
  intro hmem
  obtain ⟨c, hc, hzero⟩ := List.mem_map.mp hmem
  obtain ⟨hpos, hlt⟩ := h c hc
  rw [← UInt8.toNat_inj, UInt8.toNat_ofNat', Nat.mod_eq_of_lt hlt] at hzero
  exact hpos.ne' hzero

theorem nameOf_nameBytes {name : String} (h : Plain name) : nameOf (nameBytes name) = name := by
  have hchars : (nameBytes name).map (fun b => Char.ofNat b.toNat) = name.toList := by
    rw [nameBytes, List.map_map]
    refine (List.map_congr_left fun c hc => ?_).trans (List.map_id _)
    rw [Function.comp_apply, UInt8.toNat_ofNat', Nat.mod_eq_of_lt (h c hc).2, Char.ofNat_toNat, id]
  rw [nameOf, hchars, String.ofList_toList]

theorem takes_readSaveData_bytes {saveData : SaveData} (hname : 0 ∉ nameBytes saveData.saveName)
    (hsize : saveData.data.length < 2 ^ 32) :
    Reader.Takes readSaveData (fileBytes saveData)
      { saveData with saveName := nameOf (nameBytes saveData.saveName) } := by
  have hlength : (UInt32.ofNat saveData.data.length).toNat = saveData.data.length := by
    rw [UInt32.toNat_ofNat', Nat.mod_eq_of_lt hsize]
  have hdataSize := Reader.takes_u32 (.ofNat saveData.data.length)
  have hdata := Reader.takes_bytes saveData.data hlength.symm
  rw [hlength] at hdataSize
  refine (Reader.takes_u32 saveData.saveId).bind ?_
  refine (Reader.takes_untilNul hname).bind ?_
  refine (Reader.takes_u32 saveData.type.value).bind ?_
  refine (Reader.takes_u64 saveData.timestamp).bind ?_
  refine (Reader.takes_u32 saveData.version).bind ?_
  refine (Reader.takes_bool saveData.isCompressed).bind ?_
  refine (Reader.takes_bool saveData.isEncrypted).bind ?_
  refine (Reader.takes_u32 saveData.checksum).bind ?_
  refine hdataSize.bind ?_
  exact hdata.bind_pure

def PlayerSaveData.restore (playerData d : PlayerSaveData) : PlayerSaveData :=
  { playerData with
    playerId := d.playerId, position := d.position, level := d.level, experience := d.experience }

theorem takes_readPlayerData (playerData d : PlayerSaveData) :
    Reader.Takes (readPlayerData playerData) (serializePlayerData d) (playerData.restore d) := by
  refine (Reader.takes_u32 d.playerId).bind ?_
  refine (Reader.takes_u32 d.position.x).bind ?_
  refine (Reader.takes_u32 d.position.y).bind ?_
  refine (Reader.takes_u32 d.position.z).bind ?_
  refine (Reader.takes_u32 d.position.w).bind ?_
  refine (Reader.takes_u32 d.level).bind ?_
  exact (Reader.takes_u32 d.experience).bind_pure

theorem deserializePlayerData_serialize (playerData d : PlayerSaveData) :
    deserializePlayerData (serializePlayerData d) playerData = some (playerData.restore d) := by
  have hlength : ¬ (serializePlayerData d).length < 4 * 3 + 16 := by
    simp [serializePlayerData]
  rw [deserializePlayerData, if_neg hlength, (takes_readPlayerData playerData d).whole,
    Option.map_some]

theorem loadDataFromFile_bytes {files : Files} {filePath : String} {saveData : SaveData}
    (hfile : files filePath = some (fileBytes saveData)) (hname : 0 ∉ nameBytes saveData.saveName)
    (hsize : saveData.data.length < 2 ^ 32) :
    loadDataFromFile files filePath
      = some { saveData with saveName := nameOf (nameBytes saveData.saveName) } := by
  have hread := (takes_readSaveData_bytes hname hsize).whole
  rw [loadDataFromFile, hfile]
  change (readSaveData (fileBytes saveData)).bind (fun p => some p.1) = _
  rw [hread, Option.bind_some]

theorem stable_readSaveData : Reader.Stable readSaveData := by
  refine Reader.stable_u32.bind fun _ => Reader.stable_untilNul.bind fun _ => ?_
  refine Reader.stable_u32.bind fun _ => Reader.stable_u64.bind fun _ => ?_
  refine Reader.stable_u32.bind fun _ => Reader.stable_bool.bind fun _ => ?_
  refine Reader.stable_bool.bind fun _ => Reader.stable_u32.bind fun _ => ?_
  refine Reader.stable_u32.bind fun dataSize => (Reader.stable_bytes dataSize.toNat).bind fun _ => ?_
  exact Reader.stable_pure _

theorem loadDataFromFile_part {files : Files} {filePath : String} {saveData : SaveData}
    {front : List UInt8} (hfile : files filePath = some front) (hfront : front <+: fileBytes saveData)
    (hne : front ≠ fileBytes saveData) (hname : 0 ∉ nameBytes saveData.saveName)
    (hsize : saveData.data.length < 2 ^ 32) : loadDataFromFile files filePath = none := by
  have hread := (takes_readSaveData_bytes hname hsize).none_of_cut stable_readSaveData hfront hne
  rw [loadDataFromFile, hfile]
  show (readSaveData front).bind (fun p => some p.1) = none
  rw [hread, Option.bind_none]

theorem loadDataFromFile_fileBytes {files : Files} {filePath : String} {saveData : SaveData}
    (hfile : files filePath = some (fileBytes saveData)) (hname : Plain saveData.saveName)
    (hsize : saveData.data.length < 2 ^ 32) : loadDataFromFile files filePath = some saveData := by
  rw [loadDataFromFile_bytes hfile (zero_notMem_nameBytes hname) hsize, nameOf_nameBytes hname]

theorem ne_nil_of_load {files : Files} {filePath : String} {saveData : SaveData}
    (hload : loadDataFromFile files filePath = some saveData) : (files filePath).getD [] ≠ [] := by
  intro hempty
  cases hfile : files filePath with
  | none =>
    rw [loadDataFromFile, hfile] at hload
    cases hload
  | some bytes =>
    rw [hfile] at hempty
    obtain rfl : bytes = [] := hempty
    rw [loadDataFromFile, hfile] at hload
    cases hload

theorem write_of_ne {files : Files} {filePath filePath' : String} (h : filePath' ≠ filePath)
    (bytes : List UInt8) (file : Writing) :
    write files filePath bytes file filePath' = files filePath' := by
  cases file with
  | refused => rfl
  | cut length => exact Function.update_of_ne h ..
  | lost length => exact Function.update_of_ne h ..
  | done => exact Function.update_of_ne h ..

theorem deleteFile_of_ne {files : Files} {filePath filePath' : String} (h : filePath' ≠ filePath)
    (refused : Bool) : (deleteFile files filePath refused).1 filePath' = files filePath' := by
  rw [deleteFile]
  split_ifs
  · rfl
  · exact Function.update_of_ne h ..

theorem deleteFile_of_not {files : Files} {filePath : String} {refused : Bool}
    (h : ¬ (deleteFile files filePath refused).2) (filePath' : String) :
    (deleteFile files filePath refused).1 filePath' = files filePath' := by
  rw [deleteFile] at h ⊢
  split_ifs at h ⊢
  · rfl
  · exact absurd rfl h

theorem write_lost (files : Files) (filePath : String) (bytes : List UInt8) (length : ℕ) :
    write files filePath bytes (.lost length) filePath = some (bytes.dropLast.take length) :=
  Function.update_self ..

theorem prefix_take_dropLast (bytes : List UInt8) (length : ℕ) :
    bytes.dropLast.take length <+: bytes :=
  (List.take_prefix ..).trans (List.dropLast_prefix bytes)

theorem take_dropLast_ne {bytes : List UInt8} (h : bytes ≠ []) (length : ℕ) :
    bytes.dropLast.take length ≠ bytes := by
  intro heq
  have hlength := congrArg List.length heq
  rw [List.length_take, List.length_dropLast] at hlength
  have hpos := List.length_pos_of_ne_nil h
  omega

theorem fileBytes_ne_nil (saveData : SaveData) : fileBytes saveData ≠ [] :=
  List.append_ne_nil_of_left_ne_nil (by rw [Bytes.le32]; exact List.cons_ne_nil _ _) _

theorem write_done (files : Files) (filePath : String) (bytes : List UInt8) :
    write files filePath bytes .done filePath = some bytes := Function.update_self ..

namespace SharedSaveSystem

theorem getSaveFilePath_inj {s : SharedSaveSystem} {id id' : UInt32} :
    s.getSaveFilePath id = s.getSaveFilePath id' ↔ id = id' := by
  rw [getSaveFilePath, getSaveFilePath, Numerals.numbered_inj, UInt32.toNat_inj]

theorem getSaveFilePath_congr {s s' : SharedSaveSystem} (hdir : s'.saveDirectory = s.saveDirectory)
    (id : UInt32) : s'.getSaveFilePath id = s.getSaveFilePath id := by
  rw [getSaveFilePath, hdir, getSaveFilePath]

theorem getSaveFilePath_ne_backup (s : SharedSaveSystem) (id saveId backupId : UInt32) :
    s.getSaveFilePath id ≠ s.getBackupFilePath saveId backupId := by
  intro h
  simp only [getSaveFilePath, getBackupFilePath, String.append_assoc, Numerals.append_left_inj] at h
  have hletter := congrArg (fun path => path.toList.drop 1 |>.head?) h
  simp [String.toList_append] at hletter

theorem plain_playerSaveName (p : UInt32) : Plain (playerSaveName p) :=
  Plain.append (plain_of_all (by decide)) (plain_toString _)

theorem plain_worldSaveName (w : UInt32) : Plain (worldSaveName w) :=
  Plain.append (plain_of_all (by decide)) (plain_toString _)

theorem playerSaveName_inj {p p' : UInt32} : playerSaveName p = playerSaveName p' ↔ p = p' := by
  rw [playerSaveName, playerSaveName, Numerals.append_left_inj, Numerals.toString_inj,
    UInt32.toNat_inj]

theorem playerSaveName_ne_world (p w : UInt32) : playerSaveName p ≠ worldSaveName w := by
  intro h
  have hletter := congrArg (fun name => name.toList.head?) h
  simp [playerSaveName, worldSaveName, String.toList_append] at hletter

theorem count_playerSaveName (p : UInt32) : (playerSaveName p).toList.count '_' = 1 := by
  rw [playerSaveName, Numerals.count_underscore_append, Numerals.count_underscore_toString]
  decide

theorem playerSaveName_ne_backup (p : UInt32) (name : String) (n : ℕ) :
    playerSaveName p ≠ name ++ "_backup_" ++ toString n := by
  intro h
  have hcount := count_playerSaveName p
  have htwo : "_backup_".toList.count '_' = 2 := by decide
  rw [h, Numerals.count_underscore_append, Numerals.count_underscore_append, htwo] at hcount
  omega

end SharedSaveSystem
end WitcherMP.Saves
