import WitcherMP.Lib.Shifts
import WitcherMP.Saves.Files

/-! What is in a save: a file that is cut off gives nothing back, a record gives back what is
written of it, and the checksum notices a change of the data as far as it still sees it. -/

namespace WitcherMP.Saves

/-- A file that was written whole loads as the save, and no part of it loads. -/
theorem loadDataFromFile_whole (files : Files) (filePath : String) {saveData : SaveData}
    (hname : Plain saveData.saveName) (hsize : saveData.data.length < 2 ^ 32) :
    let saved := saveDataToFile files saveData filePath .done
    saved.2 = true ∧ loadDataFromFile saved.1 filePath = some saveData ∧
      ∀ bytes front, saved.1 filePath = some bytes → front <+: bytes → front ≠ bytes →
        ∀ files', files' filePath = some front → loadDataFromFile files' filePath = none := by
  have hwritten : (saveDataToFile files saveData filePath .done).1 filePath =
      some (fileBytes saveData) := write_done files filePath _
  refine ⟨rfl, loadDataFromFile_fileBytes hwritten hname hsize, ?_⟩
  intro bytes front hbytes hfront hne files' hfile
  rw [hwritten, Option.some.injEq] at hbytes
  rw [← hbytes] at hfront hne
  have hread := (takes_readSaveData_bytes (zero_notMem_nameBytes hname) hsize).none_of_cut
    stable_readSaveData hfront hne
  rw [loadDataFromFile, hfile]
  show (readSaveData front).bind (fun p => some p.1) = none
  rw [hread, Option.bind_none]

theorem loadDataFromFile_whole_named :
    let saveData : SaveData := { saveId := 3, saveName := "a", type := .player, data := [1, 2]
                                 timestamp := 5 }
    let saved := saveDataToFile (fun _ => none) saveData "save_3.dat" .done
    saved.2 = true ∧ loadDataFromFile saved.1 "save_3.dat" = some saveData ∧
      ∀ bytes front, saved.1 "save_3.dat" = some bytes → front <+: bytes → front ≠ bytes →
        ∀ files', files' "save_3.dat" = some front → loadDataFromFile files' "save_3.dat" = none :=
  loadDataFromFile_whole _ _ (plain_of_all (by decide)) (by decide)

def PlayerSaveData.unwritten (d : PlayerSaveData) : PlayerSaveData :=
  { d with playerId := 0, position := {}, level := 1, experience := 0 }

theorem restore_eq_iff (playerData d : PlayerSaveData) :
    playerData.restore d = d ↔ playerData.unwritten = d.unwritten := by
  cases playerData
  cases d
  simp [PlayerSaveData.restore, PlayerSaveData.unwritten]

/-- A record is read back over another whole exactly if the two agree on all that is not written. -/
theorem deserializePlayerData_eq_iff (playerData d : PlayerSaveData) :
    deserializePlayerData (serializePlayerData d) playerData = some d ↔
      playerData.unwritten = d.unwritten := by
  rw [deserializePlayerData_serialize, Option.some.injEq, restore_eq_iff]

theorem not_deserializePlayerData_named : ¬ ∀ playerData d : PlayerSaveData,
    deserializePlayerData (serializePlayerData d) playerData = some d := by
  intro h
  have hnamed := h {} { playerName := "a", activeQuests := [7] }
  revert hnamed
  decide +kernel

def word (byte : UInt8) : BitVec 32 := byte.toUInt32.toBitVec

theorem toBitVec_foldl_checksum (data : List UInt8) (checksum : UInt32) :
    (data.foldl (fun (checksum : UInt32) byte => (checksum <<< 1) ^^^ byte.toUInt32)
        checksum).toBitVec = (data.map word).foldl Shifts.shiftIn checksum.toBitVec := by
  induction data generalizing checksum with
  | nil => rfl
  | cons byte data ih => exact ih _

theorem toBitVec_calculateChecksum (data : List UInt8) :
    (calculateChecksum data).toBitVec = (data.map word).foldl Shifts.shiftIn 0 :=
  toBitVec_foldl_checksum data 0

/-- The change of a byte is noticed exactly if it is in a bit that has not been shifted out by the
bytes behind it. -/
theorem verifyChecksum_set_iff {saveData : SaveData} (h : verifyChecksum saveData = true) {i : ℕ}
    (hi : i < saveData.data.length) (byte : UInt8) :
    verifyChecksum { saveData with data := saveData.data.set i byte } = false ↔
      ∃ k, saveData.data[i].toNat.testBit k ≠ byte.toNat.testBit k ∧
        k + (saveData.data.length - 1 - i) < 32 := by
  have hbehind : ((saveData.data.drop (i + 1)).map word).length = saveData.data.length - 1 - i := by
    rw [List.length_map, List.length_drop]
    omega
  have hsplit : (saveData.data.map word) = (saveData.data.take i).map word ++
      word saveData.data[i] :: (saveData.data.drop (i + 1)).map word := by
    rw [← List.map_cons, ← List.map_append, List.getElem_cons_drop, List.take_append_drop]
  have hset : (saveData.data.set i byte).map word = (saveData.data.take i).map word ++
      word byte :: (saveData.data.drop (i + 1)).map word := by
    rw [← List.map_cons, ← List.map_append, List.set_eq_take_append_cons_drop, if_pos hi]
  have hchecksum : calculateChecksum saveData.data = saveData.checksum := of_decide_eq_true h
  rw [verifyChecksum, decide_eq_false_iff_not]
  dsimp only
  rw [← hchecksum, ← UInt32.toBitVec_inj, toBitVec_calculateChecksum, toBitVec_calculateChecksum,
    hset, hsplit, eq_comm]
  refine (Shifts.foldl_shiftIn_ne_iff _ _ 0 _ _).trans ?_
  rw [hbehind]
  rfl

theorem verifyChecksum_set_iff_two :
    let saveData : SaveData := { type := .player, data := [1, 2], timestamp := 0, checksum := 0 }
    verifyChecksum { saveData with data := saveData.data.set 0 5 } = false ↔
      ∃ k, saveData.data[0].toNat.testBit k ≠ (5 : UInt8).toNat.testBit k ∧
        k + (saveData.data.length - 1 - 0) < 32 :=
  verifyChecksum_set_iff (by decide) (by decide) 5

theorem not_verifyChecksum_first : ¬ ∀ (saveData : SaveData) (i : ℕ) (byte : UInt8),
    verifyChecksum saveData = true → saveData.data[i]? ≠ none → saveData.data[i]? ≠ some byte →
      verifyChecksum { saveData with data := saveData.data.set i byte } = false := by
  intro h
  have hfirst := h { type := .player, data := List.replicate 33 0, timestamp := 0 } 0 1
    (by decide +kernel) (by decide +kernel) (by decide +kernel)
  revert hfirst
  decide +kernel

end WitcherMP.Saves
