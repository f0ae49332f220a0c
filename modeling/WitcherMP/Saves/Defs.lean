import WitcherMP.Economy.Defs
import WitcherMP.Lib.Readers
import Mathlib.Logic.Function.Basic

/-! The save system: the records of players and worlds, the files they are kept in, and the
metadata that finds them again. Readings of the clock and what happens to a file that is
written are arguments. Compression of saves is a stub that does nothing, and left out. -/

namespace WitcherMP.Saves

structure SaveDataType where
  value : UInt32
deriving DecidableEq

namespace SaveDataType

def player : SaveDataType := ⟨0⟩
def world : SaveDataType := ⟨6⟩

end SaveDataType

structure SaveData where
  saveId : UInt32 := 0
  saveName : String := ""
  type : SaveDataType
  data : List UInt8 := []
  timestamp : UInt64
  version : UInt32 := 1
  isCompressed : Bool := false
  isEncrypted : Bool := false
  checksum : UInt32 := 0
deriving DecidableEq

structure Vector4F where
  x : UInt32 := 0
  y : UInt32 := 0
  z : UInt32 := 0
  w : UInt32 := 0
deriving DecidableEq

structure PlayerSaveData where
  playerId : UInt32 := 0
  playerName : String := ""
  position : Vector4F := {}
  rotation : UInt32 := 0
  level : UInt32 := 1
  experience : UInt32 := 0
  inventory : OrdMap UInt32 UInt32 := .empty
  currencies : OrdMap Economy.CurrencyType UInt32 := .empty
  activeQuests : List UInt32 := []
  completedQuests : List UInt32 := []
  unlockedSkills : List UInt32 := []
  achievements : List UInt32 := []
  lastSave : UInt64 := 0
deriving DecidableEq

structure WorldSaveData where
  worldId : UInt32 := 0
deriving DecidableEq

structure SaveMetadata where
  saveId : UInt32 := 0
  saveName : String := ""
  description : String := ""
  version : UInt32 := 1
  createdTime : UInt64
  lastModified : UInt64
  fileSize : UInt32 := 0
  checksum : String := ""
  isCorrupted : Bool := false
  isBackup : Bool := false
deriving DecidableEq

structure SaveStats where
  totalSaves : UInt32 := 0
  corruptedSaves : UInt32 := 0
  totalBackups : UInt32 := 0
  totalSize : UInt32 := 0
deriving DecidableEq

abbrev Files := String → Option (List UInt8)

structure SharedSaveSystem where
  initialized : Bool := false
  saveDirectory : String := ""
  saveMetadata : OrdMap UInt32 SaveMetadata := .empty
  stats : SaveStats := {}
  nextSaveId : UInt32 := 1
  files : Files := fun _ => none

/-- What becomes of a file that is written: it cannot be opened, or a write to it fails after so many
bytes; or all is reported as written, and the end is lost when the stream is flushed, which nobody asks
about, or nothing is. -/
inductive Writing
  | refused
  | cut (length : ℕ)
  | lost (length : ℕ)
  | done
deriving DecidableEq

def Writing.reported : Writing → Bool
  | .refused | .cut _ => false
  | .lost _ | .done => true

def write (files : Files) (filePath : String) (bytes : List UInt8) : Writing → Files
  | .refused => files
  | .cut length => Function.update files filePath (some (bytes.take length))
  | .lost length => Function.update files filePath (some (bytes.dropLast.take length))
  | .done => Function.update files filePath (some bytes)

def deleteFile (files : Files) (filePath : String) (refused : Bool) : Files × Bool :=
  if files filePath = none ∨ refused then (files, false)
  else (Function.update files filePath none, true)

def nameBytes (name : String) : List UInt8 := name.toList.map fun c => .ofNat c.toNat

def nameOf (bytes : List UInt8) : String := .ofList (bytes.map fun b => .ofNat b.toNat)

def fileBytes (saveData : SaveData) : List UInt8 :=
  Bytes.le32 saveData.saveId.toNat ++ ((nameBytes saveData.saveName ++ [0]) ++
    (Bytes.le32 saveData.type.value.toNat ++ (Bytes.le64 saveData.timestamp.toNat ++
    (Bytes.le32 saveData.version.toNat ++ ([if saveData.isCompressed then 1 else 0] ++
    ([if saveData.isEncrypted then 1 else 0] ++ (Bytes.le32 saveData.checksum.toNat ++
    (Bytes.le32 saveData.data.length ++ saveData.data))))))))

def saveDataToFile (files : Files) (saveData : SaveData) (filePath : String) (file : Writing) :
    Files × Bool :=
  (write files filePath (fileBytes saveData) file, file.reported)

def readSaveData : Reader SaveData := do
  let saveId ← Reader.u32
  let name ← Reader.untilNul
  let type ← Reader.u32
  let timestamp ← Reader.u64
  let version ← Reader.u32
  let isCompressed ← Reader.bool
  let isEncrypted ← Reader.bool
  let checksum ← Reader.u32
  let dataSize ← Reader.u32
  let data ← Reader.bytes dataSize.toNat
  return {
    saveId := saveId, saveName := nameOf name, type := ⟨type⟩, data := data
    timestamp := timestamp, version := version, isCompressed := isCompressed
    isEncrypted := isEncrypted, checksum := checksum }

/-- A file that is too short for its fields fails to load; bytes behind them are not read. -/
def loadDataFromFile (files : Files) (filePath : String) : Option SaveData := do
  let bytes ← files filePath
  let (saveData, _) ← readSaveData bytes
  return saveData

/-- Name, rotation, possessions, quests and skills are not written. -/
def serializePlayerData (playerData : PlayerSaveData) : List UInt8 :=
  Bytes.le32 playerData.playerId.toNat ++ (Bytes.le32 playerData.position.x.toNat ++
    (Bytes.le32 playerData.position.y.toNat ++ (Bytes.le32 playerData.position.z.toNat ++
    (Bytes.le32 playerData.position.w.toNat ++ (Bytes.le32 playerData.level.toNat ++
    Bytes.le32 playerData.experience.toNat)))))

def serializeWorldData (worldData : WorldSaveData) : List UInt8 :=
  Bytes.le32 worldData.worldId.toNat

def readPlayerData (playerData : PlayerSaveData) : Reader PlayerSaveData := do
  let playerId ← Reader.u32
  let x ← Reader.u32
  let y ← Reader.u32
  let z ← Reader.u32
  let w ← Reader.u32
  let level ← Reader.u32
  let experience ← Reader.u32
  return { playerData with
    playerId := playerId, position := { x := x, y := y, z := z, w := w }
    level := level, experience := experience }

def deserializePlayerData (data : List UInt8) (playerData : PlayerSaveData) :
    Option PlayerSaveData :=
  if data.length < 4 * 3 + 16 then none else (readPlayerData playerData data).map Prod.fst

def deserializeWorldData (data : List UInt8) : Option WorldSaveData :=
  if data.length < 4 then none else (Reader.u32 data).map fun p => { worldId := p.1 }

def calculateChecksum (data : List UInt8) : UInt32 :=
  data.foldl (fun checksum byte => (checksum <<< 1) ^^^ byte.toUInt32) 0

def verifyChecksum (saveData : SaveData) : Bool :=
  calculateChecksum saveData.data = saveData.checksum

namespace SharedSaveSystem

/-- Nothing is read, whether or not there is a file of metadata. -/
def loadMetadata (s : SharedSaveSystem) : SharedSaveSystem := s

def initializeIn (s : SharedSaveSystem) (saveDirectory : String) (created : Bool) :
    SharedSaveSystem × Bool :=
  if s.initialized then (s, true) else
  let s := { s with saveDirectory := saveDirectory }
  if ¬ created then (s, false) else
  ({ s.loadMetadata with initialized := true }, true)

/-- The program ends and starts again on the same directory, with a new save system. -/
def restart (s : SharedSaveSystem) (created : Bool) : SharedSaveSystem :=
  (({ files := s.files } : SharedSaveSystem).initializeIn s.saveDirectory created).1

def getSaveFilePath (s : SharedSaveSystem) (saveId : UInt32) : String :=
  s.saveDirectory ++ "/save_" ++ toString saveId.toNat ++ ".dat"

def getBackupFilePath (s : SharedSaveSystem) (saveId backupId : UInt32) : String :=
  s.saveDirectory ++ "/backup_" ++ toString saveId.toNat ++ "_" ++ toString backupId.toNat ++ ".dat"

def updateSaveMetadata (s : SharedSaveSystem) (saveId : UInt32) (metadata : SaveMetadata) :
    SharedSaveSystem :=
  { s with saveMetadata := s.saveMetadata.insert saveId metadata }

def save (s : SharedSaveSystem) (saveName description : String) (type : SaveDataType)
    (data : List UInt8) (now : UInt64) (file : Writing) : SharedSaveSystem × Bool :=
  if ¬ s.initialized then (s, false) else
  let saveData : SaveData := {
    saveId := s.nextSaveId, saveName := saveName, type := type, data := data
    timestamp := now, checksum := calculateChecksum data }
  let s := { s with nextSaveId := s.nextSaveId + 1 }
  let written := saveDataToFile s.files saveData (s.getSaveFilePath saveData.saveId) file
  let s := { s with files := written.1 }
  if ¬ written.2 then (s, false) else
  let s := s.updateSaveMetadata saveData.saveId {
    saveId := saveData.saveId, saveName := saveData.saveName, description := description
    version := saveData.version, createdTime := now, lastModified := now
    fileSize := .ofNat data.length, checksum := toString saveData.checksum.toNat }
  ({ s with stats := { s.stats with
      totalSaves := s.stats.totalSaves + 1
      totalSize := s.stats.totalSize + .ofNat data.length } }, true)

def playerSaveName (playerId : UInt32) : String := "Player_" ++ toString playerId.toNat

def worldSaveName (worldId : UInt32) : String := "World_" ++ toString worldId.toNat

def savePlayerData (s : SharedSaveSystem) (playerId : UInt32) (playerData : PlayerSaveData)
    (now : UInt64) (file : Writing) : SharedSaveSystem × Bool :=
  s.save (playerSaveName playerId) "Player save data" .player (serializePlayerData playerData) now
    file

def saveWorldData (s : SharedSaveSystem) (worldId : UInt32) (worldData : WorldSaveData)
    (now : UInt64) (file : Writing) : SharedSaveSystem × Bool :=
  s.save (worldSaveName worldId) "World save data" .world (serializeWorldData worldData) now file

/-- The metadata is searched in the order of the ids, and 0 stands for nothing found. -/
def findSave (s : SharedSaveSystem) (saveName : String) : UInt32 :=
  ((s.saveMetadata.entries.find? fun e => e.2.saveName = saveName).map Prod.fst).getD 0

def load (s : SharedSaveSystem) (saveName : String) : SharedSaveSystem × Option (List UInt8) :=
  if ¬ s.initialized then (s, none) else
  let saveId := s.findSave saveName
  if saveId = 0 then (s, none) else
  match loadDataFromFile s.files (s.getSaveFilePath saveId) with
  | none => (s, none)
  | some saveData =>
    if ¬ verifyChecksum saveData then
      ({ s with stats := { s.stats with corruptedSaves := s.stats.corruptedSaves + 1 } }, none)
    else (s, some saveData.data)

def loadPlayerData (s : SharedSaveSystem) (playerId : UInt32) (playerData : PlayerSaveData) :
    SharedSaveSystem × Option PlayerSaveData :=
  let loaded := s.load (playerSaveName playerId)
  (loaded.1, loaded.2.bind fun data => deserializePlayerData data playerData)

def loadWorldData (s : SharedSaveSystem) (worldId : UInt32) :
    SharedSaveSystem × Option WorldSaveData :=
  let loaded := s.load (worldSaveName worldId)
  (loaded.1, loaded.2.bind deserializeWorldData)

def createSave (s : SharedSaveSystem) (saveName description : String) (now : UInt64)
    (file : Writing) : SharedSaveSystem × Bool :=
  s.save saveName description .world [] now file

def loadSave (s : SharedSaveSystem) (saveId : UInt32) : SharedSaveSystem × Bool :=
  if ¬ s.initialized ∨ s.saveMetadata.find? saveId = none then (s, false) else
  match loadDataFromFile s.files (s.getSaveFilePath saveId) with
  | none => (s, false)
  | some saveData =>
    if ¬ verifyChecksum saveData then
      ({ s with stats := { s.stats with corruptedSaves := s.stats.corruptedSaves + 1 } }, false)
    else (s, true)

def validateSaveData (s : SharedSaveSystem) (saveId : UInt32) : SharedSaveSystem × Bool :=
  s.loadSave saveId

def deleteSave (s : SharedSaveSystem) (saveId : UInt32) (refused : Bool) :
    SharedSaveSystem × Bool :=
  if ¬ s.initialized ∨ s.saveMetadata.find? saveId = none then (s, false) else
  let deleted := deleteFile s.files (s.getSaveFilePath saveId) refused
  let s := { s with files := deleted.1 }
  if ¬ deleted.2 then (s, false) else
  ({ s with
    saveMetadata := s.saveMetadata.erase saveId
    stats := { s.stats with totalSaves := s.stats.totalSaves - 1 } }, true)

/-- The copy fails where the original is missing or empty, and leaves an empty file behind. -/
def createBackup (s : SharedSaveSystem) (saveId : UInt32) (now : UInt64) (file : Writing) :
    SharedSaveSystem × Bool :=
  if ¬ s.initialized then (s, false) else
  match s.saveMetadata.find? saveId with
  | none => (s, false)
  | some metadata =>
    let backupId := s.nextSaveId
    let s := { s with nextSaveId := s.nextSaveId + 1 }
    let original := (s.files (s.getSaveFilePath saveId)).getD []
    let s := { s with files := write s.files (s.getBackupFilePath saveId backupId) original file }
    if original = [] ∨ ¬ file.reported then (s, false) else
    let s := s.updateSaveMetadata backupId { metadata with
      saveId := backupId
      saveName := metadata.saveName ++ "_backup_" ++ toString backupId.toNat
      isBackup := true
      createdTime := now }
    ({ s with stats := { s.stats with totalBackups := s.stats.totalBackups + 1 } }, true)

inductive Op
  | savePlayerData (playerId : UInt32) (playerData : PlayerSaveData) (now : UInt64) (file : Writing)
  | saveWorldData (worldId : UInt32) (worldData : WorldSaveData) (now : UInt64) (file : Writing)
  | createBackup (saveId : UInt32) (now : UInt64) (file : Writing)

def step (s : SharedSaveSystem) : Op → SharedSaveSystem
  | .savePlayerData p playerData now file => (s.savePlayerData p playerData now file).1
  | .saveWorldData w worldData now file => (s.saveWorldData w worldData now file).1
  | .createBackup id now file => (s.createBackup id now file).1

end SharedSaveSystem
end WitcherMP.Saves
