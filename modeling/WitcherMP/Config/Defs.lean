import Mathlib.Data.Char
import Mathlib.Data.List.DropRight
import Mathlib.Data.List.Lex
import WitcherMP.Lib.OrdMap
import WitcherMP.Lib.Scans

/-! The server's configuration: texts under names, read from and written to a file line by line.
The container has no order of its own, so that the order in which it is written is a parameter;
what is printed is left out. -/

namespace WitcherMP.Config
open Scans

abbrev Text := List Char

/-- The files that are there, with what they hold. -/
abbrev Files := String → Option Text

structure ConfigManager where
  config : OrdMap Text Text := .empty

namespace ConfigManager

def setDefaultValues (m : ConfigManager) : ConfigManager where
  config := OrdMap.insert
    (OrdMap.insert
      (OrdMap.insert
        (OrdMap.insert
          (OrdMap.insert
            (OrdMap.insert
              (m.config.insert "server_name".toList "Witcher3-MP Server".toList)
              "port".toList "60000".toList)
            "max_connections".toList "100".toList)
          "debug_mode".toList "false".toList)
        "log_level".toList "INFO".toList)
      "auto_save".toList "true".toList)
    "save_interval".toList "300".toList

def fresh : ConfigManager := setDefaultValues {}

def getConfigPath (filename : String) : String := "config/" ++ filename

def isBlank (c : Char) : Bool := c = ' ' || c = '\t'

def trim (s : Text) : Text := (s.dropWhile isBlank).rdropWhile isBlank

/-- What one line of the file sets. Whether it is a comment is seen from its first character,
before anything is trimmed. -/
def setting (line : Text) : Option (Text × Text) :=
  if line = [] ∨ line.head? = some '#' then none
  else if '=' ∈ line then
    let key := line.takeWhile (· ≠ '=')
    let value := (line.dropWhile (· ≠ '=')).drop 1
    some (trim key, trim value)
  else none

def loadLine (config : OrdMap Text Text) (line : Text) : OrdMap Text Text :=
  match setting line with
  | none => config
  | some (key, value) => config.insert key value

def loadConfig (m : ConfigManager) (files : Files) (filename : String) : ConfigManager × Bool :=
  match files (getConfigPath filename) with
  | none => (m, false)
  | some content => ({ config := (getlines '\n' content).foldl loadLine m.config }, true)

def header : List Text :=
  ["# Witcher3-MP Server Configuration".toList, "# Generated automatically".toList, []]

def settingLine (pair : Text × Text) : Text := pair.1 ++ '=' :: pair.2

def unlines (lines : List Text) : Text := lines.flatMap (· ++ ['\n'])

/-- The entries are written in the order in which they are visited; the file may fail to open. -/
def saveConfig (visited : List (Text × Text)) (files : Files) (filename : String) (opened : Bool) :
    Files × Bool :=
  if !opened then (files, false)
  else (Function.update files (getConfigPath filename)
    (some (unlines (header ++ visited.map settingLine))), true)

def setValue (m : ConfigManager) (key value : Text) : ConfigManager :=
  { config := m.config.insert key value }

def getValue (m : ConfigManager) (key defaultValue : Text) : Text := m.config.getD key defaultValue

def getIntValue (m : ConfigManager) (key : Text) (defaultValue : ℤ) : ℤ :=
  let value := m.getValue key []
  if value = [] then defaultValue else (stoi value).getD defaultValue

def validateConfig (m : ConfigManager) : Bool :=
  let port := m.getIntValue "port".toList 0
  let maxConn := m.getIntValue "max_connections".toList 0
  !(port ≤ 0 || port > 65535) && !(maxConn ≤ 0 || maxConn > 1000)

example : fresh.validateConfig = true := by decide +kernel

end ConfigManager
end WitcherMP.Config
