import ClassScript.Config.Severity

/-! Settings of the interpreter: the prompt and history file of the interactive
session, the capacity of the field cache, and the logging severity by name. Settings
are valid when the capacity is positive and the severity's name reads, an empty name
meaning info. They are written as TOML, one `Key = value` line per setting in a fixed
order, strings quoted, and the history file left out when it is empty. -/
namespace ClassScript

structure Settings where
  prompt : String
  historyFile : String
  fieldCacheSize : Int
  logLevel : String
  deriving DecidableEq, Repr

inductive SettingsError where
  | cacheSize (n : Int)
  | logLevel (e : SeverityError)
  deriving DecidableEq, Repr

namespace SettingsError

def message : SettingsError → String
  | .cacheSize n => "FieldCacheSize must be positive, got " ++ toString n
  | .logLevel e => "LogLevel: " ++ e.message

def errorClass : SettingsError → ErrorClass
  | .cacheSize _ => .plain
  | .logLevel e => e.errorClass

end SettingsError

inductive Settings.Key where
  | prompt
  | historyFile
  | fieldCacheSize
  | logLevel
  deriving DecidableEq, Repr

namespace Settings

/-- The settings when nothing is given. -/
def standard : Settings := ⟨"> ", "", 128, "warn"⟩

def Key.name : Key → String
  | .prompt => "Prompt"
  | .historyFile => "HistoryFile"
  | .fieldCacheSize => "FieldCacheSize"
  | .logLevel => "LogLevel"

/-- The setting a name stands for; names are matched exactly. -/
def Key.ofName? : String → Option Key
  | "Prompt" => some .prompt
  | "HistoryFile" => some .historyFile
  | "FieldCacheSize" => some .fieldCacheSize
  | "LogLevel" => some .logLevel
  | _ => none

/-- Whether a setting holds text; the only other one holds an integer. -/
def Key.isText : Key → Bool
  | .fieldCacheSize => false
  | _ => true

def setText (s : Settings) (k : Key) (v : String) : Settings :=
  match k with
  | .prompt => { s with prompt := v }
  | .historyFile => { s with historyFile := v }
  | .fieldCacheSize => s
  | .logLevel => { s with logLevel := v }

/-- The severity the settings name. -/
def severity (s : Settings) : Except SeverityError Severity :=
  if s.logLevel.isEmpty then .ok Severity.info else Severity.parse s.logLevel

/-- Checks the capacity, then the severity. -/
def validate (s : Settings) : Except SettingsError Unit :=
  if s.fieldCacheSize ≤ 0 then .error (.cacheSize s.fieldCacheSize)
  else match s.severity with
    | .ok _ => .ok ()
    | .error e => .error (.logLevel e)

def dump (s : Settings) : String :=
  "Prompt = " ++ Text.quote s.prompt ++ "\n" ++
  (if s.historyFile.isEmpty then "" else "HistoryFile = " ++ Text.quote s.historyFile ++ "\n") ++
  "FieldCacheSize = " ++ toString s.fieldCacheSize ++ "\n" ++
  "LogLevel = " ++ Text.quote s.logLevel ++ "\n"

end Settings

end ClassScript
