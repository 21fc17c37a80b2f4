import ClassScript.Config.Yaml
import ClassScript.Config.Toml

/-! Loading settings from a file. The format follows the extension of the path, from
the last dot of its last part and in any case: `.toml`, or `.yaml` and `.yml`. The
file is decoded over the standard settings, and the result must be valid. A TOML
problem is told with the path before its line, and any decoding problem after
`load` and the path. -/
namespace ClassScript

inductive Format where
  | toml
  | yaml
  deriving DecidableEq, Repr

inductive ConfigError where
  | missing (path : String)
  | unknownFormat (path : String)
  | undecodable (path detail : String)
  | invalid (e : SettingsError)
  deriving DecidableEq, Repr

namespace ConfigError

def message : ConfigError → String
  | .missing p => "open " ++ p ++ ": no such file or directory"
  | .unknownFormat p => p ++ ": unknown config format"
  | .undecodable p d => "load " ++ p ++ ": " ++ d
  | .invalid e => e.message

def errorClass : ConfigError → ErrorClass
  | .unknownFormat _ => .unknownFormat
  | .invalid e => e.errorClass
  | _ => .plain

end ConfigError

/-- The extension of a path: from the last dot of its last part, or nothing. -/
def extension (path : String) : String :=
  let lastPart := (path.splitOn "/").getLastD ""
  match lastPart.splitOn "." with
  | [] | [_] => ""
  | pieces => "." ++ pieces.getLastD ""

/-- The format an extension stands for, in any case. -/
def Format.ofPath? (path : String) : Option Format :=
  match (extension path).toLower with
  | ".toml" => some .toml
  | ".yaml" | ".yml" => some .yaml
  | _ => none

namespace Settings

/-- Loads settings from the contents of the file at `path`, none when it is missing. -/
def load (path : String) (contents : Option String) : Except ConfigError Settings :=
  match contents with
  | none => .error (.missing path)
  | some text =>
    let decoded : Except ConfigError Settings := match Format.ofPath? path with
      | none => .error (.unknownFormat path)
      | some .toml => (Toml.decode standard text).mapError fun e => .undecodable path (path ++ ", " ++ e.message)
      | some .yaml => (Yaml.decode standard text).mapError fun e => .undecodable path e.message
    match decoded with
    | .error e => .error e
    | .ok s =>
      match s.validate with
      | .ok _ => .ok s
      | .error e => .error (.invalid e)

end Settings

end ClassScript
