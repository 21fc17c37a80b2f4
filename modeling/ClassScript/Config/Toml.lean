import ClassScript.Config.Settings
import ClassScript.Config.Toml.Document

/-! Settings written in TOML. The top table of the text is decoded over the given settings,
one key after another, stopping at the first that cannot be set: a key that names no
setting, or a value of the wrong kind. -/
namespace ClassScript.Toml

/-- The type settings decode into, as messages name it. -/
def target : String := "config.Config"

def Value.kind : Value → String
  | .string _ => "string"
  | .integer _ => "integer"
  | .float _ => "float"
  | .boolean => "boolean"
  | .datetime _ => "datetime"
  | .array => "array"

/-! Dates and times. A date is `YYYY-MM-DD`, a time `hh:mm:ss` with a fraction of a
second, and a date and time is both joined by `T` with an optional zone `Z` or
`±hh:mm`. The month is checked first, then the hour, minute and second, then the zone,
and last the day of the month. -/

def twoDigitValue (a b : Char) : Nat := (a.toNat - 48) * 10 + (b.toNat - 48)

/-- Why the parts of a time of day are out of range: `hh:mm:ss`, fraction ignored. -/
def timeOfDayProblem : List Char → Option String
  | h1 :: h2 :: ':' :: m1 :: m2 :: ':' :: s1 :: s2 :: _ =>
    if twoDigitValue h1 h2 ≥ 24 then some "hour"
    else if twoDigitValue m1 m2 ≥ 60 then some "minute"
    else if twoDigitValue s1 s2 ≥ 60 then some "second"
    else none
  | _ => none

/-- Why a zone `±hh:mm` is out of range. -/
def zoneProblem : List Char → Option String
  | _ :: h1 :: h2 :: ':' :: m1 :: m2 :: _ =>
    if twoDigitValue m1 m2 > 60 then some "time zone offset minute"
    else if twoDigitValue h1 h2 > 24 then some "time zone offset hour"
    else none
  | _ => none

def leapYear (y : Nat) : Bool := y % 4 == 0 && (y % 100 != 0 || y % 400 == 0)

def monthDays (y m : Nat) : Nat :=
  if m == 2 then (if leapYear y then 29 else 28)
  else if m == 4 || m == 6 || m == 9 || m == 11 then 30 else 31

/-- What part of a date or time is out of range, if one is. -/
def datetimeProblem (text : String) : Option String :=
  match text.toList with
  | y1 :: y2 :: y3 :: y4 :: '-' :: mo1 :: mo2 :: '-' :: d1 :: d2 :: rest =>
    let year := twoDigitValue y1 y2 * 100 + twoDigitValue y3 y4
    let month := twoDigitValue mo1 mo2
    let day := twoDigitValue d1 d2
    if month = 0 ∨ month > 12 then some "month"
    else
      let later : Option String := match rest with
        | 'T' :: time =>
          match timeOfDayProblem time with
          | some p => some p
          | none =>
            let afterSeconds := (time.drop 8).dropWhile fun c => c == '.' || c.isDigit
            match afterSeconds with
            | sign :: zone => if sign == '+' || sign == '-' then zoneProblem (sign :: zone) else none
            | [] => none
        | _ => none
      match later with
      | some p => some p
      | none => if day < 1 ∨ day > monthDays year month then some "day" else none
  | time => timeOfDayProblem time

/-- Sets a setting from a value, or says why the value does not fit it. -/
def setValue (s : Settings) (k : Settings.Key) (v : Value) : Except String Settings :=
  let into := if k.isText then "string" else "int"
  let wrongKind := fun (need : String) =>
    Except.error ("cannot unmarshal TOML " ++ v.kind ++ " into " ++ into ++ need)
  match v with
  | .string t => if k.isText then .ok (s.setText k t) else wrongKind ""
  | .integer d =>
    if k.isText then wrongKind ""
    else match Numeral.readInt d with
      | .ok n => .ok { s with fieldCacheSize := n.toInt }
      | .error _ => .error ("value " ++ d ++ " is out of range for int")
  | .float t =>
    match Numeral.readReal t with
    | .error e => .error e.message
    | .ok _ => wrongKind ""
  | .datetime t =>
    match datetimeProblem t with
    | some part => .error ("parsing time \"" ++ t ++ "\": " ++ part ++ " out of range")
    | none => wrongKind ""
  | .array => wrongKind " (need slice)"
  | .boolean => wrongKind ""

def decodeField (s : Settings) (name : String) (n : Node) : Except LineError Settings :=
  match Settings.Key.ofName? name with
  | none => .error ⟨n.line, "", "field '" ++ name ++ "' is not defined in " ++ target⟩
  | some k =>
    let field := target ++ "." ++ k.name
    let into := if k.isText then "string" else "int"
    match n with
    | .pair line v => (setValue s k v).mapError fun p => ⟨line, field, p⟩
    | .table line _ _ =>
      .error ⟨line, "", "cannot unmarshal TOML table into " ++ into ++ " (need struct or map)"⟩
    | .tables _ =>
      .error ⟨n.line, field, "cannot unmarshal TOML array table into " ++ into ++ " (need slice)"⟩

/-- Decodes a TOML text over the given settings. -/
def decode (base : Settings) (text : String) : Except LineError Settings := do
  match ← Document.read text with
  | .table _ _ fields => fields.foldlM (fun s e => decodeField s e.1 e.2) base
  | _ => pure base

end ClassScript.Toml
