import ClassScript.Numeral

/-! Logging severities. A severity is a signed 64-bit number: debug is -4, info 0,
warn 4 and error 8. It is named by the greatest of these at or below it, with the
offset from that one when there is one, as in `INFO+2` or `DEBUG-4`. From text, a base
name in any case is followed by an optional signed decimal offset, which starts at the
first sign of the text; the offset is read before the name is checked. -/
namespace ClassScript

structure Severity where
  level : Int64
  deriving DecidableEq, Repr

inductive Severity.Problem where
  | unknownName
  | badOffset (e : NumeralError)
  deriving DecidableEq, Repr

structure SeverityError where
  text : String
  problem : Severity.Problem
  deriving DecidableEq, Repr

namespace SeverityError

def message (e : SeverityError) : String :=
  "slog: level string " ++ Text.quote e.text ++ ": " ++
    match e.problem with
    | .unknownName => "unknown name"
    | .badOffset n => n.message

def errorClass (e : SeverityError) : ErrorClass :=
  match e.problem with
  | .unknownName => .plain
  | .badOffset n => n.errorClass

end SeverityError

namespace Severity

def debug : Severity := ⟨-4⟩
def info : Severity := ⟨0⟩
def warn : Severity := ⟨4⟩
def error : Severity := ⟨8⟩

/-- A base name with a signed offset, or the bare name for a zero offset. -/
def withOffset (base : String) (offset : Int64) : String :=
  if offset = 0 then base
  else if offset < 0 then base ++ toString offset.toInt
  else base ++ "+" ++ toString offset.toInt

/-- The name of a severity, by the greatest base at or below it. -/
def name (s : Severity) : String :=
  if s.level < 0 then withOffset "DEBUG" (s.level - debug.level)
  else if s.level < 4 then withOffset "INFO" s.level
  else if s.level < 8 then withOffset "WARN" (s.level - warn.level)
  else withOffset "ERROR" (s.level - error.level)

/-- Upper case for matching base names: ASCII letters, and the dotless `ı` as `I`. -/
def upper (c : Char) : Char := if c = 'ı' then 'I' else c.toUpper

def base? (name : String) : Option Severity :=
  match String.ofList (name.toList.map upper) with
  | "DEBUG" => some debug
  | "INFO" => some info
  | "WARN" => some warn
  | "ERROR" => some error
  | _ => none

/-- Reads a severity: a base name, then from the first sign on an offset. -/
def parse (s : String) : Except SeverityError Severity :=
  let cs := s.toList
  let nameChars := cs.takeWhile fun c => c != '+' && c != '-'
  let rest := cs.drop nameChars.length
  let offset : Except NumeralError Int64 :=
    if rest.isEmpty then .ok 0 else Numeral.readSigned .word (String.ofList rest)
  match offset with
  | .error e => .error ⟨s, .badOffset e⟩
  | .ok off =>
    match base? (String.ofList nameChars) with
    | some b => .ok ⟨b.level + off⟩
    | none => .error ⟨s, .unknownName⟩

end Severity

end ClassScript
