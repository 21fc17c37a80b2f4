import ClassScript.ErrorClass
import ClassScript.Numeral

/-! Runtime faults: what went wrong, and where. A fault is a cause, told by its own
sentence, inside a list of contexts: the source line, the declaration or assignment it
belongs to, the builtin that was called, or the condition being tested. The message
puts the contexts first, outermost first, each followed by a colon. -/
namespace ClassScript

/-- What went wrong at run time. Type names are kept as they are shown. -/
inductive Fault.Cause where
  | cannotConvert (type target : String)
  | cannotConvertText (text target : String)
  | assignNull
  | nullFieldRead (type field : String)
  | nullFieldWrite (type field : String)
  /-- A value that cannot be read from text; `target` is `null`, `type 'C'` or
  `function`. -/
  | cannotParse (text target : String)
  | badNumeral (text target : String) (e : NumeralError)
  | missingField (type field : String)
  | undefined (name : String)
  | notAnObject (type field : String)
  | notCallable (type : String)
  | cannotAssign (got want : String)
  | cannotStore (got fieldType field : String)
  | cannotStoreNull (fieldType field : String)
  | divisionByZero
  | notANumber (op type : String)
  | arity (want got : Nat)
  | assignBuiltin (name : String)
  | unknownType (name : String)
  | redeclared (name : String)
  | notAClass (name : String)
  | parentNotDeclared (parent cls : String)
  | duplicateField (cls field : String)
  | sealed (field cls : String)
  | outOfSteps
  deriving DecidableEq, Repr

/-- Where a fault arose, as messages name it. -/
inductive Fault.Context where
  | line (n : Nat)
  | declare (name : String)
  | assignTo (name : String)
  | builtin (name : String)
  | condition (keyword : String)
  deriving DecidableEq, Repr

/-- A runtime fault: its contexts, outermost first, and its cause. -/
structure Fault where
  context : List Fault.Context
  cause : Fault.Cause
  deriving DecidableEq, Repr

namespace Fault

def Cause.text : Cause → String
  | .cannotConvert t x => "cannot convert type '" ++ t ++ "' to " ++ x ++ ": unsupported conversion"
  | .cannotConvertText s x => "cannot convert " ++ Text.quote s ++ " to " ++ x ++ ": unsupported conversion"
  | .assignNull => "cannot assign to null: null pointer"
  | .nullFieldRead t f => "cannot access field '" ++ t ++ "." ++ f ++ "': null pointer"
  | .nullFieldWrite t f => "cannot set field '" ++ t ++ "." ++ f ++ "': null pointer"
  | .cannotParse s x => "cannot parse " ++ Text.quote s ++ " as " ++ x ++ ": string parsing unimplemented"
  | .badNumeral s x e => "cannot parse " ++ Text.quote s ++ " as " ++ x ++ ": " ++ e.message
  | .missingField t f => "type '" ++ t ++ "' has no field '" ++ f ++ "': no such field"
  | .undefined n => "'" ++ n ++ "': undefined variable"
  | .notAnObject t f => "'" ++ t ++ "' has no field '" ++ f ++ "': only instances have fields"
  | .notCallable t => "'" ++ t ++ "': callee is not callable"
  | .cannotAssign got want => "cannot assign '" ++ got ++ "' to '" ++ want ++ "': type mismatch"
  | .cannotStore got ft f =>
    "cannot store '" ++ got ++ "' in " ++ ft ++ " field '" ++ f ++ "': type mismatch"
  | .cannotStoreNull ft f => "cannot store null in " ++ ft ++ " field '" ++ f ++ "': type mismatch"
  | .divisionByZero => "division by zero"
  | .notANumber op t => "operand of '" ++ op ++ "' must be a number, got " ++ t
  | .arity want got => "expected " ++ toString want ++ " arguments, got " ++ toString got
  | .assignBuiltin n => "cannot assign to builtin '" ++ n ++ "'"
  | .unknownType n => "'" ++ n ++ "': unknown type"
  | .redeclared n => "'" ++ n ++ "': type already declared"
  | .notAClass n => "'" ++ n ++ "': not a class"
  | .parentNotDeclared p c => "parent '" ++ p ++ "' of '" ++ c ++ "' is not declared: not a class"
  | .duplicateField c f => "'" ++ c ++ "." ++ f ++ "': duplicate field"
  | .sealed f c => "cannot add field '" ++ f ++ "' to '" ++ c ++ "': class is sealed"
  | .outOfSteps => "step budget exhausted"

def Cause.errorClass : Cause → ErrorClass
  | .cannotConvert .. | .cannotConvertText .. => .unsupportedConversion
  | .assignNull | .nullFieldRead .. | .nullFieldWrite .. => .nullReference
  | .cannotParse .. => .unsupportedParse
  | .badNumeral _ _ e => e.errorClass
  | .missingField .. => .missingField
  | .undefined .. => .undefined
  | .notAnObject .. => .notAnObject
  | .notCallable .. => .notCallable
  | .cannotAssign .. | .cannotStore .. | .cannotStoreNull .. => .typeMismatch
  | .divisionByZero => .divisionByZero
  | .notANumber .. | .arity .. | .assignBuiltin .. | .outOfSteps => .plain
  | .unknownType .. => .unknownType
  | .redeclared .. => .redeclared
  | .notAClass .. | .parentNotDeclared .. => .unknownClass
  | .duplicateField .. => .duplicateField
  | .sealed .. => .sealed

def Context.text : Context → String
  | .line n => "line " ++ toString n
  | .declare n => "declare '" ++ n ++ "'"
  | .assignTo n => "assign to '" ++ n ++ "'"
  | .builtin n => n
  | .condition k => k ++ " condition"

def message (f : Fault) : String :=
  String.join (f.context.map (·.text ++ ": ")) ++ f.cause.text

def errorClass (f : Fault) : ErrorClass := f.cause.errorClass

def ofCause (c : Cause) : Fault := ⟨[], c⟩

def within (c : Context) (f : Fault) : Fault := ⟨c :: f.context, f.cause⟩

end Fault

end ClassScript
