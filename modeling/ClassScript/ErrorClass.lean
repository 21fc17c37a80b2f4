/-! The classes of failure that a caller can tell apart whatever a message says: one per
cause the language reports, one for a list of syntax errors, and one for failures that
belong to no class. -/
namespace ClassScript

/-- What kind of failure a message reports. -/
inductive ErrorClass where
  | unsupportedConversion
  | nullReference
  | unsupportedParse
  | missingField
  | undefined
  | notAnObject
  | notCallable
  | typeMismatch
  | divisionByZero
  | unterminated
  | unknownChar
  | badEscape
  | malformed
  | duplicateField
  | sealed
  | unknownType
  | redeclared
  | unknownClass
  | unknownFormat
  | numeralInvalid
  | numeralRange
  | syntaxErrors
  | plain
  deriving DecidableEq, Repr

end ClassScript
