/-!
# FormLogic.Document.Fault

What can be wrong with a document that describes a form or holds answers.
-/

namespace FormLogic

/-- Why a document is refused. -/
inductive ReadFault where
  /-- The text is no document at all. -/
  | notWellFormed
  | missingField (name : String)
  | duplicateField (name : String)
  | invalidType (found expected : String)
  | invalidValue (found expected : String)
  /-- A sequence with too few or too many items. -/
  | invalidLength (length : Nat) (expected : String)
  | unknownVariant (name : String) (known : List String)
  /-- Items behind the last one that has a meaning. -/
  | trailingItems
  /-- A form has no section with the index asked for. -/
  | noSection (index count : Nat)
  /-- Answers that do not stand under names. -/
  | notAnObject (found : String)
  /-- A fault that the caller states in its own words. -/
  | stated (message : String)
deriving DecidableEq, Repr

/-- A list of names as messages enumerate them. -/
def enumerate (names : List String) : String :=
  let quoted := names.map fun name => "`" ++ name ++ "`"
  match quoted with
  | [] => "there are no variants"
  | [a] => "expected " ++ a
  | [a, b] => "expected " ++ a ++ " or " ++ b
  | _ => "expected one of " ++ ", ".intercalate quoted

/-- A fault in one line. -/
def ReadFault.message : ReadFault → String
  | .notWellFormed => "the text is not a well-formed document"
  | .missingField name => "missing field `" ++ name ++ "`"
  | .duplicateField name => "duplicate field `" ++ name ++ "`"
  | .invalidType found expected => "invalid type: " ++ found ++ ", expected " ++ expected
  | .invalidValue found expected => "invalid value: " ++ found ++ ", expected " ++ expected
  | .invalidLength length expected =>
    "invalid length " ++ toString length ++ ", expected " ++ expected
  | .unknownVariant name known => "unknown variant `" ++ name ++ "`, " ++ enumerate known
  | .trailingItems => "trailing characters"
  | .noSection index count =>
    "no section " ++ toString index ++ " (the form has " ++ toString count ++ ")"
  | .notAnObject found => "expected an object of answers, found " ++ found
  | .stated message => message

end FormLogic
