import FormLogic.Document.Fault
import FormLogic.Evaluator

/-!
# FormLogic.Error

Everything that can go wrong, with its texts and codes.
-/

namespace FormLogic

/-- An error of the library or of a program around it. -/
inductive Error where
  /-- An expression that cannot be read. -/
  | expression (fault : SourceFault)
  | invalidForm (fault : ReadFault)
  | invalidState (fault : ReadFault)
  | io (message : String)
deriving DecidableEq, Repr

namespace Error

/-- An error in one line. -/
def message : Error → String
  | .expression f => f.fault.cause.message
  | .invalidForm f => "invalid form document: " ++ f.message
  | .invalidState f => "invalid state: " ++ f.message
  | .io message => "I/O error: " ++ message

/-- The headline of an error's report. -/
def title : Error → String
  | .expression f => f.fault.cause.title
  | e => e.message

/-- The code of an error. -/
def code? : Error → Option String
  | .expression f => some f.fault.cause.code
  | .invalidForm _ => some "E0900"
  | .invalidState _ => some "E0901"
  | .io _ => none

/-- How to mend an error. -/
def help? : Error → Option String
  | .expression f => some f.fault.cause.help
  | _ => none

end Error

end FormLogic
