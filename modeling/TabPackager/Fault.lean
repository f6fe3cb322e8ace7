import TabPackager.Bundle.Format
import TabPackager.Config.Packaging
import TabPackager.Config.Reading
import TabPackager.Failure
import TabPackager.FileSystem.Refusal

/-!
# Faults

All ways in which an operation of the program ends without a result: the failures that it reports
itself, and those that it does not expect and lets pass.
-/

namespace TabPackager

/-- An end that the program does not expect and does not turn into a message. -/
inductive Escape where
  | nulByte
  | homeUnknown
  | linkLoop (path : String)
  | rejected (why : Config.Rejection)
  | directoryWithoutValue
  | bundleWithoutValue
  | emptyName
  | emptyCommand
  | unimplemented
  deriving DecidableEq, Repr

inductive Fault where
  | failure (f : Failure)
  | config (e : Config.Error)
  | bundle (e : Bundle.Error)
  | os (e : OsError)
  | escape (e : Escape)

namespace Fault

def ofRefusal (why : Refusal) (file : Option String) (target : Option String := none) : Fault :=
  match why.describe? with
  | some (number, reason) => .os ⟨number, reason, file, target⟩
  | none => .escape .nulByte

/-- A whole number in a key has too many digits to be shown. -/
def unshowable : Fault := .escape (.rejected (@Config.Rejection.value .toText))

end Fault

def Escape.message? : Escape → Option String
  | .homeUnknown => some "Could not determine home directory."
  | .linkLoop path => some ("Symlink loop from " ++ Text.literal path)
  | .rejected (@Config.Rejection.value .toText) => some Config.numeralComplaint
  | .unimplemented => some ""
  | _ => none

def Fault.message? : Fault → Option String
  | .failure f => some f.message
  | .config e => some e.message
  | .bundle e => some e.message
  | .os e => some e.message
  | .escape e => e.message?

end TabPackager
