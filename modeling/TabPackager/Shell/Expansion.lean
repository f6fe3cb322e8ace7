import TabPackager.Shell.Script

/-!
# Expansion of words

How a word becomes the fields that a command gets: its parameters are replaced by their values,
and what stood outside of quotes is cut at blanks. A quoted word is one field even if it is empty,
except that all arguments at once give one field for each.
-/

namespace TabPackager.Shell

structure Scope where
  program : String
  arguments : List String := []
  bindings : List (String × String) := []
  status : Nat := 0

/-- The number that a shell gives as its own. Nothing but a signal to itself depends on it. -/
def ownNumber : String := "4711"

namespace Scope

def set (s : Scope) (name value : String) : Scope :=
  { s with bindings := (name, value) :: s.bindings.filter (·.1 ≠ name) }

def text (s : Scope) : Parameter → String
  | .named name => (s.bindings.lookup name).getD ""
  | .argument n => (s.program :: s.arguments).getD n ""
  | .everyArgument | .joinedArguments => " ".intercalate s.arguments
  | .argumentCount => toString s.arguments.length
  | .lastStatus => toString s.status
  | .processNumber => ownNumber

end Scope

/-- What is left of a word once its parameters are replaced: letters that belong to a field,
letters at which a field ends if they are blank, the beginning of a field, and its end. -/
inductive Mark where
  | kept (c : Char)
  | loose (c : Char)
  | start
  | cut
  deriving DecidableEq, Repr

def marksOfText (quoted : Bool) (s : String) : List Mark :=
  if quoted then .start :: s.toList.map .kept else s.toList.map .loose

def marks (s : Scope) : Piece → List Mark
  | .letter _ c => [.kept c]
  | .quotation => [.start]
  | .parameter quoted .everyArgument => [.cut].intercalate (s.arguments.map (marksOfText quoted))
  | .parameter false .joinedArguments => [.cut].intercalate (s.arguments.map (marksOfText false))
  | .parameter quoted p => marksOfText quoted (s.text p)

def fieldsOfMarks : Option (List Char) → List Mark → List String
  | field, [] => (field.map fun cs => String.ofList cs.reverse).toList
  | field, .kept c :: ms => fieldsOfMarks (some (c :: field.getD [])) ms
  | field, .start :: ms => fieldsOfMarks (some (field.getD [])) ms
  | field, .cut :: ms =>
    (field.map fun cs => String.ofList cs.reverse).toList ++ fieldsOfMarks none ms
  | field, .loose c :: ms =>
    if c = ' ' ∨ c = '\t' ∨ c = '\n' then
      (field.map fun cs => String.ofList cs.reverse).toList ++ fieldsOfMarks none ms
    else fieldsOfMarks (some (c :: field.getD [])) ms

def expand (s : Scope) (w : Word) : List String := fieldsOfMarks none (w.flatMap (marks s))

def expandText (s : Scope) (w : Word) : String :=
  String.ofList ((w.flatMap (marks s)).filterMap fun
    | .kept c | .loose c => some c
    | .start => none
    | .cut => some ' ')

end TabPackager.Shell
