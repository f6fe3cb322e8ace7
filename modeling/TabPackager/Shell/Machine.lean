import TabPackager.FileSystem.Refusal
import TabPackager.FileSystem.Operations
import TabPackager.Tool

/-!
# The machine that processes work on

Processes change a common file system and print on their channels, which lead to the streams of
the program or into files.
-/

namespace TabPackager.Shell

inductive Sink where
  | output
  | errors
  | file (identity : Nat)
  | nowhere
  deriving DecidableEq, Repr

structure Machine where
  files : FileSystem
  now : Int
  printed : Printed := {}

abbrev Work := StateM Machine

/-- What a process gets from the one that starts it: its directory, what there is to read, its
channels, and the name under which it complains. -/
structure Surroundings where
  cwd : Location
  input : ByteArray := ByteArray.empty
  output : Sink := .output
  errors : Sink := .errors
  speaker : String := ""

inductive ProcessEnd where
  | exited (status : Nat)
  | killed (signal : Nat)
  deriving DecidableEq, Repr

/-- The end as the starter of the process is told: the number of a signal is negative. -/
def ProcessEnd.code : ProcessEnd → Int
  | exited status => status
  | killed signal => -signal

abbrev Program := Surroundings → List String → Work Nat

def fileContent (files : FileSystem) (identity : Nat) : ByteArray :=
  let found := files.entries.findSome? fun e =>
    match e.2 with
    | .file i (.bytes data) _ => if i = identity then some data else none
    | _ => none
  found.getD ByteArray.empty

def Machine.print (m : Machine) (data : ByteArray) : Sink → Machine
  | .output => { m with printed := m.printed ++ { output := data } }
  | .errors => { m with printed := m.printed ++ { errors := data } }
  | .file i =>
    let content := fileContent m.files i ++ data
    { m with files := m.files.replaceContent i (.bytes content) m.now }
  | .nowhere => m

def printBytes (s : Surroundings) (data : ByteArray) : Work Unit :=
  modify fun m => m.print data s.output

def complain (s : Surroundings) (text : String) : Work Unit :=
  modify fun m => m.print (s.speaker ++ ": " ++ text ++ "\n").toUTF8 s.errors

def reasonText (why : Refusal) : String := (why.describe?.map Prod.snd).getD ""

def look {α : Type} (question : FileSystem → α) : Work α := return question (← get).files

def change (operation : FileSystem → Except Refusal FileSystem) : Work (Except Refusal Unit) := do
  let m ← get
  match operation m.files with
  | .ok files =>
    set { m with files }
    return .ok ()
  | .error why => return .error why

def forEach (s : Surroundings) (act : String → Work (Except String Unit)) :
    List String → Work Nat
  | [] => return 0
  | operand :: operands => do
    match ← act operand with
    | .ok () => forEach s act operands
    | .error text =>
      complain s text
      let _ ← forEach s act operands
      return 1

def splitOptions : List String → List Char × List String
  | [] => ([], [])
  | a :: as =>
    match a.toList with
    | ['-', '-'] => ([], as)
    | '-' :: c :: cs =>
      let (more, operands) := splitOptions as
      (c :: cs ++ more, operands)
    | _ => ([], a :: as)

end TabPackager.Shell
