import TabPackager.Console
import TabPackager.Fault
import TabPackager.FileSystem.Operations

/-!
# Scripts of file operations

A script is a sequence of operations on files in which each step may depend on the replies so
far, with messages in between. It can be run on its own, or step by step among other scripts: a
step performs one operation on the common file system. A task is a script that may end in a
fault.
-/

namespace TabPackager

/-- What is learnt about a path whose last link is not followed: the target of a link, or the
identity, the number of names and the content of a file; and its time. -/
inductive Examined where
  | directory
  | link (target : String) (modified : Int)
  | file (identity names : Nat) (content : Content) (modified : Int)

inductive FileOp where
  | isFile (p : Path)
  | isDirectory (p : Path)
  | makeDirectory (p : Path)
  | createFile (p : Path)
  | examine (p : Path)
  | contentOf (p : Path)
  | writeFile (p : Path) (content : Content)
  | rename (source target : Path)
  | unlink (p : Path)

namespace FileOp

abbrev Reply : FileOp → Type
  | isFile _ => Bool
  | isDirectory _ => Bool
  | examine _ => Examined
  | contentOf _ => Content × Int
  | _ => Unit

def files : FileOp → String × Option String
  | isFile p => (p.text, none)
  | isDirectory p => (p.text, none)
  | makeDirectory p => (p.text, none)
  | createFile p => (p.text, none)
  | examine p => (p.text, none)
  | contentOf p => (p.text, none)
  | writeFile p _ => (p.text, none)
  | rename p q => (p.text, some q.text)
  | unlink p => (p.text, none)

def examineEntry (fs : FileSystem) : Entry → Examined
  | .directory => .directory
  | .link target modified => .link target modified
  | .file i content modified => .file i (fs.nameCount i) content modified

def look {α : Type} (fs : FileSystem) (r : Except Refusal α) : Except Refusal α × FileSystem :=
  (r, fs)

def change (fs : FileSystem) : Except Refusal FileSystem → Except Refusal Unit × FileSystem
  | .ok fs' => (.ok (), fs')
  | .error why => (.error why, fs)

/-- Performs an operation in a current directory at a time. -/
def perform (cwd : Location) (now : Int) (fs : FileSystem) :
    (op : FileOp) → Except Refusal op.Reply × FileSystem
  | isFile p => look fs (fs.isFile cwd p.text)
  | isDirectory p => look fs (fs.isDirectory cwd p.text)
  | makeDirectory p => change fs (fs.makeDirectory cwd p.text)
  | createFile p => change fs (fs.createFile cwd p.text now)
  | examine p => look fs ((fs.lstat cwd p.text).map fun found => examineEntry fs found.2)
  | contentOf p => look fs (fs.contentOf cwd p.text)
  | writeFile p content => change fs (fs.writeFile cwd p.text content now)
  | rename p q => change fs (fs.rename cwd p.text q.text)
  | unlink p => change fs (fs.unlink cwd p.text)

end FileOp

/-- A sequence of operations and messages that ends with a result. -/
inductive Script (α : Type) where
  | done (a : α)
  | op (o : FileOp) (next : Except Refusal o.Reply → Script α)
  | say (m : Message) (next : Script α)

namespace Script

variable {α β : Type}

def bind : Script α → (α → Script β) → Script β
  | done a, f => f a
  | op o next, f => op o fun r => bind (next r) f
  | say m next, f => say m (bind next f)

instance : Monad Script where
  pure := done
  bind := bind

@[simp] theorem bind_done (a : α) (f : α → Script β) : bind (done a) f = f a := rfl

def run (cwd : Location) (now : Int) : Script α → FileSystem → α × FileSystem × List Message
  | done a, fs => (a, fs, [])
  | op o next, fs =>
    let (reply, fs') := o.perform cwd now fs
    run cwd now (next reply) fs'
  | say m next, fs =>
    let (a, fs', log) := run cwd now next fs
    (a, fs', m :: log)

def step (cwd : Location) (now : Int) : Script α → FileSystem → Script α × FileSystem
  | done a, fs => (done a, fs)
  | op o next, fs =>
    let (reply, fs') := o.perform cwd now fs
    (next reply, fs')
  | say _ next, fs => (next, fs)

end Script

abbrev Task := ExceptT Fault Script

namespace Task

variable {α : Type}

def call (o : FileOp) : Task o.Reply :=
  .mk (.op o fun
    | .ok r => .done (.ok r)
    | .error why => .done (.error (Fault.ofRefusal why (some o.files.1) o.files.2)))

def attempt (o : FileOp) : Task (Except Refusal o.Reply) := .mk (.op o fun r => .done (.ok r))

def say (m : Message) : Task Unit := .mk (.say m (.done (.ok ())))

/-- Does the second task after the first, however the first ends, and ends as the first. -/
def thenAlways (t : Task α) (after : Task Unit) : Task α :=
  .mk (Script.bind t.run fun r => Script.bind after.run fun
    | .ok () => .done r
    | .error f => .done (.error f))

end Task

end TabPackager
