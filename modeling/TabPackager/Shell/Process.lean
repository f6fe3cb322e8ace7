import TabPackager.Shell.Expansion
import TabPackager.Shell.Programs

/-!
# Processes

A tool is started as a process: its directory is entered, the program that its command names is
looked up, and the program does its work. The machine has a shell and a few everyday programs in
the directories of its search path; nothing else on it can be carried out. The shell carries out
the commands of a script one after the other, and ends with the last one, when it is told to exit,
or by a signal to itself.
-/

namespace TabPackager.Shell

def searchPath : List Location :=
  [["usr", "local", "bin"], ["usr", "bin"], ["bin"]]

def shellNames : List String := ["sh", "dash"]

def isInstalled (name : String) : Bool :=
  shellNames.contains name || (programs.lookup name).isSome

def programAt? (loc : Location) : Option String :=
  if searchPath.contains loc.dropLast then loc.getLast?.filter isInstalled else none

/-- The program of a name. Names without a slash are looked for in the search path, where the
dots lead to directories. -/
def findProgram (fs : FileSystem) (cwd : Location) (name : String) : Except Refusal String := do
  if '/' ∈ name.toList then
    match ← fs.resolve true cwd name with
    | .found loc => (programAt? loc).elim (.error .permission) .ok
    | .free parent name => (programAt? (parent ++ [name])).elim (.error .noEntry) .ok
  else if name = "" ∨ name = "." ∨ name = ".." then .error .permission
  else if isInstalled name then .ok name
  else if FileSystem.nameLimit < name.utf8ByteSize then .error .nameTooLong
  else .error .noEntry

/-- The work of a shell, which its end cuts short. -/
abbrev Evaluation := ExceptT ProcessEnd (StateT Scope Work)

def work {α : Type} (w : Work α) : Evaluation α := ExceptT.lift (StateT.lift w)

def openReason (absent : String) : Refusal → String
  | .noEntry | .notDirectory => absent
  | why => reasonText why

def nullDevice : String := "/dev/null"

def openFile (cwd : Location) (name : String) (extend : Bool) : Work (Except Refusal Sink) := do
  if name = nullDevice then return .ok .nowhere
  let m ← get
  if !(extend && (m.files.stat cwd name).isOk) then
    if let .error why ← change fun fs => fs.writeFile cwd name (.bytes ByteArray.empty) m.now then
      return .error why
  match (← get).files.stat cwd name with
  | .ok (_, .file i _ _) => return .ok (.file i)
  | .ok _ => return .error .isDirectory
  | .error why => return .error why

def redirect (scope : Scope) (s : Surroundings) (r : Redirection) :
    Work (Except String Surroundings) := do
  let target := expandText scope r.target
  let lead (sink : Sink) : Surroundings :=
    if r.channel = 1 then { s with output := sink }
    else if r.channel = 2 then { s with errors := sink } else s
  match r.opening with
  | .copy =>
    if target = "1" then return .ok (lead s.output)
    else if target = "2" then return .ok (lead s.errors)
    else return .error ("Bad fd number: " ++ target)
  | .read =>
    match ← look fun fs => fs.contentOf s.cwd target with
    | .ok (.bytes input, _) => return .ok { s with input }
    | .ok _ => return .ok s
    | .error why =>
      return .error ("cannot open " ++ target ++ ": " ++ openReason "No such file" why)
  | opening =>
    match ← openFile s.cwd target (opening = .extend) with
    | .ok sink => return .ok (lead sink)
    | .error why =>
      let reason := openReason "Directory nonexistent" why
      return .error ("cannot create " ++ target ++ ": " ++ reason)

def redirectAll (scope : Scope) :
    Surroundings → List Redirection → Work (Except String Surroundings)
  | s, [] => return .ok s
  | s, r :: rs => do
    match ← redirect scope s r with
    | .ok s => redirectAll scope s rs
    | .error text => return .error text

def signalNames : List String :=
  ["HUP", "INT", "QUIT", "ILL", "TRAP", "ABRT", "BUS", "FPE", "KILL", "USR1", "SEGV", "USR2",
    "PIPE", "ALRM", "TERM"]

def signal? (s : String) : Option Nat :=
  ((signalNames.idxOf? s).map (· + 1)) <|> ((Text.natOfChars? 10 s.toList).filter (· ≤ 64))

/-- Sends a signal; the shell can only reach itself. -/
def kill (s : Surroundings) (arguments : List String) : Evaluation Nat := do
  let (signal, targets) := match (arguments.headD "").toList with
    | '-' :: name => (signal? (String.ofList name), arguments.tail)
    | _ => (some 15, arguments)
  match signal with
  | none =>
    work (complain s ("Illegal option " ++ arguments.headD ""))
    return 2
  | some n =>
    if targets.contains ownNumber && n != 0 then throw (.killed n)
    if targets.all (· = ownNumber) then return 0
    work (complain s "No such process\n")
    return 1

def exit (s : Surroundings) (arguments : List String) : Evaluation Nat := do
  match arguments with
  | [] => throw (.exited (← get).status)
  | a :: _ =>
    match Text.natOfChars? 10 a.toList with
    | some n => throw (.exited (n % 256))
    | none =>
      work (complain s ("Illegal number: " ++ a))
      throw (.exited 2)

def runFields (s : Surroundings) (fields : List String) : Evaluation Nat := do
  let name := fields.headD ""
  let arguments := fields.tail
  let named := { s with speaker := s.speaker ++ ": " ++ name }
  if fields.isEmpty ∨ name = ":" then return 0
  else if name = "exit" then exit named arguments
  else if name = "kill" then kill named arguments
  else if name = "echo" then work (echoWith true named arguments)
  else
    match ← work (look fun fs => findProgram fs s.cwd name) with
    | .ok found =>
      match programs.lookup found with
      | some program => work (program { s with speaker := name } arguments)
      | none => return 126
    | .error why =>
      work (complain s (name ++ ": " ++ openReason "not found" why))
      return if why = .noEntry ∨ why = .notDirectory then 127 else 126

def runCommand (s : Surroundings) (c : Command) : Evaluation Nat := do
  let scope ← get
  let fields := c.words.flatMap (expand scope)
  if fields.isEmpty then
    set (c.assignments.foldl (fun scope a => scope.set a.1 (expandText scope a.2)) scope)
  match ← work (redirectAll scope s c.redirections) with
  | .ok s => runFields s fields
  | .error text =>
    work (complain s text)
    return 2

def Joint.allows (status : Nat) : Joint → Bool
  | .always => true
  | .onSuccess => status == 0
  | .onFailure => status != 0

def runCommands (s : Surroundings) : List Command → Evaluation Unit
  | [] => return ()
  | c :: rest => do
    if c.joint.allows (← get).status then
      let status ← runCommand s c
      modify fun scope => { scope with status }
    runCommands s rest

def runShell (environment : List (String × String)) (s : Surroundings) (program : String)
    (arguments : List String) : Work ProcessEnd := do
  let operands := (splitOptions arguments).2
  let scope : Scope :=
    { program := operands.tail.headD program, arguments := operands.drop 2, bindings := environment }
  let s := { s with speaker := scope.program ++ ": 1" }
  match readCommands (operands.headD "") with
  | none =>
    complain s "Syntax error"
    return .exited 2
  | some commands =>
    match ← (runCommands s commands).run.run scope with
    | (.ok (), scope) => return .exited scope.status
    | (.error ending, _) => return ending

def runProgram (environment : List (String × String)) (s : Surroundings) (name found : String)
    (arguments : List String) : Work ProcessEnd := do
  match programs.lookup found with
  | some program => return .exited (← program { s with speaker := name } arguments)
  | none => runShell environment s name arguments

def startError (why : Refusal) (file : String) : ToolEnd :=
  match why.describe? with
  | some (number, reason) => .failed { number, reason, file := some file }
  | none => .escaped .nulByte

def enter (fs : FileSystem) (cwd : Location) (directory : String) : Except Refusal Location := do
  match ← fs.stat cwd directory with
  | (loc, .directory) => .ok loc
  | _ => .error .notDirectory

def runTool (environment : List (String × String)) (cwd : Path) (now : Int) (c : Invocation)
    (files : FileSystem) : ToolRun :=
  let directory := (c.directory.getD cwd).text
  match c.command with
  | [] => { files, ending := .escaped .emptyCommand }
  | name :: arguments =>
    if (directory :: c.command).any fun s => s.toList.contains '\x00' then
      { files, ending := .escaped .nulByte }
    else
      match enter files cwd.parts directory with
      | .error why => { files, ending := startError why directory }
      | .ok loc =>
        match findProgram files loc name with
        | .error why => { files, ending := startError why name }
        | .ok found =>
          let (ending, m) :=
            (runProgram environment { cwd := loc } name found arguments).run { files, now }
          { files := m.files, ending := .exited ending.code, printed := m.printed }

def tools (environment : List (String × String)) (cwd : Path) (now : Int) : Tools :=
  fun _ c files => runTool environment cwd now c files

end TabPackager.Shell
