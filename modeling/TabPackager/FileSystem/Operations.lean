import TabPackager.FileSystem.Resolve

/-!
# Operations on files

The system calls of the program, each a function of the file system, the current directory and
one or two path texts. A refused operation leaves the file system as it was, which is why the
operations return a new file system only on success.
-/

namespace TabPackager.FileSystem

variable (fs : FileSystem) (cwd : Location)

def stat (s : String) : Except Refusal (Location × Entry) := do
  match ← fs.resolve true cwd s with
  | .free .. => .error .noEntry
  | .found loc =>
    match fs.lookup loc with
    | some e => .ok (loc, e)
    | none => .error .noEntry

def lstat (s : String) : Except Refusal (Location × Entry) := do
  match ← fs.resolve false cwd s with
  | .free .. => .error .noEntry
  | .found loc =>
    match fs.lookup loc with
    | some e => .ok (loc, e)
    | none => .error .noEntry

/-- Whether a refusal only means that nothing of the kind asked for is there. -/
def Refusal.isAbsence : Refusal → Bool
  | .noEntry | .notDirectory | .linkLoop | .nulByte => true
  | _ => false

def probe (test : Entry → Bool) (s : String) : Except Refusal Bool :=
  match fs.stat cwd s with
  | .ok (_, e) => .ok (test e)
  | .error why => if Refusal.isAbsence why then .ok false else .error why

def isDirectory (s : String) : Except Refusal Bool :=
  fs.probe cwd (fun | .directory => true | _ => false) s

def isFile (s : String) : Except Refusal Bool :=
  fs.probe cwd (fun | .file .. => true | _ => false) s

def contentOf (s : String) : Except Refusal (Content × Int) := do
  match ← fs.stat cwd s with
  | (_, .file _ content modified) => .ok (content, modified)
  | (_, _) => .error .isDirectory

def makeDirectory (s : String) : Except Refusal FileSystem := do
  match ← fs.resolve false cwd s with
  | .found _ => .error .occupied
  | .free parent name => .ok (fs.insert (parent ++ [name]) .directory)

def create (s : String) (e : Entry) : Except Refusal FileSystem := do
  match ← fs.resolve false cwd s with
  | .found _ => .error .occupied
  | .free parent name => .ok (fs.insert (parent ++ [name]) e)

def createFile (s : String) (now : Int) : Except Refusal FileSystem :=
  fs.create cwd s (.file fs.freshIdentity (.bytes ByteArray.empty) now)

/-- Gives a file new content, and makes it where nothing stands; links are followed. -/
def writeFile (s : String) (content : Content) (now : Int) : Except Refusal FileSystem := do
  match ← fs.resolve true cwd s with
  | .free parent name =>
    .ok (fs.insert (parent ++ [name]) (.file fs.freshIdentity content now))
  | .found loc =>
    match fs.lookup loc with
    | some (.file identity _ _) => .ok (fs.replaceContent identity content now)
    | _ => .error .isDirectory

def linkFile (existing new : String) : Except Refusal FileSystem := do
  match ← fs.lstat cwd existing with
  | (_, .directory) => .error .permission
  | (_, e) => fs.create cwd new e

/-- Moves a file or a link onto a name, taking the place of what stood there unless that is a
directory. Two names of one file stay as they are. -/
def rename (source target : String) : Except Refusal FileSystem := do
  let (loc, e) ← fs.lstat cwd source
  match ← fs.resolve false cwd target with
  | .free parent name => .ok ((fs.erase loc).insert (parent ++ [name]) e)
  | .found there =>
    match fs.lookup there, Entry.identity? e with
    | some .directory, _ => .error .isDirectory
    | some (.file i _ _), some j =>
      .ok (if i = j then fs else (fs.erase loc).insert there e)
    | _, _ => .ok ((fs.erase loc).insert there e)

def unlink (s : String) : Except Refusal FileSystem := do
  match ← fs.lstat cwd s with
  | (_, .directory) => .error .isDirectory
  | (loc, _) => .ok (fs.erase loc)

end TabPackager.FileSystem
