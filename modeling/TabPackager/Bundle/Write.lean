import TabPackager.Archive.Tar
import TabPackager.Bundle.Compression
import TabPackager.FileSystem.Script

/-!
# Writing bundles

A bundle is written as a script of file operations. The archive is made in a file of its own
beside the target and moved into place when it is complete, so that the target is never seen half
written; a tar archive that is to be compressed has a second file. Both are taken away again
however the writing ends. Nothing is done for a suffix without a format or a member that is no
file.
-/

namespace TabPackager.Bundle

structure Member where
  path : Path
  name : String

structure Scratch where
  archive : String
  tar : String
  deriving DecidableEq, Repr

/-- What goes wrong outside the file system while an archive is written: the storing of a member,
by its number, and the compression. -/
structure Mishaps where
  storing : Nat → Option OsError := fun _ => none
  compressing : Option String := none

instance : Inhabited Mishaps := ⟨{}⟩

/-- The size of a file's content in bytes. The length of a compressed archive is not modelled. -/
def contentSize : Content → Nat
  | .bytes data => data.size
  | .archive (.tar entries) => tarSize entries
  | _ => 0

def withoutRoot (s : String) : String := String.ofList (s.toList.dropWhile (· == '/'))

/-- The tar member of what a path shows. `stored` holds the files with several names that have
been stored already, with the name of the member; one that comes again under another name becomes
a link to it. Directories are not stored. -/
def tarEntry? (stored : List (Nat × String)) (name : String) :
    Examined → Option (TarEntry Content)
  | .directory => none
  | .link target modified => some ⟨withoutRoot name, modified, .symlink target⟩
  | .file identity names content modified =>
    let name := withoutRoot name
    match if 1 < names then stored.lookup identity else none with
    | some first =>
      if first = name then some ⟨name, modified, .file (contentSize content) content⟩
      else some ⟨name, modified, .hardlink first⟩
    | none => some ⟨name, modified, .file (contentSize content) content⟩

def noteStored (stored : List (Nat × String)) (name : String) (e : TarEntry Content) :
    Examined → List (Nat × String)
  | .file identity .. =>
    match e.body with
    | .hardlink _ => stored
    | _ => (identity, withoutRoot name) :: stored
  | _ => stored

/-- The name under which a zip archive stores a member: double dots and repeated slashes taken
away, without slashes at its start, up to a zero byte. -/
def zipName? (name : String) : Option String :=
  let p := (Path.parse name).normalize
  let text := if p.isAbsolute then "/".intercalate p.parts else p.text
  let stored := TarEntry.headerText text
  if text = "" ∨ stored = "" then none else some stored

def zipEntry (name : String) (content : Content) (modified : Int) : ZipEntry Content :=
  let seconds := modified.fdiv 1000000000
  let (year, month, day) := Date.ofDayNumber (seconds.fdiv 86400)
  let clock := (seconds.fmod 86400).toNat
  let isDirectory := name.toList.getLast? = some '/'
  let entry (y m d h mi s : Nat) : ZipEntry Content :=
    ⟨name, y, m, d, h, mi, s, !isDirectory,
      if isDirectory then .bytes ByteArray.empty else content⟩
  if year < 1980 then entry 1980 1 1 0 0 0
  else if 2107 < year then entry 2107 12 31 23 59 58
  else entry year.toNat month day (clock / 3600) (clock / 60 % 60) (clock % 60 / 2 * 2)

section

variable (mishaps : Mishaps)

def mayStore (number : Nat) : Task Unit :=
  match mishaps.storing number with
  | some e => throw (.os e)
  | none => pure ()

def storeTar (file : Path) (number : Nat) (stored : List (Nat × String))
    (entries : List (TarEntry Content)) : List Member → Task (List (TarEntry Content))
  | [] => pure entries
  | m :: ms => do
    mayStore mishaps number
    let seen ← Task.call (.examine m.path)
    match tarEntry? stored m.name seen with
    | none => storeTar file (number + 1) stored entries ms
    | some e =>
      let entries := entries ++ [e]
      Task.call (.writeFile file (.draft (.tar entries)))
      storeTar file (number + 1) (noteStored stored m.name e seen) entries ms

def storeZip (file : Path) (number : Nat) (entries : List (ZipEntry Content)) :
    List Member → Task (List (ZipEntry Content))
  | [] => pure entries
  | m :: ms => do
    mayStore mishaps number
    let (content, modified) ← Task.call (.contentOf m.path)
    match zipName? m.name with
    | none => throw (.escape .emptyName)
    | some name =>
      let entries := entries ++ [zipEntry name content modified]
      Task.call (.writeFile file (.draft (.zip entries)))
      storeZip file (number + 1) entries ms

def discard (file : Path) : Task Unit := do
  match ← Task.attempt (.unlink file) with
  | .ok () => return ()
  | .error .noEntry => return ()
  | .error why => throw (Fault.ofRefusal why (some file.text))

def writeTar (file : Path) (members : List Member) : Task (List (TarEntry Content)) := do
  Task.call (.createFile file)
  let write : Task (List (TarEntry Content)) := do
    Task.call (.writeFile file (.draft (.tar [])))
    let entries ← storeTar mishaps file 0 [] [] members
    Task.call (.writeFile file (.archive (.tar entries)))
    return entries
  tryCatch write fun f => do
    discard file
    throw f

/-- Writes the archive of a format to a file. The stream of a gzip archive is labelled with the
name of the file that it is written to. -/
def writeArchive (format : Format) (members : List Member) (target output tarPath : Path) :
    Task Unit := do
  if format = .zip then
    Task.call (.writeFile output (.draft (.zip [])))
    let entries ← storeZip mishaps output 0 [] members
    Task.call (.writeFile output (.archive (.zip entries)))
  else
    let entries ← writeTar mishaps tarPath members
    let pack (a : Archive Content) (empty : Archive Content) : Task Unit := do
      Task.call (.writeFile output (.draft empty))
      match if format = .zstd then mishaps.compressing else none with
      | some reason => throw (.bundle (.compression target reason))
      | none => Task.call (.writeFile output (.archive a))
    let finish : Task Unit :=
      match format with
      | .zstd =>
        let c := compressionFor (tarSize entries) none
        pack (.zstd c.checksum c.windowLog entries) (.zstd c.checksum c.windowLog [])
      | .gzip => pack (.gzip output.name 0 entries) (.gzip output.name 0 [])
      | _ => Task.call (.rename tarPath output)
    finish.thenAlways (discard tarPath)

end

/-- Makes a directory and the ones above it that are missing, given how many there may be. What
is there already is left, if it is a directory. -/
def makeDirectories : Nat → Path → Task Unit
  | depth, p => do
    let settle (why : Refusal) : Task Unit := do
      let there ← if why = .nulByte then pure false else Task.call (.isDirectory p)
      if there then pure () else throw (Fault.ofRefusal why (some p.text))
    match ← Task.attempt (.makeDirectory p) with
    | .ok () => return ()
    | .error .noEntry =>
      match depth with
      | 0 => throw (Fault.ofRefusal .noEntry (some p.text))
      | depth + 1 =>
        makeDirectories depth p.parent
        match ← Task.attempt (.makeDirectory p) with
        | .ok () => return ()
        | .error .noEntry => throw (Fault.ofRefusal .noEntry (some p.text))
        | .error why => settle why
    | .error why => settle why

def refused {α : Type} : Except Error α → Task α
  | .ok a => pure a
  | .error e => throw (.bundle e)

def checkMembers : List Member → Task Unit
  | [] => pure ()
  | m :: ms => do
    if ← Task.call (.isFile m.path) then checkMembers ms
    else throw (.bundle (.missingMember m.path))

/-- The directory in which the files used while writing lie: the target's own, its double dots
taken away by text. -/
def scratchDirectory (cwd target : Path) : Path := (cwd / target.parent).normalize

def write (cwd : Path) (dryRun : Bool) (scratch : Scratch) (mishaps : Mishaps)
    (members : List Member) (target : Path) : Task Unit := do
  let format ← refused (formatOf target)
  if dryRun then
    let names := ", ".intercalate (members.map (·.name))
    Task.say (.dry s!"Would bundle {names} into {target}")
  else
    checkMembers members
    makeDirectories target.parent.parts.length target.parent
    Task.say (.debug s!"Writing {format.name} bundle {target}")
    let directory := scratchDirectory cwd target
    let partialFile := directory.child scratch.archive
    let tarPath := directory.child scratch.tar
    Task.call (.createFile partialFile)
    let fill : Task Unit := do
      writeArchive mishaps format members target partialFile tarPath
      Task.call (.rename partialFile target)
    fill.thenAlways (discard partialFile)

end TabPackager.Bundle
