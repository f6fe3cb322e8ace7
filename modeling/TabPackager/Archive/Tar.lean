import TabPackager.Archive
import TabPackager.Number.Shortest

/-!
# Tar members

The headers of a tar archive. A header has room for a hundred characters of ASCII in a name or a
link target and for whole seconds, so that every member is preceded by an extended header with
what does not fit, as records that begin with their own length.
-/

namespace TabPackager

namespace TarEntry

variable {β : Type} (e : TarEntry β)

def nameRoom : Nat := 100

def fits (s : String) : Bool := isAscii s && decide (s.length ≤ nameRoom)

def linkTarget : String :=
  match e.body with
  | .file .. => ""
  | .symlink t => t
  | .hardlink t => t

def secondsText (nanoseconds : Int) : String :=
  let whole := Binary64.ofInt (nanoseconds.fdiv 1000000000)
  let part := Binary64.ofInt (nanoseconds.fmod 1000000000)
  (whole.add ((Binary64.ofDecimal false 1 (-9)).mul part)).text

def records : List (String × String) :=
  (if fits e.linkTarget then [] else [("linkpath", e.linkTarget)]) ++
    [("mtime", secondsText e.modified)] ++
    (if fits e.name then [] else [("path", e.name)])

def headerText (s : String) : String := String.ofList (s.toList.takeWhile (· != '\x00'))

def withoutSlashes (s : String) : String :=
  String.ofList (s.toList.reverse.dropWhile (· == '/')).reverse

/-- The name of the member as it is read back. -/
def storedName : String := if fits e.name then headerText e.name else withoutSlashes e.name

def storedTarget : String :=
  if fits e.linkTarget then headerText e.linkTarget else e.linkTarget

/-- The length of a record with its length in front, from the length of the rest: the least
number that counts itself. -/
def recordLength (rest : Nat) : Nat :=
  let once := rest + (toString rest).length
  rest + (toString once).length

def recordSize (r : String × String) : Nat :=
  recordLength (r.1.utf8ByteSize + r.2.utf8ByteSize + 3)

def block : Nat := 512

def blocks (n : Nat) : Nat := (n + block - 1) / block * block

def dataSize : Nat :=
  match e.body with
  | .file size _ => size
  | _ => 0

/-- The bytes that the member takes in the archive: the extended header and its records, the
header, and the data. -/
def size : Nat :=
  block + blocks ((e.records.map recordSize).foldr (· + ·) 0) + block + blocks e.dataSize

def recordBlock : Nat := 10240

end TarEntry

/-- The bytes of a tar archive: the members, two empty blocks, and the filling. -/
def tarSize {β : Type} (entries : List (TarEntry β)) : Nat :=
  let n := (entries.map TarEntry.size).foldr (· + ·) 0 + 2 * TarEntry.block
  (n + TarEntry.recordBlock - 1) / TarEntry.recordBlock * TarEntry.recordBlock

end TabPackager
