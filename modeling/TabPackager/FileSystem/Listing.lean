import TabPackager.FileSystem.Operations
import TabPackager.Path

/-!
# Listings

A file system built from a list of items, and listed again. Placing an item makes the directories
on the way to it; a file takes the place of the content of the file that is there.
-/

namespace TabPackager.FileSystem

inductive Item where
  | directory
  | file (data : ByteArray)
  | link (target : String)
  | sameFile (existing : String)

abbrev Refused := Refusal × String

/-- A file system, and the first refusal on the way to it if there was one. -/
abbrev Placed := FileSystem × Option Refused

def placed (fs : FileSystem) (s : String) : Except Refusal FileSystem → Placed
  | .ok fs' => (fs', none)
  | .error why => (fs, some (why, s))

def ensureDirectory (fs : FileSystem) (cwd : Location) (s : String) : Placed :=
  match fs.isDirectory cwd s with
  | .ok true => (fs, none)
  | _ => placed fs s (fs.makeDirectory cwd s)

def ensureDirectories (fs : FileSystem) (cwd : Location) (p : Path) : Nat → Placed
  | 0 => (fs, none)
  | n + 1 =>
    match ensureDirectories fs cwd p.parent n with
    | (fs, none) => ensureDirectory fs cwd p.text
    | failed => failed

def place (fs : FileSystem) (cwd : Location) (p : Path) (item : Item) (modified : Int) :
    Placed :=
  let parent := p.parent
  match ensureDirectories fs cwd parent parent.parts.length with
  | (fs, none) =>
    match item with
    | .directory => ensureDirectory fs cwd p.text
    | .file data => placed fs p.text (fs.writeFile cwd p.text (.bytes data) modified)
    | .link target => placed fs p.text (fs.create cwd p.text (.link target modified))
    | .sameFile existing => placed fs p.text (fs.linkFile cwd existing p.text)
  | failed => failed

/-- The way from one location to another: a double dot for every level to leave. -/
def wayFrom : Location → Location → List String
  | a :: as, b :: bs =>
    if a = b then wayFrom as bs else ".." :: as.map (fun _ => "..") ++ b :: bs
  | as, bs => as.map (fun _ => "..") ++ bs

def Entry.mark : Entry → String
  | .directory => "/"
  | .file .. => ""
  | .link .. => "@"

/-- The paths below a location, as seen from another, each with the mark of its kind. The place
that they are seen from is a dot. -/
def listing (fs : FileSystem) (top seenFrom : Location) : List String :=
  let below := fs.entries.filter fun e => top.isPrefixOf e.1 && e.1 != top
  let texts := below.map fun (loc, e) =>
    let way := wayFrom seenFrom loc
    (if way.isEmpty then "." else "/".intercalate way) ++ Entry.mark e
  texts.mergeSort fun a b => decide (a ≤ b)

end TabPackager.FileSystem
