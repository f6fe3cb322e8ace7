import TabPackager.FileSystem.Basic
import TabPackager.FileSystem.Refusal

/-!
# Resolution of path texts

A path text is walked component by component from a directory. A double dot goes to the parent of
the directory reached, a symbolic link on the way is replaced by its target, and after forty
links the walk is given up. The last component may be absent: then the walk ends at the directory
in which it could be made.
-/

namespace TabPackager.FileSystem

/-- Where a walk ends: at an entry, or beside a name that is still free. -/
inductive Spot where
  | found (loc : Location)
  | free (parent : Location) (name : String)
  deriving DecidableEq, Repr

inductive Descent where
  | arrived (spot : Spot)
  | refused (why : Refusal)
  | detour (here : Location) (target : String) (rest : List String)

def nameLimit : Nat := 255

def textLimit : Nat := 4096

def linkLimit : Nat := 40

def pieces (s : String) : List String := (s.toList.splitOn '/').map String.ofList

/-- Walks from a directory up to the end or to the first link. An empty piece and a dot stay
where they are, but only in a directory. -/
def descend (fs : FileSystem) (followLast : Bool) : Location → List String → Descent
  | here, [] => .arrived (.found here)
  | here, c :: rest =>
    match fs.lookup here with
    | some .directory =>
      if c = "" ∨ c = "." then descend fs followLast here rest
      else if c = ".." then descend fs followLast here.dropLast rest
      else if nameLimit < c.utf8ByteSize then .refused .nameTooLong
      else match fs.lookup (here ++ [c]) with
        | none => if rest.isEmpty then .arrived (.free here c) else .refused .noEntry
        | some (.link target _) =>
          if rest.isEmpty && !followLast then .arrived (.found (here ++ [c]))
          else .detour here target rest
        | some _ => descend fs followLast (here ++ [c]) rest
    | some (.file ..) => .refused .notDirectory
    | _ => .refused .noEntry

def startOf (here : Location) (s : String) : Location :=
  if s.toList.head? = some '/' then [] else here

/-- Walks to the end, following at most the given number of links. -/
def walk (fs : FileSystem) (followLast : Bool) :
    Nat → Location → List String → Except Refusal Spot
  | hops, here, cs =>
    match fs.descend followLast here cs with
    | .arrived spot => .ok spot
    | .refused why => .error why
    | .detour here target rest =>
      match hops with
      | 0 => .error .linkLoop
      | hops + 1 => walk fs followLast hops (startOf here target) (pieces target ++ rest)

def resolve (fs : FileSystem) (followLast : Bool) (cwd : Location) (s : String) :
    Except Refusal Spot :=
  if '\x00' ∈ s.toList then .error .nulByte
  else if s = "" then .error .noEntry
  else if textLimit ≤ s.utf8ByteSize then .error .nameTooLong
  else fs.walk followLast linkLimit (startOf cwd s) (pieces s)

end TabPackager.FileSystem
