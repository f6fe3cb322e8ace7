import TabPackager.Fault
import TabPackager.FileSystem.Operations
import TabPackager.Text.Blank

/-!
# Canonical paths

The directory that a path stands for, written without links and double dots. A tilde in front is
replaced by a home directory, then links are replaced one by one from the left, and what is not
there is kept as it is. A link that leads back to itself stands where it is met, and is refused in
the end when the path is looked up. Links in the targets of links are replaced to a depth only.
-/

namespace TabPackager.FileSystem

/-- The links met on the way, the latest first, each with where it leads when that is known. -/
abbrev Met := List (Path × Option Path)

def joinRest (p : Path) (rest : List String) : Path :=
  p / Path.parse ("/".intercalate rest)

def ascend (p : Path) : Path :=
  if p.anchor = .relative ∧ (p.parts = [] ∨ p.name = "..") then p.child ".." else p.parent

def linkStart (p : Path) (target : String) : Path :=
  if target.toList.head? = some '/' then ⟨.root, [], List.forall_mem_nil _⟩ else p

/-- Replaces the links in the pieces after a path; `follow` replaces those in the target of a
link. Beside the path it says whether no link led back to itself. -/
def replaceLinks (fs : FileSystem) (cwd : Location)
    (follow : Met → Path → List String → Option (Path × Bool × Met)) :
    Met → Path → List String → Option (Path × Bool × Met)
  | met, p, [] => some (p, true, met)
  | met, p, name :: rest =>
    if name = "" ∨ name = "." then replaceLinks fs cwd follow met p rest
    else if name = ".." then replaceLinks fs cwd follow met (ascend p) rest
    else
      let next := p.child name
      match fs.lstat cwd next.text with
      | .ok (_, .link target _) =>
        match met.lookup next with
        | some (some there) => replaceLinks fs cwd follow met there rest
        | some none => some (joinRest next rest, false, met)
        | none =>
          match follow ((next, none) :: met) (linkStart p target) (pieces target) with
          | none => none
          | some (there, true, met) =>
            replaceLinks fs cwd follow ((next, some there) :: met) there rest
          | some (there, false, met) => some (joinRest there rest, false, met)
      | _ => replaceLinks fs cwd follow met next rest

def followLinks (fs : FileSystem) (cwd : Location) :
    Nat → Met → Path → List String → Option (Path × Bool × Met)
  | 0 => replaceLinks fs cwd fun _ _ _ => none
  | depth + 1 => replaceLinks fs cwd (followLinks fs cwd depth)

def linkDepth : Nat := 986

/-- The absolute path without links and double dots, unless links lead to links too deep. -/
def canonical (fs : FileSystem) (cwd : Path) (p : Path) : Option Path :=
  let start := linkStart Path.current p.text
  (followLinks fs cwd.parts linkDepth [] start (pieces p.text)).map fun found =>
    (cwd / found.1).normalize

structure Homes where
  own : Option String
  accounts : List (String × String)

def trimHome (home : String) : String :=
  let chars := Text.trimEnd (· == '/') home.toList
  if chars = [] then "/" else String.ofList chars

/-- The home directory that the first component of a path stands for, if it starts with a tilde. A
home directory that starts with a tilde itself counts as none. -/
def homeOf? (homes : Homes) (name : String) : Option String :=
  let found := match name.toList with
    | ['~'] => homes.own
    | '~' :: account => homes.accounts.lookup (String.ofList account)
    | _ => none
  (found.map trimHome).filter fun home => home.toList.head? != some '~'

/-- The path with a tilde in front replaced. No account has a name with a NUL byte in it. -/
def expandHome (homes : Homes) (p : Path) : Except Fault Path :=
  match p with
  | ⟨.relative, first :: rest, h⟩ =>
    if first.toList.head? = some '~' then
      if '\x00' ∈ first.toList then .error (.escape .nulByte)
      else match homeOf? homes first with
      | some home =>
        let q := Path.parse home
        .ok ⟨q.anchor, q.parts ++ rest, fun s hs =>
          (List.mem_append.1 hs).elim (q.isComponent s) fun hr => h s (List.mem_cons_of_mem first hr)⟩
      | none => .error (.escape .homeUnknown)
    else .ok p
  | _ => .ok p

/-- The directory that a path stands for. A path whose links lead round in a circle, or too deep,
stands for none. -/
def directoryOf (fs : FileSystem) (homes : Homes) (cwd p : Path) : Except Fault Path := do
  let p ← expandHome homes p
  if '\x00' ∈ p.text.toList then throw (.escape .nulByte)
  match fs.canonical cwd p with
  | none => throw (.escape (.rejected (.depth .either)))
  | some there =>
    match fs.stat cwd.parts there.text with
    | .error .linkLoop => throw (.escape (.linkLoop there.text))
    | _ => return there

end TabPackager.FileSystem
