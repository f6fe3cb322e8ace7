import TabPackager.Text.Split

/-!
# Paths

A path is an anchor and a list of components. Reading a path text drops repeated slashes and
single dots and keeps double dots; a text that starts with exactly two slashes has an anchor of
its own. Joining an absolute path to another replaces it.
-/

namespace TabPackager

/-- What a path starts from: the current directory, the root, or the root in its spelling with
two slashes. -/
inductive Anchor where
  | relative
  | root
  | doubleRoot
  deriving DecidableEq, Repr

def Anchor.text : Anchor → String
  | .relative => ""
  | .root => "/"
  | .doubleRoot => "//"

def IsComponent (s : String) : Prop := s ≠ "" ∧ s ≠ "." ∧ '/' ∉ s.toList

instance : DecidablePred IsComponent := fun s => by unfold IsComponent; infer_instance

def pathComponents (cs : List Char) : List String :=
  ((cs.splitOn '/').map String.ofList).filter fun s => decide (s ≠ "" ∧ s ≠ ".")

theorem isComponent_of_mem_pathComponents {cs : List Char} {s : String}
    (h : s ∈ pathComponents cs) : IsComponent s := by
  simp only [pathComponents, List.mem_filter, List.mem_map, decide_eq_true_eq] at h
  obtain ⟨⟨p, hp, rfl⟩, h1, h2⟩ := h
  exact ⟨h1, h2, by rw [String.toList_ofList]; exact Text.not_mem_of_mem_splitOn hp⟩

structure Path where
  anchor : Anchor
  parts : List String
  isComponent : ∀ s ∈ parts, IsComponent s
  deriving DecidableEq, Repr

namespace Path

@[ext] theorem ext {p q : Path} (h : p.anchor = q.anchor) (h' : p.parts = q.parts) : p = q := by
  cases p; cases q; simp_all

def anchorOf : List Char → Anchor
  | '/' :: '/' :: '/' :: _ => .root
  | '/' :: '/' :: _ => .doubleRoot
  | '/' :: _ => .root
  | _ => .relative

/-- The path written by a text. -/
def parse (s : String) : Path :=
  ⟨anchorOf s.toList, pathComponents s.toList, fun _ h => isComponent_of_mem_pathComponents h⟩

def current : Path := ⟨.relative, [], by simp⟩

instance : Inhabited Path := ⟨current⟩

def text (p : Path) : String :=
  if p.anchor = .relative ∧ p.parts = [] then "." else p.anchor.text ++ "/".intercalate p.parts

instance : ToString Path := ⟨text⟩

def isAbsolute (p : Path) : Bool := p.anchor != .relative

/-- The second path taken from the first; an absolute second path stands alone. -/
def join (p q : Path) : Path :=
  if q.anchor = .relative then
    ⟨p.anchor, p.parts ++ q.parts, fun s h =>
      (List.mem_append.1 h).elim (p.isComponent s) (q.isComponent s)⟩
  else q

instance : Div Path := ⟨join⟩

def child (p : Path) (s : String) : Path := p / parse s

def name (p : Path) : String := p.parts.getLast?.getD ""

def parent (p : Path) : Path :=
  ⟨p.anchor, p.parts.dropLast, fun s h => p.isComponent s (List.dropLast_subset _ h)⟩

/-- The end of a name from its last dot on, when the dot is neither its first nor its last
character. -/
def suffixChars (name : List Char) : List Char :=
  let after := (name.reverse.takeWhile (· != '.')).reverse
  let before := (name.reverse.dropWhile (· != '.')).reverse
  if after = [] ∨ before.length ≤ 1 then [] else '.' :: after

def suffix (p : Path) : String := String.ofList (suffixChars p.name.toList)

/-- The components left when each double dot takes away the one before it. Before the first one
nothing is left to take: at the root the double dot vanishes, else it stays. -/
def foldDots (absolute : Bool) : List String → List String → List String
  | done, [] => done.reverse
  | done, c :: cs =>
    if c = ".." then
      match done with
      | [] => foldDots absolute (if absolute then [] else [".."]) cs
      | d :: ds =>
        if d = ".." then foldDots absolute (".." :: d :: ds) cs else foldDots absolute ds cs
    else foldDots absolute (c :: done) cs

theorem mem_of_mem_foldDots {absolute : Bool} {done cs : List String} {s : String}
    (h : s ∈ foldDots absolute done cs) : s ∈ done ∨ s ∈ cs ∨ s = ".." := by
  fun_induction foldDots absolute done cs <;> simp_all <;> grind

def normalize (p : Path) : Path :=
  ⟨p.anchor, foldDots p.isAbsolute [] p.parts, fun s h => by
    rcases mem_of_mem_foldDots h with h | h | rfl
    · cases h
    · exact p.isComponent s h
    · decide⟩

end Path

end TabPackager
