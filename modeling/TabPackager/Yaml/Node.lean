import TabPackager.Yaml.Tag
import TabPackager.Yaml.Token

/-!
# Nodes of a YAML document

The tokens of a document as a tree of tagged nodes. Nodes that have an anchor are put in a list,
and in the tree their names stand for them as leaves, both at their own place and where aliases
repeat them. An alias needs its anchor before it, and an anchor is given once in a document.
-/

namespace TabPackager.Yaml

open Config

inductive Node where
  | scalar (tag text : String)
  | sequence (tag : String) (items : List Node)
  | mapping (tag : String) (entries : List (Node × Node))
  | reference (name : String)
  deriving Inhabited

namespace Node

def empty : Node := .scalar (Tag.core "null") ""

end Node

/-- What is left of the tokens, the tag handles of the document, the anchors met so far, and the
finished nodes with an anchor. -/
structure NodeReader where
  tokens : List Token
  handles : List (String × String) := []
  anchors : List String := []
  named : List (String × Node) := []

abbrev NodeStep := StateT NodeReader Reading

namespace NodeReader

def refuse {α : Type} : NodeStep α := fun _ => malformed

/-- The next token. A fault in the text is met when it is looked at. -/
def peek : NodeStep Token := fun s =>
  match s.tokens with
  | [] => malformed
  | .failed f :: _ => .error f
  | t :: _ => .ok (t, s)

def drop : NodeStep Unit := fun s => .ok ((), { s with tokens := s.tokens.drop 1 })

def dropIf (t : Token) : NodeStep Bool := do
  if (← peek) = t then
    drop
    return true
  else return false

def expandTag (handle : Option String) (suffix : String) : NodeStep String := do
  match handle with
  | none => return suffix
  | some h =>
    match (← get).handles.lookup h with
    | some expansion => return expansion ++ suffix
    | none => refuse

def properties : NodeStep (Option String × Option String) := do
  match ← peek with
  | .anchor name =>
    drop
    match ← peek with
    | .tag h suffix =>
      drop
      return (some name, some (← expandTag h suffix))
    | _ => return (some name, none)
  | .tag h suffix =>
    drop
    match ← peek with
    | .anchor name =>
      drop
      return (some name, some (← expandTag h suffix))
    | _ => return (none, some (← expandTag h suffix))
  | _ => return (none, none)

def declare (anchor : Option String) : NodeStep Unit := do
  match anchor with
  | none => return ()
  | some name =>
    if (← get).anchors.contains name then refuse
    modify fun s => { s with anchors := name :: s.anchors }

/-- Keeps a finished node under its anchor, which then stands for it in the tree. -/
def keep (anchor : Option String) (n : Node) : NodeStep Node := do
  match anchor with
  | none => return n
  | some name =>
    modify fun s => { s with named := (name, n) :: s.named }
    return .reference name

def scalarTag (tag : Option String) (text : String) (plain : Bool) : String :=
  match tag with
  | none => if plain then Tag.ofPlain text else Tag.core "str"
  | some "!" => Tag.ofPlain text
  | some t => t

def collectionTag (tag : Option String) (kind : String) : String :=
  match tag with
  | none => Tag.core kind
  | some "!" => Tag.core kind
  | some t => t

mutual

/-- A node. Block collections stand only where `block` allows them, and a sequence without
indentation of its own only where `bare` does. -/
def node : Nat → Bool → Bool → NodeStep Node
  | 0, _, _ => refuse
  | fuel + 1, block, bare => do
    match ← peek with
    | .reference name =>
      drop
      if !(← get).anchors.contains name then refuse
      return .reference name
    | _ =>
      let (anchor, tag) ← properties
      let seq := collectionTag tag "seq"
      let map := collectionTag tag "map"
      match ← peek with
      | .scalar text plain =>
        declare anchor
        drop
        keep anchor (.scalar (scalarTag tag text plain) text)
      | .flowSequence =>
        declare anchor
        drop
        keep anchor (.sequence seq (← flowItems fuel true))
      | .flowMapping =>
        declare anchor
        drop
        keep anchor (.mapping map (← flowEntries fuel true))
      | t =>
        if t = .blockEntry ∧ bare then
          declare anchor
          keep anchor (.sequence seq (← bareItems fuel))
        else if t = .blockSequence ∧ block then
          declare anchor
          drop
          keep anchor (.sequence seq (← blockItems fuel))
        else if t = .blockMapping ∧ block then
          declare anchor
          drop
          keep anchor (.mapping map (← blockEntries fuel))
        else if anchor.isSome || tag.isSome then
          declare anchor
          keep anchor (.scalar (scalarTag tag "" true) "")
        else refuse

def blockItems : Nat → NodeStep (List Node)
  | 0 => refuse
  | fuel + 1 => do
    if ← dropIf .blockEntry then
      let t ← peek
      let item ← if t = .blockEntry ∨ t = .blockEnd then pure Node.empty
        else node fuel true false
      return item :: (← blockItems fuel)
    else if ← dropIf .blockEnd then return []
    else refuse

/-- The items of a sequence without indentation of its own, which the next key ends. -/
def bareItems : Nat → NodeStep (List Node)
  | 0 => refuse
  | fuel + 1 => do
    if ← dropIf .blockEntry then
      let t ← peek
      let item ←
        if t = .blockEntry ∨ t = .key ∨ t = .value ∨ t = .blockEnd then pure Node.empty
        else node fuel true false
      return item :: (← bareItems fuel)
    else return []

def blockPart : Nat → NodeStep Node
  | 0 => refuse
  | fuel + 1 => do
    let t ← peek
    if t = .key ∨ t = .value ∨ t = .blockEnd then return Node.empty
    else node fuel true true

def blockEntries : Nat → NodeStep (List (Node × Node))
  | 0 => refuse
  | fuel + 1 => do
    if ← dropIf .key then
      let k ← blockPart fuel
      let v ← if ← dropIf .value then blockPart fuel else pure Node.empty
      return (k, v) :: (← blockEntries fuel)
    else if ← dropIf .blockEnd then return []
    else refuse

def flowPart : Nat → Token → NodeStep Node
  | 0, _ => refuse
  | fuel + 1, closing => do
    let t ← peek
    if t = .flowEntry ∨ t = closing then return Node.empty
    else node fuel false false

def flowValue : Nat → Token → NodeStep Node
  | 0, _ => refuse
  | fuel + 1, closing => do
    if ← dropIf .value then flowPart fuel closing else return Node.empty

def flowKey : Nat → Token → NodeStep Node
  | 0, _ => refuse
  | fuel + 1, closing => do
    if (← peek) = .value then return Node.empty else flowPart fuel closing

/-- The items of a flow sequence. A key among them makes a mapping of one entry. -/
def flowItems : Nat → Bool → NodeStep (List Node)
  | 0, _ => refuse
  | fuel + 1, first => do
    if ← dropIf .flowSequenceEnd then return []
    if !first then
      if !(← dropIf .flowEntry) then refuse
    if ← dropIf .key then
      let k ← flowKey fuel .flowSequenceEnd
      let v ← flowValue fuel .flowSequenceEnd
      return .mapping (Tag.core "map") [(k, v)] :: (← flowItems fuel false)
    else if ← dropIf .flowSequenceEnd then return []
    else
      let item ← node fuel false false
      return item :: (← flowItems fuel false)

def flowEntries : Nat → Bool → NodeStep (List (Node × Node))
  | 0, _ => refuse
  | fuel + 1, first => do
    if ← dropIf .flowMappingEnd then return []
    if !first then
      if !(← dropIf .flowEntry) then refuse
    if ← dropIf .key then
      let k ← flowKey fuel .flowMappingEnd
      let v ← flowValue fuel .flowMappingEnd
      return (k, v) :: (← flowEntries fuel false)
    else if ← dropIf .flowMappingEnd then return []
    else
      let k ← node fuel false false
      return (k, Node.empty) :: (← flowEntries fuel false)

end

def coreHandles : List (String × String) := [("!", "!"), ("!!", Tag.core "")]

def directives : Nat → Bool → List (String × String) → NodeStep Unit
  | 0, _, _ => refuse
  | fuel + 1, versioned, handles => do
    match ← peek with
    | .version major =>
      if versioned || major != 1 then refuse
      drop
      directives fuel true handles
    | .tagHandle h expansion =>
      if (handles.lookup h).isSome then refuse
      drop
      directives fuel versioned ((h, expansion) :: handles)
    | .otherDirective =>
      drop
      directives fuel versioned handles
    | _ => modify fun s => { s with handles := handles ++ coreHandles }

def isOutside : Token → Bool
  | .version _ | .tagHandle .. | .otherDirective | .documentStart | .documentEnd
  | .streamEnd => true
  | _ => false

/-- The end of the only document, after which nothing but end marks may follow. -/
def streamEnd : Nat → NodeStep Unit
  | 0 => refuse
  | fuel + 1 => do
    if ← dropIf .documentEnd then streamEnd fuel
    else if (← peek) = .streamEnd then return ()
    else
      directives fuel false []
      refuse

def document (fuel : Nat) : NodeStep (Option Node) := do
  let t ← peek
  if t = .streamEnd then return none
  if isOutside t ∧ t ≠ .documentEnd then
    directives fuel false []
    if !(← dropIf .documentStart) then refuse
    let root ← if isOutside (← peek) then pure Node.empty else node fuel true false
    streamEnd fuel
    return some root
  else
    modify fun s => { s with handles := coreHandles }
    let root ← node fuel true false
    streamEnd fuel
    return some root

end NodeReader

def Node.compose (tokens : List Token) : Reading (Option Node × List (String × Node)) := do
  let (root, s) ← (NodeReader.document (6 * tokens.length + 8)).run { tokens }
  return (root, s.named)

end TabPackager.Yaml
