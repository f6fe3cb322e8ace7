import TabPackager.Yaml.Node
import TabPackager.Yaml.Scalar

/-!
# Meanings of YAML nodes

What the nodes of a document stand for. A node is converted by its tag; merged mappings come
before the own entries of the mapping that merges them. Collections are filled level by level, so
that of several faults the one nearest to the root is reported, and on one level the first. An
alias has the meaning of the node it names, which is found once. A node that holds itself is
unfolded a bounded number of times, and a mapping that merges itself gains nothing by it.
-/

namespace TabPackager.Yaml

open Config

/-- A fault below a node: how many levels below it is met, and what it is. -/
abbrev FaultBelow := Nat × ReadFault

def nearer : Option FaultBelow → Option FaultBelow → Option FaultBelow
  | none, f => f
  | f, none => f
  | some f, some g => if g.1 < f.1 then some g else some f

def nearest (fs : List (Option FaultBelow)) : Option FaultBelow := fs.foldl nearer none

structure Converted where
  value : Value
  fault : Option FaultBelow := none
  deriving Inhabited

namespace Converted

def ofReading : Reading Value → Converted
  | .ok v => ⟨v, none⟩
  | .error f => ⟨.null, some (0, f)⟩

/-- A collection in whose place stands a node of another kind, which shows when it is filled. -/
def wrongKind (v : Value) : Converted := ⟨v, some (1, .malformed)⟩

def faultAbove (c : Converted) : Option FaultBelow := c.fault.map fun (n, f) => (n + 1, f)

end Converted

/-- What a node stands for. A scalar keeps its text, a sequence its items. A mapping keeps its
entries as they are written, its entries with merged mappings put in, if they can be, and the
text under its default mark. A node inside itself, below the last level that is unfolded, holds
nothing. -/
inductive Meaning where
  | folded
  | scalar (tag text : String) (result : Converted)
  | sequence (tag : String) (items : List Meaning) (result : Converted)
  | mapping (tag : String) (entries : List (Meaning × Meaning))
      (full : Option (List (Meaning × Meaning))) (text : Option String) (result : Converted)

namespace Meaning

instance : Inhabited Meaning := ⟨folded⟩

def tag : Meaning → String
  | folded => Tag.core "map"
  | scalar t _ _ => t
  | sequence t _ _ => t
  | mapping t _ _ _ _ => t

def result : Meaning → Converted
  | folded => ⟨.map [], none⟩
  | scalar _ _ r => r
  | sequence _ _ r => r
  | mapping _ _ _ _ r => r

def value (m : Meaning) : Value := m.result.value

def text? : Meaning → Option String
  | folded => none
  | scalar _ s _ => some s
  | sequence .. => none
  | mapping _ _ _ s _ => s

/-- Whether two keys are the same. The float that is no number is one key where it is written as
such; where it comes out of a conversion it differs from every key. -/
def sameKey (a b : Meaning) : Bool :=
  match a.value, b.value with
  | .float .nan, .float .nan =>
    a.text?.any Scalar.namesNoNumber && b.text?.any Scalar.namesNoNumber
  | v, w => v.sameKey w

def plainKey (m : Meaning) : Meaning :=
  if m.tag = Tag.core "value" then
    let reading : Reading Value := match m.text? with
      | some s => .ok (.text s)
      | none => malformed
    .scalar (Tag.core "str") (m.text?.getD "") (.ofReading reading)
  else m

def full? : Meaning → Option (List (Meaning × Meaning))
  | folded => some []
  | mapping _ _ full _ _ => full
  | _ => none

/-- The entries that a node brings to the mapping which merges it: its own if it is a mapping,
and those of its items, the last first, if it is a sequence of mappings. -/
def mergedEntries? : Meaning → Option (List (Meaning × Meaning))
  | sequence _ items _ => (items.reverse.mapM full?).map List.flatten
  | m => m.full?

def merge? (entries : List (Meaning × Meaning)) : Option (List (Meaning × Meaning)) :=
  let (merges, own) := entries.partition fun (k, _) => k.tag = Tag.core "merge"
  (merges.mapM fun e => mergedEntries? e.2).map fun merged =>
    merged.flatten ++ own.map fun (k, v) => (k.plainKey, v)

/-- A node as it is met inside itself: of the entries that it brings when it is merged, every
key is needed once, where all collections count as one key. -/
def inside : Meaning → Meaning
  | mapping t entries full text r =>
    let same (a b : Meaning) : Bool := a.sameKey b || (!a.value.isKey && !b.value.isKey)
    let once := full.map fun es => es.foldl (fun done (k, v) => Entries.insertBy same k v done) []
    mapping t entries once text r
  | m => m

def scalarReading? (tag : String) : Option (String → Reading Value) :=
  if tag = Tag.core "str" then some fun s => .ok (.text s)
  else if tag = Tag.core "null" then some fun _ => .ok .null
  else if tag = Tag.core "bool" then some Scalar.bool
  else if tag = Tag.core "int" then some Scalar.int
  else if tag = Tag.core "float" then some Scalar.float
  else if tag = Tag.core "binary" then some Scalar.binary
  else if tag = Tag.core "timestamp" then some Scalar.timestamp
  else none

def fill (build : Entries → Value) : Option (List (Meaning × Meaning)) → Converted
  | none => .wrongKind (build [])
  | some es =>
    let once := es.foldl (fun done (k, v) => Entries.insertBy sameKey k v.value done) []
    let unfit (k : Meaning) : Option FaultBelow :=
      if k.value.isKey then none else some (1, .malformed)
    ⟨build (once.map fun (k, v) => (k.value, v)),
      nearest (es.flatMap fun (k, v) => [k.result.faultAbove, unfit k, v.result.faultAbove])⟩

def pairOf : Meaning → Converted
  | folded => ⟨.null, none⟩
  | mapping _ [(k, v)] _ _ _ =>
    ⟨.tuple [k.value, v.value], nearer k.result.faultAbove v.result.faultAbove⟩
  | _ => .wrongKind .null

def convertUnsuited (tag : String) : Converted :=
  if tag = Tag.core "map" then .wrongKind (.map [])
  else if tag = Tag.core "set" then .wrongKind (.set [])
  else if tag = Tag.core "seq" ∨ tag = Tag.core "omap" ∨ tag = Tag.core "pairs" then
    .wrongKind (.list [])
  else .ofReading malformed

def convertScalar (tag text : String) : Converted :=
  match scalarReading? tag with
  | some reading => .ofReading (reading text)
  | none => convertUnsuited tag

def convertSequence (tag : String) (items : List Meaning) : Converted :=
  if tag = Tag.core "seq" then
    ⟨.list (items.map value), nearest (items.map fun m => m.result.faultAbove)⟩
  else if tag = Tag.core "omap" ∨ tag = Tag.core "pairs" then
    let pairs := items.map pairOf
    ⟨.list (pairs.map (·.value)), nearest (pairs.map (·.fault))⟩
  else convertUnsuited tag

/-- The conversion of a mapping, which may stand for a scalar by its text under the default mark.
A moment has to be the text of its own node. -/
def convertMapping (tag : String) (full : Option (List (Meaning × Meaning)))
    (text : Option String) : Converted :=
  match scalarReading? tag with
  | some reading =>
    .ofReading <| match text with
      | none => malformed
      | some s => if tag = Tag.core "timestamp" then .error (.rejected .origin) else reading s
  | none =>
    if tag = Tag.core "map" then fill .map full
    else if tag = Tag.core "set" then fill (fun es => .set (es.map Prod.fst)) full
    else convertUnsuited tag

def ofEntries (tag : String) (entries : List (Meaning × Meaning)) : Meaning :=
  let full := merge? entries
  let text := (entries.find? fun (k, _) => k.tag = Tag.core "value").bind fun (_, v) => v.text?
  mapping tag entries full text (convertMapping tag full text)

mutual

def ofNode (meaning : String → Meaning) : Node → Meaning
  | .scalar t s => scalar t s (convertScalar t s)
  | .sequence t items =>
    let items := ofNodes meaning items
    sequence t items (convertSequence t items)
  | .mapping t entries => ofEntries t (ofNodePairs meaning entries)
  | .reference name => meaning name

def ofNodes (meaning : String → Meaning) : List Node → List Meaning
  | [] => []
  | n :: ns => ofNode meaning n :: ofNodes meaning ns

def ofNodePairs (meaning : String → Meaning) : List (Node × Node) → List (Meaning × Meaning)
  | [] => []
  | (k, v) :: es => (ofNode meaning k, ofNode meaning v) :: ofNodePairs meaning es

end

/-- The meanings of the nodes with an anchor, the latest first. Each is found from those of the
nodes that end before it and, where it lies in a node that it names, from the earlier ones. -/
def refine (named : List (String × Node)) (earlier : List (String × Meaning)) :
    List (String × Meaning) :=
  named.foldr (fun (name, n) done =>
    let meaning (s : String) : Meaning :=
      (done.lookup s).getD ((earlier.lookup s).getD folded)
    (name, ofNode meaning n) :: done) []

def unfolding : Nat := 4

def ofNamed (named : List (String × Node)) : List (String × Meaning) :=
  (List.range unfolding).foldl
    (fun earlier _ => refine named (earlier.map fun (name, m) => (name, m.inside))) []

end Meaning

end TabPackager.Yaml
