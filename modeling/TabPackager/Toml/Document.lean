import TabPackager.Toml.Text

/-!
# TOML documents

Reading of a configuration in TOML. A document is a sequence of statements: a table header, which
names the table that the following keys go to, or a key with a value. Beside the tables read so
far the reader keeps which namespaces are closed: those of values, which are closed with all below
them, and those of tables that have been declared, which may not be declared again.
-/

namespace TabPackager.Toml

open Config

abbrev Key := List String

/-- What has been read, and which namespaces are closed. -/
structure Tables where
  data : Entries := []
  frozen : List Key := []
  declared : List Key := []
  pending : List Key := []

/-- Changes the table at a key, making the tables on the way that are missing. A list on the way
stands for its last table, unless lists are not entered. -/
def updateTable? (enterLists : Bool) (f : Entries → Option Entries) :
    Key → Entries → Option Entries
  | [], es => f es
  | k :: ks, es =>
    match Entries.get? es k with
    | none => (updateTable? enterLists f ks []).map fun t => Entries.insert es (.text k) (.map t)
    | some (.map t) =>
      (updateTable? enterLists f ks t).map fun t => Entries.insert es (.text k) (.map t)
    | some (.list items) =>
      match enterLists, items.reverse with
      | true, .map t :: before =>
        (updateTable? enterLists f ks t).map fun t =>
          Entries.insert es (.text k) (.list (.map t :: before).reverse)
      | _, _ => none
    | some _ => none

def addNew? (name : String) (v : Value) (es : Entries) : Option Entries :=
  if (Entries.get? es name).isSome then none else some (Entries.insert es (.text name) v)

def appendTable? (name : String) (es : Entries) : Option Entries :=
  match Entries.get? es name with
  | none => some (Entries.insert es (.text name) (.list [.map []]))
  | some (.list items) => some (Entries.insert es (.text name) (.list (items ++ [.map []])))
  | some _ => none

def isFrozen (frozen : List Key) (k : Key) : Bool := frozen.any fun p => p.isPrefixOf k

def allowed {α : Type} : Option α → Reading α
  | some a => .ok a
  | none => malformed

def isBareKeyChar (c : Char) : Bool := c.isAlphanum || c == '-' || c == '_'

def takeName (cs : List Char) : Reading (String × List Char) :=
  match cs with
  | '\'' :: rest => (takeLiteral rest).map fun (s, r) => (String.ofList s, r)
  | '"' :: rest =>
    (takeBasic false (rest.length + 1) [] rest).map fun (s, r) => (String.ofList s, r)
  | _ =>
    match cs.takeWhile isBareKeyChar with
    | [] => malformed
    | s => .ok (String.ofList s, cs.dropWhile isBareKeyChar)

def takeKey : Nat → List Char → Reading (Key × List Char)
  | 0, _ => malformed
  | fuel + 1, cs => do
    let (name, rest) ← takeName cs
    match skipSpaces rest with
    | '.' :: more =>
      let (names, rest) ← takeKey fuel (skipSpaces more)
      return (name :: names, rest)
    | rest => return ([name], rest)

def skipFiller : Nat → List Char → Reading (List Char)
  | 0, _ => malformed
  | fuel + 1, cs => do
    match cs.dropWhile isSpaceOrLine with
    | '#' :: rest => skipFiller fuel (← skipComment ('#' :: rest))
    | rest => return rest

def skipAllFiller (cs : List Char) : Reading (List Char) := skipFiller (cs.length + 1) cs

mutual

/-- The value at the front, in which values may nest to a depth. An array takes up two steps of
it and an inline table three. -/
def takeValue : Nat → Nat → List Char → Reading (Value × List Char)
  | 0, _, _ => malformed
  | fuel + 1, depth, cs =>
    match cs with
    | '"' :: _ => (takeString cs).map fun (s, rest) => (.text (String.ofList s), rest)
    | '\'' :: _ => (takeString cs).map fun (s, rest) => (.text (String.ofList s), rest)
    | 't' :: 'r' :: 'u' :: 'e' :: rest => .ok (.bool true, rest)
    | 'f' :: 'a' :: 'l' :: 's' :: 'e' :: rest => .ok (.bool false, rest)
    | '[' :: rest => do
      let depth ← stepDown .either 2 depth
      match ← skipAllFiller rest with
      | ']' :: rest => return (.list [], rest)
      | rest => takeItems fuel depth [] rest
    | '\x7b' :: rest => do
      let depth ← stepDown .either 3 depth
      match skipSpaces rest with
      | '\x7d' :: rest => return (.map [], rest)
      | rest => takeInline fuel depth [] [] rest
    | _ => takeScalar cs

def takeItems : Nat → Nat → List Value → List Char → Reading (Value × List Char)
  | 0, _, _, _ => malformed
  | fuel + 1, depth, done, cs => do
    let (v, rest) ← takeValue fuel depth cs
    match ← skipAllFiller rest with
    | ']' :: rest => return (.list (v :: done).reverse, rest)
    | ',' :: rest =>
      match ← skipAllFiller rest with
      | ']' :: rest => return (.list (v :: done).reverse, rest)
      | rest => takeItems fuel depth (v :: done) rest
    | _ => malformed

def takeInline : Nat → Nat → Entries → List Key → List Char → Reading (Value × List Char)
  | 0, _, _, _, _ => malformed
  | fuel + 1, depth, es, frozen, cs => do
    let (key, v, rest) ← takePair fuel depth cs
    if isFrozen frozen key then malformed
    let es ← allowed (updateTable? false (addNew? (key.getLast?.getD "") v) key.dropLast es)
    match skipSpaces rest with
    | '\x7d' :: rest => return (.map es, rest)
    | ',' :: rest =>
      let frozen := match v with
        | .map _ | .list _ => key :: frozen
        | _ => frozen
      takeInline fuel depth es frozen (skipSpaces rest)
    | _ => malformed

def takePair : Nat → Nat → List Char → Reading (Key × Value × List Char)
  | 0, _, _ => malformed
  | fuel + 1, depth, cs => do
    let (key, rest) ← takeKey (cs.length + 1) cs
    match rest with
    | '=' :: rest =>
      let (v, rest) ← takeValue fuel depth (skipSpaces rest)
      return (key, v, rest)
    | _ => malformed

end

namespace Tables

/-- The tables after the namespaces of dotted keys have been declared, which happens when the
next header comes. -/
def settle (t : Tables) : Tables :=
  { t with declared := t.pending ++ t.declared, pending := [] }

def reopen (t : Tables) (key : Key) : Tables :=
  { t with
    frozen := t.frozen.filter fun p => !key.isPrefixOf p
    declared := t.declared.filter fun p => !key.isPrefixOf p }

def openTable (t : Tables) (key : Key) : Reading Tables := do
  if t.declared.contains key || isFrozen t.frozen key then malformed
  let data ← allowed (updateTable? true some key t.data)
  return { t with data, declared := key :: t.declared }

def openListItem (t : Tables) (key : Key) : Reading Tables := do
  if isFrozen t.frozen key then malformed
  let t := t.reopen key
  let data ← allowed (updateTable? true (appendTable? (key.getLast?.getD "")) key.dropLast t.data)
  return { t with data, declared := key :: t.declared }

def addPair (t : Tables) (header key : Key) (v : Value) : Reading Tables := do
  let inner := (List.range (key.length - 1)).map fun i => header ++ key.take (i + 1)
  if inner.any t.declared.contains then malformed
  let pending := inner ++ t.pending
  let parent := header ++ key.dropLast
  if isFrozen t.frozen parent then malformed
  let data ← allowed (updateTable? true (addNew? (key.getLast?.getD "") v) parent t.data)
  let frozen := match v with
    | .map _ | .list _ => (header ++ key) :: t.frozen
    | _ => t.frozen
  return { t with data, frozen, pending }

end Tables

def takeLineEnd (cs : List Char) : Reading (List Char) := do
  match ← skipComment (skipSpaces cs) with
  | [] => return []
  | '\n' :: rest => return rest
  | _ => malformed

def takeStatements : Nat → Tables → Key → List Char → Reading Tables
  | 0, _, _, _ => malformed
  | fuel + 1, t, header, cs => do
    match skipSpaces cs with
    | [] => return t
    | '\n' :: rest => takeStatements fuel t header rest
    | '#' :: rest => takeStatements fuel t header (← takeLineEnd ('#' :: rest))
    | '[' :: '[' :: rest =>
      let (key, rest) ← takeKey (rest.length + 1) (skipSpaces rest)
      let t ← t.settle.openListItem key
      match rest with
      | ']' :: ']' :: rest => takeStatements fuel t key (← takeLineEnd rest)
      | _ => malformed
    | '[' :: rest =>
      let (key, rest) ← takeKey (rest.length + 1) (skipSpaces rest)
      let t ← t.settle.openTable key
      match rest with
      | ']' :: rest => takeStatements fuel t key (← takeLineEnd rest)
      | _ => malformed
    | rest =>
      let (key, v, rest) ← takePair (2 * rest.length + 2) nestingLimit rest
      let t ← t.addPair header key v
      takeStatements fuel t header (← takeLineEnd rest)

def dropReturns : List Char → List Char
  | '\r' :: '\n' :: cs => '\n' :: dropReturns cs
  | c :: cs => c :: dropReturns cs
  | [] => []

def read (cs : List Char) : Reading Value := do
  let cs := dropReturns cs
  let t ← takeStatements (cs.length + 2) {} [] cs
  return .map t.data

end TabPackager.Toml
