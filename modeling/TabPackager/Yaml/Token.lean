import TabPackager.Yaml.ScalarText

/-!
# Tokens of a YAML text

A YAML text as a list of tokens. Indentation becomes explicit as tokens that open and close block
collections. A key that has no mark of its own is known only when the colon after it is met: the
place before its first token is kept until then, and the tokens that mark a key, and a mapping if
it opens one, are put there in the end. A text that breaks a rule of this level gives the tokens
before the fault and the fault as the last one; a token that may start a key waits for the text
behind it, so that a fault there comes in its place.
-/

namespace TabPackager.Yaml

open Config

inductive Token where
  | streamEnd
  | version (major : Nat)
  | tagHandle (handle expansion : String)
  | otherDirective
  | documentStart
  | documentEnd
  | blockSequence
  | blockMapping
  | blockEnd
  | flowSequence
  | flowSequenceEnd
  | flowMapping
  | flowMappingEnd
  | blockEntry
  | flowEntry
  | key
  | value
  | reference (name : String)
  | anchor (name : String)
  | tag (handle : Option String) (suffix : String)
  | scalar (text : String) (plain : Bool)
  | failed (fault : ReadFault)
  deriving DecidableEq, Repr

def isTagChar (c : Char) : Bool :=
  c.isAlphanum || "-;/?:@&=+$,_.!~*'()[]%".toList.contains c

def takeTagBytes : Nat → List UInt8 → Cursor → Reading (List UInt8 × Cursor)
  | 0, _, _ => malformed
  | fuel + 1, done, k =>
    if k.peek = some '%' then
      match Text.natOfChars? 16 ((k.rest.drop 1).take 2), k.peekAt 2 with
      | some n, some _ => takeTagBytes fuel (done ++ [n.toUInt8]) (k.skip 3)
      | _, _ => malformed
    else .ok (done, k)

def takeTagChars : Nat → List Char → Cursor → Reading (List Char × Cursor)
  | 0, _, _ => malformed
  | fuel + 1, done, k =>
    match k.peek with
    | some c =>
      if c = '%' then do
        let (bytes, k) ← takeTagBytes (k.rest.length + 1) [] k
        match String.fromUTF8? ⟨bytes.toArray⟩ with
        | some s => takeTagChars fuel (done ++ s.toList) k
        | none => malformed
      else if isTagChar c then takeTagChars fuel (done ++ [c]) k.next
      else .ok (done, k)
    | none => .ok (done, k)

def takeTagSuffix (k : Cursor) : Reading (String × Cursor) := do
  if !(k.peek.any isTagChar) then malformed
  let (cs, k) ← takeTagChars (k.rest.length + 1) [] k
  return (String.ofList cs, k)

/-- A tag handle: an exclamation mark alone, or two around a name. -/
def takeTagHandle (k : Cursor) : Reading (String × Cursor) := do
  if k.peek ≠ some '!' then malformed
  let k := k.next
  if k.peek = some ' ' then return ("!", k)
  let (name, k) := k.takeWhile isNameChar
  if k.peek ≠ some '!' then malformed
  return ("!" ++ String.ofList name ++ "!", k.next)

def takeTag (k : Cursor) : Reading (Token × Cursor) := do
  let (token, k) ← match k.peekAt 1 with
    | some '<' => do
      let (suffix, k) ← takeTagSuffix (k.skip 2)
      if k.peek ≠ some '>' then malformed
      pure (Token.tag none suffix, k.next)
    | other =>
      if other.all isSpacing then pure (Token.tag none "!", k.next)
      else do
        let word := (k.rest.drop 1).takeWhile fun c => !isSpaceOrBreak c
        let (handle, k) ← if word.contains '!' then takeTagHandle k else pure ("!", k.next)
        let (suffix, k) ← takeTagSuffix k
        pure (Token.tag (some handle) suffix, k)
  if !k.endsAt 0 isSpaceOrBreak then malformed
  return (token, k)

def takeAnchorName (k : Cursor) : Reading (String × Cursor) := do
  let (name, k) := k.takeWhile isNameChar
  if name.isEmpty then malformed
  if !k.endsAt 0 (fun c => isSpacing c || "?:,]\x7d%@\x60".toList.contains c) then malformed
  return (String.ofList name, k)

def takeVersionNumber (k : Cursor) : Reading (Nat × Cursor) := do
  let (digits, k) := k.takeWhile isDecimal
  if digits.isEmpty then malformed
  let n ← decimalInt false (digits.map digitValue)
  return (n.toNat, k)

def takeDirective (k : Cursor) : Reading (Token × Cursor) := do
  let (name, k) := k.takeWhile isNameChar
  if name.isEmpty || !k.endsAt 0 isSpaceOrBreak then malformed
  let (token, k) ←
    if name = "YAML".toList then do
      let (major, k) ← takeVersionNumber (k.skipWhile (· == ' '))
      if k.peek ≠ some '.' then malformed
      let (_, k) ← takeVersionNumber k.next
      if !k.endsAt 0 isSpaceOrBreak then malformed
      pure (Token.version major, k)
    else if name = "TAG".toList then do
      let (handle, k) ← takeTagHandle (k.skipWhile (· == ' '))
      if k.peek ≠ some ' ' then malformed
      let (expansion, k) ← takeTagSuffix (k.skipWhile (· == ' '))
      if !k.endsAt 0 isSpaceOrBreak then malformed
      pure (Token.tagHandle handle expansion, k)
    else pure (Token.otherDirective, k.skipWhile fun c => !isBreak c)
  return (token, ← k.skipLineRest)

/-- A token that may turn out to start a key: its number, where it stands, and whether nothing
but a key can stand there. -/
structure KeyStart where
  number : Nat
  required : Bool
  index : Nat
  line : Nat
  column : Nat

def keyLimit : Nat := 1024

/-- The tokens found so far, the latest first, and what decides how the text goes on: the
indentation of the block around the place, none at the top, and those around that one; the
number of open flow collections; whether a key may start here; the possible starts of keys by
flow level; and the numbers of tokens before which a key, and perhaps a mapping, starts. -/
structure Scanner where
  cursor : Cursor
  tokens : List Token := []
  count : Nat := 0
  indent : Option Nat := none
  outer : List (Option Nat) := []
  flow : Nat := 0
  keyAllowed : Bool := true
  starts : List (Nat × KeyStart) := []
  marks : List (Nat × Bool) := []

namespace Scanner

variable (s : Scanner)

def emit (t : Token) : Scanner := { s with tokens := t :: s.tokens, count := s.count + 1 }

def goTo (k : Cursor) : Scanner := { s with cursor := k }

def skip (n : Nat) : Scanner := s.goTo (s.cursor.skip n)

def allowKey (b : Bool) : Scanner := { s with keyAllowed := b }

/-- Whether a start of a key can no longer become one: its line is over, or it is too long. -/
def isStale (p : KeyStart) : Bool :=
  p.line != s.cursor.line || decide (keyLimit < s.cursor.index - p.index)

def dropStale : Reading Scanner :=
  if s.starts.any fun (_, p) => s.isStale p && p.required then malformed
  else .ok { s with starts := s.starts.filter fun (_, p) => !s.isStale p }

def start? : Option KeyStart := s.starts.lookup s.flow

def dropStart : Reading Scanner :=
  match s.start? with
  | some p =>
    if p.required then malformed
    else .ok { s with starts := s.starts.filter fun (l, _) => l != s.flow }
  | none => .ok s

def keepStart : Reading Scanner := do
  if !s.keyAllowed then return s
  let required := s.flow == 0 && s.indent == some s.cursor.column
  let s ← s.dropStart
  return { s with starts := (s.flow, ⟨s.count, required, s.cursor.index, s.cursor.line,
    s.cursor.column⟩) :: s.starts }

def isDeeper (indent column : Option Nat) : Bool :=
  match indent, column with
  | some i, some c => decide (c < i)
  | some _, none => true
  | none, _ => false

/-- Closes the blocks whose indentation lies right of the column, with the enclosing indentations
given. -/
def closeBlocks (column : Option Nat) : List (Option Nat) → Scanner → Scanner
  | [], s => s
  | outer :: rest, s =>
    if isDeeper s.indent column then
      closeBlocks column rest { s.emit .blockEnd with indent := outer, outer := rest }
    else s

/-- Closes the blocks whose indentation lies right of the column, outside flow collections. -/
def unwind (column : Option Nat) : Scanner :=
  if s.flow = 0 then closeBlocks column s.outer s else s

def openBlock? (column : Nat) : Option Scanner :=
  if isDeeper (some column) s.indent then
    some { s with outer := s.indent :: s.outer, indent := some column }
  else none

def skipToToken : Nat → Scanner → Scanner
  | 0, s => s
  | fuel + 1, s =>
    let k := s.cursor.skipWhile (· == ' ')
    let k := if k.peek = some '#' then k.skipWhile (fun c => !isBreak c) else k
    match k.takeBreak with
    | ([], k) => s.goTo k
    | (_, k) => skipToToken fuel ((s.goTo k).allowKey (s.keyAllowed || s.flow == 0))

def closeAll : Reading Scanner := do
  return (← (s.unwind none).dropStart).allowKey false

def openFlow (t : Token) : Reading Scanner := do
  let s ← s.keepStart
  return ({ s with flow := s.flow + 1 }.allowKey true).emit t |>.skip 1

def closeFlow (t : Token) : Reading Scanner := do
  let s ← s.dropStart
  return ({ s with flow := s.flow - 1 }.allowKey false).emit t |>.skip 1

def flowEntry : Reading Scanner := do
  return ((← (s.allowKey true).dropStart).emit .flowEntry).skip 1

def blockEntry : Reading Scanner := do
  if s.flow = 0 && !s.keyAllowed then malformed
  let s := if s.flow = 0 then
      match s.openBlock? s.cursor.column with
      | some s => s.emit .blockSequence
      | none => s
    else s
  return ((← (s.allowKey true).dropStart).emit .blockEntry).skip 1

def explicitKey : Reading Scanner := do
  if s.flow = 0 && !s.keyAllowed then malformed
  let s := if s.flow = 0 then
      match s.openBlock? s.cursor.column with
      | some s => s.emit .blockMapping
      | none => s
    else s
  return ((← (s.allowKey (s.flow == 0)).dropStart).emit .key).skip 1

/-- The colon of a value. If a key has started at this level, it is marked now. -/
def value : Reading Scanner := do
  match s.start? with
  | some p =>
    let s := { s with starts := s.starts.filter fun (l, _) => l != s.flow }
    let (opened, s) := match if s.flow = 0 then s.openBlock? p.column else none with
      | some s => (true, s)
      | none => (false, s)
    let s := { s with marks := (p.number, opened) :: s.marks }
    return ((s.allowKey false).emit .value).skip 1
  | none =>
    if s.flow = 0 && !s.keyAllowed then malformed
    let s := if s.flow = 0 then
        match s.openBlock? s.cursor.column with
        | some s => s.emit .blockMapping
        | none => s
      else s
    return ((← (s.allowKey (s.flow == 0)).dropStart).emit .value).skip 1

/-- A token that a key may start with, after which no key may start. -/
def leaf (take : Cursor → Reading (Token × Cursor)) : Reading Scanner := do
  let s ← s.keepStart
  let (t, k) ← take s.cursor
  return ((s.allowKey false).emit t).goTo k

def blockScalar (folded : Bool) : Reading Scanner := do
  let s ← (s.allowKey true).dropStart
  let (text, k) ← takeBlockScalar folded s.indent s.cursor.next
  return (s.emit (.scalar (String.ofList text) false)).goTo k

def plainScalar : Reading Scanner := do
  let s ← s.keepStart
  let k := s.cursor
  let indent := (s.indent.map (· + 1)).getD 0
  let (text, broke, k) := takePlain (s.flow != 0) indent (k.rest.length + 1) [] [] false k
  return ((s.allowKey broke).emit (.scalar (String.ofList text) true)).goTo k

def startsPlain (c : Char) : Bool :=
  let marks := "-?:,[]\x7b\x7d#&*!|>'\"%@\x60".toList
  (!isSpacing c && !marks.contains c) ||
    (!s.cursor.endsAt 1 isSpacing && (c == '-' || (s.flow == 0 && (c == '?' || c == ':'))))

def token (c : Char) : Reading Scanner :=
  let k := s.cursor
  if c = '%' ∧ k.column = 0 then do
    let s ← s.closeAll
    let (t, k) ← takeDirective k.next
    return (s.emit t).goTo k
  else if k.column = 0 ∧ k.atDocumentMark then do
    return ((← s.closeAll).emit (if c = '-' then .documentStart else .documentEnd)).skip 3
  else if c = '[' then s.openFlow .flowSequence
  else if c = '\x7b' then s.openFlow .flowMapping
  else if c = ']' then s.closeFlow .flowSequenceEnd
  else if c = '\x7d' then s.closeFlow .flowMappingEnd
  else if c = ',' then s.flowEntry
  else if c = '-' ∧ k.endsAt 1 isSpacing then s.blockEntry
  else if c = '?' ∧ (s.flow ≠ 0 ∨ k.endsAt 1 isSpacing) then s.explicitKey
  else if c = ':' ∧ (s.flow ≠ 0 ∨ k.endsAt 1 isSpacing) then s.value
  else if c = '*' then s.leaf fun k => (takeAnchorName k.next).map fun (n, k) => (.reference n, k)
  else if c = '&' then s.leaf fun k => (takeAnchorName k.next).map fun (n, k) => (.anchor n, k)
  else if c = '!' then s.leaf takeTag
  else if c = '|' ∧ s.flow = 0 then s.blockScalar false
  else if c = '>' ∧ s.flow = 0 then s.blockScalar true
  else if c = '\'' ∨ c = '"' then
    s.leaf fun k => (takeQuoted (c == '"') (k.rest.length + 1) [] k.next).map fun (text, k) =>
      (.scalar (String.ofList text) false, k)
  else if s.startsPlain c then s.plainScalar
  else malformed

/-- The place for a fault in the text that follows: the number of the first token that may still
start a key, or else of the next token. -/
def faultNumber : Nat :=
  let waiting := s.starts.filter fun (_, p) => !s.isStale p
  (waiting.map fun (_, p) => p.number).foldl min s.count

def fail (f : ReadFault) : Scanner :=
  let n := s.faultNumber
  { s with tokens := .failed f :: s.tokens.drop (s.count - n), count := n + 1 }

def step : Reading (Bool × Scanner) := do
  let s := skipToToken (s.cursor.rest.length + 1) s
  let s ← s.dropStale
  let s := s.unwind (some s.cursor.column)
  match s.cursor.peek with
  | none => return (true, (← s.closeAll).emit .streamEnd)
  | some c => return (false, ← s.token c)

/-- The tokens of the text, the latest first, from the scanner's place on. -/
def run : Nat → Scanner → Scanner
  | 0, s => s
  | fuel + 1, s =>
    match s.step with
    | .error f => s.fail f
    | .ok (true, s) => s
    | .ok (false, s) => run fuel s

/-- The tokens in order, with the marks of keys put in. The marks are in descending order of
their numbers, as are the tokens. -/
def insertMarks : List (Nat × Bool) → Nat → List Token → List Token → List Token
  | _, _, [], done => done
  | marks, n + 1, t :: ts, done =>
    match marks.lookup n with
    | some true => insertMarks marks n ts (.blockMapping :: .key :: t :: done)
    | some false => insertMarks marks n ts (.key :: t :: done)
    | none => insertMarks marks n ts (t :: done)
  | _, 0, ts, done => ts.reverse ++ done

end Scanner

def Token.scan (cs : List Char) : List Token :=
  let k : Cursor := ⟨cs, 0, 0, 0⟩
  let k := if k.peek = some byteOrderMark then k.next else k
  let s := Scanner.run (cs.length + 2) { cursor := k }
  Scanner.insertMarks s.marks s.count s.tokens []

end TabPackager.Yaml
