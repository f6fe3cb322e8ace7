import TabPackager.Text.Surrogate
import TabPackager.Yaml.Cursor

/-!
# Texts of YAML scalars

The five styles in which a scalar is written: plain, in single or double quotes, and as a block
that is kept or folded. Each reader gives the text of the scalar and the place after it. Inside
a scalar of several lines a single line break is folded to a space, and further breaks are kept.
-/

namespace TabPackager.Yaml

open Config

/-- The characters that a folded stretch of breaks stands for: the first break vanishes in favour
of the ones after it, or of a space if there are none, unless it is one of the separators. -/
def foldBreaks (first : List Char) (more : List Char) : List Char :=
  (if first ≠ ['\n'] then first else if more.isEmpty then [' '] else []) ++ more

/-- What happens to the line breaks at the end of a block scalar: one is kept unless it is
stripped, and all are if they are to be kept. -/
inductive Chomping where
  | clip
  | strip
  | keep
  deriving DecidableEq, Repr

def chompingMark? : Option Char → Option Chomping
  | some '+' => some .keep
  | some '-' => some .strip
  | _ => none

def indentMark? : Option Char → Option Nat
  | some c => if isDecimal c then some (digitValue c) else none
  | none => none

def takeBlockHeader (k : Cursor) : Reading (Chomping × Option Nat × Cursor) := do
  let (chomping, indent, k) := match chompingMark? k.peek with
    | some ch =>
      let k := k.next
      match indentMark? k.peek with
      | some n => (ch, some n, k.next)
      | none => (ch, none, k)
    | none =>
      match indentMark? k.peek with
      | some n =>
        let k := k.next
        match chompingMark? k.peek with
        | some ch => (ch, some n, k.next)
        | none => (.clip, some n, k)
      | none => (.clip, none, k)
  if indent = some 0 then malformed
  if !k.endsAt 0 isSpaceOrBreak then malformed
  return (chomping, indent, ← k.skipLineRest)

/-- The breaks of the empty lines at the start of a block scalar whose indentation is not given,
and the deepest indentation among them and the first line. -/
def takeLeadingBreaks : Nat → List Char → Nat → Cursor → List Char × Nat × Cursor
  | 0, done, deepest, k => (done, deepest, k)
  | fuel + 1, done, deepest, k =>
    match k.peek with
    | some c =>
      if c = ' ' then
        let k := k.next
        takeLeadingBreaks fuel done (max deepest k.column) k
      else if isBreak c then
        let (b, k) := k.takeBreak
        takeLeadingBreaks fuel (done ++ b) deepest k
      else (done, deepest, k)
    | none => (done, deepest, k)

def skipIndent (k : Cursor) (indent : Nat) : Cursor :=
  k.skip ((k.rest.takeWhile (· == ' ')).length.min (indent - k.column))

def takeBlockBreaks (indent : Nat) : Nat → List Char → Cursor → List Char × Cursor
  | 0, done, k => (done, k)
  | fuel + 1, done, k =>
    let k := skipIndent k indent
    match k.peek with
    | some c =>
      if isBreak c then
        let (b, k) := k.takeBreak
        takeBlockBreaks indent fuel (done ++ b) k
      else (done, k)
    | none => (done, k)

/-- The lines of a block scalar after `done`; `breaks` are those of the empty lines before the
place. The last line's break and the breaks after it are given apart. -/
def takeBlockLines (folded : Bool) (indent : Nat) :
    Nat → List Char → List Char → Cursor → List Char × List Char × List Char × Cursor
  | 0, done, breaks, k => (done, [], breaks, k)
  | fuel + 1, done, breaks, k =>
    if k.column = indent ∧ k.peek ≠ none then
      let startsBlank := k.peek = some ' ' ∨ k.peek = some '\t'
      let (text, k) := k.takeWhile fun c => !isBreak c
      let (lineBreak, k) := k.takeBreak
      let done := done ++ breaks ++ text
      let (breaks, k) := takeBlockBreaks indent (k.rest.length + 1) [] k
      if k.column = indent ∧ k.peek ≠ none then
        let folds := folded ∧ lineBreak = ['\n'] ∧ ¬startsBlank ∧
          ¬(k.peek = some ' ' ∨ k.peek = some '\t')
        let glue := if folds then (if breaks.isEmpty then [' '] else []) else lineBreak
        takeBlockLines folded indent fuel (done ++ glue) breaks k
      else (done, lineBreak, breaks, k)
    else (done, [], breaks, k)

def takeBlockScalar (folded : Bool) (parent : Option Nat) (k : Cursor) :
    Reading (List Char × Cursor) := do
  let (chomping, increment, k) ← takeBlockHeader k
  let least := (parent.map (· + 1)).getD 1
  let (breaks, indent, k) := match increment with
    | none =>
      let (breaks, deepest, k) := takeLeadingBreaks (k.rest.length + 1) [] 0 k
      (breaks, max least deepest, k)
    | some n =>
      let indent := least + n - 1
      let (breaks, k) := takeBlockBreaks indent (k.rest.length + 1) [] k
      (breaks, indent, k)
  let (done, lineBreak, breaks, k) :=
    takeBlockLines folded indent (k.rest.length + 1) [] breaks k
  let tail := match chomping with
    | .strip => []
    | .clip => lineBreak
    | .keep => lineBreak ++ breaks
  return (done ++ tail, k)

def escapeChar? (c : Char) : Option Char :=
  match c with
  | '0' => some '\x00'
  | 'a' => some '\x07'
  | 'b' => some '\x08'
  | 't' => some '\t'
  | '\t' => some '\t'
  | 'n' => some '\n'
  | 'v' => some '\x0b'
  | 'f' => some '\x0c'
  | 'r' => some '\r'
  | 'e' => some '\x1b'
  | ' ' => some ' '
  | '"' => some '"'
  | '\\' => some '\\'
  | '/' => some '/'
  | 'N' => some (Char.ofNat 0x85)
  | '_' => some (Char.ofNat 0xA0)
  | 'L' => some (Char.ofNat 0x2028)
  | 'P' => some (Char.ofNat 0x2029)
  | _ => none

def escapeWidth? : Char → Option Nat
  | 'x' => some 2
  | 'u' => some 4
  | 'U' => some 8
  | _ => none

def codeChar (n : Nat) : Reading Char :=
  if Nat.pow 2 31 ≤ n then .error (.rejected .code)
  else if 0x10FFFF < n then .error (.rejected (@Rejection.value .ofText))
  else .ok (Text.codePoint n)

def takeCode? (width : Nat) (k : Cursor) : Option (Nat × Cursor) :=
  let digits := k.rest.take width
  if digits.length < width then none
  else (Text.natOfChars? 16 digits).map fun n => (n, k.skip width)

def takeLow? (k : Cursor) : Option (Nat × Cursor) := do
  if k.peek ≠ some '\\' then none
  let width ← escapeWidth? (← k.peekAt 1)
  let (n, k) ← takeCode? width (k.skip 2)
  if Text.isLowSurrogate n then some (n, k) else none

def takeQuotedBreaks : Nat → List Char → Cursor → Reading (List Char × Cursor)
  | 0, _, _ => malformed
  | fuel + 1, done, k =>
    if k.atDocumentMark then malformed
    else
      let k := k.skipWhile fun c => c == ' ' || c == '\t'
      match k.takeBreak with
      | ([], k) => .ok (done, k)
      | (b, k) => takeQuotedBreaks fuel (done ++ b) k

def takeEscape (k : Cursor) : Reading (List Char × Cursor) :=
  match k.peek with
  | none => malformed
  | some c =>
    match escapeChar? c, escapeWidth? c with
    | some e, _ => .ok ([e], k.next)
    | none, some width =>
      match takeCode? width k.next with
      | none => malformed
      | some (n, k) =>
        match if Text.isHighSurrogate n then takeLow? k else none with
        | some (m, k) => .ok ([Text.surrogatePair n m], k)
        | none => do return ([← codeChar n], k)
    | none, none =>
      if isBreak c then takeQuotedBreaks (k.rest.length + 1) [] k.takeBreak.2 else malformed

def takeQuoted (double : Bool) : Nat → List Char → Cursor → Reading (List Char × Cursor)
  | 0, _, _ => malformed
  | fuel + 1, done, k =>
    match k.takeWhile fun c => !(isSpacing c || c == '"' || c == '\'' || c == '\\') with
    | (c :: cs, k) => takeQuoted double fuel (done ++ c :: cs) k
    | ([], k) =>
      match k.peek with
      | none => malformed
      | some c =>
        if isSpacing c then do
          let (blanks, k) := k.takeWhile fun c => c == ' ' || c == '\t'
          match k.takeBreak with
          | ([], k) =>
            if k.peek = none then malformed else takeQuoted double fuel (done ++ blanks) k
          | (b, k) =>
            let (more, k) ← takeQuotedBreaks (k.rest.length + 1) [] k
            takeQuoted double fuel (done ++ foldBreaks b more) k
        else if double && c == '\\' then do
          let (cs, k) ← takeEscape k.next
          takeQuoted double fuel (done ++ cs) k
        else if c = (if double then '"' else '\'') then
          if !double && k.peekAt 1 = some '\'' then
            takeQuoted double fuel (done ++ ['\'']) (k.skip 2)
          else .ok (done, k.next)
        else takeQuoted double fuel (done ++ [c]) k.next

def isFlowMark (c : Char) : Bool := c == ',' || c == '[' || c == ']' || c == '\x7b' || c == '\x7d'

/-- The number of characters up to the end of a stretch of a plain scalar: a blank, a colon that
a blank follows, and inside a flow collection one of its marks. -/
def plainLength (inFlow : Bool) : List Char → Nat
  | [] => 0
  | c :: cs =>
    let colonEnds := c == ':' && cs.head?.all fun d => isSpacing d || (inFlow && isFlowMark d)
    if isSpacing c || colonEnds || (inFlow && (isFlowMark c || c == '?')) then 0
    else plainLength inFlow cs + 1

def takePlainBreaks : Nat → List Char → Cursor → Option (List Char) × Cursor
  | 0, _, k => (none, k)
  | fuel + 1, done, k =>
    match k.peek with
    | some c =>
      if c = ' ' then takePlainBreaks fuel done k.next
      else if isBreak c then
        let (b, k) := k.takeBreak
        if k.atDocumentMark then (none, k) else takePlainBreaks fuel (done ++ b) k
      else (some done, k)
    | none => (some done, k)

def takePlainSpaces (k : Cursor) : List Char × Bool × Cursor :=
  let (blanks, k) := k.takeWhile (· == ' ')
  match k.takeBreak with
  | ([], k) => (blanks, false, k)
  | (b, k) =>
    if k.atDocumentMark then ([], true, k)
    else match takePlainBreaks (k.rest.length + 1) [] k with
      | (some more, k) => (foldBreaks b more, true, k)
      | (none, k) => ([], true, k)

/-- A plain scalar: its text, whether it ended at a line break, and the place after it. `indent`
is the least column of its further lines outside a flow collection. -/
def takePlain (inFlow : Bool) (indent : Nat) :
    Nat → List Char → List Char → Bool → Cursor → List Char × Bool × Cursor
  | 0, done, _, broke, k => (done, broke, k)
  | fuel + 1, done, spaces, broke, k =>
    if k.peek = some '#' then (done, broke, k)
    else match plainLength inFlow k.rest with
      | 0 => (done, broke, k)
      | n =>
        let done := done ++ spaces ++ k.rest.take n
        let (spaces, broke, k) := takePlainSpaces (k.skip n)
        if spaces.isEmpty || k.peek = some '#' || (!inFlow && decide (k.column < indent)) then
          (done, broke, k)
        else takePlain inFlow indent fuel done spaces broke k

end TabPackager.Yaml
