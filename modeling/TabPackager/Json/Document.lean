import TabPackager.Config.Reading
import TabPackager.Text.Surrogate

/-!
# JSON documents

Reading of a configuration in JSON. Beside the standard grammar the three names of infinite and
undefined numbers are accepted. In an object with a repeated key the last value counts.
-/

namespace TabPackager.Json

open Config

def skipBlanks (cs : List Char) : List Char :=
  cs.dropWhile fun c => c == ' ' || c == '\t' || c == '\n' || c == '\r'

def takeCode : List Char → Reading (Nat × List Char)
  | a :: b :: c :: d :: cs =>
    match Text.natOfChars? 16 [a, b, c, d] with
    | some n => .ok (n, cs)
    | none => malformed
  | _ => malformed

def escapeChar? : Char → Option Char
  | '"' => some '"'
  | '\\' => some '\\'
  | '/' => some '/'
  | 'b' => some '\x08'
  | 'f' => some '\x0c'
  | 'n' => some '\n'
  | 'r' => some '\r'
  | 't' => some '\t'
  | _ => none

def takeUnit (cs : List Char) : Reading (Char × List Char) := do
  let (n, rest) ← takeCode cs
  match Text.isHighSurrogate n, rest with
  | true, '\\' :: 'u' :: more =>
    let (m, after) ← takeCode more
    if Text.isLowSurrogate m then return (Text.surrogatePair n m, after)
    else return (Text.codePoint n, rest)
  | _, _ => return (Text.codePoint n, rest)

/-- The characters of a string up to its closing quote, the latest first in `done`, and the
rest. -/
def takeString : Nat → List Char → List Char → Reading (String × List Char)
  | 0, _, _ => malformed
  | fuel + 1, done, cs =>
    match cs with
    | [] => malformed
    | '"' :: rest => .ok (String.ofList done.reverse, rest)
    | '\\' :: 'u' :: rest => do
      let (c, rest) ← takeUnit rest
      takeString fuel (c :: done) rest
    | '\\' :: e :: rest =>
      match escapeChar? e with
      | some c => takeString fuel (c :: done) rest
      | none => malformed
    | c :: rest => if c.toNat < 0x20 ∨ c = '\\' then malformed else takeString fuel (c :: done) rest

def takeDigits (cs : List Char) : List Char × List Char :=
  (cs.takeWhile isDecimal, cs.dropWhile isDecimal)

def takeFraction : List Char → List Char × List Char
  | '.' :: cs =>
    match takeDigits cs with
    | ([], _) => ([], '.' :: cs)
    | (ds, rest) => ('.' :: ds, rest)
  | cs => ([], cs)

def takeExponent (cs : List Char) : List Char × List Char :=
  match cs with
  | e :: rest =>
    if e = 'e' ∨ e = 'E' then
      let (sign, more) := match rest with
        | '+' :: r => (['+'], r)
        | '-' :: r => (['-'], r)
        | r => ([], r)
      match takeDigits more with
      | ([], _) => ([], cs)
      | (ds, after) => (e :: sign ++ ds, after)
    else ([], cs)
  | [] => ([], [])

def takeNumber (cs : List Char) : Reading (Value × List Char) := do
  let (negative, body) := match cs with
    | '-' :: r => (true, r)
    | r => (false, r)
  let (whole, rest) := match body with
    | '0' :: r => (['0'], r)
    | r => takeDigits r
  if whole.isEmpty then malformed
  let (fraction, rest) := takeFraction rest
  let (exponent, rest) := takeExponent rest
  if fraction.isEmpty && exponent.isEmpty then
    return (.int (← decimalInt negative (whole.map digitValue)), rest)
  match Binary64.unsignedNumeral? negative (whole ++ fraction ++ exponent) with
  | some x => return (.float x, rest)
  | none => malformed

mutual

/-- The value at the front, in which values may nest to a depth. -/
def takeValue : Nat → Nat → List Char → Reading (Value × List Char)
  | 0, _, _ => malformed
  | fuel + 1, depth, cs =>
    match cs with
    | '"' :: r => do
      let (s, rest) ← takeString (r.length + 1) [] r
      return (.text s, rest)
    | '\x7b' :: r => do
      let depth ← stepDown .mapping 1 depth
      match skipBlanks r with
      | '\x7d' :: rest => return (.map [], rest)
      | r => takeMembers fuel depth [] r
    | '[' :: r => do
      let depth ← stepDown .list 1 depth
      match skipBlanks r with
      | ']' :: rest => return (.list [], rest)
      | r => takeItems fuel depth [] r
    | 'n' :: 'u' :: 'l' :: 'l' :: r => .ok (.null, r)
    | 't' :: 'r' :: 'u' :: 'e' :: r => .ok (.bool true, r)
    | 'f' :: 'a' :: 'l' :: 's' :: 'e' :: r => .ok (.bool false, r)
    | 'N' :: 'a' :: 'N' :: r => .ok (.float .nan, r)
    | 'I' :: 'n' :: 'f' :: 'i' :: 'n' :: 'i' :: 't' :: 'y' :: r => .ok (.float (.infinite false), r)
    | '-' :: 'I' :: 'n' :: 'f' :: 'i' :: 'n' :: 'i' :: 't' :: 'y' :: r =>
      .ok (.float (.infinite true), r)
    | r => takeNumber r

def takeItems : Nat → Nat → List Value → List Char → Reading (Value × List Char)
  | 0, _, _, _ => malformed
  | fuel + 1, depth, done, cs => do
    let (v, rest) ← takeValue fuel depth cs
    match skipBlanks rest with
    | ',' :: r => takeItems fuel depth (v :: done) (skipBlanks r)
    | ']' :: r => return (.list (v :: done).reverse, r)
    | _ => malformed

def takeMembers : Nat → Nat → Entries → List Char → Reading (Value × List Char)
  | 0, _, _, _ => malformed
  | fuel + 1, depth, done, cs =>
    match cs with
    | '"' :: r => do
      let (key, rest) ← takeString (r.length + 1) [] r
      match skipBlanks rest with
      | ':' :: rest =>
        let (v, rest) ← takeValue fuel depth (skipBlanks rest)
        let entries := Entries.insert done (.text key) v
        match skipBlanks rest with
        | ',' :: r => takeMembers fuel depth entries (skipBlanks r)
        | '\x7d' :: r => return (.map entries, r)
        | _ => malformed
      | _ => malformed
    | _ => malformed

end

/-- The value of a JSON document: one value with blanks around it. A byte-order mark is no
blank. -/
def read (cs : List Char) : Reading Value := do
  let (v, rest) ← takeValue (2 * cs.length + 1) nestingLimit (skipBlanks cs)
  match skipBlanks rest with
  | [] => return v
  | _ => malformed

end TabPackager.Json
