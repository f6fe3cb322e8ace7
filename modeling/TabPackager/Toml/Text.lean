import TabPackager.Config.Reading

/-!
# Strings, numbers and times of TOML

The scalars of a TOML document: the four kinds of string with their escapes, whole numbers in
four bases, floats, and days and times with or without an offset. Each reader takes the scalar at
the front of the text and gives back the rest.
-/

namespace TabPackager.Toml

open Config

def isSpace (c : Char) : Bool := c == ' ' || c == '\t'

def skipSpaces (cs : List Char) : List Char := cs.dropWhile isSpace

def isSpaceOrLine (c : Char) : Bool := isSpace c || c == '\n'

def isControl (c : Char) : Bool := (decide (c.toNat < 32) || c.toNat == 127) && c != '\t'

def skipComment : List Char → Reading (List Char)
  | '#' :: cs =>
    if (cs.takeWhile (· != '\n')).any isControl then malformed
    else .ok (cs.dropWhile (· != '\n'))
  | cs => .ok cs

def escapeChar? : Char → Option Char
  | 'b' => some '\x08'
  | 't' => some '\t'
  | 'n' => some '\n'
  | 'f' => some '\x0c'
  | 'r' => some '\r'
  | '"' => some '"'
  | '\\' => some '\\'
  | _ => none

def takeCode (width : Nat) (cs : List Char) : Reading (Char × List Char) :=
  let digits := cs.take width
  match if digits.length = width then Text.natOfChars? 16 digits else none with
  | some n =>
    if n < 0xD800 ∨ (0xE000 ≤ n ∧ n < 0x110000) then .ok (Char.ofNat n, cs.drop width)
    else malformed
  | none => malformed

def skipLineEnd (cs : List Char) : Reading (List Char) :=
  match skipSpaces cs with
  | [] => .ok []
  | '\n' :: rest => .ok (rest.dropWhile isSpaceOrLine)
  | _ => malformed

/-- The characters of a basic string up to its end, the latest first in `done`, and the rest. -/
def takeBasic (multiline : Bool) : Nat → List Char → List Char → Reading (List Char × List Char)
  | 0, _, _ => malformed
  | fuel + 1, done, cs =>
    match cs with
    | [] => malformed
    | '"' :: rest =>
      if !multiline then .ok (done.reverse, rest)
      else match rest with
        | '"' :: '"' :: rest => .ok (done.reverse, rest)
        | _ => takeBasic multiline fuel ('"' :: done) rest
    | ['\\'] => malformed
    | '\\' :: e :: rest =>
      if multiline && isSpaceOrLine e then do
        takeBasic multiline fuel done (← skipLineEnd (e :: rest))
      else if e = 'u' ∨ e = 'U' then do
        let (c, rest) ← takeCode (if e = 'u' then 4 else 8) rest
        takeBasic multiline fuel (c :: done) rest
      else match escapeChar? e with
        | some c => takeBasic multiline fuel (c :: done) rest
        | none => malformed
    | c :: rest =>
      if isControl c && !(multiline && c == '\n') then malformed
      else takeBasic multiline fuel (c :: done) rest

def takeToQuotes : List Char → List Char → Option (List Char × List Char)
  | _, [] => none
  | done, '\'' :: '\'' :: '\'' :: rest => some (done.reverse, rest)
  | done, c :: rest => takeToQuotes (c :: done) rest

def takeLiteral (cs : List Char) : Reading (List Char × List Char) :=
  match Text.cutAt '\'' cs with
  | (s, some rest) => if s.any isControl then malformed else .ok (s, rest)
  | (_, none) => malformed

/-- At most two quotes that stand before the closing three belong to the string. -/
def takeExtraQuotes (mark : Char) (s rest : List Char) : List Char × List Char :=
  match rest with
  | a :: b :: more =>
    if a = mark then (if b = mark then (s ++ [mark, mark], more) else (s ++ [mark], b :: more))
    else (s, rest)
  | [a] => if a = mark then (s ++ [mark], []) else (s, rest)
  | [] => (s, rest)

def dropLine : List Char → List Char
  | '\n' :: cs => cs
  | cs => cs

def takeString (cs : List Char) : Reading (List Char × List Char) :=
  match cs with
  | '"' :: '"' :: '"' :: rest => do
    let body := dropLine rest
    let (s, rest) ← takeBasic true (body.length + 1) [] body
    return takeExtraQuotes '"' s rest
  | '"' :: rest => takeBasic false (rest.length + 1) [] rest
  | '\'' :: '\'' :: '\'' :: rest =>
    match takeToQuotes [] (dropLine rest) with
    | some (s, rest) =>
      if s.any fun c => isControl c && c != '\n' then malformed
      else .ok (takeExtraQuotes '\'' s rest)
    | none => malformed
  | '\'' :: rest => takeLiteral rest
  | _ => malformed

/-- Digits with single underscores between them, of which the first has been taken; the
underscores are left out. -/
def takeMoreDigits (isDigit : Char → Bool) : List Char → List Char × List Char
  | '_' :: c :: cs =>
    if isDigit c then let (ds, rest) := takeMoreDigits isDigit cs; (c :: ds, rest)
    else ([], '_' :: c :: cs)
  | c :: cs =>
    if isDigit c then let (ds, rest) := takeMoreDigits isDigit cs; (c :: ds, rest)
    else ([], c :: cs)
  | [] => ([], [])

def takeDigits? (isDigit : Char → Bool) : List Char → Option (List Char × List Char)
  | c :: cs =>
    if isDigit c then let (ds, rest) := takeMoreDigits isDigit cs; some (c :: ds, rest)
    else none
  | [] => none

def isDigitBelow (base : Nat) (c : Char) : Bool := (Text.digitBelow? base c).isSome

/-- A whole number with a letter for its base, which is written without sign. -/
def takeBased? : List Char → Option (Value × List Char)
  | '0' :: mark :: cs => do
    let base ← match mark with
      | 'x' => some 16
      | 'o' => some 8
      | 'b' => some 2
      | _ => none
    let (ds, rest) ← takeDigits? (isDigitBelow base) cs
    return (.int (← Text.natOfChars? base ds), rest)
  | _ => none

def takeDecimal? (cs : List Char) : Option (Reading (Value × List Char)) := do
  let (negative, body) := Binary64.takeSign cs
  let (whole, rest) ← match body with
    | '0' :: rest => some (['0'], rest)
    | _ => takeDigits? isDecimal body
  let (fraction, rest) := match rest with
    | '.' :: more =>
      match takeDigits? isDecimal more with
      | some (ds, rest) => ('.' :: ds, rest)
      | none => ([], rest)
    | _ => ([], rest)
  let (exponent, rest) := match rest with
    | e :: more =>
      if e = 'e' ∨ e = 'E' then
        let (s, digits) := Binary64.takeSign more
        match takeDigits? isDecimal digits with
        | some (ds, rest) => ('e' :: (if s then '-' :: ds else ds), rest)
        | none => ([], rest)
      else ([], rest)
    | [] => ([], rest)
  if fraction.isEmpty && exponent.isEmpty then
    return (decimalInt negative (whole.map digitValue)).map fun n => (.int n, rest)
  let x ← Binary64.unsignedNumeral? negative (whole ++ fraction ++ exponent)
  return .ok (.float x, rest)

def takeSpecial? (cs : List Char) : Option (Value × List Char) :=
  let (negative, body) := Binary64.takeSign cs
  match body with
  | 'i' :: 'n' :: 'f' :: rest => some (.float (.infinite negative), rest)
  | 'n' :: 'a' :: 'n' :: rest => some (.float .nan, rest)
  | _ => none

def takeTwo? (least greatest : Nat) : List Char → Option (Nat × List Char)
  | a :: b :: cs =>
    if isDecimal a && isDecimal b then
      let n := 10 * digitValue a + digitValue b
      if least ≤ n ∧ n ≤ greatest then some (n, cs) else none
    else none
  | _ => none

def takeMark? (c : Char) : List Char → Option (List Char)
  | d :: cs => if d = c then some cs else none
  | [] => none

/-- A time of day: hours, minutes, seconds, and a fraction of which six digits count. -/
def takeTime? (cs : List Char) : Option (Time × List Char) := do
  let (hour, rest) ← takeTwo? 0 23 cs
  let (minute, rest) ← takeTwo? 0 59 (← takeMark? ':' rest)
  let (second, rest) ← takeTwo? 0 59 (← takeMark? ':' rest)
  match rest with
  | '.' :: more =>
    let digits := more.takeWhile isDecimal
    if digits.isEmpty then return (⟨hour, minute, second, 0⟩, rest)
    let counted := (digits.take 6 ++ List.replicate 6 '0').take 6
    return (⟨hour, minute, second, Text.ofDigits 10 (counted.map digitValue)⟩,
      more.dropWhile isDecimal)
  | _ => return (⟨hour, minute, second, 0⟩, rest)

def takeOffset (cs : List Char) : Option Int × List Char :=
  match cs with
  | 'Z' :: rest => (some 0, rest)
  | 'z' :: rest => (some 0, rest)
  | sign :: rest =>
    if sign = '+' ∨ sign = '-' then
      match (do
        let (h, more) ← takeTwo? 0 23 rest
        let (m, more) ← takeTwo? 0 59 (← takeMark? ':' more)
        return (h * 60 + m, more)) with
      | some (m, more) => (some (if sign = '-' then -(m : Int) else m), more)
      | none => (none, cs)
    else (none, cs)
  | [] => (none, cs)

/-- A day, with a time and an offset if they follow; the day has to be one of the calendar. -/
def takeDateTime? (cs : List Char) : Option (Reading (Value × List Char)) := do
  let (century, rest) ← takeTwo? 0 99 cs
  let (year, rest) ← takeTwo? 0 99 rest
  let (month, rest) ← takeTwo? 1 12 (← takeMark? '-' rest)
  let (day, rest) ← takeTwo? 1 31 (← takeMark? '-' rest)
  let date : Date := ⟨century * 100 + year, month, day⟩
  let found : Value × List Char := match rest with
    | sep :: more =>
      if sep = 'T' ∨ sep = 't' ∨ sep = ' ' then
        match takeTime? more with
        | some (time, after) =>
          let (offset, after) := takeOffset after
          (.dateTime ⟨date, time, offset⟩, after)
        | none => (.date date, rest)
      else (.date date, rest)
    | [] => (.date date, rest)
  return if date.Valid then .ok found else malformed

def takeScalar (cs : List Char) : Reading (Value × List Char) :=
  match takeDateTime? cs with
  | some result => result
  | none =>
    match takeTime? cs with
    | some (t, rest) => .ok (.time t, rest)
    | none =>
      match takeBased? cs with
      | some found => .ok found
      | none =>
        match takeDecimal? cs with
        | some result => result
        | none =>
          match takeSpecial? cs with
          | some found => .ok found
          | none => malformed

end TabPackager.Toml
