import TabPackager.Yaml.Cursor

/-!
# Tags of YAML scalars

The tags of the notation's own types, and the tag that a plain scalar takes by the form of its
text: a truth value, a number, a time, null, the merge mark, the default mark, and a text
otherwise.
-/

namespace TabPackager.Yaml.Tag

open Config

def core (name : String) : String := "tag:yaml.org,2002:" ++ name

def boolWords : List (String × Bool) :=
  [("yes", true), ("no", false), ("true", true), ("false", false), ("on", true), ("off", false)]

def spellings (word : String) : List String := [word, word.capitalize, word.toUpper]

def isBool (s : String) : Bool := boolWords.any fun (w, _) => (spellings w).contains s

def isNull (s : String) : Bool := s = "" || s = "~" || (spellings "null").contains s

def isDigits (base : Nat) (cs : List Char) : Bool :=
  !cs.isEmpty && cs.all fun c => c == '_' || (Text.digitBelow? base c).isSome

/-- Whether the text starts with a digit and goes on with digits and underscores. -/
def isNumeral (cs : List Char) : Bool :=
  cs.head?.any isDecimal && isDigits 10 cs

def isSixtieth : List Char → Bool
  | [a] => isDecimal a
  | [a, b] => isDecimal a && isDecimal b && decide (digitValue a < 6)
  | _ => false

def isSexagesimal (cs : List Char) : Bool :=
  match cs.splitOn ':' with
  | whole :: part :: parts => isNumeral whole && (part :: parts).all isSixtieth
  | _ => false

def isInt (s : String) : Bool :=
  let body := (Binary64.takeSign s.toList).2
  match body with
  | '0' :: 'b' :: ds => isDigits 2 ds
  | '0' :: 'x' :: ds => isDigits 16 ds
  | ['0'] => true
  | '0' :: ds => isDigits 8 ds
  | _ => isNumeral body || isSexagesimal body

def isExponent : List Char → Bool
  | [] => true
  | e :: sign :: ds =>
    (e == 'e' || e == 'E') && (sign == '+' || sign == '-') && !ds.isEmpty && ds.all isDecimal
  | _ => false

def isFraction (cs : List Char) : Bool :=
  isExponent (cs.dropWhile fun c => c == '_' || isDecimal c)

def isFloat (s : String) : Bool :=
  let body := (Binary64.takeSign s.toList).2
  let unsigned := body.length == s.length
  match Text.cutAt '.' body with
  | ([], some rest) =>
    (spellings "inf").contains (String.ofList rest) ||
      (unsigned && (["nan", "NaN", "NAN"].contains (String.ofList rest) ||
        (rest.head?.any isDecimal && isFraction rest)))
  | (whole, some rest) =>
    (isNumeral whole && isFraction rest) ||
      (isSexagesimal whole && rest.all fun c => c == '_' || isDecimal c)
  | (_, none) => false

structure Stamp where
  year : Nat
  month : Nat
  day : Nat
  /-- Hour, minute, second, the digits of the fraction, and the offset in minutes. -/
  time : Option (Nat × Nat × Nat × List Nat × Option Int)

def takeOneTwo? : List Char → Option (Nat × List Char)
  | a :: b :: cs =>
    if !isDecimal a then none
    else if isDecimal b then some (10 * digitValue a + digitValue b, cs)
    else some (digitValue a, b :: cs)
  | [a] => if isDecimal a then some (digitValue a, []) else none
  | [] => none

def takeTwo? : List Char → Option (Nat × List Char)
  | a :: b :: cs =>
    if isDecimal a && isDecimal b then some (10 * digitValue a + digitValue b, cs) else none
  | _ => none

def takeMark? (c : Char) : List Char → Option (List Char)
  | d :: cs => if d = c then some cs else none
  | [] => none

/-- An offset at the end of a time stamp, with blanks before it; none if there is nothing. -/
def offset? (cs : List Char) : Option (Option Int) :=
  if cs.isEmpty then some none
  else match cs.dropWhile fun c => c == ' ' || c == '\t' with
    | ['Z'] => some (some 0)
    | sign :: rest => do
      if sign ≠ '+' ∧ sign ≠ '-' then none
      let (h, rest) ← takeOneTwo? rest
      let m ← match rest with
        | [] => some 0
        | ':' :: rest => do
          let (m, rest) ← takeTwo? rest
          if rest.isEmpty then some m else none
        | _ => none
      let n : Int := h * 60 + m
      return some (if sign = '-' then -n else n)
    | [] => none

def timeOfDay? (cs : List Char) : Option (Nat × Nat × Nat × List Nat × Option Int) := do
  let cs ← match cs with
    | 'T' :: rest => some rest
    | 't' :: rest => some rest
    | c :: rest =>
      if c = ' ' ∨ c = '\t' then some (rest.dropWhile fun c => c == ' ' || c == '\t') else none
    | [] => none
  let (h, cs) ← takeOneTwo? cs
  let (m, cs) ← takeTwo? (← takeMark? ':' cs)
  let (s, cs) ← takeTwo? (← takeMark? ':' cs)
  let (fraction, cs) := match cs with
    | '.' :: rest => ((rest.takeWhile isDecimal).map digitValue, rest.dropWhile isDecimal)
    | _ => ([], cs)
  return (h, m, s, fraction, ← offset? cs)

def stamp? (cs : List Char) : Option Stamp := do
  let (century, cs) ← takeTwo? cs
  let (year, cs) ← takeTwo? cs
  let (month, cs) ← takeOneTwo? (← takeMark? '-' cs)
  let (day, cs) ← takeOneTwo? (← takeMark? '-' cs)
  let date (time : Option (Nat × Nat × Nat × List Nat × Option Int)) : Stamp :=
    ⟨100 * century + year, month, day, time⟩
  if cs.isEmpty then return date none
  return date (← timeOfDay? cs)

/-- Whether the text is a time stamp. A day alone takes two digits for month and day. -/
def isStamp (s : String) : Bool :=
  match stamp? s.toList with
  | some t => t.time.isSome || s.length = 10
  | none => false

/-- The text without a line feed at its end, which the forms do not see. -/
def withoutLineEnd (s : String) : String :=
  match s.toList.reverse with
  | '\n' :: cs => String.ofList cs.reverse
  | _ => s

def ofPlain (text : String) : String :=
  if text = "" then core "null"
  else if text = "\n" then core "str"
  else
    let s := withoutLineEnd text
    if isBool s then core "bool"
    else if isFloat s then core "float"
    else if isInt s then core "int"
    else if s = "<<" then core "merge"
    else if isNull s then core "null"
    else if isStamp s then core "timestamp"
    else if s = "=" then core "value"
    else if s = "!" ∨ s = "&" ∨ s = "*" then core "yaml"
    else core "str"

end TabPackager.Yaml.Tag
