import TabPackager.Calendar
import TabPackager.Number.Shortest
import TabPackager.Text.Literal

/-!
# Configuration values

The data that a configuration document holds, whatever its notation: scalars, sequences, sets
and mappings. Keys of a mapping are compared by value, so that one, one point zero and true are
the same key, and a repeated key keeps its first spelling and its last value.
-/

namespace TabPackager.Config

/-- A value of a configuration document. A mapping is the list of its entries, in the order in
which their keys first occur. -/
inductive Value where
  | null
  | bool (b : Bool)
  | int (n : Int)
  | float (x : Binary64)
  | text (s : String)
  | bytes (data : List UInt8)
  | date (d : Date)
  | dateTime (t : DateTime)
  | time (t : Time)
  | list (items : List Value)
  | tuple (items : List Value)
  | set (items : List Value)
  | map (entries : List (Value × Value))
  deriving Repr, Inhabited

abbrev Entries := List (Value × Value)

def numeralLimit : Nat := 4300

def numeralComplaint : String :=
  s!"Exceeds the limit ({numeralLimit} digits) for integer string conversion; " ++
    "use sys.set_int_max_str_digits() to increase the limit"

namespace Value

def number? : Value → Option (Int ⊕ Binary64)
  | bool b => some (.inl (if b then 1 else 0))
  | int n => some (.inl n)
  | float x => some (.inr x)
  | _ => none

def sameNumber : Int ⊕ Binary64 → Int ⊕ Binary64 → Bool
  | .inl m, .inl n => m == n
  | .inl m, .inr x => x.equalsInt m
  | .inr x, .inl n => x.equalsInt n
  | .inr x, .inr y => x.sameValue y

def instant (t : DateTime) : Int × Nat × Nat :=
  (t.date.dayNumber * 1440 + t.time.hour * 60 + t.time.minute - t.offset.getD 0,
    t.time.second, t.time.microsecond)

/-- Equality of moments: two with an offset are compared in universal time. -/
def sameMoment (s t : DateTime) : Bool :=
  s.offset.isSome == t.offset.isSome && instant s == instant t

mutual

/-- Equality of keys. A float that is no number differs from every key. -/
def sameKey (a b : Value) : Bool :=
  match a, b with
  | null, null => true
  | text s, text t => s == t
  | bytes s, bytes t => s == t
  | date s, date t => s == t
  | dateTime s, dateTime t => sameMoment s t
  | time s, time t => s == t
  | tuple xs, tuple ys => sameKeys xs ys
  | list xs, list ys => sameKeys xs ys
  | a, b =>
    match a.number?, b.number? with
    | some m, some n => sameNumber m n
    | _, _ => false

def sameKeys : List Value → List Value → Bool
  | [], [] => true
  | x :: xs, y :: ys => sameKey x y && sameKeys xs ys
  | _, _ => false

end

def isKey : Value → Bool
  | list _ | set _ | map _ => false
  | _ => true

/-- A duration in the notation of a literal: days and seconds, of which only the days may be
negative. -/
def durationLiteral (minutes : Int) : String :=
  let days := minutes.fdiv 1440
  let seconds := minutes.fmod 1440 * 60
  let parts := (if days = 0 then [] else [s!"days={days}"]) ++
    (if seconds = 0 then [] else [s!"seconds={seconds}"])
  "datetime.timedelta(" ++ (if parts.isEmpty then "0" else ", ".intercalate parts) ++ ")"

def timeFields (t : Time) : List Nat :=
  [t.hour, t.minute] ++
    if t.microsecond ≠ 0 then [t.second, t.microsecond]
    else if t.second ≠ 0 then [t.second]
    else []

def callLiteral (name : String) (fields : List Nat) (more : List String) : String :=
  name ++ "(" ++ ", ".intercalate (fields.map toString ++ more) ++ ")"

def offsetLiteral (minutes : Int) : String :=
  if minutes = 0 then "datetime.timezone.utc"
  else "datetime.timezone(" ++ durationLiteral minutes ++ ")"

mutual

def literal : Value → String
  | null => "None"
  | bool b => if b then "True" else "False"
  | int n => toString n
  | float x => x.text
  | text s => Text.literal s
  | bytes data => Text.bytesLiteral data
  | date d => callLiteral "datetime.date" [d.year, d.month, d.day] []
  | dateTime t =>
    callLiteral "datetime.datetime" ([t.date.year, t.date.month, t.date.day] ++ timeFields t.time)
      (t.offset.toList.map fun m => "tzinfo=" ++ offsetLiteral m)
  | time t => callLiteral "datetime.time" (timeFields t) []
  | tuple [x] => "(" ++ literal x ++ ",)"
  | tuple xs => "(" ++ ", ".intercalate (literals xs) ++ ")"
  | list xs => "[" ++ ", ".intercalate (literals xs) ++ "]"
  | set xs => "\x7b" ++ ", ".intercalate (literals xs) ++ "\x7d"
  | map es => "\x7b" ++ ", ".intercalate (entryLiterals es) ++ "\x7d"

def literals : List Value → List String
  | [] => []
  | x :: xs => literal x :: literals xs

def entryLiterals : List (Value × Value) → List String
  | [] => []
  | (k, v) :: es => (literal k ++ ": " ++ literal v) :: entryLiterals es

end

/-- The text of a key inside a message: texts, days and times stand bare. -/
def keyText : Value → String
  | text s => s
  | date d => d.text
  | dateTime t => t.textWith " "
  | time t => t.text
  | v => v.literal

mutual

def isShowable : Value → Bool
  | int n => decide (n.natAbs < Nat.pow 10 numeralLimit)
  | tuple xs => areShowable xs
  | _ => true

def areShowable : List Value → Bool
  | [] => true
  | x :: xs => isShowable x && areShowable xs

end

end Value

namespace Entries

/-- The entries with the key set to the value: in place if the key is there, else at the end.
`same` decides which keys are the same. -/
def insertBy {κ α : Type} (same : κ → κ → Bool) (key : κ) (value : α) :
    List (κ × α) → List (κ × α)
  | [] => [(key, value)]
  | (k, v) :: es =>
    if same k key then (k, value) :: es else (k, v) :: insertBy same key value es

def insert (es : Entries) (key value : Value) : Entries :=
  insertBy Value.sameKey key value es

def get? (es : Entries) (name : String) : Option Value :=
  match es with
  | [] => none
  | (.text s, v) :: es => if s = name then some v else get? es name
  | _ :: es => get? es name

end Entries

end TabPackager.Config
