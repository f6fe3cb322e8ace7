import TabPackager.Console
import TabPackager.Path
import TabPackager.Text.Digit
import TabPackager.Text.Literal
import TabPackager.Text.Split

/-!
# Options of the command line

The options, their spellings, and how an argument vector is taken apart. An argument is classed
first: as an option, by its spelling, by a beginning that only one long spelling has, or by a
short spelling with more behind it; as an unknown option; or as a plain argument. Then the
classes are worked off in order. Plain arguments that stand together first are taken as a group;
all later ones go with the unknown options. A separator never counts as a value: an option to
which nothing else is attached is given without one.
-/

namespace TabPackager.CommandLine

inductive Flag where
  | help
  | dryRun
  | verbose
  deriving DecidableEq, Repr

inductive Setting where
  | config
  | directory
  | bundle
  | log
  deriving DecidableEq, Repr

inductive Switch where
  | flag (f : Flag)
  | setting (s : Setting)
  deriving DecidableEq, Repr

def spellings : List (String × Switch) :=
  [("-h", .flag .help), ("--help", .flag .help),
    ("--config", .setting .config), ("-c", .setting .config),
    ("--directory", .setting .directory), ("-C", .setting .directory),
    ("--dry-run", .flag .dryRun), ("-n", .flag .dryRun),
    ("--bundle", .setting .bundle),
    ("--verbose", .flag .verbose), ("-v", .flag .verbose),
    ("--log", .setting .log), ("-l", .setting .log)]

def Switch.name (s : Switch) : String :=
  "/".intercalate ((spellings.filter fun e => decide (e.2 = s)).map Prod.fst)

inductive Refused where
  | ambiguous (argument : String) (candidates : List String)
  | missingValue (s : Switch)
  | ignoredValue (s : Switch) (value : String)
  | invalidChoice (s : Switch) (value : String)
  deriving DecidableEq, Repr

def Refused.message : Refused → String
  | ambiguous a cs => s!"ambiguous option: {a} could match " ++ ", ".intercalate cs
  | missingValue s => s!"argument {s.name}: expected one argument"
  | ignoredValue s v => s!"argument {s.name}: ignored explicit argument " ++ Text.literal v
  | invalidChoice s v =>
    s!"argument {s.name}: invalid choice: " ++ Text.literal v ++ " (choose from " ++
      ", ".intercalate (Level.all.map fun l => Text.literal l.name) ++ ")"

/-- An argument by its class. A known option comes with whether its spelling is short and the
text that is attached to it. -/
inductive Token where
  | plain (s : String)
  | separator
  | unknown (s : String)
  | option (s : Switch) (short : Bool) (attached : Option (List Char))
  deriving DecidableEq, Repr

def isShort (spelling : String) : Bool := spelling.toList.length == 2

def switch? (spelling : List Char) : Option Switch := spellings.lookup (String.ofList spelling)

def isNegativeNumber (cs : List Char) : Bool :=
  let digits (ds : List Char) : Bool := ds.all fun c => (Text.decimalDigit? c).isSome
  let body := match cs.reverse with
    | '\n' :: rest => rest.reverse
    | _ => cs
  match body with
  | '-' :: rest =>
    match rest.takeWhile (· != '.'), rest.dropWhile (· != '.') with
    | whole, [] => !whole.isEmpty && digits whole
    | whole, _ :: fraction => digits whole && !fraction.isEmpty && digits fraction
  | _ => false

def longMatches (cs : List Char) : List (String × Token) :=
  let (start, value) := Text.cutAt '=' cs
  (spellings.filter fun e => start.isPrefixOf e.1.toList).map fun e =>
    (e.1, .option e.2 (isShort e.1) value)

def shortMatches (cs : List Char) : List (String × Token) :=
  (spellings.filter fun e => e.1.toList == cs.take 2).map fun e =>
    (e.1, .option e.2 true (some (cs.drop 2)))

def looksLikeOption : List Char → Bool
  | '-' :: _ :: _ => true
  | _ => false

def classify (a : String) : Except Refused Token :=
  let cs := a.toList
  if !looksLikeOption cs then .ok (.plain a)
  else match switch? cs with
    | some s => .ok (.option s (isShort a) none)
    | none =>
      let exact : Option Token := match Text.cutAt '=' cs with
        | (spelling, some value) =>
          (switch? spelling).map fun s => .option s (isShort (String.ofList spelling)) (some value)
        | (_, none) => none
      match exact with
      | some t => .ok t
      | none =>
        match if cs.take 2 = ['-', '-'] then longMatches cs else shortMatches cs with
        | [(_, t)] => .ok t
        | [] =>
          if isNegativeNumber cs || cs.contains ' ' then .ok (.plain a) else .ok (.unknown a)
        | found => .error (.ambiguous a (found.map Prod.fst))

def tokens : List String → Except Refused (List Token)
  | [] => .ok []
  | a :: rest =>
    if a = "--" then .ok (.separator :: rest.map .plain)
    else do
      let t ← classify a
      return t :: (← tokens rest)

/-- What a command line says of an option with a value: nothing, the value, or that the option is
there without one. -/
inductive Given (α : Type) where
  | absent
  | withoutValue
  | value (a : α)
  deriving DecidableEq, Repr, Inhabited

namespace Given

def value? {α : Type} : Given α → Option α
  | value a => some a
  | _ => none

def path (text : String) : Given Path :=
  if text = "--" then withoutValue else value (Path.parse text)

end Given

structure Options where
  config : Given Path := .absent
  directory : Given Path := .absent
  bundle : Given Path := .absent
  dryRun : Bool := false
  verbose : Bool := false
  log : Level := .none
  deriving DecidableEq, Repr, Inhabited

/-- Whether the first group of plain arguments is still to come, goes on, or has ended. -/
inductive Group where
  | ahead
  | here
  | ended
  deriving DecidableEq, Repr

structure Seen where
  options : Options := {}
  first : List String := []
  others : List String := []
  group : Group := .ahead
  deriving DecidableEq, Repr

inductive Stop where
  | help
  | refused (r : Refused)
  deriving DecidableEq, Repr

namespace Seen

def addPlain (s : Seen) (a : String) : Seen :=
  match s.group with
  | .ended => { s with others := s.others ++ [a] }
  | _ => { s with first := s.first ++ [a], group := .here }

/-- Adds the separator, which vanishes in the first group. -/
def addSeparator (s : Seen) : Seen :=
  match s.group with
  | .ended => { s with others := s.others ++ ["--"] }
  | _ => { s with group := .here }

def endGroup (s : Seen) : Seen :=
  match s.group with
  | .here => { s with group := .ended }
  | _ => s

def addUnknown (s : Seen) (a : String) : Seen :=
  { s.endGroup with others := s.others ++ [a] }

def setFlag (s : Seen) (f : Flag) : Except Stop Seen :=
  match f with
  | .help => .error .help
  | .dryRun => .ok { s with options := { s.options with dryRun := true } }
  | .verbose => .ok { s with options := { s.options with verbose := true } }

def setFlags (s : Seen) : List Flag → Except Stop Seen
  | [] => .ok s
  | f :: fs => do (← s.setFlag f).setFlags fs

/-- Gives an option its value. Without one the level of messages is none. -/
def setValue (s : Seen) (t : Setting) (v : String) : Except Stop Seen :=
  match t with
  | .config => .ok { s with options := { s.options with config := .path v } }
  | .directory => .ok { s with options := { s.options with directory := .path v } }
  | .bundle => .ok { s with options := { s.options with bundle := .path v } }
  | .log =>
    if v = "--" then .ok { s with options := { s.options with log := .none } }
    else match Level.ofName? v with
      | some l => .ok { s with options := { s.options with log := l } }
      | none => .error (.refused (.invalidChoice (.setting .log) v))

end Seen

/-- What an option with attached text comes to: flags, and perhaps at the end an option with a
value, which is still to come if no text is left. The text behind a short flag is read as further
short options. -/
def unpack : Switch → Bool → Option (List Char) →
    Except Stop (List Flag × Option (Setting × Option String))
  | .setting t, _, attached => .ok ([], some (t, attached.map String.ofList))
  | .flag f, _, none => .ok ([f], none)
  | .flag f, _, some [] => .error (.refused (.ignoredValue (.flag f) ""))
  | .flag f, short, some (c :: cs) =>
    match if short then switch? ['-', c] else none with
    | none => .error (.refused (.ignoredValue (.flag f) (String.ofList (c :: cs))))
    | some s => do
      let (fs, last) ← unpack s true (if cs.isEmpty then none else some cs)
      return (f :: fs, last)
  termination_by _ _ attached => (attached.map List.length).getD 0
  decreasing_by
    all_goals simp_wf
    split <;> simp_all

def read (s : Seen) : List Token → Except Stop Seen
  | [] => .ok s
  | .plain a :: ts => read (s.addPlain a) ts
  | .separator :: ts => read s.addSeparator ts
  | .unknown a :: ts => read (s.addUnknown a) ts
  | .option o short attached :: ts => do
    let (flags, last) ← unpack o short attached
    match last, ts with
    | none, ts => read (← s.endGroup.setFlags flags) ts
    | some (t, some v), ts => read (← (← s.endGroup.setFlags flags).setValue t v) ts
    | some (t, none), .plain v :: ts => read (← (← s.endGroup.setFlags flags).setValue t v) ts
    | some (t, none), _ => .error (.refused (.missingValue (.setting t)))

def parse (argv : List String) : Except Stop (Options × List String) :=
  match tokens argv with
  | .error r => .error (.refused r)
  | .ok ts => (read {} ts).map fun s => (s.options, s.first ++ s.others)

end TabPackager.CommandLine
