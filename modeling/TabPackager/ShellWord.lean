/-!
# Shell words

How an argument vector is written as one line of shell text, and how a shell reads words back.
A word made of harmless characters stands as it is. Any other word is put between single quotes,
and a single quote inside it is written as a double-quoted single quote between two quoted
pieces. `splitWords` is the reading side: blanks outside quotes separate words, single quotes
keep everything, double quotes keep everything but the backslash pairs of the shell grammar.
-/

namespace TabPackager.ShellWord

def isPlain (c : Char) : Bool :=
  c.isAlphanum || c == '_' || c == '@' || c == '%' || c == '+' || c == '=' || c == ':' ||
    c == ',' || c == '.' || c == '/' || c == '-'

/-- A character inside single quotes; a single quote leaves them, stands between double quotes
and enters them again. -/
def quotedChar (c : Char) : List Char :=
  if c = '\'' then ['\'', '"', '\'', '"', '\''] else [c]

def quoteChars (w : List Char) : List Char :=
  if w ≠ [] ∧ w.all isPlain then w else '\'' :: w.flatMap quotedChar ++ ['\'']

def quote (w : String) : String := String.ofList (quoteChars w.toList)

def formatCommand (command : List String) : String := " ".intercalate (command.map quote)

inductive Quoting where
  | none
  | escaped
  | single
  | double
  | doubleEscaped
  deriving DecidableEq, Repr

/-- The reader of shell text: the finished words, and the word begun if there is one, both with
the latest first. -/
structure Reader where
  quoting : Quoting
  words : List (List Char)
  word : Option (List Char)
  deriving DecidableEq, Repr

namespace Reader

def start : Reader := ⟨.none, [], none⟩

def add (r : Reader) (c : Char) : Reader :=
  { r with word := some (c :: r.word.getD []) }

def begin (r : Reader) (q : Quoting) : Reader :=
  { r with quoting := q, word := some (r.word.getD []) }

def finish (r : Reader) : Reader :=
  match r.word with
  | some w => { r with words := w.reverse :: r.words, word := none }
  | none => r

def step (r : Reader) (c : Char) : Reader :=
  match r.quoting with
  | .none =>
    if c = ' ' ∨ c = '\t' ∨ c = '\n' then r.finish
    else if c = '\'' then r.begin .single
    else if c = '"' then r.begin .double
    else if c = '\\' then { r with quoting := .escaped }
    else r.add c
  | .escaped => if c = '\n' then { r with quoting := .none } else { r.add c with quoting := .none }
  | .single => if c = '\'' then { r with quoting := .none } else r.add c
  | .double =>
    if c = '"' then { r with quoting := .none }
    else if c = '\\' then { r with quoting := .doubleEscaped }
    else r.add c
  | .doubleEscaped =>
    if c = '\n' then { r with quoting := .double }
    else if c = '$' ∨ c = '\x60' ∨ c = '"' ∨ c = '\\' then { r.add c with quoting := .double }
    else { (r.add '\\').add c with quoting := .double }

end Reader

/-- The words of a shell text, or nothing when a quotation is left open. -/
def splitWords (text : List Char) : Option (List (List Char)) :=
  let r := text.foldl Reader.step Reader.start
  if r.quoting = .none then some r.finish.words.reverse else none

end TabPackager.ShellWord
