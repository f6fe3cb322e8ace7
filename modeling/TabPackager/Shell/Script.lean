import TabPackager.Text.Digit

/-!
# Shell scripts

The part of the shell language in which tools are written: simple commands one after the other, made
of assignments, words and redirections. Single quotes keep everything, double quotes everything but
dollar signs and some backslashes.
-/

namespace TabPackager.Shell

inductive Parameter where
  | named (name : String)
  | argument (n : Nat)
  | everyArgument
  | joinedArguments
  | argumentCount
  | lastStatus
  | processNumber
  deriving DecidableEq, Repr

/-- A piece of a word: a letter or a parameter, each in or outside of quotes, or a quotation that
may be empty. -/
inductive Piece where
  | letter (quoted : Bool) (c : Char)
  | parameter (quoted : Bool) (p : Parameter)
  | quotation
  deriving DecidableEq, Repr

abbrev Word := List Piece

inductive Opening where
  | truncate
  | extend
  | read
  | copy
  deriving DecidableEq, Repr

structure Redirection where
  channel : Nat
  opening : Opening
  target : Word
  deriving DecidableEq, Repr

inductive Joint where
  | always
  | onSuccess
  | onFailure
  deriving DecidableEq, Repr

structure Command where
  joint : Joint := .always
  assignments : List (String × Word) := []
  words : List Word := []
  redirections : List Redirection := []
  deriving DecidableEq, Repr

inductive Token where
  | word (w : Word)
  | channel (n : Nat)
  | sign (c : Char)
  deriving DecidableEq, Repr

def beginsName (c : Char) : Bool := c.isAlpha || c == '_'

def continuesName (c : Char) : Bool := c.isAlphanum || c == '_'

def specialParameter? (c : Char) : Option Parameter :=
  if c = '@' then some .everyArgument
  else if c = '*' then some .joinedArguments
  else if c = '#' then some .argumentCount
  else if c = '?' then some .lastStatus
  else if c = '$' then some .processNumber
  else (Text.digitBelow? 10 c).map .argument

def parameter? : List Char → Option Parameter
  | [] => none
  | c :: cs =>
    if beginsName c && cs.all continuesName then some (.named (String.ofList (c :: cs)))
    else if cs.isEmpty then specialParameter? c
    else (Text.natOfChars? 10 (c :: cs)).map .argument

def parameterAt? : List Char → Option (Nat × Parameter)
  | [] => none
  | c :: cs =>
    if c = '\x7b' then
      let name := cs.takeWhile (· != '\x7d')
      (parameter? name).map (name.length + 2, ·)
    else
      let name := if beginsName c then c :: cs.takeWhile continuesName else [c]
      (parameter? name).map (name.length, ·)

inductive Quotes where
  | none
  | single
  | double
  deriving DecidableEq, Repr

/-- The tokens of a script, read between quotes or outside of them, with the pieces of the word
begun, if there is one, in reverse order. -/
def tokensFrom (quotes : Quotes) (word : Option Word) : List Char → Option (List Token)
  | [] => if quotes = .none then some (word.map (.word ·.reverse)).toList else none
  | c :: cs =>
    let add (p : Piece) : Option Word := some (p :: word.getD [])
    if quotes = .single then
      if c = '\'' then tokensFrom .none word cs else tokensFrom .single (add (.letter true c)) cs
    else
      let quoted := quotes = .double
      if c = '$' then
        match parameterAt? cs with
        | some (n, p) => tokensFrom quotes (add (.parameter quoted p)) (cs.drop n)
        | none => tokensFrom quotes (add (.letter quoted c)) cs
      else if c = '\\' then
        match cs with
        | [] => none
        | d :: cs =>
          let kept := !quoted || d == '$' || d == '\x60' || d == '"' || d == '\\'
          let word := if kept then word.getD [] else .letter true c :: word.getD []
          tokensFrom quotes (some (.letter true d :: word)) cs
      else if c = '"' then
        if quoted then tokensFrom .none word cs
        else if cs.head? = some '"' then tokensFrom .none (add .quotation) cs.tail
        else tokensFrom .double (some (word.getD [])) cs
      else if quoted then tokensFrom .double (add (.letter true c)) cs
      else if c = '\'' then tokensFrom .single (add .quotation) cs
      else
        let finished := (word.map (.word ·.reverse)).toList
        if c = ' ' ∨ c = '\t' then (tokensFrom .none none cs).map (finished ++ ·)
        else if c = '<' ∨ c = '>' then
          let before := match word with
            | some [.letter false d] => (Text.digitBelow? 10 d).elim finished ([.channel ·])
            | _ => finished
          (tokensFrom .none none cs).map (before ++ .sign c :: ·)
        else if c = ';' ∨ c = '\n' then (tokensFrom .none none cs).map (finished ++ .sign ';' :: ·)
        else if c = '&' ∨ c = '|' ∨ c = '(' ∨ c = ')' then
          (tokensFrom .none none cs).map (finished ++ .sign c :: ·)
        else tokensFrom .none (add (.letter false c)) cs
  termination_by cs => cs.length
  decreasing_by all_goals simp only [List.length_cons, List.length_drop, List.length_tail]; omega

def assignment? (w : Word) : Option (String × Word) :=
  let letters := w.takeWhile fun
    | .letter false c => continuesName c
    | _ => false
  let name := letters.filterMap fun
    | .letter _ c => some c
    | _ => none
  match name, w.drop letters.length with
  | c :: _, .letter false '=' :: value =>
    if beginsName c then some (String.ofList name, value) else none
  | _, _ => none

namespace Command

def isEmpty (c : Command) : Bool :=
  c.assignments.isEmpty && c.words.isEmpty && c.redirections.isEmpty

def addWord (c : Command) (w : Word) : Command :=
  match c.words, assignment? w with
  | [], some a => { c with assignments := c.assignments ++ [a] }
  | _, _ => { c with words := c.words ++ [w] }

def redirect (c : Command) (channel : Nat) (opening : Opening) (target : Word) : Command :=
  { c with redirections := c.redirections ++ [⟨channel, opening, target⟩] }

end Command

def commandsFrom (c : Command) (channel : Option Nat) : List Token → Option (List Command)
  | [] => some (if c.isEmpty then [] else [c])
  | .word w :: ts => commandsFrom (c.addWord w) none ts
  | .channel n :: ts => commandsFrom c (some n) ts
  | .sign '>' :: .sign '>' :: .word w :: ts =>
    commandsFrom (c.redirect (channel.getD 1) .extend w) none ts
  | .sign '>' :: .sign '&' :: .word w :: ts =>
    commandsFrom (c.redirect (channel.getD 1) .copy w) none ts
  | .sign '>' :: .word w :: ts =>
    commandsFrom (c.redirect (channel.getD 1) .truncate w) none ts
  | .sign '<' :: .word w :: ts => commandsFrom (c.redirect (channel.getD 0) .read w) none ts
  | .sign ';' :: ts =>
    (commandsFrom {} none ts).map ((if c.isEmpty then [] else [c]) ++ ·)
  | .sign '&' :: .sign '&' :: ts => (commandsFrom { joint := .onSuccess } none ts).map (c :: ·)
  | .sign '|' :: .sign '|' :: ts => (commandsFrom { joint := .onFailure } none ts).map (c :: ·)
  | .sign _ :: _ => none

def readCommands (script : String) : Option (List Command) :=
  (tokensFrom .none none script.toList).bind (commandsFrom {} none)

end TabPackager.Shell
