/-!
# Messages and the console

A run says what it has to say as a list of messages. The console decides, by its level and by
whether the run is dry, which of them are printed, on which stream and with which mark in front.
What is printed never decides what is done: the level is used in `Console.line?` alone.
-/

namespace TabPackager

inductive Level where
  | none
  | error
  | info
  | debug
  deriving DecidableEq, Repr, Inhabited

namespace Level

def all : List Level := [.none, .error, .info, .debug]

def rank : Level → Nat
  | .none => 0
  | .error => 1
  | .info => 2
  | .debug => 3

def name : Level → String
  | .none => "none"
  | .error => "error"
  | .info => "info"
  | .debug => "debug"

def ofName? (s : String) : Option Level := all.find? fun l => l.name = s

end Level

inductive Stream where
  | output
  | errors
  deriving DecidableEq, Repr

/-- Something that a run says: a result line for one of the streams, a diagnostic of some level,
or a note on what a dry run leaves out. -/
inductive Message where
  | output (text : String)
  | errors (text : String)
  | error (text : String)
  | info (text : String)
  | debug (text : String)
  | dry (text : String)
  deriving DecidableEq, Repr

structure Console where
  level : Level := .none
  dryRun : Bool := false
  deriving DecidableEq, Repr, Inhabited

namespace Console

/-- The console of a run: a level other than `none` counts, else verbosity means the level
`debug`. -/
def choose (log : Level) (verbose dryRun : Bool) : Console :=
  ⟨if log = .none then (if verbose then .debug else .none) else log, dryRun⟩

def named (level : String) (dryRun : Bool) : Except String Console :=
  match Level.ofName? level with
  | some l => .ok ⟨l, dryRun⟩
  | none => .error level

def ofOptions (log : String) (verbose dryRun : Bool) : Except String Console :=
  if log = "" then .ok (choose .none verbose dryRun)
  else (named log dryRun).map fun c => choose c.level verbose dryRun

def unknownLevel (name : String) : String := "Unknown log level: " ++ name

def enabled (c : Console) (l : Level) : Bool := decide (l.rank ≤ c.level.rank)

def line? (c : Console) : Message → Option (Stream × String)
  | .output s => some (.output, s)
  | .errors s => some (.errors, s)
  | .error s => if c.enabled .error then some (.errors, "[ERROR] " ++ s) else none
  | .info s => if c.enabled .info then some (.output, "[INFO] " ++ s) else none
  | .debug s => if c.enabled .debug then some (.output, "[DEBUG] " ++ s) else none
  | .dry s => if c.dryRun then some (.output, "[DRY] " ++ s) else none

def lines (c : Console) (stream : Stream) (log : List Message) : List String :=
  (log.filterMap c.line?).filterMap fun (s, text) => if s = stream then some text else none

def printed (c : Console) (stream : Stream) (log : List Message) : String :=
  String.join ((c.lines stream log).map (· ++ "\n"))

end Console

end TabPackager
