import TabPackager.Proofs.PlainFaults

/-!
# Cases of outcomes

What a run that is not dry and reports nothing comes to, as a list of cases of which the first that
applies decides: the calls of tools, the exit status, and the lines on the two streams. A case that
the program does not expect has no exit status.
-/

namespace TabPackager.CommandLine

open Pipeline

structure Verdict where
  calls : List Invocation
  ending : Except Escape Int
  output : List String
  errors : List String

namespace Verdict

variable (calls : List Invocation)

def failed (status : Int) (text : String) : Verdict := ⟨calls, .ok status, [], ["Error: " ++ text]⟩

/-- A plain fault after some lines of output: it is reported, unless it was not expected. -/
def ofFault (output : List String) : Fault → Verdict
  | .escape e => ⟨calls, .error e, output, []⟩
  | f => ⟨calls, .ok 1, output, ["Error: " ++ f.message?.getD ""]⟩

def ofWorkspace? (workspace : Path) : Except Refusal Bool → Option Verdict
  | .ok true => none
  | .ok false => some (failed calls 1 s!"{workspace} is not a directory")
  | .error why => some (ofFault calls [] (Fault.ofRefusal why (some workspace.text)))

def ofStart (c : Invocation) (e : OsError) : Verdict :=
  match c.command with
  | tool :: _ =>
    if e.number = 2 ∧ e.file = some tool then failed calls 127 (tool ++ ": command not found")
    else failed calls 1 e.message
  | [] => failed calls 1 e.message

/-- A tool has to be found and to end with the status zero. -/
def ofTool? (label : String) (c : Invocation) : ToolEnd → Option Verdict
  | .exited code =>
    if code = 0 then none
    else some (failed calls (if 0 < code then code else 128 - code)
      (label ++ s!" failed with exit code {code}"))
  | .failed e => some (ofStart calls c e)
  | .escaped e => some ⟨calls, .error e, [], []⟩

def ofElf? (workspace : Path) (l : Layout) : Except Refusal Bool → Option Verdict
  | .ok true => none
  | .ok false => some ⟨calls, .ok 1, [s!"Error: ELF file not found at {l.elf}"], []⟩
  | .error why => some (ofFault calls [] (Fault.ofRefusal why (some (workspace / l.elf).text)))

def ofWrite (output said : List String) : Except Fault Unit → Verdict
  | .error f => ofFault calls output f
  | .ok () => ⟨calls, .ok 0, output ++ said, []⟩

/-- What has been built is reported, and bundled if that is asked for. -/
def ofBundle (host : Host) (o : Options) (workspace : Path) (l : Layout) (files : FileSystem) :
    Verdict :=
  match o.bundle with
  | .absent => ⟨calls, .ok 0, [l.completion], []⟩
  | .withoutValue => ⟨calls, .error .bundleWithoutValue, [l.completion], []⟩
  | .value file =>
    match files.isFile host.cwd.parts (workspace / l.tbf).text with
    | .error why =>
      ofFault calls [l.completion] (Fault.ofRefusal why (some (workspace / l.tbf).text))
    | .ok there =>
      let members := artifacts workspace l there
      ofWrite calls [l.completion] [s!"Bundled {members.length} artifact(s) into {file}"]
        ((Bundle.write host.cwd false host.scratch host.mishaps members
          (workspace / file)).run.run host.cwd.parts host.now files).1

end Verdict

def tableIn (host : Host) (tools : Tools) (o : Options) (s : Setup) (l : Layout)
    (files : FileSystem) : Verdict :=
  let build := buildCall s l
  let package := packageCall s l
  let built := tools [] build files
  let packaged := tools [build] package built.files
  (Verdict.ofWorkspace? [] s.workspace
    (files.isDirectory s.cwd.parts s.workspace.text)).getD <|
  (Verdict.ofTool? [build] "cargo build" build built.ending).getD <|
  (Verdict.ofElf? [build] s.workspace l
    (built.files.isFile s.cwd.parts (s.workspace / l.elf).text)).getD <|
  (Verdict.ofTool? [build, package] "elf2tab" package packaged.ending).getD <|
  Verdict.ofBundle [build, package] host o s.workspace l packaged.files

def table (host : Host) (tools : Tools) (o : Options) (arguments : List String)
    (files : FileSystem) : Verdict :=
  match arguments with
  | [binary, triple] =>
    match workspaceAt host o files with
    | .error f => .ofFault [] [] f
    | .ok workspace =>
      match configAt host o files with
      | .error f => .ofFault [] [] f
      | .ok c => tableIn host tools o (setupOf host o workspace c) ⟨binary, triple⟩ files
  | _ => ⟨[], .ok 1, usageLines, []⟩

def quiet : Console := ⟨.none, false⟩

/-- The messages show as these lines on the output stream of a quiet console, and as none on the
error stream. -/
def Prints (log : List Message) (output : List String) : Prop :=
  quiet.lines .output log = output ∧ quiet.lines .errors log = []

theorem lines_append (c : Console) (stream : Stream) (xs ys : List Message) :
    c.lines stream (xs ++ ys) = c.lines stream xs ++ c.lines stream ys := by
  simp only [Console.lines, List.filterMap_append]

theorem Prints.append {m n : List Message} {a b : List String} (hx : Prints m a)
    (hy : Prints n b) : Prints (m ++ n) (a ++ b) := by
  refine ⟨?_, ?_⟩
  · rw [lines_append, hx.1, hy.1]
  · rw [lines_append, hx.2, hy.2, List.append_nil]

section

variable {w : World} {output : List String}

end

end TabPackager.CommandLine
