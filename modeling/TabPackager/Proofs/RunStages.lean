import TabPackager.CommandLine.Run
import TabPackager.Proofs.PipelineTrace

/-!
# The stages of a run

A run of the command line finds its workspace and its configuration in the file system, goes
through the pipeline, and then reports and bundles. Each stage is restated by what it finds and
what it says.
-/

namespace TabPackager.CommandLine

open TabPackager.Action

section

variable (host : Host) (o : Options) (files : FileSystem) (w : World)

def workspaceAt : Except Fault Path :=
  match o.directory with
  | .absent => .ok host.cwd
  | .withoutValue => .error (.escape .directoryWithoutValue)
  | .value p => files.directoryOf host.homes host.cwd p

def configAt : Except Fault Packaging :=
  match o.config.value? with
  | none => .ok {}
  | some p => Config.packagingOfFile files host.cwd.parts p

def configNotes : List Message :=
  match o.config.value? with
  | none => []
  | some p => [.debug s!"Loaded configuration from {p}"]

theorem exec_workspaceOf : (workspaceOf host o).exec w = (workspaceAt host o w.files, w) := by
  unfold workspaceOf workspaceAt
  cases o.directory with
  | absent => rfl
  | withoutValue => rfl
  | value p =>
    dsimp only
    rw [exec_get_bind]
    generalize w.files.directoryOf host.homes host.cwd p = found
    cases found <;> rfl

theorem exec_configOf : (configOf host o).exec w =
    match configAt host o w.files with
    | .ok c => (.ok c, w.say (configNotes o))
    | .error f => (.error f, w) := by
  unfold configOf configAt configNotes
  cases o.config.value? with
  | none => simp
  | some p =>
    dsimp only
    rw [exec_get_bind]
    generalize Config.packagingOfFile w.files host.cwd.parts p = found
    cases found <;> rfl

end

theorem exec_forIn_say (f : Invocation → Message) (cs : List Invocation) (w : World) :
    exec (forIn cs PUnit.unit fun c _ => do
      say (f c)
      pure (ForInStep.yield PUnit.unit)) w = (.ok (), w.say (cs.map f)) := by
  induction cs generalizing w with
  | nil => simp
  | cons c cs ih =>
    rw [List.forIn_cons, bind_assoc, exec_say_bind, pure_bind]
    rw [ih, World.say_say]
    rfl

section

variable (host : Host) (workspace : Path) (r : Packaged) (w : World)

def report (calls : List Invocation) : List Message :=
  if r.dryRun then calls.map fun c => .output (c.dryRunLine (some workspace))
  else [.output r.layout.completion]

theorem exec_reportResult :
    (reportResult workspace r).exec w = (.ok (), w.say (report workspace r w.calls)) := by
  unfold reportResult report
  by_cases hd : r.dryRun = true
  · rw [if_pos hd, if_pos hd, exec_get_bind]
    exact exec_bind_ok (exec_forIn_say _ _ _) _
  · rw [if_neg hd, if_neg hd]
    rfl

def artifacts (l : Layout) (withTbf : Bool) : List Bundle.Member :=
  let tab := workspace / l.tab
  let tbf := workspace / l.tbf
  if withTbf then [⟨tab, tab.name⟩, ⟨tbf, tbf.name⟩] else [⟨tab, tab.name⟩]

def tbfAt (files : FileSystem) : Except Refusal Bool :=
  if r.dryRun then .ok true
  else files.isFile host.cwd.parts (workspace / r.layout.tbf).text

def tbfNotes (withTbf : Bool) : List Message :=
  if withTbf then []
  else [.info s!"{r.layout.tbf} not found; bundling {r.layout.tab} only"]

theorem exec_bundleMembers : (bundleMembers host workspace r).exec w =
    match tbfAt host workspace r w.files with
    | .ok there => (.ok (artifacts workspace r.layout there), w.say (tbfNotes r there))
    | .error why => (.error (Fault.ofRefusal why (some (workspace / r.layout.tbf).text)), w) := by
  have hthen (there : Bool) :
      exec (if there = true then
          pure [⟨workspace / r.layout.tab, (workspace / r.layout.tab).name⟩,
            ⟨workspace / r.layout.tbf, (workspace / r.layout.tbf).name⟩]
        else do
          say (.info s!"{r.layout.tbf} not found; bundling {r.layout.tab} only")
          pure [⟨workspace / r.layout.tab, (workspace / r.layout.tab).name⟩]) w =
        (.ok (artifacts workspace r.layout there), w.say (tbfNotes r there)) := by
    cases there with
    | false => rfl
    | true => simp [artifacts, tbfNotes]
  unfold bundleMembers tbfAt
  by_cases hd : r.dryRun = true
  · rw [if_pos hd, if_pos hd]
    exact hthen true
  · rw [if_neg hd, if_neg hd]
    dsimp only
    rw [exec_bind, exec_ask]
    generalize w.files.isFile host.cwd.parts (workspace / r.layout.tbf).text = found
    cases found with
    | error why => rfl
    | ok there => exact hthen there

def bundling (there : Bool) (file : Path) : Task Unit :=
  Bundle.write host.cwd r.dryRun host.scratch host.mishaps (artifacts workspace r.layout there)
    (workspace / file)

def bundleNotes (there : Bool) (file : Path) : List Message :=
  if r.dryRun then []
  else [.output s!"Bundled {(artifacts workspace r.layout there).length} artifact(s) into {file}"]

/-- What a task that has been carried out comes to, with something said after it. -/
def carried (w : World) (notes : List Message) :
    Except Fault Unit × FileSystem × List Message → Except Fault Unit × World
  | (.error f, files, log) => (.error f, { w.say log with files })
  | (.ok (), files, log) => (.ok (), { w.say (log ++ notes) with files })

theorem exec_carryOut_say (cwd : Path) (now : Int) (t : Task Unit) (dry : Bool) (m : Message)
    (w : World) :
    exec (do
      carryOut cwd now t
      if !dry then say m) w =
    carried w (if dry then [] else [m]) (t.run.run cwd.parts now w.files) := by
  rw [exec_bind, exec_carryOut]
  rcases t.run.run cwd.parts now w.files with ⟨result, files, log⟩
  cases result with
  | error f => rfl
  | ok u =>
    cases dry with
    | false => simp [carried, World.say]
    | true => simp [carried, World.say]

theorem exec_bundleArtifacts (file : Path) : (bundleArtifacts host workspace r file).exec w =
    match tbfAt host workspace r w.files with
    | .error why => (.error (Fault.ofRefusal why (some (workspace / r.layout.tbf).text)), w)
    | .ok there =>
      carried (w.say (tbfNotes r there)) (bundleNotes workspace r there file)
        ((bundling host workspace r there file).run.run host.cwd.parts host.now w.files) := by
  rw [bundleArtifacts, exec_bind, exec_bundleMembers]
  cases tbfAt host workspace r w.files with
  | error why => rfl
  | ok there => exact exec_carryOut_say ..

end

section

variable (host : Host) (tools : Tools) (o : Options) (w : World)

def close (workspace : Path) (r : Packaged) : Action Unit := do
  reportResult workspace r
  match o.bundle with
  | .absent => return ()
  | .withoutValue => throw (.escape .bundleWithoutValue)
  | .value file => bundleArtifacts host workspace r file

theorem exec_close (workspace : Path) (r : Packaged) : (close host o workspace r).exec w =
    match o.bundle with
    | .absent => (.ok (), w.say (report workspace r w.calls))
    | .withoutValue => (.error (.escape .bundleWithoutValue), w.say (report workspace r w.calls))
    | .value file =>
      (bundleArtifacts host workspace r file).exec (w.say (report workspace r w.calls)) := by
  refine (exec_bind_ok (exec_reportResult workspace r w) _).trans ?_
  cases o.bundle <;> rfl

def setupOf (workspace : Path) (c : Packaging) : Pipeline.Setup :=
  ⟨host.cwd, workspace, c, o.dryRun⟩

/-- The tools of a run; a dry run only has their calls recorded. -/
def toolsOf : Tools := if o.dryRun then Tools.recording else tools

theorem exec_execute (binary triple : String) :
    (execute host tools o [binary, triple]).exec w =
    match workspaceAt host o w.files with
    | .error f => (.error f, w)
    | .ok workspace =>
      match configAt host o w.files with
      | .error f => (.error f, w)
      | .ok c =>
        match (Pipeline.run (setupOf host o workspace c) (toolsOf tools o)
          ⟨binary, triple⟩).exec (w.say (configNotes o)) with
        | (.error f, w') => (.error f, w')
        | (.ok r, w') => (close host o workspace r).exec w' := by
  rw [execute, exec_bind, exec_workspaceOf]
  cases workspaceAt host o w.files with
  | error f => rfl
  | ok workspace =>
    dsimp only
    rw [exec_bind, exec_configOf]
    cases configAt host o w.files with
    | error f => rfl
    | ok c =>
      dsimp only
      generalize hrun : (Pipeline.run (setupOf host o workspace c) (toolsOf tools o)
        ⟨binary, triple⟩).exec (w.say (configNotes o)) = done
      obtain ⟨result, w'⟩ := done
      cases result with
      | error f => exact exec_bind_error hrun _
      | ok r => exact exec_bind_ok hrun _

theorem exec_execute_usage {arguments : List String}
    (h : ∀ binary triple, arguments ≠ [binary, triple]) :
    ∃ text, (execute host tools o arguments).exec w = (.error (.failure (.usage text)), w) := by
  match arguments, h with
  | [], _ => exact ⟨_, rfl⟩
  | [_], _ => exact ⟨_, rfl⟩
  | [binary, triple], h => exact absurd rfl (h binary triple)
  | _ :: _ :: _ :: _, _ => exact ⟨_, rfl⟩

theorem pair_or_usage (arguments : List String) :
    (∃ l : Layout, arguments = [l.binary, l.triple]) ∨
      ∃ text, (execute host tools o arguments).exec w = (.error (.failure (.usage text)), w) := by
  by_cases h : ∃ l : Layout, arguments = [l.binary, l.triple]
  · exact .inl h
  · refine .inr (exec_execute_usage host tools o w ?_)
    intro binary triple hpair
    exact h ⟨⟨binary, triple⟩, hpair⟩

theorem runParsed_eq (arguments : List String) (files : FileSystem) :
    runParsed host tools o arguments files =
      let done := (execute host tools o arguments).exec { files }
      { ending := (conclude done.1).2
        files := done.2.files
        calls := done.2.calls
        printed := done.2.printed
        log := done.2.log ++ (conclude done.1).1
        console := Console.choose o.log o.verbose o.dryRun } := rfl

end

end TabPackager.CommandLine
