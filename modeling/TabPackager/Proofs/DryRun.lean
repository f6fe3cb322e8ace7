import TabPackager.Proofs.DryStages

/-!
# Dry runs

A dry run changes nothing and consults no tool, whatever comes of it. It ends with the status zero
when its directory, its configuration and the format of its bundle are there, and has then
announced two calls.
-/

namespace TabPackager.CommandLine

open TabPackager.Action

/-- There are two arguments, a configuration and a workspace. -/
structure Prepared (host : Host) (o : Options) (arguments : List String) (workspace : Path)
    (files : FileSystem) (l : Layout) (c : Packaging) : Prop where
  arguments : arguments = [l.binary, l.triple]
  config : configAt host o files = .ok c
  workspace : files.isDirectory host.cwd.parts workspace.text = .ok true

def BundleAccepted (o : Options) (workspace : Path) : Prop :=
  o.bundle = .absent ∨ ∃ file format, o.bundle = .value file ∧
    Bundle.formatOf (workspace / file) = .ok format

section

variable {host : Host} {tools : Tools} {o : Options} {arguments : List String}
  {workspace : Path} {files : FileSystem} {l : Layout} {c : Packaging}

theorem exec_execute_dry (hd : o.dryRun = true) (w : World) :
    (execute host tools o [l.binary, l.triple]).exec w =
    match workspaceAt host o w.files with
    | .error f => (.error f, w)
    | .ok workspace =>
      match configAt host o w.files with
      | .error f => (.error f, w)
      | .ok c =>
        match w.files.isDirectory host.cwd.parts workspace.text with
        | .error why =>
          (.error (Fault.ofRefusal why (some workspace.text)), w.say (configNotes o))
        | .ok false => (.error (.failure (.noWorkspace workspace)), w.say (configNotes o))
        | .ok true =>
          (close host o workspace (Pipeline.packaged (setupOf host o workspace c) l)).exec
            (Pipeline.packed (setupOf host o workspace c) Tools.recording l
              (w.say (configNotes o))) := by
  have htools : toolsOf tools o = Tools.recording := if_pos hd
  rw [exec_execute, htools]
  cases workspaceAt host o w.files with
  | error f => rfl
  | ok workspace =>
    cases configAt host o w.files with
    | error f => rfl
    | ok c =>
      dsimp only
      rw [Pipeline.exec_run_dry (s := setupOf host o workspace c) hd]
      dsimp only [World.say_files, setupOf]
      cases w.files.isDirectory host.cwd.parts workspace.text with
      | error why => rfl
      | ok there => cases there <;> rfl

theorem exec_execute_prepared (hd : o.dryRun = true)
    (hw : workspaceAt host o files = .ok workspace)
    (h : Prepared host o arguments workspace files l c) :
    (execute host tools o arguments).exec { files } =
      (close host o workspace (Pipeline.packaged (setupOf host o workspace c) l)).exec
        (Pipeline.packed (setupOf host o workspace c) Tools.recording l
          (World.say { files } (configNotes o))) := by
  rw [h.arguments, exec_execute_dry hd]
  dsimp only
  rw [hw]
  dsimp only
  rw [h.config]
  dsimp only
  rw [h.workspace]

/-- How a dry run ends that has come to its bundle. -/
def bundleEnding (o : Options) (workspace : Path) : Except Escape Int :=
  match o.bundle with
  | .absent => .ok 0
  | .withoutValue => .error .bundleWithoutValue
  | .value file =>
    match Bundle.formatOf (workspace / file) with
    | .error _ => .ok 1
    | .ok _ => .ok 0

theorem ending_of_prepared (hd : o.dryRun = true)
    (hw : workspaceAt host o files = .ok workspace)
    (h : Prepared host o arguments workspace files l c) :
    (runParsed host tools o arguments files).ending = bundleEnding o workspace := by
  rw [runParsed_eq, exec_execute_prepared hd hw h, exec_close_dry hd]
  unfold bundleEnding
  cases o.bundle with
  | absent => rfl
  | withoutValue => rfl
  | value file =>
    dsimp only
    cases Bundle.formatOf (workspace / file) with
    | error e => rfl
    | ok format => rfl

theorem ending_of_not_prepared (hd : o.dryRun = true)
    (hw : workspaceAt host o files = .ok workspace)
    (hcfg : ∀ f, configAt host o files = .error f → ∃ e, f = .config e)
    (h : ∀ l c, ¬Prepared host o arguments workspace files l c) :
    (runParsed host tools o arguments files).ending = .ok 1 := by
  rw [runParsed_eq]
  dsimp only
  rcases pair_or_usage host tools o { files } arguments with ⟨l, rfl⟩ | ⟨text, he⟩
  · rw [exec_execute_dry hd]
    dsimp only
    rw [hw]
    dsimp only
    cases hc : configAt host o files with
    | error f =>
      obtain ⟨e, rfl⟩ := hcfg f hc
      rfl
    | ok c =>
      dsimp only
      cases hdir : files.isDirectory host.cwd.parts workspace.text with
      | error why => exact conclude_refused hdir _
      | ok there =>
        cases there with
        | false => rfl
        | true => exact absurd ⟨rfl, hc, hdir⟩ (h l c)
  · rw [he]
    rfl

theorem bundleEnding_eq_error :
    (∃ e, bundleEnding o workspace = .error e) ↔ o.bundle = .withoutValue := by
  unfold bundleEnding
  cases o.bundle with
  | absent => simp
  | withoutValue => simp
  | value file =>
    dsimp only
    cases Bundle.formatOf (workspace / file) with
    | error e => simp
    | ok format => simp

theorem status_of_bundleEnding {n : Int} (h : bundleEnding o workspace = .ok n) :
    n = 0 ∨ n = 1 := by
  unfold bundleEnding at h
  split at h
  · exact .inl (Except.ok.inj h).symm
  · cases h
  · split at h
    · exact .inr (Except.ok.inj h).symm
    · exact .inl (Except.ok.inj h).symm

theorem bundleEnding_eq_zero : bundleEnding o workspace = .ok 0 ↔ BundleAccepted o workspace := by
  unfold bundleEnding BundleAccepted
  cases o.bundle with
  | absent => simp
  | withoutValue => simp
  | value file =>
    dsimp only
    cases hf : Bundle.formatOf (workspace / file) with
    | error e => simp [hf]
    | ok format => simp [hf]

theorem runParsed_dry_tools (hd : o.dryRun = true) (tools' : Tools) :
    runParsed host tools o arguments files = runParsed host tools' o arguments files := by
  have hexec : execute host tools o arguments = execute host tools' o arguments := by
    unfold execute
    simp only [hd, if_true]
  rw [runParsed_eq, runParsed_eq, hexec]

theorem exec_close_dry_files {r : Packaged} (hr : r.dryRun = true) (w : World) :
    ((close host o workspace r).exec w).2.files = w.files := by
  rw [exec_close_dry hr]
  cases o.bundle with
  | absent => rfl
  | withoutValue => rfl
  | value file =>
    dsimp only
    cases Bundle.formatOf (workspace / file) with
    | error e => rfl
    | ok format => rfl

theorem runParsed_dry_files (hd : o.dryRun = true) :
    (runParsed host tools o arguments files).files = files := by
  rw [runParsed_eq]
  dsimp only
  rcases pair_or_usage host tools o { files } arguments with ⟨l, rfl⟩ | ⟨text, he⟩
  · rw [exec_execute_dry hd]
    dsimp only
    cases workspaceAt host o files with
    | error f => rfl
    | ok workspace =>
      cases configAt host o files with
      | error f => rfl
      | ok c =>
        dsimp only
        cases files.isDirectory host.cwd.parts workspace.text with
        | error why => rfl
        | ok there =>
          cases there with
          | false => rfl
          | true => exact exec_close_dry_files hd _
  · rw [he]

theorem configNotes_no_output (o : Options) : ∀ m ∈ configNotes o, ∀ s, m ≠ .output s := by
  unfold configNotes
  split <;> simp

theorem packed_no_output (s : Pipeline.Setup) (l : Layout) {w : World}
    (h : ∀ m ∈ w.log, ∀ t, m ≠ .output t) :
    ∀ m ∈ (Pipeline.packed s tools l w).log, ∀ t, m ≠ .output t := by
  intro m hm
  simp only [Pipeline.packed, Pipeline.built, World.say_log, World.afterCall_log,
    List.mem_append] at hm
  rcases hm with (hm | hm | hm) | hm | hm
  · exact h m hm
  · simp only [Pipeline.opening, List.mem_cons, List.not_mem_nil, or_false] at hm
    rcases hm with rfl | rfl | rfl | rfl <;> nofun
  · simp only [Pipeline.running, List.mem_singleton] at hm
    subst hm
    nofun
  · unfold Pipeline.elfNotes at hm
    split at hm
    · simp only [List.mem_singleton] at hm
      subst hm
      nofun
    · cases hm
  · simp only [Pipeline.running, List.mem_cons, List.not_mem_nil, or_false] at hm
    rcases hm with rfl | rfl <;> nofun

theorem announcements_of_close (host : Host) {r : Packaged} (hr : r.dryRun = true)
    (hb : BundleAccepted o workspace) {w : World} (hlog : ∀ m ∈ w.log, ∀ t, m ≠ .output t)
    (console : Console) :
    ∃ w', (close host o workspace r).exec w = (.ok (), w') ∧ w'.calls = w.calls ∧
      announcements (console.lines .output w'.log) =
        w.calls.map (·.dryRunLine (some workspace)) := by
  have hreport : report workspace r w.calls =
      w.calls.map fun c => .output (c.dryRunLine (some workspace)) := report_dry hr _
  have hsaid (after : List Message) (hafter : ∀ m ∈ after, ∀ t, m ≠ .output t) :
      announcements (console.lines .output (w.log ++ (report workspace r w.calls ++ after))) =
        w.calls.map (·.dryRunLine (some workspace)) := by
    rw [lines_append, lines_append, announcements_append, announcements_append, hreport,
      announcements_of_no_output console hlog, announcements_report,
      announcements_of_no_output console hafter, List.nil_append, List.append_nil]
  rw [exec_close_dry hr]
  rcases hb with hb | ⟨file, format, hb, hf⟩
  · rw [hb]
    refine ⟨_, rfl, rfl, ?_⟩
    rw [World.say_log, ← List.append_nil (report workspace r w.calls)]
    exact hsaid [] nofun
  · rw [hb]
    dsimp only
    rw [hf]
    exact ⟨_, rfl, rfl, hsaid _ (by simp [Bundle.plan])⟩

theorem announced_of_prepared (hd : o.dryRun = true)
    (hw : workspaceAt host o files = .ok workspace)
    (h : Prepared host o arguments workspace files l c) (hb : BundleAccepted o workspace)
    (console : Console) :
    (runParsed host tools o arguments files).calls =
        [Pipeline.buildCall (setupOf host o workspace c) l,
          Pipeline.packageCall (setupOf host o workspace c) l] ∧
      announcements (console.lines .output (runParsed host tools o arguments files).log) =
        [(Pipeline.buildCall (setupOf host o workspace c) l).dryRunLine (some workspace),
          (Pipeline.packageCall (setupOf host o workspace c) l).dryRunLine (some workspace)] := by
  have hlog : ∀ m ∈ (Pipeline.packed (setupOf host o workspace c) Tools.recording l
      (World.say { files } (configNotes o))).log, ∀ t, m ≠ .output t :=
    packed_no_output _ l (configNotes_no_output o)
  obtain ⟨w', he, hcalls, hsaid⟩ := announcements_of_close host
    (r := Pipeline.packaged (setupOf host o workspace c) l) hd hb hlog console
  rw [runParsed_eq, exec_execute_prepared hd hw h, he]
  refine ⟨hcalls, ?_⟩
  dsimp only [conclude]
  rw [List.append_nil]
  exact hsaid

end

end TabPackager.CommandLine
