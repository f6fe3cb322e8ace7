import TabPackager.Proofs.DryRun

/-!
# Dry runs and real runs

When a dry run succeeds, it has named the calls that any real run of the same command line can make,
in order; and it succeeds whenever some real run does.
-/

namespace TabPackager.CommandLine

open TabPackager.Action

section

variable {host : Host} {tools : Tools} {o : Options} {arguments : List String}
  {workspace : Path} {files : FileSystem} {l : Layout} {c : Packaging}

theorem runParsed_calls (hw : workspaceAt host o files = .ok workspace)
    (hc : configAt host o files = .ok c) :
    (runParsed host tools o [l.binary, l.triple] files).calls <+:
      [Pipeline.buildCall (setupOf host o workspace c) l,
        Pipeline.packageCall (setupOf host o workspace c) l] := by
  obtain ⟨made, hmade, hprefix⟩ := Pipeline.exec_run_calls (setupOf host o workspace c)
    (toolsOf tools o) l (World.say { files } (configNotes o))
  have hcalls : (World.say { files } (configNotes o)).calls = [] := rfl
  rw [hcalls, List.nil_append] at hmade
  rw [runParsed_eq, exec_execute]
  dsimp only
  rw [hw, hc]
  dsimp only
  revert hmade
  generalize (Pipeline.run (setupOf host o workspace c) (toolsOf tools o) l).exec
    (World.say { files } (configNotes o)) = done
  obtain ⟨result, w'⟩ := done
  intro hmade
  cases result with
  | error f => exact hmade ▸ hprefix
  | ok r =>
    dsimp only
    rw [exec_close_calls]
    exact hmade ▸ hprefix

theorem bundleAccepted_of_close {r : Packaged} {w : World}
    (h : ((close host o workspace r).exec w).1 = .ok ()) : BundleAccepted o workspace := by
  rw [exec_close] at h
  unfold BundleAccepted
  cases hb : o.bundle with
  | absent => exact .inl rfl
  | withoutValue =>
    rw [hb] at h
    cases h
  | value file =>
    rw [hb] at h
    dsimp only at h
    rw [exec_bundleArtifacts] at h
    cases ht : tbfAt host workspace r (w.say (report workspace r w.calls)).files with
    | error why =>
      rw [ht] at h
      cases h
    | ok there =>
      rw [ht] at h
      dsimp only at h
      have hwritten : ((bundling host workspace r there file).run.run host.cwd.parts host.now
          (w.say (report workspace r w.calls)).files).1 = .ok () := by
        revert h
        generalize (bundling host workspace r there file).run.run host.cwd.parts host.now
          (w.say (report workspace r w.calls)).files = done
        obtain ⟨result, files, log⟩ := done
        intro h
        cases result with
        | error f => cases h
        | ok u => rfl
      obtain ⟨format, hf⟩ := Bundle.formatOf_of_run_write hwritten
      exact .inr ⟨file, format, rfl, hf⟩

theorem prepared_of_runParsed (hw : workspaceAt host o files = .ok workspace)
    (h : (runParsed host tools o arguments files).ending = .ok 0) :
    (∃ l c, Prepared host o arguments workspace files l c) ∧ BundleAccepted o workspace := by
  rw [runParsed_eq] at h
  replace h := conclude_eq_zero.mp h
  rcases pair_or_usage host tools o { files } arguments with ⟨l, rfl⟩ | ⟨text, he⟩
  · rw [exec_execute] at h
    dsimp only at h
    rw [hw] at h
    dsimp only at h
    cases hc : configAt host o files with
    | error f =>
      rw [hc] at h
      cases h
    | ok c =>
      rw [hc] at h
      dsimp only at h
      cases hrun : (Pipeline.run (setupOf host o workspace c) (toolsOf tools o) l).exec
        (World.say { files } (configNotes o)) with
      | mk result w' =>
        rw [hrun] at h
        cases result with
        | error f => cases h
        | ok r =>
          have hdir := Pipeline.isDirectory_of_exec_run hrun
          exact ⟨⟨l, c, rfl, hc, hdir⟩, bundleAccepted_of_close h⟩
  · rw [he] at h
    cases h

/-- The run of the same command line for real, made at some time, with temporary names and mishaps
of its own. -/
def realRun (host : Host) (o : Options) (arguments : List String) (files : FileSystem)
    (now : Int) (scratch : Bundle.Scratch) (mishaps : Bundle.Mishaps) (tools : Tools) : Outcome :=
  runParsed { host with now, scratch, mishaps } tools { o with dryRun := false } arguments files

section

variable {now : Int} {scratch : Bundle.Scratch} {mishaps : Bundle.Mishaps}

theorem realRun_calls (hw : workspaceAt host o files = .ok workspace)
    (h : Prepared host o arguments workspace files l c) :
    (realRun host o arguments files now scratch mishaps tools).calls <+:
      [Pipeline.buildCall (setupOf host o workspace c) l,
        Pipeline.packageCall (setupOf host o workspace c) l] := by
  have hw' : workspaceAt { host with now, scratch, mishaps } { o with dryRun := false } files =
      .ok workspace := hw
  have hc : configAt { host with now, scratch, mishaps } { o with dryRun := false } files =
      .ok c := h.config
  rw [realRun, h.arguments]
  exact runParsed_calls hw' hc

theorem prepared_of_realRun (hw : workspaceAt host o files = .ok workspace)
    (h : (realRun host o arguments files now scratch mishaps tools).ending = .ok 0) :
    (∃ l c, Prepared host o arguments workspace files l c) ∧ BundleAccepted o workspace := by
  have hw' : workspaceAt { host with now, scratch, mishaps } { o with dryRun := false } files =
      .ok workspace := hw
  obtain ⟨⟨l, c, hready⟩, hb⟩ := prepared_of_runParsed hw' h
  exact ⟨⟨l, c, hready.arguments, hready.config, hready.workspace⟩, hb⟩

end

/-- What comes of a dry run, held against the real runs of the same command line. The status is
zero if all is there and the bundle is accepted, else it is one; only a bundle without a name has
no status. On success the calls are announced that every real run keeps to, and success of a real
run is never missed. -/
structure Rehearsal (host : Host) (o : Options) (arguments : List String) (workspace : Path)
    (files : FileSystem) (out : Outcome) : Prop where
  zero_iff : out.ending = .ok 0 ↔
    (∃ l c, Prepared host o arguments workspace files l c) ∧ BundleAccepted o workspace
  escape_iff : (∃ e, out.ending = .error e) ↔
    (∃ l c, Prepared host o arguments workspace files l c) ∧ o.bundle = .withoutValue
  status : ∀ n, out.ending = .ok n → n = 0 ∨ n = 1
  announced : out.ending = .ok 0 → out.calls.length = 2 ∧
    announcements (out.console.lines .output out.log) =
      out.calls.map (·.dryRunLine (some workspace))
  real_calls : out.ending = .ok 0 → ∀ now scratch mishaps tools,
    (realRun host o arguments files now scratch mishaps tools).calls <+: out.calls
  real_zero : ∀ now scratch mishaps tools,
    (realRun host o arguments files now scratch mishaps tools).ending = .ok 0 →
      out.ending = .ok 0

theorem ending_eq_zero_iff (hd : o.dryRun = true) (hw : workspaceAt host o files = .ok workspace)
    (hcfg : ∀ f, configAt host o files = .error f → ∃ e, f = .config e) :
    (runParsed host tools o arguments files).ending = .ok 0 ↔
      (∃ l c, Prepared host o arguments workspace files l c) ∧ BundleAccepted o workspace := by
  by_cases hready : ∃ l c, Prepared host o arguments workspace files l c
  · obtain ⟨l, c, h⟩ := hready
    rw [ending_of_prepared hd hw h, bundleEnding_eq_zero]
    exact ⟨fun hb => ⟨⟨l, c, h⟩, hb⟩, fun hb => hb.2⟩
  · have hone : (runParsed host tools o arguments files).ending = .ok 1 :=
      ending_of_not_prepared hd hw hcfg fun l c h => hready ⟨l, c, h⟩
    rw [hone]
    simp [hready]

theorem rehearsal (hd : o.dryRun = true) (hw : workspaceAt host o files = .ok workspace)
    (hcfg : ∀ f, configAt host o files = .error f → ∃ e, f = .config e) :
    Rehearsal host o arguments workspace files (runParsed host tools o arguments files) := by
  have hzero : (runParsed host tools o arguments files).ending = .ok 0 ↔
      (∃ l c, Prepared host o arguments workspace files l c) ∧ BundleAccepted o workspace :=
    ending_eq_zero_iff hd hw hcfg
  constructor
  case zero_iff => exact hzero
  case escape_iff =>
    by_cases hready : ∃ l c, Prepared host o arguments workspace files l c
    · obtain ⟨l, c, h⟩ := hready
      rw [ending_of_prepared hd hw h, bundleEnding_eq_error]
      exact ⟨fun hb => ⟨⟨l, c, h⟩, hb⟩, fun hb => hb.2⟩
    · rw [ending_of_not_prepared hd hw hcfg fun l c h => hready ⟨l, c, h⟩]
      simp [hready]
  case status =>
    intro n hn
    by_cases hready : ∃ l c, Prepared host o arguments workspace files l c
    · obtain ⟨l, c, h⟩ := hready
      rw [ending_of_prepared hd hw h] at hn
      exact status_of_bundleEnding hn
    · rw [ending_of_not_prepared hd hw hcfg fun l c h => hready ⟨l, c, h⟩] at hn
      cases hn
      exact .inr rfl
  case announced =>
    intro h
    obtain ⟨⟨l, c, hready⟩, hb⟩ := hzero.mp h
    obtain ⟨hcalls, hsaid⟩ := announced_of_prepared hd hw hready hb
      (runParsed host tools o arguments files).console
    rw [hsaid, hcalls]
    exact ⟨rfl, rfl⟩
  case real_calls =>
    intro h now scratch mishaps tools'
    obtain ⟨⟨l, c, hready⟩, hb⟩ := hzero.mp h
    rw [(announced_of_prepared hd hw hready hb {}).1]
    exact realRun_calls hw hready
  case real_zero =>
    intro now scratch mishaps tools' h
    exact hzero.mpr (prepared_of_realRun hw h)

end

/-- Every dry run leaves the file system as it was and consults no tool, and is a rehearsal of the
real runs. -/
theorem run_rehearsal {host : Host} {tools : Tools} {argv : List String} {o : Options}
    {arguments : List String} (hp : parse argv = .ok (o, arguments)) (hd : o.dryRun = true)
    (files : FileSystem) :
    (run host tools argv files).files = files ∧
      (∀ tools', run host tools argv files = run host tools' argv files) ∧
      ∀ workspace, workspaceAt host o files = .ok workspace →
        (∀ f, configAt host o files = .error f → ∃ e, f = .config e) →
        Rehearsal host o arguments workspace files (run host tools argv files) := by
  have hrun (tools' : Tools) :
      run host tools' argv files = runParsed host tools' o arguments files := by
    rw [run, hp]
  refine ⟨?_, fun tools' => ?_, fun workspace hw hcfg => ?_⟩
  · rw [hrun]
    exact runParsed_dry_files hd
  · rw [hrun, hrun]
    exact runParsed_dry_tools hd tools'
  · rw [hrun]
    exact rehearsal hd hw hcfg

theorem run_rehearsal_of_sample :
    Rehearsal sampleHost { dryRun := true } ["blinky", "thumbv6m-none-eabi"] sampleHost.cwd
      sampleWorkspace
      (run sampleHost sampleTools ["-n", "blinky", "thumbv6m-none-eabi"] sampleWorkspace) ∧
    (run sampleHost sampleTools ["-n", "blinky", "thumbv6m-none-eabi"]
      sampleWorkspace).ending.toOption = some 0 := by
  have hp : parse ["-n", "blinky", "thumbv6m-none-eabi"] =
      .ok ({ dryRun := true }, ["blinky", "thumbv6m-none-eabi"]) :=
    eq_ok_of_toOption (by decide +kernel)
  exact ⟨(run_rehearsal hp rfl sampleWorkspace).2.2 sampleHost.cwd rfl nofun, by decide +kernel⟩

/-- A bundle given as a separator: the calls are announced, and then there is no exit status. -/
theorem separator_bundle_escapes_dry :
    (parse ["-n", "--bundle=--", "blinky", "thumbv6m-none-eabi"]).toOption =
      some ({ dryRun := true, bundle := .withoutValue }, ["blinky", "thumbv6m-none-eabi"]) ∧
    (workspaceAt sampleHost { dryRun := true, bundle := .withoutValue }
      sampleWorkspace).toOption = some sampleHost.cwd ∧
    (configAt sampleHost { dryRun := true, bundle := .withoutValue }
      sampleWorkspace).toOption = some {} ∧
    (run sampleHost sampleTools ["-n", "--bundle=--", "blinky", "thumbv6m-none-eabi"]
      sampleWorkspace).ending.toOption = none := by
  refine ⟨?_, ?_, ?_, ?_⟩ <;> decide +kernel

end TabPackager.CommandLine
