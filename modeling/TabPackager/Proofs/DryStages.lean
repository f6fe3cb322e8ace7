import TabPackager.Proofs.OutcomeTable

/-!
# The stages of a dry run

A dry run of the pipeline only looks for the workspace, a dry write only judges the format of the
bundle, and what follows the pipeline lists the calls. The lines that announce calls are told from
all others by their start.
-/

namespace TabPackager

namespace Pipeline

variable {s : Setup} {l : Layout} {w : World}

theorem exec_run_dry (hs : s.dryRun = true) : (run s Tools.recording l).exec w =
    match w.files.isDirectory s.cwd.parts s.workspace.text with
    | .error why => (.error (Fault.ofRefusal why (some s.workspace.text)), w)
    | .ok false => (.error (.failure (.noWorkspace s.workspace)), w)
    | .ok true => (.ok (packaged s l), packed s Tools.recording l w) := by
  have hb : buildFault? s Tools.recording l w = none := callFault?_eq_none.mpr rfl
  have he (files : FileSystem) : elfFault? s l files = none := elfFault?_eq_none.mpr (.inl hs)
  have hp : packageFault? s Tools.recording l w = none := callFault?_eq_none.mpr rfl
  rw [exec_run]
  cases w.files.isDirectory s.cwd.parts s.workspace.text with
  | error why => rfl
  | ok there =>
    cases there with
    | false => rfl
    | true => rw [hb, he, hp]

/-- The calls of a run are the first ones of the build and the packaging. -/
theorem exec_run_calls (s : Setup) (tools : Tools) (l : Layout) (w : World) :
    ∃ made, ((run s tools l).exec w).2.calls = w.calls ++ made ∧
      made <+: [buildCall s l, packageCall s l] := by
  have hbuilt : [buildCall s l] <+: [buildCall s l, packageCall s l] := ⟨[packageCall s l], rfl⟩
  rw [exec_run]
  cases w.files.isDirectory s.cwd.parts s.workspace.text with
  | error why => exact ⟨[], by simp, List.nil_prefix⟩
  | ok there =>
    cases there with
    | false => exact ⟨[], by simp, List.nil_prefix⟩
    | true =>
      cases buildFault? s tools l w with
      | some f => exact ⟨[buildCall s l], rfl, hbuilt⟩
      | none =>
        cases elfFault? s l (buildRun s tools l w).files with
        | some f => exact ⟨[buildCall s l], rfl, hbuilt⟩
        | none =>
          refine ⟨[buildCall s l, packageCall s l], ?_, List.prefix_rfl⟩
          cases packageFault? s tools l w <;> exact List.append_assoc _ [_] [_]

theorem isDirectory_of_exec_run {tools : Tools} {r : Packaged} {w' : World}
    (h : (run s tools l).exec w = (.ok r, w')) :
    w.files.isDirectory s.cwd.parts s.workspace.text = .ok true := by
  rw [exec_run] at h
  cases hd : w.files.isDirectory s.cwd.parts s.workspace.text with
  | error why =>
    rw [hd] at h
    cases h
  | ok there =>
    cases there with
    | true => rfl
    | false =>
      rw [hd] at h
      cases h

end Pipeline

namespace Bundle

variable {cwd : Path} {scratch : Scratch} {mishaps : Mishaps} {members : List Member}
  {target : Path}

def plan (members : List Member) (target : Path) : Message :=
  let names := ", ".intercalate (members.map (·.name))
  .dry s!"Would bundle {names} into {target}"

theorem run_write_dry (at' : Location) (now : Int) (fs : FileSystem) :
    (write cwd true scratch mishaps members target).run.run at' now fs =
      match formatOf target with
      | .error e => (.error (.bundle e), fs, [])
      | .ok _ => (.ok (), fs, [plan members target]) := by
  unfold write
  cases formatOf target with
  | error e => rfl
  | ok format => rfl

theorem formatOf_of_run_write {dryRun : Bool} {at' : Location} {now : Int} {fs : FileSystem}
    (h : ((write cwd dryRun scratch mishaps members target).run.run at' now fs).1 = .ok ()) :
    ∃ format, formatOf target = .ok format := by
  unfold write at h
  cases hf : formatOf target with
  | ok format => exact ⟨format, rfl⟩
  | error e =>
    rw [hf] at h
    cases h

end Bundle

namespace CommandLine

open TabPackager.Action

theorem exitStatus_ne_zero (f : Failure) : f.exitStatus ≠ 0 := by
  cases f with
  | tool role code command =>
    rw [Failure.exitStatus]
    split <;> omega
  | _ => simp [Failure.exitStatus]

theorem conclude_eq_zero {r : Except Fault Unit} : (conclude r).2 = .ok 0 ↔ r = .ok () := by
  cases r with
  | ok u => simp [conclude]
  | error f =>
    have hno : (conclude (.error f)).2 ≠ .ok 0 := by
      cases f with
      | failure g =>
        have hg := exitStatus_ne_zero g
        cases g <;> simp_all [conclude]
      | _ => simp [conclude]
    simp [hno]

theorem conclude_refused {fs : FileSystem} {at' : Location} {test : Entry → Bool} {p : String}
    {why : Refusal} (h : fs.probe at' test p = .error why) (file : Option String) :
    (conclude (.error (Fault.ofRefusal why file))).2 = .ok 1 := by
  have hno := probe_refused h file none
  cases hf : Fault.ofRefusal why file with
  | escape e => exact absurd hf (hno e)
  | failure f =>
    unfold Fault.ofRefusal at hf
    split at hf <;> cases hf
  | config e => rfl
  | bundle e => rfl
  | os e => rfl

section

variable {host : Host} {o : Options} {workspace : Path} {r : Packaged} {w : World}

theorem report_dry (hr : r.dryRun = true) (calls : List Invocation) :
    report workspace r calls = calls.map fun c => .output (c.dryRunLine (some workspace)) :=
  if_pos hr

/-- The end of a dry run: the calls are listed, and the name of the bundle is judged. -/
theorem exec_close_dry (hr : r.dryRun = true) : (close host o workspace r).exec w =
    match o.bundle with
    | .absent => (.ok (), w.say (report workspace r w.calls))
    | .withoutValue => (.error (.escape .bundleWithoutValue), w.say (report workspace r w.calls))
    | .value file =>
      match Bundle.formatOf (workspace / file) with
      | .error e => (.error (.bundle e), w.say (report workspace r w.calls))
      | .ok _ => (.ok (), w.say (report workspace r w.calls ++
          [Bundle.plan (artifacts workspace r.layout true) (workspace / file)])) := by
  rw [exec_close]
  cases o.bundle with
  | absent => rfl
  | withoutValue => rfl
  | value file =>
    dsimp only
    have htbf (files : FileSystem) : tbfAt host workspace r files = .ok true := if_pos hr
    have hnotes : bundleNotes workspace r true file = [] := if_pos hr
    rw [exec_bundleArtifacts, htbf]
    dsimp only
    rw [hnotes, bundling, hr, Bundle.run_write_dry]
    cases Bundle.formatOf (workspace / file) with
    | error e => simp [carried, tbfNotes, World.say]
    | ok format => simp [carried, tbfNotes, World.say]

theorem carried_calls (w : World) (notes : List Message)
    (done : Except Fault Unit × FileSystem × List Message) :
    (carried w notes done).2.calls = w.calls := by
  obtain ⟨result, files, log⟩ := done
  cases result <;> rfl

theorem exec_close_calls (host : Host) (o : Options) (workspace : Path) (r : Packaged)
    (w : World) : ((close host o workspace r).exec w).2.calls = w.calls := by
  rw [exec_close]
  cases o.bundle with
  | absent => rfl
  | withoutValue => rfl
  | value file =>
    dsimp only
    rw [exec_bundleArtifacts]
    cases tbfAt host workspace r (w.say (report workspace r w.calls)).files with
    | error why => rfl
    | ok there =>
      dsimp only
      rw [carried_calls]
      rfl

end

def announces (line : String) : Bool := "[dry-run]".toList.isPrefixOf line.toList

def announcements (lines : List String) : List String := lines.filter announces

theorem announcements_append (xs ys : List String) :
    announcements (xs ++ ys) = announcements xs ++ announcements ys :=
  List.filter_append xs ys

theorem announces_dryRunLine (workspace : Option Path) (c : Invocation) :
    announces (c.dryRunLine workspace) = true := by
  unfold announces Invocation.dryRunLine
  dsimp only
  rw [List.cons_append, List.cons_append, String.intercalate_cons_of_ne_nil (by simp),
    String.append_assoc, String.toList_append, List.isPrefixOf_iff_prefix]
  exact List.prefix_append _ _

theorem announcements_report (console : Console) (workspace : Option Path)
    (calls : List Invocation) :
    announcements (console.lines .output (calls.map fun c => .output (c.dryRunLine workspace))) =
      calls.map (·.dryRunLine workspace) := by
  induction calls with
  | nil => rfl
  | cons c calls ih =>
    have hone : console.lines .output [.output (c.dryRunLine workspace)] =
        [c.dryRunLine workspace] := rfl
    rw [List.map_cons, ← List.singleton_append, lines_append, announcements_append, ih, hone,
      announcements, List.filter_cons_of_pos (announces_dryRunLine workspace c)]
    rfl

theorem announces_line {console : Console} {m : Message} (hm : ∀ s, m ≠ .output s)
    {stream : Stream} {line : String} (h : console.line? m = some (stream, line))
    (hs : stream = .output) : announces line = false := by
  have hmark (mark s : String)
      (h : ∀ cs, "[dry-run]".toList.isPrefixOf (mark.toList ++ cs) = false) :
      announces (mark ++ s) = false := by
    rw [announces, String.toList_append, h]
  subst hs
  cases m with
  | output s => exact absurd rfl (hm s)
  | errors s => cases h
  | error s =>
    rw [Console.line?] at h
    split at h <;> cases h
  | info s =>
    rw [Console.line?] at h
    split at h
    · cases h
      exact hmark "[INFO] " s fun _ => rfl
    · cases h
  | debug s =>
    rw [Console.line?] at h
    split at h
    · cases h
      exact hmark "[DEBUG] " s fun _ => rfl
    · cases h
  | dry s =>
    rw [Console.line?] at h
    split at h
    · cases h
      exact hmark "[DRY] " s fun _ => rfl
    · cases h

theorem announcements_of_no_output (console : Console) {log : List Message}
    (h : ∀ m ∈ log, ∀ s, m ≠ .output s) :
    announcements (console.lines .output log) = [] := by
  rw [announcements, List.filter_eq_nil_iff]
  intro line hline
  obtain ⟨⟨stream, text⟩, hshown, htext⟩ := List.mem_filterMap.mp hline
  obtain ⟨m, hm, hl⟩ := List.mem_filterMap.mp hshown
  dsimp only at htext
  split at htext
  · next hs =>
    cases htext
    simp [announces_line (h m hm) hl hs]
  · cases htext

end CommandLine

end TabPackager
