import TabPackager.Proofs.OutcomeTable
import Mathlib.Data.List.Flatten

/-!
# Diagnostics

The level of a run decides which messages are printed and nothing else. Two runs whose options
differ only in what is to be reported make the same calls, leave the same files and end in the
same way; and the one that reports less prints what the other prints, without the diagnostics
above its own level.
-/

namespace TabPackager

/-- The level of a diagnostic. Result lines and the notes of a dry run have none. -/
def Message.level? : Message → Option Level
  | .error _ => some .error
  | .info _ => some .info
  | .debug _ => some .debug
  | _ => none

namespace Console

variable {c d : Console} {m : Message} {stream : Stream} {log : List Message}

def shown (c : Console) (stream : Stream) (log : List Message) : List Message :=
  log.filter fun m => (c.line? m).any fun line => decide (line.1 = stream)

def isAbove (c : Console) (m : Message) : Bool := m.level?.any fun l => !c.enabled l

/-- The consoles treat dry runs alike, and the first reports no more than the second. -/
structure Quieter (c d : Console) : Prop where
  dryRun : c.dryRun = d.dryRun
  rank : c.level.rank ≤ d.level.rank

theorem Quieter.enabled (h : c.Quieter d) {l : Level} (hl : c.enabled l = true) :
    d.enabled l = true := by
  have hrank : l.rank ≤ c.level.rank := of_decide_eq_true hl
  have := h.rank
  exact decide_eq_true (by omega)

theorem Quieter.line? (h : c.Quieter d) (m : Message) :
    c.line? m = if c.isAbove m then none else d.line? m := by
  have hdiagnostic (l : Level) (printed : Stream × String) :
      (if c.enabled l then some printed else none) =
        if !c.enabled l then none else if d.enabled l then some printed else none := by
    cases hl : c.enabled l with
    | false => rfl
    | true => rw [h.enabled hl]; rfl
  cases m with
  | output s => rfl
  | errors s => rfl
  | error s => exact hdiagnostic .error _
  | info s => exact hdiagnostic .info _
  | debug s => exact hdiagnostic .debug _
  | dry s =>
    have hdry : c.line? (.dry s) = d.line? (.dry s) := by
      simp only [Console.line?, h.dryRun]
    exact hdry

theorem Quieter.shown (h : c.Quieter d) (stream : Stream) (log : List Message) :
    c.shown stream log = (d.shown stream log).filter fun m => !c.isAbove m := by
  rw [Console.shown, Console.shown, List.filter_filter]
  refine List.filter_congr fun m _ => ?_
  rw [h.line? m]
  cases c.isAbove m <;> simp

theorem lines_eq_filterMap_shown (c : Console) (stream : Stream) (log : List Message) :
    c.lines stream log = (c.shown stream log).filterMap fun m => (c.line? m).map Prod.snd := by
  induction log with
  | nil => rfl
  | cons m log ih =>
    have hlines : c.lines stream (m :: log) = c.lines stream [m] ++ c.lines stream log :=
      CommandLine.lines_append c stream [m] log
    rw [hlines, ih]
    cases hm : c.line? m with
    | none => simp [Console.lines, Console.shown, hm]
    | some line => by_cases hs : line.1 = stream <;> simp [Console.lines, Console.shown, hm, hs]

theorem Quieter.lines (h : c.Quieter d) (stream : Stream) (log : List Message) :
    (c.lines stream log).Sublist (d.lines stream log) := by
  have hline : ∀ m ∈ c.shown stream log, c.line? m = d.line? m := by
    intro m hm
    rw [h.shown, List.mem_filter, Bool.not_eq_true'] at hm
    rw [h.line? m, hm.2]
    rfl
  have hmap : (c.shown stream log).filterMap (fun m => (c.line? m).map Prod.snd) =
      (c.shown stream log).filterMap fun m => (d.line? m).map Prod.snd :=
    List.filterMap_congr fun m hm => by rw [hline m hm]
  rw [lines_eq_filterMap_shown, lines_eq_filterMap_shown, hmap, h.shown]
  exact List.filter_sublist.filterMap _

theorem line?_of_level {l : Level} (hl : m.level? = some l) {line : Stream × String}
    (h : d.line? m = some line) :
    ∃ text, m = .error text ∧ line = (.errors, "[ERROR] " ++ text) ∨
      m = .info text ∧ line = (.output, "[INFO] " ++ text) ∨
      m = .debug text ∧ line = (.output, "[DEBUG] " ++ text) := by
  have hif {p : Prop} [Decidable p] {printed : Stream × String}
      (h : (if p then some printed else none) = some line) : line = printed := by
    split at h
    · exact (Option.some.inj h).symm
    · cases h
  cases m with
  | output s => cases hl
  | errors s => cases hl
  | error s => exact ⟨s, .inl ⟨rfl, hif h⟩⟩
  | info s => exact ⟨s, .inr (.inl ⟨rfl, hif h⟩)⟩
  | debug s => exact ⟨s, .inr (.inr ⟨rfl, hif h⟩)⟩
  | dry s => cases hl

/-- The lines of a printed text are those of the messages on it, and the empty one after the last
line end. -/
theorem splitOn_printed (c : Console) (stream : Stream) (log : List Message) :
    (c.printed stream log).toList.splitOn '\n' =
      (c.lines stream log).flatMap (fun s => s.toList.splitOn '\n') ++ [[]] := by
  rw [printed]
  induction c.lines stream log with
  | nil => rfl
  | cons s ss ih =>
    have htext : (String.join ((s :: ss).map (· ++ "\n"))).toList =
        s.toList ++ '\n' :: (String.join (ss.map (· ++ "\n"))).toList := by
      simp
    rw [htext, List.splitOn_append_cons_self, ih, List.flatMap_cons, List.append_assoc]

theorem Quieter.printed (h : c.Quieter d) (stream : Stream) (log : List Message) :
    ((c.printed stream log).toList.splitOn '\n').Sublist
      ((d.printed stream log).toList.splitOn '\n') := by
  rw [splitOn_printed, splitOn_printed]
  exact ((h.lines stream log).flatMap _).append (List.Sublist.refl _)

end Console

namespace CommandLine

/-- The options are the same but for what is to be reported. -/
def Options.SameTask (o o' : Options) : Prop := o' = { o with log := o'.log, verbose := o'.verbose }

def Options.level (o : Options) : Level := (Console.choose o.log o.verbose o.dryRun).level

namespace Outcome

/-- Both runs have called the same tools, whose output is the same, have left the same file system,
archives included, and have ended in the same way. -/
structure SameDeeds (a b : Outcome) : Prop where
  calls : a.calls = b.calls
  printed : a.printed = b.printed
  files : a.files = b.files
  ending : a.ending = b.ending

/-- The first run prints what the second one prints but for the diagnostics above its level. -/
structure ReportsLess (low high : Outcome) : Prop where
  lines : ∀ stream, (low.console.lines stream low.log).Sublist
    (high.console.lines stream high.log)
  output : (low.output.toList.splitOn '\n').Sublist
    (high.output.toList.splitOn '\n')
  errors : (low.errors.toList.splitOn '\n').Sublist
    (high.errors.toList.splitOn '\n')
  shown : ∀ stream, low.console.shown stream low.log =
    (high.console.shown stream high.log).filter fun m => !low.console.isAbove m
  additional : ∀ stream, ∀ m ∈ high.console.shown stream high.log,
    low.console.isAbove m = true → ∃ text,
      m = .error text ∧ high.console.line? m = some (.errors, "[ERROR] " ++ text) ∨
      m = .info text ∧ high.console.line? m = some (.output, "[INFO] " ++ text) ∨
      m = .debug text ∧ high.console.line? m = some (.output, "[DEBUG] " ++ text)

theorem ReportsLess.of_quieter {low high : Outcome} (h : low.console.Quieter high.console)
    (hlog : low.log = high.log) : low.ReportsLess high where
  lines stream := hlog ▸ h.lines stream low.log
  output := by
    rw [Outcome.output, Outcome.output, ← hlog]
    exact h.printed .output low.log
  errors := by
    rw [Outcome.errors, Outcome.errors, ← hlog]
    exact h.printed .errors low.log
  shown stream := hlog ▸ h.shown stream low.log
  additional := by
    intro stream m hm habove
    obtain ⟨l, hl, -⟩ := (Option.any_eq_true _ _).mp habove
    obtain ⟨line, hline, -⟩ := (Option.any_eq_true _ _).mp (List.mem_filter.mp hm).2
    obtain ⟨text, h⟩ := Console.line?_of_level hl hline
    refine ⟨text, ?_⟩
    rw [hline]
    simpa using h

end Outcome

variable {host : Host} {tools : Tools} {o o' : Options} {arguments : List String}
  {files : FileSystem}

/-- No part of a run depends on what is to be reported. -/
theorem execute_of_sameTask (h : o.SameTask o') :
    execute host tools o' arguments = execute host tools o arguments := by
  rw [h]
  rfl

theorem console_runParsed (host : Host) (tools : Tools) (o : Options) (arguments : List String)
    (files : FileSystem) : (runParsed host tools o arguments files).console =
      ⟨o.level, o.dryRun⟩ := rfl

theorem sameDeeds_runParsed (h : o.SameTask o') :
    (runParsed host tools o arguments files).SameDeeds
      (runParsed host tools o' arguments files) := by
  rw [runParsed_eq, runParsed_eq, execute_of_sameTask h]
  exact ⟨rfl, rfl, rfl, rfl⟩

theorem reportsLess_runParsed (h : o.SameTask o') (hl : o.level.rank ≤ o'.level.rank) :
    (runParsed host tools o arguments files).ReportsLess
      (runParsed host tools o' arguments files) := by
  refine .of_quieter ⟨?_, ?_⟩ ?_
  · have ho' : o' = { o with log := o'.log, verbose := o'.verbose } := h
    have hdry : o'.dryRun = o.dryRun := by rw [ho']
    exact hdry.symm
  · rw [console_runParsed, console_runParsed]
    exact hl
  · rw [runParsed_eq, runParsed_eq, execute_of_sameTask h]

/-- Two command lines that are read alike, but for what is to be reported, do the same and end in
the same way; the one with the lower level prints what the other does, but for the diagnostics
above that level. -/
theorem run_reported {argv argv' : List String} (hp : parse argv = .ok (o, arguments))
    (hp' : parse argv' = .ok (o', arguments)) (h : o.SameTask o') (host : Host) (tools : Tools)
    (files : FileSystem) :
    (run host tools argv files).SameDeeds (run host tools argv' files) ∧
      (o.level.rank ≤ o'.level.rank →
        (run host tools argv files).ReportsLess (run host tools argv' files)) := by
  have hrun : run host tools argv files = runParsed host tools o arguments files := by
    rw [run, hp]
  have hrun' : run host tools argv' files = runParsed host tools o' arguments files := by
    rw [run, hp']
  rw [hrun, hrun']
  exact ⟨sameDeeds_runParsed h, reportsLess_runParsed h⟩

theorem run_reported_of_killedBuild :
    (run sampleHost killedBuild ["blinky", "thumbv6m-none-eabi"] sampleWorkspace).ReportsLess
      (run sampleHost killedBuild ["-v", "blinky", "thumbv6m-none-eabi"] sampleWorkspace) ∧
    (run sampleHost killedBuild ["-v", "blinky", "thumbv6m-none-eabi"]
      sampleWorkspace).errors = "Error: cargo build failed with exit code -9\n" ++
        "[ERROR] cargo build --release --bin blinky --target thumbv6m-none-eabi\n" := by
  have hp : parse ["blinky", "thumbv6m-none-eabi"] =
      .ok ({}, ["blinky", "thumbv6m-none-eabi"]) := eq_ok_of_toOption (by decide)
  have hp' : parse ["-v", "blinky", "thumbv6m-none-eabi"] =
      .ok ({ verbose := true }, ["blinky", "thumbv6m-none-eabi"]) :=
    eq_ok_of_toOption (by decide +kernel)
  exact ⟨(run_reported hp hp' rfl sampleHost killedBuild sampleWorkspace).2 (by decide),
    by decide +kernel⟩

end CommandLine

end TabPackager
