import TabPackager.Proofs.AlikeReading
import TabPackager.Proofs.Diagnostics

/-!
# Verbose flags

A level that is asked for counts whether or not the run is to be verbose, so verbose flags can be
put into an argument vector or taken out of it without changing the run. Only a separator can tell
where the first group of plain arguments has ended.
-/

namespace TabPackager.CommandLine

theorem read_ended_separator (post : List String) {s : Seen} (hg : s.group = .ended) :
    ∃ s', read s.addSeparator (post.map .plain) = .ok s' ∧ s'.options = s.options ∧
      s'.arguments = s.arguments ++ "--" :: post := by
  have hordered : s.Ordered := fun hne => absurd hg hne
  obtain ⟨hordered', -, hkept⟩ := hordered.addSeparator
  obtain ⟨s', hread, hoptions, harguments⟩ := read_plains post hordered'
  refine ⟨s', hread, hoptions.trans (addSeparator_options s), ?_⟩
  rw [harguments, hkept hg, List.append_assoc]
  rfl

/-- As long as the first group goes on, plain arguments are put to it, in front of what has come
before it. -/
theorem read_plains_here (post : List String) {s : Seen} (hg : s.group = .here) :
    ∃ s', read s (post.map .plain) = .ok s' ∧ s'.options = s.options ∧
      s'.arguments = s.first ++ post ++ s.others := by
  induction post generalizing s with
  | nil => exact ⟨s, rfl, rfl, by rw [List.append_nil, Seen.arguments]⟩
  | cons a post ih =>
    have hadd : s.addPlain a = { s with first := s.first ++ [a], group := .here } := by
      unfold Seen.addPlain
      rw [hg]
    obtain ⟨s', hread, hoptions, harguments⟩ := ih (s := s.addPlain a) (by rw [hadd])
    refine ⟨s', hread, hoptions.trans (addPlain_options s a), ?_⟩
    rw [harguments, hadd]
    simp

theorem Seen.Spread.read_open_separator {s : Seen} {early later : List String}
    (h : s.Spread early later) (hg : s.group ≠ .ended) (post : List String) :
    ∃ s', read s.addSeparator (post.map .plain) = .ok s' ∧ s'.options = s.options ∧
      s'.arguments = later ++ post ++ early := by
  obtain ⟨rest, hlater, hothers, hrest⟩ := h.split
  obtain rfl := hrest hg
  have hadd : s.addSeparator = { s with group := .here } := by
    unfold Seen.addSeparator
    split
    · next hended => exact absurd hended hg
    · rfl
  have hhere : s.addSeparator.group = .here := by rw [hadd]
  obtain ⟨s', hread, hoptions, harguments⟩ := read_plains_here post hhere
  refine ⟨s', hread, hoptions.trans (addSeparator_options s), ?_⟩
  rw [harguments, hadd]
  dsimp only
  rw [hothers, hlater, List.append_nil, List.append_nil]

/-- Options that differ by verbosity, and the same arguments as far as a run can tell. -/
def SameParsed (p p' : Options × List String) : Prop :=
  p.1.SameButVerbose p'.1 ∧ SameArguments p.2 p'.2

theorem Seen.Alike.start : Seen.Alike {} {} := by
  have hspread : Seen.Spread {} [] [] := ⟨⟨[], rfl, rfl, fun _ => rfl⟩, by simp⟩
  exact ⟨rfl, [], [], hspread, hspread⟩

theorem Seen.Alike.sameParsed {s s' : Seen} (h : s.Alike s') :
    SameParsed (s.options, s.arguments) (s'.options, s'.arguments) := by
  obtain ⟨early, later, hs, hs'⟩ := h.spread
  exact ⟨h.options, hs.sameArguments hs'⟩

/-- Behind the separator all goes on alike if the first group has ended on both sides or on
neither. -/
theorem Seen.Alike.separated {s s' : Seen} (h : s.Alike s')
    (hgroup : s.group ≠ .ended ↔ s'.group ≠ .ended) (post : List String) :
    ∃ r r', read s.addSeparator (post.map .plain) = .ok r ∧
      read s'.addSeparator (post.map .plain) = .ok r' ∧
      SameParsed (r.options, r.arguments) (r'.options, r'.arguments) := by
  obtain ⟨early, later, hs, hs'⟩ := h.spread
  by_cases hg : s.group = .ended
  · have hg' : s'.group = .ended := by
      by_contra hne
      exact hgroup.mpr hne hg
    obtain ⟨r, hread, hoptions, harguments⟩ := read_ended_separator post hg
    obtain ⟨r', hread', hoptions', harguments'⟩ := read_ended_separator post hg'
    refine ⟨r, r', hread, hread', ?_⟩
    rw [hoptions, hoptions', harguments, harguments']
    exact ⟨h.options, (hs.sameArguments hs').append _⟩
  · obtain ⟨r, hread, hoptions, harguments⟩ := hs.read_open_separator hg post
    obtain ⟨r', hread', hoptions', harguments'⟩ := hs'.read_open_separator (hgroup.mp hg) post
    refine ⟨r, r', hread, hread', ?_⟩
    rw [hoptions, hoptions', harguments, harguments']
    exact ⟨h.options, rfl, fun _ => rfl⟩

theorem optionsFirst_iff {pre : List String} {ts : List Token} {s : Seen} (hpre : "--" ∉ pre)
    (hts : tokens pre = .ok ts) (h : read {} ts = .ok s) :
    OptionsFirst pre ↔ s.group ≠ .ended := by
  rw [read_group (separator_not_mem_tokens hpre hts) h, OptionsFirst, units, hts]
  simp [Group.Open]

theorem parse_of_tokens_error {argv : List String} {r : Refused} (h : tokens argv = .error r) :
    parse argv = .error (.refused r) := by
  unfold parse
  rw [h]

section

variable {pre pre' : List String} (h : SameButVerbose pre pre')

include h

theorem endsAlike_parse : EndsAlike SameParsed (parse pre) (parse pre') := by
  rcases endsAlike_cases h.endsAlike_tokens with ⟨r, hr, hr'⟩ | ⟨ts, us, hts, hus, hsame⟩
  · rw [parse_of_tokens_error hr, parse_of_tokens_error hr']
    exact .error _
  · rw [parse_of_read hts, parse_of_read hus]
    exact (hsame.endsAlike_read .start).map fun _ _ halike => halike.sameParsed

theorem endsAlike_parse_separated (hfirst : OptionsFirst pre ↔ OptionsFirst pre')
    (post : List String) :
    EndsAlike SameParsed (parse (pre ++ "--" :: post)) (parse (pre' ++ "--" :: post)) := by
  obtain ⟨hpre, hpre'⟩ := h.separator_not_mem
  have htokens := tokens_separator hpre post
  have htokens' := tokens_separator hpre' post
  rcases endsAlike_cases h.endsAlike_tokens with ⟨r, hr, hr'⟩ | ⟨ts, us, hts, hus, hsame⟩
  · rw [hr] at htokens
    rw [hr'] at htokens'
    rw [parse_of_tokens_error htokens, parse_of_tokens_error htokens']
    exact .error _
  · rw [hts] at htokens
    rw [hus] at htokens'
    rw [parse_of_read htokens, parse_of_read htokens',
      read_unseparated (separator_not_mem_tokens hpre hts),
      read_unseparated (separator_not_mem_tokens hpre' hus)]
    rcases endsAlike_cases (hsame.endsAlike_read .start) with
      ⟨e, hread, hread'⟩ | ⟨s, s', hread, hread', halike⟩
    · rw [hread, hread']
      exact .error e
    · rw [optionsFirst_iff hpre hts hread, optionsFirst_iff hpre' hus hread'] at hfirst
      obtain ⟨r, r', hr, hr', hparsed⟩ := halike.separated hfirst post
      rw [bind_of_eq hread, bind_of_eq hread', hr, hr']
      exact .ok hparsed

end

theorem Options.SameButVerbose.sameTask {o o' : Options} (h : o.SameButVerbose o') :
    o.SameTask o' := by
  have ho : o' = { o with verbose := o'.verbose } := h
  rw [Options.SameTask, ho]

theorem runParsed_of_sameParsed {p p' : Options × List String} (h : SameParsed p p')
    (host : Host) (tools : Tools) (files : FileSystem) :
    runParsed host tools p'.1 p'.2 files =
      { runParsed host tools p.1 p.2 files with
        console := Console.choose p'.1.log p'.1.verbose p'.1.dryRun } := by
  obtain ⟨ho, hlength, hfew⟩ := h
  by_cases htwo : p.2.length = 2
  · rw [runParsed_eq, runParsed_eq, ← hfew htwo.le, execute_of_sameTask ho.sameTask]
  · have hnone {as : List String} (has : as.length ≠ 2) (x y : String) : as ≠ [x, y] := by
      rintro rfl
      exact has rfl
    obtain ⟨text, hx⟩ := exec_execute_usage host tools p.1 { files } (hnone htwo)
    obtain ⟨text', hx'⟩ :=
      exec_execute_usage host tools p'.1 { files } (hnone (hlength ▸ htwo))
    rw [runParsed_eq, runParsed_eq, hx, hx']
    rfl

theorem choose_of_sameButVerbose {o o' : Options} (h : o.SameButVerbose o')
    (hlog : o.log ≠ .none) :
    Console.choose o'.log o'.verbose o'.dryRun = Console.choose o.log o.verbose o.dryRun := by
  have ho : o' = { o with verbose := o'.verbose } := h
  rw [ho]
  simp only [Console.choose, if_neg hlog]

/-- Verbose flags that are put into a vector or taken out of it change nothing of a run but the
console, and nothing at all if the vector asks for a level. They may stand anywhere before the
separator but between an option and its value; only if there is a separator, they must not change
whether some option stands behind a plain argument. -/
theorem run_sameButVerbose {pre pre' rest : List String} (h : SameButVerbose pre pre')
    (hrest : rest = [] ∨ rest.head? = some "--" ∧ (OptionsFirst pre ↔ OptionsFirst pre'))
    (host : Host) (tools : Tools) (files : FileSystem) :
    (∃ console, run host tools (pre' ++ rest) files =
      { run host tools (pre ++ rest) files with console }) ∧
    ((∀ o arguments, parse (pre ++ rest) = .ok (o, arguments) → o.log ≠ .none) →
      run host tools (pre' ++ rest) files = run host tools (pre ++ rest) files) := by
  have hparse : EndsAlike SameParsed (parse (pre ++ rest)) (parse (pre' ++ rest)) := by
    rcases hrest with rfl | ⟨hhead, hfirst⟩
    · rw [List.append_nil, List.append_nil]
      exact endsAlike_parse h
    · obtain ⟨post, rfl⟩ := List.head?_eq_some_iff.mp hhead
      exact endsAlike_parse_separated h hfirst post
  unfold run
  rcases endsAlike_cases hparse with ⟨e, hp, hp'⟩ | ⟨p, p', hp, hp', hsame⟩
  · rw [hp, hp']
    cases e with
    | help => exact ⟨⟨_, rfl⟩, fun _ => rfl⟩
    | refused r => exact ⟨⟨_, rfl⟩, fun _ => rfl⟩
  · rw [hp, hp']
    dsimp only
    rw [runParsed_of_sameParsed hsame]
    refine ⟨⟨_, rfl⟩, fun hlog => ?_⟩
    rw [choose_of_sameButVerbose hsame.1 (hlog _ _ rfl)]
    rfl

theorem run_sameButVerbose_of_level :
    run sampleHost sampleTools ["-v", "blinky", "--verbose", "-l", "error", "thumbv6m-none-eabi"]
        sampleWorkspace =
      run sampleHost sampleTools ["blinky", "-l", "error", "thumbv6m-none-eabi"]
        sampleWorkspace := by
  have hsame : SameButVerbose ["blinky", "-l", "error", "thumbv6m-none-eabi"]
      ["-v", "blinky", "--verbose", "-l", "error", "thumbv6m-none-eabi"] := by
    refine .insert (by decide +kernel) (.single (by decide) (by decide +kernel)
      (.insert (by decide +kernel) (.valued (by decide +kernel) (by decide)
        (.single (by decide) (by decide +kernel) .nil))))
  have hp : parse (["blinky", "-l", "error", "thumbv6m-none-eabi"] ++ []) =
      .ok ({ log := .error }, ["blinky", "thumbv6m-none-eabi"]) :=
    eq_ok_of_toOption (by decide +kernel)
  refine (run_sameButVerbose hsame (.inl rfl) sampleHost sampleTools sampleWorkspace).2 ?_
  intro o arguments ho
  rw [hp] at ho
  cases ho
  decide

/-- The level `none` does not keep a verbose run quiet, and in front of a separator a flag makes an
argument of it. -/
theorem verbose_changes_run :
    ((parse ["--log", "none", "blinky", "thumbv6m-none-eabi"]).toOption =
        some ({ log := .none }, ["blinky", "thumbv6m-none-eabi"]) ∧
      SameButVerbose ["--log", "none", "blinky", "thumbv6m-none-eabi"]
        ["--log", "none", "-v", "blinky", "thumbv6m-none-eabi"] ∧
      (run sampleHost killedBuild ["--log", "none", "blinky", "thumbv6m-none-eabi"]
        sampleWorkspace).output = "" ∧
      (run sampleHost killedBuild ["--log", "none", "-v", "blinky", "thumbv6m-none-eabi"]
        sampleWorkspace).output ≠ "") ∧
    (SameButVerbose ["--log", "error", "blinky"] ["--log", "error", "blinky", "-v"] ∧
      (run sampleHost sampleTools ["--log", "error", "blinky", "--", "thumbv6m-none-eabi"]
        sampleWorkspace).calls.length = 2 ∧
      (run sampleHost sampleTools ["--log", "error", "blinky", "-v", "--", "thumbv6m-none-eabi"]
        sampleWorkspace).calls = []) := by
  refine ⟨⟨by decide +kernel, ?_, by decide +kernel, by decide +kernel⟩, ?_, by decide +kernel,
    by decide +kernel⟩
  · exact .valued (by decide +kernel) (by decide) (.insert (by decide +kernel)
      (.single (by decide) (by decide +kernel) (.single (by decide) (by decide +kernel) .nil)))
  · exact .valued (by decide +kernel) (by decide) (.single (by decide) (by decide +kernel)
      (.insert (by decide +kernel) .nil))

end TabPackager.CommandLine
