import TabPackager.Proofs.ItemReading
import Mathlib.Data.List.Induction

/-!
# What the items of a command line state

The flags count if they are there, an option has its last value, and where the options stand among
the plain arguments makes no difference.
-/

namespace TabPackager.CommandLine

theorem options_take (s : Seen) (i : Item) : (i.take s).options = i.adjust s.options := by
  cases i with
  | plain a _ =>
    show (s.addPlain a).options = s.options
    unfold Seen.addPlain
    split <;> rfl
  | _ => rfl

def optionsOf (items : List Item) : Options := items.foldl (fun o i => i.adjust o) {}

theorem options_takeAll (s : Seen) (items : List Item) :
    (takeAll s items).options = items.foldl (fun o i => i.adjust o) s.options := by
  induction items generalizing s with
  | nil => rfl
  | cons i items ih => rw [takeAll_cons, ih, options_take, List.foldl_cons]

def lastValue? (t : Setting) (items : List Item) : Option String :=
  (items.filterMap (Item.value? t)).getLast?

theorem lastValue?_append (t : Setting) (items : List Item) (i : Item) :
    lastValue? t (items ++ [i]) = (i.value? t).or (lastValue? t items) := by
  rw [lastValue?, List.filterMap_append, List.getLast?_append, lastValue?]
  cases h : i.value? t <;> simp [h]

def Given.last : Option String → Given Path
  | none => .absent
  | some v => .path v

/-- The options that the items state: flags that are there, and last values. -/
structure Options.StatedBy (o : Options) (items : List Item) : Prop where
  dryRun : o.dryRun = true ↔ ∃ i ∈ items, i.flag? = some .dryRun
  verbose : o.verbose = true ↔ ∃ i ∈ items, i.flag? = some .verbose
  config : o.config = .last (lastValue? .config items)
  directory : o.directory = .last (lastValue? .directory items)
  bundle : o.bundle = .last (lastValue? .bundle items)
  log : (lastValue? .log items).elim (o.log = .none) fun v => Level.ofName? v = some o.log

theorem Item.adjust_eq (i : Item) (o : Options) : i.adjust o =
    { config := (i.value? .config).elim o.config .path
      directory := (i.value? .directory).elim o.directory .path
      bundle := (i.value? .bundle).elim o.bundle .path
      dryRun := o.dryRun || decide (i.flag? = some .dryRun)
      verbose := o.verbose || decide (i.flag? = some .verbose)
      log := (i.value? .log).elim o.log fun v => (Level.ofName? v).getD .none } := by
  cases i with
  | plain a bare => simp [adjust, value?, flag?]
  | flag f s known quiet => cases f <;> simp [adjust, value?, flag?, Options.raise]
  | setting t s v known level w => cases t <;> simp [adjust, value?, flag?, Options.set]

theorem Item.level_of_value? {i : Item} {v : String} (h : i.value? .log = some v) :
    Level.ofName? v = some ((Level.ofName? v).getD .none) := by
  cases i with
  | setting t s u known level w =>
    rw [value?, Option.ite_none_right_eq_some] at h
    obtain ⟨ht, hu⟩ := h
    cases hu
    obtain ⟨l, hl⟩ := Option.isSome_iff_exists.mp (level ht)
    rw [hl, Option.getD_some]
  | _ => cases h

theorem flag_mem_append (f : Flag) (items : List Item) (i : Item) :
    (∃ j ∈ items ++ [i], j.flag? = some f) ↔
      (∃ j ∈ items, j.flag? = some f) ∨ i.flag? = some f := by
  simp only [List.mem_append, List.mem_singleton]
  constructor
  · rintro ⟨j, hj | rfl, hf⟩
    · exact .inl ⟨j, hj, hf⟩
    · exact .inr hf
  · rintro (⟨j, hj, hf⟩ | hf)
    · exact ⟨j, .inl hj, hf⟩
    · exact ⟨i, .inr rfl, hf⟩

theorem Given.last_append (t : Setting) (items : List Item) (i : Item) {g : Given Path}
    (h : g = .last (lastValue? t items)) :
    (i.value? t).elim g .path = .last (lastValue? t (items ++ [i])) := by
  rw [lastValue?_append]
  cases i.value? t with
  | none => simpa using h
  | some v => rfl

theorem Options.StatedBy.adjust {o : Options} {items : List Item} (h : o.StatedBy items)
    (i : Item) : (i.adjust o).StatedBy (items ++ [i]) := by
  rw [Item.adjust_eq]
  constructor
  · rw [flag_mem_append, ← h.dryRun]
    simp
  · rw [flag_mem_append, ← h.verbose]
    simp
  · exact Given.last_append .config items i h.config
  · exact Given.last_append .directory items i h.directory
  · exact Given.last_append .bundle items i h.bundle
  · rw [lastValue?_append]
    cases hv : i.value? .log with
    | none => simpa using h.log
    | some v => exact Item.level_of_value? hv

theorem optionsOf_statedBy (items : List Item) : (optionsOf items).StatedBy items := by
  induction items using List.reverseRecOn with
  | nil => constructor <;> simp [optionsOf, lastValue?, Given.last]
  | append_singleton items i ih =>
    have hstep : optionsOf (items ++ [i]) = i.adjust (optionsOf items) := by
      simp [optionsOf]
    rw [hstep]
    exact ih.adjust i

def commandLine (items : List Item) : List String := items.flatMap Item.arguments

theorem parse_commandLine (items : List Item) :
    parse (commandLine items) = .ok (optionsOf items, items.filterMap Item.plain?) := by
  have htokens : tokens (commandLine items) = .ok (items.flatMap Item.tokens) := by
    have h := tokens_items items []
    rw [List.append_nil] at h
    rw [commandLine, h, tokens]
    simp [Except.map]
  have hread : read {} (items.flatMap Item.tokens) = .ok (takeAll {} items) := by
    have h := read_items {} items []
    rw [List.append_nil] at h
    rw [h]
    rfl
  have hordered : Seen.Ordered {} := fun _ => rfl
  have harguments : (takeAll {} items).first ++ (takeAll {} items).others =
      items.filterMap Item.plain? := hordered.arguments_takeAll items
  have hoptions : (takeAll {} items).options = optionsOf items := options_takeAll {} items
  unfold parse
  rw [htokens]
  show (read {} (items.flatMap Item.tokens)).map _ = _
  rw [hread]
  show Except.ok ((takeAll {} items).options, _ ++ _) = _
  rw [harguments, hoptions]

/-- The options do not depend on where the plain arguments stand. -/
theorem optionsOf_filter (items : List Item) :
    optionsOf (items.filter fun i => i.plain?.isNone) = optionsOf items := by
  induction items using List.reverseRecOn with
  | nil => rfl
  | append_singleton items i ih =>
    cases i with
    | plain a bare => simpa [optionsOf, Item.plain?, Item.adjust] using ih
    | _ => simpa [optionsOf, Item.plain?] using congrArg (Item.adjust _) ih

/-- A command line made of items is never refused: its arguments are the plain ones in order, and
its options are those that the items state. Two command lines with the same plain arguments and
the same options, each in the same order, are the same run, however the ones stand among the
others. -/
theorem items_interleave (items : List Item) :
    (∃ o, parse (commandLine items) = .ok (o, items.filterMap Item.plain?) ∧
      o.StatedBy items) ∧
    ∀ others : List Item,
      others.filterMap Item.plain? = items.filterMap Item.plain? →
      others.filter (fun i => i.plain?.isNone) = items.filter (fun i => i.plain?.isNone) →
      ∀ (host : Host) (tools : Tools) (files : FileSystem),
        run host tools (commandLine others) files = run host tools (commandLine items) files := by
  refine ⟨⟨optionsOf items, parse_commandLine items, optionsOf_statedBy items⟩, ?_⟩
  intro others hplain hoptions host tools files
  have ho : optionsOf others = optionsOf items := by
    rw [← optionsOf_filter others, hoptions, optionsOf_filter]
  have hparse : parse (commandLine others) = parse (commandLine items) := by
    rw [parse_commandLine, parse_commandLine, hplain, ho]
  unfold run
  rw [hparse]

theorem items_interleave_of_level :
    run sampleHost sampleTools ["-l", "error", "blinky", "thumbv6m-none-eabi"] sampleWorkspace =
      run sampleHost sampleTools ["blinky", "-l", "error", "thumbv6m-none-eabi"]
        sampleWorkspace := by
  have hbinary : "blinky".toList.head? ≠ some '-' := by decide
  have htriple : "thumbv6m-none-eabi".toList.head? ≠ some '-' := by decide
  let level : Item := .setting .log "-l" "error" (by decide) (by decide) (.separate (by decide))
  let binary : Item := .plain "blinky" hbinary
  let triple : Item := .plain "thumbv6m-none-eabi" htriple
  exact (items_interleave [binary, level, triple]).2 [level, binary, triple] rfl rfl
    sampleHost sampleTools sampleWorkspace

/-- A configuration file whose name is the separator. -/
def separatorItems : List Item :=
  [.setting .config "--config" "--" (by decide) (by decide) .attached,
    .plain "blinky" (by decide), .plain "thumbv6m-none-eabi" (by decide)]

/-- An attached separator is the last value of the option, but the option comes out without a
value, and the run goes on as if no configuration had been asked for. -/
theorem separator_config_lost :
    commandLine separatorItems = ["--config=--", "blinky", "thumbv6m-none-eabi"] ∧
    lastValue? .config separatorItems = some "--" ∧
    (parse (commandLine separatorItems)).toOption =
      some ({ config := .withoutValue }, ["blinky", "thumbv6m-none-eabi"]) ∧
    (run sampleHost sampleTools (commandLine separatorItems) sampleWorkspace).calls.length = 2 ∧
    (run sampleHost sampleTools (commandLine separatorItems) sampleWorkspace).ending.toOption =
      some 0 := by
  refine ⟨?_, ?_, ?_, ?_, ?_⟩ <;> decide +kernel

end TabPackager.CommandLine
