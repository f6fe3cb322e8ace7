import TabPackager.Proofs.Acceptance
import TabPackager.Proofs.TargetDirectory

/-!
# Options of the packaging tool

What a configuration can say to the packaging tool. Of the mapping only the words of the tool's
command show in the call, and behind them stand the same options for all configurations. These are
given once, and with their own values, exactly if no word of the command is one of them; acceptance
does not ask for that.
-/

namespace TabPackager

open Text

def packageOptions (l : Layout) : List (String × String) :=
  [("--package-name", l.binary), ("--kernel-major", "2"), ("--kernel-minor", "1"),
    ("--stack", "1024"), ("--minimum-footer-size", "256"), ("--output-file", l.tab.text)]

def packageArguments (l : Layout) : List String :=
  ((packageOptions l).flatMap fun o => [o.1, o.2]) ++ [l.elf.text]

def packageOptionNames : List String :=
  ["--package-name", "--kernel-major", "--kernel-minor", "--stack", "--minimum-footer-size",
    "--output-file"]

/-- The option that a word names, and the value that is attached to it. -/
def namedOption? (w : String) : Option (String × Option String) :=
  let cut := cutAt '=' w.toList
  if String.ofList cut.1 ∈ packageOptionNames then
    some (String.ofList cut.1, cut.2.map String.ofList)
  else none

/-- The options among the words of a command. Without an attached value an option takes the next
word, whatever that is; all other words are passed over. -/
def optionsIn : List String → List (String × Option String)
  | [] => []
  | w :: ws =>
    match namedOption? w, ws with
    | none, ws => optionsIn ws
    | some (name, some v), ws => (name, some v) :: optionsIn ws
    | some (name, none), [] => [(name, none)]
    | some (name, none), v :: ws => (name, some v) :: optionsIn ws

/-- The option is given exactly once, and with its value. -/
def GivenOnce (options : List (String × Option String)) (o : String × String) : Prop :=
  options.filter (fun e => decide (e.1 = o.1)) = [(o.1, some o.2)]

theorem namedOption?_of_mem {name : String} (h : name ∈ packageOptionNames) :
    namedOption? name = some (name, none) := by
  have hall : ∀ name ∈ packageOptionNames, namedOption? name = some (name, none) := by
    decide +kernel
  exact hall name h

theorem mem_of_namedOption? {w name : String} {value : Option String}
    (h : namedOption? w = some (name, value)) : name ∈ packageOptionNames := by
  simp only [namedOption?, Option.ite_none_right_eq_some, Option.some.injEq, Prod.mk.injEq] at h
  obtain ⟨hname, rfl, -⟩ := h
  exact hname

theorem head?_cutAt {α : Type} [DecidableEq α] {sep c : α} {cs : List α}
    (h : (cutAt sep cs).1.head? = some c) : cs.head? = some c := by
  cases cs with
  | nil => cases h
  | cons x cs =>
    unfold cutAt at h
    split at h
    · cases h
    · exact h

theorem namedOption?_of_head? {w : String} (h : w.toList.head? ≠ some '-') :
    namedOption? w = none := by
  have hhyphen : ∀ name ∈ packageOptionNames, name.toList.head? = some '-' := by decide
  rw [namedOption?, if_neg]
  intro hname
  have hhead := hhyphen _ hname
  rw [String.toList_ofList] at hhead
  exact h (head?_cutAt hhead)

theorem optionsIn_cons_none {w : String} (h : namedOption? w = none) (ws : List String) :
    optionsIn (w :: ws) = optionsIn ws := by
  rw [optionsIn.eq_def]
  simp only [h]

theorem optionsIn_cons_attached {w name v : String} (h : namedOption? w = some (name, some v))
    (ws : List String) : optionsIn (w :: ws) = (name, some v) :: optionsIn ws := by
  rw [optionsIn.eq_def]
  simp only [h]

theorem optionsIn_cons_next {w name : String} (h : namedOption? w = some (name, none)) (v : String)
    (ws : List String) : optionsIn (w :: v :: ws) = (name, some v) :: optionsIn ws := by
  rw [optionsIn.eq_def]
  simp only [h]

theorem optionsIn_append_of_none {us : List String} (h : ∀ w ∈ us, namedOption? w = none)
    (ws : List String) : optionsIn (us ++ ws) = optionsIn ws := by
  induction us with
  | nil => rfl
  | cons w us ih =>
    rw [List.forall_mem_cons] at h
    rw [List.cons_append, optionsIn_cons_none h.1, ih h.2]

theorem optionsIn_eq_nil_iff {ws : List String} :
    optionsIn ws = [] ↔ ∀ w ∈ ws, namedOption? w = none := by
  fun_induction optionsIn ws with
  | case1 => simp
  | case2 w ws h ih => simp [h, ih]
  | case3 w name v ws h ih => simp [h]
  | case4 w name h => simp [h]
  | case5 w name v ws h ih => simp [h]

theorem mem_optionsIn_name {ws : List String} {e : String × Option String}
    (h : e ∈ optionsIn ws) : e.1 ∈ packageOptionNames := by
  fun_induction optionsIn ws with
  | case1 => cases h
  | case2 w ws hw ih => exact ih h
  | case3 w name v ws hw ih =>
    rcases List.mem_cons.mp h with rfl | h
    · exact mem_of_namedOption? hw
    · exact ih h
  | case4 w name hw =>
    rw [List.mem_singleton.mp h]
    exact mem_of_namedOption? hw
  | case5 w name v ws hw ih =>
    rcases List.mem_cons.mp h with rfl | h
    · exact mem_of_namedOption? hw
    · exact ih h

/-- Two parts of a command are read apart, unless the first ends in an option that takes its value
from the second. -/
theorem optionsIn_append (us : List String) (w : String) (ws : List String) :
    optionsIn (us ++ w :: ws) = optionsIn us ++ optionsIn (w :: ws) ∨
      ∃ front name, name ∈ packageOptionNames ∧
        optionsIn (us ++ w :: ws) = front ++ (name, some w) :: optionsIn ws := by
  fun_induction optionsIn us with
  | case1 => exact .inl rfl
  | case2 u us hu ih => rwa [List.cons_append, optionsIn_cons_none hu]
  | case3 u name v us hu ih =>
    rw [List.cons_append, optionsIn_cons_attached hu]
    rcases ih with ih | ⟨front, other, hother, ih⟩
    · exact .inl (congrArg _ ih)
    · exact .inr ⟨(name, some v) :: front, other, hother, congrArg _ ih⟩
  | case4 u name hu => exact .inr ⟨[], name, mem_of_namedOption? hu, optionsIn_cons_next hu w ws⟩
  | case5 u name v us hu ih =>
    rw [List.cons_append, List.cons_append, optionsIn_cons_next hu]
    rcases ih with ih | ⟨front, other, hother, ih⟩
    · exact .inl (congrArg _ ih)
    · exact .inr ⟨(name, some v) :: front, other, hother, congrArg _ ih⟩

section

variable (l : Layout)

theorem packageCommand_eq (config : Packaging) :
    packageCommand l config = config.elf2tab ++ packageArguments l := by
  simp [packageCommand, packageMetadata, packageArguments, packageOptions]

theorem packageOptions_names : (packageOptions l).map Prod.fst = packageOptionNames := rfl

theorem exists_packageOption {name : String} (h : name ∈ packageOptionNames) :
    ∃ o ∈ packageOptions l, o.1 = name := by
  rwa [← packageOptions_names l, List.mem_map] at h

theorem namedOption?_elf : namedOption? l.elf.text = none := by
  apply namedOption?_of_head?
  cases ha : l.elf.anchor with
  | relative =>
    have hrelative : l.elf.isAbsolute = false := Path.isAbsolute_eq_false_iff.mpr ha
    have hbare := Layout.bare_of_child_relative hrelative
    obtain ⟨c, cs, hparts⟩ := (Layout.elf_below hbare.1 hbare.2).parts
    have htext : l.elf.text = "target" ++ "/" ++ "/".intercalate (c :: cs) := by
      rw [Path.text, if_neg (by simp [hparts]), ha, hparts]
      exact String.intercalate_cons_of_ne_nil (List.cons_ne_nil c cs)
    simp [htext]
  | root => simp [Path.text, ha, Anchor.text]
  | doubleRoot => simp [Path.text, ha, Anchor.text]

theorem optionsIn_packageArguments : optionsIn (packageArguments l) =
    (packageOptions l).map fun o => (o.1, some o.2) := by
  have hlast : optionsIn [l.elf.text] = [] := by
    rw [optionsIn_cons_none (namedOption?_elf l)]
    rfl
  have hnames : ∀ o ∈ packageOptions l, o.1 ∈ packageOptionNames := by
    intro o ho
    rw [← packageOptions_names l]
    exact List.mem_map_of_mem ho
  have hgiven {os : List (String × String)} (h : ∀ o ∈ os, o.1 ∈ packageOptionNames) :
      optionsIn ((os.flatMap fun o => [o.1, o.2]) ++ [l.elf.text]) =
        os.map fun o => (o.1, some o.2) := by
    induction os with
    | nil => exact hlast
    | cons o os ih =>
      rw [List.forall_mem_cons] at h
      rw [List.flatMap_cons, List.append_assoc, List.cons_append, List.cons_append,
        List.nil_append, optionsIn_cons_next (namedOption?_of_mem h.1), ih h.2, List.map_cons]
  exact hgiven hnames

theorem givenOnce_packageArguments {o : String × String} (h : o ∈ packageOptions l) :
    GivenOnce (optionsIn (packageArguments l)) o := by
  rw [optionsIn_packageArguments]
  simp only [packageOptions, List.mem_cons, List.not_mem_nil, or_false] at h
  rcases h with rfl | rfl | rfl | rfl | rfl | rfl <;> simp [GivenOnce, packageOptions]

/-- The name of an option is the value of no option but the name of the package. -/
theorem packageOptions_value {name : String} (h : (name, "--package-name") ∈ packageOptions l) :
    name = "--package-name" ∧ l.binary = "--package-name" := by
  have htab : l.tab.text ≠ "--package-name" := by
    intro he
    have hname := congrArg (fun s => (Path.parse s).name.toList.getLast?) he
    rw [Path.parse_text, Layout.tab_name] at hname
    simp at hname
    exact absurd hname (by decide)
  simp only [packageOptions, List.mem_cons, List.not_mem_nil, or_false, Prod.mk.injEq] at h
  rcases h with ⟨rfl, h⟩ | ⟨-, h⟩ | ⟨-, h⟩ | ⟨-, h⟩ | ⟨-, h⟩ | ⟨-, h⟩
  · exact ⟨rfl, h.symm⟩
  · simp at h
  · simp at h
  · simp at h
  · simp at h
  · exact absurd h.symm htab

theorem GivenOnce.eq {options : List (String × Option String)} {o : String × String}
    (h : GivenOnce options o) {v : Option String} (hv : (o.1, v) ∈ options) : v = some o.2 := by
  have hmem : (o.1, v) ∈ options.filter (fun e => decide (e.1 = o.1)) :=
    List.mem_filter.mpr ⟨hv, decide_eq_true rfl⟩
  rw [GivenOnce] at h
  rw [h, List.mem_singleton, Prod.mk.injEq] at hmem
  exact hmem.2

variable {l} {us : List String}

/-- If the first option of the layout were taken for a value, the package would be called like
that option, and the option would be given with another value. -/
theorem not_swallowed {front : List (String × Option String)} {name : String}
    (hname : name ∈ packageOptionNames) (rest : List String) :
    ¬∀ o ∈ packageOptions l, GivenOnce (front ++ (name, some "--package-name") ::
      optionsIn (l.binary :: "--kernel-major" :: rest)) o := by
  intro h
  obtain ⟨⟨_, value⟩, ho, rfl⟩ := exists_packageOption l hname
  have hvalue := (h _ ho).eq (List.mem_append_right front List.mem_cons_self)
  rw [Option.some.injEq] at hvalue
  subst hvalue
  obtain ⟨-, hbinary⟩ := packageOptions_value l ho
  rw [hbinary, optionsIn_cons_next (namedOption?_of_mem (by decide))] at h
  have hother := (h ("--package-name", l.binary) List.mem_cons_self).eq
    (List.mem_append_right front (List.mem_cons_of_mem _ List.mem_cons_self))
  rw [hbinary] at hother
  exact absurd hother (by decide)

theorem optionless_of_givenOnce
    (h : ∀ o ∈ packageOptions l, GivenOnce (optionsIn (us ++ packageArguments l)) o) :
    ∀ w ∈ us, namedOption? w = none := by
  have hshape : ∃ rest,
      packageArguments l = "--package-name" :: l.binary :: "--kernel-major" :: rest := ⟨_, rfl⟩
  obtain ⟨rest, hrest⟩ := hshape
  rw [← optionsIn_eq_nil_iff, List.eq_nil_iff_forall_not_mem]
  rcases optionsIn_append us "--package-name" (l.binary :: "--kernel-major" :: rest) with
    happ | ⟨front, name, hname, happ⟩
  · intro e he
    obtain ⟨o, ho, hoe⟩ := exists_packageOption l (mem_optionsIn_name he)
    have honce := h o ho
    have hgiven := givenOnce_packageArguments l ho
    rw [← hrest] at happ
    rw [GivenOnce] at honce hgiven
    rw [happ, List.filter_append, hgiven, List.append_left_eq_self, List.filter_eq_nil_iff] at honce
    exact honce e he (decide_eq_true hoe.symm)
  · rw [hrest, happ] at h
    exact absurd h (not_swallowed hname rest)

theorem givenOnce_iff :
    (∀ o ∈ packageOptions l, GivenOnce (optionsIn (us ++ packageArguments l)) o) ↔
      ∀ w ∈ us, namedOption? w = none := by
  refine ⟨optionless_of_givenOnce, fun h o ho => ?_⟩
  rw [optionsIn_append_of_none h]
  exact givenOnce_packageArguments l ho

end

namespace Config

/-- What an accepted mapping has to do with the call of the packaging tool. -/
structure Packages (es : Entries) (p : Packaging) (l : Layout) : Prop where
  command : packageCommand l p = p.elf2tab ++ packageArguments l
  words : ReadsAs ["elf2tab"] p.elf2tab (field? es "tools" "elf2tab")
  only : ∀ es' p', ofEntries es' = .ok p' →
    field? es' "tools" "elf2tab" = field? es "tools" "elf2tab" →
    packageCommand l p' = packageCommand l p
  once : (∀ o ∈ packageOptions l, GivenOnce (optionsIn (packageCommand l p)) o) ↔
    ∀ w ∈ p.elf2tab, namedOption? w = none

/-- Whatever a mapping holds, only the words of one key show in the call of the packaging tool, in
front of what depends on the layout alone. Each option that the layout gives is given once and with
the layout's value exactly if none of these words names one. -/
theorem ofEntries_packages {es : Entries} {p : Packaging} (h : ofEntries es = .ok p) (l : Layout) :
    Packages es p l where
  command := packageCommand_eq l p
  words := (reads_of_packaging (ofEntries_eq_ok_iff.mp h)).elf2tab
  only es' p' h' hfield := by
    have hwords := (reads_of_packaging (ofEntries_eq_ok_iff.mp h)).elf2tab
    have hwords' := (reads_of_packaging (ofEntries_eq_ok_iff.mp h')).elf2tab
    rw [hfield] at hwords'
    rw [packageCommand_eq, packageCommand_eq, hwords'.unique hwords]
  once := by
    rw [packageCommand_eq]
    exact givenOnce_iff

def toolTable (words : List String) : Entries :=
  [(.text "tools", .map [(.text "elf2tab", .list (words.map .text))])]

theorem ofEntries_packages_of_verbose :
    ofEntries (toolTable ["elf2tab", "--verbose"]) =
      .ok { elf2tab := ["elf2tab", "--verbose"] } ∧
    ∀ o ∈ packageOptions ⟨"blinky", "thumbv6m-none-eabi"⟩, GivenOnce (optionsIn (packageCommand
      ⟨"blinky", "thumbv6m-none-eabi"⟩ { elf2tab := ["elf2tab", "--verbose"] })) o := by
  have h : ofEntries (toolTable ["elf2tab", "--verbose"]) =
      .ok { elf2tab := ["elf2tab", "--verbose"] } := by
    rw [ofEntries_eq_ok_iff]
    rfl
  exact ⟨h, (ofEntries_packages h _).once.mpr (by decide +kernel)⟩

theorem stackOption_given_twice :
    ofEntries (toolTable ["elf2tab", "--stack", "4096"]) =
      .ok { elf2tab := ["elf2tab", "--stack", "4096"] } ∧
    (optionsIn (packageCommand ⟨"blinky", "thumbv6m-none-eabi"⟩
      { elf2tab := ["elf2tab", "--stack", "4096"] })).filter (fun e => decide (e.1 = "--stack")) =
        [("--stack", some "4096"), ("--stack", some "1024")] := by
  refine ⟨?_, by decide +kernel⟩
  rw [ofEntries_eq_ok_iff]
  rfl

end Config

end TabPackager
