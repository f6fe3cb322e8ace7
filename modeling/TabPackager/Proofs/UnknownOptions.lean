import TabPackager.Proofs.NulFree
import TabPackager.Proofs.OutcomeTable

/-!
# Unknown options

An argument that looks like an option and is none of the known ones counts as an argument of the
program. It never belongs to the first group, so it stands behind the plain arguments of that
group. A run with such an argument declines, unless there are exactly two arguments in all: then
the last unknown option is taken for the triple.
-/

namespace TabPackager.CommandLine

def Token.unknown? : Token → Option String
  | .unknown a => some a
  | _ => none

def Token.IsPlain : Token → Prop
  | .plain _ => True
  | _ => False

/-- Whether an argument counts as an option but has none of the spellings. -/
def isUnknown (a : String) : Bool :=
  match classify a with
  | .ok (.unknown _) => true
  | _ => false

/-- The unknown options of an argument vector, which stand before the separator. -/
def unknownOptions (argv : List String) : List String :=
  (argv.takeWhile (· != "--")).filter isUnknown

theorem classify_cases {a : String} {t : Token} (h : classify a = .ok t) :
    t = .plain a ∨ t = .unknown a ∨ ∃ o short attached, t = .option o short attached := by
  unfold classify at h
  dsimp only at h
  split at h
  · cases h
    exact .inl rfl
  · split at h
    · cases h
      exact .inr (.inr ⟨_, _, _, rfl⟩)
    · split at h
      · next t' hexact =>
        cases h
        split at hexact
        · obtain ⟨o, -, rfl⟩ := Option.map_eq_some_iff.mp hexact
          exact .inr (.inr ⟨_, _, _, rfl⟩)
        · cases hexact
      · have hmatches : ∀ e ∈ (if a.toList.take 2 = ['-', '-'] then longMatches a.toList
            else shortMatches a.toList), ∃ o short attached, e.2 = .option o short attached := by
          intro e he
          split at he
          all_goals
            obtain ⟨x, -, rfl⟩ := List.mem_map.mp he
            exact ⟨_, _, _, rfl⟩
        split at h
        · next spelling t' hone =>
          cases h
          rw [hone] at hmatches
          exact .inr (.inr (hmatches _ List.mem_cons_self))
        · split at h
          · cases h
            exact .inl rfl
          · cases h
            exact .inr (.inl rfl)
        · cases h

theorem unknown?_of_classify {a : String} {t : Token} (h : classify a = .ok t) :
    t.unknown? = if isUnknown a then some a else none := by
  unfold isUnknown
  rw [h]
  obtain rfl | rfl | ⟨o, short, attached, rfl⟩ := classify_cases h <;> rfl

theorem unknown?_tokens {argv : List String} {ts : List Token} (h : tokens argv = .ok ts) :
    ts.filterMap Token.unknown? = unknownOptions argv := by
  induction argv generalizing ts with
  | nil =>
    cases h
    rfl
  | cons a rest ih =>
    unfold tokens at h
    split at h
    · next ha =>
      cases h
      simp [unknownOptions, ha, Token.unknown?]
    · next ha =>
      obtain ⟨t, ht, h⟩ := bind_eq_ok.mp h
      obtain ⟨ts', hts, h⟩ := bind_eq_ok.mp h
      cases h
      rw [List.filterMap_cons, unknown?_of_classify ht, ih hts, unknownOptions, unknownOptions,
        List.takeWhile_cons_of_pos (by simpa using ha)]
      cases hu : isUnknown a <;> simp [hu]

/-- Only plain arguments stand behind the separator. -/
theorem pairwise_tokens {argv : List String} {ts : List Token} (h : tokens argv = .ok ts) :
    ts.Pairwise fun t u => t = .separator → u.IsPlain := by
  induction argv generalizing ts with
  | nil =>
    cases h
    exact List.Pairwise.nil
  | cons a rest ih =>
    unfold tokens at h
    split at h
    · cases h
      rw [List.pairwise_cons]
      constructor
      · intro u hu _
        obtain ⟨b, -, rfl⟩ := List.mem_map.mp hu
        trivial
      · rw [List.pairwise_map]
        refine List.pairwise_of_forall fun b c hb => ?_
        cases hb
    · obtain ⟨t, ht, h⟩ := bind_eq_ok.mp h
      obtain ⟨ts', hts, h⟩ := bind_eq_ok.mp h
      cases h
      rw [List.pairwise_cons]
      refine ⟨?_, ih hts⟩
      intro u _ hu
      rw [hu] at ht
      obtain hsep | hsep | ⟨o, short, attached, hsep⟩ := classify_cases ht <;> cases hsep

/-- How the arguments that have been read stand to the unknown options among them, while some
tokens are still to come. The first group ends only behind a plain argument; what can begin it
without one is the separator, and then only plain arguments are left. -/
structure Seen.Holds (s : Seen) (unknown : List String) (rest : List Token) : Prop where
  sublist : unknown.Sublist s.others
  early : s.group ≠ .ended → s.others = unknown
  ended : s.group = .ended → s.first ≠ []
  here : s.group = .here → s.first ≠ [] ∨ ∀ t ∈ rest, t.IsPlain

namespace Seen.Holds

variable {s s₁ : Seen} {unknown : List String} {t : Token} {rest : List Token}

theorem tail (h : s.Holds unknown (t :: rest)) : s.Holds unknown rest :=
  ⟨h.sublist, h.early, h.ended, fun hg =>
    (h.here hg).imp_right fun hplain u hu => hplain u (List.mem_cons_of_mem t hu)⟩

theorem of_eq (h : s.Holds unknown rest) (hfirst : s₁.first = s.first)
    (hothers : s₁.others = s.others) (hgroup : s₁.group = s.group) : s₁.Holds unknown rest := by
  constructor
  · rw [hothers]
    exact h.sublist
  · rw [hgroup, hothers]
    exact h.early
  · rw [hgroup, hfirst]
    exact h.ended
  · rw [hgroup, hfirst]
    exact h.here

theorem addPlain (h : s.Holds unknown rest) (a : String) : (s.addPlain a).Holds unknown rest := by
  unfold Seen.addPlain
  split
  · next hg =>
    refine ⟨h.sublist.trans (List.sublist_append_left _ _), ?_, fun _ => h.ended hg, ?_⟩
    · intro hne
      exact absurd hg hne
    · intro hhere
      rw [hg] at hhere
      cases hhere
  · next hg =>
    refine ⟨h.sublist, fun _ => h.early hg, nofun, fun _ => .inl ?_⟩
    simp

theorem addSeparator (h : s.Holds unknown rest) (hrest : ∀ t ∈ rest, t.IsPlain) :
    s.addSeparator.Holds unknown rest := by
  unfold Seen.addSeparator
  split
  · next hg =>
    refine ⟨h.sublist.trans (List.sublist_append_left _ _), ?_, fun _ => h.ended hg, ?_⟩
    · intro hne
      exact absurd hg hne
    · intro hhere
      rw [hg] at hhere
      cases hhere
  · next hg => exact ⟨h.sublist, fun _ => h.early hg, nofun, fun _ => .inr hrest⟩

theorem endGroup (h : s.Holds unknown (t :: rest)) (ht : ¬t.IsPlain) :
    s.endGroup.Holds unknown rest := by
  unfold Seen.endGroup
  split
  · next hg =>
    refine ⟨h.sublist, fun hne => absurd rfl hne, fun _ => ?_, nofun⟩
    rcases h.here hg with hfirst | hplain
    · exact hfirst
    · exact absurd (hplain t List.mem_cons_self) ht
  · exact h.tail

theorem addUnknown {a : String} (h : s.Holds unknown (.unknown a :: rest)) :
    (s.addUnknown a).Holds (unknown ++ [a]) rest := by
  have hend := h.endGroup (fun hplain => hplain)
  have hothers : (s.addUnknown a).others = s.endGroup.others ++ [a] := by
    unfold Seen.addUnknown Seen.endGroup
    split <;> rfl
  constructor
  · rw [hothers]
    exact hend.sublist.append_right [a]
  · intro hg
    rw [hothers, hend.early hg]
  · exact hend.ended
  · exact hend.here

end Seen.Holds

theorem setFlag_kept {s s₁ : Seen} {f : Flag} (h : s.setFlag f = .ok s₁) :
    s₁.first = s.first ∧ s₁.others = s.others ∧ s₁.group = s.group := by
  cases f <;> cases h <;> exact ⟨rfl, rfl, rfl⟩

theorem setFlags_kept {s s₁ : Seen} {fs : List Flag} (h : s.setFlags fs = .ok s₁) :
    s₁.first = s.first ∧ s₁.others = s.others ∧ s₁.group = s.group := by
  induction fs generalizing s with
  | nil =>
    cases h
    exact ⟨rfl, rfl, rfl⟩
  | cons f fs ih =>
    obtain ⟨s', hs', h⟩ := bind_eq_ok.mp h
    obtain ⟨hfirst, hothers, hgroup⟩ := setFlag_kept hs'
    obtain ⟨hfirst', hothers', hgroup'⟩ := ih h
    exact ⟨hfirst'.trans hfirst, hothers'.trans hothers, hgroup'.trans hgroup⟩

theorem setValue_kept {s s₁ : Seen} {t : Setting} {v : String} (h : s.setValue t v = .ok s₁) :
    s₁.first = s.first ∧ s₁.others = s.others ∧ s₁.group = s.group := by
  cases t with
  | log =>
    unfold Seen.setValue at h
    dsimp only at h
    split at h
    · cases h
      exact ⟨rfl, rfl, rfl⟩
    · split at h
      · cases h
        exact ⟨rfl, rfl, rfl⟩
      · cases h
  | _ =>
    cases h
    exact ⟨rfl, rfl, rfl⟩

theorem holds_read {ts : List Token} {s s' : Seen} {unknown : List String}
    (hs : s.Holds unknown ts) (hts : ts.Pairwise fun t u => t = .separator → u.IsPlain)
    (h : read s ts = .ok s') : s'.Holds (unknown ++ ts.filterMap Token.unknown?) [] := by
  -- An option may take the token behind it, so the induction is on the number of tokens.
  induction hn : ts.length using Nat.strong_induction_on generalizing s ts unknown with
  | _ n ih =>
    subst hn
    cases ts with
    | nil =>
      cases h
      simpa using hs
    | cons t ts =>
      rw [List.pairwise_cons] at hts
      have hnext {s₁ : Seen} {known : List String} (h₁ : s₁.Holds known ts)
          (h : read s₁ ts = .ok s') : s'.Holds (known ++ ts.filterMap Token.unknown?) [] :=
        ih ts.length (by simp) h₁ hts.2 h rfl
      cases t with
      | plain a => exact hnext (hs.tail.addPlain a) h
      | separator => exact hnext (hs.tail.addSeparator fun t ht => hts.1 t ht rfl) h
      | unknown a =>
        have hread := hnext hs.addUnknown h
        rwa [List.append_assoc] at hread
      | option o short attached =>
        obtain ⟨flags, last, s₁, -, h₁, h⟩ := read_option h
        obtain ⟨hfirst, hothers, hgroup⟩ := setFlags_kept h₁
        have hs₁ : s₁.Holds unknown ts :=
          (hs.endGroup (fun hplain => hplain)).of_eq hfirst hothers hgroup
        rcases h with h | ⟨t, v, s₂, h₂, ⟨-, h⟩ | ⟨ts', rfl, hread⟩⟩
        · exact hnext hs₁ h
        · obtain ⟨hfirst, hothers, hgroup⟩ := setValue_kept h₂
          exact hnext (hs₁.of_eq hfirst hothers hgroup) h
        · obtain ⟨hfirst, hothers, hgroup⟩ := setValue_kept h₂
          have hlt : ts'.length < (Token.option o short attached :: .plain v :: ts').length := by
            rw [List.length_cons, List.length_cons]
            omega
          have hs₂ : s₂.Holds unknown ts' := hs₁.tail.of_eq hfirst hothers hgroup
          have hs' : s'.Holds (unknown ++ ts'.filterMap Token.unknown?) [] :=
            ih ts'.length hlt hs₂ (List.pairwise_cons.mp hts.2).2 hread rfl
          exact hs'

theorem Seen.holds_start (rest : List Token) : Seen.Holds {} [] rest :=
  ⟨List.Sublist.refl [], fun _ => rfl, nofun, nofun⟩

/-- All unknown options are among the arguments, in their order. If there are just two arguments,
an unknown option is the second, and the first is another one or the only plain argument. -/
theorem unknownOptions_arguments {argv : List String} {o : Options} {arguments : List String}
    (h : parse argv = .ok (o, arguments)) :
    (unknownOptions argv).Sublist arguments ∧
      ∀ x y, arguments = [x, y] → unknownOptions argv = [] ∨ unknownOptions argv = [y] ∨
        unknownOptions argv = [x, y] := by
  unfold parse at h
  split at h
  · cases h
  · next ts hts =>
    cases hread : read {} ts with
    | error e =>
      rw [hread] at h
      cases h
    | ok s =>
      rw [hread] at h
      cases h
      have hholds := holds_read (Seen.holds_start ts) (pairwise_tokens hts) hread
      rw [unknown?_tokens hts, List.nil_append] at hholds
      refine ⟨hholds.sublist.trans (List.sublist_append_right _ _), ?_⟩
      intro x y hpair
      have hsub := hholds.sublist
      rcases hfirst : s.first with _ | ⟨a, _ | ⟨b, rest⟩⟩
      · have hg : s.group ≠ .ended := fun hg => hholds.ended hg hfirst
        rw [hfirst, hholds.early hg] at hpair
        exact .inr (.inr hpair)
      · rw [hfirst, List.singleton_append] at hpair
        obtain ⟨-, hothers⟩ := List.cons.inj hpair
        rw [hothers, List.sublist_singleton] at hsub
        exact hsub.imp_right .inl
      · rw [hfirst] at hpair
        have hothers : s.others = [] := by
          have hlen := congrArg List.length hpair
          simp only [List.length_append, List.length_cons, List.length_nil] at hlen
          apply List.length_eq_zero_iff.mp
          omega
        rw [hothers, List.sublist_nil] at hsub
        exact .inl hsub

structure Outcome.Idle (out : Outcome) (files : FileSystem) : Prop where
  calls : out.calls = []
  files : out.files = files

theorem printed_outputs (c : Console) (texts : List String) :
    c.printed .output (texts.map .output) = String.join (texts.map (· ++ "\n")) ∧
      c.printed .errors (texts.map .output) = "" := by
  simp [Console.printed, Console.lines, Console.line?, List.filterMap_map, Function.comp_def,
    String.join]

theorem runParsed_usage (host : Host) (tools : Tools) (o : Options) {arguments : List String}
    (h : ∀ x y, arguments ≠ [x, y]) (files : FileSystem) :
    (runParsed host tools o arguments files).Idle files ∧
      (runParsed host tools o arguments files).ending = .ok 1 ∧
      (runParsed host tools o arguments files).output =
        String.join (usageLines.map (· ++ "\n")) ∧
      (runParsed host tools o arguments files).errors = "" := by
  obtain ⟨text, hx⟩ := exec_execute_usage host tools o { files } h
  rw [runParsed_eq, hx]
  obtain ⟨houtput, herrors⟩ :=
    printed_outputs (Console.choose o.log o.verbose o.dryRun) usageLines
  exact ⟨⟨rfl, rfl⟩, rfl, houtput, herrors⟩

/-- A vector with an unknown option: the run does nothing, and shows how the program is called,
gives the help that is asked for, or refuses the vector. The one exception is a vector with two
arguments in all, of which the second is an unknown option and the first is the other unknown
option or the only plain argument; the unknown option is then the triple of the run. -/
theorem unknownOption_declined {argv : List String} (h : unknownOptions argv ≠ [])
    (host : Host) (tools : Tools) (files : FileSystem) :
    (∃ o binary triple, parse argv = .ok (o, [binary, triple]) ∧
      (unknownOptions argv = [triple] ∨ unknownOptions argv = [binary, triple])) ∨
    (run host tools argv files).Idle files ∧
      match parse argv with
      | .ok _ => (run host tools argv files).ending = .ok 1 ∧
          (run host tools argv files).output = String.join (usageLines.map (· ++ "\n")) ∧
          (run host tools argv files).errors = ""
      | .error .help => (run host tools argv files).ending = .ok 0
      | .error (.refused _) => (run host tools argv files).ending = .ok 2 := by
  unfold run
  cases hp : parse argv with
  | error stop =>
    right
    cases stop with
    | help => exact ⟨⟨rfl, rfl⟩, rfl⟩
    | refused r => exact ⟨⟨rfl, rfl⟩, rfl⟩
  | ok parsed =>
    obtain ⟨o, arguments⟩ := parsed
    obtain ⟨-, hpair⟩ := unknownOptions_arguments hp
    by_cases htwo : ∃ x y, arguments = [x, y]
    · obtain ⟨x, y, rfl⟩ := htwo
      left
      rcases hpair x y rfl with hnone | hknown
      · exact absurd hnone h
      · exact ⟨o, x, y, rfl, hknown⟩
    · right
      apply runParsed_usage host tools o
      intro x y heq
      exact htwo ⟨x, y, heq⟩

theorem unknownOption_declined_of_two :
    (parse ["--frob", "blinky", "thumbv6m-none-eabi"]).toOption =
        some ({}, ["blinky", "thumbv6m-none-eabi", "--frob"]) ∧
      (run sampleHost sampleTools ["--frob", "blinky", "thumbv6m-none-eabi"]
        sampleWorkspace).Idle sampleWorkspace := by
  have hparse : parse ["--frob", "blinky", "thumbv6m-none-eabi"] =
      .ok ({}, ["blinky", "thumbv6m-none-eabi", "--frob"]) :=
    eq_ok_of_toOption (by decide)
  have hunknown : unknownOptions ["--frob", "blinky", "thumbv6m-none-eabi"] ≠ [] := by
    decide
  refine ⟨by rw [hparse]; rfl, ?_⟩
  rcases unknownOption_declined hunknown sampleHost sampleTools sampleWorkspace with
    ⟨o, binary, triple, h, -⟩ | ⟨hidle, -⟩
  · rw [hparse] at h
    cases h
  · exact hidle

/-- An unknown option beside a single plain argument becomes the triple, and the build is
called with it. -/
theorem unknownOption_built :
    unknownOptions ["--frob", "blinky"] = ["--frob"] ∧
      (parse ["--frob", "blinky"]).toOption = some ({}, ["blinky", "--frob"]) ∧
      (run sampleHost killedBuild ["--frob", "blinky"] sampleWorkspace).calls.map (·.command) =
        [["cargo", "build", "--release", "--bin", "blinky", "--target", "--frob"]] := by
  refine ⟨?_, ?_, ?_⟩ <;> decide

end TabPackager.CommandLine
