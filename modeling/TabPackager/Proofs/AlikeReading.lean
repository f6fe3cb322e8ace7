import TabPackager.Proofs.VerboseVectors

/-!
# Reading with more and fewer verbose flags

Verbose flags show in how a vector is read: like every option they end the first group of plain
arguments, and what comes later goes with the unknown options. How many arguments there are stays
the same, and if there are two, so do the two.
-/

namespace TabPackager.CommandLine

/-- The arguments that have been read: unknown options that came before all plain arguments, and
then the others in order. The first of these are the first group, and the rest stands behind
the early ones. -/
structure Seen.Spread (s : Seen) (early later : List String) : Prop where
  split : ∃ rest, later = s.first ++ rest ∧ s.others = early ++ rest ∧
    (s.group ≠ .ended → rest = [])
  ahead : s.group = .ahead ↔ s.first = []

namespace Seen.Spread

variable {s s' : Seen} {early later : List String}

theorem of_eq (h : s.Spread early later) (hfirst : s'.first = s.first)
    (hothers : s'.others = s.others) (hgroup : s'.group = s.group) : s'.Spread early later := by
  constructor
  · rw [hfirst, hothers, hgroup]
    exact h.split
  · rw [hfirst, hgroup]
    exact h.ahead

theorem endGroup (h : s.Spread early later) : s.endGroup.Spread early later := by
  unfold Seen.endGroup
  split
  · next hg =>
    obtain ⟨rest, hlater, hothers, -⟩ := h.split
    refine ⟨⟨rest, hlater, hothers, fun hne => absurd rfl hne⟩, ?_⟩
    have hfirst : s.first ≠ [] := fun hf => absurd (h.ahead.mpr hf) (by simp [hg])
    simpa using hfirst
  · exact h

theorem addPlain (h : s.Spread early later) (a : String) :
    (s.addPlain a).Spread early (later ++ [a]) := by
  obtain ⟨rest, hlater, hothers, hopen⟩ := h.split
  unfold Seen.addPlain
  split
  · next hg =>
    refine ⟨⟨rest ++ [a], ?_, ?_, fun hne => absurd hg hne⟩, h.ahead⟩
    · rw [hlater, List.append_assoc]
    · dsimp only
      rw [hothers, List.append_assoc]
  · next hg =>
    obtain rfl := hopen hg
    refine ⟨⟨[], ?_, hothers, fun _ => rfl⟩, by simp⟩
    rw [hlater, List.append_nil, List.append_nil]

theorem first_eq_nil_iff (h : s.Spread early later) : s.first = [] ↔ later = [] := by
  obtain ⟨rest, hlater, -, hopen⟩ := h.split
  constructor
  · intro hfirst
    have hg : s.group = .ahead := h.ahead.mpr hfirst
    rw [hlater, hfirst, hopen (by simp [hg]), List.append_nil]
  · rintro rfl
    exact (List.append_eq_nil_iff.mp hlater.symm).1

theorem addUnknown_nil (h : s.Spread early []) (a : String) :
    (s.addUnknown a).Spread (early ++ [a]) [] := by
  have hfirst := h.first_eq_nil_iff.mpr rfl
  have hg := h.ahead.mpr hfirst
  have hkeep : s.endGroup = s := by
    unfold Seen.endGroup
    rw [hg]
  obtain ⟨rest, hlater, hothers, hopen⟩ := h.split
  obtain rfl := hopen (by simp [hg])
  unfold Seen.addUnknown
  rw [hkeep]
  refine ⟨⟨[], hlater, ?_, fun _ => rfl⟩, h.ahead⟩
  dsimp only
  rw [hothers, List.append_nil, List.append_nil]

theorem addUnknown_ne_nil (h : s.Spread early later) (hne : later ≠ []) (a : String) :
    (s.addUnknown a).Spread early (later ++ [a]) := by
  have hahead : s.group ≠ .ahead := fun hg => hne (h.first_eq_nil_iff.mp (h.ahead.mp hg))
  have hended : s.endGroup.group = .ended := by
    unfold Seen.endGroup
    cases hg : s.group with
    | ahead => exact absurd hg hahead
    | here => rfl
    | ended => exact hg
  have hothers' : s.endGroup.others = s.others := by
    unfold Seen.endGroup
    split <;> rfl
  obtain ⟨rest, hlater, hothers, -⟩ := h.endGroup.split
  rw [hothers'] at hothers
  refine ⟨⟨rest ++ [a], ?_, ?_, fun hopen => absurd hended hopen⟩, h.endGroup.ahead⟩
  · rw [hlater, List.append_assoc]
    rfl
  · change s.others ++ [a] = _
    rw [hothers, List.append_assoc]

theorem length_arguments (h : s.Spread early later) :
    s.arguments.length = early.length + later.length := by
  obtain ⟨rest, hlater, hothers, -⟩ := h.split
  rw [Seen.arguments, hothers, hlater]
  simp only [List.length_append]
  omega

theorem arguments_of_few (h : s.Spread early later) (hfew : s.arguments.length ≤ 2) :
    s.arguments = later ++ early := by
  rw [h.length_arguments] at hfew
  obtain ⟨rest, hlater, hothers, hopen⟩ := h.split
  by_cases hrest : rest = []
  · rw [Seen.arguments, hothers, hlater, hrest, List.append_nil, List.append_nil]
  · have hfirst : s.first ≠ [] := by
      intro hnil
      have hg := h.ahead.mpr hnil
      exact hrest (hopen (by simp [hg]))
    have hearly : early = [] := by
      rw [hlater, List.length_append] at hfew
      have := List.length_pos_of_ne_nil hfirst
      have := List.length_pos_of_ne_nil hrest
      exact List.length_eq_zero_iff.mp (by omega)
    rw [Seen.arguments, hothers, hlater, hearly, List.nil_append, List.append_nil]

end Seen.Spread

/-- The lists are equally long, and equal if they hold no more than two. -/
def SameArguments (as bs : List String) : Prop :=
  as.length = bs.length ∧ (as.length ≤ 2 → as = bs)

theorem SameArguments.append {as bs : List String} (h : SameArguments as bs) (more : List String) :
    SameArguments (as ++ more) (bs ++ more) := by
  obtain ⟨hlength, hfew⟩ := h
  refine ⟨by rw [List.length_append, List.length_append, hlength], fun hle => ?_⟩
  rw [List.length_append] at hle
  rw [hfew (by omega)]

theorem Seen.Spread.sameArguments {s s' : Seen} {early later : List String}
    (h : s.Spread early later) (h' : s'.Spread early later) :
    SameArguments s.arguments s'.arguments := by
  have hlength : s.arguments.length = s'.arguments.length :=
    h.length_arguments.trans h'.length_arguments.symm
  refine ⟨hlength, fun hfew => ?_⟩
  rw [h.arguments_of_few hfew, h'.arguments_of_few (hlength ▸ hfew)]

/-- The options are the same but for whether the run is to be verbose. -/
def Options.SameButVerbose (o o' : Options) : Prop := o' = { o with verbose := o'.verbose }

structure Seen.Alike (s s' : Seen) : Prop where
  options : s.options.SameButVerbose s'.options
  spread : ∃ early later, s.Spread early later ∧ s'.Spread early later

namespace Seen.Alike

variable {s s' : Seen}

theorem symm (h : s.Alike s') : s'.Alike s where
  options := by
    have hoptions : s'.options = { s.options with verbose := s'.options.verbose } := h.options
    rw [Options.SameButVerbose, hoptions]
  spread := by
    obtain ⟨early, later, hs, hs'⟩ := h.spread
    exact ⟨early, later, hs', hs⟩

theorem endGroup (h : s.Alike s') : s.endGroup.Alike s'.endGroup := by
  obtain ⟨early, later, hs, hs'⟩ := h.spread
  refine ⟨?_, early, later, hs.endGroup, hs'.endGroup⟩
  rw [endGroup_options, endGroup_options]
  exact h.options

theorem addPlain (h : s.Alike s') (a : String) : (s.addPlain a).Alike (s'.addPlain a) := by
  obtain ⟨early, later, hs, hs'⟩ := h.spread
  refine ⟨?_, early, later ++ [a], hs.addPlain a, hs'.addPlain a⟩
  rw [addPlain_options, addPlain_options]
  exact h.options

theorem addUnknown (h : s.Alike s') (a : String) : (s.addUnknown a).Alike (s'.addUnknown a) := by
  obtain ⟨early, later, hs, hs'⟩ := h.spread
  refine ⟨h.endGroup.options, ?_⟩
  by_cases hlater : later = []
  · subst hlater
    exact ⟨_, _, hs.addUnknown_nil a, hs'.addUnknown_nil a⟩
  · exact ⟨_, _, hs.addUnknown_ne_nil hlater a, hs'.addUnknown_ne_nil hlater a⟩

theorem setOptions (h : s.Alike s') {o o' : Options} (ho : o.SameButVerbose o') :
    Seen.Alike { s with options := o } { s' with options := o' } := by
  obtain ⟨early, later, hs, hs'⟩ := h.spread
  exact ⟨ho, early, later, hs.of_eq rfl rfl rfl, hs'.of_eq rfl rfl rfl⟩

theorem setFlag (h : s.Alike s') (f : Flag) :
    EndsAlike Seen.Alike (s.setFlag f) (s'.setFlag f) := by
  have hoptions : s'.options = { s.options with verbose := s'.options.verbose } := h.options
  cases f with
  | help => exact .error _
  | _ =>
    refine .ok (h.setOptions ?_)
    rw [Options.SameButVerbose, hoptions]

theorem setFlags (h : s.Alike s') (fs : List Flag) :
    EndsAlike Seen.Alike (s.setFlags fs) (s'.setFlags fs) := by
  induction fs generalizing s s' with
  | nil => exact .ok h
  | cons f fs ih => exact (h.setFlag f).bind fun _ _ h₁ => ih h₁

theorem setValue (h : s.Alike s') (t : Setting) (v : String) :
    EndsAlike Seen.Alike (s.setValue t v) (s'.setValue t v) := by
  have hoptions : s'.options = { s.options with verbose := s'.options.verbose } := h.options
  cases t with
  | log =>
    unfold Seen.setValue
    dsimp only
    split
    · refine .ok (h.setOptions ?_)
      rw [Options.SameButVerbose, hoptions]
    · split
      · refine .ok (h.setOptions ?_)
        rw [Options.SameButVerbose, hoptions]
      · exact .error _
  | _ =>
    refine .ok (h.setOptions ?_)
    rw [Options.SameButVerbose, hoptions]

theorem verbose (h : s.Alike s') : Seen.Alike
    { s.endGroup with options := { s.endGroup.options with verbose := true } } s' := by
  obtain ⟨early, later, hs, hs'⟩ := h.spread
  refine ⟨?_, early, later, hs.endGroup.of_eq rfl rfl rfl, hs'⟩
  have hoptions : s'.options = { s.options with verbose := s'.options.verbose } := h.options
  rw [Options.SameButVerbose, endGroup_options, hoptions]

end Seen.Alike

theorem read_verbose (s : Seen) (short : Bool) (ts : List Token) :
    read s (.option (.flag .verbose) short none :: ts) =
      read { s.endGroup with options := { s.endGroup.options with verbose := true } } ts := by
  rw [read_flags (by rw [unpack])]
  rfl

theorem unpack_of_awaits {t : Token} (h : t.awaits = true) :
    ∃ o short attached flags setting, t = .option o short attached ∧
      unpack o short attached = .ok (flags, some (setting, none)) := by
  cases t with
  | option o short attached =>
    rw [Token.awaits] at h
    split at h
    · next flags setting hu => exact ⟨o, short, attached, flags, setting, rfl, hu⟩
    · cases h
  | _ => cases h

/-- Vectors that differ by verbose flags are read alike: they stop in the same way, or what has
been read differs by what the flags do. -/
theorem SameTokens.endsAlike_read {ts us : List Token} (h : SameTokens ts us) {s s' : Seen}
    (hs : s.Alike s') : EndsAlike Seen.Alike (read s ts) (read s' us) := by
  induction h generalizing s s' with
  | nil => exact .ok hs
  | insert _ ih =>
    rw [read_verbose]
    exact ih hs.symm.verbose.symm
  | remove _ ih =>
    rw [read_verbose]
    exact ih hs.verbose
  | @single t ts us hne ht _ ih =>
    cases t with
    | plain a => exact ih (hs.addPlain a)
    | separator => exact absurd rfl hne
    | unknown a => exact ih (hs.addUnknown a)
    | option o short attached =>
      rcases hu : unpack o short attached with e | ⟨flags, _ | ⟨t, _ | v⟩⟩
      · rw [read_unpack_error hu, read_unpack_error hu]
        exact .error e
      · rw [read_flags hu, read_flags hu]
        exact (hs.endGroup.setFlags flags).bind fun _ _ h => ih h
      · simp [Token.awaits, hu] at ht
      · rw [read_value hu, read_value hu]
        exact (hs.endGroup.setFlags flags).bind fun _ _ h =>
          (h.setValue t v).bind fun _ _ h => ih h
  | @valued t u ts us ht _ ih =>
    obtain ⟨o, short, attached, flags, setting, rfl, hu⟩ := unpack_of_awaits ht
    by_cases hplain : ∃ v, u = .plain v
    · obtain ⟨v, rfl⟩ := hplain
      rw [read_next hu, read_next hu]
      exact (hs.endGroup.setFlags flags).bind fun _ _ h =>
        (h.setValue setting v).bind fun _ _ h => ih h
    · have hhead (v : String) (ts : List Token) : (u :: ts).head? ≠ some (.plain v) :=
        fun hv => hplain ⟨v, Option.some.inj hv⟩
      rw [read_missing hu (hhead · ts), read_missing hu (hhead · us)]
      exact .error _
  | @missing t ht =>
    obtain ⟨o, short, attached, flags, setting, rfl, hu⟩ := unpack_of_awaits ht
    rw [read_missing hu (by simp), read_missing hu (by simp)]
    exact .error _

end TabPackager.CommandLine
