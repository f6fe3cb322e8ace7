import TabPackager.Proofs.ArgumentItems
import TabPackager.Proofs.UnknownOptions

/-!
# The separator

What stands behind the separator counts as it is written, and the arguments in front of it are
read as if they stood alone. The separator itself vanishes as long as the first group of plain
arguments has not ended. Behind a group that an option has ended it is one of the arguments.
-/

namespace TabPackager.CommandLine

def Token.plain? : Token → Option String
  | .plain a => some a
  | _ => none

instance : DecidablePred Token.IsPlain
  | .plain _ => isTrue trivial
  | .separator => isFalse id
  | .unknown _ => isFalse id
  | .option _ _ _ => isFalse id

/-- Whether an option takes the argument behind it as its value. -/
def Token.awaits : Token → Bool
  | .option o short attached =>
    match unpack o short attached with
    | .ok (_, some (_, none)) => true
    | _ => false
  | _ => false

/-- The tokens without the values that options take from behind them. -/
def standing : List Token → List Token
  | [] => []
  | [t] => [t]
  | t :: u :: ts => if t.awaits then t :: standing ts else t :: standing (u :: ts)

/-- The plain arguments and the options of a vector, each option with its value. -/
def units (argv : List String) : List Token :=
  match tokens argv with
  | .ok ts => standing ts
  | .error _ => []

def plainArguments (argv : List String) : List String := (units argv).filterMap Token.plain?

/-- No option stands behind a plain argument. -/
def Gathered (ts : List Token) : Prop := ts.Pairwise fun t u => t.IsPlain → u.IsPlain

instance (ts : List Token) : Decidable (Gathered ts) :=
  inferInstanceAs (Decidable (ts.Pairwise fun t u => t.IsPlain → u.IsPlain))

def OptionsFirst (argv : List String) : Prop := Gathered (units argv)

instance (argv : List String) : Decidable (OptionsFirst argv) :=
  inferInstanceAs (Decidable (Gathered (units argv)))

/-- A token of an argument, by itself or behind an option. -/
def Token.Known : Token → Prop
  | .plain _ | .option _ _ _ => True
  | .separator | .unknown _ => False

theorem tokens_separator {pre : List String} (h : "--" ∉ pre) (post : List String) :
    tokens (pre ++ "--" :: post) =
      (tokens pre).map (· ++ Token.separator :: post.map Token.plain) := by
  induction pre with
  | nil => rfl
  | cons a pre ih =>
    rw [List.mem_cons, not_or] at h
    rw [List.cons_append, tokens, tokens, if_neg (Ne.symm h.1), if_neg (Ne.symm h.1), ih h.2]
    cases classify a with
    | error r => rfl
    | ok t => cases tokens pre <;> rfl

theorem separator_not_mem_tokens {pre : List String} {ts : List Token} (hpre : "--" ∉ pre)
    (h : tokens pre = .ok ts) : Token.separator ∉ ts := by
  induction pre generalizing ts with
  | nil =>
    cases h
    exact List.not_mem_nil
  | cons a pre ih =>
    rw [List.mem_cons, not_or] at hpre
    rw [tokens, if_neg (Ne.symm hpre.1)] at h
    obtain ⟨t, ht, h⟩ := bind_eq_ok.mp h
    obtain ⟨us, hus, h⟩ := bind_eq_ok.mp h
    cases h
    rw [List.mem_cons, not_or]
    refine ⟨?_, ih hpre.2 hus⟩
    obtain rfl | rfl | ⟨o, short, attached, rfl⟩ := classify_cases ht <;> simp

theorem known_of_tokens {pre : List String} {ts : List Token} (hpre : "--" ∉ pre)
    (hknown : unknownOptions pre = []) (h : tokens pre = .ok ts) : ∀ t ∈ ts, t.Known := by
  induction pre generalizing ts with
  | nil =>
    cases h
    simp
  | cons a pre ih =>
    rw [List.mem_cons, not_or] at hpre
    rw [tokens, if_neg (Ne.symm hpre.1)] at h
    obtain ⟨t, ht, h⟩ := bind_eq_ok.mp h
    obtain ⟨us, hus, h⟩ := bind_eq_ok.mp h
    cases h
    rw [unknownOptions, List.takeWhile_cons_of_pos (by simpa using Ne.symm hpre.1)] at hknown
    have hrest : unknownOptions pre = [] := by
      cases hu : isUnknown a with
      | false => rwa [List.filter_cons_of_neg (by simp [hu])] at hknown
      | true => simp [hu] at hknown
    intro u hu
    rcases List.mem_cons.mp hu with rfl | hu
    · obtain rfl | rfl | ⟨o, short, attached, rfl⟩ := classify_cases ht
      · trivial
      · simp [isUnknown, ht] at hknown
      · trivial
    · exact ih hpre.2 hrest hus u hu

theorem standing_cons {t : Token} (h : t.awaits = false) (ts : List Token) :
    standing (t :: ts) = t :: standing ts := by
  cases ts <;> simp [standing, h]

theorem standing_awaits {t : Token} (h : t.awaits = true) (ts : List Token) :
    standing (t :: ts) = t :: standing ts.tail := by
  cases ts <;> simp [standing, h]

/-- What is read with a token in front of some others: it acts on what has been read before, and
reading goes on behind it and the value it takes, whether or not a separator comes later. -/
structure ReadStep (t : Token) (ts : List Token) (act : Seen → Except Stop Seen)
    (ts' : List Token) : Prop where
  suffix : ts' <:+ ts
  standing : standing (t :: ts) = t :: standing ts'
  alone : ∀ s, read s (t :: ts) = act s >>= (read · ts')
  separated : ∀ s rest, read s (t :: ts ++ .separator :: rest) =
    act s >>= (read · (ts' ++ .separator :: rest))

def SetsOptions (act : Seen → Except Stop Seen) : Prop :=
  ∀ ⦃s s'⦄, act s = .ok s' →
    s'.first = s.endGroup.first ∧ s'.others = s.endGroup.others ∧ s'.group = s.endGroup.group

theorem setsOptions_error (e : Stop) : SetsOptions fun _ => .error e :=
  fun _ _ h => nomatch h

theorem setsOptions_setFlags (flags : List Flag) :
    SetsOptions fun s => s.endGroup.setFlags flags :=
  fun _ _ h => setFlags_kept h

theorem setsOptions_setValue (flags : List Flag) (t : Setting) (v : String) :
    SetsOptions fun s => s.endGroup.setFlags flags >>= (·.setValue t v) := by
  intro s s' h
  obtain ⟨s₁, h₁, h⟩ := bind_eq_ok.mp h
  obtain ⟨hfirst, hothers, hgroup⟩ := setsOptions_setFlags flags h₁
  obtain ⟨hfirst', hothers', hgroup'⟩ := setValue_kept h
  exact ⟨hfirst'.trans hfirst, hothers'.trans hothers, hgroup'.trans hgroup⟩

section

variable {s : Seen} {o : Switch} {short : Bool} {attached : Option (List Char)}
  {flags : List Flag} {t : Setting}

theorem read_unpack_error {e : Stop} (h : unpack o short attached = .error e) (ts : List Token) :
    read s (.option o short attached :: ts) = .error e := by
  delta read
  show (unpack o short attached >>= _) = _
  rw [h]
  rfl

theorem read_missing (h : unpack o short attached = .ok (flags, some (t, none)))
    {ts : List Token} (hts : ∀ v, ts.head? ≠ some (.plain v)) :
    read s (.option o short attached :: ts) =
      .error (.refused (.missingValue (.setting t))) := by
  delta read
  rcases ts with _ | ⟨u, ts⟩
  · exact bind_of_eq h _
  · cases u with
    | plain v => exact absurd rfl (hts v)
    | _ => exact bind_of_eq h _

end

theorem readStep_option (o : Switch) (short : Bool) (attached : Option (List Char))
    (ts : List Token) :
    ∃ act ts', ReadStep (.option o short attached) ts act ts' ∧ SetsOptions act := by
  rcases hu : unpack o short attached with e | ⟨flags, _ | ⟨t, _ | v⟩⟩
  · have hone : (Token.option o short attached).awaits = false := by simp [Token.awaits, hu]
    exact ⟨_, ts, ⟨List.suffix_rfl, standing_cons hone ts, fun s => read_unpack_error hu ts,
      fun s rest => read_unpack_error hu _⟩, setsOptions_error e⟩
  · have hone : (Token.option o short attached).awaits = false := by simp [Token.awaits, hu]
    exact ⟨_, ts, ⟨List.suffix_rfl, standing_cons hone ts, fun s => read_flags hu ts,
      fun s rest => read_flags hu _⟩, setsOptions_setFlags flags⟩
  · have htwo : (Token.option o short attached).awaits = true := by simp [Token.awaits, hu]
    by_cases hplain : ∃ v, ts.head? = some (.plain v)
    · obtain ⟨v, hv⟩ := hplain
      obtain ⟨ts', rfl⟩ := List.head?_eq_some_iff.mp hv
      refine ⟨_, ts', ⟨List.suffix_cons _ _, standing_awaits htwo _, fun s => ?_, fun s rest => ?_⟩,
        setsOptions_setValue flags t v⟩
      · rw [read_next hu, bind_assoc]
      · rw [List.cons_append, List.cons_append, read_next hu, bind_assoc]
    · have hhead : ∀ v, ts.head? ≠ some (.plain v) := fun v hv => hplain ⟨v, hv⟩
      have hseparated (rest : List Token) (v : String) :
          (ts ++ .separator :: rest).head? ≠ some (.plain v) := by
        cases ts with
        | nil => simp
        | cons u ts => exact hhead v
      exact ⟨_, ts.tail, ⟨List.tail_suffix ts, standing_awaits htwo ts,
        fun s => read_missing hu hhead, fun s rest => read_missing hu (hseparated rest)⟩,
        setsOptions_error _⟩
  · have hone : (Token.option o short attached).awaits = false := by simp [Token.awaits, hu]
    refine ⟨_, ts, ⟨List.suffix_rfl, standing_cons hone ts, fun s => ?_, fun s rest => ?_⟩,
      setsOptions_setValue flags t v⟩
    · rw [read_value hu, bind_assoc]
    · rw [List.cons_append, read_value hu, bind_assoc]

/-- How the first group stands when some tokens have been read: it has ended if it had before, or
if an option stands behind the plain argument that began it. -/
def Group.Open (g : Group) (ts : List Token) : Prop :=
  g ≠ .ended ∧ Gathered ts ∧ (g = .here → ∀ t ∈ ts, t.IsPlain)

theorem open_plain (s : Seen) (a : String) (ts : List Token) :
    s.group.Open (.plain a :: ts) ↔ (s.addPlain a).group.Open ts := by
  have hgroup : (s.addPlain a).group = if s.group = .ended then .ended else .here := by
    unfold Seen.addPlain
    cases s.group <;> rfl
  have hcons : Gathered (.plain a :: ts) ↔ (∀ t ∈ ts, t.IsPlain) ∧ Gathered ts := by
    simp [Gathered, Token.IsPlain]
  rw [Group.Open, Group.Open, hcons, hgroup]
  cases s.group <;> simp [Token.IsPlain, and_comm]

theorem open_option (s : Seen) {t : Token} (ht : ¬t.IsPlain) (ts : List Token) :
    s.group.Open (t :: ts) ↔ s.endGroup.group.Open ts := by
  have hgroup : s.endGroup.group = if s.group = .here then .ended else s.group := by
    unfold Seen.endGroup
    cases h : s.group <;> simp [h]
  have hcons : Gathered (t :: ts) ↔ Gathered ts := by simp [Gathered, ht]
  rw [Group.Open, Group.Open, hcons, hgroup]
  cases s.group <;> simp [ht]

/-- What stands in front of the separator is read as if it stood alone. -/
theorem read_unseparated {ts : List Token} (hts : Token.separator ∉ ts) (s : Seen)
    (rest : List Token) :
    read s (ts ++ .separator :: rest) =
      read s ts >>= fun s' => read s'.addSeparator rest := by
  -- An option may take the token behind it, so the induction is on the number of tokens.
  induction hn : ts.length using Nat.strong_induction_on generalizing s ts with
  | _ n ih =>
    subst hn
    cases ts with
    | nil => rfl
    | cons t ts =>
      have hnext {ts' : List Token} (h : ts' <:+ ts) (s₁ : Seen) :
          read s₁ (ts' ++ .separator :: rest) =
            read s₁ ts' >>= fun s' => read s'.addSeparator rest :=
        ih ts'.length (Nat.lt_succ_of_le h.length_le)
          (fun hu => hts (List.mem_cons_of_mem t (h.subset hu))) s₁ rfl
      cases t with
      | plain a => exact hnext List.suffix_rfl (s.addPlain a)
      | separator => exact absurd List.mem_cons_self hts
      | unknown a => exact hnext List.suffix_rfl (s.addUnknown a)
      | option o short attached =>
        obtain ⟨act, ts', hstep, -⟩ := readStep_option o short attached ts
        rw [hstep.alone, hstep.separated, bind_assoc]
        exact congrArg _ (funext (hnext hstep.suffix))

theorem read_separator {ts : List Token} (hts : ∀ t ∈ ts, t.Known) (s : Seen)
    (rest : List Token) :
    read s (ts ++ .separator :: rest) =
      read s ts >>= fun s' => read s'.addSeparator rest :=
  read_unseparated (fun h => hts _ h) s rest

/-- The first group goes on unless an option stands behind a plain argument. -/
theorem read_group {ts : List Token} (hts : Token.separator ∉ ts) {s s' : Seen}
    (h : read s ts = .ok s') : s'.group ≠ .ended ↔ s.group.Open (standing ts) := by
  induction hn : ts.length using Nat.strong_induction_on generalizing s ts with
  | _ n ih =>
    subst hn
    cases ts with
    | nil =>
      cases h
      simp [standing, Group.Open, Gathered]
    | cons t ts =>
      have hnext {ts' : List Token} (hsuffix : ts' <:+ ts) {s₁ : Seen}
          (h : read s₁ ts' = .ok s') : s'.group ≠ .ended ↔ s₁.group.Open (standing ts') :=
        ih ts'.length (Nat.lt_succ_of_le hsuffix.length_le)
          (fun hu => hts (List.mem_cons_of_mem t (hsuffix.subset hu))) h rfl
      cases t with
      | plain a =>
        rw [standing_cons rfl]
        exact (hnext List.suffix_rfl h).trans (open_plain s a _).symm
      | separator => exact absurd List.mem_cons_self hts
      | unknown a =>
        rw [standing_cons rfl]
        exact (hnext List.suffix_rfl h).trans (open_option s id _).symm
      | option o short attached =>
        obtain ⟨act, ts', hstep, hsets⟩ := readStep_option o short attached ts
        rw [hstep.alone] at h
        obtain ⟨s₁, h₁, h⟩ := bind_eq_ok.mp h
        obtain ⟨-, -, hgroup⟩ := hsets h₁
        rw [hstep.standing, hnext hstep.suffix h, hgroup]
        exact (open_option s id _).symm

theorem read_known_arguments {ts : List Token} (hts : ∀ t ∈ ts, t.Known) {s s' : Seen}
    (hs : s.Ordered) (h : read s ts = .ok s') :
    s'.Ordered ∧ s'.arguments = s.arguments ++ (standing ts).filterMap Token.plain? := by
  induction hn : ts.length using Nat.strong_induction_on generalizing s ts with
  | _ n ih =>
    subst hn
    cases ts with
    | nil =>
      cases h
      exact ⟨hs, by simp [standing]⟩
    | cons t ts =>
      have hnext {ts' : List Token} (hsuffix : ts' <:+ ts) {s₁ : Seen} (h₁ : s₁.Ordered)
          (h : read s₁ ts' = .ok s') :
          s'.Ordered ∧ s'.arguments = s₁.arguments ++ (standing ts').filterMap Token.plain? :=
        ih ts'.length (Nat.lt_succ_of_le hsuffix.length_le)
          (fun u hu => hts u (List.mem_cons_of_mem t (hsuffix.subset hu))) h₁ h rfl
      cases t with
      | plain a =>
        obtain ⟨hordered, harguments⟩ := hnext List.suffix_rfl (hs.addPlain a) h
        rw [standing_cons rfl]
        refine ⟨hordered, ?_⟩
        rw [harguments, hs.arguments_addPlain, List.append_assoc]
        rfl
      | option o short attached =>
        obtain ⟨act, ts', hstep, hsets⟩ := readStep_option o short attached ts
        rw [hstep.alone] at h
        obtain ⟨s₁, h₁, h⟩ := bind_eq_ok.mp h
        obtain ⟨hfirst, hothers, hgroup⟩ := hsets h₁
        have hordered₁ : s₁.Ordered := by
          rw [Seen.Ordered, hgroup, hothers]
          exact hs.endGroup
        have harguments₁ : s₁.arguments = s.arguments := by
          rw [← Seen.arguments_endGroup s, Seen.arguments, hfirst, hothers, Seen.arguments]
        obtain ⟨hordered, harguments⟩ := hnext hstep.suffix hordered₁ h
        refine ⟨hordered, ?_⟩
        rw [hstep.standing, harguments, harguments₁]
        rfl
      | _ => exact (hts _ List.mem_cons_self).elim

theorem read_known {ts : List Token} (hts : ∀ t ∈ ts, t.Known) {s s' : Seen} (hs : s.Ordered)
    (h : read s ts = .ok s') :
    s'.Ordered ∧ s'.arguments = s.arguments ++ (standing ts).filterMap Token.plain? ∧
      (s'.group ≠ .ended ↔ s.group.Open (standing ts)) :=
  have ⟨hordered, harguments⟩ := read_known_arguments hts hs h
  ⟨hordered, harguments, read_group (fun hmem => hts _ hmem) h⟩

theorem addSeparator_options (s : Seen) : s.addSeparator.options = s.options := by
  unfold Seen.addSeparator
  split <;> rfl

theorem addPlain_options (s : Seen) (a : String) : (s.addPlain a).options = s.options := by
  unfold Seen.addPlain
  split <;> rfl

theorem Seen.Ordered.addSeparator {s : Seen} (hs : s.Ordered) :
    s.addSeparator.Ordered ∧
      (s.group ≠ .ended → s.addSeparator.arguments = s.arguments) ∧
      (s.group = .ended → s.addSeparator.arguments = s.arguments ++ ["--"]) := by
  unfold Seen.addSeparator
  split
  · next hg =>
    refine ⟨fun hne => absurd hg hne, fun hne => absurd hg hne, fun _ => ?_⟩
    simp [Seen.arguments]
  · next hg => exact ⟨fun _ => hs hg, fun _ => rfl, fun h => absurd h hg⟩

theorem read_plains (post : List String) {s : Seen} (hs : s.Ordered) :
    ∃ s', read s (post.map .plain) = .ok s' ∧ s'.options = s.options ∧
      s'.arguments = s.arguments ++ post := by
  induction post generalizing s with
  | nil => exact ⟨s, rfl, rfl, (List.append_nil _).symm⟩
  | cons a post ih =>
    obtain ⟨s', hread, hoptions, harguments⟩ := ih (hs.addPlain a)
    refine ⟨s', hread, hoptions.trans (addPlain_options s a), ?_⟩
    rw [harguments, hs.arguments_addPlain, List.append_assoc]
    rfl

theorem parse_of_read {argv : List String} {ts : List Token} (h : tokens argv = .ok ts) :
    parse argv = (read {} ts).map fun s => (s.options, s.arguments) := by
  unfold parse
  rw [h]
  rfl

/-- The separator ends the options. In front of it everything is read as if it stood alone, and
what stands behind it counts as it is written. The separator is no argument itself if all
options stand in front of the plain arguments, and it is one if an option stands behind. -/
theorem parse_separator {pre : List String} (hpre : "--" ∉ pre)
    (hknown : unknownOptions pre = []) (post : List String) :
    match parse pre with
    | .error stop => parse (pre ++ "--" :: post) = .error stop
    | .ok (o, plain) => plain = plainArguments pre ∧
        (OptionsFirst pre → parse (pre ++ "--" :: post) = .ok (o, plain ++ post)) ∧
        (¬OptionsFirst pre → parse (pre ++ "--" :: post) = .ok (o, plain ++ "--" :: post)) := by
  have htokens := tokens_separator hpre post
  cases hts : tokens pre with
  | error r =>
    rw [hts] at htokens
    have hp : parse pre = .error (.refused r) := by
      unfold parse
      rw [hts]
    rw [hp]
    unfold parse
    rw [htokens]
    rfl
  | ok ts =>
    rw [hts] at htokens
    have hall := known_of_tokens hpre hknown hts
    have hseparated := read_separator hall {} (post.map .plain)
    rw [parse_of_read hts, parse_of_read htokens, hseparated]
    cases hread : read {} ts with
    | error stop => rfl
    | ok s =>
      obtain ⟨hordered, harguments, hopen⟩ := read_known hall (fun _ => rfl) hread
      obtain ⟨hordered', hlost, hkept⟩ := hordered.addSeparator
      obtain ⟨s', hs', hoptions, hpost⟩ := read_plains post hordered'
      have hfirst : OptionsFirst pre ↔ s.group ≠ .ended := by
        rw [hopen, OptionsFirst, units, hts]
        simp [Group.Open]
      have hend : (read s.addSeparator (post.map .plain)).map (fun s => (s.options, s.arguments)) =
          .ok (s.options, s.addSeparator.arguments ++ post) := by
        rw [hs', ← hpost, ← addSeparator_options s, ← hoptions]
        rfl
      refine ⟨?_, ?_, ?_⟩
      · rw [plainArguments, units, hts]
        exact harguments
      · intro h
        rw [← hlost (hfirst.mp h)]
        exact hend
      · intro h
        have hg : s.group = .ended := by simpa [hfirst] using h
        rw [hkept hg, List.append_assoc] at hend
        exact hend

theorem parse_separator_of_flag :
    (parse (["-v", "blinky"] ++ "--" :: ["-n"])).toOption =
      some ({ verbose := true }, ["blinky", "-n"]) := by
  have hpre : "--" ∉ ["-v", "blinky"] := by decide
  have h := parse_separator hpre (by decide) ["-n"]
  have hp : parse ["-v", "blinky"] = .ok ({ verbose := true }, ["blinky"]) :=
    eq_ok_of_toOption (by decide +kernel)
  rw [hp] at h
  rw [h.2.1 (by decide +kernel)]
  rfl

/-- Behind a flag that has ended the group the separator is the triple of a build. -/
theorem separator_built :
    unknownOptions ["blinky", "-v"] = [] ∧ plainArguments ["blinky", "-v"] = ["blinky"] ∧
      (parse (["blinky", "-v"] ++ "--" :: [])).toOption =
        some ({ verbose := true }, ["blinky", "--"]) ∧
      (run sampleHost killedBuild ["blinky", "-v", "--"] sampleWorkspace).calls.map (·.command) =
        [["cargo", "build", "--release", "--bin", "blinky", "--target", "--"]] := by
  refine ⟨?_, ?_, ?_, ?_⟩ <;> decide +kernel

end TabPackager.CommandLine
