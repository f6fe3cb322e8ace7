import TabPackager.Proofs.OwnRemovals
import Mathlib.Data.List.Forall2

/-!
# The format of a bundle

No suffix of the table is the end of another, so that the end of a name decides its format in
whatever order the suffixes are tried. Only the letters of the end count: neither the case of
ASCII letters nor what stands in front of the name can change the format, although the lower-case
form of a sigma depends on both sides of it. A write takes this decision before it does anything
else, in a dry run and in a real one.
-/

namespace TabPackager

namespace Text

theorem toLower_cases (c : Char) : c.toLower = c ∨ ∃ n < 26, c = Char.ofNat (0x41 + n) := by
  by_cases h : 0x41 ≤ c.toNat ∧ c.toNat ≤ 0x5A
  · refine .inr ⟨c.toNat - 0x41, by omega, ?_⟩
    rw [Nat.add_sub_cancel' h.1, Char.ofNat_toNat]
  · refine .inl ?_
    have hcapital : ¬(c.val ≥ 65 ∧ c.val ≤ 90) := h
    unfold Char.toLower
    exact dif_neg hcapital

/-- A property of characters does not depend on the case of ASCII letters if it does not on the
capitals. -/
theorem eq_toLower {α : Type} (f : Char → α)
    (h : ∀ n < 26, f (Char.ofNat (0x41 + n)).toLower = f (Char.ofNat (0x41 + n))) (c : Char) :
    f c.toLower = f c := by
  rcases toLower_cases c with hc | ⟨n, hn, rfl⟩
  · rw [hc]
  · exact h n hn

theorem caseIgnorable_toLower (c : Char) :
    caseIgnorableRanges.contains c.toLower = caseIgnorableRanges.contains c :=
  eq_toLower _ (by decide +kernel) c

theorem cased_toLower (c : Char) : casedRanges.contains c.toLower = casedRanges.contains c :=
  eq_toLower _ (by decide +kernel) c

theorem lowerChar_toLower (c : Char) : lowerChar c.toLower = lowerChar c :=
  eq_toLower _ (by decide +kernel) c

theorem facesWord_map_toLower (cs : List Char) :
    facesWord (cs.map Char.toLower) = facesWord cs := by
  have hsame : caseIgnorableRanges.contains ∘ Char.toLower = caseIgnorableRanges.contains :=
    funext caseIgnorable_toLower
  unfold facesWord
  rw [List.dropWhile_map, hsame]
  cases cs.dropWhile caseIgnorableRanges.contains with
  | nil => rfl
  | cons c _ => exact cased_toLower c

theorem lowerBetween_toLower (before : List Char) (c : Char) (after : List Char) :
    lowerBetween (before.map Char.toLower) c.toLower (after.map Char.toLower) =
      lowerBetween before c after := by
  have hsigma : c.toLower = 'Σ' ↔ c = 'Σ' :=
    Iff.of_eq (eq_toLower (· = 'Σ') (by decide) c)
  have hdotted : c.toLower = 'İ' ↔ c = 'İ' :=
    Iff.of_eq (eq_toLower (· = 'İ') (by decide) c)
  unfold lowerBetween
  simp only [hsigma, hdotted, facesWord_map_toLower, lowerChar_toLower]

theorem lowerAfter_map_toLower (before cs : List Char) :
    lowerAfter (before.map Char.toLower) (cs.map Char.toLower) = lowerAfter before cs := by
  induction cs generalizing before with
  | nil => rfl
  | cons c cs ih =>
    rw [List.map_cons, lowerAfter, lowerAfter, lowerBetween_toLower, ← List.map_cons, ih]

def SameLetters (s t : String) : Prop := s.toList.map Char.toLower = t.toList.map Char.toLower

theorem SameLetters.lowercase_eq {s t : String} (h : SameLetters s t) :
    lowercase s = lowercase t := by
  have hs := lowerAfter_map_toLower [] s.toList
  have ht := lowerAfter_map_toLower [] t.toList
  rw [List.map_nil] at hs ht
  rw [lowercase, lowercase, ← hs, ← ht, h]

def IsSmallSigma (c : Char) : Prop := c = 'σ' ∨ c = 'ς'

def SameBase (c d : Char) : Prop := c = d ∨ IsSmallSigma c ∧ IsSmallSigma d

theorem lowerBetween_before (before before' : List Char) (c : Char) (after : List Char) :
    List.Forall₂ SameBase (lowerBetween before c after) (lowerBetween before' c after) := by
  have hform (b : Bool) : ∃ d, IsSmallSigma d ∧ (if b then ['ς'] else ['σ']) = [d] := by
    cases b with
    | true => exact ⟨'ς', .inr rfl, rfl⟩
    | false => exact ⟨'σ', .inl rfl, rfl⟩
  by_cases hc : c = 'Σ'
  · obtain ⟨d, hd, hleft⟩ := hform (facesWord before && !facesWord after)
    obtain ⟨d', hd', hright⟩ := hform (facesWord before' && !facesWord after)
    rw [lowerBetween, if_pos hc, lowerBetween, if_pos hc, hleft, hright]
    exact .cons (.inr ⟨hd, hd'⟩) .nil
  · rw [lowerBetween, if_neg hc, lowerBetween, if_neg hc]
    exact List.forall₂_same.mpr fun x _ => .inl rfl

/-- What stands in front of a text decides no more than the forms of its sigmas. -/
theorem lowerAfter_before (before before' cs : List Char) :
    List.Forall₂ SameBase (lowerAfter before cs) (lowerAfter before' cs) := by
  induction cs generalizing before before' with
  | nil => exact .nil
  | cons c cs ih =>
    have hfirst := lowerBetween_before before before' c cs
    exact List.rel_append hfirst (ih (c :: before) (c :: before'))

/-- An end without sigmas stays the end when a text is put in front. -/
theorem suffix_lowercase_append {s : String} {ext : List Char}
    (h : ext <:+ (lowercase s).toList) (hext : ∀ c ∈ ext, ¬IsSmallSigma c) (text : String) :
    ext <:+ (lowercase (text ++ s)).toList := by
  obtain ⟨xs, before, hwhole⟩ := lowerAfter_append [] text.toList s.toList
  rw [lowercase, String.toList_ofList] at h ⊢
  rw [String.toList_append, hwhole]
  obtain ⟨front, hfront⟩ := h
  have hrel := List.forall₂_drop front.length (lowerAfter_before [] before s.toList)
  rw [← hfront, List.drop_left] at hrel
  have hsame : ext = (lowerAfter before s.toList).drop front.length := by
    have hkept := (List.forall₂_and_left ext _).mpr ⟨hext, hrel⟩
    have heq := hkept.imp fun _ _ hc => hc.2.resolve_right fun hd => hc.1 hd.1
    rwa [List.forall₂_eq_eq_eq] at heq
  rw [hsame]
  exact (List.drop_suffix _ _).trans (List.suffix_append _ _)

end Text

namespace Bundle

open FileSystem TabPackager.Task

theorem suffixTable_free : ∀ e ∈ suffixTable, ∀ e' ∈ suffixTable,
    e.1.toList <:+ e'.1.toList → e = e' := by
  decide

theorem endsIn_unique {name : String} {e e' : String × Format} (he : e ∈ suffixTable)
    (he' : e' ∈ suffixTable) (h : EndsIn name e.1) (h' : EndsIn name e'.1) : e = e' := by
  rcases List.suffix_or_suffix_of_suffix h h' with hs | hs
  · exact suffixTable_free e he e' he' hs
  · exact (suffixTable_free e' he' e he hs).symm

/-- In whatever order the suffixes are tried, the one in which the name ends is found. -/
theorem formatIn_eq_some_iff {table : List (String × Format)} (ht : table.Perm suffixTable)
    {name : String} {f : Format} :
    formatIn table name = some f ↔ ∃ s, (s, f) ∈ suffixTable ∧ EndsIn name s := by
  constructor
  · intro h
    obtain ⟨s, hmem, hs⟩ := mem_of_formatIn h
    exact ⟨s, ht.subset hmem, hs⟩
  · rintro ⟨s, hmem, hs⟩
    cases hfind : formatIn table name with
    | none =>
      unfold formatIn at hfind
      rw [Option.map_eq_none_iff, List.find?_eq_none] at hfind
      have hnot := hfind (s, f) (ht.symm.subset hmem)
      exact absurd (List.isSuffixOf_iff_suffix.mpr hs) hnot
    | some g =>
      obtain ⟨t, htable, htend⟩ := mem_of_formatIn hfind
      have hsame := endsIn_unique (ht.subset htable) hmem htend hs
      rw [(Prod.mk.inj hsame).2]

theorem formatIn_perm {table : List (String × Format)} (ht : table.Perm suffixTable)
    (name : String) : formatIn table name = formatOfName? name := by
  rw [formatOfName?]
  ext f
  rw [formatIn_eq_some_iff ht, formatIn_eq_some_iff triedSuffixes_perm]

theorem formatOfName?_eq_some_iff {name : String} {f : Format} :
    formatOfName? name = some f ↔ ∃ s, (s, f) ∈ suffixTable ∧ EndsIn name s :=
  formatIn_eq_some_iff triedSuffixes_perm

theorem formatOfName?_sameLetters {s t : String} (h : Text.SameLetters s t) :
    formatOfName? s = formatOfName? t := by
  rw [formatOfName?, formatOfName?, formatIn, formatIn, h.lowercase_eq]

theorem formatOfName?_append {name : String} {f : Format} (h : formatOfName? name = some f)
    (text : String) : formatOfName? (text ++ name) = some f := by
  have hsigma : ∀ e ∈ suffixTable, 'σ' ∉ e.1.toList ∧ 'ς' ∉ e.1.toList := by decide
  obtain ⟨s, hs, hend⟩ := formatOfName?_eq_some_iff.mp h
  have hplain : ∀ c ∈ s.toList, ¬Text.IsSmallSigma c := by
    rintro c hc (rfl | rfl)
    · exact (hsigma (s, f) hs).1 hc
    · exact (hsigma (s, f) hs).2 hc
  exact formatOfName?_eq_some_iff.mpr ⟨s, hs, Text.suffix_lowercase_append hend hplain text⟩

theorem formatOf_eq_ok_iff {target : Path} {f : Format} :
    formatOf target = .ok f ↔ formatOfName? target.name = some f := by
  unfold formatOf
  cases formatOfName? target.name <;> simp

theorem formatOf_eq_error_iff {target : Path} {e : Error} :
    formatOf target = .error e ↔
      formatOfName? target.name = none ∧ e = .unknownFormat target.name := by
  unfold formatOf
  cases formatOfName? target.name <;> simp [eq_comm]

theorem toOption_formatOf (target : Path) :
    (formatOf target).toOption = formatOfName? target.name := by
  unfold formatOf
  cases formatOfName? target.name <;> rfl

def extended (target : Path) (text : String) : Path := target.parent.child (text ++ target.name)

theorem formatOf_extended {target : Path} {f : Format} (h : formatOf target = .ok f)
    {text : String} (ht : '/' ∉ text.toList) : formatOf (extended target text) = .ok f := by
  obtain ⟨c, hc, -, -⟩ := getLast?_of_formatOf h
  have hname : target.name = c := by rw [Path.name, hc, Option.getD_some]
  have hlong := formatOfName?_append (formatOf_eq_ok_iff.mp h) text
  have hcomponent : IsComponent (text ++ target.name) := by
    refine ⟨?_, ?_, ?_⟩
    · intro he
      have hempty : formatOfName? "" = none := by decide
      rw [he, hempty] at hlong
      cases hlong
    · intro he
      have hdot : formatOfName? "." = none := by decide
      rw [he, hdot] at hlong
      cases hlong
    · have hslash := (target.isComponent c (List.mem_of_getLast? hc)).2.2
      rw [String.toList_append, List.mem_append, hname]
      exact not_or.mpr ⟨ht, hslash⟩
  have hlast := Path.getLast?_child target.parent hcomponent
  have hextended : (extended target text).name = text ++ target.name := by
    rw [extended, Path.name, hlast, Option.getD_some]
  rw [formatOf_eq_ok_iff, hextended]
  exact hlong

section

variable {cwd : Path} {dryRun : Bool} {q : Request} {fs fs' : FileSystem} {events : List Event}
  {result : Except Fault Unit}

/-- A call of the write in a way in which it can go, as a dry run or a real one. -/
def Goes (cwd : Path) (dryRun : Bool) (q : Request) (fs : FileSystem) (events : List Event)
    (result : Except Fault Unit) (fs' : FileSystem) : Prop :=
  Task.Execution cwd.parts q.now (write cwd dryRun q.scratch q.mishaps q.members q.target) fs
    events result fs'

theorem Goes.refused {e : Error} (he : formatOf q.target = .error e)
    (h : Goes cwd dryRun q fs events result fs') :
    events = [] ∧ result = .error (.bundle e) ∧ fs' = fs := by
  unfold Goes write at h
  rw [he] at h
  exact Task.execution_throw h

theorem Goes.dry {f : Format} (hf : formatOf q.target = .ok f)
    (h : Goes cwd true q fs events result fs') : events = [] ∧ result = .ok () ∧ fs' = fs := by
  unfold Goes write at h
  rw [hf] at h
  exact Task.execution_say h

theorem Goes.real {f : Format} (hf : formatOf q.target = .ok f) (hd : q.scratch.Drawn)
    (h : Goes cwd false q fs events result fs') :
    (∀ name, result ≠ .error (.bundle (.unknownFormat name))) ∧
      (result = .ok () → ∃ mid loc i, q.Placed cwd.parts f mid fs' loc i) := by
  constructor
  · rintro name rfl
    rcases Request.failsFor hd h with he | ⟨o, why, -, -, he⟩
    · cases he with
      | unknownFormat he => cases hf.symm.trans he
    · unfold Fault.ofRefusal at he
      split at he <;> cases he
  · rintro rfl
    obtain ⟨g, mid, loc, i, -, hp, -⟩ := Request.returned_filled hd h
    cases hf.symm.trans hp.supported
    exact ⟨mid, loc, i, hp⟩

end

/-- The end of a target's name decides its format, and nothing else has a part in it. -/
structure Decisive (target : Path) : Prop where
  resolved : ∀ f, formatOf target = .ok f ↔ ∃ s, (s, f) ∈ suffixTable ∧ EndsIn target.name s
  refused : (∃ e, formatOf target = .error e) ↔ ∀ e ∈ suffixTable, ¬EndsIn target.name e.1
  complaint : ∀ e, formatOf target = .error e → e = .unknownFormat target.name
  single : ∀ e ∈ suffixTable, ∀ e' ∈ suffixTable, EndsIn target.name e.1 →
    EndsIn target.name e'.1 → e = e'
  order : ∀ table : List (String × Format), table.Perm suffixTable →
    formatIn table target.name = (formatOf target).toOption
  name : ∀ other : Path, other.name = target.name → formatOf other = formatOf target
  letters : ∀ other : Path, Text.SameLetters other.name target.name →
    (formatOf other).toOption = (formatOf target).toOption
  front : ∀ f text, formatOf target = .ok f → '/' ∉ text.toList →
    formatOf (extended target text) = .ok f

/-- A write is refused for its format before its first operation, and only where there is none;
otherwise a dry run only says so, and a real one that returns has put an archive of the format at
the target. -/
structure Governs (target : Path) : Prop where
  refused : ∀ {cwd dryRun q fs events result fs' e}, q.target = target →
    formatOf target = .error e → Goes cwd dryRun q fs events result fs' →
    events = [] ∧ result = .error (.bundle e) ∧ fs' = fs
  dry : ∀ {cwd q fs events result fs' f}, q.target = target → formatOf target = .ok f →
    Goes cwd true q fs events result fs' → events = [] ∧ result = .ok () ∧ fs' = fs
  real : ∀ {cwd q fs events result fs' f}, q.target = target → formatOf target = .ok f →
    q.scratch.Drawn → Goes cwd false q fs events result fs' →
    (∀ name, result ≠ .error (.bundle (.unknownFormat name))) ∧
      (result = .ok () → ∃ mid loc i, q.Placed cwd.parts f mid fs' loc i)

theorem formatOf_decisive (target : Path) : Decisive target where
  resolved f := formatOf_eq_ok_iff.trans formatOfName?_eq_some_iff
  refused := by
    have hnone : (∃ e, formatOf target = .error e) ↔ ∀ f, formatOfName? target.name ≠ some f := by
      simp [formatOf_eq_error_iff, Option.eq_none_iff_forall_ne_some]
    rw [hnone]
    constructor
    · intro h e he hend
      exact h e.2 (formatOfName?_eq_some_iff.mpr ⟨e.1, he, hend⟩)
    · intro h f hf
      obtain ⟨s, hs, hend⟩ := formatOfName?_eq_some_iff.mp hf
      exact h (s, f) hs hend
  complaint e h := (formatOf_eq_error_iff.mp h).2
  single e he e' he' h h' := endsIn_unique he he' h h'
  order table ht := by rw [toOption_formatOf, formatIn_perm ht]
  name other h := by rw [formatOf, formatOf, h]
  letters other h := by
    rw [toOption_formatOf, toOption_formatOf, formatOfName?_sameLetters h]
  front f text h ht := formatOf_extended h ht

/-- Each target has the format in whose suffix its name ends, whatever else is in the name and in
whatever order the suffixes are tried, and every write follows that. -/
theorem formatOf_unambiguous (target : Path) : Decisive target ∧ Governs target := by
  refine ⟨formatOf_decisive target, ?_, ?_, ?_⟩
  · rintro cwd dryRun q fs events result fs' e rfl he h
    exact h.refused he
  · rintro cwd q fs events result fs' f rfl hf h
    exact h.dry hf
  · rintro cwd q fs events result fs' f rfl hf hd h
    exact h.real hf hd

example : formatOf (Path.parse "out/ΑΣ.APP.TGZ") = .ok .gzip := by decide +kernel

end Bundle

end TabPackager
