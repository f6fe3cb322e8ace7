import TabPackager.Bundle.Write
import TabPackager.Proofs.Places

/-!
# Names of bundles and of the files beside them

A file name with a format is an ordinary component and never ends as the name of the file in
which the bundle is assembled does, so that the two are never the same.
-/

namespace TabPackager

namespace Text

theorem lowerAfter_append (before xs ys : List Char) :
    ∃ zs before', lowerAfter before (xs ++ ys) = zs ++ lowerAfter before' ys := by
  induction xs generalizing before with
  | nil => exact ⟨[], before, rfl⟩
  | cons x xs ih =>
    obtain ⟨zs, before', h⟩ := ih (x :: before)
    refine ⟨lowerBetween before x (xs ++ ys) ++ zs, before', ?_⟩
    rw [List.cons_append, lowerAfter, h, List.append_assoc]

theorem lowerAfter_concat (before cs : List Char) (c : Char) :
    ∃ xs before', lowerAfter before (cs ++ [c]) = xs ++ lowerBetween before' c [] := by
  obtain ⟨xs, before', h⟩ := lowerAfter_append before cs [c]
  refine ⟨xs, before', ?_⟩
  rw [h, lowerAfter, lowerAfter, List.append_nil]

/-- A text in lower case ends in the lower-case form of its last character, if that has a simple
one. -/
theorem getLast?_lowercase {s : String} {cs : List Char} {c : Char} (hs : s.toList = cs ++ [c])
    (hsigma : c ≠ 'Σ') (hdotted : c ≠ 'İ') :
    (lowercase s).toList.getLast? = some (lowerChar c) := by
  obtain ⟨xs, before, h⟩ := lowerAfter_concat [] cs c
  rw [lowercase, String.toList_ofList, hs, h, lowerBetween, if_neg hsigma, if_neg hdotted,
    List.getLast?_concat]

end Text

namespace Path

theorem getLast?_child (p : Path) {s : String} (h : IsComponent s) :
    (p.child s).parts.getLast? = some s := by
  have hs : (parse s).parts = [s] := by
    have hpieces := FileSystem.pieces_of_not_mem h.2.2
    rw [FileSystem.pieces] at hpieces
    change pathComponents s.toList = [s]
    rw [pathComponents, hpieces]
    simp [h.1, h.2.1]
  change (join p (parse s)).parts.getLast? = some s
  unfold join
  split
  · simp [hs]
  · simp [hs]

end Path

namespace Bundle

open FileSystem

/-- How the system draws the name of the file in which a bundle is assembled. -/
def Scratch.Drawn (s : Scratch) : Prop :=
  ∃ a : String, '/' ∉ a.toList ∧ s.archive = a ++ ".partial"

theorem triedSuffixes_perm : triedSuffixes.Perm suffixTable := by decide

def EndsIn (name suffix : String) : Prop := suffix.toList <:+ (Text.lowercase name).toList

theorem mem_of_formatIn {table : List (String × Format)} {name : String} {f : Format}
    (h : formatIn table name = some f) : ∃ s, (s, f) ∈ table ∧ EndsIn name s := by
  unfold formatIn at h
  obtain ⟨⟨s, g⟩, hfind, rfl⟩ := Option.map_eq_some_iff.mp h
  have hsuffix : s.toList.isSuffixOf (Text.lowercase name).toList = true := by
    simpa using List.find?_some hfind
  exact ⟨s, List.mem_of_find?_eq_some hfind, List.isSuffixOf_iff_suffix.mp hsuffix⟩

/-- A name has no format if no suffix of the table ends in the letter in which it ends. -/
theorem formatOfName?_eq_none {s : String} {cs : List Char} {c : Char} (hs : s.toList = cs ++ [c])
    (hsigma : c ≠ 'Σ') (hdotted : c ≠ 'İ')
    (htable : ∀ x ∈ suffixTable, ∃ d, d ≠ Text.lowerChar c ∧ x.1.toList.getLast? = some d) :
    formatOfName? s = none := by
  have hlast := Text.getLast?_lowercase hs hsigma hdotted
  cases hf : formatOfName? s with
  | none => rfl
  | some f =>
    obtain ⟨t, ht, ys, hys⟩ := mem_of_formatIn hf
    obtain ⟨d, hd, htd⟩ := htable _ (triedSuffixes_perm.subset ht)
    rw [← hys, List.getLast?_append, htd, Option.some_or] at hlast
    exact absurd (Option.some.inj hlast) hd

theorem formatOfName?_partial (s : String) : formatOfName? (s ++ ".partial") = none := by
  have hs : (s ++ ".partial").toList = (s.toList ++ ".partia".toList) ++ ['l'] := by simp
  have hlower : Text.lowerChar 'l' = 'l' := by decide
  apply formatOfName?_eq_none hs (by decide) (by decide)
  simp [hlower, suffixTable]

theorem isComponent_of_drawn {s : Scratch} (h : s.Drawn) : IsComponent s.archive := by
  obtain ⟨a, ha, hs⟩ := h
  rw [hs]
  refine ⟨?_, ?_, by simpa using ha⟩
  · intro he
    simpa using congrArg String.toList he
  · intro he
    have := congrArg (fun t => t.toList.length) he
    simp at this

theorem getLast?_of_formatOf {target : Path} {f : Format} (h : formatOf target = .ok f) :
    ∃ c, target.parts.getLast? = some c ∧ IsOrdinary c ∧ formatOfName? c = some f := by
  have hname : formatOfName? target.name = some f := by
    unfold formatOf at h
    cases hn : formatOfName? target.name with
    | some g => simpa [hn] using h
    | none => simp [hn] at h
  rw [Path.name] at hname
  cases hl : target.parts.getLast? with
  | none =>
    have hempty : formatOfName? "" = none := by decide
    rw [hl, Option.getD_none, hempty] at hname
    cases hname
  | some c =>
    rw [hl, Option.getD_some] at hname
    have hmem : c ∈ target.parts := List.mem_of_getLast? hl
    have hc := target.isComponent c hmem
    refine ⟨c, rfl, ⟨hc.1, hc.2.1, ?_⟩, hname⟩
    rintro rfl
    have hup : formatOfName? ".." = none := by decide
    rw [hup] at hname
    cases hname

end Bundle

end TabPackager
