import Mathlib.Data.List.DropRight
import TabPackager.Text.Blank

/-!
# Trimmed texts

Trimming leaves nothing of a text that is blank all over, and else a text that neither begins nor
ends with a blank character. It takes away nothing but blank characters at the two ends, and what
is left is the only such text, so that a text without blank ends is left as it is.
-/

namespace TabPackager.Text

variable {blank : Char → Bool} {cs : List Char} {c : Char}

theorem trimEnd_eq_rdropWhile (blank : Char → Bool) (cs : List Char) :
    trimEnd blank cs = cs.rdropWhile blank := rfl

theorem head?_dropWhile (h : (cs.dropWhile blank).head? = some c) : blank c = false := by
  have hnot := List.head?_dropWhile_not blank cs
  rwa [h] at hnot

theorem trimChars_eq_nil_iff : trimChars blank cs = [] ↔ ∀ c ∈ cs, blank c = true := by
  rw [trimChars, trimEnd_eq_rdropWhile, List.rdropWhile_eq_nil_iff, ← List.dropWhile_eq_nil_iff,
    List.dropWhile_idempotent, List.dropWhile_eq_nil_iff]

theorem head?_trimChars (h : (trimChars blank cs).head? = some c) : blank c = false := by
  obtain ⟨rest, hrest⟩ := List.rdropWhile_prefix blank (cs.dropWhile blank)
  rw [trimChars, trimEnd_eq_rdropWhile] at h
  have hhead : (cs.dropWhile blank).head? = some c := by
    rw [← hrest, List.head?_append, h, Option.some_or]
  exact head?_dropWhile hhead

theorem getLast?_trimChars (h : (trimChars blank cs).getLast? = some c) : blank c = false := by
  rw [trimChars, trimEnd_eq_rdropWhile] at h
  have hne : (cs.dropWhile blank).rdropWhile blank ≠ [] := by
    intro he
    rw [he] at h
    cases h
  have hlast := List.rdropWhile_last_not blank _ hne
  rw [List.getLast?_eq_some_getLast hne, Option.some.injEq] at h
  rw [h] at hlast
  simpa using hlast

theorem exists_eq_append_trimChars (blank : Char → Bool) (cs : List Char) :
    ∃ front back, cs = front ++ trimChars blank cs ++ back ∧ (∀ c ∈ front, blank c = true) ∧
      ∀ c ∈ back, blank c = true := by
  refine ⟨cs.takeWhile blank, (cs.dropWhile blank).rtakeWhile blank, ?_, ?_, ?_⟩
  · rw [trimChars, trimEnd_eq_rdropWhile, List.append_assoc, List.rdropWhile_append_rtakeWhile,
      List.takeWhile_append_dropWhile]
  · exact fun c hc => List.mem_takeWhile_imp hc
  · exact fun c hc => List.mem_rtakeWhile_imp hc

theorem trimEnd_append_of_blank {back : List Char} (h : ∀ c ∈ back, blank c = true) :
    trimEnd blank (cs ++ back) = trimEnd blank cs := by
  have hrev : ∀ c ∈ back.reverse, blank c = true := fun c hc => h c (List.mem_reverse.mp hc)
  rw [trimEnd, List.reverse_append, List.dropWhile_append_of_pos hrev, trimEnd]

theorem trimEnd_eq_self (h : ∀ c, cs.getLast? = some c → blank c = false) :
    trimEnd blank cs = cs := by
  rw [trimEnd_eq_rdropWhile, List.rdropWhile_eq_self_iff]
  intro hne
  rw [h _ (List.getLast?_eq_some_getLast hne)]
  exact Bool.false_ne_true

/-- Blank characters around characters without blank ends are all that is taken away. -/
theorem trimChars_append {front back : List Char} (hfront : ∀ c ∈ front, blank c = true)
    (hback : ∀ c ∈ back, blank c = true) (hhead : ∀ c, cs.head? = some c → blank c = false)
    (hlast : ∀ c, cs.getLast? = some c → blank c = false) :
    trimChars blank (front ++ cs ++ back) = cs := by
  cases cs with
  | nil =>
    rw [trimChars_eq_nil_iff, List.append_nil]
    exact List.forall_mem_append.mpr ⟨hfront, hback⟩
  | cons c rest =>
    have hdrop : (front ++ c :: rest ++ back).dropWhile blank = c :: rest ++ back := by
      rw [List.append_assoc, List.dropWhile_append_of_pos hfront, List.cons_append,
        List.dropWhile_cons_of_neg (by simp [hhead c rfl])]
    rw [trimChars, hdrop, trimEnd_append_of_blank hback, trimEnd_eq_self hlast]

/-- The second text is the first one without its blank ends. -/
structure TrimsTo (s t : String) : Prop where
  ends : ∃ front back, s.toList = front ++ t.toList ++ back ∧
    (∀ c ∈ front, isBlank c = true) ∧ ∀ c ∈ back, isBlank c = true
  head : ∀ c, t.toList.head? = some c → isBlank c = false
  last : ∀ c, t.toList.getLast? = some c → isBlank c = false

theorem trimsTo_trim (s : String) : TrimsTo s (trim s) where
  ends := by
    rw [trim, String.toList_ofList]
    exact exists_eq_append_trimChars isBlank s.toList
  head c hc := head?_trimChars (by rwa [trim, String.toList_ofList] at hc)
  last c hc := getLast?_trimChars (by rwa [trim, String.toList_ofList] at hc)

theorem trimsTo_iff {s t : String} : TrimsTo s t ↔ trim s = t := by
  constructor
  · intro h
    obtain ⟨front, back, hs, hfront, hback⟩ := h.ends
    rw [trim, hs, trimChars_append hfront hback h.head h.last, String.ofList_toList]
  · rintro rfl
    exact trimsTo_trim s

/-- A text that is not empty and neither begins nor ends with a blank character. -/
structure IsTrimmed (s : String) : Prop where
  ne_empty : s ≠ ""
  head : ∀ c, s.toList.head? = some c → isBlank c = false
  last : ∀ c, s.toList.getLast? = some c → isBlank c = false

theorem trim_eq_empty_iff {s : String} : trim s = "" ↔ ∀ c ∈ s.toList, isBlank c = true := by
  rw [← trimChars_eq_nil_iff, trim, ← String.toList_inj, String.toList_ofList]
  rfl

theorem isTrimmed_trim {s : String} (h : trim s ≠ "") : IsTrimmed (trim s) where
  ne_empty := h
  head := (trimsTo_trim s).head
  last := (trimsTo_trim s).last

theorem IsTrimmed.trim_eq {s : String} (h : IsTrimmed s) : trim s = s :=
  trimsTo_iff.mp ⟨⟨[], [], by simp, nofun, nofun⟩, h.head, h.last⟩

end TabPackager.Text
