/-!
# Texts and separators

A list is cut at the first occurrence of a separator, or into the pieces between all of them. No
piece holds the separator, and each is a part of the whole.
-/

namespace TabPackager.Text

variable {α : Type} [DecidableEq α] {sep : α} {cs p : List α}

/-- The part before the first occurrence of the separator and, if there is one, the part after
it. -/
def cutAt (sep : α) : List α → List α × Option (List α)
  | [] => ([], none)
  | c :: cs =>
    if c = sep then ([], some cs)
    else let (a, b) := cutAt sep cs; (c :: a, b)

theorem cutAt_append (h : sep ∉ cs) (rest : List α) :
    cutAt sep (cs ++ sep :: rest) = (cs, some rest) := by
  induction cs with
  | nil => simp [cutAt]
  | cons c cs ih =>
    rw [List.mem_cons, not_or] at h
    rw [List.cons_append, cutAt, if_neg (Ne.symm h.1), ih h.2]

theorem cutAt_of_not_mem (h : sep ∉ cs) : cutAt sep cs = (cs, none) := by
  induction cs with
  | nil => rfl
  | cons c cs ih =>
    rw [List.mem_cons, not_or] at h
    rw [cutAt, if_neg (Ne.symm h.1), ih h.2]

theorem cutAt_suffix {rest : List α} (h : (cutAt sep cs).2 = some rest) : rest <:+ cs := by
  induction cs with
  | nil => cases h
  | cons c cs ih =>
    unfold cutAt at h
    split at h
    · cases h
      exact List.suffix_cons c rest
    · exact (ih h).trans (List.suffix_cons c cs)

theorem not_mem_of_mem_splitOn (h : p ∈ cs.splitOn sep) : sep ∉ p := by
  induction cs generalizing p with
  | nil =>
    rw [List.splitOn_nil, List.mem_singleton] at h
    rw [h]
    exact List.not_mem_nil
  | cons c cs ih =>
    rw [List.splitOn_cons_eq_if_modifyHead] at h
    split at h
    · rcases List.mem_cons.1 h with rfl | h
      · exact List.not_mem_nil
      · exact ih h
    · next hc =>
      cases hs : cs.splitOn sep with
      | nil => exact absurd hs (List.splitOn_ne_nil sep cs)
      | cons q qs =>
        rw [hs] at h ih
        rcases List.mem_cons.1 h with rfl | h
        · have hq : sep ∉ q := ih List.mem_cons_self
          have hne : sep ≠ c := fun he => hc (beq_iff_eq.2 he.symm)
          exact fun hm => (List.mem_cons.1 hm).elim hne hq
        · exact ih (List.mem_cons_of_mem q h)

theorem sublist_of_mem_splitOn (h : p ∈ cs.splitOn sep) : p.Sublist cs := by
  induction cs generalizing p with
  | nil =>
    rw [List.splitOn_nil, List.mem_singleton] at h
    subst h
    exact List.Sublist.refl _
  | cons c cs ih =>
    rw [List.splitOn_cons_eq_if_modifyHead] at h
    split at h
    · rcases List.mem_cons.1 h with rfl | h
      · exact List.nil_sublist _
      · exact (ih h).cons c
    · cases hs : cs.splitOn sep with
      | nil => exact absurd hs (List.splitOn_ne_nil sep cs)
      | cons q qs =>
        rw [hs] at h ih
        rcases List.mem_cons.1 h with rfl | h
        · exact (ih List.mem_cons_self).cons_cons c
        · exact (ih (List.mem_cons_of_mem q h)).cons c

end TabPackager.Text
