import TabPackager.Proofs.OutcomeTable

/-!
# Spellings of options

How an argument is classed that is an option by its spelling, alone, with a value attached behind an
equals sign, or with a value right behind a short spelling. Every other argument without a dash in
front is plain.
-/

namespace TabPackager.CommandLine

theorem classify_plain {a : String} (h : a.toList.head? ≠ some '-') :
    classify a = .ok (.plain a) := by
  have hlook : looksLikeOption a.toList = false := by
    unfold looksLikeOption
    split
    · next heq => simp [heq] at h
    · rfl
  simp [classify, hlook]

theorem switch?_spelling {s : String} {o : Switch} (h : (s, o) ∈ spellings) :
    looksLikeOption s.toList = true ∧ switch? s.toList = some o := by
  have hall : ∀ e ∈ spellings,
      looksLikeOption e.1.toList = true ∧ switch? e.1.toList = some e.2 := by
    decide
  exact hall (s, o) h

theorem classify_spelling {s : String} {o : Switch} (h : (s, o) ∈ spellings) :
    classify s = .ok (.option o (isShort s) none) := by
  obtain ⟨hlook, hswitch⟩ := switch?_spelling h
  simp [classify, hlook, hswitch]

theorem switch?_eq_none {cs : List Char} (h : ∀ e ∈ spellings, cs ≠ e.1.toList) :
    switch? cs = none := by
  rw [switch?, List.lookup_eq_none_iff]
  intro e he
  rw [bne_iff_ne]
  intro heq
  exact h e he (by rw [← heq, String.toList_ofList])

theorem not_mem_spelling {s : String} {o : Switch} (h : (s, o) ∈ spellings) : '=' ∉ s.toList := by
  have hall : ∀ e ∈ spellings, '=' ∉ e.1.toList := by decide
  exact hall (s, o) h

theorem looksLikeOption_append {cs : List Char} (h : looksLikeOption cs = true) (xs : List Char) :
    looksLikeOption (cs ++ xs) = true := by
  unfold looksLikeOption at h
  split at h
  · rfl
  · cases h

/-- The value after an equals sign is attached, whatever it is. -/
theorem classify_attached {s : String} {o : Switch} (h : (s, o) ∈ spellings) (v : String) :
    classify (s ++ "=" ++ v) = .ok (.option o (isShort s) (some v.toList)) := by
  obtain ⟨hlook, hswitch⟩ := switch?_spelling h
  have htext : (s ++ "=" ++ v).toList = s.toList ++ '=' :: v.toList := by
    rw [String.toList_append, String.toList_append, List.append_assoc]
    rfl
  have hnone : switch? (s.toList ++ '=' :: v.toList) = none := by
    apply switch?_eq_none
    intro e he heq
    apply not_mem_spelling (s := e.1) (o := e.2) he
    rw [← heq]
    simp
  have hcut : Text.cutAt '=' (s.toList ++ '=' :: v.toList) = (s.toList, some v.toList) :=
    Text.cutAt_append (not_mem_spelling h) v.toList
  have hopt := looksLikeOption_append hlook ('=' :: v.toList)
  simp [classify, htext, hopt, hnone, hcut, hswitch]

/-- A short spelling is not the beginning of another one. -/
theorem switch?_short_append {s : String} {o : Switch} (h : (s, o) ∈ spellings)
    (hs : isShort s = true) {v : List Char} (hv : v ≠ []) : switch? (s.toList ++ v) = none := by
  have hall : ∀ e ∈ spellings, isShort e.1 = true →
      ∀ e' ∈ spellings, e.1.toList = e'.1.toList.take 2 → e'.1.toList.length = 2 := by
    decide
  have hlen : s.toList.length = 2 := by simpa [isShort] using hs
  apply switch?_eq_none
  intro e he heq
  have htake : s.toList = e.1.toList.take 2 := by
    rw [← heq, ← hlen, List.take_left]
  have htwo := hall (s, o) h hs e he htake
  have hpos : 0 < v.length := List.length_pos_iff.mpr hv
  rw [← heq, List.length_append] at htwo
  omega

/-- The value right behind a short spelling is attached. -/
theorem classify_joined {s : String} {o : Switch} (h : (s, o) ∈ spellings)
    (hs : isShort s = true) {v : String} (hv : v ≠ "") (hdirect : v.toList.head? ≠ some '=') :
    classify (s ++ v) = .ok (.option o true (some v.toList)) := by
  have hall : ∀ e ∈ spellings, e.1.toList ≠ ['-', '-'] ∧
      spellings.filter (fun e' => e'.1.toList == e.1.toList) = [e] := by
    decide
  obtain ⟨hdash, hfilter⟩ := hall (s, o) h
  have hlook := (switch?_spelling h).1
  have hlen : s.toList.length = 2 := by simpa [isShort] using hs
  have htext : (s ++ v).toList = s.toList ++ v.toList := String.toList_append
  have hne : v.toList ≠ [] := by simpa using hv
  have hnone := switch?_short_append h hs hne
  have htake : (s.toList ++ v.toList).take 2 = s.toList := by rw [← hlen, List.take_left]
  have hdrop : (s.toList ++ v.toList).drop 2 = v.toList := by rw [← hlen, List.drop_left]
  have hopt := looksLikeOption_append hlook v.toList
  have hmatch : shortMatches (s.toList ++ v.toList) =
      [(s, .option o true (some v.toList))] := by
    simp only [shortMatches, htake, hdrop, hfilter, List.map_singleton]
  have hexact : ∀ spelling value, Text.cutAt '=' (s.toList ++ v.toList) = (spelling, some value) →
      switch? spelling = none := by
    intro spelling value hcut
    by_cases heq : '=' ∈ v.toList
    · obtain ⟨w, rest, hsplit, hw⟩ := List.eq_append_cons_of_mem heq
      have hwne : w ≠ [] := by
        rintro rfl
        rw [hsplit] at hdirect
        simp at hdirect
      have hnot : '=' ∉ s.toList ++ w := by
        simp only [List.mem_append, not_or]
        exact ⟨not_mem_spelling h, hw⟩
      rw [hsplit, ← List.append_assoc, Text.cutAt_append hnot] at hcut
      cases hcut
      exact switch?_short_append h hs hwne
    · have hnot : '=' ∉ s.toList ++ v.toList := by
        simp only [List.mem_append, not_or]
        exact ⟨not_mem_spelling h, heq⟩
      rw [Text.cutAt_of_not_mem hnot] at hcut
      cases hcut
  unfold classify
  simp only [htext, hopt, hnone, htake, hdash, hmatch]
  rcases hcut : Text.cutAt '=' (s.toList ++ v.toList) with ⟨spelling, _ | value⟩
  · simp
  · simp [hexact spelling value hcut]

theorem tokens_cons {a : String} {t : Token} (hne : a ≠ "--") (ha : classify a = .ok t)
    (as : List String) : tokens (a :: as) = (tokens as).map (t :: ·) := by
  rw [tokens, if_neg hne, ha]
  cases tokens as <;> rfl

theorem ne_separator_of_bare {a : String} (h : a.toList.head? ≠ some '-') : a ≠ "--" := by
  rintro rfl
  exact h (by decide)

theorem spelling_ne_separator {s : String} {o : Switch} (h : (s, o) ∈ spellings) : s ≠ "--" := by
  have hall : ∀ e ∈ spellings, e.1 ≠ "--" := by decide
  exact hall (s, o) h

end TabPackager.CommandLine
