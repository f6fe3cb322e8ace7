import TabPackager.Proofs.ReadingLimits

/-!
# What the reading of TOML strings leaves

Every part of the reader of TOML leaves an end of the text before it. So do the readers of comments,
of line ends and of strings of all kinds.
-/

namespace TabPackager.Toml

open Config

/-- What is left of a text is an end of it. -/
def Leaves {α : Type} (cs : List Char) (rest : α → List Char) (x : Option α) : Prop :=
  ∀ a, x = some a → rest a <:+ cs

variable {α β : Type} {depth : Nat} {cs cs' : List Char} {rest : α → List Char}
  {rest' : β → List Char}

theorem Leaves.bind {x : Option α} {f : α → Option β} (h : Leaves cs rest x)
    (hf : ∀ a, rest a <:+ cs → Leaves cs rest' (f a)) : Leaves cs rest' (x >>= f) := by
  cases x with
  | none => exact fun _ h => nomatch h
  | some a => exact hf a (h a rfl)

theorem Leaves.mono {x : Option α} (h : Leaves cs rest x) (hs : cs <:+ cs') :
    Leaves cs' rest x := fun a ha => (h a ha).trans hs

theorem Leaves.some {a : α} (h : rest a <:+ cs) : Leaves cs rest (some a) := by
  rintro _ ⟨⟩
  exact h

theorem Leaves.none : Leaves cs rest none := fun _ h => nomatch h

theorem skipSpaces_suffix (cs : List Char) : skipSpaces cs <:+ cs := List.dropWhile_suffix _

theorem consumes_skipComment (cs : List Char) : Consumes depth cs id (skipComment cs) := by
  unfold skipComment
  split
  · next cs =>
    split
    · trivial
    · exact (List.dropWhile_suffix _).trans (List.suffix_cons _ _)
  · exact List.suffix_refl _

theorem consumes_takeCode (width : Nat) (cs : List Char) :
    Consumes depth cs Prod.snd (takeCode width cs) := by
  unfold takeCode
  dsimp only
  split
  · split
    · exact List.drop_suffix width cs
    · trivial
  · trivial

theorem consumes_skipLineEnd (cs : List Char) : Consumes depth cs id (skipLineEnd cs) := by
  have hs := skipSpaces_suffix cs
  unfold skipLineEnd
  split
  · exact List.nil_suffix
  · next rest h =>
    rw [h] at hs
    exact ((List.dropWhile_suffix _).trans (List.suffix_cons _ _)).trans hs
  · trivial

theorem consumes_takeBasic (multiline : Bool) (fuel : Nat) (done cs : List Char) :
    Consumes depth cs Prod.snd (takeBasic multiline fuel done cs) := by
  induction fuel generalizing done cs with
  | zero => trivial
  | succ fuel ih =>
    unfold takeBasic
    split
    · trivial
    · next rest =>
      split
      · exact List.suffix_cons _ _
      · split
        · next rest => exact ⟨['"', '"', '"'], rfl⟩
        · exact (ih _ rest).mono (List.suffix_cons _ _)
    · trivial
    · next e rest =>
      have he : e :: rest <:+ '\\' :: e :: rest := List.suffix_cons _ _
      have hrest : rest <:+ '\\' :: e :: rest := ⟨['\\', e], rfl⟩
      split
      · exact ((consumes_skipLineEnd _).mono he).bind fun after _ h => (ih done after).mono h
      · split
        · refine ((consumes_takeCode _ rest).mono hrest).bind fun (c, after) _ h => ?_
          exact (ih (c :: done) after).mono h
        · split
          · exact (ih _ rest).mono hrest
          · trivial
    · next c rest _ _ _ =>
      split
      · trivial
      · exact (ih _ rest).mono (List.suffix_cons _ _)

theorem leaves_takeToQuotes (done cs : List Char) : Leaves cs Prod.snd (takeToQuotes done cs) := by
  fun_induction takeToQuotes done cs with
  | case1 => exact .none
  | case2 done rest => exact .some ⟨['\'', '\'', '\''], rfl⟩
  | case3 done c rest _ ih => exact ih.mono (List.suffix_cons _ _)

theorem consumes_takeLiteral (cs : List Char) : Consumes depth cs Prod.snd (takeLiteral cs) := by
  unfold takeLiteral
  split
  · next s rest h =>
    have hs : rest <:+ cs := Text.cutAt_suffix (congrArg Prod.snd h)
    split
    · trivial
    · exact hs
  · trivial

theorem takeExtraQuotes_suffix (mark : Char) (s rest : List Char) :
    (takeExtraQuotes mark s rest).2 <:+ rest := by
  unfold takeExtraQuotes
  split
  · next a b more =>
    split
    · split
      · exact ⟨[a, b], rfl⟩
      · exact ⟨[a], rfl⟩
    · exact List.suffix_refl _
  · split
    · exact List.nil_suffix
    · exact List.suffix_refl _
  · exact List.suffix_refl _

theorem dropLine_suffix (cs : List Char) : dropLine cs <:+ cs := by
  unfold dropLine
  split
  · exact List.suffix_cons _ _
  · exact List.suffix_refl _

theorem consumes_takeString (cs : List Char) : Consumes depth cs Prod.snd (takeString cs) := by
  unfold takeString
  split
  · next rest =>
    have hbody : dropLine rest <:+ '"' :: '"' :: '"' :: rest :=
      (dropLine_suffix rest).trans ⟨['"', '"', '"'], rfl⟩
    refine ((consumes_takeBasic true _ [] _).mono hbody).bind fun (s, after) _ h => ?_
    exact (takeExtraQuotes_suffix '"' s after).trans h
  · next rest _ => exact (consumes_takeBasic false _ [] rest).mono (List.suffix_cons _ _)
  · next rest =>
    have hbody : dropLine rest <:+ '\'' :: '\'' :: '\'' :: rest :=
      (dropLine_suffix rest).trans ⟨['\'', '\'', '\''], rfl⟩
    split
    · next s after h =>
      have hafter := leaves_takeToQuotes [] _ _ h
      split
      · trivial
      · exact ((takeExtraQuotes_suffix '\'' s after).trans hafter).trans hbody
    · trivial
  · next rest _ => exact (consumes_takeLiteral rest).mono (List.suffix_cons _ _)
  · trivial

end TabPackager.Toml
