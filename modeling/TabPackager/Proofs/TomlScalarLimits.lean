import TabPackager.Proofs.TomlStringLimits

/-!
# What TOML numbers and times are rejected for

Numbers and times of TOML leave an end of the text before them. A number is rejected for its digits
only when it has too many of them.
-/

namespace TabPackager.Toml

open Config

variable {α β : Type} {depth : Nat} {cs cs' : List Char} {rest : α → List Char}
  {rest' : β → List Char}

theorem takeMoreDigits_suffix (p : Char → Bool) (cs : List Char) :
    (takeMoreDigits p cs).2 <:+ cs := by
  fun_induction takeMoreDigits p cs with
  | case1 c cs hc ds rest h ih =>
    rw [h] at ih
    exact ih.trans ⟨['_', c], rfl⟩
  | case3 c cs _ hc ds rest h ih =>
    rw [h] at ih
    exact ih.trans (List.suffix_cons c cs)
  | _ => exact List.suffix_refl _

theorem length_takeMoreDigits_le (p : Char → Bool) (cs : List Char) :
    (takeMoreDigits p cs).1.length ≤ cs.countP p := by
  fun_induction takeMoreDigits p cs with
  | case1 c cs hc ds rest h ih =>
    rw [h] at ih
    have hcount : (c :: cs).countP p = cs.countP p + 1 := List.countP_cons_of_pos hc
    have hmore : (c :: cs).countP p ≤ ('_' :: c :: cs).countP p :=
      (List.sublist_cons_self _ _).countP_le
    exact (Nat.succ_le_succ ih).trans (hcount.symm.le.trans hmore)
  | case3 c cs _ hc ds rest h ih =>
    rw [h] at ih
    rw [List.countP_cons_of_pos hc]
    exact Nat.succ_le_succ ih
  | _ => exact Nat.zero_le _

/-- The digits taken are digits of the text. -/
theorem takeDigits?_spec {p : Char → Bool} {ds rest : List Char}
    (h : takeDigits? p cs = some (ds, rest)) : rest <:+ cs ∧ ds.length ≤ cs.countP p := by
  unfold takeDigits? at h
  split at h
  · next c cs =>
    split at h
    · next hc =>
      cases h
      rw [List.countP_cons_of_pos hc]
      exact ⟨(takeMoreDigits_suffix p cs).trans (List.suffix_cons c cs),
        Nat.succ_le_succ (length_takeMoreDigits_le p cs)⟩
    · cases h
  · cases h

theorem leaves_takeDigits? (p : Char → Bool) (cs : List Char) :
    Leaves cs Prod.snd (takeDigits? p cs) := fun _ h => (takeDigits?_spec h).1

theorem leaves_takeBased? (cs : List Char) : Leaves cs Prod.snd (takeBased? cs) := by
  unfold takeBased?
  split
  · next mark cs =>
    have hcs : cs <:+ '0' :: mark :: cs := ⟨['0', mark], rfl⟩
    have hdigits (base : Nat) : Leaves ('0' :: mark :: cs) Prod.snd
        (takeDigits? (isDigitBelow base) cs >>= fun r =>
          Text.natOfChars? base r.1 >>= fun n => pure (Value.int n, r.2)) := by
      refine ((leaves_takeDigits? _ cs).mono hcs).bind ?_
      rintro ⟨ds, rest⟩ h
      have hnumber : Leaves ('0' :: mark :: cs) (fun _ => rest) (Text.natOfChars? base ds) :=
        fun _ _ => h
      exact hnumber.bind fun n _ => .some h
    extract_lets
    split
    · exact hdigits 16
    · exact hdigits 8
    · exact hdigits 2
    · exact .none
  · exact .none

theorem takeSign_suffix (cs : List Char) : (Binary64.takeSign cs).2 <:+ cs := by
  unfold Binary64.takeSign
  split
  · exact List.suffix_cons _ _
  · exact List.suffix_cons _ _
  · exact List.suffix_refl _

theorem consumes_takeDecimal? {r : Reading (Value × List Char)} (h : takeDecimal? cs = some r) :
    Consumes depth cs Prod.snd r := by
  unfold takeDecimal? at h
  split at h
  next negative body hsign =>
  have hbody : body <:+ cs := by
    have := takeSign_suffix cs
    rwa [hsign] at this
  extract_lets ending at h
  have hending (taken : List Char × List Char) (hw : taken.1.length ≤ body.countP isDecimal)
      (hrest : taken.2 <:+ body) (h : ending taken = some r) : Consumes depth cs Prod.snd r := by
    unfold ending at h
    split at h
    next whole rest =>
    split at h
    next fraction rest₁ hfraction =>
    have hrest₁ : rest₁ <:+ rest := by
      split at hfraction
      · next more =>
        split at hfraction
        · next ds after hds =>
          cases hfraction
          exact (leaves_takeDigits? _ _ _ hds).trans (List.suffix_cons _ _)
        · cases hfraction
          exact List.suffix_refl _
      · cases hfraction
        exact List.suffix_refl _
    split at h
    next exponent rest₂ hexponent =>
    have hrest₂ : rest₂ <:+ rest₁ := by
      split at hexponent
      · next e more =>
        split at hexponent
        · split at hexponent
          next s digits hs =>
          split at hexponent
          · next ds after hds =>
            cases hexponent
            have hdigits := takeSign_suffix more
            rw [hs] at hdigits
            exact ((leaves_takeDigits? _ _ _ hds).trans hdigits).trans (List.suffix_cons _ _)
          · cases hexponent
            exact List.suffix_refl _
        · cases hexponent
          exact List.suffix_refl _
      · cases hexponent
        exact List.suffix_refl _
    have hafter : rest₂ <:+ cs := ((hrest₂.trans hrest₁).trans hrest).trans hbody
    split at h
    · cases h
      have hcount : (whole.map digitValue).length ≤ cs.countP isDecimal := by
        rw [List.length_map]
        exact hw.trans hbody.sublist.countP_le
      exact (consumes_decimalInt hcount hafter).map fun _ h => h
    · obtain ⟨x, -, hx⟩ := Option.bind_eq_some_iff.mp h
      cases hx
      exact hafter
  split at h
  · next rest =>
    have hzero : ['0'].length ≤ ('0' :: rest).countP isDecimal :=
      List.countP_pos_iff.mpr ⟨'0', List.mem_cons_self, by decide⟩
    exact hending (['0'], rest) hzero (List.suffix_cons '0' rest) h
  · obtain ⟨⟨whole, rest⟩, hdigits, h⟩ := Option.bind_eq_some_iff.mp h
    obtain ⟨hrest, hw⟩ := takeDigits?_spec hdigits
    exact hending (whole, rest) hw hrest h

theorem leaves_takeSpecial? (cs : List Char) : Leaves cs Prod.snd (takeSpecial? cs) := by
  have hs := takeSign_suffix cs
  unfold takeSpecial?
  dsimp only
  split
  · next rest h =>
    rw [h] at hs
    exact .some (List.IsSuffix.trans ⟨['i', 'n', 'f'], rfl⟩ hs)
  · next rest h =>
    rw [h] at hs
    exact .some (List.IsSuffix.trans ⟨['n', 'a', 'n'], rfl⟩ hs)
  · exact .none

theorem leaves_takeTwo? (least greatest : Nat) (cs : List Char) :
    Leaves cs Prod.snd (takeTwo? least greatest cs) := by
  unfold takeTwo?
  split
  · next a b cs =>
    split
    · dsimp only
      split
      · exact .some ⟨[a, b], rfl⟩
      · exact .none
    · exact .none
  · exact .none

theorem leaves_takeMark? (c : Char) (cs : List Char) : Leaves cs id (takeMark? c cs) := by
  unfold takeMark?
  split
  · next d cs =>
    split
    · exact .some (List.suffix_cons _ _)
    · exact .none
  · exact .none

theorem leaves_takeTime? (cs : List Char) : Leaves cs Prod.snd (takeTime? cs) := by
  unfold takeTime?
  refine (leaves_takeTwo? 0 23 cs).bind fun (hour, rest) h => ?_
  refine ((leaves_takeMark? ':' rest).mono h).bind fun rest h => ?_
  refine ((leaves_takeTwo? 0 59 rest).mono h).bind fun (minute, rest) h => ?_
  refine ((leaves_takeMark? ':' rest).mono h).bind fun rest h => ?_
  refine ((leaves_takeTwo? 0 59 rest).mono h).bind fun (second, rest) h => ?_
  dsimp only at h ⊢
  split
  · next more =>
    split
    · exact .some h
    · exact .some (((List.dropWhile_suffix _).trans (List.suffix_cons _ _)).trans h)
  · exact .some h

theorem takeOffset_suffix (cs : List Char) : (takeOffset cs).2 <:+ cs := by
  unfold takeOffset
  split
  · exact List.suffix_cons _ _
  · exact List.suffix_cons _ _
  · next sign rest _ _ =>
    split
    · split
      · next m more h =>
        have hoffset : Leaves rest Prod.snd (takeTwo? 0 23 rest >>= fun hour =>
            takeMark? ':' hour.2 >>= fun more => takeTwo? 0 59 more >>= fun minute =>
              pure (hour.1 * 60 + minute.1, minute.2)) := by
          refine (leaves_takeTwo? 0 23 rest).bind ?_
          rintro ⟨hour, r⟩ hr
          refine ((leaves_takeMark? ':' r).mono hr).bind fun r hr => ?_
          refine ((leaves_takeTwo? 0 59 r).mono hr).bind ?_
          rintro ⟨minute, r⟩ hr
          exact .some hr
        exact (hoffset _ h).trans (List.suffix_cons _ _)
      · exact List.suffix_refl _
    · exact List.suffix_refl _
  · exact List.suffix_refl _

theorem consumes_takeDateTime? {r : Reading (Value × List Char)} (h : takeDateTime? cs = some r) :
    Consumes depth cs Prod.snd r := by
  unfold takeDateTime? at h
  obtain ⟨⟨century, r₁⟩, h₁, h⟩ := Option.bind_eq_some_iff.mp h
  obtain ⟨⟨year, r₂⟩, h₂, h⟩ := Option.bind_eq_some_iff.mp h
  obtain ⟨r₃, h₃, h⟩ := Option.bind_eq_some_iff.mp h
  obtain ⟨⟨month, r₄⟩, h₄, h⟩ := Option.bind_eq_some_iff.mp h
  obtain ⟨r₅, h₅, h⟩ := Option.bind_eq_some_iff.mp h
  obtain ⟨⟨day, r₆⟩, h₆, h⟩ := Option.bind_eq_some_iff.mp h
  have hday : r₆ <:+ cs :=
    (((((leaves_takeTwo? _ _ _ _ h₆).trans (leaves_takeMark? _ _ _ h₅)).trans
      (leaves_takeTwo? _ _ _ _ h₄)).trans (leaves_takeMark? _ _ _ h₃)).trans
      (leaves_takeTwo? _ _ _ _ h₂)).trans (leaves_takeTwo? _ _ _ _ h₁)
  cases h
  dsimp only
  split
  · cases r₆ with
    | nil => exact hday
    | cons sep more =>
      have hmore : more <:+ cs := (List.suffix_cons sep more).trans hday
      dsimp only
      split
      · split
        · next time after htime =>
          exact ((takeOffset_suffix after).trans (leaves_takeTime? _ _ htime)).trans hmore
        · exact hday
      · exact hday
  · trivial

theorem consumes_takeScalar (cs : List Char) : Consumes depth cs Prod.snd (takeScalar cs) := by
  unfold takeScalar
  split
  · next h => exact consumes_takeDateTime? h
  · split
    · next t rest h => exact leaves_takeTime? cs _ h
    · split
      · next found h => exact leaves_takeBased? cs _ h
      · split
        · next h => exact consumes_takeDecimal? h
        · split
          · next found h => exact leaves_takeSpecial? cs _ h
          · trivial

end TabPackager.Toml
