import TabPackager.Json.Document
import TabPackager.Proofs.Results
import TabPackager.Toml.Document
import Mathlib.Data.List.TakeWhile

/-!
# What the readers of JSON and TOML reject

A reader takes a value off the front of a text and leaves an end of the text. The readers of JSON
and TOML reject a document that keeps the rules only for its size: for a numeral with too many
digits, or for values that stand in too many others.
-/

namespace TabPackager

namespace Config

def isOpening (c : Char) : Bool := c == '[' || c == '\x7b'

/-- The text is so large that a value can be rejected for it: it holds more digits than a numeral
may have, or more brackets than values may nest to the depth, of which each takes at most three
steps. -/
def Exceeds (depth : Nat) (cs : List Char) : Rejection → Prop
  | .value => numeralLimit < cs.countP isDecimal
  | .depth _ => depth < 3 * cs.countP isOpening
  | _ => False

/-- What may become of a text: what is left of it is an end of it, and a value in it is rejected
for its size only. -/
def Consumes {α : Type} (depth : Nat) (cs : List Char) (rest : α → List Char) : Reading α → Prop
  | .ok a => rest a <:+ cs
  | .error .malformed => True
  | .error (.rejected why) => Exceeds depth cs why

section

variable {α β : Type} {depth : Nat} {cs cs' : List Char} {rest : α → List Char}
  {rest' : β → List Char} {x : Reading α}

theorem Exceeds.mono {why : Rejection} (h : Exceeds depth cs why) (hs : cs.Sublist cs') :
    Exceeds depth cs' why := by
  have hcount (p : Char → Bool) : cs.countP p ≤ cs'.countP p := hs.countP_le
  cases why with
  | value => exact Nat.lt_of_lt_of_le h (hcount isDecimal)
  | depth nest =>
    have hd : depth < 3 * cs.countP isOpening := h
    have := hcount isOpening
    show depth < 3 * cs'.countP isOpening
    omega
  | _ => exact h

theorem Consumes.mono (h : Consumes depth cs rest x) (hs : cs <:+ cs') :
    Consumes depth cs' rest x := by
  cases x with
  | ok a => exact List.IsSuffix.trans h hs
  | error f =>
    cases f with
    | malformed => trivial
    | rejected why => exact Exceeds.mono h hs.sublist

theorem Consumes.bind {f : α → Reading β} (h : Consumes depth cs rest x)
    (hf : ∀ a, x = .ok a → rest a <:+ cs → Consumes depth cs rest' (f a)) :
    Consumes depth cs rest' (x >>= f) := by
  cases x with
  | ok a => exact hf a rfl h
  | error e =>
    cases e with
    | malformed => trivial
    | rejected why => exact h

theorem Consumes.map {f : α → β} (h : Consumes depth cs rest x)
    (hf : ∀ a, rest a <:+ cs → rest' (f a) <:+ cs) : Consumes depth cs rest' (x.map f) := by
  cases x with
  | ok a => exact hf a h
  | error e =>
    cases e with
    | malformed => trivial
    | rejected why => exact h

theorem Exceeds.step {c : Char} (hc : isOpening c = true) {step : Nat} (hstep : step ≤ 3)
    {why : Rejection} (h : Exceeds (depth - step) cs why) : Exceeds depth (c :: cs) why := by
  cases why with
  | @value direction =>
    have hv : Exceeds depth cs (@Rejection.value direction) := h
    exact hv.mono (List.sublist_cons_self c cs)
  | depth nest =>
    have hcount : (c :: cs).countP isOpening = cs.countP isOpening + 1 :=
      List.countP_cons_of_pos hc
    have hd : depth - step < 3 * cs.countP isOpening := h
    show depth < 3 * (c :: cs).countP isOpening
    omega
  | _ => exact h

theorem Consumes.stepDown {c : Char} (hc : isOpening c = true) {nest : Nest} {step : Nat}
    (hstep : step ≤ 3) {f : Nat → Reading α}
    (hf : Consumes (depth - step) cs rest (f (depth - step))) :
    Consumes depth (c :: cs) rest (stepDown nest step depth >>= f) := by
  unfold Config.stepDown
  split
  · have hcount : (c :: cs).countP isOpening = cs.countP isOpening + 1 :=
      List.countP_cons_of_pos hc
    show depth < 3 * (c :: cs).countP isOpening
    omega
  · show Consumes depth (c :: cs) rest (f (depth - step))
    cases hx : f (depth - step) with
    | ok a =>
      rw [hx] at hf
      exact List.IsSuffix.trans hf (List.suffix_cons c cs)
    | error e =>
      rw [hx] at hf
      cases e with
      | malformed => trivial
      | rejected why => exact Exceeds.step hc hstep hf

theorem consumes_decimalInt {negative : Bool} {digits : List Nat}
    (hd : digits.length ≤ cs.countP isDecimal) (hs : cs' <:+ cs) :
    Consumes depth cs (fun _ : Int => cs') (decimalInt negative digits) := by
  unfold decimalInt
  split
  · next h => exact Nat.lt_of_lt_of_le h hd
  · exact hs

end

end Config

namespace Json

open Config

variable {depth : Nat} {cs : List Char}

theorem skipBlanks_suffix (cs : List Char) : skipBlanks cs <:+ cs := List.dropWhile_suffix _

theorem consumes_takeCode (cs : List Char) : Consumes depth cs Prod.snd (takeCode cs) := by
  unfold takeCode
  split
  · next a b c d cs =>
    split
    · exact ⟨[a, b, c, d], rfl⟩
    · trivial
  · trivial

theorem consumes_takeUnit (cs : List Char) : Consumes depth cs Prod.snd (takeUnit cs) := by
  refine (consumes_takeCode cs).bind fun (n, rest) _ hrest => ?_
  dsimp only at hrest ⊢
  split
  · next more _ _ =>
    have hmore : more <:+ cs := List.IsSuffix.trans ⟨['\\', 'u'], rfl⟩ hrest
    refine ((consumes_takeCode more).mono hmore).bind fun (m, after) _ hafter => ?_
    dsimp only
    split
    · exact hafter
    · exact hrest
  · exact hrest

theorem consumes_takeString (fuel : Nat) (done cs : List Char) :
    Consumes depth cs Prod.snd (takeString fuel done cs) := by
  induction fuel generalizing done cs with
  | zero => trivial
  | succ fuel ih =>
    unfold takeString
    split
    · trivial
    · exact List.suffix_cons _ _
    · next rest =>
      refine ((consumes_takeUnit rest).mono ⟨['\\', 'u'], rfl⟩).bind fun (c, after) _ hafter => ?_
      exact (ih (c :: done) after).mono hafter
    · next e rest _ =>
      split
      · exact (ih _ rest).mono ⟨['\\', e], rfl⟩
      · trivial
    · next c rest _ _ _ =>
      split
      · trivial
      · exact (ih _ rest).mono (List.suffix_cons _ _)

theorem takeDigits_suffix (cs : List Char) : (takeDigits cs).2 <:+ cs := List.dropWhile_suffix _

theorem length_takeDigits_le (cs : List Char) :
    (takeDigits cs).1.length ≤ cs.countP isDecimal := by
  have hall : (cs.takeWhile isDecimal).countP isDecimal = (cs.takeWhile isDecimal).length :=
    List.countP_eq_length.mpr fun c hc => List.mem_takeWhile_imp hc
  have hsub : (cs.takeWhile isDecimal).countP isDecimal ≤ cs.countP isDecimal :=
    (List.takeWhile_sublist _).countP_le
  exact hall ▸ hsub

theorem takeFraction_suffix (cs : List Char) : (takeFraction cs).2 <:+ cs := by
  unfold takeFraction
  split
  · next cs =>
    have := takeDigits_suffix cs
    split
    · exact List.suffix_refl _
    · next ds rest _ h =>
      rw [h] at this
      exact this.trans (List.suffix_cons _ _)
  · exact List.suffix_refl _

theorem takeExponent_suffix (cs : List Char) : (takeExponent cs).2 <:+ cs := by
  unfold takeExponent
  split
  · next e rest =>
    split
    · dsimp only
      split
      · exact List.suffix_refl _
      · next ds after _ h =>
        have hafter {signed : List Char × List Char} (hs : signed.2 <:+ rest)
            (h : takeDigits signed.2 = (ds, after)) : after <:+ rest := by
          have := takeDigits_suffix signed.2
          rw [h] at this
          exact this.trans hs
        refine (hafter ?_ h).trans (List.suffix_cons e rest)
        split
        · exact List.suffix_cons _ _
        · exact List.suffix_cons _ _
        · exact List.suffix_refl _
    · exact List.suffix_refl _
  · exact List.suffix_refl _

theorem consumes_takeNumber (cs : List Char) : Consumes depth cs Prod.snd (takeNumber cs) := by
  unfold takeNumber
  split
  next negative body hsign =>
  have hbody : body <:+ cs := by
    split at hsign
    · cases hsign
      exact List.suffix_cons _ _
    · cases hsign
      exact List.suffix_refl _
  split
  next whole rest hwhole =>
  have hrest : rest <:+ body ∧ whole.length ≤ body.countP isDecimal := by
    split at hwhole
    · cases hwhole
      exact ⟨List.suffix_cons _ _, List.countP_pos_iff.mpr ⟨'0', List.mem_cons_self, rfl⟩⟩
    · have hdigits := length_takeDigits_le body
      have hsuffix := takeDigits_suffix body
      rw [hwhole] at hdigits hsuffix
      exact ⟨hsuffix, hdigits⟩
  dsimp only
  split
  · trivial
  · have hfraction := takeFraction_suffix rest
    have hexponent := takeExponent_suffix (takeFraction rest).2
    have hafter : (takeExponent (takeFraction rest).2).2 <:+ cs :=
      ((hexponent.trans hfraction).trans hrest.1).trans hbody
    have hcount : (whole.map digitValue).length ≤ cs.countP isDecimal := by
      rw [List.length_map]
      exact hrest.2.trans hbody.sublist.countP_le
    split
    · exact (consumes_decimalInt hcount hafter).bind fun n _ h => h
    · split
      · exact hafter
      · trivial

theorem suffix_of_skipBlanks {c : Char} {rest : List Char} (h : skipBlanks cs = c :: rest) :
    rest <:+ cs := by
  have hs := skipBlanks_suffix cs
  rw [h] at hs
  exact (List.suffix_cons c rest).trans hs

/-- The readers of values consume what they are given: of one value, of the items of an array, and
of the members of an object. -/
structure Consuming (fuel : Nat) : Prop where
  value : ∀ depth cs, Consumes depth cs Prod.snd (takeValue fuel depth cs)
  items : ∀ depth done cs, Consumes depth cs Prod.snd (takeItems fuel depth done cs)
  members : ∀ depth done cs, Consumes depth cs Prod.snd (takeMembers fuel depth done cs)

section

variable {fuel : Nat} (ih : Consuming fuel) (depth : Nat) (cs : List Char)

include ih

theorem Consuming.takeValue : Consumes depth cs Prod.snd (takeValue (fuel + 1) depth cs) := by
  unfold Json.takeValue
  split
  · next r =>
    exact ((consumes_takeString _ [] r).mono (List.suffix_cons _ _)).bind fun _ _ h => h
  · next r =>
    refine .stepDown rfl (by decide) ?_
    split
    · next rest h => exact suffix_of_skipBlanks h
    · exact (ih.members _ [] _).mono (skipBlanks_suffix r)
  · next r =>
    refine .stepDown rfl (by decide) ?_
    split
    · next rest h => exact suffix_of_skipBlanks h
    · exact (ih.items _ [] _).mono (skipBlanks_suffix r)
  · exact ⟨"null".toList, rfl⟩
  · exact ⟨"true".toList, rfl⟩
  · exact ⟨"false".toList, rfl⟩
  · exact ⟨"NaN".toList, rfl⟩
  · exact ⟨"Infinity".toList, rfl⟩
  · exact ⟨"-Infinity".toList, rfl⟩
  · exact consumes_takeNumber cs

theorem Consuming.takeItems (done : List Value) :
    Consumes depth cs Prod.snd (takeItems (fuel + 1) depth done cs) := by
  unfold Json.takeItems
  refine (ih.value depth cs).bind fun (v, rest) _ hrest => ?_
  dsimp only at hrest ⊢
  split
  · next r h =>
    have hr : skipBlanks r <:+ rest := (skipBlanks_suffix r).trans (suffix_of_skipBlanks h)
    exact (ih.items depth _ _).mono (hr.trans hrest)
  · next r h => exact (suffix_of_skipBlanks h).trans hrest
  · trivial

theorem Consuming.takeMembers (done : Entries) :
    Consumes depth cs Prod.snd (takeMembers (fuel + 1) depth done cs) := by
  unfold Json.takeMembers
  split
  · next r =>
    have hr : r <:+ '"' :: r := List.suffix_cons _ _
    refine ((consumes_takeString _ [] r).mono hr).bind fun (key, rest) _ hkey => ?_
    dsimp only at hkey ⊢
    split
    · next more hmore =>
      have hvalue : skipBlanks more <:+ '"' :: r :=
        ((skipBlanks_suffix more).trans (suffix_of_skipBlanks hmore)).trans hkey
      refine ((ih.value depth _).mono hvalue).bind fun (v, rest) _ hrest => ?_
      dsimp only at hrest ⊢
      split
      · next r' h =>
        have hr' : skipBlanks r' <:+ rest :=
          (skipBlanks_suffix r').trans (suffix_of_skipBlanks h)
        exact (ih.members depth _ _).mono (hr'.trans hrest)
      · next r' h => exact (suffix_of_skipBlanks h).trans hrest
      · trivial
    · trivial
  · trivial

end

theorem consuming (fuel : Nat) : Consuming fuel := by
  induction fuel with
  | zero => exact ⟨fun _ _ => trivial, fun _ _ _ => trivial, fun _ _ _ => trivial⟩
  | succ fuel ih =>
    constructor
    case value => exact ih.takeValue
    case items => exact fun depth done cs => ih.takeItems depth cs done
    case members => exact fun depth done cs => ih.takeMembers depth cs done

/-- A document in JSON is rejected for its size only. -/
theorem exceeds_of_read {why : Rejection} (h : read cs = .error (.rejected why)) :
    Exceeds nestingLimit cs why := by
  rw [read, bind_eq_error] at h
  rcases h with h | ⟨⟨v, rest⟩, -, h⟩
  · have hsize := (consuming (2 * cs.length + 1)).value nestingLimit (skipBlanks cs)
    rw [h] at hsize
    exact Exceeds.mono hsize (skipBlanks_suffix cs).sublist
  · dsimp only at h
    split at h
    · cases h
    · cases h

end Json

end TabPackager
