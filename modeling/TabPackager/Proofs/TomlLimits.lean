import TabPackager.Proofs.TomlScalarLimits

/-!
# What the reader of TOML rejects

The reader of TOML, like the one of JSON, rejects a document that keeps the rules only for its
size.
-/

namespace TabPackager.Toml

open Config

variable {α β : Type} {depth : Nat} {cs cs' : List Char} {rest : α → List Char}
  {rest' : β → List Char}

theorem consumes_takeName (cs : List Char) : Consumes depth cs Prod.snd (takeName cs) := by
  unfold takeName
  split
  · next rest =>
    exact ((consumes_takeLiteral rest).mono (List.suffix_cons _ _)).map fun _ => id
  · next rest =>
    exact ((consumes_takeBasic false _ [] rest).mono (List.suffix_cons _ _)).map fun _ => id
  · split
    · trivial
    · exact List.dropWhile_suffix _

theorem consumes_takeKey (fuel : Nat) (cs : List Char) :
    Consumes depth cs Prod.snd (takeKey fuel cs) := by
  induction fuel generalizing cs with
  | zero => trivial
  | succ fuel ih =>
    unfold takeKey
    refine (consumes_takeName cs).bind fun (name, rest) _ hrest => ?_
    have hs := (skipSpaces_suffix rest).trans hrest
    dsimp only
    split
    · next more h =>
      rw [h] at hs
      have hmore : skipSpaces more <:+ cs :=
        ((skipSpaces_suffix more).trans (List.suffix_cons _ _)).trans hs
      exact ((ih _).mono hmore).bind fun _ _ h => h
    · exact hs

theorem consumes_skipFiller (fuel : Nat) (cs : List Char) :
    Consumes depth cs id (skipFiller fuel cs) := by
  induction fuel generalizing cs with
  | zero => trivial
  | succ fuel ih =>
    have hs : cs.dropWhile isSpaceOrLine <:+ cs := List.dropWhile_suffix _
    unfold skipFiller
    split
    · next rest h =>
      rw [h] at hs
      exact ((consumes_skipComment _).mono hs).bind fun after _ hafter => (ih after).mono hafter
    · exact hs

theorem consumes_skipAllFiller (cs : List Char) : Consumes depth cs id (skipAllFiller cs) :=
  consumes_skipFiller _ cs

theorem consumes_allowed (o : Option α) (h : cs' <:+ cs) :
    Consumes depth cs (fun _ => cs') (allowed o) := by
  cases o with
  | none => trivial
  | some a => exact h

/-- The readers of values consume what they are given: of one value, of the items of an array, of
the pairs of an inline table, and of one pair. -/
structure Consuming (fuel : Nat) : Prop where
  value : ∀ depth cs, Consumes depth cs Prod.snd (takeValue fuel depth cs)
  items : ∀ depth done cs, Consumes depth cs Prod.snd (takeItems fuel depth done cs)
  inline : ∀ depth es frozen cs, Consumes depth cs Prod.snd (takeInline fuel depth es frozen cs)
  pair : ∀ depth cs, Consumes depth cs (fun r => r.2.2) (takePair fuel depth cs)

section

variable {fuel : Nat} (ih : Consuming fuel) (depth : Nat) (cs : List Char)

include ih

theorem Consuming.takeValue : Consumes depth cs Prod.snd (takeValue (fuel + 1) depth cs) := by
  unfold Toml.takeValue
  split
  · next r => exact (consumes_takeString ('"' :: r)).map fun _ => id
  · next r => exact (consumes_takeString ('\'' :: r)).map fun _ => id
  · exact ⟨"true".toList, rfl⟩
  · exact ⟨"false".toList, rfl⟩
  · next r =>
    refine .stepDown rfl (by decide) ?_
    refine (consumes_skipAllFiller r).bind fun after _ hafter => ?_
    split
    · next rest => exact (List.suffix_cons _ _).trans hafter
    · exact (ih.items _ [] after).mono hafter
  · next r =>
    have hr := skipSpaces_suffix r
    refine .stepDown rfl (by decide) ?_
    split
    · next rest h =>
      rw [h] at hr
      exact (List.suffix_cons _ _).trans hr
    · exact (ih.inline _ [] [] _).mono hr
  · exact consumes_takeScalar cs

theorem Consuming.takeItems (done : List Value) :
    Consumes depth cs Prod.snd (takeItems (fuel + 1) depth done cs) := by
  unfold Toml.takeItems
  refine (ih.value depth cs).bind ?_
  rintro ⟨v, rest⟩ _ hrest
  refine ((consumes_skipAllFiller rest).mono hrest).bind fun after _ hafter => ?_
  dsimp only [id] at hafter
  split
  · next r => exact (List.suffix_cons _ _).trans hafter
  · next r _ =>
    have hr : r <:+ cs := (List.suffix_cons _ _).trans hafter
    refine ((consumes_skipAllFiller r).mono hr).bind fun after _ hafter => ?_
    split
    · exact (List.suffix_cons _ _).trans hafter
    · exact (ih.items depth _ after).mono hafter
  · trivial

theorem Consuming.takeInline (es : Entries) (frozen : List Key) :
    Consumes depth cs Prod.snd (takeInline (fuel + 1) depth es frozen cs) := by
  unfold Toml.takeInline
  refine (ih.pair depth cs).bind ?_
  rintro ⟨key, v, rest⟩ _ hrest
  dsimp only at hrest ⊢
  split
  · trivial
  · refine (consumes_allowed _ hrest).bind fun es _ _ => ?_
    have hs := (skipSpaces_suffix rest).trans hrest
    split
    · next r h =>
      rw [h] at hs
      exact (List.suffix_cons _ _).trans hs
    · next r h =>
      rw [h] at hs
      have hr : skipSpaces r <:+ cs :=
        ((skipSpaces_suffix r).trans (List.suffix_cons _ _)).trans hs
      exact (ih.inline depth _ _ _).mono hr
    · trivial

theorem Consuming.takePair :
    Consumes depth cs (fun r => r.2.2) (takePair (fuel + 1) depth cs) := by
  unfold Toml.takePair
  refine (consumes_takeKey _ cs).bind ?_
  rintro ⟨key, rest⟩ _ hrest
  dsimp only at hrest ⊢
  split
  · next r _ =>
    have hr : skipSpaces r <:+ cs :=
      ((skipSpaces_suffix r).trans (List.suffix_cons _ _)).trans hrest
    exact ((ih.value depth _).mono hr).bind fun _ _ h => h
  · trivial

end

theorem consuming (fuel : Nat) : Consuming fuel := by
  induction fuel with
  | zero =>
    constructor
    case value => exact fun _ _ => by rw [takeValue]; trivial
    case items => exact fun _ _ _ => by rw [takeItems]; trivial
    case inline => exact fun _ _ _ _ => by rw [takeInline]; trivial
    case pair => exact fun _ _ => by rw [takePair]; trivial
  | succ fuel ih =>
    constructor
    case value => exact ih.takeValue
    case items => exact fun depth done cs => ih.takeItems depth cs done
    case inline => exact fun depth es frozen cs => ih.takeInline depth cs es frozen
    case pair => exact ih.takePair

theorem consumes_takeLineEnd (cs : List Char) : Consumes depth cs id (takeLineEnd cs) := by
  unfold takeLineEnd
  refine ((consumes_skipComment _).mono (skipSpaces_suffix cs)).bind fun after _ hafter => ?_
  split
  · exact List.nil_suffix
  · exact (List.suffix_cons _ _).trans hafter
  · trivial

section

variable {t : Tables} {header key : Key} {v : Value} (h : cs' <:+ cs)

include h

theorem consumes_openTable : Consumes depth cs (fun _ => cs') (t.openTable key) := by
  unfold Tables.openTable
  split
  · trivial
  · exact (consumes_allowed _ h).bind fun _ _ h => h

theorem consumes_openListItem : Consumes depth cs (fun _ => cs') (t.openListItem key) := by
  unfold Tables.openListItem
  split
  · trivial
  · exact (consumes_allowed _ h).bind fun _ _ h => h

theorem consumes_addPair : Consumes depth cs (fun _ => cs') (t.addPair header key v) := by
  unfold Tables.addPair
  dsimp only
  split
  · trivial
  · split
    · trivial
    · exact (consumes_allowed _ h).bind fun _ _ h => h

end

theorem consumes_takeStatements (fuel : Nat) (t : Tables) (header : Key) (cs : List Char) :
    Consumes nestingLimit cs (fun _ => []) (takeStatements fuel t header cs) := by
  induction fuel generalizing t header cs with
  | zero => trivial
  | succ fuel ih =>
    have hs := skipSpaces_suffix cs
    unfold takeStatements
    split
    · exact List.nil_suffix
    · next rest h =>
      rw [h] at hs
      exact (ih _ _ rest).mono ((List.suffix_cons _ _).trans hs)
    · next rest h =>
      rw [h] at hs
      refine ((consumes_takeLineEnd _).mono hs).bind fun after _ hafter => ?_
      exact (ih _ _ after).mono hafter
    · next rest h =>
      rw [h] at hs
      have hrest : skipSpaces rest <:+ cs :=
        ((skipSpaces_suffix rest).trans ⟨['[', '['], rfl⟩).trans hs
      refine ((consumes_takeKey _ _).mono hrest).bind fun (key, after) _ hafter => ?_
      refine (consumes_openListItem hafter).bind fun t _ _ => ?_
      dsimp only at hafter ⊢
      split
      · next after _ _ =>
        have hafter : after <:+ cs := List.IsSuffix.trans ⟨[']', ']'], rfl⟩ hafter
        refine ((consumes_takeLineEnd after).mono hafter).bind fun rest _ h => ?_
        exact (ih _ _ rest).mono h
      · trivial
    · next rest _ h =>
      rw [h] at hs
      have hrest : skipSpaces rest <:+ cs :=
        ((skipSpaces_suffix rest).trans (List.suffix_cons _ _)).trans hs
      refine ((consumes_takeKey _ _).mono hrest).bind fun (key, after) _ hafter => ?_
      refine (consumes_openTable hafter).bind fun t _ _ => ?_
      dsimp only at hafter ⊢
      split
      · next after _ _ =>
        have hafter : after <:+ cs := (List.suffix_cons _ _).trans hafter
        refine ((consumes_takeLineEnd after).mono hafter).bind fun rest _ h => ?_
        exact (ih _ _ rest).mono h
      · trivial
    · refine (((consuming _).pair _ _).mono hs).bind fun (key, v, after) _ hafter => ?_
      refine (consumes_addPair hafter).bind fun t _ _ => ?_
      refine ((consumes_takeLineEnd after).mono hafter).bind fun rest _ h => ?_
      exact (ih _ _ rest).mono h

theorem dropReturns_sublist (cs : List Char) : (dropReturns cs).Sublist cs := by
  fun_induction dropReturns cs with
  | case1 cs ih => exact (ih.cons_cons _).cons _
  | case2 c cs _ ih => exact ih.cons_cons _
  | case3 => exact .slnil

/-- A document in TOML is rejected for its size only. -/
theorem exceeds_of_read {why : Rejection} (h : read cs = .error (.rejected why)) :
    Exceeds nestingLimit cs why := by
  rw [read, bind_eq_error] at h
  rcases h with h | ⟨t, -, h⟩
  · have hsize := consumes_takeStatements ((dropReturns cs).length + 2) {} [] (dropReturns cs)
    rw [h] at hsize
    exact Exceeds.mono hsize (dropReturns_sublist cs)
  · cases h

end TabPackager.Toml
