import TabPackager.Proofs.Separator

/-!
# Vectors with more and fewer verbose flags

Two argument vectors that differ by verbose flags are split into tokens that differ by verbose flags,
or are refused alike.
-/

namespace TabPackager.CommandLine

def isVerbose (a : String) : Bool :=
  match classify a with
  | .ok (.option (.flag .verbose) _ none) => true
  | _ => false

/-- Whether the argument is an option that takes the next one as its value. -/
def takesNext (a : String) : Bool :=
  match classify a with
  | .ok t => t.awaits
  | .error _ => false

/-- The vectors differ by verbose flags only, none of which stands between an option and its
value. They have no separator. -/
inductive SameButVerbose : List String → List String → Prop
  | nil : SameButVerbose [] []
  | insert {v : String} {as bs : List String} (hv : isVerbose v = true)
      (h : SameButVerbose as bs) : SameButVerbose as (v :: bs)
  | remove {v : String} {as bs : List String} (hv : isVerbose v = true)
      (h : SameButVerbose as bs) : SameButVerbose (v :: as) bs
  | single {a : String} {as bs : List String} (hne : a ≠ "--") (ha : takesNext a = false)
      (h : SameButVerbose as bs) : SameButVerbose (a :: as) (a :: bs)
  | valued {a v : String} {as bs : List String} (ha : takesNext a = true) (hv : v ≠ "--")
      (h : SameButVerbose as bs) : SameButVerbose (a :: v :: as) (a :: v :: bs)
  | missing {a : String} (ha : takesNext a = true) : SameButVerbose [a] [a]

inductive SameTokens : List Token → List Token → Prop
  | nil : SameTokens [] []
  | insert {short : Bool} {ts us : List Token} (h : SameTokens ts us) :
      SameTokens ts (.option (.flag .verbose) short none :: us)
  | remove {short : Bool} {ts us : List Token} (h : SameTokens ts us) :
      SameTokens (.option (.flag .verbose) short none :: ts) us
  | single {t : Token} {ts us : List Token} (hne : t ≠ .separator) (ht : t.awaits = false)
      (h : SameTokens ts us) : SameTokens (t :: ts) (t :: us)
  | valued {t u : Token} {ts us : List Token} (ht : t.awaits = true)
      (h : SameTokens ts us) : SameTokens (t :: u :: ts) (t :: u :: us)
  | missing {t : Token} (ht : t.awaits = true) : SameTokens [t] [t]

/-- Both end in the same error or in results that the relation connects. -/
inductive EndsAlike {ε α : Type} (R : α → α → Prop) : Except ε α → Except ε α → Prop
  | error (e : ε) : EndsAlike R (.error e) (.error e)
  | ok {a b : α} (h : R a b) : EndsAlike R (.ok a) (.ok b)

section

variable {ε α β : Type} {R : α → α → Prop} {S : β → β → Prop} {x y : Except ε α}

theorem EndsAlike.bind (h : EndsAlike R x y) {f g : α → Except ε β}
    (hfg : ∀ a b, R a b → EndsAlike S (f a) (g b)) : EndsAlike S (x >>= f) (y >>= g) := by
  cases h with
  | error e => exact .error e
  | ok h => exact hfg _ _ h

theorem endsAlike_cases (h : EndsAlike R x y) :
    (∃ e, x = .error e ∧ y = .error e) ∨ ∃ a b, x = .ok a ∧ y = .ok b ∧ R a b := by
  cases h with
  | error e => exact .inl ⟨e, rfl, rfl⟩
  | ok h => exact .inr ⟨_, _, rfl, rfl, h⟩

theorem EndsAlike.map (h : EndsAlike R x y) {f g : α → β} (hfg : ∀ a b, R a b → S (f a) (g b)) :
    EndsAlike S (x.map f) (y.map g) := by
  cases h with
  | error e => exact .error e
  | ok h => exact .ok (hfg _ _ h)

end

theorem classify_of_isVerbose {v : String} (h : isVerbose v = true) :
    ∃ short, classify v = .ok (.option (.flag .verbose) short none) := by
  unfold isVerbose at h
  split at h
  · next short hv => exact ⟨short, hv⟩
  · cases h

theorem ne_separator_of_isVerbose {v : String} (h : isVerbose v = true) : v ≠ "--" := by
  rintro rfl
  exact absurd h (by decide +kernel)

theorem ne_separator_of_takesNext {a : String} (h : takesNext a = true) : a ≠ "--" := by
  rintro rfl
  exact absurd h (by decide +kernel)

theorem SameButVerbose.separator_not_mem {as bs : List String} (h : SameButVerbose as bs) :
    "--" ∉ as ∧ "--" ∉ bs := by
  induction h with
  | nil => exact ⟨List.not_mem_nil, List.not_mem_nil⟩
  | insert hv _ ih => simpa [Ne.symm (ne_separator_of_isVerbose hv)] using ih
  | remove hv _ ih => simpa [Ne.symm (ne_separator_of_isVerbose hv)] using ih
  | single hne _ _ ih => simpa [Ne.symm hne] using ih
  | valued ha hv _ ih => simpa [Ne.symm (ne_separator_of_takesNext ha), Ne.symm hv] using ih
  | missing ha => simpa using Ne.symm (ne_separator_of_takesNext ha)

theorem takesNext_of_classify {a : String} {t : Token} (h : classify a = .ok t) :
    takesNext a = t.awaits := by
  rw [takesNext, h]

theorem endsAlike_tokens_cons {R S : List Token → List Token → Prop} {a : String}
    {as bs : List String} (hne : a ≠ "--") (h : EndsAlike R (tokens as) (tokens bs))
    (hS : ∀ t ts us, classify a = .ok t → R ts us → S (t :: ts) (t :: us)) :
    EndsAlike S (tokens (a :: as)) (tokens (a :: bs)) := by
  cases ha : classify a with
  | error r =>
    rw [tokens, tokens, if_neg hne, if_neg hne, ha]
    exact .error r
  | ok t =>
    rw [tokens_cons hne ha, tokens_cons hne ha]
    exact h.map (hS t · · ha)

/-- The vectors are refused for the same argument, or their classes differ by verbose flags. -/
theorem SameButVerbose.endsAlike_tokens {as bs : List String} (h : SameButVerbose as bs) :
    EndsAlike SameTokens (tokens as) (tokens bs) := by
  induction h with
  | nil => exact .ok .nil
  | @insert v as bs hv _ ih =>
    obtain ⟨short, hc⟩ := classify_of_isVerbose hv
    rw [tokens_cons (ne_separator_of_isVerbose hv) hc]
    generalize tokens as = x, tokens bs = y at ih ⊢
    cases ih with
    | error e => exact .error e
    | ok h => exact .ok h.insert
  | @remove v as bs hv _ ih =>
    obtain ⟨short, hc⟩ := classify_of_isVerbose hv
    rw [tokens_cons (ne_separator_of_isVerbose hv) hc]
    generalize tokens as = x, tokens bs = y at ih ⊢
    cases ih with
    | error e => exact .error e
    | ok h => exact .ok h.remove
  | @single a as bs hne ha _ ih =>
    refine endsAlike_tokens_cons hne ih fun t ts us ht h => .single ?_ ?_ h
    · obtain rfl | rfl | ⟨o, short, attached, rfl⟩ := classify_cases ht <;> simp
    · rwa [takesNext_of_classify ht] at ha
  | @valued a v as bs ha hv _ ih =>
    have hvalue : EndsAlike (fun ts us => ∃ u ts' us', ts = u :: ts' ∧ us = u :: us' ∧
        SameTokens ts' us') (tokens (v :: as)) (tokens (v :: bs)) :=
      endsAlike_tokens_cons hv ih fun u ts us _ h => ⟨u, ts, us, rfl, rfl, h⟩
    refine endsAlike_tokens_cons (ne_separator_of_takesNext ha) hvalue ?_
    rintro t _ _ ht ⟨u, ts, us, rfl, rfl, h⟩
    rw [takesNext_of_classify ht] at ha
    exact .valued ha h
  | @missing a ha =>
    have hnone : EndsAlike (fun ts us => ts = [] ∧ us = []) (tokens []) (tokens []) :=
      .ok ⟨rfl, rfl⟩
    refine endsAlike_tokens_cons (ne_separator_of_takesNext ha) hnone ?_
    rintro t _ _ ht ⟨rfl, rfl⟩
    rw [takesNext_of_classify ht] at ha
    exact .missing ha

end TabPackager.CommandLine
