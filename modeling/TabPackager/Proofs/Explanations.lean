import TabPackager.Proofs.Execution

/-!
# Explained faults

A task that fails does so for a fault of its own, or for a refused operation. Where all removals
on the way have done what they should, that is the last operation that was refused.
-/

namespace TabPackager.Task

variable {α β : Type} {cwd : Location} {now : Int}

/-- Every removal on the way has taken a file away or found none. -/
def Cleaned (events : List Event) : Prop :=
  ∀ e ∈ events, e.1.isRemoval = true → e.2 = none ∨ e.2 = some .noEntry

instance (events : List Event) : Decidable (Cleaned events) := by
  unfold Cleaned
  infer_instance

theorem Cleaned.of_append {xs ys : List Event} (h : Cleaned (xs ++ ys)) :
    Cleaned xs ∧ Cleaned ys :=
  ⟨fun e he => h e (List.mem_append_left ys he), fun e he => h e (List.mem_append_right xs he)⟩

/-- The last refusal of an operation other than a removal. -/
def lastRefusal? (events : List Event) : Option (FileOp × Refusal) :=
  (events.filterMap fun e => if e.1.isRemoval then none else e.2.map (e.1, ·)).getLast?

theorem lastRefusal?_append (xs ys : List Event) :
    lastRefusal? (xs ++ ys) = (lastRefusal? ys).or (lastRefusal? xs) := by
  rw [lastRefusal?, List.filterMap_append, List.getLast?_append]
  rfl

/-- The fault is a known one or that of a refused operation, which with clean removals is the last
one that was refused. -/
def Explained (known : Fault → Prop) (events : List Event) (f : Fault) : Prop :=
  known f ∨ ∃ o why, f = Fault.ofRefusal why (some o.files.1) o.files.2 ∧
    (Cleaned events → lastRefusal? events = some (o, why))

def Explains (cwd : Location) (now : Int) (known : Fault → Prop) (t : Task α) : Prop :=
  ∀ fs events f fs', Execution cwd now t fs events (.error f) fs' → Explained known events f

section

variable {known : Fault → Prop}

theorem Explained.of_cleaned {f : Fault} {events : List Event} (h : Explained known events f)
    (hc : Cleaned events) :
    known f ∨ ∃ o why, lastRefusal? events = some (o, why) ∧
      f = Fault.ofRefusal why (some o.files.1) o.files.2 := by
  rcases h with h | ⟨o, why, hf, ho⟩
  · exact .inl h
  · exact .inr ⟨o, why, ho hc, hf⟩

theorem Explained.append {f : Fault} {ys : List Event} (h : Explained known ys f)
    (xs : List Event) : Explained known (xs ++ ys) f := by
  rcases h with h | ⟨o, why, hf, ho⟩
  · exact .inl h
  · refine .inr ⟨o, why, hf, fun hc => ?_⟩
    rw [lastRefusal?_append, ho hc.of_append.2, Option.some_or]

theorem Explained.append_right {f : Fault} {xs : List Event} (h : Explained known xs f)
    {ys : List Event} (hys : Cleaned ys → lastRefusal? ys = none) :
    Explained known (xs ++ ys) f := by
  rcases h with h | ⟨o, why, hf, ho⟩
  · exact .inl h
  · refine .inr ⟨o, why, hf, fun hc => ?_⟩
    rw [lastRefusal?_append, hys hc.of_append.2, Option.none_or, ho hc.of_append.1]

theorem Explained.of_refusal {o : FileOp} (ho : o.isRemoval = false) (why : Refusal) :
    Explained known [(o, some why)] (Fault.ofRefusal why (some o.files.1) o.files.2) :=
  .inr ⟨o, why, rfl, fun _ => by simp [lastRefusal?, ho]⟩

theorem Explains.pure (a : α) : Explains cwd now known (pure a : Task α) := by
  intro fs events f fs' h
  obtain ⟨-, hr, -⟩ := execution_pure h
  cases hr

theorem Explains.throw {f : Fault} (hf : known f) :
    Explains cwd now known (throw f : Task α) := by
  intro fs events g fs' h
  obtain ⟨-, hr, -⟩ := execution_throw h
  cases hr
  exact .inl hf

theorem Explains.say (m : Message) : Explains cwd now known (say m) := by
  intro fs events f fs' h
  obtain ⟨-, hr, -⟩ := execution_say h
  cases hr

theorem Explains.call {o : FileOp} (ho : o.isRemoval = false) :
    Explains cwd now known (call o) := by
  intro fs events f fs' h
  obtain ⟨reply, -, rfl, hr⟩ := execution_call h
  cases reply with
  | ok r => cases hr
  | error why =>
    cases hr
    exact Explained.of_refusal ho why

/-- After an attempt that is refused, the refusal explains the faults that follow without another
one. -/
theorem Explains.attempt_bind {o : FileOp} {g : Except Refusal o.Reply → Task α}
    (hok : ∀ r, Explains cwd now known (g (.ok r)))
    (herror : ∀ why fs events f fs', Execution cwd now (g (.error why)) fs events (.error f) fs' →
      Explained known ([(o, some why)] ++ events) f) :
    Explains cwd now known (attempt o >>= g) := by
  intro fs events f fs' h
  rcases execution_bind h with ⟨reply, fs₁, xs, ys, h₁, h₂, rfl⟩ | ⟨f', h₁, -⟩
  · obtain ⟨reply', -, rfl, hr⟩ := execution_attempt h₁
    obtain rfl := Except.ok.inj hr
    cases reply with
    | ok r => exact (hok r fs₁ ys f fs' h₂).append _
    | error why => exact herror why fs₁ ys f fs' h₂
  · obtain ⟨reply, -, -, hr⟩ := execution_attempt h₁
    cases hr

theorem Explains.bind {t : Task α} {g : α → Task β} (ht : Explains cwd now known t)
    (hg : ∀ a, Explains cwd now known (g a)) : Explains cwd now known (t >>= g) := by
  intro fs events f fs' h
  rcases execution_bind h with ⟨a, fs₁, before, after, -, h₂, rfl⟩ | ⟨g, h₁, hr⟩
  · exact (hg a fs₁ _ f fs' h₂).append before
  · cases hr
    exact ht fs _ f fs' h₁

end

end TabPackager.Task
