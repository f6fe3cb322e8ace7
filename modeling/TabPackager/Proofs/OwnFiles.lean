import TabPackager.Bundle.Write
import TabPackager.Proofs.Achievements
import TabPackager.Proofs.Explanations
import TabPackager.Proofs.Overlay

/-!
# Tasks on files of one's own

What a task does to a file system with files of its own laid over it: it makes one, writes one,
moves one onto another, and takes one away. Whatever is refused on the way, nothing else changes.
-/

namespace TabPackager.Task

open FileSystem

variable {cwd : Location} {now : Int} {base fs fs' : FileSystem} {own : Location → Option Nat}
  {events : List Event} {p q : Path} {loc loc' : Location} {i j : Nat}

theorem execution_createFile {result : Except Fault Unit} (ho : Overlaid base own fs)
    (h : Execution cwd now (call (.createFile p)) fs events result fs') :
    (fs' = fs ∧ ∃ f, result = .error f) ∨
      (result = .ok () ∧ ∃ loc i, base.Leads cwd p loc ∧ own loc = none ∧
        base.lookup loc = none ∧ Overlaid base (Function.update own loc (some i)) fs') := by
  obtain ⟨reply, hh, -, rfl⟩ := execution_call h
  rcases hh.cases with ⟨rfl, why, rfl⟩ | ⟨he, r, rfl⟩
  · exact .inl ⟨rfl, _, rfl⟩
  · obtain ⟨loc, hl, hn, rfl⟩ := Leads.of_create he
    have hown := ho.own_eq_none hn
    refine .inr ⟨rfl, loc, _, hl.kept ho.waysKept_base, hown, ?_, ho.create hn _ _⟩
    rw [← ho.elsewhere loc hown, hn]

theorem effect_writeFile (ho : Overlaid base own fs) (hl : base.Leads cwd p loc)
    (hi : own loc = some i) (k : Content) :
    (FileOp.writeFile p k).effect cwd now fs = .ok (fs.replaceContent i k now) := by
  obtain ⟨k', m', hf⟩ := ho.here loc i hi
  exact (hl.kept ho.waysKept).writeFile hf k now

theorem keeps_writeFile (hl : base.Leads cwd p loc) (hi : own loc = some i) (k : Content) :
    Keeps cwd now (Overlaid base own) (call (.writeFile p k)) := by
  refine Keeps.call fun fs reply fs' ho hh => ?_
  rcases hh.cases with ⟨rfl, -⟩ | ⟨he, -⟩
  · exact ho
  · rw [effect_writeFile ho hl hi, Except.ok.injEq] at he
    exact he ▸ ho.replaceContent hi k now

theorem execution_writeFile (ho : Overlaid base own fs) (hl : base.Leads cwd p loc)
    (hi : own loc = some i) {k : Content}
    (h : Execution cwd now (call (.writeFile p k)) fs events (.ok ()) fs') :
    fs'.lookup loc = some (.file i k now) := by
  obtain ⟨reply, hh, -, hr⟩ := execution_call h
  rcases hh.cases with ⟨-, why, rfl⟩ | ⟨he, -⟩
  · cases hr
  · rw [effect_writeFile ho hl hi, Except.ok.injEq] at he
    rw [← he, ho.lookup_replaceContent_self hi]

/-- Moving an own file onto another leaves the one file, with the content of the other. -/
theorem execution_moveOwn {result : Except Fault Unit} (ho : Overlaid base own fs)
    (hl : base.Leads cwd p loc) (hl' : base.Leads cwd q loc') (hi : own loc = some i)
    (hj : own loc' = some j) (hne : loc ≠ loc') {k : Content} {m : Int}
    (hk : fs.lookup loc = some (.file i k m))
    (h : Execution cwd now (call (.rename p q)) fs events result fs') :
    (fs' = fs ∧ ∃ f, result = .error f) ∨ (result = .ok () ∧
      Overlaid base (Function.update (Function.update own loc none) loc' (some i)) fs' ∧
      fs'.lookup loc' = some (.file i k m)) := by
  obtain ⟨reply, hh, -, rfl⟩ := execution_call h
  rcases hh.cases with ⟨rfl, why, rfl⟩ | ⟨he, r, rfl⟩
  · exact .inl ⟨rfl, _, rfl⟩
  · obtain ⟨k', m', hf⟩ := ho.here loc' j hj
    have hij : ∀ k m, fs.lookup loc' ≠ some (.file i k m) := by
      intro k m hf'
      rw [hf] at hf'
      cases hf'
      exact hne (ho.distinct loc loc' i hi hj)
    have hren := (hl.kept ho.waysKept).rename (hl'.kept ho.waysKept) hk hij
    rw [hf] at hren
    obtain rfl := Except.ok.inj (he.symm.trans hren)
    refine .inr ⟨rfl, ho.move hi hj k m, ?_⟩
    rw [lookup_insert hl'.ne_nil, if_pos rfl]

theorem execution_discard {result : Except Fault Unit}
    (h : Execution cwd now (Bundle.discard p) fs events result fs') (hc : Cleaned events) :
    result = .ok () ∧ lastRefusal? events = none ∧ (fs.unlink cwd p.text = .ok fs' ∨
      fs.unlink cwd p.text = .error .noEntry ∧ fs' = fs) := by
  rcases execution_bind h with ⟨reply, fs₁, xs, ys, hu, hd, rfl⟩ | ⟨f, hu, -⟩
  · obtain ⟨reply', hh, rfl, hr⟩ := execution_attempt hu
    obtain rfl := Except.ok.inj hr
    rcases hh.unlink with ⟨he, rfl⟩ | ⟨why, he, rfl, rfl⟩
    · obtain ⟨rfl, hres, rfl⟩ := execution_pure hd
      exact ⟨hres, rfl, .inl he⟩
    · have hwhy := hc (.unlink p, some why)
        (List.mem_append_left ys (List.mem_singleton.mpr rfl)) rfl
      obtain rfl : why = .noEntry := by simpa using hwhy
      obtain ⟨rfl, hres, rfl⟩ := execution_pure hd
      exact ⟨hres, rfl, .inr ⟨he, rfl⟩⟩
  · obtain ⟨reply, -, -, hr⟩ := execution_attempt hu
    cases hr

/-- Taking away a file that is one's own or not there leaves it not one's own. -/
theorem execution_discardOwn {result : Except Fault Unit} (ho : Overlaid base own fs)
    (hl : base.Leads cwd p loc) (hn : base.lookup loc = none)
    (h : Execution cwd now (Bundle.discard p) fs events result fs') (hc : Cleaned events) :
    result = .ok () ∧ Overlaid base (Function.update own loc none) fs' ∧
      ∀ l, l ≠ loc → fs'.lookup l = fs.lookup l := by
  obtain ⟨hr, -, hu⟩ := execution_discard h hc
  refine ⟨hr, ?_⟩
  rw [(hl.kept ho.waysKept).unlink] at hu
  cases hown : own loc with
  | none =>
    rw [ho.elsewhere loc hown, hn] at hu
    rw [← hown, Function.update_eq_self]
    rcases hu with hu | ⟨-, rfl⟩
    · cases hu
    · exact ⟨ho, fun _ _ => rfl⟩
  | some i =>
    obtain ⟨k, m, hf⟩ := ho.here loc i hown
    rw [hf] at hu
    rcases hu with hu | ⟨hu, -⟩
    · rw [← Except.ok.inj hu]
      exact ⟨ho.erase hown, fun l hne => by rw [lookup_erase hl.ne_nil, if_neg hne]⟩
    · cases hu

theorem explains_discard {known : Fault → Prop} (p : Path) :
    Explains cwd now known (Bundle.discard p) := by
  refine Explains.attempt_bind (fun r => Explains.pure r) fun why fs events f fs' h => ?_
  split at h
  · next he => cases he
  · obtain ⟨-, hr, -⟩ := execution_pure h
    cases hr
  · next hne he =>
    cases he
    obtain ⟨rfl, hr, -⟩ := execution_throw h
    cases hr
    refine .inr ⟨.unlink p, why, rfl, fun hc => ?_⟩
    have hwhy := hc (.unlink p, some why) (by simp) rfl
    simp only [reduceCtorEq, Option.some.injEq, false_or] at hwhy
    exact absurd hwhy hne

theorem explains_thenDiscard {known : Fault → Prop} {t : Task Unit}
    (ht : Explains cwd now known t) (p : Path) :
    Explains cwd now known (t.thenAlways (Bundle.discard p)) := by
  intro fs events f fs' h
  obtain ⟨r, fs₁, xs, r', ys, h₁, h₂, rfl, hr⟩ := execution_thenAlways h
  cases r' with
  | ok u =>
    subst hr
    exact (ht fs xs f fs₁ h₁).append_right fun hc => (execution_discard h₂ hc).2.1
  | error g =>
    cases hr
    exact (explains_discard p fs₁ ys f fs' h₂).append xs

theorem explains_tryDiscard {α : Type} {known : Fault → Prop} {t : Task α}
    (ht : Explains cwd now known t) (p : Path) :
    Explains cwd now known (tryCatch t fun f => Bundle.discard p >>= fun _ => throw f) := by
  intro fs events f fs' h
  rcases execution_tryCatch h with ⟨a, -, hr⟩ | ⟨g, fs₁, xs, ys, h₁, h₂, rfl⟩
  · cases hr
  · rcases execution_bind h₂ with ⟨u, fs₂, us, vs, hd, ht', rfl⟩ | ⟨g', hd, hr⟩
    · obtain ⟨rfl, hr, -⟩ := execution_throw ht'
      cases hr
      rw [List.append_nil]
      exact (ht fs xs f fs₁ h₁).append_right fun hc => (execution_discard hd hc).2.1
    · cases hr
      exact (explains_discard p fs₁ ys f fs' hd).append xs

end TabPackager.Task
