import TabPackager.Proofs.Execution

/-!
# What a task achieves

A property of file systems outlasts a task if it still holds however the task goes, and a task
achieves a property if that holds whenever it succeeds. Both are put together from what the parts
of a task do.
-/

namespace TabPackager.Task

variable {α β : Type} {cwd : Location} {now : Int}

/-- The property of file systems outlasts the task, however it goes. -/
def Keeps (cwd : Location) (now : Int) (I : FileSystem → Prop) (t : Task α) : Prop :=
  ∀ fs events result fs', I fs → Execution cwd now t fs events result fs' → I fs'

section

variable {I : FileSystem → Prop}

theorem Keeps.pure (a : α) : Keeps cwd now I (pure a : Task α) := by
  intro fs events result fs' hi h
  obtain ⟨-, -, rfl⟩ := execution_pure h
  exact hi

theorem Keeps.throw (f : Fault) : Keeps cwd now I (throw f : Task α) := by
  intro fs events result fs' hi h
  obtain ⟨-, -, rfl⟩ := execution_throw h
  exact hi

theorem Keeps.say (m : Message) : Keeps cwd now I (say m) := by
  intro fs events result fs' hi h
  obtain ⟨-, -, rfl⟩ := execution_say h
  exact hi

theorem Keeps.call {o : FileOp}
    (ho : ∀ fs reply fs', I fs → o.Happens cwd now fs reply fs' → I fs') :
    Keeps cwd now I (call o) := by
  intro fs events result fs' hi h
  obtain ⟨reply, hh, -, -⟩ := execution_call h
  exact ho fs reply fs' hi hh

theorem Keeps.attempt {o : FileOp}
    (ho : ∀ fs reply fs', I fs → o.Happens cwd now fs reply fs' → I fs') :
    Keeps cwd now I (attempt o) := by
  intro fs events result fs' hi h
  obtain ⟨reply, hh, -, -⟩ := execution_attempt h
  exact ho fs reply fs' hi hh

theorem Keeps.look {o : FileOp} (ho : ∀ fs, o.effect cwd now fs = .ok fs) :
    Keeps cwd now I (Task.call o) :=
  Keeps.call fun fs _ _ hi hh => by rwa [hh.look (ho fs)]

theorem Keeps.bind {t : Task α} {g : α → Task β} (ht : Keeps cwd now I t)
    (hg : ∀ a, Keeps cwd now I (g a)) : Keeps cwd now I (t >>= g) := by
  intro fs events result fs' hi h
  rcases execution_bind h with ⟨a, fs₁, _, _, h₁, h₂, -⟩ | ⟨f, h₁, -⟩
  · exact hg a fs₁ _ _ fs' (ht fs _ _ fs₁ hi h₁) h₂
  · exact ht fs _ _ fs' hi h₁

end

/-- From a file system with the first property, the task comes to a result and a file system with
the second whenever it succeeds. -/
def Achieves (cwd : Location) (now : Int) (P : FileSystem → Prop) (t : Task α)
    (Q : α → FileSystem → Prop) : Prop :=
  ∀ fs events a fs', P fs → Execution cwd now t fs events (.ok a) fs' → Q a fs'

section

variable {P I : FileSystem → Prop} {Q : α → FileSystem → Prop} {R : β → FileSystem → Prop}

theorem Keeps.achieves {t : Task α} (ht : Keeps cwd now I t) :
    Achieves cwd now I t fun _ => I :=
  fun fs events a fs' hi h => ht fs events (.ok a) fs' hi h

theorem Achieves.pure {a : α} (h : ∀ fs, P fs → Q a fs) :
    Achieves cwd now P (pure a : Task α) Q := by
  intro fs events a' fs' hp hx
  obtain ⟨-, hr, rfl⟩ := execution_pure hx
  cases hr
  exact h fs' hp

theorem Achieves.imp {t : Task α} (ht : Achieves cwd now P t Q)
    {Q' : α → FileSystem → Prop} (hq : ∀ a fs, Q a fs → Q' a fs) : Achieves cwd now P t Q' :=
  fun fs events a fs' hp h => hq a fs' (ht fs events a fs' hp h)

theorem Achieves.of_imp {t : Task α} (ht : Achieves cwd now P t Q) (hp : ∀ fs, I fs → P fs) :
    Achieves cwd now I t Q :=
  fun fs events a fs' hi h => ht fs events a fs' (hp fs hi) h

theorem Achieves.given {t : Task α} {p : Prop} (h : p → Achieves cwd now P t Q) :
    Achieves cwd now (fun fs => P fs ∧ p) t Q :=
  fun fs events a fs' hp hx => h hp.2 fs events a fs' hp.1 hx

theorem Achieves.throw (f : Fault) : Achieves cwd now P (throw f : Task α) Q := by
  intro fs events a fs' hp hx
  obtain ⟨-, hr, -⟩ := execution_throw hx
  cases hr

theorem Achieves.call {o : FileOp} {Q : o.Reply → FileSystem → Prop}
    (h : ∀ fs r fs', P fs → o.perform cwd now fs = (.ok r, fs') → Q r fs') :
    Achieves cwd now P (call o) Q :=
  fun fs _ r fs' hp hx => h fs r fs' hp (execution_call_ok hx)

theorem Achieves.bind {t : Task α} {g : α → Task β} (ht : Achieves cwd now P t Q)
    (hg : ∀ a, Achieves cwd now (Q a) (g a) R) : Achieves cwd now P (t >>= g) R := by
  intro fs events b fs' hp h
  obtain ⟨a, fs₁, _, _, h₁, h₂, -⟩ := (execution_bind h).resolve_right (by simp)
  exact hg a fs₁ _ b fs' (ht fs _ a fs₁ hp h₁) h₂

theorem Achieves.tryCatch {t : Task α} {handler : Fault → Task α} (ht : Achieves cwd now P t Q)
    (hh : ∀ f, Achieves cwd now (fun _ => True) (handler f) Q) :
    Achieves cwd now P (tryCatch t handler) Q := by
  intro fs events a fs' hp h
  rcases execution_tryCatch h with ⟨a', h₁, hr⟩ | ⟨f, fs₁, _, _, -, h₂, -⟩
  · cases hr
    exact ht fs _ a fs' hp h₁
  · exact hh f fs₁ _ a fs' trivial h₂

/-- Whatever is done after a task always comes on top of what the task achieves. -/
theorem Achieves.thenAlways {t : Task α} {after : Task Unit} (ht : Achieves cwd now P t Q)
    (ha : ∀ a, Keeps cwd now (Q a) after) : Achieves cwd now P (t.thenAlways after) Q := by
  intro fs events a fs' hp h
  obtain ⟨r, fs₁, _, r', _, h₁, h₂, -, hr⟩ := execution_thenAlways h
  cases r' with
  | error f => cases hr
  | ok u =>
    subst hr
    exact ha a fs₁ _ _ fs' (ht fs _ a fs₁ hp h₁) h₂

end

end TabPackager.Task
