import TabPackager.Bundle.Write
import TabPackager.Proofs.Achievements
import TabPackager.Proofs.Explanations
import TabPackager.Proofs.KeptEntries

/-!
# Making the directories of a path

Making a directory and the missing ones above it adds directories at places to which the path or
a path above it leads, and changes nothing else, however far it comes.
-/

namespace TabPackager

/-- The first path is the second or lies above it by text. -/
inductive Path.Above : Path → Path → Prop where
  | self (p : Path) : Above p p
  | parent {p q : Path} (h : Above p q) : Above p.parent q

namespace FileSystem

/-- The second file system has the entries of the first, and otherwise only directories to which
the path or paths above it lead. -/
def DirectoriesMade (cwd : Location) (top : Path) (before after : FileSystem) : Prop :=
  ∀ loc, after.lookup loc = before.lookup loc ∨
    before.lookup loc = none ∧ after.lookup loc = some .directory ∧
      ∃ p, p.Above top ∧ after.Leads cwd p loc

variable {cwd : Location} {top p : Path} {a b fs fs' : FileSystem}

theorem DirectoriesMade.refl (cwd : Location) (top : Path) (fs : FileSystem) :
    DirectoriesMade cwd top fs fs := fun _ => .inl rfl

theorem DirectoriesMade.entriesKept (h : DirectoriesMade cwd top a b) : EntriesKept a b := by
  intro loc e he
  rcases h loc with hl | ⟨hn, -, -⟩
  · rw [hl, he]
  · rw [hn] at he
    cases he

theorem DirectoriesMade.congr {c : FileSystem} (h : DirectoriesMade cwd top a b)
    (hc : ∀ loc, c.lookup loc = b.lookup loc) : DirectoriesMade cwd top a c := by
  intro loc
  rw [hc loc]
  rcases h loc with hl | ⟨hn, hd, q, hq, hlq⟩
  · exact .inl hl
  · exact .inr ⟨hn, hd, q, hq, hlq.kept fun l e he _ => by rw [hc l, he]⟩

theorem DirectoriesMade.insert (h : DirectoriesMade cwd top a b) (hp : p.Above top)
    {loc : Location} (hl : b.Leads cwd p loc) (hn : b.lookup loc = none) :
    DirectoriesMade cwd top a (b.insert loc .directory) := by
  have hk := (entriesKept_insert hl.ne_nil hn .directory).waysKept
  intro l
  rw [lookup_insert hl.ne_nil]
  by_cases hll : l = loc
  · subst hll
    rw [if_pos rfl]
    refine .inr ⟨?_, rfl, p, hp, hl.kept hk⟩
    rcases h l with hl' | ⟨hn', -, -⟩
    · rw [← hl', hn]
    · exact hn'
  · rw [if_neg hll]
    rcases h l with hl' | ⟨hn', hd, q, hq, hlq⟩
    · exact .inl hl'
    · exact .inr ⟨hn', hd, q, hq, hlq.kept hk⟩

end FileSystem

namespace Bundle

open FileSystem TabPackager.Task

variable {cwd : Location} {now : Int}

def settle (p : Path) (why : Refusal) : Task Unit := do
  let there ← if why = .nulByte then pure false else Task.call (.isDirectory p)
  if there then pure () else throw (Fault.ofRefusal why (some p.text))

/-- Makes a directory, with something else to be done when the one above it is missing. -/
def tryDirectory (p : Path) (missing : Task Unit) : Task Unit :=
  Task.attempt (.makeDirectory p) >>= fun
    | .ok () => pure ()
    | .error .noEntry => missing
    | .error why => settle p why

theorem makeDirectories_zero (p : Path) :
    makeDirectories 0 p =
      tryDirectory p (throw (Fault.ofRefusal .noEntry (some p.text))) := by
  unfold makeDirectories tryDirectory
  rfl

theorem makeDirectories_succ (depth : Nat) (p : Path) :
    makeDirectories (depth + 1) p = tryDirectory p
      (makeDirectories depth p.parent >>= fun _ =>
        tryDirectory p (throw (Fault.ofRefusal .noEntry (some p.text)))) := by
  rw [makeDirectories.eq_def]
  unfold tryDirectory
  rfl

theorem keeps_settle (I : FileSystem → Prop) (p : Path) (why : Refusal) :
    Keeps cwd now I (settle p why) := by
  have hthen (there : Bool) : Keeps cwd now I
      (if there then pure () else throw (Fault.ofRefusal why (some p.text)) : Task Unit) := by
    split
    · exact Keeps.pure ()
    · exact Keeps.throw _
  unfold settle
  split
  · exact Keeps.bind (Keeps.pure false) hthen
  · exact Keeps.bind (Keeps.look fun _ => rfl) hthen

section

variable {I : FileSystem → Prop} {A : Path → Prop}
  (hI : ∀ fs p fs', A p → I fs → fs.makeDirectory cwd p.text = .ok fs' → I fs')

include hI

theorem keeps_tryDirectory {p : Path} (hp : A p) {missing : Task Unit}
    (hm : Keeps cwd now I missing) : Keeps cwd now I (tryDirectory p missing) := by
  refine Keeps.bind (Keeps.attempt fun fs reply fs' hi hh => ?_) fun reply => ?_
  · rcases hh.cases with ⟨rfl, -⟩ | ⟨he, -⟩
    · exact hi
    · exact hI fs p fs' hp hi he
  · split
    · exact Keeps.pure ()
    · exact hm
    · exact keeps_settle _ p _

/-- What one new directory leaves as it is, any number of them do. -/
theorem keeps_directories (hA : ∀ p, A p → A p.parent) (depth : Nat) {p : Path} (hp : A p) :
    Keeps cwd now I (makeDirectories depth p) := by
  induction depth generalizing p with
  | zero =>
    rw [makeDirectories_zero]
    exact keeps_tryDirectory hI hp (Keeps.throw _)
  | succ depth ih =>
    rw [makeDirectories_succ]
    refine keeps_tryDirectory hI hp (Keeps.bind (ih (hA p hp)) fun _ => ?_)
    exact keeps_tryDirectory hI hp (Keeps.throw _)

end

theorem keeps_makeDirectories (base : FileSystem) {top : Path} (depth : Nat) {p : Path}
    (hp : p.Above top) :
    Keeps cwd now (DirectoriesMade cwd top base) (makeDirectories depth p) := by
  refine keeps_directories (A := (·.Above top)) ?_ (fun _ => .parent) depth hp
  intro fs p fs' hp hi he
  obtain ⟨loc, hl, hn, rfl⟩ := Leads.of_create he
  exact hi.insert hp hl hn

variable {known : Fault → Prop}

theorem explained_settle {p : Path} {why : Refusal} {fs fs' : FileSystem} {events : List Event}
    {f : Fault} (h : Task.Execution cwd now (settle p why) fs events (.error f) fs') :
    Explained known ([(.makeDirectory p, some why)] ++ events) f := by
  have hthen {there : Bool} {fs : FileSystem} {events : List Event}
      (h : Task.Execution cwd now
        (if there then pure () else throw (Fault.ofRefusal why (some p.text)) : Task Unit)
        fs events (.error f) fs') :
      events = [] ∧ f = Fault.ofRefusal why (some p.text) := by
    cases there with
    | true =>
      obtain ⟨-, hr, -⟩ := execution_pure h
      cases hr
    | false =>
      obtain ⟨he, hr, -⟩ := execution_throw h
      exact ⟨he, Except.error.inj hr⟩
  unfold settle at h
  split at h
  · obtain ⟨rfl, rfl⟩ := @hthen false fs events h
    exact Explained.of_refusal rfl why
  · rcases execution_bind h with ⟨there, fs₁, xs, ys, h₁, h₂, rfl⟩ | ⟨g, h₁, hg⟩
    · obtain ⟨rfl, rfl⟩ := hthen h₂
      obtain ⟨reply, -, rfl, hr⟩ := execution_call h₁
      cases reply with
      | ok r => exact Explained.append_right (Explained.of_refusal rfl why) fun _ => rfl
      | error why => cases hr
    · cases hg
      exact (Explains.call rfl fs events f fs' h₁).append _

theorem explains_tryDirectory {p : Path} {missing : Task Unit}
    (hm : ∀ fs events f fs', Task.Execution cwd now missing fs events (.error f) fs' →
      Explained known ([(.makeDirectory p, some .noEntry)] ++ events) f) :
    Explains cwd now known (tryDirectory p missing) := by
  refine Explains.attempt_bind (fun r => Explains.pure r) fun why fs events f fs' h => ?_
  split at h
  · next he => cases he
  · next he =>
    cases he
    exact hm fs events f fs' h
  · next he =>
    cases he
    exact explained_settle h

theorem explains_tryDirectory_throw (p : Path) :
    Explains cwd now known
      (tryDirectory p (throw (Fault.ofRefusal .noEntry (some p.text)))) := by
  refine explains_tryDirectory fun fs events f fs' h => ?_
  obtain ⟨rfl, hr, -⟩ := execution_throw h
  cases hr
  exact Explained.of_refusal rfl .noEntry

theorem explains_makeDirectories (depth : Nat) (p : Path) :
    Explains cwd now known (makeDirectories depth p) := by
  induction depth generalizing p with
  | zero =>
    rw [makeDirectories_zero]
    exact explains_tryDirectory_throw p
  | succ depth ih =>
    rw [makeDirectories_succ]
    refine explains_tryDirectory fun fs events f fs' h => ?_
    exact (Explains.bind (ih p.parent) (fun _ => explains_tryDirectory_throw p)
      fs events f fs' h).append _

end Bundle

end TabPackager
