import TabPackager.FileSystem.Script

/-!
# Executions of scripts

A script may meet a system that refuses its operations for reasons that lie outside the tree of
files. An execution is any way in which it can go there: each operation is performed, or refused
and without effect. Only the removal of files is taken to be as reliable as the tree of files
makes it. The run of a script on its own is one of its executions.
-/

namespace TabPackager

def FileOp.isRemoval : FileOp → Bool
  | .unlink _ => true
  | _ => false

def refusal? {α : Type} : Except Refusal α → Option Refusal
  | .ok _ => none
  | .error why => some why

/-- An operation that was tried, and why it was refused if it was. -/
abbrev Event := FileOp × Option Refusal

/-- One operation: it is performed, or it is refused without effect. -/
inductive FileOp.Happens (cwd : Location) (now : Int) (fs : FileSystem) (o : FileOp) :
    Except Refusal o.Reply → FileSystem → Prop where
  | performed : Happens cwd now fs o (o.perform cwd now fs).1 (o.perform cwd now fs).2
  | refused (why : Refusal) (h : o.isRemoval = false) : Happens cwd now fs o (.error why) fs

def FileOp.effect (cwd : Location) (now : Int) (fs : FileSystem) :
    FileOp → Except Refusal FileSystem
  | .makeDirectory p => fs.makeDirectory cwd p.text
  | .createFile p => fs.createFile cwd p.text now
  | .writeFile p content => fs.writeFile cwd p.text content now
  | .rename p q => fs.rename cwd p.text q.text
  | .unlink p => fs.unlink cwd p.text
  | _ => .ok fs

namespace FileOp

variable {cwd : Location} {now : Int} {fs fs' : FileSystem} {o : FileOp}
  {reply : Except Refusal o.Reply}

theorem change_cases (fs : FileSystem) (r : Except Refusal FileSystem) :
    (∃ why, r = .error why ∧ change fs r = (.error why, fs)) ∨
      ∃ fs', r = .ok fs' ∧ change fs r = (.ok (), fs') := by
  cases r with
  | ok fs' => exact .inr ⟨fs', rfl, rfl⟩
  | error why => exact .inl ⟨why, rfl, rfl⟩

theorem perform_cases (cwd : Location) (now : Int) (fs : FileSystem) (o : FileOp) :
    (∃ why, o.perform cwd now fs = (.error why, fs)) ∨
      ∃ r, o.effect cwd now fs = .ok (o.perform cwd now fs).2 ∧
        (o.perform cwd now fs).1 = .ok r := by
  have hchange (r : Except Refusal FileSystem) :
      (∃ why, change fs r = (.error why, fs)) ∨
        ∃ u, r = .ok (change fs r).2 ∧ (change fs r).1 = .ok u := by
    rcases change_cases fs r with ⟨why, -, h⟩ | ⟨fs', hr, h⟩
    · exact .inl ⟨why, h⟩
    · exact .inr ⟨(), by rw [h, hr], by rw [h]⟩
  have hlook {α : Type} (r : Except Refusal α) :
      (∃ why, look fs r = (.error why, fs)) ∨
        ∃ a, (.ok fs : Except Refusal FileSystem) = .ok (look fs r).2 ∧
          (look fs r).1 = .ok a := by
    cases r with
    | ok a => exact .inr ⟨a, rfl, rfl⟩
    | error why => exact .inl ⟨why, rfl⟩
  cases o with
  | isFile p => exact hlook _
  | isDirectory p => exact hlook _
  | makeDirectory p => exact hchange _
  | createFile p => exact hchange _
  | examine p => exact hlook _
  | contentOf p => exact hlook _
  | writeFile p content => exact hchange _
  | rename p q => exact hchange _
  | unlink p => exact hchange _

theorem Happens.cases (h : o.Happens cwd now fs reply fs') :
    (fs' = fs ∧ ∃ why, reply = .error why) ∨
      (o.effect cwd now fs = .ok fs' ∧ ∃ r, reply = .ok r) := by
  cases h with
  | performed =>
    rcases perform_cases cwd now fs o with ⟨why, h⟩ | ⟨r, he, hr⟩
    · exact .inl ⟨by rw [h], why, by rw [h]⟩
    · exact .inr ⟨he, r, hr⟩
  | refused why h => exact .inl ⟨rfl, why, rfl⟩

theorem Happens.look (ho : o.effect cwd now fs = .ok fs)
    (h : o.Happens cwd now fs reply fs') : fs' = fs := by
  rcases h.cases with ⟨h, -⟩ | ⟨h, -⟩
  · exact h
  · exact (Except.ok.inj (ho.symm.trans h)).symm

theorem Happens.perform_eq {r : o.Reply} (h : o.Happens cwd now fs (.ok r) fs') :
    o.perform cwd now fs = (.ok r, fs') := by
  generalize hreply : (Except.ok r : Except Refusal o.Reply) = reply at h
  cases h with
  | performed => rfl
  | refused why _ => cases hreply

theorem Happens.unlink {p : Path} {reply : Except Refusal (FileOp.unlink p).Reply}
    (h : (FileOp.unlink p).Happens cwd now fs reply fs') :
    (fs.unlink cwd p.text = .ok fs' ∧ reply = .ok ()) ∨
      ∃ why, fs.unlink cwd p.text = .error why ∧ reply = .error why ∧ fs' = fs := by
  cases h with
  | performed =>
    rcases change_cases fs (fs.unlink cwd p.text) with ⟨why, hr, h⟩ | ⟨fs', hr, h⟩
    · exact .inr ⟨why, hr, by rw [perform, h], by rw [perform, h]⟩
    · exact .inl ⟨by rw [perform, h, hr], by rw [perform, h]⟩
  | refused why h => cases h

end FileOp

variable {α β : Type}

/-- The ways in which a script can go, with the events on the way, the result and the file system
at the end. -/
inductive Script.Execution (cwd : Location) (now : Int) :
    Script α → FileSystem → List Event → α → FileSystem → Prop where
  | done (a : α) (fs : FileSystem) : Execution cwd now (.done a) fs [] a fs
  | op {o : FileOp} {next : Except Refusal o.Reply → Script α} {fs fs₁ fs' : FileSystem}
      {reply : Except Refusal o.Reply} {events : List Event} {a : α}
      (first : o.Happens cwd now fs reply fs₁)
      (rest : Execution cwd now (next reply) fs₁ events a fs') :
      Execution cwd now (.op o next) fs ((o, refusal? reply) :: events) a fs'
  | say {m : Message} {next : Script α} {fs fs' : FileSystem} {events : List Event} {a : α}
      (rest : Execution cwd now next fs events a fs') :
      Execution cwd now (.say m next) fs events a fs'

namespace Script

variable {cwd : Location} {now : Int}

def events (cwd : Location) (now : Int) : Script α → FileSystem → List Event
  | done _, _ => []
  | op o next, fs =>
    (o, refusal? (o.perform cwd now fs).1) ::
      events cwd now (next (o.perform cwd now fs).1) (o.perform cwd now fs).2
  | say _ next, fs => events cwd now next fs

theorem execution_run (cwd : Location) (now : Int) (s : Script α) (fs : FileSystem) :
    Execution cwd now s fs (s.events cwd now fs) (s.run cwd now fs).1
      (s.run cwd now fs).2.1 := by
  induction s generalizing fs with
  | done a => exact .done a fs
  | op o next ih => exact .op .performed (ih _ _)
  | say m next ih => exact .say (ih fs)

theorem execution_bind {s : Script α} {f : α → Script β} {fs fs' : FileSystem}
    {events : List Event} {b : β} (h : Execution cwd now (s.bind f) fs events b fs') :
    ∃ a fs₁ before after, Execution cwd now s fs before a fs₁ ∧
      Execution cwd now (f a) fs₁ after b fs' ∧ events = before ++ after := by
  induction s generalizing fs events with
  | done a => exact ⟨a, fs, [], events, .done a fs, h, rfl⟩
  | op o next ih =>
    cases h with
    | op first rest =>
      obtain ⟨a, fs₁, before, after, h₁, h₂, rfl⟩ := ih _ rest
      exact ⟨a, fs₁, _, after, .op first h₁, h₂, rfl⟩
  | say m next ih =>
    cases h with
    | say rest =>
      obtain ⟨a, fs₁, before, after, h₁, h₂, rfl⟩ := ih rest
      exact ⟨a, fs₁, before, after, .say h₁, h₂, rfl⟩

end Script

namespace Task

variable {cwd : Location} {now : Int}

def Execution (cwd : Location) (now : Int) (t : Task α) (fs : FileSystem) (events : List Event)
    (result : Except Fault α) (fs' : FileSystem) : Prop :=
  Script.Execution cwd now t.run fs events result fs'

variable {fs fs' : FileSystem} {events : List Event} {a : α} {f : Fault}
  {result : Except Fault α}

theorem execution_run (cwd : Location) (now : Int) (t : Task α) (fs : FileSystem) :
    Execution cwd now t fs (t.run.events cwd now fs) (t.run.run cwd now fs).1
      (t.run.run cwd now fs).2.1 := Script.execution_run cwd now t.run fs

theorem execution_pure (h : Execution cwd now (pure a : Task α) fs events result fs') :
    events = [] ∧ result = .ok a ∧ fs' = fs := by
  cases h
  exact ⟨rfl, rfl, rfl⟩

theorem execution_throw (h : Execution cwd now (throw f : Task α) fs events result fs') :
    events = [] ∧ result = .error f ∧ fs' = fs := by
  cases h
  exact ⟨rfl, rfl, rfl⟩

theorem execution_say {m : Message} {result : Except Fault Unit}
    (h : Execution cwd now (say m) fs events result fs') :
    events = [] ∧ result = .ok () ∧ fs' = fs := by
  cases h with
  | say rest =>
    cases rest
    exact ⟨rfl, rfl, rfl⟩

theorem execution_call {o : FileOp} {result : Except Fault o.Reply}
    (h : Execution cwd now (call o) fs events result fs') :
    ∃ reply, o.Happens cwd now fs reply fs' ∧ events = [(o, refusal? reply)] ∧
      result = match reply with
        | .ok r => .ok r
        | .error why => .error (Fault.ofRefusal why (some o.files.1) o.files.2) := by
  cases h with
  | @op _ _ _ _ _ reply _ _ first rest =>
    cases reply with
    | ok r =>
      cases rest
      exact ⟨_, first, rfl, rfl⟩
    | error why =>
      cases rest
      exact ⟨_, first, rfl, rfl⟩

theorem execution_call_ok {o : FileOp} {r : o.Reply}
    (h : Execution cwd now (call o) fs events (.ok r) fs') :
    o.perform cwd now fs = (.ok r, fs') := by
  obtain ⟨reply, hh, -, hr⟩ := execution_call h
  cases reply with
  | error why => cases hr
  | ok r' =>
    cases hr
    exact hh.perform_eq

theorem execution_attempt {o : FileOp} {result : Except Fault (Except Refusal o.Reply)}
    (h : Execution cwd now (attempt o) fs events result fs') :
    ∃ reply, o.Happens cwd now fs reply fs' ∧ events = [(o, refusal? reply)] ∧
      result = .ok reply := by
  cases h with
  | op first rest =>
    cases rest
    exact ⟨_, first, rfl, rfl⟩

theorem execution_bind {t : Task α} {g : α → Task β} {result : Except Fault β}
    (h : Execution cwd now (t >>= g) fs events result fs') :
    (∃ a fs₁ before after, Execution cwd now t fs before (.ok a) fs₁ ∧
      Execution cwd now (g a) fs₁ after result fs' ∧ events = before ++ after) ∨
    ∃ f, Execution cwd now t fs events (.error f) fs' ∧ result = .error f := by
  obtain ⟨r, fs₁, before, after, h₁, h₂, rfl⟩ := Script.execution_bind h
  cases r with
  | ok a => exact .inl ⟨a, fs₁, before, after, h₁, h₂, rfl⟩
  | error f =>
    cases h₂
    exact .inr ⟨f, by rwa [List.append_nil], rfl⟩

theorem execution_tryCatch {t : Task α} {handler : Fault → Task α}
    (h : Execution cwd now (tryCatch t handler) fs events result fs') :
    (∃ a, Execution cwd now t fs events (.ok a) fs' ∧ result = .ok a) ∨
    ∃ f fs₁ before after, Execution cwd now t fs before (.error f) fs₁ ∧
      Execution cwd now (handler f) fs₁ after result fs' ∧ events = before ++ after := by
  obtain ⟨r, fs₁, before, after, h₁, h₂, rfl⟩ := Script.execution_bind h
  cases r with
  | ok a =>
    cases h₂
    exact .inl ⟨a, by rwa [List.append_nil], rfl⟩
  | error f => exact .inr ⟨f, fs₁, before, after, h₁, h₂, rfl⟩

/-- A task with something done after it always ends as it would, unless that comes to a fault. -/
theorem execution_thenAlways {t : Task α} {after : Task Unit}
    (h : Execution cwd now (t.thenAlways after) fs events result fs') :
    ∃ r fs₁ events₁ r' events₂, Execution cwd now t fs events₁ r fs₁ ∧
      Execution cwd now after fs₁ events₂ r' fs' ∧ events = events₁ ++ events₂ ∧
      result = match r' with
        | .ok () => r
        | .error f => .error f := by
  obtain ⟨r, fs₁, events₁, rest, h₁, h₂, rfl⟩ := Script.execution_bind h
  obtain ⟨r', fs₂, events₂, last, h₃, h₄, rfl⟩ := Script.execution_bind h₂
  cases r' with
  | ok u =>
    cases h₄
    exact ⟨_, fs₁, events₁, .ok u, events₂, h₁, h₃, by rw [List.append_nil], rfl⟩
  | error f =>
    cases h₄
    exact ⟨r, fs₁, events₁, .error f, events₂, h₁, h₃, by rw [List.append_nil], rfl⟩

end Task

end TabPackager
