import TabPackager.Proofs.BundleCalls

/-!
# Failure atomicity of bundles

Over a whole history of calls, each of which puts an archive at its target or leaves everything as
it was but for new directories, an entry that is not at the target of a call that returned is never
touched.
-/

namespace TabPackager.Bundle

open FileSystem TabPackager.Task

structure Attempt where
  request : Request
  before : FileSystem
  events : List Event
  result : Except Fault Unit
  after : FileSystem

/-- Calls made one after the other, each going in one of its ways. -/
inductive History (cwd : Path) : FileSystem → List Attempt → FileSystem → Prop
  | nil (fs : FileSystem) : History cwd fs [] fs
  | cons {a : Attempt} {attempts : List Attempt} {after : FileSystem}
      (first : Task.Execution cwd.parts a.request.now (a.request.task cwd) a.before a.events
        a.result a.after)
      (rest : History cwd a.after attempts after) : History cwd a.before (a :: attempts) after

namespace Attempt

/-- The names of the files beside the target are drawn as the system does it, and the call can
take its own files away. -/
def Fair (a : Attempt) : Prop := a.request.scratch.Drawn ∧ Cleaned a.events

def Lawful (cwd : Location) (a : Attempt) : Prop :=
  a.request.Lawful cwd a.before a.events a.result a.after

/-- The call has returned and put its archive at the place. -/
def Placed (cwd : Location) (a : Attempt) (loc : Location) : Prop :=
  a.result = .ok () ∧ ∃ format mid i,
    DirectoriesMade cwd a.request.target.parent a.before mid ∧
      a.request.Placed cwd format mid a.after loc i

theorem Lawful.lookup {cwd : Location} {a : Attempt} (h : a.Lawful cwd) (loc : Location) :
    a.after.lookup loc = a.before.lookup loc ∨
      a.before.lookup loc = none ∧ a.after.lookup loc = some .directory ∨ a.Placed cwd loc := by
  cases hr : a.result with
  | error f =>
    rcases h.failed f hr loc with hl | ⟨hn, hd, -⟩
    · exact .inl hl
    · exact .inr (.inl ⟨hn, hd⟩)
  | ok u =>
    obtain ⟨format, mid, place, i, hmade, hp⟩ := h.returned hr
    by_cases hl : loc = place
    · subst hl
      exact .inr (.inr ⟨hr, format, mid, i, hmade, hp⟩)
    · rw [hp.elsewhere loc hl]
      rcases hmade loc with hl' | ⟨hn, hd, -⟩
      · exact .inl hl'
      · exact .inr (.inl ⟨hn, hd⟩)

end Attempt

def Request.attempt (cwd : Path) (q : Request) (fs : FileSystem) : Attempt where
  request := q
  before := fs
  events := (q.task cwd).run.events cwd.parts q.now fs
  result := ((q.task cwd).run.run cwd.parts q.now fs).1
  after := ((q.task cwd).run.run cwd.parts q.now fs).2.1

def attemptsOf (cwd : Path) : List Request → FileSystem → List Attempt
  | [], _ => []
  | q :: qs, fs => q.attempt cwd fs :: attemptsOf cwd qs (q.attempt cwd fs).after

theorem Request.execution_attempt (cwd : Path) (q : Request) (fs : FileSystem) :
    Task.Execution cwd.parts q.now (q.task cwd) fs (q.attempt cwd fs).events
      (q.attempt cwd fs).result (q.attempt cwd fs).after := by
  have h := execution_run cwd.parts q.now (q.task cwd) fs
  unfold Request.attempt
  generalize q.task cwd = t at h ⊢
  exact h

theorem history_attemptsOf (cwd : Path) (qs : List Request) (fs : FileSystem) :
    ∃ fs', History cwd fs (attemptsOf cwd qs fs) fs' := by
  induction qs generalizing fs with
  | nil => exact ⟨fs, .nil fs⟩
  | cons q qs ih =>
    obtain ⟨fs', h⟩ := ih (q.attempt cwd fs).after
    exact ⟨fs', .cons (a := q.attempt cwd fs) (q.execution_attempt cwd fs) h⟩

variable {cwd : Path} {before after : FileSystem} {attempts : List Attempt}

theorem History.lawful (h : History cwd before attempts after) (hf : ∀ a ∈ attempts, a.Fair) :
    ∀ a ∈ attempts, a.Lawful cwd.parts := by
  induction h with
  | nil fs => simp
  | cons first rest ih =>
    rw [List.forall_mem_cons] at hf ⊢
    exact ⟨Request.lawful hf.1.1 first hf.1.2, ih hf.2⟩

/-- What stands at a place at the end has always stood there, or is a new directory, or has been
put there by a call that returned. -/
theorem History.lookup (h : History cwd before attempts after) (hf : ∀ a ∈ attempts, a.Fair)
    (loc : Location) :
    after.lookup loc = before.lookup loc ∨
      before.lookup loc = none ∧ after.lookup loc = some .directory ∨
      ∃ a ∈ attempts, a.Placed cwd.parts loc ∧ after.lookup loc = a.after.lookup loc := by
  induction h with
  | nil fs => exact .inl rfl
  | @cons a attempts after first rest ih =>
    rw [List.forall_mem_cons] at hf
    have hfirst : a.Lawful cwd.parts := Request.lawful hf.1.1 first hf.1.2
    rcases ih hf.2 with hl | ⟨hn, hd⟩ | ⟨b, hb, hp, hl⟩
    · rw [hl]
      rcases hfirst.lookup loc with hl' | hnew | hp
      · exact .inl hl'
      · exact .inr (.inl hnew)
      · exact .inr (.inr ⟨a, List.mem_cons_self, hp, rfl⟩)
    · rcases hfirst.lookup loc with hl' | ⟨-, hd'⟩ | ⟨-, _, _, _, -, hp⟩
      · exact .inr (.inl ⟨hl'.symm.trans hn, hd⟩)
      · cases hn.symm.trans hd'
      · obtain ⟨_, _, hk, -⟩ := hp.holds
        cases hn.symm.trans hk
    · exact .inr (.inr ⟨b, List.mem_cons_of_mem _ hb, hp, hl⟩)

/-- Failure atomicity over whole histories. -/
theorem history_atomic (h : History cwd before attempts after)
    (hf : ∀ a ∈ attempts, a.Fair) :
    (∀ a ∈ attempts, a.Lawful cwd.parts) ∧ ∀ loc,
      after.lookup loc = before.lookup loc ∨
      before.lookup loc = none ∧ after.lookup loc = some .directory ∨
      ∃ a ∈ attempts, a.Placed cwd.parts loc ∧ after.lookup loc = a.after.lookup loc :=
  ⟨h.lawful hf, h.lookup hf⟩

def sampleScratch : Scratch := ⟨"tmpq3x8a_0z.partial", "tmpk1v7m2pd.tar"⟩

theorem sampleScratch_drawn : sampleScratch.Drawn := ⟨"tmpq3x8a_0z", by decide, by decide⟩

def sampleRequests : List Request :=
  let members : List Member := [⟨Path.parse "/app.tab", "app.tab"⟩]
  [⟨sampleScratch, { compressing := some "zstd compress error" }, members,
      Path.parse "/out/app.tar.zst", 5⟩,
    ⟨sampleScratch, {}, members, Path.parse "/out/app.tar", 6⟩]

def sampleAttempts : List Attempt :=
  attemptsOf (Path.parse "/") sampleRequests
    ⟨[(["app.tab"], .file 0 (.bytes ByteArray.empty) 0)]⟩

theorem history_atomic_of_sample :
    sampleAttempts.map (·.result.toOption) = [none, some ()] ∧
      (∀ a ∈ sampleAttempts, a.Fair) ∧ ∀ a ∈ sampleAttempts, a.Lawful [] := by
  have hscratch : ∀ a ∈ sampleAttempts, a.request.scratch = sampleScratch := by
    decide
  have hcleaned : ∀ a ∈ sampleAttempts, Cleaned a.events := by decide +kernel
  have hf : ∀ a ∈ sampleAttempts, a.Fair := by
    intro a ha
    refine ⟨⟨"tmpq3x8a_0z", by decide, ?_⟩, hcleaned a ha⟩
    rw [hscratch a ha]
    decide
  obtain ⟨fs', h⟩ := history_attemptsOf (Path.parse "/") sampleRequests
    ⟨[(["app.tab"], .file 0 (.bytes ByteArray.empty) 0)]⟩
  exact ⟨by decide +kernel, hf, (history_atomic h hf).1⟩

end TabPackager.Bundle
