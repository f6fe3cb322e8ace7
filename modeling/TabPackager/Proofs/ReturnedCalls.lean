import TabPackager.Proofs.BundleAtomicity
import TabPackager.Proofs.CoherentFiles

/-!
# What calls leave behind

A call that returns leaves an archive at the place of its target that holds the members as they
stood before the call. In a history, every call starts from a file system in which names of one
file show the same, if the first one does.
-/

namespace TabPackager.Bundle

open FileSystem TabPackager.Task

variable {cwd : Path} {before after : FileSystem} {attempts : List Attempt} {a : Attempt}

/-- The call has returned and left the archive at the place of its target. -/
def Attempt.Leaves (cwd : Location) (a : Attempt) (format : Format)
    (archive : Archive Content) : Prop :=
  a.result = .ok () ∧ ∃ mid loc i t, DirectoriesMade cwd a.request.target.parent a.before mid ∧
    a.request.Placed cwd format mid a.after loc i ∧
    a.after.lookup loc = some (.file i (.archive archive) t) ∧ archive.format = format

/-- The call goes in one of its ways, from a file system in which names of one file show the
same. -/
structure Attempt.Sound (cwd : Path) (a : Attempt) : Prop where
  coherent : a.before.Coherent
  execution : Task.Execution cwd.parts a.request.now (a.request.task cwd) a.before a.events
    a.result a.after

theorem History.sound (h : History cwd before attempts after) (hc : before.Coherent) :
    ∀ a ∈ attempts, a.Sound cwd := by
  induction h with
  | nil fs => simp
  | cons first rest ih =>
    rw [List.forall_mem_cons]
    exact ⟨⟨hc, first⟩, ih (Script.Execution.coherent first hc)⟩

namespace Attempt

theorem Sound.lawful (h : a.Sound cwd) (hf : a.Fair) : a.Lawful cwd.parts :=
  Request.lawful hf.1 h.execution hf.2

theorem Sound.packed (h : a.Sound cwd) (hf : a.Fair) (hr : a.result = .ok ()) :
    ∃ format archive, a.Leaves cwd.parts format archive ∧
      Packed a.before cwd.parts a.request.members archive := by
  have hx := h.execution
  rw [hr] at hx
  obtain ⟨format, mid, loc, i, hmade, hp, archive, t, ha, hformat, hpacked⟩ :=
    Request.filled hf.1 hx hf.2
  exact ⟨format, archive, ⟨hr, mid, loc, i, t, hmade, hp, ha, hformat⟩, hpacked⟩

theorem Leaves.supported {format : Format} {archive : Archive Content}
    (h : a.Leaves cwd.parts format archive) : formatOf a.request.target = .ok format := by
  obtain ⟨-, mid, loc, i, t, -, hp, -⟩ := h
  exact hp.supported

theorem Leaves.format {format : Format} {archive : Archive Content}
    (h : a.Leaves cwd.parts format archive) : archive.format = format := by
  obtain ⟨-, mid, loc, i, t, -, -, -, hformat⟩ := h
  exact hformat

end Attempt

end TabPackager.Bundle
