import TabPackager.Proofs.EscapedRuns
import TabPackager.Shell.Process

/-!
# Processes as tools

A process ends with a status unless it cannot be started, and then it leaves all as it was and names
its directory or its program. Only a call that names no program, or has a zero byte in one of its
texts, ends in a way that the program does not expect, so processes are ordinary tools.
-/

namespace TabPackager.Shell

open FileSystem

variable {fs : FileSystem} {cwd : Location} {s : String}

theorem enter_ne_nulByte (hs : NulFree s) : enter fs cwd s ≠ .error .nulByte := by
  intro h
  rw [enter, bind_eq_error] at h
  rcases h with h | ⟨found, -, h⟩
  · exact stat_ne_nulByte hs h
  · split at h <;> cases h

theorem findProgram_ne_nulByte (hs : NulFree s) : findProgram fs cwd s ≠ .error .nulByte := by
  intro h
  unfold findProgram at h
  split at h
  · rw [bind_eq_error] at h
    rcases h with h | ⟨spot, -, h⟩
    · exact resolve_ne_nulByte hs true h
    · split at h
      · next loc => cases hp : programAt? loc <;> simp [hp] at h
      · next parent name => cases hp : programAt? (parent ++ [name]) <;> simp [hp] at h
  · split at h
    · cases h
    · split at h
      · cases h
      · split at h <;> cases h

theorem startError_eq {why : Refusal} (h : why ≠ .nulByte) (file : String) :
    ∃ number reason, startError why file = .failed ⟨number, reason, some file, none⟩ := by
  unfold startError
  cases hd : why.describe? with
  | none => exact absurd (Refusal.describe?_eq_none_iff.mp hd) h
  | some found => exact ⟨found.1, found.2, rfl⟩

/-- How the call of a process ends: it cannot be made, or the process cannot be started, or it ends
with a status. Nothing has happened if there is no process. -/
theorem runTool_cases (environment : List (String × String)) (cwd : Path) (now : Int)
    (c : Invocation) (files : FileSystem) :
    ((c.command = [] ∨ ∃ s ∈ (c.directory.getD cwd).text :: c.command, ¬NulFree s) ∧
        ∃ e, runTool environment cwd now c files = { files, ending := .escaped e }) ∨
      (∃ number reason file, (file = (c.directory.getD cwd).text ∨ c.command.head? = some file) ∧
        runTool environment cwd now c files =
          { files, ending := .failed ⟨number, reason, some file, none⟩ }) ∨
      ∃ code, (runTool environment cwd now c files).ending = .exited code := by
  unfold runTool
  cases hc : c.command with
  | nil => exact .inl ⟨.inl rfl, _, rfl⟩
  | cons name arguments =>
    dsimp only
    split
    · next hnul =>
      obtain ⟨s, hs, hzero⟩ := List.any_eq_true.mp hnul
      exact .inl ⟨.inr ⟨s, hs, fun hfree => hfree (List.contains_iff_mem.mp hzero)⟩, _, rfl⟩
    · next hnul =>
      have hfree : ∀ s ∈ (c.directory.getD cwd).text :: name :: arguments, NulFree s := by
        intro s hs hzero
        exact hnul (List.any_eq_true.mpr ⟨s, hs, List.contains_iff_mem.mpr hzero⟩)
      have hdirectory := hfree _ List.mem_cons_self
      have hname := hfree name (List.mem_cons_of_mem _ List.mem_cons_self)
      right
      cases he : enter files cwd.parts (c.directory.getD cwd).text with
      | error why =>
        have hwhy : why ≠ .nulByte := fun h => enter_ne_nulByte hdirectory (h ▸ he)
        obtain ⟨number, reason, hstart⟩ := startError_eq hwhy (c.directory.getD cwd).text
        exact .inl ⟨number, reason, _, .inl rfl, by rw [← hstart]⟩
      | ok loc =>
        dsimp only
        cases hf : findProgram files loc name with
        | error why =>
          have hwhy : why ≠ .nulByte := fun h => findProgram_ne_nulByte hname (h ▸ hf)
          obtain ⟨number, reason, hstart⟩ := startError_eq hwhy name
          exact .inl ⟨number, reason, _, .inr rfl, by rw [← hstart]⟩
        | ok found => exact .inr ⟨_, rfl⟩

theorem tools_ordinary (environment : List (String × String)) (cwd : Path) (now : Int) :
    (tools environment cwd now).Ordinary := by
  intro calls c files e hproper h
  obtain ⟨p, hp, hfree⟩ := hproper.directory
  change (runTool environment cwd now c files).ending = _ at h
  rcases runTool_cases environment cwd now c files with
    ⟨hnil | ⟨s, hs, hnul⟩, -⟩ | ⟨number, reason, file, -, hr⟩ | ⟨code, hr⟩
  · exact hproper.command hnil
  · rcases List.mem_cons.mp hs with rfl | hs
    · rw [hp, Option.getD_some] at hnul
      exact hnul (Path.nulFree_text_iff.mpr hfree)
    · exact hnul (hproper.texts s hs)
  · rw [hr] at h
    cases h
  · cases hr.symm.trans h

end TabPackager.Shell
