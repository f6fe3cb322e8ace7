import TabPackager.Proofs.PlainTasks
import TabPackager.Proofs.RunStages

/-!
# Faults of the first stages

Finding the directory and the configuration of a run ends well or in a fault that is reported as it
is, with the status one, or that the program does not expect.
-/

namespace TabPackager

section

variable {α β : Type}

def PlainIn (x : Except Fault α) : Prop := ∀ f, x = .error f → f.Plain

theorem PlainIn.ok (a : α) : PlainIn (.ok a) := fun _ => nofun

theorem PlainIn.error {f : Fault} (hf : f.Plain) : PlainIn (.error f : Except Fault α) := by
  intro g h
  cases h
  exact hf

theorem PlainIn.bind {x : Except Fault α} (hx : PlainIn x) {g : α → Except Fault β}
    (hg : ∀ a, PlainIn (g a)) : PlainIn (x >>= g) := by
  cases x with
  | ok a => exact hg a
  | error f => exact .error (hx f rfl)

end

namespace FileSystem

end FileSystem

namespace Config

end Config

namespace CommandLine

open Pipeline

end CommandLine

end TabPackager
