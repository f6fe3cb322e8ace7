import TabPackager.Config.Packaging
import TabPackager.Layout

/-!
# Tool commands

The argument vectors with which the build and the packaging of a layout are called. Only the
command in front and the further build arguments come from the configuration.
-/

namespace TabPackager

def buildCommand (l : Layout) (config : Packaging) : List String :=
  config.cargo ++
    ["build", "--" ++ Layout.profile, "--bin", l.binary, "--target", l.triple] ++
    config.cargoArgs

/-- The metadata written into every bundle: the least kernel version, the stack size and the
least size of the footer. -/
def packageMetadata : List String :=
  ["--kernel-major", "2", "--kernel-minor", "1", "--stack", "1024",
    "--minimum-footer-size", "256"]

def packageCommand (l : Layout) (config : Packaging) : List String :=
  config.elf2tab ++ ["--package-name", l.binary] ++ packageMetadata ++
    ["--output-file", l.tab.text, l.elf.text]

end TabPackager
