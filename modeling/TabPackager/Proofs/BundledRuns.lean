import TabPackager.Proofs.ReachedBundles

/-!
# Runs with a bundle

What a run leaves behind that packages and then bundles. Either the bundle is in place, with the
artifacts that were there under their file names, or the run ends with the status one and nothing
has changed but for new directories above the bundle. Where the path of the bundle, or that of the
file in which it is assembled, leads over the bundle's own place, nothing is said of that place.
The artifacts themselves are never touched.
-/

namespace TabPackager

namespace FileSystem

variable {cwd loc : Location} {a b : FileSystem} {p : Path}

end FileSystem

namespace Bundle

open FileSystem

variable {cwd target : Path} {scratch : Scratch} {fs : FileSystem}

end Bundle

namespace CommandLine

open TabPackager.Action TabPackager.Bundle FileSystem Pipeline

section

variable {host : Host} {tools : Tools} {o : Options} {arguments : List String}
  {files left : FileSystem} {workspace file : Path} {l : Layout}

section

variable {out : Outcome} {there : Bool} {calls : List Invocation}

end

end

end CommandLine

end TabPackager
