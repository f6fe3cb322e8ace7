import TabPackager.Proofs.Ancestors
import TabPackager.Proofs.EscapedRuns
import TabPackager.Proofs.MemberNames
import TabPackager.Proofs.OwnRemovals

/-!
# Runs that come to their bundle

A run whose pipeline gets to its end goes on with a call that writes the bundle, from the files
that the tools have left. What it shows and what it leaves are those of the call, and a call that
returns has stored the artifacts under their file names.
-/

namespace TabPackager

namespace Bundle.Request

open FileSystem

variable {cwd : Path} {q : Request} {before after : FileSystem} {events : List Event}

theorem Placed.contentOf {format : Format} {mid : FileSystem} {cwd loc : Location} {i : Nat}
    {k : Content} {t : Int} (h : q.Placed cwd format mid after loc i)
    (hl : after.lookup loc = some (.file i k t))
    (hover : ¬mid.LeadsOver cwd q.target loc) :
    after.contentOf cwd q.target.text = .ok (k, t) := by
  have hwithout := h.leads.leadsWithout h.leads.ne_nil h.replaceable hover
  obtain ⟨l, hmid, hafter⟩ := h.leads_around hwithout
  obtain rfl := hmid.unique h.leads
  exact contentOf_eq_ok.mpr ⟨l, i, hafter.stat hl nofun⟩

end Bundle.Request

namespace Pipeline

open TabPackager.CommandLine TabPackager.Action

variable {s : Setup} {tools : Tools} {l : Layout} {w : World}

end Pipeline

namespace CommandLine

open TabPackager.Action TabPackager.Bundle FileSystem Pipeline

/-- The run packages and comes to its bundle, in the file system that the tools have left. -/
structure Bundles (host : Host) (tools : Tools) (o : Options) (arguments : List String)
    (files : FileSystem) (workspace : Path) (l : Layout) (left : FileSystem) : Prop where
  pair : arguments = [l.binary, l.triple]
  found : workspaceAt host o files = .ok workspace
  reached : ∃ c, configAt host o files = .ok c ∧
    ReachesBundle tools (setupOf host o workspace c) l files ∧
    left = leftBy tools (setupOf host o workspace c) l files

section

variable {host : Host} {tools : Tools} {o : Options} {arguments : List String}
  {files left : FileSystem} {workspace file : Path} {l : Layout}

theorem Bundles.nulFree (h : Bundles host tools o arguments files workspace l left) :
    workspace.NulFree := by
  obtain ⟨c, -, hreach, -⟩ := h.reached
  exact nulFree_of_probe hreach.workspace

def shown (l : Layout) (file : Path) (calls : List Invocation) (a : Attempt) : Verdict :=
  .ofWrite calls [l.completion]
    [s!"Bundled {a.request.members.length} artifact(s) into {file}"] a.result

end

end CommandLine

end TabPackager
