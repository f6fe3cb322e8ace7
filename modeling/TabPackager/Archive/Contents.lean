import TabPackager.Archive.Tar

/-!
# Contents of archives

What is got out of an archive: the names of its members and their bytes, in order. A hard link
gives the bytes of the latest member before it that has the name it points to. An archive with a
symbolic link, or with a link to nothing, does not stand on its own and has no contents.
-/

namespace TabPackager

variable {β : Type}

/-- The contents of tar members, given those of the members before, the latest first. -/
def tarContents? (before : List (String × β)) : List (TarEntry β) → Option (List (String × β))
  | [] => some before.reverse
  | e :: es =>
    match e.body with
    | .file _ content => tarContents? ((e.storedName, content) :: before) es
    | .hardlink _ =>
      match before.lookup e.storedTarget with
      | some content => tarContents? ((e.storedName, content) :: before) es
      | none => none
    | .symlink _ => none

namespace Archive

def contents? : Archive β → Option (List (String × β))
  | zip entries => some (entries.map fun e => (e.name, e.content))
  | tar entries => tarContents? [] entries
  | gzip _ _ entries => tarContents? [] entries
  | zstd _ _ entries => tarContents? [] entries

end Archive

end TabPackager
