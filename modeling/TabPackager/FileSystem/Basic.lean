import TabPackager.Archive

/-!
# File system

A file system is a finite table from locations to entries: directories, files and symbolic
links. Files that share one identity are names of one file, so that a change of content through
one name shows under all. Inserting and erasing touch one location each.
-/

namespace TabPackager

/-- What a file holds: plain bytes, a finished archive, or an archive still being written. -/
inductive Content where
  | bytes (data : ByteArray)
  | archive (a : Archive Content)
  | draft (a : Archive Content)

instance : Inhabited Content := ⟨.bytes ByteArray.empty⟩

abbrev Location := List String

/-- What stands at a location. Times are nanoseconds since 1970. -/
inductive Entry where
  | directory
  | file (identity : Nat) (content : Content) (modified : Int)
  | link (target : String) (modified : Int)

structure FileSystem where
  entries : List (Location × Entry)

namespace FileSystem

instance : Inhabited FileSystem := ⟨⟨[]⟩⟩

def entryAt (loc : Location) : List (Location × Entry) → Option Entry
  | [] => none
  | (l, e) :: es => if l = loc then some e else entryAt loc es

/-- The entry at a location; the root is always a directory. -/
def lookup (fs : FileSystem) (loc : Location) : Option Entry :=
  if loc = [] then some .directory else entryAt loc fs.entries

def setEntry (loc : Location) (e : Entry) : List (Location × Entry) → List (Location × Entry)
  | [] => [(loc, e)]
  | (l, f) :: es => if l = loc then (loc, e) :: es else (l, f) :: setEntry loc e es

def insert (fs : FileSystem) (loc : Location) (e : Entry) : FileSystem :=
  ⟨setEntry loc e fs.entries⟩

def erase (fs : FileSystem) (loc : Location) : FileSystem :=
  ⟨fs.entries.filter fun e => decide (e.1 ≠ loc)⟩

def Entry.identity? : Entry → Option Nat
  | .file i _ _ => some i
  | _ => none

def freshIdentity (fs : FileSystem) : Nat :=
  fs.entries.foldr (fun e n => max ((Entry.identity? e.2).getD 0 + 1) n) 0

def nameCount (fs : FileSystem) (identity : Nat) : Nat :=
  fs.entries.countP fun e => decide (Entry.identity? e.2 = some identity)

def Entry.withContent (identity : Nat) (content : Content) (modified : Int) (e : Entry) : Entry :=
  if Entry.identity? e = some identity then .file identity content modified else e

def replaceContent (fs : FileSystem) (identity : Nat) (content : Content) (modified : Int) :
    FileSystem :=
  ⟨fs.entries.map fun e => (e.1, Entry.withContent identity content modified e.2)⟩

@[simp] theorem lookup_root (fs : FileSystem) : fs.lookup [] = some .directory := rfl

theorem entryAt_setEntry (loc l : Location) (e : Entry) (es : List (Location × Entry)) :
    entryAt l (setEntry loc e es) = if l = loc then some e else entryAt l es := by
  induction es with
  | nil => simp [setEntry, entryAt, eq_comm]
  | cons x es ih =>
    obtain ⟨k, f⟩ := x
    by_cases hk : k = loc
    · subst hk
      by_cases h : l = k
      · simp [setEntry, entryAt, h]
      · simp [setEntry, entryAt, h, Ne.symm h]
    · by_cases h : k = l
      · subst h; simp [setEntry, entryAt, hk]
      · simp [setEntry, entryAt, hk, h, ih]

theorem entryAt_filter (loc l : Location) (es : List (Location × Entry)) :
    entryAt l (es.filter fun e => decide (e.1 ≠ loc)) =
      if l = loc then none else entryAt l es := by
  induction es with
  | nil => simp [entryAt]
  | cons x es ih =>
    obtain ⟨k, f⟩ := x
    by_cases hk : k = loc
    · subst hk
      by_cases h : l = k
      · simp_all
      · rw [List.filter_cons_of_neg (by simp), ih]
        simp [entryAt, h, Ne.symm h]
    · rw [List.filter_cons_of_pos (by simpa using hk)]
      by_cases h : k = l
      · subst h; simp [entryAt, hk]
      · rw [entryAt, if_neg h, ih, entryAt, if_neg h]

theorem lookup_insert {fs : FileSystem} {loc : Location} (h : loc ≠ []) (e : Entry)
    (l : Location) : (fs.insert loc e).lookup l = if l = loc then some e else fs.lookup l := by
  by_cases hl : l = []
  · subst hl; simp [Ne.symm h]
  · simp [lookup, insert, hl, entryAt_setEntry]

theorem lookup_erase {fs : FileSystem} {loc : Location} (h : loc ≠ []) (l : Location) :
    (fs.erase loc).lookup l = if l = loc then none else fs.lookup l := by
  by_cases hl : l = []
  · subst hl; simp [Ne.symm h]
  · simp only [lookup, hl, if_false, erase, entryAt_filter]

end FileSystem

end TabPackager
