import TabPackager.Proofs.Interference
import TabPackager.Proofs.RivalPlaces

/-!
# Rival writes

Several bundles are written to one target at the same time, on common files. What such files can
look like at any moment is an invariant: the entries that were there stay, apart from the one at
the target, and new are only directories above the target, the files that the writes have beside
it, each with one name, and the archive that landed last.
-/

namespace TabPackager

namespace FileSystem

def held (fs : FileSystem) (loc : Location) : Option (Content × Int) :=
  match fs.lookup loc with
  | some (.file _ k m) => some (k, m)
  | _ => none

/-- The path shows the same in both file systems. -/
structure Alike (cwd : Location) (p : Path) (a b : FileSystem) : Prop where
  isFile : a.isFile cwd p.text = b.isFile cwd p.text
  examine : (a.lstat cwd p.text).map (fun found => FileOp.examineEntry a found.2) =
    (b.lstat cwd p.text).map fun found => FileOp.examineEntry b found.2
  contentOf : a.contentOf cwd p.text = b.contentOf cwd p.text

theorem Alike.symm {cwd : Location} {p : Path} {a b : FileSystem} (h : Alike cwd p a b) :
    Alike cwd p b a := ⟨h.isFile.symm, h.examine.symm, h.contentOf.symm⟩

theorem Alike.trans {cwd : Location} {p : Path} {a b c : FileSystem} (h : Alike cwd p a b)
    (h' : Alike cwd p b c) : Alike cwd p a c :=
  ⟨h.isFile.trans h'.isFile, h.examine.trans h'.examine, h.contentOf.trans h'.contentOf⟩

variable {fs : FileSystem} {loc : Location}

theorem held_of_file {i : Nat} {k : Content} {m : Int}
    (h : fs.lookup loc = some (.file i k m)) : fs.held loc = some (k, m) := by
  rw [held, h]

theorem held_of_none (h : fs.lookup loc = none) : fs.held loc = none := by
  rw [held, h]

theorem held_congr {fs' : FileSystem} (h : fs'.lookup loc = fs.lookup loc) :
    fs'.held loc = fs.held loc := by
  rw [held, held, h]

end FileSystem

namespace Bundle

open FileSystem

/-- The files at some moment, and the write whose archive has been put at the target last. -/
structure Stage (n : Nat) where
  files : FileSystem
  landed : Option (Fin n)

abbrev Own := Path → Option (Content × Int)

namespace Rivalry

variable {n : Nat} (R : Rivalry n)

/-- What the files can look like at some moment, as far as places tell. -/
structure Variant (fs : FileSystem) : Prop where
  elsewhere : ∀ l, l ≠ R.place → (∀ i p, R.Owns i p → l ≠ R.spot p) →
    fs.lookup l = R.base.lookup l ∨
      R.room.lookup l = some .directory ∧ fs.lookup l = some .directory
  beside : ∀ i p, R.Owns i p →
    fs.lookup (R.spot p) = none ∨ ∃ id, fs.Names (R.spot p) id
  target : fs.lookup R.place = R.base.lookup R.place ∨ ∃ id, fs.Names R.place id
  names : ∀ l id, l ≠ R.place → R.base.Names l id → ¬R.base.Names R.place id →
    fs.nameCount id = R.base.nameCount id

variable {R}

def Stands (R : Rivalry n) (fs : FileSystem) : Prop :=
  ∀ l, R.room.lookup l = some .directory → fs.lookup l = some .directory

def Sole (fs : FileSystem) (loc : Location) : Prop :=
  ∀ id, fs.Names loc id → ∀ l, fs.Names l id → l = loc

def Complete (R : Rivalry n) (i : Fin n) (format : Format) (k : Content) : Prop :=
  ∃ a, k = .archive a ∧ a.format = format ∧
    Packed R.room R.cwd.parts (R.requests i).members a

/-- How things can stand at some moment. -/
structure Fits (R : Rivalry n) (w : Stage n) : Prop where
  variant : R.Variant w.files
  keyed : w.files.Keyed
  sole : ∀ i p, R.Owns i p → Sole w.files (R.spot p)
  before : w.landed = none → w.files.lookup R.place = R.base.lookup R.place
  landed : ∀ j, w.landed = some j →
    R.base.lookup R.place ≠ some .directory ∧ R.Stands w.files ∧ Sole w.files R.place ∧
      R.room.Leads R.cwd.parts R.target R.place ∧
        ∃ format id, formatOf R.target = .ok format ∧
          Filled R.room R.cwd.parts (R.requests j).members format R.place id w.files

section

variable {fs fs' : FileSystem} {w w' : Stage n} {i j : Fin n} {p p' : Path} {l : Location}
  {id : Nat} {k : Content} {m : Int}

theorem not_names_of_none (h : fs.lookup l = none) : ¬fs.Names l id := by
  rintro ⟨k, m, hf⟩
  cases h.symm.trans hf

theorem Owns.spot_ne_nil (ho : R.Owns i p) : R.spot p ≠ [] := ho.2.ne_nil

theorem Drawn.base_spot (h : R.Drawn) (ho : R.Owns i p) :
    R.base.lookup (R.spot p) = none := by
  obtain ⟨hfree, hplace⟩ := h.free ho
  rw [← bare_of_ne hplace]
  cases hb : R.bare.lookup (R.spot p) with
  | none => rfl
  | some e => cases hfree.symm.trans (h.made.entriesKept _ _ hb)

theorem Drawn.directory_ne_spot (h : R.Drawn) (hl : R.room.lookup l = some .directory)
    (ho : R.Owns i p) : l ≠ R.spot p := by
  rintro rfl
  cases hl.symm.trans (h.free ho).1

/-- The entries of the beginning stay, apart from the one at the target. -/
theorem Variant.kept (h : R.Drawn) (hv : R.Variant fs) : EntriesKept R.bare fs := by
  intro l e he
  have hplace : l ≠ R.place := by
    rintro rfl
    cases R.bare_place.symm.trans he
  have hroom : R.room.lookup l = some e := h.made.entriesKept l e he
  have hspot : ∀ i p, R.Owns i p → l ≠ R.spot p := by
    rintro i p ho rfl
    cases (h.free ho).1.symm.trans hroom
  rcases hv.elsewhere l hplace hspot with hl | ⟨hd, hl⟩
  · rw [hl, ← bare_of_ne hplace, he]
  · rw [hl, ← hd, hroom]

theorem Variant.partly (h : R.Drawn) (hv : R.Variant fs) : Partly R.bare R.room fs where
  kept := hv.kept h
  made l hl := by
    have hplace := directory_ne_place hl
    rcases hv.elsewhere l hplace fun i p ho => h.directory_ne_spot hl ho with hs | ⟨-, hd⟩
    · rw [hs, ← bare_of_ne hplace]
      cases hb : R.bare.lookup l with
      | none => exact .inl rfl
      | some e =>
        have hroom := h.made.entriesKept l e hb
        exact .inr (hroom.symm.trans hl)
    · exact .inr hd

theorem Variant.kept_room (h : R.Drawn) (hv : R.Variant fs) (hs : R.Stands fs) :
    EntriesKept R.room fs := by
  intro l e he
  rcases h.made l with hl | ⟨-, hd, -⟩
  · exact hv.kept h l e (hl.symm.trans he)
  · cases hd.symm.trans he
    exact hs l hd

theorem Owns.ne_target (h : R.Drawn) (ho : R.Owns i p) : p ≠ R.target := by
  rintro rfl
  exact (h.free ho).2 (ho.2.unique (h.leads_target (ho.2.kept R.room_kept.waysKept)))

/-- A path leads nowhere but where it does with all directories there. -/
theorem Variant.waysKept_provided (h : R.Drawn) (hv : R.Variant fs) : WaysKept fs R.provided := by
  intro l e he hid
  by_cases hplace : l = R.place
  · subst hplace
    rcases hv.target with hs | ⟨id, k, m, hs⟩
    · rw [h.provided_place, ← hs, he]
    · cases he.symm.trans hs
      cases hid
  · rw [← room_of_ne hplace]
    have hspot : ∀ i p, R.Owns i p → l ≠ R.spot p := by
      rintro i p ho rfl
      rcases hv.beside i p ho with hn | ⟨id, k, m, hn⟩
      · cases he.symm.trans hn
      · cases he.symm.trans hn
        cases hid
    rcases hv.elsewhere l hplace hspot with hs | ⟨hd, hs⟩
    · exact h.made.entriesKept l e ((bare_of_ne hplace).trans (hs.symm.trans he))
    · rw [hd, ← hs, he]

theorem Variant.leads_target (h : R.Drawn) (hv : R.Variant fs)
    (hl : fs.Leads R.cwd.parts R.target l) : R.room.Leads R.cwd.parts R.target R.place :=
  h.leads_target (hl.kept (hv.waysKept_provided h))

theorem Variant.owns (h : R.Drawn) (hv : R.Variant fs) (hp : R.Temporary i p)
    (hl : fs.Leads R.cwd.parts p l) : R.Owns i p :=
  ⟨hp, h.beside hp (hl.kept (hv.waysKept_provided h))⟩

theorem Variant.refused (h : R.Drawn) (hv : R.Variant fs) (hp : R.Temporary i p)
    (ho : ¬R.Owns i p) : ∃ why, fs.resolve false R.cwd.parts p.text = .error why := by
  obtain ⟨c, hc, hlast⟩ := h.named hp
  cases hr : fs.resolve false R.cwd.parts p.text with
  | error why => exact ⟨why, rfl⟩
  | ok s =>
    obtain ⟨l, hl⟩ := Leads.of_resolve hc hlast hr
    exact absurd (hv.owns h hp hl) ho

theorem Variant.refused_target (h : R.Drawn) (hv : R.Variant fs) {format : Format}
    (hformat : formatOf R.target = .ok format)
    (hplace : ¬R.room.Leads R.cwd.parts R.target R.place) :
    ∃ why, fs.resolve false R.cwd.parts R.target.text = .error why := by
  obtain ⟨c, hlast, hc, -⟩ := getLast?_of_formatOf hformat
  cases hr : fs.resolve false R.cwd.parts R.target.text with
  | error why => exact ⟨why, rfl⟩
  | ok s =>
    obtain ⟨l, hl⟩ := Leads.of_resolve hc hlast hr
    exact absurd (hv.leads_target h hl) hplace

/-- Where a directory of the target can be made, there is room for it. -/
theorem Variant.directory_of_leads (h : R.Drawn) (hv : R.Variant fs)
    (hp : p.Above R.target.parent) (hl : fs.Leads R.cwd.parts p l) (hn : fs.lookup l = none) :
    R.room.lookup l = some .directory := by
  have hfull := provided_ne_none hp (hl.kept (hv.waysKept_provided h))
  have hplace : l ≠ R.place := by
    rintro rfl
    rw [h.provided_place] at hfull
    rcases hv.target with hs | ⟨id, k, m, hs⟩
    · exact hfull (hs.symm.trans hn)
    · cases hn.symm.trans hs
  rw [← room_of_ne hplace] at hfull
  rcases h.made l with hs | ⟨-, hd, -⟩
  · cases hb : R.bare.lookup l with
    | none => exact absurd (hs.trans hb) hfull
    | some e => cases hn.symm.trans (hv.kept h l e hb)
  · exact hd

theorem Variant.stands (h : R.Drawn) (hv : R.Variant fs)
    (ht : fs.isDirectory R.cwd.parts R.target.parent.text = .ok true) : R.Stands fs := by
  intro l hl
  rcases h.made l with hs | ⟨-, -, p, hp, hlead⟩
  · exact hv.kept h l _ (hs.symm.trans hl)
  · obtain ⟨l', hstat⟩ := isDirectory_eq_true.mp (isDirectory_above hp ht)
    have hfull := R.room_kept.waysKept.stat_directory (hlead.stat hl nofun)
    cases hfull.symm.trans ((hv.waysKept_provided h).stat_directory hstat)
    exact (stat_eq_ok.mp hstat).2

theorem Variant.lookup_base {e : Entry} (h : R.Drawn) (hv : R.Variant fs) (hl : l ≠ R.place)
    (he : R.base.lookup l = some e) : fs.lookup l = some e :=
  hv.kept h l e ((bare_of_ne hl).trans he)

/-- A member that leads to a file, and not through the target or by a name of the file there, shows
the same at every moment. -/
theorem Variant.alike (h : R.Drawn) (hv : R.Variant fs) {l' : Location} {e : Entry}
    (hl : R.bare.lstat R.cwd.parts p.text = .ok (l, e))
    (hs : R.bare.stat R.cwd.parts p.text = .ok (l', .file id k m))
    (hid : ∀ j, Entry.identity? e = some j → ¬R.base.Names R.place j) :
    Alike R.cwd.parts p fs R.base := by
  have hkept := hv.kept h
  have hbase : EntriesKept R.bare R.base := by
    intro l e he
    rw [← bare_of_ne, he]
    rintro rfl
    cases R.bare_place.symm.trans he
  constructor
  case isFile =>
    rw [isFile_eq_true.mpr ⟨l', id, k, m, hkept.stat hs⟩,
      isFile_eq_true.mpr ⟨l', id, k, m, hbase.stat hs⟩]
  case examine =>
    rw [hkept.lstat hl, hbase.lstat hl]
    cases e with
    | directory => rfl
    | link t m => rfl
    | file j k' m' =>
      have hthere := (lstat_eq_ok.mp hl).2
      have hplace : l ≠ R.place := by
        rintro rfl
        cases R.bare_place.symm.trans hthere
      have hcount := hv.names l j hplace ⟨k', m', hbase l _ hthere⟩ (hid j rfl)
      simp only [Except.map, FileOp.examineEntry, hcount]
  case contentOf =>
    rw [contentOf_eq_ok.mpr ⟨l', id, hkept.stat hs⟩, contentOf_eq_ok.mpr ⟨l', id, hbase.stat hs⟩]

end

end Rivalry

end Bundle

end TabPackager
