import TabPackager.Proofs.LinkCounts
import TabPackager.Proofs.OwnFiles

/-!
# Files that are kept

While own files are made and written, the files below them keep their contents and the number of
their names.
-/

namespace TabPackager

namespace FileSystem

/-- All entries stand in the second file system, too, and its files have no more names there. -/
structure FilesKept (a b : FileSystem) : Prop where
  entries : EntriesKept a b
  counts : ∀ l i, a.Names l i → b.nameCount i = a.nameCount i

variable {a b base : FileSystem} {cwd loc : Location} {now : Int} {e : Entry}
  {own : Location → Option Nat} {i : Nat}

theorem Names.kept {l : Location} (hk : EntriesKept a b) (h : a.Names l i) : b.Names l i := by
  obtain ⟨k, m, hl⟩ := h
  exact ⟨k, m, hk _ _ hl⟩

namespace FilesKept

theorem refl (a : FileSystem) : FilesKept a a := ⟨.refl a, fun _ _ _ => rfl⟩

theorem insert (h : FilesKept a b) (hn : b.lookup loc = none)
    (he : ∀ l i, Entry.identity? e = some i → ¬b.Names l i) : FilesKept a (b.insert loc e) := by
  have hloc : loc ≠ [] := by
    rintro rfl
    simp at hn
  refine ⟨fun l f hf => ?_, fun l i hl => ?_⟩
  · have hb := h.entries l f hf
    rw [lookup_insert hloc, if_neg]
    · exact hb
    · rintro rfl
      cases hn.symm.trans hb
  · have hother : Entry.identity? e ≠ some i := fun hi => he l i hi (hl.kept h.entries)
    have hvacant : ¬b.Names loc i := by
      rintro ⟨k, m, hk⟩
      cases hn.symm.trans hk
    rw [nameCount_insert hloc hother hvacant, h.counts l i hl]

theorem makeDirectory {p : Path} (h : FilesKept a b) {b' : FileSystem}
    (he : b.makeDirectory cwd p.text = .ok b') : FilesKept a b' := by
  obtain ⟨loc, -, hn, rfl⟩ := Leads.of_create he
  exact h.insert hn fun l i hi => nomatch hi

theorem createFile {p : Path} (h : FilesKept a b) {b' : FileSystem}
    (he : b.createFile cwd p.text now = .ok b') : FilesKept a b' := by
  obtain ⟨loc, -, hn, rfl⟩ := Leads.of_create he
  refine h.insert hn fun l i hi => ?_
  rintro ⟨k, m, hl⟩
  have hlt := lt_freshIdentity hl rfl
  rw [← Option.some.inj hi] at hlt
  exact Nat.lt_irrefl _ hlt

theorem replaceContent (h : FilesKept a b) (hk : EntriesKept a base) (ho : Overlaid base own b)
    (hi : own loc = some i) (k : Content) (m : Int) : FilesKept a (b.replaceContent i k m) where
  entries := hk.trans (ho.replaceContent hi k m).entriesKept
  counts l j hl := by rw [nameCount_replaceContent, h.counts l j hl]

theorem examineEntry (h : FilesKept a b) (hl : a.lookup loc = some e) :
    FileOp.examineEntry b e = FileOp.examineEntry a e := by
  cases e with
  | directory => rfl
  | link t m => rfl
  | file i k m =>
    rw [FileOp.examineEntry, FileOp.examineEntry, h.counts loc i ⟨k, m, hl⟩]

end FilesKept

/-- What a file shows after an operation it has shown before, or it is new and empty, or that has
just been written. -/
theorem shown_of_effect {fs fs' : FileSystem} {o : FileOp} {k : Content} {m : Int}
    (he : o.effect cwd now fs = .ok fs') (hl : fs'.lookup loc = some (.file i k m)) :
    (∃ l, fs.lookup l = some (.file i k m)) ∨ k = .bytes ByteArray.empty ∨
      ∃ p, o = .writeFile p k := by
  have hkept (hsame : fs.lookup loc = some (.file i k m)) :
      (∃ l, fs.lookup l = some (.file i k m)) ∨ k = .bytes ByteArray.empty ∨
        ∃ p, o = .writeFile p k := .inl ⟨loc, hsame⟩
  cases o with
  | isFile p => exact hkept (Except.ok.inj he ▸ hl)
  | isDirectory p => exact hkept (Except.ok.inj he ▸ hl)
  | examine p => exact hkept (Except.ok.inj he ▸ hl)
  | contentOf p => exact hkept (Except.ok.inj he ▸ hl)
  | makeDirectory p =>
    obtain ⟨d, -, -, rfl⟩ := Leads.of_create he
    exact hkept ((lookup_insert_eq_some hl).resolve_left nofun)
  | createFile p =>
    obtain ⟨d, -, -, rfl⟩ := Leads.of_create he
    rcases lookup_insert_eq_some hl with hnew | hl
    · exact .inr (.inl (Entry.file.inj hnew).2.1)
    · exact hkept hl
  | writeFile p content =>
    have hwritten : k = content → ∃ q, FileOp.writeFile p content = .writeFile q k :=
      fun hk => ⟨p, hk ▸ rfl⟩
    obtain ⟨spot, -, he⟩ := bind_eq_ok.mp he
    cases spot with
    | free d c =>
      cases he
      rcases lookup_insert_eq_some hl with hnew | hl
      · exact .inr (.inr (hwritten (Entry.file.inj hnew).2.1))
      · exact hkept hl
    | found place =>
      dsimp only at he
      split at he
      · cases he
        rcases lookup_replaceContent_file hl with ⟨-, hk, -⟩ | ⟨-, hl⟩
        · exact .inr (.inr (hwritten hk))
        · exact hkept hl
      · cases he
  | rename p q =>
    rcases rename_eq_ok he with rfl | ⟨source, target, e, hsource, rfl⟩
    · exact hkept hl
    · rcases lookup_insert_eq_some hl with rfl | hl
      · exact .inl ⟨source, hsource⟩
      · exact hkept (lookup_erase_eq_some hl)
  | unlink p =>
    obtain ⟨⟨place, e⟩, -, he⟩ := bind_eq_ok.mp he
    cases e with
    | directory => cases he
    | file j c t =>
      cases he
      exact hkept (lookup_erase_eq_some hl)
    | link t n =>
      cases he
      exact hkept (lookup_erase_eq_some hl)

end FileSystem

end TabPackager
