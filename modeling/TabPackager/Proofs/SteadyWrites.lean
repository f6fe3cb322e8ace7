import TabPackager.Proofs.RivalWrites

/-!
# Writes that their rivals cannot sway

For some writes nothing that they look at depends on how far the others have come: there is room for
the directories of the target, the files beside it are there to be had or never, and the members
show the same at every moment. All that such a write is answered is told by its own files, so it can
end in one way only.
-/

namespace TabPackager

namespace FileSystem

variable {fs : FileSystem} {cwd : Location} {p : Path}

theorem resolve_of_not_askable {s : String} (h : ¬Askable s) (follow : Bool) :
    ∃ why, ∀ (fs : FileSystem) (cwd : Location), fs.resolve follow cwd s = .error why := by
  by_cases hnul : '\x00' ∈ s.toList
  · exact ⟨.nulByte, fun fs cwd => if_pos hnul⟩
  · by_cases hempty : s = ""
    · exact ⟨.noEntry, fun fs cwd => (if_neg hnul).trans (if_pos hempty)⟩
    · have hlong : textLimit ≤ s.utf8ByteSize := by
        by_contra hshort
        exact h ⟨hnul, hempty, Nat.not_le.mp hshort⟩
      exact ⟨.nameTooLong,
        fun fs cwd => (if_neg hnul).trans ((if_neg hempty).trans (if_pos hlong))⟩

/-- In a directory a path leads to a place, unless its name is too long for any. -/
theorem resolve_in_directory {c : String} (hc : IsOrdinary c) (hp : p.parts.getLast? = some c)
    (ha : Askable p.text) {d : Location}
    (hd : fs.stat cwd p.parent.text = .ok (d, .directory)) :
    fs.resolve false cwd p.text = .error .nameTooLong ∨ ∃ l, fs.Leads cwd p l := by
  obtain ⟨hr, hdir⟩ := stat_eq_ok.mp hd
  have hchild := resolve_child fs cwd hp ha
  rw [hr, onward, stepInto_ordinary hdir hc] at hchild
  split at hchild
  · exact .inl hchild
  · exact .inr ⟨d ++ [c], d, c, rfl, hc, hp, hchild⟩

end FileSystem

namespace Bundle

open FileSystem TabPackager.Task

namespace Rivalry

variable {n : Nat}

/-- Once the directories of the target are there, the path is refused, and always for the same
reason. -/
def Barred (R : Rivalry n) (p : Path) : Prop :=
  ∃ why, ∀ fs, R.Variant fs → R.Stands fs → fs.resolve false R.cwd.parts p.text = .error why

/-- Nothing that the write looks at depends on how far the writes have come. -/
structure Steady (R : Rivalry n) (i : Fin n) : Prop where
  there : R.provided.isDirectory R.cwd.parts R.target.parent.text = .ok true
  beside : ∀ p, R.Temporary i p → R.Owns i p ∨ R.Barred p
  checked : ∀ m ∈ (R.requests i).members, ∀ fs fs', R.Variant fs → R.Variant fs' →
    fs.isFile R.cwd.parts m.path.text = fs'.isFile R.cwd.parts m.path.text
  shown : ∀ m ∈ (R.requests i).members, ∀ fs fs', R.Variant fs → R.Variant fs' →
    R.Stands fs → R.Stands fs' → Alike R.cwd.parts m.path fs fs'

variable {R : Rivalry n} {i : Fin n} {v v₁ v₂ : Own} {p : Path} {format : Format}

/-- The member is a file, with neither the entry at the target nor a new directory on the way to
it, and it is not a name of the file at the target. -/
def Apart (R : Rivalry n) (p : Path) : Prop :=
  ∃ l e l' id k m, R.bare.lstat R.cwd.parts p.text = .ok (l, e) ∧
    R.bare.stat R.cwd.parts p.text = .ok (l', .file id k m) ∧
    ∀ j, Entry.identity? e = some j → ¬R.base.Names R.place j

theorem Apart.alike (hp : R.Apart p) (h : R.Drawn) {fs : FileSystem} (hv : R.Variant fs) :
    Alike R.cwd.parts p fs R.base := by
  obtain ⟨l, e, l', id, k, m, hl, hs, hid⟩ := hp
  exact hv.alike h hl hs hid

/-- A write is steady if its members are files apart from what the writes change, and the
directories of the target can be made. -/
theorem Steady.of_apart (h : R.Drawn)
    (there : R.provided.isDirectory R.cwd.parts R.target.parent.text = .ok true)
    (beside : ∀ p, R.Temporary i p → R.Owns i p)
    (apart : ∀ m ∈ (R.requests i).members, R.Apart m.path) : R.Steady i where
  there := there
  beside p hp := .inl (beside p hp)
  checked m hm _ _ hv hv' :=
    ((apart m hm).alike h hv).isFile.trans ((apart m hm).alike h hv').isFile.symm
  shown m hm _ _ hv hv' _ _ := ((apart m hm).alike h hv).trans ((apart m hm).alike h hv').symm

theorem Drawn.barred_target (h : R.Drawn)
    (ht : R.provided.isDirectory R.cwd.parts R.target.parent.text = .ok true)
    (hformat : formatOf R.target = .ok format)
    (hplace : ¬R.room.Leads R.cwd.parts R.target R.place) : R.Barred R.target := by
  obtain ⟨c, hlast, hc, -⟩ := getLast?_of_formatOf hformat
  by_cases ha : Askable R.target.text
  · obtain ⟨d, hd⟩ := isDirectory_eq_true.mp (h.isDirectory_room ht)
    refine ⟨.nameTooLong, fun fs hv hs => ?_⟩
    rcases resolve_in_directory hc hlast ha ((hv.kept_room h hs).stat hd) with hlong | ⟨l, hl⟩
    · exact hlong
    · exact absurd (hv.leads_target h hl) hplace
  · obtain ⟨why, hwhy⟩ := resolve_of_not_askable ha false
    exact ⟨why, fun fs _ _ => hwhy fs _⟩

/-- The operations of a write apart from those that make directories. -/
def Sketches (R : Rivalry n) (i : Fin n) (o : FileOp) : Prop :=
  (R.requests i).Handles R.cwd o ∨
    o = .rename ((R.requests i).assembly R.cwd) (R.requests i).target

theorem ways_sketch (hformat : formatOf (R.requests i).target = .ok format) :
    (R.sketch i).Ways (R.Sketches i) (fun _ _ => True) fun _ => True := by
  have hmeets := meets_handles R i (P := R.Sketches i) fun _ => .inl
  unfold sketch
  rw [hformat]
  refine .bind (.pure format) fun format => .bind (ways_checkMembers hmeets fun _ => id) fun _ => ?_
  exact ways_assemble hmeets (.inr rfl) format

/-- Two moments at which the write has the same files beside the target. -/
structure Twin (R : Rivalry n) (i : Fin n) (v : Own) (fs fs' : FileSystem) : Prop where
  variant : R.Variant fs
  variant' : R.Variant fs'
  agrees : R.Agrees i fs v
  agrees' : R.Agrees i fs' v

theorem Variant.isSome_held {fs : FileSystem} (hv : R.Variant fs) (ho : R.Owns i p) :
    (fs.held (R.spot p)).isSome = (fs.lookup (R.spot p)).isSome := by
  rcases hv.beside i p ho with hn | ⟨id, k, m, hl⟩
  · rw [held_of_none hn, hn]
    rfl
  · rw [held_of_file hl, hl]
    rfl

section

variable {fs fs' : FileSystem} {now : Int}

theorem Twin.isSome (ht : R.Twin i v fs fs') (ho : R.Owns i p) :
    (fs.lookup (R.spot p)).isSome = (fs'.lookup (R.spot p)).isSome := by
  rw [← ht.variant.isSome_held ho, ← ht.variant'.isSome_held ho, ht.agrees p ho, ht.agrees' p ho]

variable (h : R.Drawn) (ht : R.Twin i v fs fs') (hst : R.Stands fs) (hst' : R.Stands fs')

include ht hst hst'

theorem Twin.barred (hp : R.Barred p) : ∃ why,
    fs.resolve false R.cwd.parts p.text = .error why ∧
      fs'.resolve false R.cwd.parts p.text = .error why := by
  obtain ⟨why, hwhy⟩ := hp
  exact ⟨why, hwhy fs ht.variant hst, hwhy fs' ht.variant' hst'⟩

theorem Twin.rename_barred (hp : R.Barred p) (q : Path) :
    ((FileOp.rename p q).perform R.cwd.parts now fs).1 =
      ((FileOp.rename p q).perform R.cwd.parts now fs').1 := by
  obtain ⟨why, hr, hr'⟩ := ht.barred hst hst' hp
  rw [perform_rename_refused hr, perform_rename_refused hr']

include h

theorem Twin.rename_to_barred {q : Path} (hq : R.Barred q) (ho : R.Owns i p) :
    ((FileOp.rename p q).perform R.cwd.parts now fs).1 =
      ((FileOp.rename p q).perform R.cwd.parts now fs').1 := by
  obtain ⟨why, hr, hr'⟩ := ht.barred hst hst' hq
  have hl := ho.2.kept (ht.variant.kept_room h hst).waysKept
  have hl' := ho.2.kept (ht.variant'.kept_room h hst').waysKept
  rw [perform_rename_to_refused hr now hl, perform_rename_to_refused hr' now hl', ht.isSome ho]

end

section

variable (h : R.Drawn) (hs : R.Steady i)

include hs

theorem Steady.barred (hp : R.Temporary i p) (ho : ¬R.Owns i p) : R.Barred p :=
  (hs.beside p hp).resolve_left ho

theorem Twin.handle_eq (h : R.Drawn) {fs fs' : FileSystem} (ht : R.Twin i v fs fs') {o : FileOp}
    (ho : (R.requests i).Handles R.cwd o) (hno : ¬R.Manages i o)
    (hst : o.checks = true ∨ R.Stands fs) (hst' : o.checks = true ∨ R.Stands fs') :
    (o.perform R.cwd.parts (R.requests i).now fs).1 =
      (o.perform R.cwd.parts (R.requests i).now fs').1 := by
  have hstands (hc : o.checks = false) : R.Stands fs ∧ R.Stands fs' :=
    ⟨hst.resolve_left (by simp [hc]), hst'.resolve_left (by simp [hc])⟩
  cases ho with
  | @isFile m hm => exact hs.checked m hm fs fs' ht.variant ht.variant'
  | @examine m hm =>
    obtain ⟨hst, hst'⟩ := hstands rfl
    exact (hs.shown m hm fs fs' ht.variant ht.variant' hst hst').examine
  | @contentOf m hm =>
    obtain ⟨hst, hst'⟩ := hstands rfl
    exact (hs.shown m hm fs fs' ht.variant ht.variant' hst hst').contentOf
  | create hp =>
    obtain ⟨hst, hst'⟩ := hstands rfl
    obtain ⟨why, hr, hr'⟩ := ht.barred hst hst' (hs.barred hp hno)
    rw [perform_createFile_refused hr, perform_createFile_refused hr']
  | write hp k =>
    obtain ⟨hst, hst'⟩ := hstands rfl
    obtain ⟨why, hr, hr'⟩ := ht.barred hst hst' (hs.barred hp hno)
    rw [perform_writeFile_refused hr, perform_writeFile_refused hr']
  | unlink hp =>
    obtain ⟨hst, hst'⟩ := hstands rfl
    obtain ⟨why, hr, hr'⟩ := ht.barred hst hst' (hs.barred hp hno)
    rw [perform_unlink_refused hr, perform_unlink_refused hr']
  | assemble =>
    obtain ⟨hst, hst'⟩ := hstands rfl
    by_cases hown : R.Owns i ((R.requests i).tarFile R.cwd)
    · have hother : ¬R.Owns i ((R.requests i).assembly R.cwd) := fun ho => hno ⟨hown, .inl ho⟩
      exact ht.rename_to_barred h hst hst' (hs.barred (.inl rfl) hother) hown
    · exact ht.rename_barred hst hst' (hs.barred (.inr rfl) hown) _

theorem Twin.land_eq (h : R.Drawn) (hformat : formatOf R.target = .ok format) {fs fs' : FileSystem}
    (ht : R.Twin i v fs fs')
    (hm : ¬R.Manages i (.rename ((R.requests i).assembly R.cwd) R.target))
    (hst : R.Stands fs) (hst' : R.Stands fs') :
    ((FileOp.rename ((R.requests i).assembly R.cwd) R.target).perform R.cwd.parts
        (R.requests i).now fs).1 =
      ((FileOp.rename ((R.requests i).assembly R.cwd) R.target).perform R.cwd.parts
        (R.requests i).now fs').1 := by
  by_cases hown : R.Owns i ((R.requests i).assembly R.cwd)
  · have hplace : ¬R.room.Leads R.cwd.parts R.target R.place :=
      fun hl => hm ⟨hown, .inr ⟨rfl, hl⟩⟩
    exact ht.rename_to_barred h hst hst' (h.barred_target hs.there hformat hplace) hown
  · exact ht.rename_barred hst hst' (hs.barred (.inl rfl) hown) _

include h

theorem answers_unique (hformat : formatOf R.target = .ok format) {o : FileOp}
    {r r' : Except Refusal o.Reply} (ho : R.Sketches i o)
    (ha : R.Answers i o v r v₁) (ha' : R.Answers i o v r' v₂) : r = r' ∧ v₁ = v₂ := by
  rcases ha with ⟨hm, rfl, rfl⟩ | ⟨hm, rfl, fs, hv, hown, hst, hr⟩
  · obtain ⟨-, rfl, rfl⟩ := ha'.resolve_right fun hno => hno.1 hm
    exact ⟨rfl, rfl⟩
  · obtain ⟨-, rfl, fs', hv', hown', hst', hr'⟩ := ha'.resolve_left fun hm' => hm hm'.1
    refine ⟨?_, rfl⟩
    have ht : R.Twin i v₂ fs fs' := ⟨hv, hv', hown, hown'⟩
    have hsame : (o.perform R.cwd.parts (R.requests i).now fs).1 =
        (o.perform R.cwd.parts (R.requests i).now fs').1 := by
      rcases ho with ho | rfl
      · exact ht.handle_eq hs h ho hm hst hst'
      · rw [h.same i] at hm ⊢
        exact ht.land_eq hs h hformat hm (hst.resolve_left nofun) (hst'.resolve_left nofun)
    rw [hr, hr'] at hsame
    exact hsame

theorem sketch_unique {r r' : Except Fault Unit}
    (hc : (R.sketch i).Comes (R.Answers i) v r v₁)
    (hc' : (R.sketch i).Comes (R.Answers i) v r' v₂) : r = r' := by
  have hsame := congrArg formatOf (h.same i)
  cases hformat : formatOf R.target with
  | error e =>
    unfold sketch at hc hc'
    rw [hsame, hformat] at hc hc'
    exact (comes_throw.mp hc).1.trans (comes_throw.mp hc').1.symm
  | ok format =>
    refine Comes.unique (ways_sketch (hsame.trans hformat)) ?_ hc hc'
    exact fun o v r v₁ r' v₂ ho ha ha' => answers_unique h hs hformat ho ha ha'

end

end Rivalry

end Bundle

end TabPackager
