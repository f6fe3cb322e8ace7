import TabPackager.Proofs.RivalOperations

/-!
# What a write among its rivals can come to

Whatever a write is answered, its archive is complete before it is moved to the target, and in the
end nothing of it is left beside the target. The steps are those of a write alone, told from the
files of the write and from what the paths of its members show.
-/

namespace TabPackager.Bundle

open FileSystem TabPackager.Task

namespace Rivalry

variable {n : Nat} {R : Rivalry n} {i : Fin n} {v v' : Own} {p : Path} {format : Format}

theorem comes_of_manages {o : FileOp} {r : Except Fault o.Reply} (hm : R.Manages i o)
    (h : (Task.call o).Comes (R.Answers i) v r v') :
    r = outcome o (R.answer i o v).1 ∧ v' = (R.answer i o v).2 := by
  obtain ⟨reply, hans, rfl⟩ := comes_call.mp h
  rcases hans with ⟨-, rfl, hv⟩ | ⟨hno, -⟩
  · exact ⟨rfl, hv⟩
  · exact absurd hm hno

theorem comes_writeFile {k : Content} {r : Except Fault Unit} (ho : R.Owns i p)
    (h : (Task.call (.writeFile p k)).Comes (R.Answers i) v r v') :
    r = .ok () ∧ v' = Function.update v p (some (k, (R.requests i).now)) :=
  comes_of_manages (o := .writeFile p k) ho h

theorem comes_discard {r : Except Fault Unit} (ho : R.Owns i p)
    (h : (discard p).Comes (R.Answers i) v r v') :
    r = .ok () ∧ v' = Function.update v p none := by
  obtain ⟨reply, v₁, hans, hrest⟩ := comes_attempt_bind.mp h
  rcases hans with ⟨-, rfl, rfl⟩ | ⟨hno, -⟩
  · cases hv : v p with
    | none =>
      have hanswer : R.answer i (.unlink p) v = (.error .noEntry, v) := by
        simp only [answer, hv]
      rw [hanswer] at hrest
      obtain ⟨hr, rfl⟩ := comes_pure.mp hrest
      exact ⟨hr, by rw [← hv, Function.update_eq_self]⟩
    | some x =>
      rw [answer_unlink hv] at hrest
      exact comes_pure.mp hrest
  · exact absurd ho hno

section

variable (h : R.Drawn)

include h

/-- A write has a file of its own beside the target when that has been made, and else no more than
before. -/
theorem comes_createFile (hp : R.Temporary i p) {r : Except Fault Unit}
    (hc : (Task.call (.createFile p)).Comes (R.Answers i) v r v') :
    (r = .ok () ∧ R.Owns i p ∧ ∀ p', p' ≠ p → v' p' = v p') ∨ ∃ f, r = .error f ∧ v' = v := by
  obtain ⟨reply, hans, rfl⟩ := comes_call.mp hc
  rcases hans with ⟨ho, rfl, rfl⟩ | ⟨hno, rfl, fs, hv, -, -, hperform⟩
  · cases hvp : v p with
    | none =>
      rw [answer_createFile hvp]
      exact .inl ⟨rfl, ho, fun p' hne => Function.update_of_ne hne _ _⟩
    | some x =>
      have hanswer : R.answer i (.createFile p) v = (.error .occupied, v) := by
        simp only [answer, hvp]
      rw [hanswer]
      exact .inr ⟨_, rfl, rfl⟩
  · obtain ⟨why, hr⟩ := hv.refused h hp hno
    rw [perform_createFile_refused hr] at hperform
    cases hperform
    exact .inr ⟨_, rfl, rfl⟩

theorem comes_examine {r : Except Fault Examined}
    (hc : (Task.call (.examine p)).Comes (R.Answers i) v r v') :
    v' = v ∧ ∀ s, r = .ok s → Seen R.room R.cwd.parts p s := by
  obtain ⟨reply, hans, rfl⟩ := comes_call.mp hc
  obtain ⟨-, rfl, fs, hv, -, hs, hperform⟩ := hans.resolve_left fun hm => hm.1
  refine ⟨rfl, fun s hr => ?_⟩
  obtain rfl := outcome_eq_ok.mp hr
  exact Seen.of_examine (hv.kept_room h (hs.resolve_left nofun)) hperform

theorem comes_contentOf {r : Except Fault (Content × Int)}
    (hc : (Task.call (.contentOf p)).Comes (R.Answers i) v r v') :
    v' = v ∧ ∀ x, r = .ok x → Got R.room R.cwd.parts p x.1 x.2 := by
  obtain ⟨reply, hans, rfl⟩ := comes_call.mp hc
  obtain ⟨-, rfl, fs, hv, -, hs, hperform⟩ := hans.resolve_left fun hm => hm.1
  refine ⟨rfl, fun x hr => ?_⟩
  obtain rfl := outcome_eq_ok.mp hr
  exact Got.of_contentOf (hv.kept_room h (hs.resolve_left nofun)) hperform

end

theorem comes_mayStore {mishaps : Mishaps} {number : Nat} {r : Except Fault Unit}
    (h : (mayStore mishaps number).Comes (R.Answers i) v r v') : v' = v := by
  unfold mayStore at h
  split at h
  · exact (comes_throw.mp h).2
  · exact (comes_pure.mp h).2

section

variable (h : R.Drawn) {mishaps : Mishaps} {members : List Member}

include h

/-- The entries that are added are those of the members as they stand with all directories
there. -/
theorem comes_storeTar {number : Nat} {stored : List (Nat × String)}
    {entries entries' : List (TarEntry Content)}
    (hc : (storeTar mishaps p number stored entries members).Comes (R.Answers i) v (.ok entries')
      v') : ∃ es, entries' = entries ++ es ∧ TarPacked R.room R.cwd.parts stored members es := by
  induction members generalizing number stored entries v with
  | nil =>
    obtain ⟨hr, -⟩ := comes_pure.mp hc
    cases hr
    exact ⟨[], (List.append_nil _).symm, .nil stored⟩
  | cons m ms ih =>
    obtain ⟨_, v₁, -, hc⟩ := (comes_bind.mp hc).resolve_right (by simp)
    obtain ⟨seen, v₂, hexamine, hc⟩ := (comes_bind.mp hc).resolve_right (by simp)
    have hseen := (comes_examine h hexamine).2 seen rfl
    split at hc
    · next hnone =>
      obtain ⟨es, he, hp⟩ := ih hc
      exact ⟨es, he, .skip hseen hnone hp⟩
    · next e hsome =>
      obtain ⟨_, v₃, -, hc⟩ := (comes_bind.mp hc).resolve_right (by simp)
      obtain ⟨es, he, hp⟩ := ih hc
      refine ⟨e :: es, ?_, .store hseen hsome hp⟩
      rw [he, List.append_assoc, List.singleton_append]

theorem comes_storeZip (ho : R.Owns i p) {number : Nat} {entries : List (ZipEntry Content)}
    {r : Except Fault (List (ZipEntry Content))}
    (hc : (storeZip mishaps p number entries members).Comes (R.Answers i) v r v') :
    (∀ p', p' ≠ p → v' p' = v p') ∧ ∀ entries', r = .ok entries' →
      ∃ es, entries' = entries ++ es ∧ ZipPacked R.room R.cwd.parts members es := by
  induction members generalizing number entries v with
  | nil =>
    obtain ⟨rfl, rfl⟩ := comes_pure.mp hc
    refine ⟨fun _ _ => rfl, fun entries' hr => ⟨[], ?_, .nil⟩⟩
    rw [List.append_nil]
    exact (Except.ok.inj hr).symm
  | cons m ms ih =>
    rcases comes_bind.mp hc with ⟨_, v₁, hmay, hrest⟩ | ⟨f, hmay, rfl⟩
    · obtain rfl := comes_mayStore hmay
      rcases comes_bind.mp hrest with ⟨⟨k, t⟩, v₂, hread, hthen⟩ | ⟨f, hread, rfl⟩
      · obtain ⟨rfl, hgot⟩ := comes_contentOf h hread
        dsimp only at hthen
        split at hthen
        · obtain ⟨rfl, rfl⟩ := comes_throw.mp hthen
          exact ⟨fun _ _ => rfl, nofun⟩
        · next name hname =>
          rcases comes_bind.mp hthen with ⟨_, v₃, hwrite, hlast⟩ | ⟨f, hwrite, rfl⟩
          · obtain ⟨-, rfl⟩ := comes_writeFile ho hwrite
            obtain ⟨hsame, hpacked⟩ := ih hlast
            refine ⟨fun p' hne => (hsame p' hne).trans (Function.update_of_ne hne _ _), ?_⟩
            intro entries' hr
            obtain ⟨es, he, hp⟩ := hpacked entries' hr
            refine ⟨zipEntry name k t :: es, ?_, .cons ⟨name, k, t, hname, hgot _ rfl, rfl⟩ hp⟩
            rw [he, List.append_assoc, List.singleton_append]
          · cases (comes_writeFile ho hwrite).1
      · obtain ⟨rfl, -⟩ := comes_contentOf h hread
        exact ⟨fun _ _ => rfl, nofun⟩
    · obtain rfl := comes_mayStore hmay
      exact ⟨fun _ _ => rfl, nofun⟩

omit h in
theorem comes_checkMembers {r : Except Fault Unit}
    (hc : (checkMembers members).Comes (R.Answers i) v r v') : v' = v := by
  have hcall {m : Member} {r : Except Fault Bool} {v₁ : Own}
      (hc : (Task.call (.isFile m.path)).Comes (R.Answers i) v r v₁) : v₁ = v := by
    obtain ⟨reply, hans, -⟩ := comes_call.mp hc
    exact (hans.resolve_left fun hm => hm.1).2.1
  induction members with
  | nil => exact (comes_pure.mp hc).2
  | cons m ms ih =>
    rcases comes_bind.mp hc with ⟨there, v₁, hfile, hrest⟩ | ⟨f, hfile, -⟩
    · obtain rfl := hcall hfile
      split at hrest
      · exact ih hrest
      · exact (comes_throw.mp hrest).2
    · exact hcall hfile

theorem comes_fillTar (ho : R.Owns i p) {entries : List (TarEntry Content)}
    (hc : (fillTar mishaps p members).Comes (R.Answers i) v (.ok entries) v') :
    v' p = some (.archive (.tar entries), (R.requests i).now) ∧
      TarPacked R.room R.cwd.parts [] members entries := by
  obtain ⟨_, v₁, -, hc⟩ := (comes_bind.mp hc).resolve_right (by simp)
  obtain ⟨entries', v₂, hstore, hc⟩ := (comes_bind.mp hc).resolve_right (by simp)
  obtain ⟨_, v₃, hwrite, hc⟩ := (comes_bind.mp hc).resolve_right (by simp)
  obtain ⟨hr, rfl⟩ := comes_pure.mp hc
  cases hr
  obtain ⟨es, he, hp⟩ := comes_storeTar h hstore
  obtain rfl : entries = es := he
  obtain ⟨-, rfl⟩ := comes_writeFile ho hwrite
  exact ⟨Function.update_self _ _ _, hp⟩

theorem comes_writeTar (hp : R.Temporary i p) (hv : v p = none)
    {r : Except Fault (List (TarEntry Content))}
    (hc : (writeTar mishaps p members).Comes (R.Answers i) v r v') :
    (∃ f, r = .error f ∧ v' p = none) ∨
      ∃ entries, r = .ok entries ∧ R.Owns i p ∧
        v' p = some (.archive (.tar entries), (R.requests i).now) ∧
        TarPacked R.room R.cwd.parts [] members entries := by
  rw [writeTar_eq] at hc
  rcases comes_bind.mp hc with ⟨_, v₁, hcreate, hc⟩ | ⟨f, hcreate, rfl⟩
  · obtain ⟨-, ho, -⟩ := (comes_createFile h hp hcreate).resolve_right (by simp)
    rcases hc.tryCatch with ⟨entries, hfill, rfl⟩ | ⟨f, v₂, -, hc⟩
    · exact .inr ⟨entries, rfl, ho, comes_fillTar h ho hfill⟩
    · rcases comes_bind.mp hc with ⟨_, v₃, hdiscard, hc⟩ | ⟨g, hdiscard, -⟩
      · obtain ⟨-, rfl⟩ := comes_discard ho hdiscard
        obtain ⟨rfl, rfl⟩ := comes_throw.mp hc
        exact .inl ⟨f, rfl, Function.update_self _ _ _⟩
      · cases (comes_discard ho hdiscard).1
  · obtain ⟨f', hf, rfl⟩ := (comes_createFile h hp hcreate).resolve_left (by simp)
    exact .inl ⟨f, rfl, hv⟩

omit h in
theorem comes_pack {target : Path} {a empty : Archive Content} (ho : R.Owns i p)
    (hc : (pack mishaps format target p a empty).Comes (R.Answers i) v (.ok ()) v') :
    v' p = some (.archive a, (R.requests i).now) := by
  obtain ⟨_, v₁, -, hc⟩ := (comes_bind.mp hc).resolve_right (by simp)
  split at hc
  · obtain ⟨hr, -⟩ := comes_throw.mp hc
    cases hr
  · obtain ⟨-, rfl⟩ := comes_writeFile ho hc
    exact Function.update_self _ _ _

omit h in
theorem comes_finish {tarPath output target : Path} {entries : List (TarEntry Content)} {m : Int}
    (ho : R.Owns i tarPath) (ho' : R.Owns i output) (htarget : output ≠ R.target)
    (hv : v tarPath = some (.archive (.tar entries), m))
    (hp : TarPacked R.room R.cwd.parts [] (R.requests i).members entries) (hf : format ≠ .zip)
    (hc : (finish mishaps format target output tarPath entries).Comes (R.Answers i) v (.ok ())
      v') : ∃ k m, v' output = some (k, m) ∧ R.Complete i format k := by
  have hpack {a empty : Archive Content}
      (hc : (pack mishaps format target output a empty).Comes (R.Answers i) v (.ok ()) v')
      (ha : a.format = format) (hp : Packed R.room R.cwd.parts (R.requests i).members a) :
      ∃ k m, v' output = some (k, m) ∧ R.Complete i format k :=
    ⟨_, _, comes_pack ho' hc, a, rfl, ha, hp⟩
  cases format with
  | zip => exact absurd rfl hf
  | zstd => exact hpack hc rfl hp
  | gzip => exact hpack hc rfl hp
  | tar =>
    obtain ⟨-, rfl⟩ := comes_of_manages (o := .rename tarPath output) ⟨ho, .inl ho'⟩ hc
    rw [answer_rename hv fun he => absurd he htarget]
    exact ⟨_, m, Function.update_self _ _ _, _, rfl, rfl, hp⟩

theorem comes_fillZip (ho : R.Owns i p) {r : Except Fault Unit}
    (hc : (fillZip mishaps p (R.requests i).members).Comes (R.Answers i) v r v') :
    (∀ p', p' ≠ p → v' p' = v p') ∧
      (r = .ok () → ∃ k m, v' p = some (k, m) ∧ R.Complete i .zip k) := by
  rcases comes_bind.mp hc with ⟨_, v₁, hwrite, hc⟩ | ⟨f, hwrite, rfl⟩
  · obtain ⟨-, rfl⟩ := comes_writeFile ho hwrite
    rcases comes_bind.mp hc with ⟨entries, v₂, hstore, hc⟩ | ⟨f, hstore, rfl⟩
    · obtain ⟨hsame, hpacked⟩ := comes_storeZip h ho hstore
      obtain ⟨es, he, hp⟩ := hpacked entries rfl
      obtain rfl : entries = es := he
      obtain ⟨-, rfl⟩ := comes_writeFile ho hc
      refine ⟨fun p' hne => ?_, fun _ => ⟨_, _, Function.update_self _ _ _, _, rfl, rfl, hp⟩⟩
      rw [Function.update_of_ne hne, hsame p' hne, Function.update_of_ne hne]
    · refine ⟨fun p' hne => ?_, nofun⟩
      rw [(comes_storeZip h ho hstore).1 p' hne, Function.update_of_ne hne]
  · cases (comes_writeFile ho hwrite).1

/-- The archive that a write leaves in its file is complete, and its tar file is gone. -/
theorem comes_writeArchive {r : Except Fault Unit}
    (ho : R.Owns i ((R.requests i).assembly R.cwd))
    (hv : v ((R.requests i).tarFile R.cwd) = none)
    (hc : (writeArchive (R.requests i).mishaps format (R.requests i).members (R.requests i).target
      ((R.requests i).assembly R.cwd) ((R.requests i).tarFile R.cwd)).Comes (R.Answers i) v r v') :
    v' ((R.requests i).tarFile R.cwd) = none ∧ (r = .ok () → ∃ k m,
      v' ((R.requests i).assembly R.cwd) = some (k, m) ∧ R.Complete i format k) := by
  have htwo := h.two i
  by_cases hf : format = .zip
  · subst hf
    rw [writeArchive_zip] at hc
    obtain ⟨hsame, hok⟩ := comes_fillZip h ho hc
    exact ⟨(hsame _ htwo.symm).trans hv, hok⟩
  · rw [writeArchive_tar hf] at hc
    rcases comes_bind.mp hc with ⟨entries, v₁, htar, hc⟩ | ⟨f, htar, rfl⟩
    · obtain ⟨entries', he, ho', hv₁, hp⟩ :=
        (comes_writeTar h (.inr rfl) hv htar).resolve_left (by simp)
      cases he
      obtain ⟨r₁, v₂, r₂, hfinish, hdiscard, hr⟩ := hc.thenAlways
      obtain ⟨rfl, rfl⟩ := comes_discard ho' hdiscard
      obtain rfl := hr rfl
      refine ⟨Function.update_self _ _ _, ?_⟩
      rintro rfl
      rw [Function.update_of_ne htwo]
      exact comes_finish ho' ho (ho.ne_target h) hv₁ hp hf hfinish
    · obtain ⟨g, -, hv'⟩ := (comes_writeTar h (.inr rfl) hv htar).resolve_right (by simp)
      exact ⟨hv', nofun⟩

omit h in
theorem comes_land {r : Except Fault Unit} {p' : Path}
    (hc : (Task.call (.rename p R.target)).Comes (R.Answers i) v r v') (hne : p' ≠ p)
    (htarget : p' ≠ R.target) : v' p' = v p' := by
  obtain ⟨reply, hans, rfl⟩ := comes_call.mp hc
  rcases hans with ⟨-, -, rfl⟩ | ⟨-, rfl, -⟩
  · simp only [answer]
    split
    · rfl
    · rfl
    · exact (Function.update_of_ne htarget _ _).trans (Function.update_of_ne hne _ _)
  · rfl

theorem comes_assemble {r : Except Fault Unit}
    (hc : ((R.requests i).assemble R.cwd format).Comes (R.Answers i) (fun _ => none) r v')
    (ho : R.Owns i p) : v' p = none := by
  rcases comes_bind.mp hc with ⟨_, v₁, hcreate, hc⟩ | ⟨f, hcreate, rfl⟩
  · obtain ⟨-, hown, hsame⟩ := (comes_createFile h (.inl rfl) hcreate).resolve_right (by simp)
    have htar := hsame _ (h.two i).symm
    obtain ⟨r₁, v₂, r₂, hfill, hdiscard, -⟩ := hc.thenAlways
    obtain ⟨-, rfl⟩ := comes_discard hown hdiscard
    have hgone : R.Owns i ((R.requests i).tarFile R.cwd) →
        v₂ ((R.requests i).tarFile R.cwd) = none := by
      intro ho
      rcases comes_bind.mp hfill with ⟨_, v₃, hwrite, hland⟩ | ⟨f, hwrite, -⟩
      · rw [h.same i] at hland
        rw [comes_land hland (h.two i).symm (ho.ne_target h)]
        exact (comes_writeArchive h hown htar hwrite).1
      · exact (comes_writeArchive h hown htar hwrite).1
    by_cases hp : p = (R.requests i).assembly R.cwd
    · rw [hp]
      exact Function.update_self _ _ _
    · rw [Function.update_of_ne hp]
      obtain rfl := ho.1.resolve_left hp
      exact hgone ho
  · obtain ⟨f', -, rfl⟩ := (comes_createFile h (.inl rfl) hcreate).resolve_left (by simp)
    rfl

end

/-- What a write does apart from the making of directories. -/
def sketch (R : Rivalry n) (i : Fin n) : Task Unit :=
  refused (formatOf (R.requests i).target) >>= fun format =>
    checkMembers (R.requests i).members >>= fun _ => (R.requests i).assemble R.cwd format

theorem comes_sketch (h : R.Drawn) {r : Except Fault Unit}
    (hc : (R.sketch i).Comes (R.Answers i) (fun _ => none) r v') (ho : R.Owns i p) :
    v' p = none := by
  unfold sketch at hc
  cases hf : formatOf (R.requests i).target with
  | error e =>
    rw [hf] at hc
    rcases comes_bind.mp hc with ⟨_, _, hthrow, -⟩ | ⟨f, hthrow, -⟩
    · cases (comes_throw.mp hthrow).1
    · rw [(comes_throw.mp hthrow).2]
  | ok format =>
    rw [hf] at hc
    rcases comes_bind.mp hc with ⟨_, _, hpure, hrest⟩ | ⟨f, hpure, -⟩
    · obtain ⟨hr, rfl⟩ := comes_pure.mp hpure
      cases hr
      rcases comes_bind.mp hrest with ⟨_, v₁, hcheck, hlast⟩ | ⟨f, hcheck, -⟩
      · obtain rfl := comes_checkMembers hcheck
        exact comes_assemble h hlast ho
      · rw [comes_checkMembers hcheck]
    · cases (comes_pure.mp hpure).1

end Rivalry

end TabPackager.Bundle
