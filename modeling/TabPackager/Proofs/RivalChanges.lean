import TabPackager.Proofs.Rivalry

/-!
# Changes by rival writes

What a write may do among its rivals keeps the invariant of their files: it makes, changes and
takes away its own files, makes directories above the target, and puts a complete archive there.
-/

namespace TabPackager.Bundle.Rivalry

open FileSystem

variable {n : Nat} {R : Rivalry n} {fs fs' : FileSystem} {w : Stage n} {i j : Fin n} {p p' : Path}
  {l : Location} {id : Nat} {k : Content} {m : Int}

section

variable (h : R.Drawn) (hf : R.Fits w) (ho : R.Owns i p)
  (hl : ∀ l, l ≠ R.spot p → fs'.lookup l = w.files.lookup l)
  (hp : fs'.lookup (R.spot p) = none ∨ ∃ id, fs'.Names (R.spot p) id ∧
    ∀ l, l ≠ R.spot p → ¬w.files.Names l id)

include hp

theorem not_names_spot (hne : l ≠ R.spot p) (hn : w.files.Names l id) :
    ¬fs'.Names (R.spot p) id := by
  intro hn'
  rcases hp with hnone | ⟨id', hid', hfresh⟩
  · exact not_names_of_none hnone hn'
  · obtain ⟨k, m, hf⟩ := hn'
    obtain ⟨k', m', hf'⟩ := hid'
    cases hf.symm.trans hf'
    exact hfresh l hne hn

include hl

theorem Sole.changeOwn (hne : l ≠ R.spot p) (hs : Sole w.files l) : Sole fs' l := by
  intro id hn l' hn'
  have hold := (names_congr (hl l hne)).mp hn
  by_cases hl' : l' = R.spot p
  · exact absurd (hl' ▸ hn') (not_names_spot hp hne hold)
  · exact hs id hold l' ((names_congr (hl l' hl')).mp hn')

include h hf ho

theorem Variant.changeOwn
    (hc : ∀ id, ¬fs'.Names (R.spot p) id → ¬w.files.Names (R.spot p) id →
      fs'.nameCount id = w.files.nameCount id) :
    R.Variant fs' where
  elsewhere l hlp hls := by
    rw [hl l (hls i p ho)]
    exact hf.variant.elsewhere l hlp hls
  beside j p' ho' := by
    by_cases hpp : R.spot p' = R.spot p
    · rw [hpp]
      exact hp.imp_right fun ⟨id, hid, _⟩ => ⟨id, hid⟩
    · rw [hl _ hpp]
      exact (hf.variant.beside j p' ho').imp_right fun ⟨id, hid⟩ =>
        ⟨id, (names_congr (hl _ hpp)).mpr hid⟩
  target := by
    have hplace := hl _ (h.free ho).2.symm
    rw [hplace]
    exact hf.variant.target.imp_right fun ⟨id, hid⟩ => ⟨id, (names_congr hplace).mpr hid⟩
  names l id hlp hn hnp := by
    rw [← hf.variant.names l id hlp hn hnp]
    obtain ⟨k, m, hb⟩ := hn
    have hthere : w.files.Names l id := ⟨k, m, hf.variant.lookup_base h hlp hb⟩
    have hne : l ≠ R.spot p := by
      rintro rfl
      cases (h.base_spot ho).symm.trans hb
    exact hc id (not_names_spot hp hne hthere) fun hn => hne (hf.sole i p ho id hn l hthere)

theorem Fits.changeOwn (hk : fs'.Keyed)
    (hc : ∀ id, ¬fs'.Names (R.spot p) id → ¬w.files.Names (R.spot p) id →
      fs'.nameCount id = w.files.nameCount id) :
    R.Fits ⟨fs', w.landed⟩ := by
  have hplace : R.place ≠ R.spot p := (h.free ho).2.symm
  constructor
  case variant => exact Variant.changeOwn h hf ho hl hp hc
  case keyed => exact hk
  case sole =>
    intro j p' ho'
    by_cases hpp : R.spot p' = R.spot p
    · intro id hn l hn'
      by_contra hne
      rw [hpp] at hn hne
      exact not_names_spot hp hne ((names_congr (hl l hne)).mp hn') hn
    · exact Sole.changeOwn hl hp hpp (hf.sole j p' ho')
  case before => exact fun hn => (hl _ hplace).trans (hf.before hn)
  case landed =>
    intro j hj
    obtain ⟨hd, hs, hs', hlead, format, id, hformat, hfilled⟩ := hf.landed j hj
    exact ⟨hd, fun l hd => (hl l (h.directory_ne_spot hd ho)).trans (hs l hd),
      Sole.changeOwn hl hp hplace hs', hlead, format, id, hformat, hfilled.congr (hl _ hplace)⟩

end

theorem Fits.put (h : R.Drawn) (hf : R.Fits w) (ho : R.Owns i p) (id : Nat) (k : Content) (m : Int)
    (hid : ∀ l, l ≠ R.spot p → ¬w.files.Names l id) :
    R.Fits ⟨w.files.insert (R.spot p) (.file id k m), w.landed⟩ := by
  have hne := ho.spot_ne_nil
  have hself : (w.files.insert (R.spot p) (.file id k m)).lookup (R.spot p) =
      some (.file id k m) := lookup_insert_self hne _
  refine hf.changeOwn h ho ?_ (.inr ⟨id, ⟨k, m, hself⟩, hid⟩) (hf.keyed.insert _ _) ?_
  · exact fun l hl => lookup_insert_of_ne hne hl _
  · intro id' hn hn'
    refine nameCount_insert hne (fun he => ?_) hn'
    cases he
    exact hn ⟨k, m, hself⟩

theorem Fits.drop (h : R.Drawn) (hf : R.Fits w) (ho : R.Owns i p) :
    R.Fits ⟨w.files.erase (R.spot p), w.landed⟩ := by
  have hne := ho.spot_ne_nil
  refine hf.changeOwn h ho ?_ (.inl (lookup_erase_self hne)) (hf.keyed.erase _) fun id _ hn => ?_
  · exact fun l hl => lookup_erase_of_ne hne hl
  · exact nameCount_erase hf.keyed hne hn

theorem Sole.not_names_erase (hs : Sole fs l) (hne : l ≠ []) (hl : fs.Names l id)
    (l' : Location) : ¬(fs.erase l).Names l' id := by
  intro hn
  obtain ⟨hne', hn⟩ := hn.of_erase hne
  exact hne' (hs id hl l' hn)

theorem lookup_rewrite (hs : Sole fs l) (hl : fs.lookup l = some (.file id k m)) (k' : Content)
    (m' : Int) (l' : Location) : (fs.replaceContent id k' m').lookup l' =
      if l' = l then some (.file id k' m') else fs.lookup l' := by
  rw [lookup_replaceContent]
  by_cases hll : l' = l
  · rw [if_pos hll, hll, hl]
    simp [Entry.withContent, Entry.identity?]
  · rw [if_neg hll]
    cases he : fs.lookup l' with
    | none => rfl
    | some e =>
      have hid : Entry.identity? e ≠ some id := by
        intro hid
        obtain ⟨k₁, m₁, rfl⟩ := identity?_eq_some.mp hid
        exact hll (hs id ⟨k, m, hl⟩ l' ⟨k₁, m₁, he⟩)
      rw [Option.map_some, Entry.withContent, if_neg hid]

theorem Fits.rewrite (h : R.Drawn) (hf : R.Fits w) (ho : R.Owns i p)
    (hl : w.files.lookup (R.spot p) = some (.file id k m)) (k' : Content) (m' : Int) :
    R.Fits ⟨w.files.replaceContent id k' m', w.landed⟩ := by
  have hlook := lookup_rewrite (hf.sole i p ho) hl k' m'
  have hself := (hlook (R.spot p)).trans (if_pos rfl)
  refine hf.changeOwn h ho ?_ (.inr ⟨id, ⟨k', m', hself⟩, ?_⟩) (hf.keyed.replaceContent _ _ _) ?_
  · exact fun l hne => (hlook l).trans (if_neg hne)
  · exact fun l hne hn => hne (hf.sole i p ho id ⟨k, m, hl⟩ l hn)
  · exact fun id' _ _ => nameCount_replaceContent _ _ _ _ _

section

variable (h : R.Drawn) (hf : R.Fits w) (hl : R.room.lookup l = some .directory)
  (hn : w.files.lookup l = none)

include hn

theorem ne_nil_of_free : l ≠ [] := by
  rintro rfl
  cases hn

theorem names_insert_directory {l' : Location} :
    (w.files.insert l .directory).Names l' id ↔ w.files.Names l' id := by
  by_cases hl' : l' = l
  · simp [Names, lookup_insert (ne_nil_of_free hn), hl', hn]
  · exact names_congr (lookup_insert_of_ne (ne_nil_of_free hn) hl' _)

theorem Sole.insert_directory {l' : Location} (hs : Sole w.files l') :
    Sole (w.files.insert l .directory) l' := fun id hn' l'' hn'' =>
  hs id ((names_insert_directory hn).mp hn') l'' ((names_insert_directory hn).mp hn'')

include h hf hl

theorem Variant.makeDirectory : R.Variant (w.files.insert l .directory) where
  elsewhere l' hlp hls := by
    by_cases hl' : l' = l
    · subst hl'
      exact .inr ⟨hl, lookup_insert_self (ne_nil_of_free hn) _⟩
    · rw [lookup_insert_of_ne (ne_nil_of_free hn) hl']
      exact hf.variant.elsewhere l' hlp hls
  beside j p' ho' := by
    rw [lookup_insert_of_ne (ne_nil_of_free hn) (h.directory_ne_spot hl ho').symm]
    exact (hf.variant.beside j p' ho').imp_right fun ⟨id, hid⟩ =>
      ⟨id, (names_insert_directory hn).mpr hid⟩
  target := by
    rw [lookup_insert_of_ne (ne_nil_of_free hn) (directory_ne_place hl).symm]
    exact hf.variant.target.imp_right fun ⟨id, hid⟩ => ⟨id, (names_insert_directory hn).mpr hid⟩
  names l' id hlp hb hnp := by
    rw [← hf.variant.names l' id hlp hb hnp]
    exact nameCount_insert (ne_nil_of_free hn) nofun (not_names_of_none hn)

theorem Fits.makeDirectory : R.Fits ⟨w.files.insert l .directory, w.landed⟩ := by
  have hne := ne_nil_of_free hn
  have hplace : (w.files.insert l .directory).lookup R.place = w.files.lookup R.place :=
    lookup_insert_of_ne hne (directory_ne_place hl).symm _
  constructor
  case variant => exact Variant.makeDirectory h hf hl hn
  case keyed => exact hf.keyed.insert _ _
  case sole => exact fun j p' ho' => (hf.sole j p' ho').insert_directory hn
  case before => exact fun hw => hplace.trans (hf.before hw)
  case landed =>
    intro j hj
    obtain ⟨hd, hs, hs', hlead, format, id, hformat, hk⟩ := hf.landed j hj
    refine ⟨hd, fun l' hl' => ?_, hs'.insert_directory hn, hlead, format, id, hformat,
      hk.congr hplace⟩
    rw [lookup_insert hne]
    split
    · rfl
    · exact hs l' hl'

end

section

variable (h : R.Drawn) (hf : R.Fits w) (hid : ∀ l, ¬w.files.Names l id)

theorem lookup_land (hl : l ≠ R.place) :
    (w.files.insert R.place (.file id k m)).lookup l = w.files.lookup l :=
  lookup_insert_of_ne R.place_ne_nil hl _

theorem eq_of_names_land {id' : Nat}
    (hn : (w.files.insert R.place (.file id k m)).Names R.place id') : id' = id := by
  obtain ⟨k', m', hn⟩ := hn
  cases (lookup_insert_self R.place_ne_nil _).symm.trans hn
  rfl

include h hf hid

theorem Variant.land : R.Variant (w.files.insert R.place (.file id k m)) where
  elsewhere l hlp hls := by
    rw [lookup_land hlp]
    exact hf.variant.elsewhere l hlp hls
  beside j p' ho' := by
    have hl := (h.free ho').2
    rw [lookup_land hl]
    exact (hf.variant.beside j p' ho').imp_right fun ⟨id', hn⟩ =>
      ⟨id', (names_congr (lookup_land hl)).mpr hn⟩
  target := .inr ⟨id, k, m, lookup_insert_self R.place_ne_nil _⟩
  names l id' hlp hb hnp := by
    rw [← hf.variant.names l id' hlp hb hnp]
    obtain ⟨k', m', hb⟩ := hb
    have hthere : w.files.Names l id' := ⟨k', m', hf.variant.lookup_base h hlp hb⟩
    refine nameCount_insert R.place_ne_nil (fun he => ?_) fun hn => ?_
    · cases he
      exact hid l hthere
    · -- The old file at the target is the one of the beginning, or one with no other name.
      cases hw : w.landed with
      | none =>
        obtain ⟨k₁, m₁, hn⟩ := hn
        exact hnp ⟨k₁, m₁, (hf.before hw).symm.trans hn⟩
      | some j => exact hlp ((hf.landed j hw).2.2.1 id' hn l hthere)

theorem Fits.land (hd : R.base.lookup R.place ≠ some .directory) (hs : R.Stands w.files)
    (hlead : R.room.Leads R.cwd.parts R.target R.place) {format : Format}
    (hformat : formatOf R.target = .ok format) (hk : R.Complete i format k) (m : Int) :
    R.Fits ⟨w.files.insert R.place (.file id k m), some i⟩ := by
  constructor
  case variant => exact Variant.land h hf hid
  case keyed => exact hf.keyed.insert _ _
  case sole =>
    intro j p' ho' id' hn l hn'
    have hold := (names_congr (lookup_land (h.free ho').2)).mp hn
    by_cases hl : l = R.place
    · rw [hl] at hn'
      exact absurd (eq_of_names_land hn' ▸ hold) (hid _)
    · exact hf.sole j p' ho' id' hold l ((names_congr (lookup_land hl)).mp hn')
  case before => exact nofun
  case landed =>
    rintro j hj
    obtain rfl := Option.some.inj hj
    obtain ⟨a, rfl, ha, hpacked⟩ := hk
    refine ⟨hd, fun l hl => ?_, fun id' hn l hn' => ?_, hlead, format, id, hformat, a, m,
      lookup_insert_self R.place_ne_nil _, ha, hpacked⟩
    · rw [lookup_land (directory_ne_place hl)]
      exact hs l hl
    · by_contra hl
      exact hid l (eq_of_names_land hn ▸ (names_congr (lookup_land hl)).mp hn')

end

end TabPackager.Bundle.Rivalry
