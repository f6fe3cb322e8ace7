import TabPackager.Proofs.RivalTerms

/-!
# A write among its rivals

Whatever the rivals of a write do between its operations, the write is answered as its own files
tell, and members and refused paths as some files of the moment show them. It leaves the files of
its rivals as they are.
-/

namespace TabPackager.Bundle.Rivalry

open FileSystem TabPackager.Task

variable {n : Nat} {R : Rivalry n} {w w' : Stage n} {i : Fin n} {fs' : FileSystem} {v : Own}
  {p p' : Path} {id : Nat} {k : Content} {m : Int}

theorem mirrored_of_eq {A : Stage n → Own → Prop} {o : FileOp} {r : Except Refusal o.Reply}
    {v' : Own} (hact : R.act i o w = (r, w')) (hanswer : R.Answers i o v r v') (hf : R.Fits w')
    (hk : ∀ j, j ≠ i → R.Relies j w w') (ha : A w' v') :
    (R.terms i).Mirrored (R.Answers i) A o w v := by
  have hact' : (R.terms i).act o w = (r, w') := hact
  constructor
  case inv => rwa [hact']
  case keep => rwa [hact']
  case answered =>
    rw [hact']
    exact ⟨v', hanswer, ha⟩

theorem mirrored_of_error {A : Stage n → Own → Prop} {o : FileOp} {why : Refusal}
    (hm : R.Manages i o)
    (h : o.perform R.cwd.parts (R.requests i).now w.files = (.error why, w.files))
    (hanswer : R.answer i o v = (.error why, v)) (hf : R.Fits w) (ha : A w v) :
    (R.terms i).Mirrored (R.Answers i) A o w v :=
  mirrored_of_eq (act_of_error h) (answers_of_eq hm hanswer) hf
    (fun j _ => Relies.refl j w) ha

/-- An operation that changes one own file, as what the write has tells, is mirrored. -/
theorem mirrored_of_own (h : R.Drawn) (ha : R.Settled i w v) (ho : R.Owns i p) {o : FileOp}
    {r : o.Reply} {x : Option (Content × Int)} (hm : R.Manages i o)
    (hlands : o.lands R.target = false)
    (hperform : o.perform R.cwd.parts (R.requests i).now w.files = (.ok r, fs'))
    (hanswer : R.answer i o v = (.ok r, Function.update v p x)) (hf : R.Fits ⟨fs', w.landed⟩)
    (hx : fs'.held (R.spot p) = x) (hl : ∀ l, l ≠ R.spot p → fs'.lookup l = w.files.lookup l) :
    (R.terms i).Mirrored (R.Answers i) (R.Settled i) o w v := by
  refine mirrored_of_eq (act_of_ok hlands hperform)
    (answers_of_eq hm hanswer) hf ?_ ?_
  · exact fun j hne => relies_of_other h hne fun l _ hown => hl l (hown p ho)
  · exact ⟨ha.1.of_own h ho hl, ha.2.update h ho hx hl⟩

theorem mirrored_of_still {A : Stage n → Own → Prop} {o : FileOp} {r : Except Refusal o.Reply}
    (hm : ¬R.Manages i o) (hlands : o.lands R.target = false ∨ r.isOk = false)
    (hs : o.checks = true ∨ R.Stands w.files)
    (hperform : o.perform R.cwd.parts (R.requests i).now w.files = (r, w.files))
    (hf : R.Fits w) (hown : R.Agrees i w.files v) (ha : A w v) :
    (R.terms i).Mirrored (R.Answers i) A o w v := by
  have hact : R.act i o w = (r, w) := by
    unfold act
    rw [hperform]
    rcases hlands with hlands | hr
    · simp [hlands]
    · cases r with
      | ok r => cases hr
      | error why => simp [refusal?]
  exact mirrored_of_eq hact (.inr ⟨hm, rfl, w.files, hf.variant, hown, hs, hperform⟩) hf
    (fun j _ => Relies.refl j w) ha

section

variable (h : R.Drawn) (hf : R.Fits w) (ha : R.Settled i w v)

include h hf ha

theorem mirrored_createFile (hp : R.Temporary i p) :
    (R.terms i).Mirrored (R.Answers i) (R.Settled i) (.createFile p) w v := by
  by_cases ho : R.Owns i p
  · have hne := ho.spot_ne_nil
    have hcreate := (ha.leads h hf ho).create
      (.file w.files.freshIdentity (.bytes ByteArray.empty) (R.requests i).now)
    rcases hf.own_cases ha.2 ho with ⟨hn, hv⟩ | ⟨id, k, m, hl, hv⟩
    · rw [hn] at hcreate
      have hperform := congrArg (FileOp.change w.files) hcreate
      refine mirrored_of_own h ha ho ho rfl hperform (answer_createFile hv) ?_ ?_
        fun l hl => lookup_insert_of_ne hne hl _
      · exact hf.put h ho _ _ _ fun l _ => not_names_freshIdentity _ l
      · exact held_of_file (lookup_insert_self hne _)
    · rw [hl] at hcreate
      refine mirrored_of_error ho (congrArg (FileOp.change w.files) hcreate) ?_ hf ha
      simp only [answer, hv]
  · obtain ⟨why, hr⟩ := hf.variant.refused h hp ho
    exact mirrored_of_still ho (.inl rfl) (.inr ha.1) (perform_createFile_refused hr _) hf ha.2 ha

theorem mirrored_writeFile (hp : R.Temporary i p) (k : Content) :
    (R.terms i).Mirrored (R.Answers i) (R.Settled i) (.writeFile p k) w v := by
  by_cases ho : R.Owns i p
  · have hne := ho.spot_ne_nil
    have hlead := ha.leads h hf ho
    rcases hf.own_cases ha.2 ho with ⟨hn, -⟩ | ⟨id, k', m, hl, -⟩
    · have hperform := congrArg (FileOp.change w.files)
        (hlead.writeFile_new hn k (R.requests i).now)
      refine mirrored_of_own h ha ho ho rfl hperform rfl ?_ ?_
        fun l hl => lookup_insert_of_ne hne hl _
      · exact hf.put h ho _ _ _ fun l _ => not_names_freshIdentity _ l
      · exact held_of_file (lookup_insert_self hne _)
    · have hlook := lookup_rewrite (hf.sole i p ho) hl k (R.requests i).now
      refine mirrored_of_own h ha ho ho rfl ?_ rfl ?_ ?_ fun l hne => (hlook l).trans (if_neg hne)
      · exact congrArg (FileOp.change w.files) (hlead.writeFile hl k _)
      · exact hf.rewrite h ho hl k _
      · exact held_of_file ((hlook _).trans (if_pos rfl))
  · obtain ⟨why, hr⟩ := hf.variant.refused h hp ho
    exact mirrored_of_still ho (.inl rfl) (.inr ha.1) (perform_writeFile_refused hr _ k) hf ha.2 ha

theorem mirrored_unlink (hp : R.Temporary i p) :
    (R.terms i).Mirrored (R.Answers i) (R.Settled i) (.unlink p) w v := by
  by_cases ho : R.Owns i p
  · have hne := ho.spot_ne_nil
    have hunlink := (ha.leads h hf ho).unlink
    rcases hf.own_cases ha.2 ho with ⟨hn, hv⟩ | ⟨id, k, m, hl, hv⟩
    · rw [hn] at hunlink
      refine mirrored_of_error ho (congrArg (FileOp.change w.files) hunlink) ?_ hf ha
      simp only [answer, hv]
    · rw [hl] at hunlink
      refine mirrored_of_own h ha ho ho rfl ?_ (answer_unlink hv) (hf.drop h ho) ?_
        fun l hl => lookup_erase_of_ne hne hl
      · exact congrArg (FileOp.change w.files) hunlink
      · exact held_of_none (lookup_erase_self hne)
  · obtain ⟨why, hr⟩ := hf.variant.refused h hp ho
    exact mirrored_of_still ho (.inl rfl) (.inr ha.1) (perform_unlink_refused hr _) hf ha.2 ha

theorem mirrored_rename_none (ho : R.Owns i p) (hn : w.files.lookup (R.spot p) = none)
    (hv : v p = none) (hm : R.Manages i (.rename p p')) :
    (R.terms i).Mirrored (R.Answers i) (R.Settled i) (.rename p p') w v := by
  have hrename : w.files.rename R.cwd.parts p.text p'.text = .error .noEntry := by
    rw [rename, (ha.leads h hf ho).lstat, hn]
    rfl
  refine mirrored_of_error hm (congrArg (FileOp.change w.files) hrename) ?_ hf ha
  simp only [answer, hv]

theorem mirrored_rename_refused {why : Refusal} (ho : R.Owns i p)
    (hm : ¬R.Manages i (.rename p p'))
    (hr : w.files.resolve false R.cwd.parts p'.text = .error why) :
    (R.terms i).Mirrored (R.Answers i) (R.Settled i) (.rename p p') w v :=
  mirrored_of_still hm (.inr rfl) (.inr ha.1)
    (perform_rename_to_refused hr _ (ha.leads h hf ho)) hf ha.2 ha

theorem mirrored_move (ho : R.Owns i p) (ho' : R.Owns i p') (hne : R.spot p' ≠ R.spot p)
    (hm : R.Manages i (.rename p p')) (hl : w.files.lookup (R.spot p) = some (.file id k m))
    (hv : v p = some (k, m)) :
    (R.terms i).Mirrored (R.Answers i) (R.Settled i) (.rename p p') w v := by
  have htarget := ho'.ne_target h
  have hnil := ho.spot_ne_nil
  have hnil' := ho'.spot_ne_nil
  have hnodir : w.files.lookup (R.spot p') ≠ some .directory := by
    rcases hf.own_cases ha.2 ho' with ⟨hn', -⟩ | ⟨id', k', m', hl', -⟩
    · simp [hn']
    · simp [hl']
  have hact := act_of_ok (R := R) (i := i) (by simp [FileOp.lands, htarget])
    ((ha.leads h hf ho).move (ha.leads h hf ho') hl
      (fun hn => hne (hf.sole i _ ho id ⟨k, m, hl⟩ _ hn)) hnodir)
  have hanswer := answer_rename (R := R) (i := i) hv fun he => absurd he htarget
  have hfits := (hf.drop h ho).put h ho' id k m fun l _ =>
    (hf.sole i _ ho).not_names_erase hnil ⟨k, m, hl⟩ l
  have hagrees := ha.2.update h ho (held_of_none (lookup_erase_self hnil))
    fun l hl => lookup_erase_of_ne hnil hl
  refine mirrored_of_eq hact (answers_of_eq hm hanswer) hfits ?_ ⟨?_, ?_⟩
  · refine fun j hji => relies_of_other h hji fun l _ hown => ?_
    exact (lookup_insert_of_ne hnil' (hown _ ho') _).trans (lookup_erase_of_ne hnil (hown _ ho))
  · have hstands := ha.1.of_own h ho fun l hl => lookup_erase_of_ne hnil hl
    exact hstands.of_own h ho' fun l hl => lookup_insert_of_ne hnil' hl _
  · exact hagrees.update h ho' (held_of_file (lookup_insert_self hnil' _))
      fun l hl => lookup_insert_of_ne hnil' hl _

theorem mirrored_assemble : (R.terms i).Mirrored (R.Answers i) (R.Settled i)
    (.rename ((R.requests i).tarFile R.cwd) ((R.requests i).assembly R.cwd)) w v := by
  have hp : R.Temporary i ((R.requests i).tarFile R.cwd) := .inr rfl
  have hp' : R.Temporary i ((R.requests i).assembly R.cwd) := .inl rfl
  by_cases ho : R.Owns i ((R.requests i).tarFile R.cwd)
  · by_cases ho' : R.Owns i ((R.requests i).assembly R.cwd)
    · have hm : R.Manages i (.rename ((R.requests i).tarFile R.cwd)
        ((R.requests i).assembly R.cwd)) := ⟨ho, .inl ho'⟩
      rcases hf.own_cases ha.2 ho with ⟨hn, hv⟩ | ⟨id, k, m, hl, hv⟩
      · exact mirrored_rename_none h hf ha ho hn hv hm
      · exact mirrored_move h hf ha ho ho' (h.spot_ne ho ho' (h.two i)) hm hl hv
    · obtain ⟨why, hr⟩ := hf.variant.refused h hp' ho'
      refine mirrored_rename_refused h hf ha ho ?_ hr
      rintro ⟨-, hto | ⟨htarget, hlead⟩⟩
      · exact ho' hto
      · -- A file that is put at the target by this path could be had at it, too.
        rw [← htarget] at hlead
        exact ho' ⟨hp', h.beside hp' (hlead.kept R.room_kept.waysKept)⟩
  · obtain ⟨why, hr⟩ := hf.variant.refused h hp ho
    exact mirrored_of_still (fun hm => ho hm.1) (.inr rfl) (.inr ha.1)
      (perform_rename_refused hr _ _) hf ha.2 ha

theorem mirrored_land {format : Format} (hformat : formatOf R.target = .ok format)
    (ho : R.Owns i ((R.requests i).assembly R.cwd))
    (hland : ∀ k m, v ((R.requests i).assembly R.cwd) = some (k, m) → R.Complete i format k) :
    (R.terms i).Mirrored (R.Answers i) (R.Settled i)
      (.rename ((R.requests i).assembly R.cwd) R.target) w v := by
  by_cases hplace : R.room.Leads R.cwd.parts R.target R.place
  · have hm : R.Manages i (.rename ((R.requests i).assembly R.cwd) R.target) :=
      ⟨ho, .inr ⟨rfl, hplace⟩⟩
    have hlead := ha.leads h hf ho
    have hlead' := hplace.kept (hf.variant.kept_room h ha.1).waysKept
    rcases hf.own_cases ha.2 ho with ⟨hn, hv⟩ | ⟨id, k, m, hl, hv⟩
    · exact mirrored_rename_none h hf ha ho hn hv hm
    · have hother : ¬w.files.Names R.place id :=
        fun hn => (h.free ho).2 (hf.sole i _ ho id ⟨k, m, hl⟩ _ hn).symm
      by_cases hd : R.base.lookup R.place = some .directory
      · have hw : w.landed = none := by
          cases hw : w.landed with
          | none => rfl
          | some j => exact absurd hd (hf.landed j hw).1
        have hrename := hlead.rename hlead' hl fun k' m' he => hother ⟨k', m', he⟩
        rw [hf.before hw, hd] at hrename
        refine mirrored_of_error hm (congrArg (FileOp.change w.files) hrename) ?_ hf ha
        simp only [answer, hv, if_true, hd]
      · have hnodir : w.files.lookup R.place ≠ some .directory := by
          cases hw : w.landed with
          | none => rwa [hf.before hw]
          | some j =>
            obtain ⟨-, -, -, -, _, id', -, a, m', hl', -⟩ := hf.landed j hw
            intro h
            cases hl'.symm.trans h
        have hact := act_of_landed (R := R) (i := i) (hlead.move hlead' hl hother hnodir)
        have hanswer : R.answer i (.rename ((R.requests i).assembly R.cwd) R.target) v = _ :=
          answer_rename hv fun _ => hd
        have hnil := ho.spot_ne_nil
        have hdropped := hf.drop h ho
        have hstands := ha.1.of_own h ho fun l hl => lookup_erase_of_ne hnil hl
        have hfree := (hf.sole i _ ho).not_names_erase hnil ⟨k, m, hl⟩
        have hfits := hdropped.land h hfree hd hstands hplace hformat (hland k m hv) m
        have hagrees := ha.2.update h ho (held_of_none (lookup_erase_self hnil))
          fun l hl => lookup_erase_of_ne hnil hl
        refine mirrored_of_eq hact (answers_of_eq hm hanswer) hfits ?_ ⟨?_, ?_⟩
        · refine fun j hji => relies_of_other h hji fun l hlp hown => ?_
          exact (lookup_insert_of_ne R.place_ne_nil hlp _).trans (lookup_erase_of_ne hnil (hown _ ho))
        · intro l hl
          exact (lookup_insert_of_ne R.place_ne_nil (directory_ne_place hl) _).trans (hstands l hl)
        · intro p' ho'
          rw [Function.update_of_ne (ho'.ne_target h)]
          exact (held_congr (lookup_insert_of_ne R.place_ne_nil (h.free ho').2 _)).trans
            (hagrees p' ho')
  · obtain ⟨why, hr⟩ := hf.variant.refused_target h hformat hplace
    refine mirrored_rename_refused h hf ha ho ?_ hr
    rintro ⟨-, hto | ⟨-, hlead⟩⟩
    · exact hto.ne_target h rfl
    · exact hplace hlead

end

theorem mirrored_isFile (hf : R.Fits w) (ha : R.Agrees i w.files v) (p : Path) :
    (R.terms i).Mirrored (R.Answers i) (fun w v => R.Agrees i w.files v) (.isFile p) w v :=
  mirrored_of_still id (.inl rfl) (.inl rfl) rfl hf ha ha

theorem mirrored_handle (h : R.Drawn) (hf : R.Fits w) (ha : R.Settled i w v) {o : FileOp}
    (ho : (R.requests i).Handles R.cwd o) :
    (R.terms i).Mirrored (R.Answers i) (R.Settled i) o w v := by
  cases ho with
  | isFile hm => exact mirrored_of_still id (.inl rfl) (.inl rfl) rfl hf ha.2 ha
  | examine hm => exact mirrored_of_still id (.inl rfl) (.inr ha.1) rfl hf ha.2 ha
  | contentOf hm => exact mirrored_of_still id (.inl rfl) (.inr ha.1) rfl hf ha.2 ha
  | create hp => exact mirrored_createFile h hf ha hp
  | write hp k => exact mirrored_writeFile h hf ha hp k
  | unlink hp => exact mirrored_unlink h hf ha hp
  | assemble => exact mirrored_assemble h hf ha

end TabPackager.Bundle.Rivalry
