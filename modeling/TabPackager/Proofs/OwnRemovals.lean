import TabPackager.Proofs.TidyTasks

/-!
# Removals of the files beside a target

A call takes the files that it makes beside its target away again, and each removal takes a file
away or finds none. The one exception is the last removal of a call whose archive is in place
already: if the way to the file that is to be removed led over the entry that the archive has
replaced, it leads nowhere now.
-/

namespace TabPackager

namespace FileSystem

/-- The path leads to a place even without the entry at the location. -/
def LeadsWithout (fs : FileSystem) (cwd : Location) (p : Path) (loc : Location) : Prop :=
  ∃ l, (fs.erase loc).Leads cwd p l

variable {fs : FileSystem} {cwd loc l : Location} {p : Path}

theorem waysKept_erase (hloc : loc ≠ []) : WaysKept (fs.erase loc) fs :=
  (entriesKept_erase hloc).waysKept

/-- The path leads over the location: a link stands there, and without it the path leads nowhere. -/
def LeadsOver (fs : FileSystem) (cwd : Location) (p : Path) (loc : Location) : Prop :=
  (∃ target t, fs.lookup loc = some (.link target t)) ∧ ¬fs.LeadsWithout cwd p loc

/-- What stands at a place matters to no way unless it is a directory or a link. -/
theorem Leads.leadsWithout (h : fs.Leads cwd p l) (hloc : loc ≠ [])
    (hdirectory : fs.lookup loc ≠ some .directory) (hover : ¬fs.LeadsOver cwd p loc) :
    fs.LeadsWithout cwd p loc := by
  by_contra hno
  refine hno ⟨l, h.kept ?_⟩
  intro l' e he hway
  rw [lookup_erase hloc, if_neg]
  · exact he
  · rintro rfl
    cases e with
    | directory => exact hdirectory he
    | link target t => exact hover ⟨⟨target, t, he⟩, hno⟩
    | file i k t => cases hway

end FileSystem

namespace Bundle.Request

open FileSystem TabPackager.Task

variable {cwd : Path} {q : Request} {format : Format} {result : Except Fault Unit} {now : Int}
  {base fs fs' : FileSystem} {events : List Event}

/-- The archive of a call is in place, where the way to the file that it was assembled in led over
the entry that it has replaced. -/
def Caught (cwd : Path) (q : Request) (before after : FileSystem) : Prop :=
  ∃ format mid loc i, DirectoriesMade cwd.parts q.target.parent before mid ∧
    q.Placed cwd.parts format mid after loc i ∧
    Filled before cwd.parts q.members format loc i after ∧
    mid.LeadsOver cwd.parts (q.assembly cwd) loc

/-- The last removal of a call is refused, and the call ends with that. -/
def Stuck (cwd : Path) (q : Request) (events : List Event) (result : Except Fault Unit) : Prop :=
  ∃ why, (FileOp.unlink (q.assembly cwd), some why) ∈ events ∧
    result = .error (Fault.ofRefusal why (some (q.assembly cwd).text))

theorem Stuck.append {xs ys : List Event} (h : q.Stuck cwd ys result) :
    q.Stuck cwd (xs ++ ys) result := by
  obtain ⟨why, he, hr⟩ := h
  exact ⟨why, List.mem_append_right xs he, hr⟩

/-- With the archive in place, a way that needs no entry of the target leads where it did. -/
theorem Placed.leads_around {cwd loc : Location} {i : Nat} {mid after : FileSystem} {p : Path}
    (h : q.Placed cwd format mid after loc i) (hp : mid.LeadsWithout cwd p loc) :
    ∃ l, mid.Leads cwd p l ∧ after.Leads cwd p l := by
  obtain ⟨l, hl⟩ := hp
  have hloc := h.leads.ne_nil
  refine ⟨l, hl.kept (waysKept_erase hloc), hl.kept ?_⟩
  intro l' e he _
  rw [lookup_erase hloc] at he
  split at he
  · cases he
  · next hne =>
    rw [h.elsewhere l' hne]
    exact he

theorem cleaned_fill {out : Location} {i : Nat} (ho : Overlaid base (single out i) fs)
    (hout : base.Leads cwd.parts (q.assembly cwd) out)
    (h : Task.Execution cwd.parts now (q.fill cwd format) fs events result fs') :
    Cleaned events := by
  rcases execution_bind h with ⟨_, fs₁, _, _, h₁, hmove, rfl⟩ | ⟨f, h₁, -⟩
  · exact (cleaned_writeArchive ho hout h₁).append (Tidy.call rfl _ _ _ _ hmove)
  · exact cleaned_writeArchive ho hout h₁

theorem assemble_cleaned_or_caught (hd : q.scratch.Drawn) (hf : formatOf q.target = .ok format)
    (h : Task.Execution cwd.parts now (q.assemble cwd format) fs events result fs') :
    Cleaned events ∨ q.Stuck cwd events result ∧ ∃ loc i,
      q.Placed cwd.parts format fs fs' loc i ∧ Filled fs cwd.parts q.members format loc i fs' ∧
      fs.LeadsOver cwd.parts (q.assembly cwd) loc := by
  have hrefl := Overlaid.refl fs
  rcases execution_bind h with ⟨_, fs₁, _, _, h₁, hthen, rfl⟩ | ⟨f, h₁, -⟩
  · have hc₁ : Cleaned _ := Tidy.call rfl _ _ _ _ h₁
    have hcreated := (execution_createFile hrefl h₁).resolve_left (by simp)
    obtain ⟨-, out, i, hout, -, hn, ho₁⟩ := hcreated
    obtain ⟨r, fs₂, _, r', _, h₂, h₃, rfl, rfl⟩ := execution_thenAlways hthen
    have hc₂ := cleaned_fill ho₁ hout h₂
    obtain ⟨j, ⟨f, rfl, ho₂⟩ | ⟨loc, rfl, hne, hp, hfilled⟩⟩ := execution_fill hd hf ho₁ hout h₂ hc₂
    · exact .inl (hc₁.append (hc₂.append (cleaned_discardOwn ho₂ hout hn h₃)))
    · rcases execution_discard_cases h₃ with hc₃ | ⟨why, hwhy, hu, he, rfl, rfl⟩
      · exact .inl (hc₁.append (hc₂.append hc₃))
      · have hstuck : q.Stuck cwd _ (.error (Fault.ofRefusal why (some (q.assembly cwd).text))) :=
          ⟨why, he, rfl⟩
        refine .inr ⟨hstuck.append.append, loc, j, hp, hfilled, ?_⟩
        by_contra hover
        -- A way around the target would still lead to where nothing stands.
        have hwithout := hout.leadsWithout hp.leads.ne_nil hp.replaceable hover
        obtain ⟨l, hl, hl'⟩ := hp.leads_around hwithout
        obtain rfl := hl.unique hout
        rw [hl'.unlink, hp.elsewhere l hne.symm, hn] at hu
        exact hwhy (Except.error.inj hu).symm
  · exact .inl (Tidy.call rfl _ _ _ _ h₁)

/-- However a call goes, all its removals are clean, or the last one is caught by its archive. -/
theorem cleaned_or_caught (hd : q.scratch.Drawn)
    (h : Task.Execution cwd.parts q.now (q.task cwd) fs events result fs') :
    Cleaned events ∨ q.Stuck cwd events result ∧ q.Caught cwd fs fs' := by
  rw [task_eq] at h
  cases hf : formatOf q.target with
  | error e =>
    rw [hf] at h
    exact .inl (Tidy.throw (.bundle e) _ _ _ _ h)
  | ok format =>
    rw [hf] at h
    change Task.Execution _ _ (checkMembers q.members >>= fun _ => q.proceed cwd format)
      _ _ _ _ at h
    rcases execution_bind h with ⟨_, fs₁, _, _, h₁, hproceed, rfl⟩ | ⟨f, h₁, -⟩
    · obtain rfl := keeps_checkMembers (· = fs) q.members _ _ _ _ rfl h₁
      have hc₁ := tidy_checkMembers q.members _ _ _ _ h₁
      rcases execution_bind hproceed with ⟨_, mid, _, _, h₂, hsay, rfl⟩ | ⟨f, h₂, -⟩
      · have hc₂ := tidy_makeDirectories _ _ _ _ _ _ h₂
        have hmade : DirectoriesMade cwd.parts q.target.parent fs₁ mid :=
          keeps_makeDirectories fs₁ _ (Path.Above.self q.target.parent) _ _ _ _
            (DirectoriesMade.refl _ _ _) h₂
        rcases execution_bind hsay with ⟨_, fs₃, _, _, h₃, hlast, rfl⟩ | ⟨f, h₃, -⟩
        · obtain ⟨rfl, -, rfl⟩ := execution_say h₃
          rcases assemble_cleaned_or_caught hd hf hlast with
            hc₃ | ⟨hstuck, loc, i, hp, hfilled, hover⟩
          · exact .inl (hc₁.append (hc₂.append (cleaned_nil.append hc₃)))
          · exact .inr ⟨hstuck.append.append.append, format, fs₃, loc, i, hmade, hp,
              hfilled.of_kept hmade.entriesKept, hover⟩
        · exact .inl (hc₁.append (hc₂.append (Tidy.say _ _ _ _ _ h₃)))
      · exact .inl (hc₁.append (tidy_makeDirectories _ _ _ _ _ _ h₂))
    · exact .inl (tidy_checkMembers q.members _ _ _ _ h₁)

theorem returned_filled (hd : q.scratch.Drawn)
    (h : Task.Execution cwd.parts q.now (q.task cwd) fs events (.ok ()) fs') :
    ∃ format mid loc i, DirectoriesMade cwd.parts q.target.parent fs mid ∧
      q.Placed cwd.parts format mid fs' loc i ∧
      Filled fs cwd.parts q.members format loc i fs' := by
  have hc := (cleaned_or_caught hd h).resolve_right (by simp [Stuck])
  exact filled hd h hc

theorem unready_unchanged
    (h : Task.Execution cwd.parts now (q.task cwd) fs events result fs')
    (hunready : (∃ e, formatOf q.target = .error e) ∨
      ∃ m ∈ q.members, fs.isFile cwd.parts m.path.text ≠ .ok true) :
    result ≠ .ok () ∧ fs' = fs := by
  rw [task_eq] at h
  cases hf : formatOf q.target with
  | error e =>
    rw [hf] at h
    obtain ⟨-, rfl, rfl⟩ := execution_throw h
    exact ⟨nofun, rfl⟩
  | ok format =>
    rw [hf] at h
    change Task.Execution _ _ (checkMembers q.members >>= fun _ => q.proceed cwd format)
      _ _ _ _ at h
    rcases execution_bind h with ⟨_, fs₁, _, _, h₁, -, -⟩ | ⟨f, h₁, rfl⟩
    · have hfiles := execution_checkMembers h₁
      obtain ⟨e, he⟩ | ⟨m, hm, hn⟩ := hunready
      · cases hf.symm.trans he
      · exact absurd (hfiles m hm) hn
    · exact ⟨nofun, keeps_checkMembers (· = fs) q.members _ _ _ _ rfl h₁⟩

theorem returned_files (h : Task.Execution cwd.parts now (q.task cwd) fs events (.ok ()) fs') :
    ∀ m ∈ q.members, fs.isFile cwd.parts m.path.text = .ok true := by
  intro m hm
  by_contra hn
  exact (unready_unchanged h (.inr ⟨m, hm, hn⟩)).1 rfl

theorem Placed.getLast?_eq {cwd loc : Location} {i : Nat} {mid after : FileSystem}
    (h : q.Placed cwd format mid after loc i) :
    ∃ c, loc.getLast? = some c ∧ formatOfName? c = some format := by
  obtain ⟨c, hc, -, hname⟩ := getLast?_of_formatOf h.supported
  rw [h.leads.getLast?_eq]
  exact ⟨c, hc, hname⟩

/-- The fault is one that is expected of the call, or that of a refused operation of the call. -/
def FailsFor (cwd : Path) (q : Request) (before : FileSystem) (events : List Event) (f : Fault) :
    Prop :=
  q.Expected cwd.parts before f ∨ ∃ o why, (o, some why) ∈ events ∧ q.Uses cwd o ∧
    f = Fault.ofRefusal why (some o.files.1) o.files.2

theorem failsFor (hd : q.scratch.Drawn) {f : Fault}
    (h : Task.Execution cwd.parts q.now (q.task cwd) fs events (.error f) fs') :
    q.FailsFor cwd fs events f := by
  rcases cleaned_or_caught hd h with hc | ⟨⟨why, he, hf⟩, -⟩
  · rcases (lawful hd h hc).explained f rfl with hexpected | ⟨o, why, hlast, hf⟩
    · exact .inl hexpected
    · have he := mem_of_lastRefusal? hlast
      exact .inr ⟨o, why, he, uses_of_mem h _ he, hf⟩
  · exact .inr ⟨_, why, he, uses_of_mem h _ he, Except.error.inj hf⟩

end Bundle.Request

end TabPackager
