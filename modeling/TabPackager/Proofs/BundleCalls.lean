import TabPackager.Proofs.ArchiveWriting
import TabPackager.Proofs.BundleNames
import TabPackager.Proofs.NewDirectories

/-!
# Calls that write a bundle

A call for a bundle puts an archive at its target or leaves everything as it was, apart from new
directories above the target, whatever is refused or goes wrong on the way.
-/

namespace TabPackager.Bundle

open FileSystem TabPackager.Task

structure Request where
  scratch : Scratch
  mishaps : Mishaps
  members : List Member
  target : Path
  now : Int

namespace Request

def task (cwd : Path) (q : Request) : Task Unit :=
  write cwd false q.scratch q.mishaps q.members q.target

def assembly (cwd : Path) (q : Request) : Path :=
  (scratchDirectory cwd q.target).child q.scratch.archive

def fill (cwd : Path) (q : Request) (format : Format) : Task Unit :=
  writeArchive q.mishaps format q.members q.target (q.assembly cwd)
      ((scratchDirectory cwd q.target).child q.scratch.tar) >>= fun _ =>
    Task.call (.rename (q.assembly cwd) q.target)

def assemble (cwd : Path) (q : Request) (format : Format) : Task Unit :=
  Task.call (.createFile (q.assembly cwd)) >>= fun _ =>
    (q.fill cwd format).thenAlways (discard (q.assembly cwd))

def proceed (cwd : Path) (q : Request) (format : Format) : Task Unit :=
  makeDirectories q.target.parent.parts.length q.target.parent >>= fun _ =>
    Task.say (.debug s!"Writing {format.name} bundle {q.target}") >>= fun _ =>
      q.assemble cwd format

theorem task_eq (cwd : Path) (q : Request) :
    q.task cwd = refused (formatOf q.target) >>= fun format =>
      checkMembers q.members >>= fun _ => q.proceed cwd format := rfl

/-- The faults of a call that are not those of a refused operation. -/
inductive Expected (cwd : Location) (q : Request) (before : FileSystem) : Fault → Prop
  | unknownFormat {e : Error} (h : formatOf q.target = .error e) : Expected cwd q before (.bundle e)
  | missingMember {m : Member} (hm : m ∈ q.members)
      (h : before.isFile cwd m.path.text = .ok false) :
      Expected cwd q before (.bundle (.missingMember m.path))
  | storing {k : Nat} {e : OsError} (hk : k < q.members.length)
      (h : q.mishaps.storing k = some e) : Expected cwd q before (.os e)
  | compressing {reason : String} (hf : formatOf q.target = .ok .zstd)
      (h : q.mishaps.compressing = some reason) :
      Expected cwd q before (.bundle (.compression q.target reason))
  | emptyName {m : Member} (hf : formatOf q.target = .ok .zip) (hm : m ∈ q.members)
      (h : zipName? m.name = none) : Expected cwd q before (.escape .emptyName)

/-- The archive of a call has been put at the place of the target, and nothing else has changed
since the directories above it were made. -/
structure Placed (cwd : Location) (q : Request) (format : Format) (mid after : FileSystem)
    (loc : Location) (i : Nat) : Prop where
  supported : formatOf q.target = .ok format
  faultless : Faultless q.mishaps format q.members
  leads : mid.Leads cwd q.target loc
  replaceable : mid.lookup loc ≠ some .directory
  holds : Holds format loc i after
  unshared : ∀ l k m, mid.lookup l ≠ some (.file i k m)
  elsewhere : ∀ l, l ≠ loc → after.lookup l = mid.lookup l

/-- What a call makes of a file system, and how it ends. -/
structure Lawful (cwd : Location) (q : Request) (before : FileSystem) (events : List Event)
    (result : Except Fault Unit) (after : FileSystem) : Prop where
  unsupported : ∀ e, formatOf q.target = .error e → result = .error (.bundle e) ∧ after = before
  notFile : ∀ m ∈ q.members, before.isFile cwd m.path.text ≠ .ok true →
    result ≠ .ok () ∧ after = before
  failed : ∀ f, result = .error f → DirectoriesMade cwd q.target.parent before after
  explained : ∀ f, result = .error f → q.Expected cwd before f ∨
    ∃ o why, lastRefusal? events = some (o, why) ∧
      f = Fault.ofRefusal why (some o.files.1) o.files.2
  returned : result = .ok () → ∃ format mid loc i,
    DirectoriesMade cwd q.target.parent before mid ∧ q.Placed cwd format mid after loc i

end Request

section

variable {cwd : Location} {now : Int} {base fs fs' : FileSystem} {events : List Event}
  {known : Fault → Prop} {members : List Member}

theorem execution_isFile {p : Path} {there : Bool}
    (h : Task.Execution cwd now (Task.call (.isFile p)) fs events (.ok there) fs') :
    fs' = fs ∧ fs.isFile cwd p.text = .ok there := by
  have hp := execution_call_ok h
  exact ⟨(congrArg Prod.snd hp).symm, congrArg Prod.fst hp⟩

theorem keeps_checkMembers (I : FileSystem → Prop) (members : List Member) :
    Keeps cwd now I (checkMembers members) := by
  induction members with
  | nil => exact Keeps.pure ()
  | cons m ms ih =>
    refine Keeps.bind (Keeps.look fun _ => rfl) fun there => ?_
    split
    · exact ih
    · exact Keeps.throw _

theorem execution_checkMembers
    (h : Task.Execution cwd now (checkMembers members) fs events (.ok ()) fs') :
    ∀ m ∈ members, fs.isFile cwd m.path.text = .ok true := by
  induction members generalizing events with
  | nil => simp
  | cons m ms ih =>
    obtain ⟨there, fs₁, _, _, h₁, hthen, -⟩ := (execution_bind h).resolve_right (by simp)
    obtain ⟨rfl, hfile⟩ := execution_isFile h₁
    split at hthen
    · next ht =>
      subst ht
      intro m' hm'
      rcases List.mem_cons.mp hm' with rfl | hm'
      · exact hfile
      · exact ih hthen m' hm'
    · obtain ⟨-, hr, -⟩ := execution_throw hthen
      cases hr

theorem explained_checkMembers {f : Fault}
    (hk : ∀ m ∈ members, fs.isFile cwd m.path.text = .ok false →
      known (.bundle (.missingMember m.path)))
    (h : Task.Execution cwd now (checkMembers members) fs events (.error f) fs') :
    Explained known events f := by
  induction members generalizing events with
  | nil =>
    obtain ⟨-, hr, -⟩ := execution_pure h
    cases hr
  | cons m ms ih =>
    rcases execution_bind h with ⟨there, fs₁, _, _, h₁, hthen, rfl⟩ | ⟨g, h₁, hr⟩
    · obtain ⟨rfl, hfile⟩ := execution_isFile h₁
      split at hthen
      · exact (ih (fun m hm => hk m (List.mem_cons_of_mem _ hm)) hthen).append _
      · next ht =>
        obtain ⟨-, hr, -⟩ := execution_throw hthen
        cases hr
        rw [Bool.not_eq_true] at ht
        rw [ht] at hfile
        exact .inl (hk m List.mem_cons_self hfile)
    · cases hr
      obtain ⟨reply, -, rfl, hr⟩ := execution_call h₁
      cases reply with
      | ok r => cases hr
      | error why =>
        cases hr
        exact Explained.of_refusal rfl why

end

section

variable {cwd : Path} {now : Int} {base fs fs' : FileSystem} {events : List Event}
  {result : Except Fault Unit} {q : Request} {format : Format} {out loc : Location} {i : Nat}

theorem Request.Placed.waysKept {cwd : Location} (h : q.Placed cwd format base fs loc i) :
    WaysKept fs base := by
  intro l e he hid
  by_cases hl : l = loc
  · obtain ⟨a, m, hf, -⟩ := h.holds
    rw [hl, hf] at he
    cases he
    cases hid
  · rw [← h.elsewhere l hl, he]

theorem Request.getLast?_assembly (hd : q.scratch.Drawn) :
    (q.assembly cwd).parts.getLast? = some q.scratch.archive :=
  Path.getLast?_child _ (isComponent_of_drawn hd)

theorem Request.assembly_ne_target (hd : q.scratch.Drawn) (hf : formatOf q.target = .ok format)
    (hout : base.Leads cwd.parts (q.assembly cwd) out)
    (hl : base.Leads cwd.parts q.target loc) : loc ≠ out := by
  rintro rfl
  obtain ⟨c, hc, -, hname⟩ := getLast?_of_formatOf hf
  have hparts := hout.getLast?_eq.symm.trans hl.getLast?_eq
  rw [Request.getLast?_assembly hd, hc] at hparts
  obtain ⟨a, -, ha⟩ := hd
  rw [ha] at hparts
  rw [← Option.some.inj hparts, formatOfName?_partial] at hname
  cases hname

/-- The archive is left in its file when something fails, and put at the target else. -/
theorem execution_fill (hd : q.scratch.Drawn) (hf : formatOf q.target = .ok format)
    (ho : Overlaid base (single out i) fs) (hout : base.Leads cwd.parts (q.assembly cwd) out)
    (h : Task.Execution cwd.parts now (q.fill cwd format) fs events result fs')
    (hc : Cleaned events) :
    ∃ j, (∃ f, result = .error f ∧ Overlaid base (single out j) fs') ∨
      ∃ loc, result = .ok () ∧ loc ≠ out ∧ q.Placed cwd.parts format base fs' loc j ∧
        Filled base cwd.parts q.members format loc j fs' := by
  rcases execution_bind h with ⟨_, fs₁, _, _, h₁, hmove, rfl⟩ | ⟨f, h₁, rfl⟩
  · obtain ⟨j, ho₁, hok⟩ := execution_writeArchive ho hout h₁ hc.of_append.1
    obtain ⟨⟨a, m, ha, hformat, hpacked⟩, hfaultless⟩ := hok rfl
    obtain ⟨reply, hh, -, rfl⟩ := execution_call hmove
    rcases hh.cases with ⟨rfl, why, rfl⟩ | ⟨he, r, rfl⟩
    · exact ⟨j, .inl ⟨_, rfl, ho₁⟩⟩
    · obtain ⟨c, hparts, hord, -⟩ := getLast?_of_formatOf hf
      obtain ⟨loc, hl⟩ := Leads.of_rename hord hparts he
      have hlb := hl.kept ho₁.waysKept_base
      have hne := Request.assembly_ne_target hd hf hout hlb
      have hsame := ho₁.elsewhere loc (single_of_ne hne j)
      have hfresh := ho₁.unshared out j (single_self out j)
      have hren := (hout.kept ho₁.waysKept).rename hl ha fun k' m' => by
        rw [hsame]
        exact hfresh loc k' m'
      rw [hsame] at hren
      have hdir : base.lookup loc ≠ some .directory := by
        intro hdir
        rw [hdir] at hren
        cases he.symm.trans hren
      have hfs' : fs' = (fs₁.erase out).insert loc (.file j (.archive a) m) := by
        refine Except.ok.inj (he.symm.trans (hren.trans ?_))
        split
        · exact absurd ‹_› hdir
        · rfl
      subst hfs'
      have hplace : ((fs₁.erase out).insert loc (.file j (.archive a) m)).lookup loc =
          some (.file j (.archive a) m) := by
        rw [lookup_insert hlb.ne_nil, if_pos rfl]
      refine ⟨j, .inr ⟨loc, rfl, hne, ?_, a, m, hplace, hformat, hpacked⟩⟩
      constructor
      case supported => exact hf
      case faultless => exact hfaultless
      case leads => exact hlb
      case replaceable => exact hdir
      case holds => exact ⟨a, m, hplace, hformat⟩
      case unshared => exact hfresh
      case elsewhere => exact fun l hll => ho₁.lookup_placed hlb.ne_nil _ hll
  · obtain ⟨j, ho₁, -⟩ := execution_writeArchive ho hout h₁ hc
    exact ⟨j, .inl ⟨f, rfl, ho₁⟩⟩

theorem execution_assemble (hd : q.scratch.Drawn) (hf : formatOf q.target = .ok format)
    (h : Task.Execution cwd.parts now (q.assemble cwd format) fs events result fs')
    (hc : Cleaned events) :
    (∃ f, result = .error f ∧ ∀ l, fs'.lookup l = fs.lookup l) ∨
      result = .ok () ∧ ∃ loc j, q.Placed cwd.parts format fs fs' loc j ∧
        Filled fs cwd.parts q.members format loc j fs' := by
  have hrefl := Overlaid.refl fs
  rcases execution_bind h with ⟨_, fs₁, _, _, h₁, hthen, rfl⟩ | ⟨f, h₁, rfl⟩
  · have hcreated := (execution_createFile hrefl h₁).resolve_left (by simp)
    obtain ⟨-, out, i, hout, -, hn, ho₁⟩ := hcreated
    obtain ⟨r, fs₂, _, r', _, h₂, h₃, rfl, rfl⟩ := execution_thenAlways hthen
    have hc₂ := hc.of_append.2.of_append
    obtain ⟨j, ⟨f, rfl, ho₂⟩ | ⟨loc, rfl, hne, hp, hfilled⟩⟩ :=
      execution_fill hd hf ho₁ hout h₂ hc₂.1
    · obtain ⟨rfl, ho₃, -⟩ := execution_discardOwn ho₂ hout hn h₃ hc₂.2
      rw [single, Function.update_idem] at ho₃
      refine .inl ⟨f, rfl, fun l => ho₃.elsewhere l ?_⟩
      by_cases hl : l = out <;> simp [hl]
    · obtain ⟨rfl, -, hu⟩ := execution_discard h₃ hc₂.2
      rcases hu with hu | ⟨-, rfl⟩
      · obtain ⟨c, hc, hparts⟩ := hout.exists_last
        obtain ⟨l, hl, hsome⟩ := Leads.of_unlink hc hparts hu
        rw [(hl.kept hp.waysKept).unique hout, hp.elsewhere out hne.symm] at hsome
        exact absurd hn hsome
      · exact .inr ⟨rfl, loc, j, hp, hfilled⟩
  · rcases execution_createFile hrefl h₁ with ⟨rfl, -⟩ | ⟨hr, -⟩
    · exact .inl ⟨f, rfl, fun _ => rfl⟩
    · cases hr

theorem execution_proceed (hd : q.scratch.Drawn) (hf : formatOf q.target = .ok format)
    (h : Task.Execution cwd.parts now (q.proceed cwd format) fs events result fs')
    (hc : Cleaned events) :
    (∃ f, result = .error f ∧ DirectoriesMade cwd.parts q.target.parent fs fs') ∨
      result = .ok () ∧ ∃ mid loc j, DirectoriesMade cwd.parts q.target.parent fs mid ∧
        q.Placed cwd.parts format mid fs' loc j ∧
        Filled mid cwd.parts q.members format loc j fs' := by
  have hmake : Keeps cwd.parts now (DirectoriesMade cwd.parts q.target.parent fs)
      (makeDirectories q.target.parent.parts.length q.target.parent) :=
    keeps_makeDirectories fs _ (Path.Above.self q.target.parent)
  have hrefl := DirectoriesMade.refl cwd.parts q.target.parent fs
  rcases execution_bind h with ⟨_, fs₁, _, _, h₁, hthen, rfl⟩ | ⟨f, h₁, rfl⟩
  · have hmade := hmake _ _ _ _ hrefl h₁
    rcases execution_bind hthen with ⟨_, fs₂, _, _, h₂, hlast, rfl⟩ | ⟨f, h₂, rfl⟩
    · obtain ⟨-, -, rfl⟩ := execution_say h₂
      have hc' := hc.of_append.2.of_append.2
      rcases execution_assemble hd hf hlast hc' with ⟨f, hr, hsame⟩ | ⟨hr, loc, j, hp, hfilled⟩
      · exact .inl ⟨f, hr, hmade.congr hsame⟩
      · exact .inr ⟨hr, fs₂, loc, j, hmade, hp, hfilled⟩
    · obtain ⟨-, hr, -⟩ := execution_say h₂
      cases hr
  · exact .inl ⟨f, rfl, hmake _ _ _ _ hrefl h₁⟩

theorem explains_proceed (before : FileSystem) (hf : formatOf q.target = .ok format) :
    Explains cwd.parts now (q.Expected cwd.parts before) (q.proceed cwd format) := by
  refine Explains.bind (explains_makeDirectories _ _) fun _ => ?_
  refine Explains.bind (Explains.say _) fun _ => ?_
  refine Explains.bind (Explains.call rfl) fun _ => explains_thenDiscard ?_ _
  refine Explains.bind (explains_writeArchive ?_ ?_ ?_) fun _ => Explains.call rfl
  · exact fun k e hk he => .storing hk he
  · rintro reason rfl hr
    exact .compressing hf hr
  · rintro m hm rfl hn
    exact .emptyName hf hm hn

theorem Request.Lawful.of_refused {cwd : Location} {f : Fault}
    (hf : ∀ e, formatOf q.target = .error e → f = .bundle e)
    (he : Explained (q.Expected cwd fs) events f) (hc : Cleaned events) :
    q.Lawful cwd fs events (.error f) fs where
  unsupported e h := ⟨by rw [hf e h], rfl⟩
  notFile _ _ _ := ⟨nofun, rfl⟩
  failed _ _ := DirectoriesMade.refl _ _ _
  explained g h := by
    cases h
    exact he.of_cleaned hc
  returned := nofun

theorem Request.lawful (hd : q.scratch.Drawn)
    (h : Task.Execution cwd.parts q.now (q.task cwd) fs events result fs')
    (hc : Cleaned events) : q.Lawful cwd.parts fs events result fs' := by
  rw [Request.task_eq] at h
  cases hf : formatOf q.target with
  | error e =>
    rw [hf] at h
    change Task.Execution _ _ (throw (.bundle e) : Task Unit) _ _ _ _ at h
    obtain ⟨rfl, rfl, rfl⟩ := execution_throw h
    refine .of_refused (fun e' he => ?_) (.inl (.unknownFormat hf)) hc
    cases hf.symm.trans he
    rfl
  | ok format =>
    rw [hf] at h
    change Task.Execution _ _ (checkMembers q.members >>= fun _ => q.proceed cwd format)
      _ _ _ _ at h
    have hsupported : ∀ e, formatOf q.target ≠ .error e := by simp [hf]
    rcases execution_bind h with ⟨_, fs₁, _, _, h₁, hthen, rfl⟩ | ⟨f, h₁, rfl⟩
    · obtain rfl := keeps_checkMembers (· = fs) q.members _ _ _ _ rfl h₁
      have hfiles := execution_checkMembers h₁
      have hc' := hc.of_append.2
      constructor
      case unsupported => exact fun e he => absurd he (hsupported e)
      case notFile => exact fun m hm hn => absurd (hfiles m hm) hn
      case failed =>
        rintro f rfl
        rcases execution_proceed hd hf hthen hc' with ⟨_, -, hmade⟩ | ⟨hr, -⟩
        · exact hmade
        · cases hr
      case explained =>
        rintro f rfl
        exact ((explains_proceed fs₁ hf _ _ _ _ hthen).append _).of_cleaned hc
      case returned =>
        rintro rfl
        rcases execution_proceed hd hf hthen hc' with
          ⟨_, hr, -⟩ | ⟨-, mid, loc, i, hmade, hp, -⟩
        · cases hr
        · exact ⟨format, mid, loc, i, hmade, hp⟩
    · obtain rfl := keeps_checkMembers (· = fs) q.members _ _ _ _ rfl h₁
      refine .of_refused (fun e he => absurd he (hsupported e)) ?_ hc
      exact explained_checkMembers (fun m hm hn => .missingMember hm hn) h₁

theorem Request.filled (hd : q.scratch.Drawn)
    (h : Task.Execution cwd.parts q.now (q.task cwd) fs events (.ok ()) fs')
    (hc : Cleaned events) :
    ∃ format mid loc i, DirectoriesMade cwd.parts q.target.parent fs mid ∧
      q.Placed cwd.parts format mid fs' loc i ∧
      Filled fs cwd.parts q.members format loc i fs' := by
  rw [Request.task_eq] at h
  obtain ⟨format, fs₁, _, _, h₁, hthen, rfl⟩ := (execution_bind h).resolve_right (by simp)
  obtain ⟨hf, rfl⟩ : formatOf q.target = .ok format ∧ fs₁ = fs := by
    cases hf : formatOf q.target with
    | error e =>
      rw [hf] at h₁
      obtain ⟨-, hr, -⟩ := execution_throw h₁
      cases hr
    | ok g =>
      rw [hf] at h₁
      obtain ⟨-, hr, rfl⟩ := execution_pure h₁
      cases hr
      exact ⟨rfl, rfl⟩
  obtain ⟨_, fs₂, _, _, h₂, hlast, rfl⟩ := (execution_bind hthen).resolve_right (by simp)
  obtain rfl := keeps_checkMembers (· = fs₁) q.members _ _ _ _ rfl h₂
  have hproceed := execution_proceed hd hf hlast hc.of_append.2.of_append.2
  obtain ⟨-, mid, loc, i, hmade, hp, hfilled⟩ := hproceed.resolve_left (by simp)
  exact ⟨format, mid, loc, i, hmade, hp, hfilled.of_kept hmade.entriesKept⟩

end

end TabPackager.Bundle
