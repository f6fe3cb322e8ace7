import TabPackager.Proofs.FurnishedDirectories
import TabPackager.Proofs.RivalArchives

/-!
# A whole write among its rivals

From operation to operation a write among its rivals goes as it may be answered: its members are
looked at, its directories are made by it or by its rivals, and its archive is assembled, put at
the target and cleaned up after.
-/

namespace TabPackager.Bundle

open FileSystem TabPackager.Task

namespace Rivalry

variable {n : Nat} {R : Rivalry n} {w w' : Stage n} {i j : Fin n} {v : Own} {p : Path}
  {format : Format}

section

variable (h : R.Drawn)

include h

theorem relies_of_directory {l : Location} (hl : R.room.lookup l = some .directory)
    (hn : w.files.lookup l = none) (j : Fin n) :
    R.Relies j w ⟨w.files.insert l .directory, w.landed⟩ := by
  have hne : l ≠ [] := by
    rintro rfl
    cases hn
  constructor
  case own =>
    intro p ho
    refine held_congr ?_
    rw [lookup_insert hne, if_neg (h.directory_ne_spot hl ho).symm]
  case directories =>
    intro l' _ hd
    rw [lookup_insert hne]
    split
    · rfl
    · exact hd

theorem works_tryDirectory {Q : Except Fault Unit → Stage n → Prop} {missing : Task Unit}
    (hp : p.Above R.target.parent)
    (hmade : ∀ w₁ w₂, R.Fits w₁ → R.Relies i w w₁ → R.Fits w₂ → R.Relies i w₁ w₂ →
      w₁.files.isDirectory R.cwd.parts p.text = .ok true → Q (.ok ()) w₂)
    (hmissing : ∀ w₁, R.Fits w₁ → R.Relies i w w₁ →
      w₁.files.makeDirectory R.cwd.parts p.text = .error .noEntry →
        Works (R.terms i) Q missing w₁)
    (hother : ∀ w₁ why, R.Fits w₁ → R.Relies i w w₁ → why ≠ .noEntry →
      w₁.files.makeDirectory R.cwd.parts p.text = .error why →
        Works (R.terms i) Q (settle p why) w₁) :
    Works (R.terms i) Q (tryDirectory p missing) w := by
  refine .attempt_bind fun w₁ hi₁ hr₁ => ?_
  cases hmake : w₁.files.makeDirectory R.cwd.parts p.text with
  | ok fs =>
    obtain ⟨l, hl, hn, rfl⟩ := Leads.of_create (e := .directory) hmake
    have hd := hi₁.variant.directory_of_leads h hp hl hn
    have hact : (R.terms i).act (.makeDirectory p) w₁ = (.ok (), ⟨_, w₁.landed⟩) :=
      act_of_ok rfl (congrArg (FileOp.change w₁.files) hmake)
    rw [hact]
    have hfits := hi₁.makeDirectory h hd hn
    have hown := relies_of_directory h hd hn i
    refine ⟨hfits, fun j _ => relies_of_directory h hd hn j, .pure fun w₂ hi₂ hr₂ => ?_⟩
    exact hmade _ w₂ hfits ((closed_terms i).trans hr₁ hown) hi₂ hr₂ (hl.isDirectory_insert hn)
  | error why =>
    have hact : (R.terms i).act (.makeDirectory p) w₁ = (.error why, w₁) :=
      act_of_error (congrArg (FileOp.change w₁.files) hmake)
    rw [hact]
    refine ⟨hi₁, fun j _ => Relies.refl j w₁, ?_⟩
    split
    · next he => cases he
    · next he =>
      cases he
      exact hmissing w₁ hi₁ hr₁ hmake
    · next hne he =>
      cases he
      exact hother w₁ why hi₁ hr₁ (fun hwhy => hne hwhy) hmake

omit h in
theorem act_isDirectory (R : Rivalry n) (i : Fin n) (p : Path) (w : Stage n) :
    (R.terms i).act (.isDirectory p) w = (w.files.isDirectory R.cwd.parts p.text, w) := by
  change R.act i _ w = _
  unfold act
  simp [FileOp.lands, FileOp.perform, FileOp.look]

/-- Making directories has gone as far as the path or failed, and left the rest as it was. -/
def Tried (R : Rivalry n) (i : Fin n) (v : Own) (p : Path) (r : Except Fault Unit)
    (w : Stage n) : Prop :=
  R.Agrees i w.files v ∧ (r = .ok () → ∃ w₀, R.Fits w₀ ∧ R.Relies i w₀ w ∧
    w₀.files.isDirectory R.cwd.parts p.text = .ok true)

omit h in
theorem tries_settle (ha : R.Agrees i w.files v) (p : Path) (why : Refusal) :
    Works (R.terms i) (R.Tried i v p) (settle p why) w := by
  have hthen (there : Bool) {w₁ : Stage n} (ha₁ : R.Agrees i w₁.files v)
      (ht : there = true → ∃ w₀, R.Fits w₀ ∧ R.Relies i w₀ w₁ ∧
        w₀.files.isDirectory R.cwd.parts p.text = .ok true) :
      Works (R.terms i) (R.Tried i v p)
        (if there then pure () else throw (Fault.ofRefusal why (some p.text)) : Task Unit) w₁ := by
    cases there with
    | true =>
      obtain ⟨w₀, hi₀, hr₀, ht⟩ := ht rfl
      refine .pure fun w₂ _ hr₂ => ⟨ha₁.later hr₂, fun _ => ?_⟩
      exact ⟨w₀, hi₀, (closed_terms i).trans hr₀ hr₂, ht⟩
    | false => exact .throw fun w₂ _ hr₂ => ⟨ha₁.later hr₂, nofun⟩
  have hlook : Works (R.terms i) (fun r w' => R.Agrees i w'.files v ∧ (r = .ok true → ∃ w₀,
      R.Fits w₀ ∧ R.Relies i w₀ w' ∧ w₀.files.isDirectory R.cwd.parts p.text = .ok true))
      (Task.call (.isDirectory p)) w := by
    refine Works.call (o := .isDirectory p) fun w₁ hi₁ hr₁ => ?_
    rw [act_isDirectory]
    refine ⟨hi₁, fun j _ => Relies.refl j w₁, fun w₂ _ hr₂ => ⟨(ha.later hr₁).later hr₂, ?_⟩⟩
    exact fun hr => ⟨w₁, hi₁, hr₂, outcome_eq_ok.mp hr⟩
  unfold settle
  split
  · exact hthen false ha nofun
  · refine Works.bind (closed_terms i) hlook (fun there w₁ _ hq₁ => ?_)
      fun f w₁ _ hq₁ w₂ _ hr₂ => ⟨hq₁.1.later hr₂, nofun⟩
    exact hthen there hq₁.1 fun ht => hq₁.2 (congrArg _ ht)

theorem tries_tryDirectory (hp : p.Above R.target.parent) (ha : R.Agrees i w.files v)
    {missing : Task Unit} (hm : ∀ w₁, R.Fits w₁ → R.Agrees i w₁.files v →
      Works (R.terms i) (R.Tried i v p) missing w₁) :
    Works (R.terms i) (R.Tried i v p) (tryDirectory p missing) w :=
  works_tryDirectory h hp
    (fun w₁ _ hi₁ hr₁ _ hr₂ ht => ⟨(ha.later hr₁).later hr₂, fun _ => ⟨w₁, hi₁, hr₂, ht⟩⟩)
    (fun w₁ hi₁ hr₁ _ => hm w₁ hi₁ (ha.later hr₁))
    fun _ why _ hr₁ _ _ => tries_settle (ha.later hr₁) p why

theorem tries_makeDirectories (depth : Nat) (hp : p.Above R.target.parent)
    (ha : R.Agrees i w.files v) :
    Works (R.terms i) (R.Tried i v p) (makeDirectories depth p) w := by
  induction depth generalizing p w with
  | zero =>
    rw [makeDirectories_zero]
    exact tries_tryDirectory h hp ha fun w₁ _ ha₁ =>
      .throw fun w₂ _ hr₂ => ⟨ha₁.later hr₂, nofun⟩
  | succ depth ih =>
    rw [makeDirectories_succ]
    refine tries_tryDirectory h hp ha fun w₁ _ ha₁ => ?_
    refine Works.bind (closed_terms i) (ih hp.parent ha₁) (fun _ w₂ _ hq₂ => ?_)
      fun f w₂ _ hq₂ w₃ _ hr₃ => ⟨hq₂.1.later hr₃, nofun⟩
    exact tries_tryDirectory h hp hq₂.1 fun w₃ _ ha₃ =>
      .throw fun w₄ _ hr₄ => ⟨ha₃.later hr₄, nofun⟩

/-- Making directories has come as far as the path. -/
def Reached (R : Rivalry n) (i : Fin n) (v : Own) (p : Path) (r : Except Fault Unit)
    (w : Stage n) : Prop :=
  r = .ok () ∧ w.files.isDirectory R.cwd.parts p.text = .ok true ∧ R.Agrees i w.files v

variable (hroom : Roomy R.cwd.parts R.target.parent R.bare R.room)

include hroom

theorem isDirectory_later (hf : R.Fits w) (hf' : R.Fits w') (hr : R.Relies i w w')
    (hp : p.Above R.target.parent) (ht : w.files.isDirectory R.cwd.parts p.text = .ok true) :
    w'.files.isDirectory R.cwd.parts p.text = .ok true :=
  hroom.isDirectory_mono (hf.variant.partly h) (hf'.variant.partly h) hr.directories hp ht

theorem reaches_settle (hf : R.Fits w) (hp : p.Above R.target.parent)
    (ht : w.files.isDirectory R.cwd.parts p.text = .ok true) (ha : R.Agrees i w.files v) :
    Works (R.terms i) (R.Reached i v p) (settle p .occupied) w := by
  have hlook : Works (R.terms i) (fun r w' => r = .ok true ∧
      w'.files.isDirectory R.cwd.parts p.text = .ok true ∧ R.Agrees i w'.files v)
      (Task.call (.isDirectory p)) w := by
    refine Works.call (o := .isDirectory p) fun w₁ hi₁ hr₁ => ?_
    have ht₁ := isDirectory_later h hroom hf hi₁ hr₁ hp ht
    rw [act_isDirectory, ht₁]
    refine ⟨hi₁, fun j _ => Relies.refl j w₁, fun w₂ hi₂ hr₂ => ⟨rfl, ?_, ?_⟩⟩
    · exact isDirectory_later h hroom hi₁ hi₂ hr₂ hp ht₁
    · exact (ha.later hr₁).later hr₂
  refine Works.bind (closed_terms i) hlook (fun there w₁ hi₁ hq₁ => ?_) fun f w₁ _ hq₁ => ?_
  · obtain ⟨hthere, ht₁, ha₁⟩ := hq₁
    cases hthere
    exact .pure fun w₂ hi₂ hr₂ =>
      ⟨rfl, isDirectory_later h hroom hi₁ hi₂ hr₂ hp ht₁, ha₁.later hr₂⟩
  · cases hq₁.1

theorem reaches_tryDirectory (hp : p.Above R.target.parent) (ha : R.Agrees i w.files v)
    {missing : Task Unit}
    (hm : ∀ w₁, R.Fits w₁ → R.Relies i w w₁ →
      w₁.files.isDirectory R.cwd.parts p.parent.text ≠ .ok true →
        Works (R.terms i) (R.Reached i v p) missing w₁) :
    Works (R.terms i) (R.Reached i v p) (tryDirectory p missing) w := by
  refine works_tryDirectory h hp (fun w₁ w₂ hi₁ hr₁ hi₂ hr₂ ht => ?_) (fun w₁ hi₁ hr₁ hmake => ?_)
    fun w₁ why hi₁ hr₁ hwhy hmake => ?_
  · exact ⟨rfl, isDirectory_later h hroom hi₁ hi₂ hr₂ hp ht, (ha.later hr₁).later hr₂⟩
  · refine hm w₁ hi₁ hr₁ ?_
    rcases hroom.makeDirectory (hi₁.variant.partly h) hp with ⟨hm, -⟩ | ⟨l, hm⟩ | ⟨-, habove⟩
    · cases hmake.symm.trans hm
    · cases hmake.symm.trans hm
    · exact habove
  · rcases hroom.makeDirectory (hi₁.variant.partly h) hp with ⟨hm, ht⟩ | ⟨l, hm⟩ | ⟨hm, -⟩
    · cases hmake.symm.trans hm
      exact reaches_settle h hroom hi₁ hp ht (ha.later hr₁)
    · cases hmake.symm.trans hm
    · cases hmake.symm.trans hm
      exact absurd rfl hwhy

/-- However its rivals come before it, a write gets the directories that there is room for. -/
theorem reaches_makeDirectories (depth : Nat) (hp : p.Above R.target.parent)
    (hdepth : p.parts.length ≤ depth) (ha : R.Agrees i w.files v) :
    Works (R.terms i) (R.Reached i v p) (makeDirectories depth p) w := by
  have hbare {w' : Stage n} (hf : R.Fits w') (hnil : p.parts = []) :
      w'.files.isDirectory R.cwd.parts p.parent.text = .ok true :=
    hroom.isDirectory_of_bare (hf.variant.partly h) hp hnil
  induction depth generalizing p w with
  | zero =>
    rw [makeDirectories_zero]
    refine reaches_tryDirectory h hroom hp ha fun w₁ hi₁ _ habove => ?_
    exact absurd (hbare hi₁ (List.length_eq_zero_iff.mp (Nat.le_zero.mp hdepth))) habove
  | succ depth ih =>
    rw [makeDirectories_succ]
    refine reaches_tryDirectory h hroom hp ha fun w₁ hi₁ hr₁ _ => ?_
    have hlength : p.parent.parts.length ≤ depth := by
      change p.parts.dropLast.length ≤ depth
      rw [List.length_dropLast]
      omega
    have hparent := ih hp.parent hlength (ha.later hr₁)
      fun hf hnil => hroom.isDirectory_of_bare (hf.variant.partly h) hp.parent hnil
    refine Works.bind (closed_terms i) hparent (fun _ w₂ hi₂ hq₂ => ?_) fun f w₂ _ hq₂ => ?_
    · refine reaches_tryDirectory h hroom hp hq₂.2.2 fun w₃ hi₃ hr₃ habove => ?_
      exact absurd (isDirectory_later h hroom hi₂ hi₃ hr₃ hp.parent hq₂.2.1) habove
    · cases hq₂.1

end

def Provided (R : Rivalry n) (i : Fin n) (v : Own) (r : Except Fault Unit) (w : Stage n) :
    Prop :=
  R.Agrees i w.files v ∧ (r = .ok () → R.Stands w.files) ∧
    (Roomy R.cwd.parts R.target.parent R.bare R.room → r = .ok ())

theorem works_makeDirectories (h : R.Drawn) (ha : R.Agrees i w.files v) :
    Works (R.terms i) (R.Provided i v)
      (makeDirectories R.target.parent.parts.length R.target.parent) w := by
  have htop : R.target.parent.Above R.target.parent := .self _
  by_cases hroom : Roomy R.cwd.parts R.target.parent R.bare R.room
  · refine (reaches_makeDirectories h hroom _ htop (Nat.le_refl _) ha).imp fun r w' hi' hq => ?_
    exact ⟨hq.2.2, fun _ => hi'.variant.stands h hq.2.1, fun _ => hq.1⟩
  · refine (tries_makeDirectories h _ htop ha).imp fun r w' hi' hq => ?_
    refine ⟨hq.1, fun hr l hl => ?_, fun hroomy => absurd hroomy hroom⟩
    obtain ⟨w₀, hi₀, hr₀, ht⟩ := hq.2 hr
    exact hr₀.directories l hl (hi₀.variant.stands h ht l hl)

def Came {α : Type} (R : Rivalry n) (i : Fin n) (task : Task α) (v : Own) (r : Except Fault α)
    (w : Stage n) : Prop :=
  ∃ v', task.Comes (R.Answers i) v r v' ∧ R.Settled i w v'

/-- Any replies are such as a write may get, where faults do not matter. -/
theorem meets_handles (R : Rivalry n) (i : Fin n) {P : FileOp → Prop}
    (hP : ∀ o, (R.requests i).Handles R.cwd o → P o) :
    (R.requests i).Meets R.cwd P (fun _ _ => True) fun _ => True where
  operation := hP
  refusal _ _ _ _ := trivial
  mishap _ := trivial
  bundle _ := trivial
  emptyName _ _ _ := trivial

section

variable (h : R.Drawn)

include h

/-- Settled writes come to what they can, as long as they only look at members and change their own
files. -/
theorem works_own {α : Type} {task : Task α} {F : Fault → Prop}
    (ht : task.Ways ((R.requests i).Handles R.cwd) (fun _ _ => True) F) (ha : R.Settled i w v) :
    Works (R.terms i) (R.Came i task v) task w :=
  .of_ways (fun _ _ _ hr ha => ha.later hr) (fun _ _ _ ho hf ha => mirrored_handle h hf ha ho)
    ht ha

theorem works_fill (hformat : formatOf R.target = .ok format)
    (ho : R.Owns i ((R.requests i).assembly R.cwd))
    (hv : v ((R.requests i).tarFile R.cwd) = none) (ha : R.Settled i w v) :
    Works (R.terms i) (R.Came i ((R.requests i).fill R.cwd format) v)
      ((R.requests i).fill R.cwd format) w := by
  have hwrite := works_own h (ways_writeArchive (meets_handles R i fun _ => id) format) ha
  unfold Request.fill
  refine Works.bind (closed_terms i) hwrite (fun _ w₁ hi₁ hq₁ => ?_)
    fun f w₁ hi₁ hq₁ w₂ hi₂ hr₂ => ?_
  · obtain ⟨v₁, hc₁, ha₁⟩ := hq₁
    obtain ⟨k, m, hk, hcomplete⟩ := (comes_writeArchive h ho hv hc₁).2 rfl
    have hland : Works (R.terms i)
        (R.Came i (Task.call (.rename ((R.requests i).assembly R.cwd) (R.requests i).target)) v₁)
        (Task.call (.rename ((R.requests i).assembly R.cwd) (R.requests i).target)) w₁ := by
      rw [h.same i]
      refine .of_mirrored (fun _ _ _ hr ha => ha.later hr) (fun w₂ hi₂ ha₂ => ?_) ha₁
      refine mirrored_land h hi₂ ha₂ hformat ho fun k' m' hk' => ?_
      cases hk.symm.trans hk'
      exact hcomplete
    refine hland.imp fun r w₂ _ hq₂ => ?_
    obtain ⟨v₂, hc₂, ha₂⟩ := hq₂
    exact ⟨v₂, comes_bind.mpr (.inl ⟨_, v₁, hc₁, hc₂⟩), ha₂⟩
  · obtain ⟨v₁, hc₁, ha₁⟩ := hq₁
    exact ⟨v₁, comes_bind.mpr (.inr ⟨f, hc₁, rfl⟩), ha₁.later hr₂⟩

theorem works_assemble (hformat : formatOf R.target = .ok format)
    (ha : R.Settled i w fun _ => none) :
    Works (R.terms i) (R.Came i ((R.requests i).assemble R.cwd format) fun _ => none)
      ((R.requests i).assemble R.cwd format) w := by
  have hcreate := Works.of_mirrored (o := .createFile ((R.requests i).assembly R.cwd))
    (fun _ _ _ hr ha => ha.later hr) (fun w hf ha => mirrored_createFile h hf ha (.inl rfl)) ha
  refine Works.bind (closed_terms i) hcreate (fun _ w₁ hi₁ hq₁ => ?_)
    fun f w₁ hi₁ hq₁ w₂ hi₂ hr₂ => ?_
  · obtain ⟨v₁, hc₁, ha₁⟩ := hq₁
    obtain ⟨-, ho, hsame⟩ := (comes_createFile h (.inl rfl) hc₁).resolve_right (by simp)
    have hfill := works_fill h hformat ho (hsame _ (h.two i).symm) ha₁
    refine Works.thenAlways (closed_terms i) hfill fun r w₂ hi₂ hq₂ => ?_
    obtain ⟨v₂, hc₂, ha₂⟩ := hq₂
    have hdiscard := works_own h (ways_discard (meets_handles R i fun _ => id)
      (p := (R.requests i).assembly R.cwd) (.inl rfl)) ha₂
    refine hdiscard.imp fun r' w₃ hi₃ hq₃ => ?_
    obtain ⟨v₃, hc₃, ha₃⟩ := hq₃
    obtain ⟨rfl, -⟩ := comes_discard ho hc₃
    refine ⟨rfl, fun w₄ _ hr₄ => ⟨v₃, ?_, ha₃.later hr₄⟩⟩
    exact comes_bind.mpr (.inl ⟨_, v₁, hc₁, hc₂.andAlways hc₃⟩)
  · obtain ⟨v₁, hc₁, ha₁⟩ := hq₁
    exact ⟨v₁, comes_bind.mpr (.inr ⟨f, hc₁, rfl⟩), ha₁.later hr₂⟩

end

/-- How a write ends: as its sketch can, or for want of directories, with nothing beside the
target. -/
def Ends (R : Rivalry n) (i : Fin n) (r : Except Fault Unit) (w : Stage n) : Prop :=
  (∀ p, R.Owns i p → w.files.held (R.spot p) = none) ∧
    ((∃ v, (R.sketch i).Comes (R.Answers i) (fun _ => none) r v) ∨
      ¬Roomy R.cwd.parts R.target.parent R.bare R.room)

theorem ends_of_comes (h : R.Drawn) {r : Except Fault Unit}
    (hc : (R.sketch i).Comes (R.Answers i) (fun _ => none) r v) (ha : R.Agrees i w.files v) :
    R.Ends i r w :=
  ⟨fun p ho => (ha p ho).trans (comes_sketch h hc ho), .inl ⟨v, hc⟩⟩

theorem ways_looks {members all : List Member} (hm : members ⊆ all) :
    (checkMembers members).Ways (fun o => ∃ m ∈ all, o = .isFile m.path) (fun _ _ => True)
      fun _ => True := by
  induction members with
  | nil => exact .pure ()
  | cons m ms ih =>
    refine .bind (.call ⟨m, hm List.mem_cons_self, rfl⟩ fun _ _ => trivial) fun there => ?_
    split
    · exact ih fun x hx => hm (List.mem_cons_of_mem m hx)
    · exact .throw trivial

theorem works_checkMembers (ha : R.Agrees i w.files v) :
    Works (R.terms i) (fun r w' => ∃ v',
      (checkMembers (R.requests i).members).Comes (R.Answers i) v r v' ∧ R.Agrees i w'.files v')
      (checkMembers (R.requests i).members) w := by
  refine .of_ways (fun _ _ _ hr ha => ha.later hr) ?_ (ways_looks fun _ => id) ha
  rintro o w v ⟨m, -, rfl⟩ hf ha
  exact mirrored_isFile hf ha m.path

theorem works_task (h : R.Drawn) (ha : R.Agrees i w.files fun _ => none) :
    Works (R.terms i) (R.Ends i) ((R.requests i).task R.cwd) w := by
  rw [Request.task_eq]
  cases hf : formatOf (R.requests i).target with
  | error e =>
    refine .throw fun w₁ _ hr₁ => ends_of_comes (v := fun _ => none) h ?_ (ha.later hr₁)
    unfold sketch
    rw [hf]
    exact comes_throw.mpr ⟨rfl, rfl⟩
  | ok format =>
    have hstart {r : Except Fault Unit} {v : Own}
        (hc : (checkMembers (R.requests i).members >>= fun _ =>
          (R.requests i).assemble R.cwd format).Comes (R.Answers i) (fun _ => none) r v) :
        (R.sketch i).Comes (R.Answers i) (fun _ => none) r v := by
      unfold sketch
      rw [hf]
      exact hc
    refine Works.bind (closed_terms i) (works_checkMembers ha) (fun _ w₁ hi₁ hq₁ => ?_)
      fun f w₁ hi₁ hq₁ w₂ hi₂ hr₂ => ?_
    · obtain ⟨v₁, hc₁, ha₁⟩ := hq₁
      obtain rfl := comes_checkMembers hc₁
      unfold Request.proceed
      rw [h.same i] at hf ⊢
      refine Works.bind (closed_terms i) (works_makeDirectories h ha₁) (fun _ w₂ hi₂ hq₂ => ?_)
        fun f w₂ _ hq₂ w₃ _ hr₃ => ?_
      · refine .say_bind ((works_assemble h hf ⟨hq₂.2.1 rfl, hq₂.1⟩).imp fun r w₃ _ hq₃ => ?_)
        obtain ⟨v₃, hc₃, ha₃⟩ := hq₃
        exact ends_of_comes h (hstart (comes_bind.mpr (.inl ⟨_, _, hc₁, hc₃⟩))) ha₃.2
      · refine ⟨fun p ho => hq₂.1.later hr₃ p ho, .inr fun hroom => ?_⟩
        cases hq₂.2.2 hroom
    · obtain ⟨v₁, hc₁, ha₁⟩ := hq₁
      exact ends_of_comes h (hstart (comes_bind.mpr (.inr ⟨f, hc₁, rfl⟩))) (ha₁.later hr₂)

end Rivalry

end TabPackager.Bundle
