import TabPackager.Proofs.TaskOperations

/-!
# Tidy tasks

A task is tidy if each of its removals takes a file away or finds none, however it goes. Most parts
of a call for a bundle take nothing away, and the others take away what is their own.
-/

namespace TabPackager

namespace Task

open FileSystem

variable {α β : Type} {cwd : Location} {now : Int} {fs fs' base : FileSystem}
  {own : Location → Option Nat} {events xs ys : List Event} {p : Path} {loc : Location}

theorem Cleaned.append (hx : Cleaned xs) (hy : Cleaned ys) : Cleaned (xs ++ ys) := by
  intro e he
  rcases List.mem_append.mp he with he | he
  · exact hx e he
  · exact hy e he

theorem mem_of_lastRefusal? {o : FileOp} {why : Refusal}
    (h : lastRefusal? events = some (o, why)) : (o, some why) ∈ events := by
  have hmem := List.mem_of_getLast? h
  obtain ⟨⟨o', why'⟩, he, hsome⟩ := List.mem_filterMap.mp hmem
  dsimp only at hsome
  split at hsome
  · cases hsome
  · obtain ⟨w, rfl, hw⟩ := Option.map_eq_some_iff.mp hsome
    cases hw
    exact he

theorem cleaned_nil : Cleaned [] := by simp [Cleaned]

theorem cleaned_singleton {o : FileOp} (ho : o.isRemoval = false) (why : Option Refusal) :
    Cleaned [(o, why)] := by
  intro e he hremoval
  rw [List.mem_singleton.mp he, ho] at hremoval
  cases hremoval

def Tidy (cwd : Location) (now : Int) (t : Task α) : Prop :=
  ∀ fs events result fs', Execution cwd now t fs events result fs' → Cleaned events

theorem Tidy.pure (a : α) : Tidy cwd now (pure a : Task α) := by
  intro fs events result fs' h
  obtain ⟨rfl, -, -⟩ := execution_pure h
  exact cleaned_nil

theorem Tidy.throw (f : Fault) : Tidy cwd now (throw f : Task α) := by
  intro fs events result fs' h
  obtain ⟨rfl, -, -⟩ := execution_throw h
  exact cleaned_nil

theorem Tidy.say (m : Message) : Tidy cwd now (say m) := by
  intro fs events result fs' h
  obtain ⟨rfl, -, -⟩ := execution_say h
  exact cleaned_nil

theorem Tidy.call {o : FileOp} (ho : o.isRemoval = false) : Tidy cwd now (call o) := by
  intro fs events result fs' h
  obtain ⟨reply, -, rfl, -⟩ := execution_call h
  exact cleaned_singleton ho _

theorem Tidy.attempt {o : FileOp} (ho : o.isRemoval = false) : Tidy cwd now (attempt o) := by
  intro fs events result fs' h
  obtain ⟨reply, -, rfl, -⟩ := execution_attempt h
  exact cleaned_singleton ho _

theorem Tidy.bind {t : Task α} (ht : Tidy cwd now t) {g : α → Task β}
    (hg : ∀ a, Tidy cwd now (g a)) : Tidy cwd now (t >>= g) := by
  intro fs events result fs' h
  rcases execution_bind h with ⟨a, fs₁, xs, ys, h₁, h₂, rfl⟩ | ⟨f, h₁, -⟩
  · exact (ht _ _ _ _ h₁).append (hg a _ _ _ _ h₂)
  · exact ht _ _ _ _ h₁

theorem execution_discard_cases {result : Except Fault Unit}
    (h : Execution cwd now (Bundle.discard p) fs events result fs') :
    Cleaned events ∨ ∃ why, why ≠ .noEntry ∧ fs.unlink cwd p.text = .error why ∧
      (FileOp.unlink p, some why) ∈ events ∧
      result = .error (Fault.ofRefusal why (some p.text)) ∧ fs' = fs := by
  rcases execution_bind h with ⟨reply, fs₁, xs, ys, hu, hd, rfl⟩ | ⟨f, hu, -⟩
  · obtain ⟨reply', hh, rfl, hr⟩ := execution_attempt hu
    obtain rfl := Except.ok.inj hr
    have hclean {answer : Option Refusal} (ha : answer = none ∨ answer = some .noEntry) :
        Cleaned [(FileOp.unlink p, answer)] := by
      intro e he _
      rw [List.mem_singleton.mp he]
      exact ha
    rcases hh.unlink with ⟨-, rfl⟩ | ⟨why, he, rfl, rfl⟩
    · obtain ⟨rfl, -, -⟩ := execution_pure hd
      exact .inl ((hclean (.inl rfl)).append cleaned_nil)
    · by_cases hwhy : why = .noEntry
      · subst hwhy
        obtain ⟨rfl, -, -⟩ := execution_pure hd
        exact .inl ((hclean (.inr rfl)).append cleaned_nil)
      · refine .inr ⟨why, hwhy, he, by simp [refusal?], ?_⟩
        split at hd
        · next heq => cases heq
        · next heq => exact absurd (Except.error.inj heq) hwhy
        · next heq =>
          cases heq
          obtain ⟨-, hr, hfs⟩ := execution_throw hd
          exact ⟨hr, hfs⟩
  · obtain ⟨reply, -, -, hr⟩ := execution_attempt hu
    cases hr

theorem cleaned_discardOwn {result : Except Fault Unit} (ho : Overlaid base own fs)
    (hl : base.Leads cwd p loc) (hn : base.lookup loc = none)
    (h : Execution cwd now (Bundle.discard p) fs events result fs') : Cleaned events := by
  refine (execution_discard_cases h).resolve_right ?_
  rintro ⟨why, hwhy, hu, -, -, -⟩
  rw [(hl.kept ho.waysKept).unlink] at hu
  cases hown : own loc with
  | none =>
    rw [ho.elsewhere loc hown, hn] at hu
    exact hwhy (Except.error.inj hu).symm
  | some i =>
    obtain ⟨k, m, hf⟩ := ho.here loc i hown
    rw [hf] at hu
    cases hu

end Task

namespace Bundle

open FileSystem TabPackager.Task

variable {cwd : Location} {now : Int} {base fs fs' : FileSystem} {own : Location → Option Nat}
  {events : List Event} {file : Path} {mishaps : Mishaps} {members : List Member}

theorem tidy_checkMembers (members : List Member) : Tidy cwd now (checkMembers members) := by
  induction members with
  | nil => exact Tidy.pure ()
  | cons m ms ih =>
    refine Tidy.bind (Tidy.call rfl) fun there => ?_
    split
    · exact ih
    · exact Tidy.throw _

theorem tidy_settle (p : Path) (why : Refusal) : Tidy cwd now (settle p why) := by
  have hthen (there : Bool) : Tidy cwd now
      (if there then pure () else throw (Fault.ofRefusal why (some p.text)) : Task Unit) := by
    split
    · exact Tidy.pure ()
    · exact Tidy.throw _
  unfold settle
  split
  · exact Tidy.bind (Tidy.pure false) hthen
  · exact Tidy.bind (Tidy.call rfl) hthen

theorem tidy_tryDirectory (p : Path) {missing : Task Unit} (hm : Tidy cwd now missing) :
    Tidy cwd now (tryDirectory p missing) := by
  refine Tidy.bind (Tidy.attempt rfl) fun reply => ?_
  split
  · exact Tidy.pure ()
  · exact hm
  · exact tidy_settle p _

theorem tidy_makeDirectories (depth : Nat) (p : Path) :
    Tidy cwd now (makeDirectories depth p) := by
  induction depth generalizing p with
  | zero =>
    rw [makeDirectories_zero]
    exact tidy_tryDirectory p (Tidy.throw _)
  | succ depth ih =>
    rw [makeDirectories_succ]
    apply tidy_tryDirectory
    exact Tidy.bind (ih p.parent) fun _ => tidy_tryDirectory p (Tidy.throw _)

theorem tidy_mayStore (number : Nat) : Tidy cwd now (mayStore mishaps number) := by
  unfold mayStore
  split
  · exact Tidy.throw _
  · exact Tidy.pure ()

theorem tidy_storeTar (number : Nat) (stored : List (Nat × String))
    (entries : List (TarEntry Content)) (members : List Member) :
    Tidy cwd now (storeTar mishaps file number stored entries members) := by
  induction members generalizing number stored entries with
  | nil => exact Tidy.pure entries
  | cons m ms ih =>
    refine Tidy.bind (tidy_mayStore number) fun _ => ?_
    refine Tidy.bind (Tidy.call rfl) fun seen => ?_
    split
    · exact ih (number + 1) stored entries
    · exact Tidy.bind (Tidy.call rfl) fun _ => ih (number + 1) _ _

theorem tidy_storeZip (number : Nat) (entries : List (ZipEntry Content))
    (members : List Member) :
    Tidy cwd now (storeZip mishaps file number entries members) := by
  induction members generalizing number entries with
  | nil => exact Tidy.pure entries
  | cons m ms ih =>
    refine Tidy.bind (tidy_mayStore number) fun _ => ?_
    refine Tidy.bind (Tidy.call rfl) fun (content, modified) => ?_
    dsimp only
    split
    · exact Tidy.throw _
    · exact Tidy.bind (Tidy.call rfl) fun _ => ih (number + 1) _

theorem tidy_fillTar : Tidy cwd now (fillTar mishaps file members) := by
  refine Tidy.bind (Tidy.call rfl) fun _ => ?_
  refine Tidy.bind (tidy_storeTar 0 [] [] members) fun entries => ?_
  exact Tidy.bind (Tidy.call rfl) fun _ => Tidy.pure entries

theorem tidy_fillZip : Tidy cwd now (fillZip mishaps file members) := by
  refine Tidy.bind (Tidy.call rfl) fun _ => ?_
  exact Tidy.bind (tidy_storeZip 0 [] members) fun entries => Tidy.call rfl

theorem tidy_pack (format : Format) (target output : Path) (a empty : Archive Content) :
    Tidy cwd now (pack mishaps format target output a empty) := by
  refine Tidy.bind (Tidy.call rfl) fun _ => ?_
  split
  · exact Tidy.throw _
  · exact Tidy.call rfl

theorem tidy_finish (format : Format) (target output tarPath : Path)
    (entries : List (TarEntry Content)) :
    Tidy cwd now (finish mishaps format target output tarPath entries) := by
  unfold finish
  split
  · exact tidy_pack _ _ _ _ _
  · exact tidy_pack _ _ _ _ _
  · exact Tidy.call rfl

theorem cleaned_writeTar (ho : Overlaid base own fs)
    {result : Except Fault (List (TarEntry Content))}
    (h : Task.Execution cwd now (writeTar mishaps file members) fs events result fs') :
    Cleaned events := by
  rw [writeTar_eq] at h
  rcases execution_bind h with ⟨_, fs₁, xs, ys, h₁, htry, rfl⟩ | ⟨f, h₁, -⟩
  · have hcreated := execution_createFile ho h₁
    obtain ⟨-, loc, i, hl, -, hn, ho₁⟩ := hcreated.resolve_left (by simp)
    have hi : Function.update own loc (some i) loc = some i := Function.update_self ..
    refine (Tidy.call rfl _ _ _ _ h₁).append ?_
    rcases execution_tryCatch htry with ⟨entries, h₂, -⟩ | ⟨f, fs₂, us, vs, h₂, hcatch, rfl⟩
    · exact tidy_fillTar _ _ _ _ h₂
    · have ho₂ := keeps_fillTar hl hi members _ _ _ _ ho₁ h₂
      refine (tidy_fillTar _ _ _ _ h₂).append ?_
      rcases execution_bind hcatch with ⟨_, fs₃, _, _, h₃, hthrow, rfl⟩ | ⟨g, h₃, -⟩
      · exact (cleaned_discardOwn ho₂ hl hn h₃).append (Tidy.throw f _ _ _ _ hthrow)
      · exact cleaned_discardOwn ho₂ hl hn h₃
  · exact Tidy.call rfl _ _ _ _ h₁

theorem cleaned_writeArchive {format : Format} {target output tarPath : Path} {out : Location}
    {i : Nat} (ho : Overlaid base (single out i) fs) (hout : base.Leads cwd output out)
    {result : Except Fault Unit}
    (h : Task.Execution cwd now (writeArchive mishaps format members target output tarPath) fs
      events result fs') : Cleaned events := by
  by_cases hf : format = .zip
  · subst hf
    exact tidy_fillZip _ _ _ _ h
  · rw [writeArchive_tar hf] at h
    rcases execution_bind h with ⟨entries, fs₁, _, _, h₁, hthen, rfl⟩ | ⟨f, h₁, -⟩
    · have hc₁ := cleaned_writeTar ho h₁
      have hwritten := (execution_writeTar ho h₁ hc₁).resolve_left (by simp)
      obtain ⟨_, loc, n, hr, hl, hown, hn, ho₁, hk, hp, -⟩ := hwritten
      cases hr
      have hne : loc ≠ out := by
        rintro rfl
        rw [single_self] at hown
        cases hown
      obtain ⟨r, fs₂, _, r', _, h₂, h₃, rfl, -⟩ := execution_thenAlways hthen
      obtain ⟨j, ⟨t, ho₂⟩, -⟩ := execution_finish hne ho₁ hl hout hk hp hf h₂
      have hc₂ := tidy_finish format target output tarPath entries _ _ _ _ h₂
      exact hc₁.append (hc₂.append (cleaned_discardOwn ho₂ hl hn h₃))
    · exact cleaned_writeTar ho h₁

end Bundle

end TabPackager
