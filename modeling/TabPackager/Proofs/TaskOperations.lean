import TabPackager.Proofs.BundleAtomicity

/-!
# The operations of a bundle

Which operations a script performs, and how it can end, on all ways through it on which the system
replies as it may. The writing of a bundle performs operations of few kinds, all on the paths of
its request.
-/

namespace TabPackager

variable {α β : Type}

abbrev Replies := (o : FileOp) → Except Refusal o.Reply → Prop

/-- On all ways through the script the operations are of a kind, and at the end of those ways on
which all replies are as they may be, the result is good. -/
def Script.Ways (P : FileOp → Prop) (A : Replies) (Q : α → Prop) : Script α → Prop
  | .done a => Q a
  | .op o next => P o ∧ ∀ reply, A o reply → (next reply).Ways P A Q
  | .say _ next => next.Ways P A Q

namespace Script

variable {P : FileOp → Prop} {A : Replies} {Q : α → Prop} {R : β → Prop}

theorem Ways.bind {s : Script α} (hs : s.Ways P A Q) {f : α → Script β}
    (hf : ∀ a, Q a → (f a).Ways P A R) : (s.bind f).Ways P A R := by
  induction s with
  | done a => exact hf a hs
  | op o next ih => exact ⟨hs.1, fun reply hr => ih reply (hs.2 reply hr)⟩
  | say m next ih => exact ih hs

/-- A script whose operations get the replies they may get comes to a good result. -/
theorem Ways.run {s : Script α} (hs : s.Ways P A Q) {cwd : Location} {now : Int}
    (hreply : ∀ fs o, P o → A o (o.perform cwd now fs).1) (fs : FileSystem) :
    Q (s.run cwd now fs).1 := by
  induction s generalizing fs with
  | done a => exact hs
  | op o next ih => exact ih _ (hs.2 _ (hreply fs o hs.1)) _
  | say m next ih => exact ih hs fs

theorem Ways.execution {s : Script α} (hs : s.Ways P (fun _ _ => True) Q) {cwd : Location}
    {now : Int} {fs fs' : FileSystem} {events : List Event} {a : α}
    (h : Execution cwd now s fs events a fs') : ∀ e ∈ events, P e.1 := by
  induction h with
  | done a fs => simp
  | op first rest ih =>
    rw [List.forall_mem_cons]
    exact ⟨hs.1, ih (hs.2 _ trivial)⟩
  | say rest ih => exact ih hs

end Script

namespace Task

/-- On all ways through the task its operations are of a kind, and its faults are of another. -/
def Ways (P : FileOp → Prop) (A : Replies) (F : Fault → Prop) (t : Task α) : Prop :=
  t.run.Ways P A fun r => ∀ f, r = .error f → F f

variable {P : FileOp → Prop} {A : Replies} {F : Fault → Prop}

theorem Ways.pure (a : α) : Ways P A F (pure a : Task α) := fun _ => nofun

theorem Ways.throw {f : Fault} (hf : F f) : Ways P A F (throw f : Task α) := by
  intro g h
  cases h
  exact hf

theorem Ways.say (m : Message) : Ways P A F (say m) := fun _ => nofun

theorem Ways.call {o : FileOp} (ho : P o)
    (hf : ∀ why, A o (.error why) → F (Fault.ofRefusal why (some o.files.1) o.files.2)) :
    Ways P A F (call o) := by
  refine ⟨ho, fun reply hr => ?_⟩
  cases reply with
  | ok r => exact fun _ => nofun
  | error why =>
    intro f h
    cases h
    exact hf why hr

theorem Ways.attempt_bind {o : FileOp} (ho : P o) {g : Except Refusal o.Reply → Task β}
    (hg : ∀ reply, A o reply → Ways P A F (g reply)) : Ways P A F (attempt o >>= g) :=
  ⟨ho, hg⟩

theorem Ways.bind {t : Task α} (ht : Ways P A F t) {g : α → Task β}
    (hg : ∀ a, Ways P A F (g a)) : Ways P A F (t >>= g) := by
  refine Script.Ways.bind ht fun r hr => ?_
  cases r with
  | ok a => exact hg a
  | error f =>
    intro f' h
    cases h
    exact hr f rfl

theorem Ways.tryCatch {t : Task α} (ht : Ways P A F t) {handler : Fault → Task α}
    (hh : ∀ f, F f → Ways P A F (handler f)) : Ways P A F (tryCatch t handler) := by
  refine Script.Ways.bind ht fun r hr => ?_
  cases r with
  | ok a => exact fun _ => nofun
  | error f => exact hh f (hr f rfl)

theorem Ways.thenAlways {t : Task α} (ht : Ways P A F t) {after : Task Unit}
    (ha : Ways P A F after) : Ways P A F (t.thenAlways after) := by
  refine Script.Ways.bind ht fun r hr => Script.Ways.bind ha fun r' hr' => ?_
  cases r' with
  | ok u => exact hr
  | error f =>
    intro f' h
    cases h
    exact hr' f rfl

theorem Ways.execution {t : Task α} (ht : Ways P (fun _ _ => True) F t) {cwd : Location}
    {now : Int} {fs fs' : FileSystem} {events : List Event} {result : Except Fault α}
    (h : Execution cwd now t fs events result fs') : ∀ e ∈ events, P e.1 :=
  Script.Ways.execution ht h

-- From here on the ways through a task are followed by the lemmas above alone.
attribute [irreducible] Ways

end Task

namespace Bundle

open TabPackager.Task

def Request.tarFile (cwd : Path) (q : Request) : Path :=
  (scratchDirectory cwd q.target).child q.scratch.tar

/-- The operations of a call that look at members and handle the files beside the target. -/
inductive Request.Handles (cwd : Path) (q : Request) : FileOp → Prop
  | isFile {m : Member} (hm : m ∈ q.members) : Handles cwd q (.isFile m.path)
  | examine {m : Member} (hm : m ∈ q.members) : Handles cwd q (.examine m.path)
  | contentOf {m : Member} (hm : m ∈ q.members) : Handles cwd q (.contentOf m.path)
  | create {p : Path} (hp : p = q.assembly cwd ∨ p = q.tarFile cwd) : Handles cwd q (.createFile p)
  | write {p : Path} (hp : p = q.assembly cwd ∨ p = q.tarFile cwd) (k : Content) :
      Handles cwd q (.writeFile p k)
  | unlink {p : Path} (hp : p = q.assembly cwd ∨ p = q.tarFile cwd) : Handles cwd q (.unlink p)
  | assemble : Handles cwd q (.rename (q.tarFile cwd) (q.assembly cwd))

inductive Request.Uses (cwd : Path) (q : Request) : FileOp → Prop
  | handle {o : FileOp} (ho : q.Handles cwd o) : Uses cwd q o
  | makeDirectory {p : Path} (hp : p.Above q.target.parent) : Uses cwd q (.makeDirectory p)
  | isDirectory {p : Path} (hp : p.Above q.target.parent) : Uses cwd q (.isDirectory p)
  | land : Uses cwd q (.rename (q.assembly cwd) q.target)

/-- The replies that the operations of a call may get, and the faults that come of them. -/
structure Request.Meets (cwd : Path) (q : Request) (P : FileOp → Prop) (A : Replies)
    (F : Fault → Prop) : Prop where
  operation : ∀ o, q.Handles cwd o → P o
  refusal : ∀ o why, P o → A o (.error why) → F (Fault.ofRefusal why (some o.files.1) o.files.2)
  mishap : ∀ e, F (.os e)
  bundle : ∀ e, F (.bundle e)
  emptyName : ∀ m ∈ q.members, zipName? m.name = none → F (.escape .emptyName)

section

variable {cwd : Path} {q : Request} {P : FileOp → Prop} {A : Replies} {F : Fault → Prop}
  (h : q.Meets cwd P A F)

include h

theorem Request.Meets.perform {o : FileOp} (ho : P o) : Ways P A F (call o) :=
  .call ho fun why => h.refusal o why ho

theorem Request.Meets.call {o : FileOp} (ho : q.Handles cwd o) : Ways P A F (call o) :=
  h.perform (h.operation o ho)

theorem ways_mayStore (number : Nat) : Ways P A F (mayStore q.mishaps number) := by
  unfold mayStore
  split
  · exact .throw (h.mishap _)
  · exact .pure ()

theorem ways_storeTar (number : Nat) (stored : List (Nat × String))
    (entries : List (TarEntry Content)) {members : List Member} (hm : members ⊆ q.members) :
    Ways P A F (storeTar q.mishaps (q.tarFile cwd) number stored entries members) := by
  induction members generalizing number stored entries with
  | nil => exact .pure entries
  | cons m ms ih =>
    have hms : ms ⊆ q.members := fun x hx => hm (List.mem_cons_of_mem m hx)
    refine .bind (ways_mayStore h number) fun _ => ?_
    refine .bind (h.call (.examine (hm List.mem_cons_self))) fun seen => ?_
    split
    · exact ih _ _ _ hms
    · exact .bind (h.call (.write (.inr rfl) _)) fun _ => ih _ _ _ hms

theorem ways_storeZip (number : Nat) (entries : List (ZipEntry Content)) {members : List Member}
    (hm : members ⊆ q.members) :
    Ways P A F (storeZip q.mishaps (q.assembly cwd) number entries members) := by
  induction members generalizing number entries with
  | nil => exact .pure entries
  | cons m ms ih =>
    refine .bind (ways_mayStore h number) fun _ => ?_
    refine .bind (h.call (.contentOf (hm List.mem_cons_self))) ?_
    intro (content, modified)
    dsimp only
    split
    · next hname => exact .throw (h.emptyName m (hm List.mem_cons_self) hname)
    · refine .bind (h.call (.write (.inl rfl) _)) fun _ => ?_
      exact ih _ _ fun x hx => hm (List.mem_cons_of_mem m hx)

theorem ways_discard {p : Path} (hp : p = q.assembly cwd ∨ p = q.tarFile cwd) :
    Ways P A F (discard p) := by
  refine .attempt_bind (h.operation _ (.unlink hp)) fun reply hr => ?_
  split
  · exact .pure ()
  · exact .pure ()
  · exact .throw (h.refusal _ _ (h.operation _ (.unlink hp)) hr)

theorem ways_writeTar : Ways P A F (writeTar q.mishaps (q.tarFile cwd) q.members) := by
  refine .bind (h.call (.create (.inr rfl))) fun _ => .tryCatch ?_ fun f hf => ?_
  · refine .bind (h.call (.write (.inr rfl) _)) fun _ => ?_
    refine .bind (ways_storeTar h 0 [] [] fun _ => id) fun entries => ?_
    exact .bind (h.call (.write (.inr rfl) _)) fun _ => .pure entries
  · exact .bind (ways_discard h (.inr rfl)) fun _ => .throw hf

theorem ways_pack (format : Format) (a empty : Archive Content) :
    Ways P A F (pack q.mishaps format q.target (q.assembly cwd) a empty) := by
  refine .bind (h.call (.write (.inl rfl) _)) fun _ => ?_
  split
  · exact .throw (h.bundle _)
  · exact h.call (.write (.inl rfl) _)

theorem ways_writeArchive (format : Format) :
    Ways P A F (writeArchive q.mishaps format q.members q.target (q.assembly cwd)
      (q.tarFile cwd)) := by
  by_cases hf : format = .zip
  · rw [hf, writeArchive_zip]
    refine .bind (h.call (.write (.inl rfl) _)) fun _ => ?_
    exact .bind (ways_storeZip h 0 [] fun _ => id) fun _ => h.call (.write (.inl rfl) _)
  · rw [writeArchive_tar hf]
    refine .bind (ways_writeTar h) fun entries => ?_
    refine .thenAlways ?_ (ways_discard h (.inr rfl))
    unfold finish
    split
    · exact ways_pack h _ _ _
    · exact ways_pack h _ _ _
    · exact h.call .assemble

theorem ways_checkMembers {members : List Member} (hm : members ⊆ q.members) :
    Ways P A F (checkMembers members) := by
  induction members with
  | nil => exact .pure ()
  | cons m ms ih =>
    refine .bind (h.call (.isFile (hm List.mem_cons_self))) fun there => ?_
    split
    · exact ih fun x hx => hm (List.mem_cons_of_mem m hx)
    · exact .throw (h.bundle _)

/-- What is done once the directories are there. -/
theorem ways_assemble (hl : P (.rename (q.assembly cwd) q.target)) (format : Format) :
    Ways P A F (q.assemble cwd format) := by
  refine .bind (h.call (.create (.inl rfl))) fun _ => .thenAlways ?_ (ways_discard h (.inl rfl))
  exact .bind (ways_writeArchive h format) fun _ => h.perform hl

variable (hu : ∀ o, q.Uses cwd o → P o)

include hu

theorem ways_settle {p : Path} (hp : p.Above q.target.parent) {why : Refusal}
    (hr : A (.makeDirectory p) (.error why)) : Ways P A F (settle p why) := by
  have hthen (there : Bool) : Ways P A F
      (if there then pure () else throw (Fault.ofRefusal why (some p.text)) : Task Unit) := by
    split
    · exact .pure ()
    · exact .throw (h.refusal _ _ (hu _ (.makeDirectory hp)) hr)
  unfold settle
  split
  · exact .bind (.pure false) hthen
  · exact .bind (h.perform (hu _ (.isDirectory hp))) hthen

theorem ways_tryDirectory {p : Path} (hp : p.Above q.target.parent) {missing : Task Unit}
    (hm : A (.makeDirectory p) (.error .noEntry) → Ways P A F missing) :
    Ways P A F (tryDirectory p missing) := by
  refine .attempt_bind (hu _ (.makeDirectory hp)) fun reply hr => ?_
  split
  · exact .pure ()
  · exact hm hr
  · exact ways_settle h hu hp hr

theorem ways_makeDirectories (depth : Nat) {p : Path} (hp : p.Above q.target.parent) :
    Ways P A F (makeDirectories depth p) := by
  have hthrow {p : Path} (hp : p.Above q.target.parent)
      (hr : A (.makeDirectory p) (.error .noEntry)) :
      Ways P A F (throw (Fault.ofRefusal .noEntry (some p.text)) : Task Unit) :=
    .throw (h.refusal _ _ (hu _ (.makeDirectory hp)) hr)
  induction depth generalizing p with
  | zero =>
    rw [makeDirectories_zero]
    exact ways_tryDirectory h hu hp (hthrow hp)
  | succ depth ih =>
    rw [makeDirectories_succ]
    refine ways_tryDirectory h hu hp fun _ => .bind (ih hp.parent) fun _ => ?_
    exact ways_tryDirectory h hu hp (hthrow hp)

theorem Request.ways_task : Ways P A F (q.task cwd) := by
  rw [Request.task_eq]
  have hformat : Ways P A F (refused (formatOf q.target)) := by
    cases formatOf q.target with
    | ok format => exact .pure format
    | error e => exact .throw (h.bundle e)
  refine .bind hformat fun format => .bind (ways_checkMembers h fun _ => id) fun _ => ?_
  refine .bind (ways_makeDirectories h hu _ (.self _)) fun _ => .bind (.say _) fun _ => ?_
  exact ways_assemble h (hu _ .land) format

omit h hu in
/-- However a call goes, it tries its operations and no others. -/
theorem Request.uses_of_mem {now : Int} {fs fs' : FileSystem} {events : List Event}
    {result : Except Fault Unit}
    (hx : Task.Execution cwd.parts now (q.task cwd) fs events result fs') :
    ∀ e ∈ events, q.Uses cwd e.1 := by
  have hmeets : q.Meets cwd (q.Uses cwd) (fun _ _ => True) fun _ => True :=
    { operation := fun _ => .handle
      refusal := fun _ _ _ _ => trivial
      mishap := fun _ => trivial
      bundle := fun _ => trivial
      emptyName := fun _ _ _ => trivial }
  exact Ways.execution (ways_task hmeets fun _ => id) hx

end

end Bundle

end TabPackager
