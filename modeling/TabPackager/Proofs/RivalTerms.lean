import TabPackager.Proofs.RivalChanges

/-!
# The terms of a write among its rivals

What a write relies on when its rivals go on, and how its own files tell the answers to the
operations that work on them. The others are answered by some files of the moment.
-/

namespace TabPackager

namespace FileSystem

variable {fs : FileSystem} {cwd : Location} {p q : Path} {loc : Location} {why : Refusal}

theorem Leads.writeFile_new (h : fs.Leads cwd p loc) (hl : fs.lookup loc = none) (k : Content)
    (now : Int) : fs.writeFile cwd p.text k now =
      .ok (fs.insert loc (.file fs.freshIdentity k now)) := by
  obtain ⟨d, c, rfl, hs⟩ := h.resolve_follow (by simp [hl])
  rw [FileSystem.writeFile, hs, spotAt, hl]
  rfl

theorem not_names_freshIdentity (fs : FileSystem) (loc : Location) :
    ¬fs.Names loc fs.freshIdentity := by
  rintro ⟨k, m, hf⟩
  exact Nat.lt_irrefl _ (lt_freshIdentity hf rfl)

theorem Leads.move {loc' : Location} {i : Nat} {k : Content} {m : Int} {now : Int}
    (h : fs.Leads cwd p loc) (h' : fs.Leads cwd q loc') (hl : fs.lookup loc = some (.file i k m))
    (hi : ¬fs.Names loc' i) (hd : fs.lookup loc' ≠ some .directory) :
    (FileOp.rename p q).perform cwd now fs =
      (.ok (), (fs.erase loc).insert loc' (.file i k m)) := by
  have hrename := h.rename h' hl fun k' m' he => hi ⟨k', m', he⟩
  refine (congrArg (FileOp.change fs) hrename).trans ?_
  split
  · exact absurd ‹_› hd
  · rfl

section

variable (h : fs.resolve false cwd p.text = .error why) (now : Int)

include h

theorem perform_createFile_refused :
    (FileOp.createFile p).perform cwd now fs = (.error why, fs) := by
  refine congrArg (FileOp.change fs) (?_ : _ = .error why)
  rw [createFile, create, h]
  rfl

theorem perform_writeFile_refused (k : Content) :
    (FileOp.writeFile p k).perform cwd now fs = (.error why, fs) := by
  refine congrArg (FileOp.change fs) (?_ : _ = .error why)
  rcases resolve_follow fs cwd p.text with hs | ⟨_, _, _, hs, -⟩
  · rw [writeFile, hs, h]
    rfl
  · cases h.symm.trans hs

theorem perform_unlink_refused :
    (FileOp.unlink p).perform cwd now fs = (.error why, fs) := by
  refine congrArg (FileOp.change fs) (?_ : _ = .error why)
  rw [unlink, lstat, h]
  rfl

theorem perform_rename_refused (q : Path) :
    (FileOp.rename p q).perform cwd now fs = (.error why, fs) := by
  refine congrArg (FileOp.change fs) (?_ : _ = .error why)
  rw [rename, lstat, h]
  rfl

theorem perform_rename_to_refused (hl : fs.Leads cwd q loc) :
    (FileOp.rename q p).perform cwd now fs =
      (.error (if (fs.lookup loc).isSome then why else .noEntry), fs) := by
  refine congrArg (FileOp.change fs) (?_ : _ = .error _)
  rw [rename, hl.lstat]
  cases fs.lookup loc with
  | none => rfl
  | some e =>
    change (fs.resolve false cwd p.text >>= _) = _
    rw [h]
    rfl

end

end FileSystem

namespace FileOp

def lands (target : Path) : FileOp → Bool
  | .rename _ q => decide (q = target)
  | _ => false

def checks : FileOp → Bool
  | .isFile _ => true
  | _ => false

end FileOp

namespace Bundle

open FileSystem TabPackager.Task

namespace Rivalry

variable {n : Nat} (R : Rivalry n)

def act (i : Fin n) (o : FileOp) (w : Stage n) : Except Refusal o.Reply × Stage n :=
  let out := o.perform R.cwd.parts (R.requests i).now w.files
  (out.1, ⟨out.2,
    if o.lands R.target = true ∧ refusal? out.1 = none then some i else w.landed⟩)

/-- What a write relies on when its rivals go on: what it has beside the target stays, and so do the
directories of the target. -/
structure Relies (i : Fin n) (w w' : Stage n) : Prop where
  own : ∀ p, R.Owns i p → w'.files.held (R.spot p) = w.files.held (R.spot p)
  directories : ∀ l, R.room.lookup l = some .directory → w.files.lookup l = some .directory →
    w'.files.lookup l = some .directory

/-- The terms of a write among its rivals. -/
def terms (i : Fin n) : Terms (Stage n) where
  act := R.act i
  inv := R.Fits
  rely := R.Relies i
  keep w w' := ∀ j, j ≠ i → R.Relies j w w'

def Agrees (i : Fin n) (fs : FileSystem) (v : Own) : Prop :=
  ∀ p, R.Owns i p → fs.held (R.spot p) = v p

/-- The directories of the target are there, and the write has what it knows of. -/
def Settled (i : Fin n) (w : Stage n) (v : Own) : Prop := R.Stands w.files ∧ R.Agrees i w.files v

/-- The operation works on what the write has beside the target, or moves it to the target. -/
def Manages (i : Fin n) : FileOp → Prop
  | .createFile p => R.Owns i p
  | .writeFile p _ => R.Owns i p
  | .unlink p => R.Owns i p
  | .rename p q => R.Owns i p ∧
      (R.Owns i q ∨ q = R.target ∧ R.room.Leads R.cwd.parts R.target R.place)
  | _ => False

/-- How such an operation is answered out of what the write has beside the target. -/
def answer (i : Fin n) : (o : FileOp) → Own → Except Refusal o.Reply × Own
  | .createFile p, v => match v p with
    | some _ => (.error .occupied, v)
    | none =>
      (.ok (), Function.update v p (some (.bytes ByteArray.empty, (R.requests i).now)))
  | .writeFile p k, v => (.ok (), Function.update v p (some (k, (R.requests i).now)))
  | .rename p q, v => match v p, if q = R.target then R.base.lookup R.place else none with
    | none, _ => (.error .noEntry, v)
    | some _, some .directory => (.error .isDirectory, v)
    | some x, _ => (.ok (), Function.update (Function.update v p none) q (some x))
  | .unlink p, v => match v p with
    | some _ => (.ok (), Function.update v p none)
    | none => (.error .noEntry, v)
  | o, v => ((o.perform R.cwd.parts (R.requests i).now R.base).1, v)

/-- How an operation of a write may be answered: out of what the write has beside the target, or,
when it does not work on that, as files of some moment answer it that do not change. -/
def Answers (i : Fin n) (o : FileOp) (v : Own) (r : Except Refusal o.Reply) (v' : Own) : Prop :=
  R.Manages i o ∧ r = (R.answer i o v).1 ∧ v' = (R.answer i o v).2 ∨
    ¬R.Manages i o ∧ v' = v ∧ ∃ fs, R.Variant fs ∧ R.Agrees i fs v ∧
      (o.checks = true ∨ R.Stands fs) ∧ o.perform R.cwd.parts (R.requests i).now fs = (r, fs)

section

variable {R} {w w' : Stage n} {i j : Fin n} {fs fs' : FileSystem} {v : Own} {p p' : Path}

theorem Relies.refl (i : Fin n) (w : Stage n) : R.Relies i w w :=
  ⟨fun _ _ => rfl, fun _ _ h => h⟩

theorem closed_terms (i : Fin n) : (R.terms i).Closed where
  refl := Relies.refl i
  trans h h' := ⟨fun p ho => (h'.own p ho).trans (h.own p ho),
    fun l hl hd => h'.directories l hl (h.directories l hl hd)⟩

theorem Agrees.later (ha : R.Agrees i w.files v) (hr : R.Relies i w w') : R.Agrees i w'.files v :=
  fun p ho => (hr.own p ho).trans (ha p ho)

theorem Settled.later (ha : R.Settled i w v) (hr : R.Relies i w w') : R.Settled i w' v :=
  ⟨fun l hl => hr.directories l hl (ha.1 l hl), ha.2.later hr⟩

/-- The rivals of a write can rely on it where it changes only the target and its own files. -/
theorem relies_of_other (h : R.Drawn) (hne : j ≠ i)
    (hl : ∀ l, l ≠ R.place → (∀ p, R.Owns i p → l ≠ R.spot p) →
      w'.files.lookup l = w.files.lookup l) : R.Relies j w w' where
  own p' ho' := by
    refine held_congr (hl _ (h.free ho').2 fun p ho he => ?_)
    exact hne (h.apart ho' ho he).1
  directories l hd hthere :=
    (hl l (directory_ne_place hd) fun _ ho => h.directory_ne_spot hd ho).trans hthere

theorem Drawn.spot_ne (h : R.Drawn) (ho : R.Owns i p) (ho' : R.Owns j p') (hne : p' ≠ p) :
    R.spot p' ≠ R.spot p := fun he => hne (h.apart ho' ho he).2

theorem Agrees.update (h : R.Drawn) (ha : R.Agrees i fs v) (ho : R.Owns i p)
    {x : Option (Content × Int)} (hx : fs'.held (R.spot p) = x)
    (hl : ∀ l, l ≠ R.spot p → fs'.lookup l = fs.lookup l) :
    R.Agrees i fs' (Function.update v p x) := by
  intro p' ho'
  by_cases hp : p' = p
  · rw [hp, Function.update_self]
    exact hx
  · rw [Function.update_of_ne hp, ← ha p' ho']
    exact held_congr (hl _ (h.spot_ne ho ho' hp))

theorem Stands.of_own (h : R.Drawn) (hs : R.Stands fs) (ho : R.Owns i p)
    (hl : ∀ l, l ≠ R.spot p → fs'.lookup l = fs.lookup l) : R.Stands fs' :=
  fun l hd => (hl l (h.directory_ne_spot hd ho)).trans (hs l hd)

theorem Settled.leads (h : R.Drawn) (hf : R.Fits w) (ha : R.Settled i w v)
    (ho : R.Owns j p) : w.files.Leads R.cwd.parts p (R.spot p) :=
  ho.2.kept (hf.variant.kept_room h ha.1).waysKept

theorem Fits.own_cases (hf : R.Fits w) (ha : R.Agrees i w.files v) (ho : R.Owns i p) :
    (w.files.lookup (R.spot p) = none ∧ v p = none) ∨
      ∃ id k m, w.files.lookup (R.spot p) = some (.file id k m) ∧ v p = some (k, m) := by
  rw [← ha p ho]
  rcases hf.variant.beside i p ho with hn | ⟨id, k, m, hl⟩
  · exact .inl ⟨hn, held_of_none hn⟩
  · exact .inr ⟨id, k, m, hl, held_of_file hl⟩

theorem answer_createFile (hv : v p = none) : R.answer i (.createFile p) v =
    (.ok (), Function.update v p (some (.bytes ByteArray.empty, (R.requests i).now))) := by
  simp only [answer, hv]

theorem answer_unlink {x : Content × Int} (hv : v p = some x) :
    R.answer i (.unlink p) v = (.ok (), Function.update v p none) := by
  simp only [answer, hv]

theorem answer_rename {x : Content × Int} (hv : v p = some x)
    (hd : p' = R.target → R.base.lookup R.place ≠ some .directory) :
    R.answer i (.rename p p') v =
      (.ok (), Function.update (Function.update v p none) p' (some x)) := by
  have hlook : (if p' = R.target then R.base.lookup R.place else none) ≠ some .directory := by
    split
    · next he => exact hd he
    · nofun
  simp only [answer, hv]

theorem act_of_ok {o : FileOp} {r : o.Reply} (hl : o.lands R.target = false)
    (h : o.perform R.cwd.parts (R.requests i).now w.files = (.ok r, fs')) :
    R.act i o w = (.ok r, ⟨fs', w.landed⟩) := by
  unfold act
  rw [h]
  simp [hl]

theorem act_of_landed
    (h : (FileOp.rename p R.target).perform R.cwd.parts (R.requests i).now w.files =
      (.ok (), fs')) : R.act i (.rename p R.target) w = (.ok (), ⟨fs', some i⟩) := by
  unfold act
  rw [h]
  simp [FileOp.lands, refusal?]

theorem act_of_error {o : FileOp} {why : Refusal}
    (h : o.perform R.cwd.parts (R.requests i).now w.files = (.error why, w.files)) :
    R.act i o w = (.error why, w) := by
  unfold act
  rw [h]
  simp [refusal?]

theorem answers_of_eq {o : FileOp} {r : Except Refusal o.Reply} {v' : Own}
    (hm : R.Manages i o) (h : R.answer i o v = (r, v')) : R.Answers i o v r v' := by
  refine .inl ⟨hm, ?_, ?_⟩
  · rw [h]
  · rw [h]

end

end Rivalry

end Bundle

end TabPackager
