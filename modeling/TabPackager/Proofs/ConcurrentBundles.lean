import TabPackager.Proofs.Races

/-!
# Bundles written at the same time

Whatever the order in which the operations of several writes to one target come, and wherever they
stop: the target has its old entry or the complete archive of the write that came last to put
one there, a write that has ended has left nothing beside the target, and it has ended as it
would alone if nothing that it looks at depends on the others.
-/

namespace TabPackager

/-- The script only looks when it runs alone, and puts nothing at the path. -/
def Script.Idle {α : Type} (target : Path) (cwd : Location) (now : Int) (fs : FileSystem) :
    Script α → Prop
  | .done _ => True
  | .op o next => (o.perform cwd now fs).2 = fs ∧ o.lands target = false ∧
      (next (o.perform cwd now fs).1).Idle target cwd now fs
  | .say _ next => next.Idle target cwd now fs

namespace Bundle

open FileSystem TabPackager.Task

namespace Rivalry

variable {n : Nat} (R : Rivalry n)

def Idle : Prop :=
  ∀ i, ((R.requests i).task R.cwd).run.Idle R.target R.cwd.parts (R.requests i).now R.base

/-- The target has its old entry or the complete archive that landed last, and the writes that
have ended have left nothing beside the target. They have ended as they do alone, unless what they
look at depends on how far the others have come. -/
structure Atomic (c : Race n) : Prop where
  untouched : c.landed = none → c.files.lookup R.place = R.base.lookup R.place
  landed : ∀ j, c.landed = some j → c.files.Leads R.cwd.parts R.target R.place ∧
    ∃ format id, formatOf R.target = .ok format ∧
      Filled R.room R.cwd.parts (R.requests j).members format R.place id c.files
  cleaned : ∀ i r, c.scripts i = .done r → ∀ p, R.Owns i p → c.files.lookup (R.spot p) = none
  outcome : ∀ i r, c.scripts i = .done r → R.Steady i ∨ R.Idle → r = (R.solo i).result

variable {R} {c : Race n} {i : Fin n}

theorem step_of_idle {α : Type} {target : Path} {cwd : Location} {now : Int} {fs : FileSystem}
    {s : Script α} (h : s.Idle target cwd now fs) :
    (s.step cwd now fs).2 = fs ∧ (s.step cwd now fs).1.Idle target cwd now fs ∧
      s.lands target cwd now fs = false ∧
      ((s.step cwd now fs).1.run cwd now fs).1 = (s.run cwd now fs).1 := by
  cases s with
  | done a => exact ⟨rfl, h, rfl, rfl⟩
  | say m next => exact ⟨rfl, h, rfl, rfl⟩
  | op o next =>
    obtain ⟨hfs, hlands, hnext⟩ := h
    refine ⟨hfs, hnext, ?_, ?_⟩
    · rw [Script.lands, hlands, Bool.false_and]
    · change ((next _).run cwd now fs).1 = ((next _).run cwd now (o.perform cwd now fs).2).1
      rw [hfs]

-- From here on scripts that only look are followed by the lemma above alone.
attribute [irreducible] Script.Idle

/-- Nothing has changed, and what each write has still to do comes to what it does alone. -/
structure Rests (R : Rivalry n) (c : Race n) : Prop where
  files : c.files = R.base
  landed : c.landed = none
  idle : ∀ i, (c.scripts i).Idle R.target R.cwd.parts (R.requests i).now R.base
  result : ∀ i, ((c.scripts i).run R.cwd.parts (R.requests i).now R.base).1 = (R.solo i).result

theorem Rests.step (h : R.Rests c) (i : Fin n) : R.Rests (R.step c i) := by
  obtain ⟨hfiles, hidle, hlands, hrun⟩ := step_of_idle (h.idle i)
  have hself : (R.step c i).scripts i =
      ((c.scripts i).step R.cwd.parts (R.requests i).now R.base).1 := by
    rw [← h.files]
    exact Function.update_self _ _ _
  constructor
  case files =>
    change ((c.scripts i).step R.cwd.parts (R.requests i).now c.files).2 = R.base
    rw [h.files, hfiles]
  case landed =>
    change (if (c.scripts i).lands _ _ _ c.files then some i else c.landed) = none
    rw [h.files, hlands, h.landed]
    rfl
  case idle =>
    intro j
    by_cases hj : j = i
    · rw [hj, hself]
      exact hidle
    · rw [show (R.step c i).scripts j = c.scripts j from Function.update_of_ne hj _ _]
      exact h.idle j
  case result =>
    intro j
    by_cases hj : j = i
    · rw [hj, hself, hrun]
      exact h.result i
    · rw [show (R.step c i).scripts j = c.scripts j from Function.update_of_ne hj _ _]
      exact h.result j

theorem rests_run (h : R.Idle) (schedule : List (Fin n)) : R.Rests (R.run schedule) := by
  have hstart : R.Rests R.start := by
    refine ⟨rfl, rfl, fun i => ?_, fun i => ?_⟩
    · rw [start_scripts]
      exact h i
    · rw [start_scripts]
      unfold solo Request.attempt
      dsimp only
  unfold run
  generalize R.start = c at hstart
  induction schedule generalizing c with
  | nil => exact hstart
  | cons i schedule ih => exact ih _ (hstart.step i)

theorem Rests.outcome (h : R.Rests c) {r : Except Fault Unit} (hd : c.scripts i = .done r) :
    r = (R.solo i).result := by
  have hresult := h.result i
  rw [hd] at hresult
  exact hresult

/-- Wherever writes to one target have come among each other, the target has its old entry or a
complete archive, nothing is left beside it of the writes that have ended, and they have ended as
they do alone. -/
theorem run_atomic (h : R.Drawn) (schedule : List (Fin n)) : R.Atomic (R.run schedule) where
  untouched := (holds_run h schedule).1.before
  landed _ := (holds_run h schedule).landed h
  cleaned _ _ hd _ := (holds_run h schedule).cleaned hd
  outcome _ _ hd := by
    rintro (hs | hidle)
    · exact (holds_run h schedule).outcome h hs hd
    · exact (rests_run hidle schedule).outcome hd

end Rivalry

def sampleTarget : Path := Path.parse "/out/app.tar"

def sampleScratches : Fin 2 → Scratch
  | 0 => sampleScratch
  | 1 => ⟨"tmp5n0c_w8e.partial", "tmpz4_ho1xu.tar"⟩

def sampleFiles : FileSystem := ⟨[(["app.tab"], .file 0 (.bytes ByteArray.empty) 0)]⟩

def sampleRoom : FileSystem := sampleFiles.insert ["out"] .directory

def sampleRivalry (member : Fin 2 → Path) : Rivalry 2 where
  cwd := Path.parse "/"
  base := sampleFiles
  target := sampleTarget
  requests i := ⟨sampleScratches i, {}, [⟨member i, "app.tab"⟩], sampleTarget, 5 + i.val⟩

def samplePath (i : Fin 2) (tar : Bool) : Path :=
  (scratchDirectory (Path.parse "/") sampleTarget).child ((sampleScratches i).name tar)

theorem sample_furnished : sampleFiles.furnished [] sampleTarget.parent = sampleRoom := by
  have hr : sampleFiles.resolve false [] sampleTarget.parent.text = .ok (.free [] "out") := by
    decide
  have hmade : sampleFiles.makeDirectory [] sampleTarget.parent.text = .ok sampleRoom :=
    (Leads.of_free hr).makeDirectory rfl
  have hbare : sampleFiles.furnished [] sampleTarget.parent.parent = sampleFiles :=
    furnished_of_bare (by decide)
  rw [furnished_eq (by decide), hbare, hmade]

theorem sample_leads (i : Fin 2) (tar : Bool) :
    sampleRoom.Leads [] (samplePath i tar) (samplePath i tar).parts := by
  have hresolve : ∀ i tar, sampleRoom.resolve false [] (samplePath i tar).text =
      .ok (.free ["out"] ((sampleScratches i).name tar)) ∧
        (samplePath i tar).parts = ["out"] ++ [(sampleScratches i).name tar] := by
    decide
  obtain ⟨hr, hparts⟩ := hresolve i tar
  rw [hparts]
  exact .of_free hr

theorem sample_target : sampleRoom.Leads [] sampleTarget ["out", "app.tar"] := by
  have hr : sampleRoom.resolve false [] sampleTarget.text = .ok (.free ["out"] "app.tar") := by
    decide
  exact .of_free hr

section

variable (member : Fin 2 → Path)

theorem sample_provided : (sampleRivalry member).provided = sampleRoom := sample_furnished

theorem sample_place : (sampleRivalry member).place = ["out", "app.tar"] := by
  refine Rivalry.place_eq ?_
  rw [sample_provided]
  exact sample_target

theorem sample_room : (sampleRivalry member).room = sampleRoom := by
  rw [Rivalry.room, sample_provided, sample_place]
  rfl

theorem sample_temporary {i : Fin 2} {p : Path} (hp : (sampleRivalry member).Temporary i p) :
    ∃ tar, p = samplePath i tar := by
  rcases hp with rfl | rfl
  · exact ⟨false, rfl⟩
  · exact ⟨true, rfl⟩

theorem sample_direct (p : Path) : (sampleRivalry member).Direct p := by
  intro l hl
  rw [sample_room, ← sample_provided member]
  exact hl

theorem sample_drawn : (sampleRivalry member).Drawn where
  same _ := rfl
  keyed := (by decide : sampleFiles.Keyed)
  component := (by decide : ∀ i tar, IsComponent ((sampleScratches i).name tar))
  nameNe := (by decide : ∀ i tar, (sampleScratches i).name tar ≠ "..")
  unused i tar l hl := by
    have hname : ∀ i tar, (sampleScratches i).name tar ≠ "app.tab" := by decide
    change sampleFiles.lookup l = none
    rw [lookup, if_neg, sampleFiles, entryAt, if_neg, entryAt]
    · rintro rfl
      exact hname i tar (Option.some.inj hl).symm
    · rintro rfl
      cases hl
  aside := (by decide : ∀ i tar, (sampleScratches i).name tar ∉ sampleTarget.parts)
  once := (by decide : ∀ i j tar tar', (sampleScratches i).name tar = (sampleScratches j).name tar' →
    i = j ∧ tar = tar')
  direct := sample_direct member _
  directBeside _ p _ := sample_direct member p

theorem sample_owns {i : Fin 2} {p : Path} (hp : (sampleRivalry member).Temporary i p) :
    (sampleRivalry member).Owns i p ∧ (sampleRivalry member).spot p = p.parts := by
  obtain ⟨tar, rfl⟩ := sample_temporary member hp
  have hspot : (sampleRivalry member).spot (samplePath i tar) = (samplePath i tar).parts := by
    refine Rivalry.spot_eq ?_
    rw [sample_provided]
    exact sample_leads i tar
  refine ⟨⟨hp, ?_⟩, hspot⟩
  rw [hspot, sample_room]
  exact sample_leads i tar

end

theorem sample_steady (i : Fin 2) :
    (sampleRivalry fun _ => Path.parse "/app.tab").Steady i := by
  have hthere : sampleRoom.isDirectory [] sampleTarget.parent.text = .ok true := by decide
  have hr : (sampleFiles.erase ["out", "app.tar"]).resolve false [] (Path.parse "/app.tab").text =
      .ok (.found ["app.tab"]) := by
    decide
  have hl : (sampleFiles.erase ["out", "app.tar"]).lstat [] (Path.parse "/app.tab").text =
      .ok (["app.tab"], .file 0 (.bytes ByteArray.empty) 0) := lstat_eq_ok.mpr ⟨hr, rfl⟩
  have hbare : (sampleRivalry fun _ => Path.parse "/app.tab").bare =
      sampleFiles.erase ["out", "app.tar"] := by
    rw [Rivalry.bare, sample_place]
    rfl
  refine .of_apart (sample_drawn _) ?_ (fun p hp => (sample_owns _ hp).1) fun m hm => ?_
  · rw [sample_provided]
    exact hthere
  · obtain rfl := List.mem_singleton.mp hm
    unfold Rivalry.Apart
    rw [hbare, sample_place]
    exact ⟨_, _, _, _, _, _, hl, stat_of_lstat hl nofun, fun j _ => Rivalry.not_names_of_none rfl⟩

theorem run_atomic_of_sample :
    let R := sampleRivalry fun _ => Path.parse "/app.tab"
    let c := R.run (List.replicate 20 [0, 1]).flatten
    (∀ i, R.Steady i) ∧ (∀ i, (c.scripts i).result?.map Except.toOption = some (some ())) ∧
      c.landed = some 1 ∧ R.Drawn ∧ R.Atomic c :=
  ⟨sample_steady, by decide +kernel, by decide +kernel, sample_drawn _,
    (sampleRivalry fun _ => Path.parse "/app.tab").run_atomic (sample_drawn _)
      (List.replicate 20 [0, 1]).flatten⟩

/-- A write ends otherwise than alone when the one returns and the other comes to an error. -/
theorem exists_swayed {n : Nat} {R : Rivalry n} {schedule : List (Fin n)} {i : Fin n}
    {x y : Option Unit}
    (hrace : ((R.run schedule).scripts i).result?.map Except.toOption = some x)
    (hsolo : (R.solo i).result.toOption = y) (hne : x ≠ y) :
    ∃ schedule r, (R.run schedule).scripts i = .done r ∧ r ≠ (R.solo i).result := by
  obtain ⟨r, hr, rfl⟩ := Option.map_eq_some_iff.mp hrace
  refine ⟨schedule, r, Script.result?_eq_some.mp hr, ?_⟩
  intro he
  rw [← he] at hsolo
  exact hne hsolo

def climbingMember : Fin 2 → Path
  | 0 => Path.parse "/app.tab"
  | 1 => Path.parse "/out/../app.tab"

/-- A write can return among others and come to an error alone, although its member is a file that
no write touches. -/
theorem climbing_not_atomic :
    let R := sampleRivalry climbingMember
    R.Drawn ∧
      (∀ i, ∀ m ∈ (R.requests i).members,
        R.room.resolve true [] m.path.text = .ok (.found ["app.tab"])) ∧
      ["app.tab"] ≠ R.place ∧ (∀ i p, R.Temporary i p → ["app.tab"] ≠ R.spot p) ∧
      ∃ schedule r, (R.run schedule).scripts 1 = .done r ∧ r ≠ (R.solo 1).result := by
  have hapart : ∀ i tar, ["app.tab"] ≠ (samplePath i tar).parts := by decide
  have hrace : (((sampleRivalry climbingMember).run (List.replicate 20 0 ++
      List.replicate 20 1)).scripts 1).result?.map Except.toOption = some (some ()) := by
    decide +kernel
  have hsolo : ((sampleRivalry climbingMember).solo 1).result.toOption = none := by
    decide
  refine ⟨sample_drawn _, by decide, by decide, fun i p hp => ?_, ?_⟩
  · rw [(sample_owns _ hp).2]
    obtain ⟨tar, rfl⟩ := sample_temporary _ hp
    exact hapart i tar
  · exact exists_swayed hrace hsolo nofun

def linkedRivalry : Rivalry 2 where
  cwd := Path.parse "/"
  base := ⟨[(["app.tab"], .file 0 (.bytes ByteArray.empty) 0), (["lib"], .directory),
    (["app.tar"], .link "lib" 0)]⟩
  target := Path.parse "/app.tar/../app.tar"
  requests i := ⟨sampleScratches i, {}, [⟨Path.parse "/app.tab", "app.tab"⟩],
    Path.parse "/app.tar/../app.tar", 5 + i.val⟩

/-- Where an archive takes the place of a link by way of which the target is looked up, the next
write comes to an error. -/
theorem linked_not_atomic :
    let R := linkedRivalry
    R.base.Leads [] R.target R.place ∧
      ∃ schedule r, (R.run schedule).scripts 1 = .done r ∧ r ≠ (R.solo 1).result := by
  have hrace : ((linkedRivalry.run (List.replicate 20 0 ++
      List.replicate 20 1)).scripts 1).result?.map Except.toOption = some none := by
    decide +kernel
  have hsolo : (linkedRivalry.solo 1).result.toOption = some () := by decide +kernel
  have hresolve : linkedRivalry.base.resolve false [] linkedRivalry.target.text =
      .ok (linkedRivalry.base.spotAt [] "app.tar") := by
    decide
  refine ⟨⟨[], "app.tar", rfl, ⟨by decide, by decide, by decide⟩, by decide, hresolve⟩, ?_⟩
  exact exists_swayed hrace hsolo nofun

end Bundle

end TabPackager
