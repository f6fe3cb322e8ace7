import TabPackager.Proofs.SteadyWrites

/-!
# Races of writes

Several writes to one target perform their operations in the order of a schedule. Each operation
keeps the files as they can be, and every write to its terms, and so does the whole run.
-/

namespace TabPackager

def Script.lands {α : Type} (target : Path) (cwd : Location) (now : Int) (fs : FileSystem) :
    Script α → Bool
  | .op o _ => o.lands target && (refusal? (o.perform cwd now fs).1).isNone
  | _ => false

def Script.result? {α : Type} : Script α → Option α
  | .done a => some a
  | _ => none

theorem Script.result?_eq_some {α : Type} {s : Script α} {a : α} :
    s.result? = some a ↔ s = .done a := by
  cases s with
  | done b => simp [result?]
  | op o next => simp [result?]
  | say m next => simp [result?]

namespace Bundle

open FileSystem TabPackager.Task

/-- Writes under way: the files, what each write has still to do, and the write that put its archive
at the target last. -/
structure Race (n : Nat) where
  files : FileSystem
  scripts : Fin n → Script (Except Fault Unit)
  landed : Option (Fin n)

def Race.stage {n : Nat} (c : Race n) : Stage n := ⟨c.files, c.landed⟩

namespace Rivalry

variable {n : Nat} (R : Rivalry n)

def start : Race n := ⟨R.base, fun i => ((R.requests i).task R.cwd).run, none⟩

def step (c : Race n) (i : Fin n) : Race n :=
  let next := (c.scripts i).step R.cwd.parts (R.requests i).now c.files
  ⟨next.2, Function.update c.scripts i next.1,
    if (c.scripts i).lands R.target R.cwd.parts (R.requests i).now c.files then some i
    else c.landed⟩

/-- The writes perform their operations in the order of a schedule. -/
def run (schedule : List (Fin n)) : Race n := schedule.foldl R.step R.start

def solo (i : Fin n) : Attempt := (R.requests i).attempt R.cwd R.base

variable {R} {c : Race n} {i j : Fin n} {p : Path}

theorem start_scripts (R : Rivalry n) (i : Fin n) :
    R.start.scripts i = ((R.requests i).task R.cwd).run := rfl

def Holds (R : Rivalry n) (c : Race n) : Prop :=
  R.Fits c.stage ∧ ∀ i, (c.scripts i).Works (R.terms i) (R.Ends i) c.stage

theorem advance_eq (R : Rivalry n) (c : Race n) (i : Fin n) :
    (c.scripts i).advance (R.terms i) c.stage =
      ((R.step c i).scripts i, (R.step c i).stage) := by
  unfold step Race.stage
  dsimp only
  rw [Function.update_self]
  generalize c.scripts i = s
  cases s with
  | done a => rfl
  | say m next => rfl
  | op o next =>
    simp only [Script.advance, Script.step, Script.lands, terms, act, Bool.and_eq_true,
      Option.isNone_iff_eq_none]

theorem Holds.step (h : R.Holds c) (i : Fin n) : R.Holds (R.step c i) := by
  obtain ⟨hf, hw⟩ := h
  have hadvance := (hw i).advance (closed_terms i) hf
  rw [advance_eq] at hadvance
  obtain ⟨hi, hf', hkeep⟩ := hadvance
  refine ⟨hf', fun j => ?_⟩
  by_cases hj : j = i
  · rw [hj]
    exact hi
  · have hsame : (R.step c i).scripts j = c.scripts j := Function.update_of_ne hj _ _
    rw [hsame]
    have hrely : R.Relies j c.stage (R.step c i).stage := by
      rcases hkeep with hstage | hkeep
      · dsimp only at hstage
        rw [hstage]
        exact Relies.refl j _
      · exact hkeep j hj
    exact (hw j).later (closed_terms j) hrely

section

variable (h : R.Drawn)

include h

theorem fits_start : R.Fits ⟨R.base, none⟩ where
  variant := {
    elsewhere := fun _ _ _ => .inl rfl
    beside := fun _ _ ho => .inl (h.base_spot ho)
    target := .inl rfl
    names := fun _ _ _ _ _ => rfl }
  keyed := h.keyed
  sole _ _ ho _ hn := absurd hn (not_names_of_none (h.base_spot ho))
  before _ := rfl
  landed := nofun

theorem agrees_start (i : Fin n) : R.Agrees i R.base fun _ => none :=
  fun _ ho => held_of_none (h.base_spot ho)

theorem holds_run (schedule : List (Fin n)) : R.Holds (R.run schedule) := by
  have hstart : R.Holds R.start := by
    refine ⟨fits_start h, fun i => ?_⟩
    rw [start_scripts]
    exact (works_task h (agrees_start h i)).script
  unfold run
  generalize R.start = c at hstart
  induction schedule generalizing c with
  | nil => exact hstart
  | cons i schedule ih => exact ih _ (hstart.step i)

theorem solo_ends (i : Fin n) : ∃ w, R.Ends i (R.solo i).result w := by
  have hworks := works_task (w := ⟨R.base, none⟩) h (agrees_start h i)
  unfold solo Request.attempt
  generalize (R.requests i).task R.cwd = task at hworks ⊢
  obtain ⟨w, -, hends⟩ := hworks.script.run (closed_terms i) Stage.files (fun _ _ => ⟨rfl, rfl⟩)
    (fits_start h)
  exact ⟨w, hends⟩

omit h in
theorem Holds.ends (hc : R.Holds c) {r : Except Fault Unit} (hd : c.scripts i = .done r) :
    R.Ends i r c.stage := by
  have hi := hc.2 i
  rw [hd] at hi
  exact hi.ended (closed_terms i) hc.1

theorem Holds.landed (hc : R.Holds c) (hj : c.landed = some j) :
    c.files.Leads R.cwd.parts R.target R.place ∧ ∃ format id, formatOf R.target = .ok format ∧
      Filled R.room R.cwd.parts (R.requests j).members format R.place id c.files := by
  obtain ⟨-, hs, -, hlead, hfilled⟩ := hc.1.landed j hj
  exact ⟨hlead.kept (hc.1.variant.kept_room h hs).waysKept, hfilled⟩

omit h in
theorem Holds.cleaned (hc : R.Holds c) {r : Except Fault Unit} (hd : c.scripts i = .done r)
    (ho : R.Owns i p) : c.files.lookup (R.spot p) = none := by
  have hheld := (hc.ends hd).1 p ho
  rcases hc.1.variant.beside i p ho with hn | ⟨id, k, m, hl⟩
  · exact hn
  · cases (held_of_file hl).symm.trans hheld

/-- With its rivals as without them a steady write can end in one way only. -/
theorem Holds.outcome (hc : R.Holds c) (hs : R.Steady i) {r : Except Fault Unit}
    (hd : c.scripts i = .done r) : r = (R.solo i).result := by
  obtain ⟨w, hsolo⟩ := solo_ends h i
  obtain ⟨v, hcomes⟩ := (hc.ends hd).2.resolve_right fun hno => hno (h.roomy hs.there)
  obtain ⟨v', hcomes'⟩ := hsolo.2.resolve_right fun hno => hno (h.roomy hs.there)
  exact sketch_unique h hs hcomes hcomes'

end

end Rivalry

end Bundle

end TabPackager
