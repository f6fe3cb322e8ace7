import TabPackager.Proofs.FurnishedDirectories
import TabPackager.Proofs.LinkCounts
import TabPackager.Proofs.TaskOperations

/-!
# The places of rival writes

Several bundles are written to one target at the same time, on common files. Where the target is
and where the files beside it are is settled by the directories that can be made for the target.
The names beside it are drawn so that none is used twice, and neither the target nor a file beside
it is looked up by way of the target's own entry: then these places are apart from each other and
from all that is there.
-/

namespace TabPackager

namespace FileSystem

variable {fs : FileSystem} {cwd l : Location} {p : Path}

def Spot.location : Spot → Location
  | .found l => l
  | .free d c => d ++ [c]

theorem location_spotAt (fs : FileSystem) (d : Location) (c : String) :
    (fs.spotAt d c).location = d ++ [c] := by
  unfold spotAt
  split <;> rfl

def placeOf? (fs : FileSystem) (cwd : Location) (p : Path) : Option Location :=
  match p.parts.getLast?, fs.resolve false cwd p.text with
  | some c, .ok spot => if c = ".." then none else some spot.location
  | _, _ => none

theorem placeOf?_eq_some : fs.placeOf? cwd p = some l ↔ fs.Leads cwd p l := by
  unfold placeOf?
  constructor
  · intro h
    cases hlast : p.parts.getLast? with
    | none =>
      rw [hlast] at h
      cases h
    | some c =>
      cases hr : fs.resolve false cwd p.text with
      | error why =>
        rw [hlast, hr] at h
        cases h
      | ok spot =>
        rw [hlast, hr] at h
        dsimp only at h
        split at h
        · cases h
        · next hup =>
          have hc := p.isComponent c (List.mem_of_getLast? hlast)
          obtain ⟨d, rfl, -⟩ :=
            resolve_kept (WaysKept.refl fs) false ⟨hc.1, hc.2.1, hup⟩ hlast hr
          obtain rfl := Option.some.inj h
          exact ⟨d, c, location_spotAt fs d c, ⟨hc.1, hc.2.1, hup⟩, hlast, hr⟩
  · rintro ⟨d, c, rfl, hc, hlast, hr⟩
    rw [hlast, hr]
    dsimp only
    rw [if_neg hc.2.2, location_spotAt]

/-- A location longer than all that have an entry, and the place of no path. -/
def beyond (fs : FileSystem) : Location :=
  List.replicate (fs.entries.foldr (fun e n => max e.1.length n) 0 + 1) ""

theorem beyond_ne_nil (fs : FileSystem) : fs.beyond ≠ [] := nofun

theorem getLast?_beyond (fs : FileSystem) : fs.beyond.getLast? = some "" := by
  rw [beyond, List.getLast?_replicate, if_neg (Nat.succ_ne_zero _)]

theorem lookup_beyond (fs : FileSystem) : fs.lookup fs.beyond = none := by
  have hlong : ∀ (es : List (Location × Entry)) (l : Location),
      es.foldr (fun e n => max e.1.length n) 0 < l.length → entryAt l es = none := by
    intro es l hl
    induction es with
    | nil => rfl
    | cons x es ih =>
      rw [List.foldr_cons] at hl
      rw [entryAt, if_neg]
      · exact ih (by omega)
      · rintro rfl
        omega
  rw [lookup, if_neg fs.beyond_ne_nil]
  refine hlong fs.entries fs.beyond ?_
  rw [beyond, List.length_replicate]
  exact Nat.lt_succ_self _

end FileSystem

namespace Bundle

open FileSystem

def Scratch.name (s : Scratch) (tar : Bool) : String := if tar then s.tar else s.archive

def Request.beside (cwd : Path) (q : Request) (tar : Bool) : Path :=
  (scratchDirectory cwd q.target).child (q.scratch.name tar)

/-- Writes of bundles to one target on common files. -/
structure Rivalry (n : Nat) where
  cwd : Path
  base : FileSystem
  target : Path
  requests : Fin n → Request

namespace Rivalry

variable {n : Nat} (R : Rivalry n)

def provided : FileSystem := R.base.furnished R.cwd.parts R.target.parent

/-- The place of the target, or a location to which nothing leads if the target has none. -/
def place : Location := (R.provided.placeOf? R.cwd.parts R.target).getD R.provided.beyond

def spot (p : Path) : Location := (R.provided.placeOf? R.cwd.parts p).getD []

/-- The files in which all directories are there that can be made, and the target is free. -/
def room : FileSystem := R.provided.erase R.place

def bare : FileSystem := R.base.erase R.place

/-- The path is of one of the two files that the write makes beside the target. -/
def Temporary (i : Fin n) (p : Path) : Prop :=
  p = (R.requests i).assembly R.cwd ∨ p = (R.requests i).tarFile R.cwd

def Owns (i : Fin n) (p : Path) : Prop :=
  R.Temporary i p ∧ R.room.Leads R.cwd.parts p (R.spot p)

/-- The path is not looked up by way of the entry at the target: it leads where it does without. -/
def Direct (p : Path) : Prop :=
  ∀ l, R.provided.Leads R.cwd.parts p l → R.room.Leads R.cwd.parts p l

/-- The names beside the target are drawn: each is one component, none is that of an entry or of a
component of the target, and none is drawn twice. Neither the target nor a file beside it is looked
up by way of the target's own entry. -/
structure Drawn : Prop where
  same : ∀ i, (R.requests i).target = R.target
  keyed : R.base.Keyed
  component : ∀ i tar, IsComponent ((R.requests i).scratch.name tar)
  nameNe : ∀ i tar, (R.requests i).scratch.name tar ≠ ".."
  unused : ∀ i tar l, l.getLast? = some ((R.requests i).scratch.name tar) → R.base.lookup l = none
  aside : ∀ i tar, (R.requests i).scratch.name tar ∉ R.target.parts
  once : ∀ i j tar tar', (R.requests i).scratch.name tar = (R.requests j).scratch.name tar' →
    i = j ∧ tar = tar'
  direct : R.Direct R.target
  directBeside : ∀ i p, R.Temporary i p → R.Direct p

variable {R} {i j : Fin n} {p p' : Path} {l : Location}

theorem place_eq (hl : R.provided.Leads R.cwd.parts R.target l) : R.place = l := by
  rw [place, placeOf?_eq_some.mpr hl, Option.getD_some]

theorem spot_eq (hl : R.provided.Leads R.cwd.parts p l) : R.spot p = l := by
  rw [spot, placeOf?_eq_some.mpr hl, Option.getD_some]

theorem place_cases (R : Rivalry n) : R.provided.Leads R.cwd.parts R.target R.place ∨
    (∀ l, ¬R.provided.Leads R.cwd.parts R.target l) ∧ R.place = R.provided.beyond := by
  cases hp : R.provided.placeOf? R.cwd.parts R.target with
  | some l =>
    have hl := placeOf?_eq_some.mp hp
    rw [place_eq hl]
    exact .inl hl
  | none =>
    refine .inr ⟨fun l hl => ?_, by rw [place, hp, Option.getD_none]⟩
    cases hp.symm.trans (placeOf?_eq_some.mpr hl)

theorem place_ne_nil (R : Rivalry n) : R.place ≠ [] := by
  rcases R.place_cases with hl | ⟨-, hp⟩
  · exact hl.ne_nil
  · rw [hp]
    exact beyond_ne_nil _

theorem room_place (R : Rivalry n) : R.room.lookup R.place = none :=
  lookup_erase_self R.place_ne_nil

theorem room_of_ne (hl : l ≠ R.place) : R.room.lookup l = R.provided.lookup l :=
  lookup_erase_of_ne R.place_ne_nil hl

theorem bare_place (R : Rivalry n) : R.bare.lookup R.place = none :=
  lookup_erase_self R.place_ne_nil

theorem bare_of_ne (hl : l ≠ R.place) : R.bare.lookup l = R.base.lookup l :=
  lookup_erase_of_ne R.place_ne_nil hl

theorem room_kept (R : Rivalry n) : EntriesKept R.room R.provided :=
  entriesKept_erase R.place_ne_nil

theorem provided_ne_none (hp : p.Above R.target.parent)
    (hl : R.provided.Leads R.cwd.parts p l) : R.provided.lookup l ≠ none :=
  lookup_furnished_ne_none hp hl

theorem directory_ne_place (hl : R.room.lookup l = some .directory) : l ≠ R.place := by
  rintro rfl
  cases hl.symm.trans R.room_place

theorem room_of_beyond (hp : R.place = R.provided.beyond) (l : Location) :
    R.room.lookup l = R.provided.lookup l :=
  lookup_erase_of_none R.place_ne_nil (hp ▸ lookup_beyond _) l

namespace Drawn

variable (h : R.Drawn)

include h

theorem leads_target (hl : R.provided.Leads R.cwd.parts R.target l) :
    R.room.Leads R.cwd.parts R.target R.place := by
  rw [place_eq hl]
  exact h.direct l hl

theorem isDirectory_room
    (ht : R.provided.isDirectory R.cwd.parts R.target.parent.text = .ok true) :
    R.room.isDirectory R.cwd.parts R.target.parent.text = .ok true := by
  rcases R.place_cases with hl | ⟨-, hp⟩
  · exact (h.leads_target hl).isDirectory_parent
  · exact WaysKept.isDirectory (fun l _ he _ => (room_of_beyond hp l).trans he) ht

/-- The directories of the target are not at its place, and are not looked up by way of it. -/
theorem leads_above (hp : p.Above R.target.parent) (hl : R.provided.Leads R.cwd.parts p l) :
    l ≠ R.place ∧ R.room.Leads R.cwd.parts p l := by
  rcases R.place_cases with hplace | ⟨-, hplace⟩
  · exact leads_erase_furnished R.place_ne_nil (h.leads_target hplace).isDirectory_parent hp hl
  · refine ⟨?_, hl.congr (room_of_beyond hplace)⟩
    rintro rfl
    have hthere := provided_ne_none hp hl
    rw [hplace] at hthere
    exact hthere (lookup_beyond _)

theorem provided_place : R.provided.lookup R.place = R.base.lookup R.place := by
  rcases furnished_made R.base R.cwd.parts (.self R.target.parent) R.place with
    hl | ⟨-, -, p, hp, hl⟩
  · exact hl
  · exact absurd rfl (h.leads_above hp hl).1

theorem made : DirectoriesMade R.cwd.parts R.target.parent R.bare R.room := by
  intro l
  by_cases hl : l = R.place
  · rw [hl, room_place, bare_place]
    exact .inl rfl
  · rw [room_of_ne hl, bare_of_ne hl]
    rcases furnished_made R.base R.cwd.parts (.self R.target.parent) l with hb | ⟨hn, hd, p, hp, hp'⟩
    · exact .inl hb
    · exact .inr ⟨hn, hd, p, hp, (h.leads_above hp hp').2⟩

theorem roomy (ht : R.provided.isDirectory R.cwd.parts R.target.parent.text = .ok true) :
    Roomy R.cwd.parts R.target.parent R.bare R.room := by
  have hthere := h.isDirectory_room ht
  have hsame := lookup_furnished_erase R.place_ne_nil hthere (.self R.target.parent)
  constructor
  case kept => exact fun l e he => (hsame l).symm.trans he
  case there => exact WaysKept.isDirectory (fun l e he _ => (hsame l).trans he) hthere

theorem getLast?_temporary (hp : R.Temporary i p) :
    ∃ tar, p = (R.requests i).beside R.cwd tar ∧
      p.parts.getLast? = some ((R.requests i).scratch.name tar) := by
  have hbeside : ∃ tar, p = (R.requests i).beside R.cwd tar := by
    rcases hp with rfl | rfl
    · exact ⟨false, rfl⟩
    · exact ⟨true, rfl⟩
  obtain ⟨tar, rfl⟩ := hbeside
  exact ⟨tar, rfl, Path.getLast?_child _ (h.component i tar)⟩

theorem named (hp : R.Temporary i p) : ∃ c, IsOrdinary c ∧ p.parts.getLast? = some c := by
  obtain ⟨tar, -, hlast⟩ := h.getLast?_temporary hp
  have hc := h.component i tar
  exact ⟨_, ⟨hc.1, hc.2.1, h.nameNe i tar⟩, hlast⟩

theorem beside (hp : R.Temporary i p) (hl : R.provided.Leads R.cwd.parts p l) :
    R.room.Leads R.cwd.parts p (R.spot p) := by
  rw [spot_eq hl]
  exact h.directBeside i p hp l hl

theorem getLast?_spot (ho : R.Owns i p) : ∃ tar, p = (R.requests i).beside R.cwd tar ∧
    (R.spot p).getLast? = some ((R.requests i).scratch.name tar) := by
  obtain ⟨tar, hp, hlast⟩ := h.getLast?_temporary ho.1
  exact ⟨tar, hp, ho.2.getLast?_eq.trans hlast⟩

theorem free (ho : R.Owns i p) : R.room.lookup (R.spot p) = none ∧ R.spot p ≠ R.place := by
  obtain ⟨tar, -, hlast⟩ := h.getLast?_spot ho
  have hplace : R.spot p ≠ R.place := by
    intro he
    rw [he] at hlast
    rcases R.place_cases with hl | ⟨-, hp⟩
    · exact h.aside i tar (List.mem_of_getLast? (hl.getLast?_eq.symm.trans hlast))
    · rw [hp, getLast?_beyond] at hlast
      exact (h.component i tar).1 (Option.some.inj hlast).symm
  refine ⟨?_, hplace⟩
  rcases h.made (R.spot p) with hl | ⟨-, -, q, hq, hl⟩
  · rw [hl, bare_of_ne hplace]
    exact h.unused i tar _ hlast
  · have hmem := List.mem_of_getLast? (hl.getLast?_eq.symm.trans hlast)
    exact absurd (List.dropLast_subset _ (hq.parts_subset hmem)) (h.aside i tar)

theorem apart (ho : R.Owns i p) (ho' : R.Owns j p') (he : R.spot p = R.spot p') :
    i = j ∧ p = p' := by
  obtain ⟨tar, rfl, hlast⟩ := h.getLast?_spot ho
  obtain ⟨tar', rfl, hlast'⟩ := h.getLast?_spot ho'
  rw [he] at hlast
  obtain ⟨rfl, rfl⟩ := h.once i j tar tar' (Option.some.inj (hlast.symm.trans hlast'))
  exact ⟨rfl, rfl⟩

theorem two (i : Fin n) : (R.requests i).assembly R.cwd ≠ (R.requests i).tarFile R.cwd := by
  intro he
  have hlast := Path.getLast?_child (scratchDirectory R.cwd (R.requests i).target)
    (h.component i false)
  change ((R.requests i).assembly R.cwd).parts.getLast? = _ at hlast
  rw [he] at hlast
  have hlast' := Path.getLast?_child (scratchDirectory R.cwd (R.requests i).target)
    (h.component i true)
  cases (h.once i i true false (Option.some.inj (hlast'.symm.trans hlast))).2

end Drawn

end Rivalry

end Bundle

end TabPackager
