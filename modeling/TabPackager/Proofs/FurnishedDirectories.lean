import TabPackager.Proofs.LackingDirectories

/-!
# Directories made from the top down

The directories of a path are made one after the other, the highest first, as far as they can be.
Whatever has come of this at some moment, if the path leads to a directory then all is there that
is to be made for it; and where it can be made in the end, the first missing directory can be made
now, and nothing is found behind it.
-/

namespace TabPackager

namespace FileSystem

/-- The files with the directories of a path as far as they can be made, the highest first, given
how many components of the path there are to go. -/
def furnish (fs : FileSystem) (cwd : Location) : Nat → Path → FileSystem
  | 0, _ => fs
  | n + 1, p =>
    let above := furnish fs cwd n p.parent
    match above.makeDirectory cwd p.text with
    | .ok made => made
    | .error _ => above

def furnished (fs : FileSystem) (cwd : Location) (p : Path) : FileSystem :=
  fs.furnish cwd p.parts.length p

variable {fs fs' : FileSystem} {cwd : Location} {p q top : Path} {l : Location}

theorem furnished_of_bare (h : p.parts = []) : fs.furnished cwd p = fs := by
  rw [furnished, h]
  rfl

theorem furnished_eq (h : p.parts ≠ []) :
    fs.furnished cwd p = match (fs.furnished cwd p.parent).makeDirectory cwd p.text with
      | .ok made => made
      | .error _ => fs.furnished cwd p.parent := by
  obtain ⟨n, hn⟩ := Nat.exists_eq_succ_of_ne_zero (List.length_pos_iff.mpr h).ne'
  have hparent : p.parent.parts.length = n := by
    change p.parts.dropLast.length = n
    rw [List.length_dropLast, hn, Nat.succ_sub_one]
  rw [furnished, furnished, hparent, hn]
  rfl

/-- After the directories above it, the one at the path is made where nothing stands; if it cannot
be made then the path leads to no place, or to one that is taken. -/
theorem furnished_cases (fs : FileSystem) (cwd : Location) (p : Path) :
    (∃ l, (fs.furnished cwd p.parent).Leads cwd p l ∧
        (fs.furnished cwd p.parent).lookup l = none ∧
        fs.furnished cwd p = (fs.furnished cwd p.parent).insert l .directory) ∨
      (∀ l, (fs.furnished cwd p.parent).Leads cwd p l →
        (fs.furnished cwd p.parent).lookup l ≠ none) ∧
        fs.furnished cwd p = fs.furnished cwd p.parent := by
  by_cases h : p.parts = []
  · refine .inr ⟨fun l hl => ?_, by rw [Path.parent_eq_self h]⟩
    obtain ⟨c, -, hlast⟩ := hl.exists_last
    rw [h] at hlast
    cases hlast
  · rw [furnished_eq h]
    cases hmake : (fs.furnished cwd p.parent).makeDirectory cwd p.text with
    | ok made =>
      obtain ⟨l, hl, hn, rfl⟩ := Leads.of_create (e := .directory) hmake
      exact .inl ⟨l, hl, hn, rfl⟩
    | error why =>
      refine .inr ⟨fun l hl hn => ?_, rfl⟩
      cases hmake.symm.trans (hl.makeDirectory hn)

theorem furnished_parent_kept (fs : FileSystem) (cwd : Location) (p : Path) :
    EntriesKept (fs.furnished cwd p.parent) (fs.furnished cwd p) := by
  rcases furnished_cases fs cwd p with ⟨l, hl, hn, he⟩ | ⟨-, he⟩
  · rw [he]
    exact entriesKept_insert hl.ne_nil hn _
  · rw [he]
    exact .refl _

theorem furnished_above_kept (fs : FileSystem) (cwd : Location) (hp : p.Above q) :
    EntriesKept (fs.furnished cwd p) (fs.furnished cwd q) := by
  induction hp with
  | self q => exact .refl _
  | parent _ ih => exact (furnished_parent_kept fs cwd _).trans ih

theorem furnished_made (fs : FileSystem) (cwd : Location) (hp : p.Above top) :
    DirectoriesMade cwd top fs (fs.furnished cwd p) := by
  induction p using Path.parent_induction with
  | bare p hnil =>
    rw [furnished_of_bare hnil]
    exact .refl _ _ _
  | child p _ ih =>
    rcases furnished_cases fs cwd p with ⟨l, hl, hn, he⟩ | ⟨-, he⟩
    · rw [he]
      exact (ih hp.parent).insert hp hl hn
    · rw [he]
      exact ih hp.parent

theorem lookup_furnished_ne_none (hq : q.Above p) (hl : (fs.furnished cwd p).Leads cwd q l) :
    (fs.furnished cwd p).lookup l ≠ none := by
  obtain ⟨c, hc, hlast⟩ := hl.exists_last
  induction p using Path.parent_induction with
  | bare p hnil =>
    have hmem := hq.parts_subset (List.mem_of_getLast? hlast)
    rw [hnil] at hmem
    cases hmem
  | child p _ ih =>
    rcases furnished_cases fs cwd p with ⟨l', hl', hn, he⟩ | ⟨hself, he⟩
    · rw [he] at hl ⊢
      have hkept := entriesKept_insert hl'.ne_nil hn .directory
      rcases hq.eq_or_parent with rfl | hq
      · obtain rfl := hl.unique (hl'.kept hkept.waysKept)
        rw [lookup_insert hl'.ne_nil, if_pos rfl]
        exact nofun
      · obtain ⟨l₀, hl₀⟩ :=
          exists_leads_of_isDirectory hc hlast (isDirectory_above hq hl'.isDirectory_parent)
        obtain rfl := hl.unique (hl₀.kept hkept.waysKept)
        obtain ⟨e, hthere⟩ := Option.ne_none_iff_exists'.mp (ih hq hl₀)
        rw [hkept _ e hthere]
        exact nofun
    · rw [he] at hl ⊢
      rcases hq.eq_or_parent with rfl | hq
      · exact hself l hl
      · exact ih hq hl

theorem furnished_kept_of_isDirectory (hk : EntriesKept fs fs')
    (hd : ∀ l, (fs.furnished cwd p).lookup l = some .directory →
      fs'.lookup l = none ∨ fs'.lookup l = some .directory)
    (ht : fs'.isDirectory cwd p.text = .ok true) : EntriesKept (fs.furnished cwd p) fs' := by
  induction p using Path.parent_induction with
  | bare p hnil =>
    rw [furnished_of_bare hnil]
    exact hk
  | child p _ ih =>
    have habove := ih (fun l hl => hd l (furnished_parent_kept fs cwd p l _ hl))
      (isDirectory_parent ht)
    rcases furnished_cases fs cwd p with ⟨l, hl, -, he⟩ | ⟨-, he⟩
    · intro l' e hthere
      rw [he, lookup_insert hl.ne_nil] at hthere
      split at hthere
      · next heq =>
        subst heq
        obtain rfl := Option.some.inj hthere
        refine (hd l' ?_).resolve_left ((hl.kept habove.waysKept).lookup_ne_none ht)
        rw [he, lookup_insert hl.ne_nil, if_pos rfl]
      · exact habove l' e hthere
    · rw [he]
      exact habove

theorem isDirectory_furnished (hp : p.Above q)
    (h : (fs.furnished cwd q).isDirectory cwd q.text = .ok true) :
    (fs.furnished cwd p).isDirectory cwd p.text = .ok true := by
  induction hp with
  | self q => exact h
  | @parent p _ _ ih =>
    rcases furnished_cases fs cwd p with ⟨l, hl, -, -⟩ | ⟨-, he⟩
    · exact hl.isDirectory_parent
    · rw [← he]
      exact isDirectory_parent (ih h)

/-- All directories of the path that can be made stand in the room, and with them the path leads to
one. -/
structure Roomy (cwd : Location) (top : Path) (bare room : FileSystem) : Prop where
  kept : EntriesKept (bare.furnished cwd top) room
  there : (bare.furnished cwd top).isDirectory cwd top.text = .ok true

/-- The file system has all old entries, and nothing but directories where there is room for
them. -/
structure Partly (bare room fs : FileSystem) : Prop where
  kept : EntriesKept bare fs
  made : ∀ l, room.lookup l = some .directory → fs.lookup l = none ∨ fs.lookup l = some .directory

section

variable {bare room : FileSystem}

theorem Roomy.kept_above (h : Roomy cwd top bare room) (hp : p.Above top) :
    EntriesKept (bare.furnished cwd p) room :=
  (furnished_above_kept bare cwd hp).trans h.kept

theorem Roomy.isDirectory_of_bare (h : Roomy cwd top bare room) (hf : Partly bare room fs)
    (hp : p.Above top) (hnil : p.parts = []) : fs.isDirectory cwd p.parent.text = .ok true := by
  have hthere := isDirectory_furnished hp h.there
  rw [furnished_of_bare hnil] at hthere
  rw [Path.parent_eq_self hnil]
  exact hf.kept.waysKept.isDirectory hthere

theorem Roomy.furnished_kept (h : Roomy cwd top bare room) (hf : Partly bare room fs)
    (hp : p.Above top) (ht : fs.isDirectory cwd p.text = .ok true) :
    EntriesKept (bare.furnished cwd p) fs :=
  furnished_kept_of_isDirectory hf.kept (fun l hl => hf.made l (h.kept_above hp l _ hl)) ht

theorem Roomy.lacking (h : Roomy cwd top bare room) (hf : Partly bare room fs)
    (hp : p.Above top) : Lacking (bare.furnished cwd p) fs := by
  intro l e he
  rcases furnished_made bare cwd hp l with hl | ⟨-, hd, -⟩
  · exact .inl (hf.kept l e (hl.symm.trans he))
  · obtain rfl := Option.some.inj (he.symm.trans hd)
    exact (hf.made l (h.kept_above hp l _ he)).symm.imp_right fun hn => ⟨rfl, hn⟩

/-- How the making of a directory goes where there is room for it: it is made, or it is there, or
one above it is missing. -/
theorem Roomy.makeDirectory (h : Roomy cwd top bare room) (hf : Partly bare room fs)
    (hp : p.Above top) :
    (fs.makeDirectory cwd p.text = .error .occupied ∧ fs.isDirectory cwd p.text = .ok true) ∨
      (∃ l, fs.makeDirectory cwd p.text = .ok (fs.insert l .directory)) ∨
      (fs.makeDirectory cwd p.text = .error .noEntry ∧
        fs.isDirectory cwd p.parent.text ≠ .ok true) := by
  have hthere := isDirectory_furnished hp h.there
  by_cases hparent : fs.isDirectory cwd p.parent.text = .ok true
  · have hkept := h.furnished_kept hf hp.parent hparent
    rcases furnished_cases bare cwd p with ⟨l, hl, -, he⟩ | ⟨-, he⟩
    · have hmade : (bare.furnished cwd p).lookup l = some .directory := by
        rw [he, lookup_insert hl.ne_nil, if_pos rfl]
      have hl := hl.kept hkept.waysKept
      rcases h.lacking hf hp l _ hmade with hd | ⟨-, hn⟩
      · have hd := isDirectory_eq_true.mpr ⟨l, hl.stat hd nofun⟩
        exact .inl ⟨makeDirectory_of_isDirectory hd, hd⟩
      · exact .inr (.inl ⟨l, hl.makeDirectory hn⟩)
    · rw [he] at hthere
      have hd := hkept.waysKept.isDirectory hthere
      exact .inl ⟨makeDirectory_of_isDirectory hd, hd⟩
  · refine .inr (.inr ⟨?_, hparent⟩)
    cases hlast : p.parts.getLast? with
    | none =>
      exact absurd (h.isDirectory_of_bare hf hp (List.getLast?_eq_none_iff.mp hlast)) hparent
    | some c =>
      obtain ⟨l, hs⟩ := isDirectory_eq_true.mp hthere
      obtain ⟨l', hr⟩ := resolve_false_of_true (stat_eq_ok.mp hs).1
      rcases ((h.lacking hf hp).resolve hr).imp_right Blocked.self with hr | hr | ⟨d, c, hr⟩
      · exact absurd (isDirectory_parent_of_resolve hlast hr) hparent
      · rw [FileSystem.makeDirectory, hr]
        rfl
      · exact absurd (isDirectory_parent_of_resolve hlast hr) hparent

theorem Roomy.isDirectory_mono (h : Roomy cwd top bare room) (hf : Partly bare room fs)
    (hf' : Partly bare room fs')
    (hd : ∀ l, room.lookup l = some .directory → fs.lookup l = some .directory →
      fs'.lookup l = some .directory)
    (hp : p.Above top) (ht : fs.isDirectory cwd p.text = .ok true) :
    fs'.isDirectory cwd p.text = .ok true := by
  have hkept := h.furnished_kept hf hp ht
  have hkept' : EntriesKept (bare.furnished cwd p) fs' := by
    intro l e he
    rcases furnished_made bare cwd hp l with hl | ⟨-, hdir, -⟩
    · exact hf'.kept l e (hl.symm.trans he)
    · obtain rfl := Option.some.inj (he.symm.trans hdir)
      exact hd l (h.kept_above hp l _ he) (hkept l _ he)
  exact hkept'.waysKept.isDirectory (isDirectory_furnished hp h.there)

end

section

variable {base : FileSystem} {place : Location} (hne : place ≠ [])
  (ht : ((base.furnished cwd top).erase place).isDirectory cwd top.text = .ok true)

include hne ht

/-- If a path leads to a directory without the entry, none of its directories stands there. -/
theorem leads_erase_furnished (hp : p.Above top) (hl : (base.furnished cwd top).Leads cwd p l) :
    l ≠ place ∧ ((base.furnished cwd top).erase place).Leads cwd p l := by
  have hd := isDirectory_above hp ht
  obtain ⟨c, hc, hlast⟩ := hl.exists_last
  obtain ⟨l', hl'⟩ := exists_leads_of_isDirectory hc hlast hd
  obtain rfl := hl.unique (hl'.kept (entriesKept_erase hne).waysKept)
  refine ⟨?_, hl'⟩
  rintro rfl
  exact hl'.lookup_ne_none hd (lookup_erase_self hne)

theorem isDirectory_erase_furnished (hp : p.Above top) :
    ((base.furnished cwd p).erase place).isDirectory cwd p.text = .ok true := by
  have hlacking : Lacking ((base.furnished cwd top).erase place)
      ((base.furnished cwd p).erase place) := by
    intro l e he
    rw [lookup_erase hne] at he ⊢
    split at he
    · cases he
    · next hl =>
      rw [if_neg hl]
      cases hthere : (base.furnished cwd p).lookup l with
      | some e' =>
        cases (furnished_above_kept base cwd hp l _ hthere).symm.trans he
        exact .inl rfl
      | none =>
        refine .inr ⟨?_, rfl⟩
        rcases furnished_made base cwd (.self top) l with hb | ⟨-, hd, -⟩
        · have hbase := (furnished_made base cwd hp).entriesKept l e (hb.symm.trans he)
          cases hthere.symm.trans hbase
        · exact Option.some.inj (he.symm.trans hd)
  have hthere := isDirectory_furnished hp ((entriesKept_erase hne).waysKept.isDirectory ht)
  refine hlacking.isDirectory (entriesKept_erase hne) ?_ (isDirectory_above hp ht) hthere
  intro l hroom hl
  rw [lookup_erase hne] at hroom ⊢
  split at hroom
  · cases hroom
  · next h =>
    rw [if_neg h]
    exact hl

theorem lookup_furnished_erase (hp : p.Above top) (l : Location) :
    ((base.erase place).furnished cwd p).lookup l =
      ((base.furnished cwd p).erase place).lookup l := by
  induction p using Path.parent_induction generalizing l with
  | bare p hnil => rw [furnished_of_bare hnil, furnished_of_bare hnil]
  | child p _ ih =>
    have ih := ih hp.parent
    have hkept : EntriesKept ((base.furnished cwd p.parent).erase place)
        (base.furnished cwd p.parent) := entriesKept_erase hne
    have hcases := furnished_cases (base.erase place) cwd p
    rcases furnished_cases base cwd p with ⟨l₁, hl₁, hn₁, he₁⟩ | ⟨hself, he₁⟩
    · have htop := hl₁.kept (furnished_above_kept base cwd hp.parent).waysKept
      have hplace := (leads_erase_furnished hne ht hp htop).1
      have hbare := hl₁.of_kept hkept (isDirectory_erase_furnished hne ht hp.parent)
      have hl := hbare.congr ih
      rcases hcases with ⟨l₂, hl₂, -, he₂⟩ | ⟨hself₂, -⟩
      · obtain rfl := hl.unique hl₂
        rw [he₁, he₂, lookup_insert hl.ne_nil, lookup_erase hne, lookup_insert hl.ne_nil, ih,
          lookup_erase hne]
        by_cases hll : l = l₁
        · rw [if_pos hll, if_pos hll, if_neg (hll ▸ hplace)]
        · rw [if_neg hll, if_neg hll]
      · refine absurd ?_ (hself₂ l₁ hl)
        rw [ih, lookup_erase_of_ne hne hplace, hn₁]
    · rw [he₁]
      rcases hcases with ⟨l₂, hl₂, hn₂, -⟩ | ⟨-, he₂⟩
      · have hl := (hl₂.congr fun l => (ih l).symm).kept hkept.waysKept
        have htop := hl.kept (furnished_above_kept base cwd hp.parent).waysKept
        have hplace := (leads_erase_furnished hne ht hp htop).1
        rw [ih, lookup_erase_of_ne hne hplace] at hn₂
        exact absurd hn₂ (hself l₂ hl)
      · rw [he₂]
        exact ih l

end

end FileSystem

end TabPackager
