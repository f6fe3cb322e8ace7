import TabPackager.Proofs.KeptEntries
import TabPackager.Proofs.NewDirectories
import TabPackager.Proofs.NulFree

/-!
# A path and the path above it

Where a path leads is decided by where the path above it leads: one step further from there, if
that is a directory. So what holds of the paths of directories can be shown from the top down.
-/

namespace TabPackager

namespace FileSystem

variable {fs : FileSystem} {cwd here : Location} {c : String}

theorem descend_concat (fs : FileSystem) (follow : Bool) (here : Location) (cs : List String)
    (c : String) :
    fs.descend follow here (cs ++ [c]) = match fs.descend true here cs with
      | .arrived (.found d) => fs.descend follow d [c]
      | .arrived (.free _ _) => .refused .noEntry
      | .refused why => .refused why
      | .detour h t r => .detour h t (r ++ [c]) := by
  induction cs generalizing here with
  | nil => rfl
  | cons x xs ih =>
    rw [List.cons_append]
    by_cases hh : fs.lookup here = some .directory
    · by_cases hx : x = "" ∨ x = "."
      · rw [descend_empty fs follow hh hx, descend_empty fs true hh hx]
        exact ih here
      · by_cases hu : x = ".."
        · rw [hu, descend_up fs follow hh, descend_up fs true hh]
          exact ih here.dropLast
        · have ho : IsOrdinary x := ⟨fun h => hx (.inl h), fun h => hx (.inr h), hu⟩
          rw [descend_ordinary fs follow hh ho, descend_ordinary fs true hh ho]
          split
          · rfl
          · cases hl : fs.lookup (here ++ [x]) with
            | none => cases xs <;> rfl
            | some e =>
              cases e with
              | directory => exact ih _
              | file i k m => exact ih _
              | link t m => cases xs <;> rfl
    · rw [descend, descend]
      split
      · next h => exact absurd h hh
      · rfl
      · rfl

/-- One step from a location, a link there not followed. -/
def stepInto (fs : FileSystem) (d : Location) (c : String) : Except Refusal Spot :=
  fs.walk false 0 d [c]

theorem descend_single (fs : FileSystem) (d : Location) (c : String) :
    (∃ s, fs.descend false d [c] = .arrived s) ∨ ∃ why, fs.descend false d [c] = .refused why := by
  by_cases hh : fs.lookup d = some .directory
  · by_cases hx : c = "" ∨ c = "."
    · rw [descend_empty fs false hh hx]
      exact .inl ⟨_, rfl⟩
    · by_cases hu : c = ".."
      · rw [hu, descend_up fs false hh]
        exact .inl ⟨_, rfl⟩
      · have ho : IsOrdinary c := ⟨fun h => hx (.inl h), fun h => hx (.inr h), hu⟩
        rw [descend_last fs false hh ho (by simp)]
        split
        · exact .inr ⟨_, rfl⟩
        · exact .inl ⟨_, rfl⟩
  · exact .inr (descend_elsewhere fs false hh (List.cons_ne_nil c []))

theorem walk_single (fs : FileSystem) (hops : Nat) (d : Location) (c : String) :
    fs.walk false hops d [c] = fs.stepInto d c := by
  rw [stepInto, walk, walk]
  rcases descend_single fs d c with ⟨s, h⟩ | ⟨why, h⟩
  · rw [h]
  · rw [h]

def onward (fs : FileSystem) (c : String) : Except Refusal Spot → Except Refusal Spot
  | .ok (.found d) => fs.stepInto d c
  | .ok (.free _ _) => .error .noEntry
  | .error why => .error why

theorem walk_concat (fs : FileSystem) (hops : Nat) (here : Location) (cs : List String)
    (c : String) :
    fs.walk false hops here (cs ++ [c]) = fs.onward c (fs.walk true hops here cs) := by
  induction hops using Nat.strongRecOn generalizing here cs with
  | ind hops ih =>
    rw [walk, walk, descend_concat]
    cases fs.descend true here cs with
    | arrived spot =>
      cases spot with
      | free d e => rfl
      | found d =>
        rw [onward, stepInto, walk]
        dsimp only
        rcases descend_single fs d c with ⟨s, h⟩ | ⟨why, h⟩
        · rw [h]
        · rw [h]
    | refused why => rfl
    | detour h t r =>
      cases hops with
      | zero => rfl
      | succ n =>
        dsimp only
        rw [← List.append_assoc]
        exact ih n n.lt_succ_self _ _

theorem onward_walk_stay (fs : FileSystem) (hops : Nat) (here : Location) {x : String}
    (hx : x = "" ∨ x = ".") (c : String) :
    fs.onward c (fs.walk true hops here [x]) = fs.stepInto here c := by
  rw [walk, stepInto, walk]
  by_cases hh : fs.lookup here = some .directory
  · rw [descend_empty fs true hh hx]
    change fs.stepInto here c = _
    rw [stepInto, walk]
  · have hboth : fs.descend true here [x] = fs.descend false here [c] := by
      cases hl : fs.lookup here with
      | none => simp only [descend, hl]
      | some e =>
        cases e with
        | directory => exact absurd hl hh
        | file i k m => simp only [descend, hl]
        | link t m => simp only [descend, hl]
    obtain ⟨why, hwhy⟩ := descend_elsewhere fs false hh (List.cons_ne_nil c [])
    rw [hboth, hwhy]
    rfl

end FileSystem

namespace Path

variable {p : Path} {xs : List String} {c : String}

theorem text_child (h : p.parts = xs ++ [c]) (hx : xs ≠ []) :
    p.text = p.parent.text ++ "/" ++ c := by
  have hparent : p.parent.parts = xs := by
    change p.parts.dropLast = xs
    rw [h, List.dropLast_concat]
  have hne : ¬(p.anchor = .relative ∧ p.parts = []) := by
    simp [h]
  have hne' : ¬(p.parent.anchor = .relative ∧ p.parent.parts = []) := by
    simp [hparent, hx]
  rw [text, text, if_neg hne, if_neg hne', h, hparent,
    String.intercalate_append_of_ne_nil hx (List.cons_ne_nil c []), String.intercalate_singleton]
  simp only [String.append_assoc]
  rfl

theorem text_single (h : p.parts = [c]) :
    p.text = p.anchor.text ++ c ∧
      p.parent.text = if p.anchor = .relative then "." else p.anchor.text := by
  have hparent : p.parent.parts = [] := by
    change p.parts.dropLast = []
    rw [h, List.dropLast_singleton]
  have hanchor : p.parent.anchor = p.anchor := rfl
  refine ⟨?_, ?_⟩
  · rw [text, if_neg (by simp [h]), h, String.intercalate_singleton]
  · rw [text, hparent, hanchor]
    cases p.anchor <;> decide

theorem parent_eq_self (h : p.parts = []) : p.parent = p := by
  refine Path.ext rfl ?_
  change p.parts.dropLast = p.parts
  rw [h]
  rfl

/-- What holds of every path without components, and of a path if it holds of the one above it,
holds of every path. -/
@[elab_as_elim]
theorem parent_induction {motive : Path → Prop} (bare : ∀ p, p.parts = [] → motive p)
    (child : ∀ p, p.parts ≠ [] → motive p.parent → motive p) (p : Path) : motive p := by
  induction hn : p.parts.length generalizing p with
  | zero => exact bare p (List.length_eq_zero_iff.mp hn)
  | succ n ih =>
    refine child p (List.ne_nil_of_length_eq_add_one hn) (ih p.parent ?_)
    change p.parts.dropLast.length = n
    rw [List.length_dropLast, hn, Nat.add_sub_cancel]

theorem Above.parts_subset {q : Path} (h : p.Above q) : p.parts ⊆ q.parts := by
  induction h with
  | self q => exact List.Subset.refl _
  | parent _ ih => exact List.Subset.trans (List.dropLast_subset _) ih

theorem Above.eq_or_parent {q : Path} (h : p.Above q) : p = q ∨ p.Above q.parent := by
  induction h with
  | self q => exact .inl rfl
  | parent _ ih =>
    rcases ih with rfl | h
    · exact .inr (.self _)
    · exact .inr h.parent

end Path

namespace FileSystem

variable {fs : FileSystem} {cwd : Location} {p : Path} {c : String}

/-- The text is one that the system looks up. -/
structure Askable (s : String) : Prop where
  nulFree : NulFree s
  nonempty : s ≠ ""
  short : s.utf8ByteSize < textLimit

theorem Askable.resolve {s : String} (h : Askable s) (follow : Bool) :
    fs.resolve follow cwd s = fs.walk follow linkLimit (startOf cwd s) (pieces s) := by
  rw [FileSystem.resolve, if_neg h.nulFree, if_neg h.nonempty, if_neg (Nat.not_le.mpr h.short)]

theorem askable_of_resolve {follow : Bool} {s : String} {spot : Spot}
    (h : fs.resolve follow cwd s = .ok spot) : Askable s := by
  unfold FileSystem.resolve at h
  split at h
  · cases h
  · next hnul =>
    split at h
    · cases h
    · next hempty =>
      split at h
      · cases h
      · next hlong => exact ⟨hnul, hempty, Nat.not_le.mp hlong⟩

/-- The place of a path is one step on from where the path above it leads. -/
theorem resolve_child (fs : FileSystem) (cwd : Location) (hp : p.parts.getLast? = some c)
    (h : Askable p.text) :
    fs.resolve false cwd p.text = fs.onward c (fs.resolve true cwd p.parent.text) := by
  obtain ⟨xs, hxs⟩ := List.getLast?_eq_some_iff.mp hp
  have hslash : '/' ∉ c.toList := (p.isComponent c (by rw [hxs]; simp)).2.2
  have hnul : NulFree p.parent.text :=
    Path.nulFree_text_iff.mpr (Path.nulFree_text_iff.mp h.nulFree).parent
  by_cases hx : xs = []
  · subst hx
    obtain ⟨htext, hparent⟩ := Path.text_single hxs
    rw [h.resolve, htext, hparent]
    have hroot (s : String) (hs : s.toList.head? = some '/') : startOf cwd s = [] := if_pos hs
    cases p.anchor with
    | relative =>
      have hask : Askable "." := ⟨by decide, by decide, by decide⟩
      have hhere : startOf cwd "." = cwd := if_neg (by decide)
      have hstart : startOf cwd c = cwd := if_neg fun hc => hslash (List.mem_of_head? hc)
      have hpieces : pieces "." = ["."] := by decide
      rw [if_pos rfl, hask.resolve, hpieces, hhere, onward_walk_stay fs _ _ (.inr rfl),
        Anchor.text, String.empty_append, hstart, pieces_of_not_mem hslash, walk_single]
    | root =>
      have hask : Askable "/" := ⟨by decide, by decide, by decide⟩
      have hpieces : pieces ("/" ++ c) = [""] ++ [c] := pieces_append "" hslash
      have hparent : pieces "/" = ["", ""] := by decide
      rw [if_neg (by decide)]
      dsimp only [Anchor.text]
      rw [hask.resolve, hparent, hpieces, walk_concat, hroot _ (by simp), hroot _ (by decide)]
      rfl
    | doubleRoot =>
      have hask : Askable "//" := ⟨by decide, by decide, by decide⟩
      have hpieces : pieces ("//" ++ c) = ["", ""] ++ [c] := pieces_append "/" hslash
      have hparent : pieces "//" = ["", "", ""] := by decide
      rw [if_neg (by decide)]
      dsimp only [Anchor.text]
      rw [hask.resolve, hparent, hpieces, walk_concat, hroot _ (by simp), hroot _ (by decide)]
      rfl
  · have htext := Path.text_child hxs hx
    have hshort : p.parent.text.utf8ByteSize < textLimit := by
      have := h.short
      rw [htext, String.utf8ByteSize_append, String.utf8ByteSize_append] at this
      omega
    have hask : Askable p.parent.text := ⟨hnul, Path.text_ne_empty _, hshort⟩
    have hstart : startOf cwd p.text = startOf cwd p.parent.text := by
      have hhead : p.text.toList.head? = p.parent.text.toList.head? := by
        obtain ⟨x, ys, hs⟩ := List.exists_cons_of_ne_nil
          fun hs => hask.nonempty (String.toList_eq_nil_iff.mp hs)
        rw [htext, String.toList_append, String.toList_append, hs]
        rfl
      rw [startOf, startOf, hhead]
    rw [h.resolve, hask.resolve, hstart, htext, pieces_append _ hslash, walk_concat]

theorem stepInto_eq_ok {d : Location} {s : Spot} (h : fs.stepInto d c = .ok s) :
    fs.lookup d = some .directory := by
  by_contra hd
  obtain ⟨why, hwhy⟩ := descend_elsewhere fs false hd (List.cons_ne_nil c [])
  rw [stepInto, walk, hwhy] at h
  cases h

theorem stepInto_ordinary {d : Location} (hd : fs.lookup d = some .directory)
    (hc : IsOrdinary c) :
    fs.stepInto d c =
      if nameLimit < c.utf8ByteSize then .error .nameTooLong else .ok (fs.spotAt d c) := by
  rw [stepInto, walk, descend_last fs false hd hc (by simp)]
  by_cases hlong : nameLimit < c.utf8ByteSize
  · rw [if_pos hlong, if_pos hlong]
  · rw [if_neg hlong, if_neg hlong]

theorem onward_eq_ok {r : Except Refusal Spot} {s : Spot} (h : fs.onward c r = .ok s) :
    ∃ d, r = .ok (.found d) ∧ fs.lookup d = some .directory ∧ fs.stepInto d c = .ok s := by
  cases r with
  | error why => cases h
  | ok spot =>
    cases spot with
    | free d e => cases h
    | found d => exact ⟨d, rfl, stepInto_eq_ok h, h⟩

theorem isDirectory_eq_true {s : String} :
    fs.isDirectory cwd s = .ok true ↔ ∃ l, fs.stat cwd s = .ok (l, .directory) := by
  unfold isDirectory probe
  constructor
  · intro h
    cases hs : fs.stat cwd s with
    | error why =>
      rw [hs] at h
      dsimp only at h
      split at h <;> cases h
    | ok x =>
      obtain ⟨l, e⟩ := x
      rw [hs] at h
      cases e with
      | directory => exact ⟨l, rfl⟩
      | file i k m => cases h
      | link t m => cases h
  · rintro ⟨l, hs⟩
    rw [hs]

theorem resolve_false_of_true {s : String} {l : Location}
    (h : fs.resolve true cwd s = .ok (.found l)) :
    ∃ l', fs.resolve false cwd s = .ok (.found l') := by
  rcases resolve_follow fs cwd s with hs | ⟨l', t, m, hs, -⟩
  · exact ⟨l, hs.symm.trans h⟩
  · exact ⟨l', hs⟩

theorem isDirectory_parent_of_resolve {spot : Spot} (hp : p.parts.getLast? = some c)
    (h : fs.resolve false cwd p.text = .ok spot) :
    fs.isDirectory cwd p.parent.text = .ok true := by
  rw [resolve_child fs cwd hp (askable_of_resolve h)] at h
  obtain ⟨d, hd, hdir, -⟩ := onward_eq_ok h
  exact isDirectory_eq_true.mpr ⟨d, stat_eq_ok.mpr ⟨hd, hdir⟩⟩

theorem isDirectory_parent (h : fs.isDirectory cwd p.text = .ok true) :
    fs.isDirectory cwd p.parent.text = .ok true := by
  cases hp : p.parts.getLast? with
  | none =>
    rw [Path.parent_eq_self (List.getLast?_eq_none_iff.mp hp)]
    exact h
  | some c =>
    obtain ⟨l, hs⟩ := isDirectory_eq_true.mp h
    obtain ⟨l', hr⟩ := resolve_false_of_true (stat_eq_ok.mp hs).1
    exact isDirectory_parent_of_resolve hp hr

theorem isDirectory_above {q : Path} (hp : p.Above q)
    (h : fs.isDirectory cwd q.text = .ok true) : fs.isDirectory cwd p.text = .ok true := by
  induction hp with
  | self q => exact h
  | parent _ ih => exact isDirectory_parent (ih h)

theorem WaysKept.isDirectory {b : FileSystem} {s : String} (hk : WaysKept fs b)
    (h : fs.isDirectory cwd s = .ok true) : b.isDirectory cwd s = .ok true := by
  obtain ⟨l, hs⟩ := isDirectory_eq_true.mp h
  exact isDirectory_eq_true.mpr ⟨l, hk.stat_directory hs⟩

theorem Leads.stat {l : Location} {e : Entry} (h : fs.Leads cwd p l) (hl : fs.lookup l = some e)
    (he : ∀ t m, e ≠ .link t m) : fs.stat cwd p.text = .ok (l, e) := by
  refine stat_of_lstat ?_ he
  rw [h.lstat, hl]

theorem Leads.isDirectory_parent {l : Location} (h : fs.Leads cwd p l) :
    fs.isDirectory cwd p.parent.text = .ok true := by
  obtain ⟨d, c, -, -, hp, hr⟩ := h
  exact isDirectory_parent_of_resolve hp hr

theorem Leads.lookup_ne_none {l : Location} (h : fs.Leads cwd p l)
    (hd : fs.isDirectory cwd p.text = .ok true) : fs.lookup l ≠ none := by
  intro hn
  obtain ⟨d, c, rfl, hr⟩ := h.resolve_follow (by simp [hn])
  rw [spotAt, hn] at hr
  obtain ⟨l, hs⟩ := isDirectory_eq_true.mp hd
  cases hr.symm.trans (stat_eq_ok.mp hs).1

theorem exists_leads_of_isDirectory (hc : IsOrdinary c) (hp : p.parts.getLast? = some c)
    (h : fs.isDirectory cwd p.text = .ok true) : ∃ l, fs.Leads cwd p l := by
  obtain ⟨l, hs⟩ := isDirectory_eq_true.mp h
  obtain ⟨l', hr⟩ := resolve_false_of_true (stat_eq_ok.mp hs).1
  exact Leads.of_resolve hc hp hr

/-- In a directory a path leads where it does with more entries there. -/
theorem Leads.of_kept {b : FileSystem} {l : Location} (h : b.Leads cwd p l) (hk : EntriesKept fs b)
    (hd : fs.isDirectory cwd p.parent.text = .ok true) : fs.Leads cwd p l := by
  obtain ⟨d, c, rfl, hc, hlast, hr⟩ := h
  have hask := askable_of_resolve hr
  obtain ⟨d', hs⟩ := isDirectory_eq_true.mp hd
  obtain ⟨hparent, hdir⟩ := stat_eq_ok.mp hs
  obtain ⟨hparent', hdir'⟩ := stat_eq_ok.mp (hk.stat hs)
  rw [resolve_child b cwd hlast hask, hparent', onward, stepInto_ordinary hdir' hc] at hr
  split at hr
  · cases hr
  · next hshort =>
    obtain rfl := spotAt_injective (Except.ok.inj hr)
    refine ⟨d', c, rfl, hc, hlast, ?_⟩
    rw [resolve_child fs cwd hlast hask, hparent, onward, stepInto_ordinary hdir hc, if_neg hshort]

theorem makeDirectory_of_isDirectory (h : fs.isDirectory cwd p.text = .ok true) :
    fs.makeDirectory cwd p.text = .error .occupied := by
  obtain ⟨l, hs⟩ := isDirectory_eq_true.mp h
  obtain ⟨l', hr⟩ := resolve_false_of_true (stat_eq_ok.mp hs).1
  rw [makeDirectory, hr]
  rfl

theorem Leads.makeDirectory {l : Location} (h : fs.Leads cwd p l) (hl : fs.lookup l = none) :
    fs.makeDirectory cwd p.text = .ok (fs.insert l .directory) := by
  have hcreate := h.create .directory
  rw [hl] at hcreate
  exact hcreate

theorem Leads.isDirectory_insert {l : Location} (h : fs.Leads cwd p l) (hl : fs.lookup l = none) :
    (fs.insert l .directory).isDirectory cwd p.text = .ok true := by
  have hself : (fs.insert l .directory).lookup l = some .directory := by
    rw [lookup_insert h.ne_nil, if_pos rfl]
  have hkept := (entriesKept_insert h.ne_nil hl .directory).waysKept
  exact isDirectory_eq_true.mpr ⟨l, (h.kept hkept).stat hself nofun⟩

end FileSystem

end TabPackager
