import TabPackager.Proofs.Resolution

/-!
# Operations at places

The place to which a path leads, whether something stands there or not, and the operations on
files in terms of it: each looks at the places of its paths and changes nothing but the entries
there, or the content of one file.
-/

namespace TabPackager

namespace FileSystem

theorem pieces_of_not_mem {c : String} (hc : '/' ∉ c.toList) : pieces c = [c] := by
  rw [pieces, List.splitOn_eq_singleton hc, List.map_singleton, String.ofList_toList]

theorem pieces_append (s : String) {c : String} (hc : '/' ∉ c.toList) :
    pieces (s ++ "/" ++ c) = pieces s ++ [c] := by
  have ht : (s ++ "/" ++ c).toList = s.toList ++ '/' :: c.toList := by
    simp
  rw [pieces, ht, List.splitOn_append_cons_self, List.splitOn_eq_singleton hc, List.map_append,
    List.map_singleton, String.ofList_toList, pieces]

end FileSystem

namespace Path

theorem pieces_text {p : Path} {c : String} (hc : p.parts.getLast? = some c) :
    ∃ ds, FileSystem.pieces p.text = ds ++ [c] := by
  obtain ⟨xs, hxs⟩ := List.getLast?_eq_some_iff.mp hc
  have hslash : '/' ∉ c.toList := (p.isComponent c (by rw [hxs]; simp)).2.2
  have htext : p.text = p.anchor.text ++ "/".intercalate p.parts := by
    rw [text, if_neg]
    rw [hxs]
    simp
  by_cases hx : xs = []
  · rw [htext, hxs, hx, List.nil_append, String.intercalate_singleton]
    cases p.anchor with
    | relative =>
      refine ⟨[], ?_⟩
      rw [Anchor.text, String.empty_append]
      exact FileSystem.pieces_of_not_mem hslash
    | root => exact ⟨_, FileSystem.pieces_append "" hslash⟩
    | doubleRoot => exact ⟨_, FileSystem.pieces_append "/" hslash⟩
  · rw [htext, hxs, String.intercalate_append_of_ne_nil hx (List.cons_ne_nil c []),
      String.intercalate_singleton, ← String.append_assoc, ← String.append_assoc]
    exact ⟨_, FileSystem.pieces_append _ hslash⟩

theorem pieces_text_bare {p : Path} (h : p.parts = []) :
    (FileSystem.pieces p.text).getLast? = some (if p.anchor = .relative then "." else "") := by
  rw [text, h]
  cases p.anchor with
  | relative => decide
  | root => decide
  | doubleRoot => decide

end Path

namespace FileSystem

variable {fs a b : FileSystem} {cwd : Location} {p : Path} {loc : Location}

/-- The path leads to the location, where something stands or could be made. -/
def Leads (fs : FileSystem) (cwd : Location) (p : Path) (loc : Location) : Prop :=
  ∃ d c, loc = d ++ [c] ∧ IsOrdinary c ∧ p.parts.getLast? = some c ∧
    fs.resolve false cwd p.text = .ok (fs.spotAt d c)

theorem Leads.ne_nil (h : fs.Leads cwd p loc) : loc ≠ [] := by
  obtain ⟨d, c, rfl, _⟩ := h
  simp

theorem Leads.getLast?_eq (h : fs.Leads cwd p loc) : loc.getLast? = p.parts.getLast? := by
  obtain ⟨d, c, rfl, _, hc, _⟩ := h
  rw [hc]
  simp

theorem Leads.exists_last (h : fs.Leads cwd p loc) :
    ∃ c, IsOrdinary c ∧ p.parts.getLast? = some c := by
  obtain ⟨_, c, _, hc, hp, _⟩ := h
  exact ⟨c, hc, hp⟩

theorem resolve_eq_ok {follow : Bool} {s : String} {spot : Spot}
    (h : fs.resolve follow cwd s = .ok spot) :
    fs.walk follow linkLimit (startOf cwd s) (pieces s) = .ok spot ∧
      ∀ (b : FileSystem) (follow' : Bool), b.resolve follow' cwd s =
        b.walk follow' linkLimit (startOf cwd s) (pieces s) := by
  unfold resolve at h ⊢
  split at h
  · cases h
  · split at h
    · cases h
    · split at h
      · cases h
      · next h0 h1 h2 => exact ⟨h, fun b f => by rw [if_neg h0, if_neg h1, if_neg h2]⟩

theorem resolve_kept (hk : WaysKept a b) (follow : Bool) {c : String} (hc : IsOrdinary c)
    (hp : p.parts.getLast? = some c) {s : Spot} (hs : a.resolve false cwd p.text = .ok s) :
    ∃ d, s = a.spotAt d c ∧
      ((follow = true → ∀ t m, b.lookup (d ++ [c]) ≠ some (.link t m)) →
        b.resolve follow cwd p.text = .ok (b.spotAt d c)) := by
  obtain ⟨hw, hr⟩ := resolve_eq_ok hs
  obtain ⟨ds, hds⟩ := Path.pieces_text hp
  rw [hds] at hw
  obtain ⟨d, _, hd, hb⟩ := walk_kept hk follow hc _ _ ds hw
  exact ⟨d, hd, fun hf => by rw [hr, hds, hb hf]⟩

theorem Leads.of_resolve {c : String} (hc : IsOrdinary c) (hp : p.parts.getLast? = some c)
    {s : Spot} (hs : fs.resolve false cwd p.text = .ok s) : ∃ loc, fs.Leads cwd p loc := by
  obtain ⟨d, rfl, _⟩ := resolve_kept (WaysKept.refl fs) false hc hp hs
  exact ⟨d ++ [c], d, c, rfl, hc, hp, hs⟩

theorem spotAt_injective {d e : Location} {c : String} (h : fs.spotAt d c = fs.spotAt e c) :
    d = e := by
  unfold spotAt at h
  split at h <;> split at h <;> simp_all

theorem Leads.kept (h : a.Leads cwd p loc) (hk : WaysKept a b) : b.Leads cwd p loc := by
  obtain ⟨d, c, rfl, hc, hp, hs⟩ := h
  obtain ⟨e, he, hb⟩ := resolve_kept hk false hc hp hs
  rw [spotAt_injective he]
  exact ⟨e, c, rfl, hc, hp, hb (by simp)⟩

theorem Leads.congr (h : a.Leads cwd p loc) (hab : ∀ l, b.lookup l = a.lookup l) :
    b.Leads cwd p loc := h.kept fun l _ he _ => (hab l).trans he

theorem Leads.unique {loc' : Location} (h : fs.Leads cwd p loc) (h' : fs.Leads cwd p loc') :
    loc = loc' := by
  obtain ⟨d, c, rfl, _, hp, hs⟩ := h
  obtain ⟨e, c', rfl, _, hp', hs'⟩ := h'
  obtain rfl : c = c' := Option.some.inj (hp.symm.trans hp')
  rw [spotAt_injective (Except.ok.inj (hs.symm.trans hs'))]

theorem Leads.resolve (h : fs.Leads cwd p loc) :
    ∃ d c, loc = d ++ [c] ∧ fs.resolve false cwd p.text = .ok (fs.spotAt d c) := by
  obtain ⟨d, c, hl, _, _, hs⟩ := h
  exact ⟨d, c, hl, hs⟩

theorem Leads.resolve_follow (h : fs.Leads cwd p loc)
    (hl : ∀ t m, fs.lookup loc ≠ some (.link t m)) :
    ∃ d c, loc = d ++ [c] ∧ fs.resolve true cwd p.text = .ok (fs.spotAt d c) := by
  obtain ⟨d, c, rfl, hc, hp, hs⟩ := h
  obtain ⟨e, he, hb⟩ := resolve_kept (WaysKept.refl fs) true hc hp hs
  obtain rfl := spotAt_injective he
  exact ⟨d, c, rfl, hb fun _ => hl⟩

/-- A path at whose end nothing stands leads to where it could be made. -/
theorem Leads.of_free {d : Location} {c : String}
    (h : fs.resolve false cwd p.text = .ok (.free d c)) : fs.Leads cwd p (d ++ [c]) := by
  obtain ⟨hw, -⟩ := resolve_eq_ok h
  obtain ⟨hc, hcs⟩ := walk_free hw
  have hp : p.parts.getLast? = some c := by
    cases hl : p.parts.getLast? with
    | none =>
      rw [Path.pieces_text_bare (List.getLast?_eq_none_iff.mp hl), Option.some.injEq] at hcs
      split at hcs
      · exact absurd hcs.symm hc.2.1
      · exact absurd hcs.symm hc.1
    | some e =>
      obtain ⟨ds, hds⟩ := Path.pieces_text hl
      rw [hds] at hcs
      simpa using hcs
  obtain ⟨e, he, -⟩ := resolve_kept (WaysKept.refl fs) false hc hp h
  have hs := h
  rw [he] at hs
  have hde : d = e := by
    unfold spotAt at he
    split at he <;> simp_all
  exact ⟨d, c, rfl, hc, hp, hde ▸ hs⟩

theorem Leads.lstat (h : fs.Leads cwd p loc) :
    fs.lstat cwd p.text = match fs.lookup loc with
      | some e => .ok (loc, e)
      | none => .error .noEntry := by
  obtain ⟨d, c, rfl, hs⟩ := h.resolve
  rw [FileSystem.lstat, hs, spotAt]
  cases hl : fs.lookup (d ++ [c]) with
  | none => rfl
  | some e => simp [hl, bind, Except.bind]

theorem Leads.create (h : fs.Leads cwd p loc) (e : Entry) :
    fs.create cwd p.text e = match fs.lookup loc with
      | some _ => .error .occupied
      | none => .ok (fs.insert loc e) := by
  obtain ⟨d, c, rfl, hs⟩ := h.resolve
  rw [FileSystem.create, hs, spotAt]
  cases fs.lookup (d ++ [c]) <;> rfl

theorem Leads.unlink (h : fs.Leads cwd p loc) :
    fs.unlink cwd p.text = match fs.lookup loc with
      | some .directory => .error .isDirectory
      | some _ => .ok (fs.erase loc)
      | none => .error .noEntry := by
  rw [FileSystem.unlink, h.lstat]
  cases fs.lookup loc with
  | none => rfl
  | some e => cases e <;> rfl

theorem Leads.writeFile (h : fs.Leads cwd p loc) {i : Nat} {k : Content} {m : Int}
    (hl : fs.lookup loc = some (.file i k m)) (content : Content) (now : Int) :
    fs.writeFile cwd p.text content now = .ok (fs.replaceContent i content now) := by
  obtain ⟨d, c, rfl, hs⟩ := h.resolve_follow (by simp [hl])
  rw [FileSystem.writeFile, hs, spotAt, hl]
  simp [hl, bind, Except.bind]

theorem Leads.rename {q : Path} {loc' : Location} (h : fs.Leads cwd p loc)
    (h' : fs.Leads cwd q loc') {i : Nat} {k : Content} {m : Int}
    (hl : fs.lookup loc = some (.file i k m))
    (hi : ∀ k' m', fs.lookup loc' ≠ some (.file i k' m')) :
    fs.rename cwd p.text q.text = match fs.lookup loc' with
      | some .directory => .error .isDirectory
      | _ => .ok ((fs.erase loc).insert loc' (.file i k m)) := by
  obtain ⟨d, c, rfl, hs⟩ := h'.resolve
  rw [FileSystem.rename, h.lstat, hl]
  simp only [bind, Except.bind, hs, spotAt]
  cases hl' : fs.lookup (d ++ [c]) with
  | none => rfl
  | some e =>
    cases e with
    | directory => simp [hl']
    | link t m => simp [hl', Entry.identity?]
    | file j k' m' =>
      have hne : j ≠ i := fun he => hi k' m' (he ▸ hl')
      simp [hl', Entry.identity?, hne]

section

variable {fs' : FileSystem}

theorem Leads.of_create {e : Entry} (h : fs.create cwd p.text e = .ok fs') :
    ∃ loc, fs.Leads cwd p loc ∧ fs.lookup loc = none ∧ fs' = fs.insert loc e := by
  cases hr : fs.resolve false cwd p.text with
  | error why =>
    rw [FileSystem.create, hr] at h
    cases h
  | ok s =>
    cases s with
    | found loc =>
      rw [FileSystem.create, hr] at h
      cases h
    | free d c =>
      have hl := Leads.of_free hr
      rw [hl.create] at h
      cases hn : fs.lookup (d ++ [c]) with
      | some e =>
        rw [hn] at h
        cases h
      | none =>
        rw [hn] at h
        exact ⟨_, hl, hn, (Except.ok.inj h).symm⟩

theorem Leads.of_unlink {c : String} (hc : IsOrdinary c) (hp : p.parts.getLast? = some c)
    (h : fs.unlink cwd p.text = .ok fs') : ∃ loc, fs.Leads cwd p loc ∧ fs.lookup loc ≠ none := by
  cases hr : fs.resolve false cwd p.text with
  | error why =>
    rw [FileSystem.unlink, FileSystem.lstat, hr] at h
    cases h
  | ok s =>
    obtain ⟨loc, hl⟩ := Leads.of_resolve hc hp hr
    refine ⟨loc, hl, fun hn => ?_⟩
    rw [hl.unlink, hn] at h
    cases h

theorem Leads.of_rename {q : Path} {c : String} (hc : IsOrdinary c)
    (hq : q.parts.getLast? = some c) (h : fs.rename cwd p.text q.text = .ok fs') :
    ∃ loc, fs.Leads cwd q loc := by
  cases hr : fs.resolve false cwd q.text with
  | error why =>
    rw [FileSystem.rename, hr] at h
    cases hs : fs.lstat cwd p.text <;> rw [hs] at h <;> cases h
  | ok s => exact Leads.of_resolve hc hq hr

end

theorem entryAt_map (f : Entry → Entry) (loc : Location) (es : List (Location × Entry)) :
    entryAt loc (es.map fun e => (e.1, f e.2)) = (entryAt loc es).map f := by
  induction es with
  | nil => rfl
  | cons x es ih =>
    obtain ⟨l, e⟩ := x
    rw [List.map_cons, entryAt, entryAt, ih]
    split <;> rfl

theorem lookup_replaceContent (fs : FileSystem) (i : Nat) (k : Content) (m : Int)
    (loc : Location) :
    (fs.replaceContent i k m).lookup loc = (fs.lookup loc).map (Entry.withContent i k m) := by
  unfold lookup replaceContent
  split
  · rfl
  · exact entryAt_map _ _ _

theorem lt_freshIdentity {e : Entry} {i : Nat} (h : fs.lookup loc = some e)
    (hi : Entry.identity? e = some i) : i < fs.freshIdentity := by
  unfold lookup at h
  split at h
  · cases h
    cases hi
  · unfold freshIdentity
    generalize fs.entries = entries at h
    induction entries with
    | nil => cases h
    | cons x es ih =>
      obtain ⟨l, f⟩ := x
      rw [entryAt] at h
      rw [List.foldr_cons]
      split at h
      · cases h
        rw [hi]
        exact Nat.lt_of_lt_of_le (Nat.lt_succ_self i) (Nat.le_max_left _ _)
      · have := ih h
        omega

end FileSystem

end TabPackager
