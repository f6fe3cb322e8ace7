import TabPackager.Proofs.Places
import TabPackager.Proofs.Results

/-!
# Entries that stay

Where all entries of one file system stand in another, too, a path that leads to an entry in the
first leads to the same entry in the second. A path that is followed to its end leads where it
does when its last link is not followed, unless there is a link at its end.
-/

namespace TabPackager.FileSystem

/-- All entries of one file system stand in the other, too. -/
def EntriesKept (a b : FileSystem) : Prop :=
  ∀ loc e, a.lookup loc = some e → b.lookup loc = some e

theorem EntriesKept.refl (a : FileSystem) : EntriesKept a a := fun _ _ h => h

theorem EntriesKept.trans {a b c : FileSystem} (h : EntriesKept a b) (h' : EntriesKept b c) :
    EntriesKept a c := fun loc e he => h' loc e (h loc e he)

theorem EntriesKept.waysKept {a b : FileSystem} (h : EntriesKept a b) : WaysKept a b :=
  fun loc e he _ => h loc e he

section

variable {fs : FileSystem} {loc : Location}

theorem lookup_insert_self (h : loc ≠ []) (e : Entry) : (fs.insert loc e).lookup loc = some e := by
  rw [lookup_insert h, if_pos rfl]

theorem lookup_insert_of_ne {l : Location} (h : loc ≠ []) (hl : l ≠ loc) (e : Entry) :
    (fs.insert loc e).lookup l = fs.lookup l := by
  rw [lookup_insert h, if_neg hl]

theorem lookup_erase_self (h : loc ≠ []) : (fs.erase loc).lookup loc = none := by
  rw [lookup_erase h, if_pos rfl]

theorem lookup_erase_of_ne {l : Location} (h : loc ≠ []) (hl : l ≠ loc) :
    (fs.erase loc).lookup l = fs.lookup l := by
  rw [lookup_erase h, if_neg hl]

theorem entriesKept_insert (hne : loc ≠ []) (hn : fs.lookup loc = none) (e : Entry) :
    EntriesKept fs (fs.insert loc e) := by
  intro l f hf
  rw [lookup_insert_of_ne hne]
  · exact hf
  · rintro rfl
    cases hn.symm.trans hf

theorem entriesKept_erase (hne : loc ≠ []) : EntriesKept (fs.erase loc) fs := by
  intro l e he
  rw [lookup_erase hne] at he
  split at he
  · cases he
  · exact he

theorem lookup_erase_of_none (hne : loc ≠ []) (hn : fs.lookup loc = none) (l : Location) :
    (fs.erase loc).lookup l = fs.lookup l := by
  rw [lookup_erase hne]
  split
  · next h => rw [h, hn]
  · rfl

end

variable {fs a b : FileSystem} {cwd here : Location} {cs : List String} {s : String}

/-- The descent has come to a link on its way, or to an end where an entry stands in the other
file system, too. -/
def Descent.Met (a b : FileSystem) : Descent → Prop
  | .arrived (.found loc) => ∀ e, a.lookup loc = some e → b.lookup loc = some e
  | .detour .. => True
  | _ => False

theorem descend_met (hk : WaysKept a b) {follow : Bool}
    (h : (a.descend follow here cs).Met a b) :
    b.descend follow here cs = a.descend follow here cs := by
  induction cs generalizing here with
  | nil => rfl
  | cons c rest ih =>
    by_cases hh : a.lookup here = some .directory
    · have hb := hk.directory hh
      by_cases hc : c = "" ∨ c = "."
      · rw [descend_empty a follow hh hc] at h ⊢
        rw [descend_empty b follow hb hc, ih h]
      · by_cases hu : c = ".."
        · rw [hu, descend_up a follow hh] at h ⊢
          rw [descend_up b follow hb, ih h]
        · have ho : IsOrdinary c := ⟨fun h => hc (.inl h), fun h => hc (.inr h), hu⟩
          rw [descend_ordinary a follow hh ho] at h ⊢
          rw [descend_ordinary b follow hb ho]
          split
          · rfl
          · next hsize =>
            rw [if_neg hsize] at h
            cases hl : a.lookup (here ++ [c]) with
            | none =>
              rw [hl] at h
              dsimp only at h
              split at h <;> exact h.elim
            | some e =>
              rw [hl] at h
              cases e with
              | directory =>
                rw [hk.directory hl]
                exact ih h
              | link t m =>
                rw [hk.link hl]
              | file i k m =>
                cases rest with
                | nil =>
                  rw [h _ hl]
                  rfl
                | cons d rest =>
                  have hf : a.lookup (here ++ [c]) ≠ some .directory := by simp [hl]
                  obtain ⟨why, hr⟩ := descend_elsewhere a follow hf (List.cons_ne_nil d rest)
                  dsimp only at h
                  rw [hr] at h
                  exact h.elim
    · obtain ⟨why, hr⟩ := descend_elsewhere a follow hh (List.cons_ne_nil c rest)
      rw [hr] at h
      exact h.elim

theorem walk_met (hk : WaysKept a b) {follow : Bool} {hops : Nat} {loc : Location}
    (h : a.walk follow hops here cs = .ok (.found loc))
    (he : ∀ e, a.lookup loc = some e → b.lookup loc = some e) :
    b.walk follow hops here cs = .ok (.found loc) := by
  induction hops using Nat.strongRecOn generalizing here cs with
  | ind hops ih =>
    rcases walk_eq_ok h with hd | ⟨h', t, r, n, hd, rfl, hw⟩
    · have hb := descend_met hk (by rw [hd]; exact he)
      exact walk_arrived b (hb.trans hd) hops
    · have hb := descend_met hk (by rw [hd]; trivial)
      rw [walk_detour b (hb.trans hd)]
      exact ih n n.lt_succ_self hw

theorem WaysKept.resolve_found (hk : WaysKept a b) {follow : Bool} {loc : Location}
    (h : a.resolve follow cwd s = .ok (.found loc))
    (he : ∀ e, a.lookup loc = some e → b.lookup loc = some e) :
    b.resolve follow cwd s = .ok (.found loc) := by
  obtain ⟨hw, hr⟩ := resolve_eq_ok h
  rw [hr b follow]
  exact walk_met hk hw he

theorem resolve_met (hk : EntriesKept a b) {follow : Bool} {loc : Location}
    (h : a.resolve follow cwd s = .ok (.found loc)) :
    b.resolve follow cwd s = .ok (.found loc) :=
  hk.waysKept.resolve_found h (hk loc)

theorem descend_follow (fs : FileSystem) (here : Location) (cs : List String) :
    fs.descend true here cs = fs.descend false here cs ∨
      ∃ loc t m, fs.descend false here cs = .arrived (.found loc) ∧
        fs.lookup loc = some (.link t m) := by
  induction cs generalizing here with
  | nil => exact .inl rfl
  | cons c rest ih =>
    by_cases hh : fs.lookup here = some .directory
    · by_cases hc : c = "" ∨ c = "."
      · rw [descend_empty fs true hh hc, descend_empty fs false hh hc]
        exact ih here
      · by_cases hu : c = ".."
        · rw [hu, descend_up fs true hh, descend_up fs false hh]
          exact ih here.dropLast
        · have ho : IsOrdinary c := ⟨fun h => hc (.inl h), fun h => hc (.inr h), hu⟩
          rw [descend_ordinary fs true hh ho, descend_ordinary fs false hh ho]
          split
          · exact .inl rfl
          · cases hl : fs.lookup (here ++ [c]) with
            | none => exact .inl rfl
            | some e =>
              cases e with
              | directory => exact ih _
              | file i k m => exact ih _
              | link t m =>
                cases rest with
                | nil => exact .inr ⟨here ++ [c], t, m, rfl, hl⟩
                | cons d rest => exact .inl rfl
    · rw [descend, descend]
      split
      · next h => exact absurd h hh
      · exact .inl rfl
      · exact .inl rfl

theorem walk_follow (fs : FileSystem) (hops : Nat) (here : Location) (cs : List String) :
    fs.walk true hops here cs = fs.walk false hops here cs ∨
      ∃ loc t m, fs.walk false hops here cs = .ok (.found loc) ∧
        fs.lookup loc = some (.link t m) := by
  induction hops using Nat.strongRecOn generalizing here cs with
  | ind hops ih =>
    rcases descend_follow fs here cs with hd | ⟨loc, t, m, hd, hl⟩
    · rw [walk, walk, hd]
      cases fs.descend false here cs with
      | arrived spot => exact .inl rfl
      | refused why => exact .inl rfl
      | detour h' t r =>
        cases hops with
        | zero => exact .inl rfl
        | succ n => exact ih n n.lt_succ_self _ _
    · exact .inr ⟨loc, t, m, walk_arrived fs hd hops, hl⟩

theorem resolve_follow (fs : FileSystem) (cwd : Location) (s : String) :
    fs.resolve true cwd s = fs.resolve false cwd s ∨
      ∃ loc t m, fs.resolve false cwd s = .ok (.found loc) ∧
        fs.lookup loc = some (.link t m) := by
  unfold resolve
  split
  · exact .inl rfl
  · split
    · exact .inl rfl
    · split
      · exact .inl rfl
      · exact walk_follow fs _ _ _

theorem entry_eq_ok {r : Except Refusal Spot} {loc : Location} {e : Entry} :
    (r >>= fun
      | .free .. => .error .noEntry
      | .found l => match fs.lookup l with
        | some e => .ok (l, e)
        | none => .error .noEntry) = .ok (loc, e) ↔
      r = .ok (.found loc) ∧ fs.lookup loc = some e := by
  rw [bind_eq_ok]
  constructor
  · rintro ⟨spot, rfl, h⟩
    cases spot with
    | free d c => cases h
    | found l =>
      dsimp only at h
      split at h
      · next e hl =>
        cases h
        exact ⟨rfl, hl⟩
      · cases h
  · rintro ⟨rfl, hl⟩
    exact ⟨.found loc, rfl, by simp only [hl]⟩

theorem lstat_eq_ok {loc : Location} {e : Entry} :
    fs.lstat cwd s = .ok (loc, e) ↔
      fs.resolve false cwd s = .ok (.found loc) ∧ fs.lookup loc = some e := entry_eq_ok

theorem stat_eq_ok {loc : Location} {e : Entry} :
    fs.stat cwd s = .ok (loc, e) ↔
      fs.resolve true cwd s = .ok (.found loc) ∧ fs.lookup loc = some e := entry_eq_ok

theorem EntriesKept.lstat (hk : EntriesKept a b) {loc : Location} {e : Entry}
    (h : a.lstat cwd s = .ok (loc, e)) : b.lstat cwd s = .ok (loc, e) := by
  obtain ⟨hr, hl⟩ := lstat_eq_ok.mp h
  exact lstat_eq_ok.mpr ⟨resolve_met hk hr, hk loc e hl⟩

theorem EntriesKept.stat (hk : EntriesKept a b) {loc : Location} {e : Entry}
    (h : a.stat cwd s = .ok (loc, e)) : b.stat cwd s = .ok (loc, e) := by
  obtain ⟨hr, hl⟩ := stat_eq_ok.mp h
  exact stat_eq_ok.mpr ⟨resolve_met hk hr, hk loc e hl⟩

theorem WaysKept.stat_directory (hk : WaysKept a b) {loc : Location}
    (h : a.stat cwd s = .ok (loc, .directory)) : b.stat cwd s = .ok (loc, .directory) := by
  obtain ⟨hr, hl⟩ := stat_eq_ok.mp h
  refine stat_eq_ok.mpr ⟨hk.resolve_found hr fun e he => ?_, hk.directory hl⟩
  rw [hl] at he
  exact Option.some.inj he ▸ hk.directory hl

/-- A path that leads to no link shows the same whether its last link is followed or not. -/
theorem stat_of_lstat {loc : Location} {e : Entry} (h : fs.lstat cwd s = .ok (loc, e))
    (he : ∀ t m, e ≠ .link t m) : fs.stat cwd s = .ok (loc, e) := by
  obtain ⟨hr, hl⟩ := lstat_eq_ok.mp h
  rcases resolve_follow fs cwd s with hs | ⟨loc', t, m, hr', hl'⟩
  · exact stat_eq_ok.mpr ⟨hs.trans hr, hl⟩
  · rw [hr] at hr'
    cases hr'
    exact absurd (Option.some.inj (hl.symm.trans hl')) (he t m)

theorem lstat_of_stat {loc : Location} {e : Entry} (h : fs.stat cwd s = .ok (loc, e)) :
    fs.lstat cwd s = .ok (loc, e) ∨ ∃ loc' t m, fs.lstat cwd s = .ok (loc', .link t m) := by
  obtain ⟨hr, hl⟩ := stat_eq_ok.mp h
  rcases resolve_follow fs cwd s with hs | ⟨loc', t, m, hr', hl'⟩
  · exact .inl (lstat_eq_ok.mpr ⟨hs.symm.trans hr, hl⟩)
  · exact .inr ⟨loc', t, m, lstat_eq_ok.mpr ⟨hr', hl'⟩⟩

theorem contentOf_eq_ok {k : Content} {t : Int} :
    fs.contentOf cwd s = .ok (k, t) ↔ ∃ loc i, fs.stat cwd s = .ok (loc, .file i k t) := by
  rw [contentOf, bind_eq_ok]
  constructor
  · rintro ⟨⟨loc, e⟩, hs, h⟩
    cases e with
    | directory => cases h
    | link t m => cases h
    | file i k' t' =>
      cases h
      exact ⟨loc, i, hs⟩
  · rintro ⟨loc, i, hs⟩
    exact ⟨_, hs, rfl⟩

theorem isFile_eq_true :
    fs.isFile cwd s = .ok true ↔ ∃ loc i k t, fs.stat cwd s = .ok (loc, .file i k t) := by
  unfold isFile probe
  constructor
  · intro h
    cases hs : fs.stat cwd s with
    | error why =>
      rw [hs] at h
      dsimp only at h
      split at h <;> cases h
    | ok x =>
      obtain ⟨loc, e⟩ := x
      rw [hs] at h
      cases e with
      | directory => cases h
      | link t m => cases h
      | file i k t => exact ⟨loc, i, k, t, rfl⟩
  · rintro ⟨loc, i, k, t, hs⟩
    rw [hs]

end TabPackager.FileSystem
