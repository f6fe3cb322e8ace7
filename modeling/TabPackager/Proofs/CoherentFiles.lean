import TabPackager.Proofs.Achievements
import TabPackager.Proofs.Explanations
import TabPackager.Proofs.KeptEntries

/-!
# Files under several names

All names of one file show the same content and the same time. No operation breaks this: a new
file gets an identity that no other has, and a change of content reaches every name.
-/

namespace TabPackager

namespace FileSystem

/-- Names of one file show the same content and the same time. -/
def Coherent (fs : FileSystem) : Prop :=
  ∀ loc loc' i k k' m m', fs.lookup loc = some (.file i k m) →
    fs.lookup loc' = some (.file i k' m') → k = k' ∧ m = m'

variable {fs fs' : FileSystem} {cwd : Location} {now : Int} {o : FileOp}

theorem Coherent.of_shown (h : fs.Coherent)
    (hs : ∀ loc i k m, fs'.lookup loc = some (.file i k m) →
      ∃ l, fs.lookup l = some (.file i k m)) : fs'.Coherent := by
  intro loc loc' i k k' m m' hk hk'
  obtain ⟨l, hl⟩ := hs loc i k m hk
  obtain ⟨l', hl'⟩ := hs loc' i k' m' hk'
  exact h l l' i k k' m m' hl hl'

theorem mem_of_entryAt {loc : Location} {e : Entry} {entries : List (Location × Entry)}
    (h : entryAt loc entries = some e) : (loc, e) ∈ entries := by
  induction entries with
  | nil => cases h
  | cons x xs ih =>
    obtain ⟨l, f⟩ := x
    rw [entryAt] at h
    split at h
    · next hl =>
      cases h
      rw [hl]
      exact List.mem_cons_self
    · exact List.mem_cons_of_mem _ (ih h)

theorem Coherent.of_entries (shown : Nat → Content × Int)
    (h : ∀ x ∈ fs.entries, ∀ i k m, x.2 = .file i k m → shown i = (k, m)) : fs.Coherent := by
  have hshown {loc : Location} {i : Nat} {k : Content} {m : Int}
      (hl : fs.lookup loc = some (.file i k m)) : shown i = (k, m) := by
    unfold lookup at hl
    split at hl
    · cases hl
    · exact h _ (mem_of_entryAt hl) i k m rfl
  intro loc loc' i k k' m m' hl hl'
  exact Prod.mk.inj ((hshown hl).symm.trans (hshown hl'))

theorem lookup_insert_eq_some {loc l : Location} {e f : Entry}
    (h : (fs.insert loc e).lookup l = some f) : f = e ∨ fs.lookup l = some f := by
  by_cases hl : l = []
  · subst hl
    exact .inr h
  · rw [lookup, if_neg hl, FileSystem.insert, entryAt_setEntry] at h
    split at h
    · exact .inl (Option.some.inj h).symm
    · rw [lookup, if_neg hl]
      exact .inr h

theorem lookup_erase_eq_some {loc l : Location} {f : Entry}
    (h : (fs.erase loc).lookup l = some f) : fs.lookup l = some f := by
  by_cases hl : l = []
  · subst hl
    exact h
  · rw [lookup, if_neg hl, FileSystem.erase, entryAt_filter] at h
    rw [lookup, if_neg hl]
    split at h
    · cases h
    · exact h

theorem Coherent.erase (h : fs.Coherent) (loc : Location) : (fs.erase loc).Coherent :=
  h.of_shown fun l _ _ _ hl => ⟨l, lookup_erase_eq_some hl⟩

theorem Coherent.insert_directory (h : fs.Coherent) (loc : Location) :
    (fs.insert loc .directory).Coherent := by
  refine h.of_shown fun l i k m hl => ⟨l, ?_⟩
  exact (lookup_insert_eq_some hl).resolve_left nofun

theorem Coherent.insert_fresh (h : fs.Coherent) {loc : Location} (hloc : loc ≠ [])
    (content : Content) (time : Int) :
    (fs.insert loc (.file fs.freshIdentity content time)).Coherent := by
  have hfresh : ∀ l k m, fs.lookup l ≠ some (.file fs.freshIdentity k m) := by
    intro l k m hl
    have := lt_freshIdentity hl rfl
    omega
  intro l l' i k k' m m' hl hl'
  rw [lookup_insert hloc] at hl hl'
  by_cases hll : l = loc
  · rw [if_pos hll] at hl
    cases hl
    by_cases hll' : l' = loc
    · rw [if_pos hll'] at hl'
      cases hl'
      exact ⟨rfl, rfl⟩
    · rw [if_neg hll'] at hl'
      exact absurd hl' (hfresh l' k' m')
  · rw [if_neg hll] at hl
    by_cases hll' : l' = loc
    · rw [if_pos hll'] at hl'
      cases hl'
      exact absurd hl (hfresh l k m)
    · rw [if_neg hll'] at hl'
      exact h l l' i k k' m m' hl hl'

theorem lookup_replaceContent_file {loc : Location} {i j : Nat} {k content : Content}
    {m time : Int} (h : (fs.replaceContent j content time).lookup loc = some (.file i k m)) :
    i = j ∧ k = content ∧ m = time ∨ i ≠ j ∧ fs.lookup loc = some (.file i k m) := by
  rw [lookup_replaceContent, Option.map_eq_some_iff] at h
  obtain ⟨e, hl, he⟩ := h
  unfold Entry.withContent at he
  split at he
  · cases he
    exact .inl ⟨rfl, rfl, rfl⟩
  · next hne =>
    subst he
    exact .inr ⟨fun hij => hne (congrArg some hij), hl⟩

theorem Coherent.replaceContent (h : fs.Coherent) (j : Nat) (content : Content) (time : Int) :
    (fs.replaceContent j content time).Coherent := by
  intro loc loc' i k k' m m' hl hl'
  rcases lookup_replaceContent_file hl with ⟨hij, rfl, rfl⟩ | ⟨hij, hl⟩
  · rcases lookup_replaceContent_file hl' with ⟨-, rfl, rfl⟩ | ⟨hij', -⟩
    · exact ⟨rfl, rfl⟩
    · exact absurd hij hij'
  · rcases lookup_replaceContent_file hl' with ⟨hij', -, -⟩ | ⟨-, hl'⟩
    · exact absurd hij' hij
    · exact h loc loc' i k k' m m' hl hl'

theorem Coherent.makeDirectory (h : fs.Coherent) {s : String}
    (he : fs.makeDirectory cwd s = .ok fs') : fs'.Coherent := by
  obtain ⟨spot, -, he⟩ := bind_eq_ok.mp he
  cases spot with
  | found loc => cases he
  | free d c =>
    cases he
    exact h.insert_directory _

theorem Coherent.createFile (h : fs.Coherent) {s : String}
    (he : fs.createFile cwd s now = .ok fs') : fs'.Coherent := by
  obtain ⟨spot, -, he⟩ := bind_eq_ok.mp he
  cases spot with
  | found loc => cases he
  | free d c =>
    cases he
    exact h.insert_fresh (by simp) _ _

theorem Coherent.writeFile (h : fs.Coherent) {s : String} {content : Content}
    (he : fs.writeFile cwd s content now = .ok fs') : fs'.Coherent := by
  obtain ⟨spot, -, he⟩ := bind_eq_ok.mp he
  cases spot with
  | free d c =>
    cases he
    exact h.insert_fresh (by simp) _ _
  | found loc =>
    dsimp only at he
    split at he
    · cases he
      exact h.replaceContent _ _ _
    · cases he

theorem rename_eq_ok {s t : String} (he : fs.rename cwd s t = .ok fs') :
    fs' = fs ∨ ∃ loc loc' e, fs.lookup loc = some e ∧
      fs' = (fs.erase loc).insert loc' e := by
  obtain ⟨⟨loc, e⟩, hs, he⟩ := bind_eq_ok.mp he
  have hl := (lstat_eq_ok.mp hs).2
  obtain ⟨spot, -, he⟩ := bind_eq_ok.mp he
  cases spot with
  | free d c =>
    cases he
    exact .inr ⟨loc, _, e, hl, rfl⟩
  | found there =>
    dsimp only at he
    split at he
    · cases he
    · split at he
      · cases he
        exact .inl rfl
      · cases he
        exact .inr ⟨loc, there, e, hl, rfl⟩
    · cases he
      exact .inr ⟨loc, there, e, hl, rfl⟩

theorem Coherent.rename (h : fs.Coherent) {s t : String} (he : fs.rename cwd s t = .ok fs') :
    fs'.Coherent := by
  rcases rename_eq_ok he with rfl | ⟨loc, loc', e, hl, rfl⟩
  · exact h
  · refine h.of_shown fun l i k m hs => ?_
    rcases lookup_insert_eq_some hs with rfl | hs
    · exact ⟨loc, hl⟩
    · exact ⟨l, lookup_erase_eq_some hs⟩

theorem Coherent.unlink (h : fs.Coherent) {s : String} (he : fs.unlink cwd s = .ok fs') :
    fs'.Coherent := by
  obtain ⟨⟨loc, e⟩, -, he⟩ := bind_eq_ok.mp he
  cases e with
  | directory => cases he
  | file i k m =>
    cases he
    exact h.erase loc
  | link t m =>
    cases he
    exact h.erase loc

theorem Coherent.effect (h : fs.Coherent) (he : o.effect cwd now fs = .ok fs') :
    fs'.Coherent := by
  cases o with
  | isFile p => exact Except.ok.inj he ▸ h
  | isDirectory p => exact Except.ok.inj he ▸ h
  | makeDirectory p => exact h.makeDirectory he
  | createFile p => exact h.createFile he
  | examine p => exact Except.ok.inj he ▸ h
  | contentOf p => exact Except.ok.inj he ▸ h
  | writeFile p content => exact h.writeFile he
  | rename p q => exact h.rename he
  | unlink p => exact h.unlink he

theorem Coherent.happens (h : fs.Coherent) {reply : Except Refusal o.Reply}
    (hh : o.Happens cwd now fs reply fs') : fs'.Coherent := by
  rcases hh.cases with ⟨rfl, -⟩ | ⟨he, -⟩
  · exact h
  · exact h.effect he

end FileSystem

/-- Whatever a script does, names of one file show the same. -/
theorem Script.Execution.coherent {α : Type} {cwd : Location} {now : Int} {s : Script α}
    {fs fs' : FileSystem} {events : List Event} {a : α}
    (h : Script.Execution cwd now s fs events a fs') (hc : fs.Coherent) : fs'.Coherent := by
  induction h with
  | done a fs => exact hc
  | op first rest ih => exact ih (hc.happens first)
  | say rest ih => exact ih hc

end TabPackager
