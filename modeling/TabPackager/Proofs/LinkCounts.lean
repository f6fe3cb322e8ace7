import TabPackager.Proofs.CoherentFiles

/-!
# The names of a file

How often a file stands in a table without repeated locations, when entries are put, taken away and
given new content: the count of a file changes only with its own entries.
-/

namespace TabPackager.FileSystem

/-- No location stands twice in the table. -/
def Keyed (fs : FileSystem) : Prop := (fs.entries.map Prod.fst).Nodup

instance (fs : FileSystem) : Decidable fs.Keyed := by
  unfold Keyed
  infer_instance

variable {fs : FileSystem} {loc l : Location} {e : Entry} {i j : Nat}

theorem map_fst_setEntry (loc : Location) (e : Entry) (es : List (Location × Entry)) :
    (setEntry loc e es).map Prod.fst =
      if loc ∈ es.map Prod.fst then es.map Prod.fst else es.map Prod.fst ++ [loc] := by
  induction es with
  | nil => rfl
  | cons x es ih =>
    obtain ⟨k, f⟩ := x
    rw [setEntry]
    by_cases hk : k = loc
    · rw [if_pos hk, if_pos (by simp [hk]), List.map_cons, List.map_cons, hk]
    · rw [if_neg hk, List.map_cons, List.map_cons, ih]
      by_cases hm : loc ∈ es.map Prod.fst
      · rw [if_pos hm, if_pos (List.mem_cons_of_mem k hm)]
      · rw [if_neg hm, if_neg (List.not_mem_cons_of_ne_of_not_mem (Ne.symm hk) hm),
          List.cons_append]

theorem Keyed.insert (h : fs.Keyed) (loc : Location) (e : Entry) : (fs.insert loc e).Keyed := by
  unfold Keyed FileSystem.insert at *
  rw [map_fst_setEntry]
  split
  · exact h
  · next hm =>
    refine List.nodup_append.mpr ⟨h, List.pairwise_singleton _ loc, fun a ha b hb hab => ?_⟩
    exact hm (List.mem_singleton.mp hb ▸ hab ▸ ha)

theorem Keyed.erase (h : fs.Keyed) (loc : Location) : (fs.erase loc).Keyed :=
  h.sublist (List.filter_sublist.map Prod.fst)

theorem Keyed.replaceContent (h : fs.Keyed) (i : Nat) (k : Content) (m : Int) :
    (fs.replaceContent i k m).Keyed := by
  unfold Keyed FileSystem.replaceContent at *
  rw [List.map_map]
  exact h

theorem nameCount_replaceContent (fs : FileSystem) (j : Nat) (k : Content) (m : Int) (i : Nat) :
    (fs.replaceContent j k m).nameCount i = fs.nameCount i := by
  unfold nameCount FileSystem.replaceContent
  rw [List.countP_map]
  refine List.countP_congr fun x _ => ?_
  have hid : Entry.identity? (Entry.withContent j k m x.2) = Entry.identity? x.2 := by
    unfold Entry.withContent
    split
    · next hj => exact hj.symm
    · rfl
  simp [hid]

/-- Whether the entry at a location counts as a name of the file. -/
def Names (fs : FileSystem) (loc : Location) (i : Nat) : Prop :=
  ∃ k m, fs.lookup loc = some (.file i k m)

theorem names_congr {a b : FileSystem} (h : b.lookup l = a.lookup l) :
    b.Names l i ↔ a.Names l i := by
  unfold Names
  rw [h]

theorem Names.of_erase (hl : loc ≠ []) (h : (fs.erase loc).Names l i) : l ≠ loc ∧ fs.Names l i := by
  obtain ⟨k, m, hf⟩ := h
  rw [lookup_erase hl] at hf
  split at hf
  · cases hf
  · next hne => exact ⟨hne, k, m, hf⟩

theorem identity?_eq_some : Entry.identity? e = some i ↔ ∃ k m, e = .file i k m := by
  cases e with
  | directory => simp [Entry.identity?]
  | link t m => simp [Entry.identity?]
  | file j k m => simp [Entry.identity?, eq_comm]

theorem countP_setEntry {es : List (Location × Entry)} (he : Entry.identity? e ≠ some i)
    (hold : ∀ f, entryAt loc es = some f → Entry.identity? f ≠ some i) :
    (setEntry loc e es).countP (fun x => decide (Entry.identity? x.2 = some i)) =
      es.countP (fun x => decide (Entry.identity? x.2 = some i)) := by
  induction es with
  | nil => simp [setEntry, he]
  | cons x es ih =>
    obtain ⟨k, f⟩ := x
    rw [setEntry]
    by_cases hk : k = loc
    · have hf : Entry.identity? f ≠ some i := hold f (by rw [entryAt, if_pos hk])
      rw [if_pos hk, List.countP_cons_of_neg (by simpa using he),
        List.countP_cons_of_neg (by simpa using hf)]
    · rw [if_neg hk, List.countP_cons, List.countP_cons, ih]
      intro g hg
      exact hold g (by rw [entryAt, if_neg hk, hg])

theorem nameCount_insert (hl : loc ≠ []) (he : Entry.identity? e ≠ some i)
    (hold : ¬fs.Names loc i) : (fs.insert loc e).nameCount i = fs.nameCount i := by
  refine countP_setEntry he fun f hf hi => ?_
  obtain ⟨k, m, rfl⟩ := identity?_eq_some.mp hi
  exact hold ⟨k, m, by rw [lookup, if_neg hl, hf]⟩

theorem entryAt_of_mem {es : List (Location × Entry)} (h : (es.map Prod.fst).Nodup)
    (hm : (loc, e) ∈ es) : entryAt loc es = some e := by
  induction es with
  | nil => cases hm
  | cons x es ih =>
    obtain ⟨k, f⟩ := x
    rw [List.map_cons, List.nodup_cons] at h
    rw [entryAt]
    rcases List.mem_cons.mp hm with hx | hm
    · cases hx
      rw [if_pos rfl]
    · have hk : k ≠ loc := fun hk => h.1 (hk ▸ List.mem_map.mpr ⟨_, hm, rfl⟩)
      rw [if_neg hk, ih h.2 hm]

theorem nameCount_erase (h : fs.Keyed) (hl : loc ≠ []) (hold : ¬fs.Names loc i) :
    (fs.erase loc).nameCount i = fs.nameCount i := by
  unfold nameCount FileSystem.erase
  rw [List.countP_filter]
  refine List.countP_congr fun x hx => ?_
  obtain ⟨k, f⟩ := x
  by_cases hk : k = loc
  · subst hk
    have hf : Entry.identity? f ≠ some i := by
      intro hi
      obtain ⟨k', m, rfl⟩ := identity?_eq_some.mp hi
      exact hold ⟨k', m, by rw [lookup, if_neg hl, entryAt_of_mem h hx]⟩
    simp [hf]
  · simp [hk]

end TabPackager.FileSystem
