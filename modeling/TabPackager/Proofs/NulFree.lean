import TabPackager.CommandLine.Options
import TabPackager.Proofs.FileReading
import TabPackager.Proofs.NewDirectories

/-!
# Texts without a zero byte

The system takes no text with a zero byte in it. Arguments come without one, and so do the options
that are read from them and the paths that are made of such texts.
-/

namespace TabPackager

def NulFree (s : String) : Prop := '\x00' ∉ s.toList

instance : DecidablePred NulFree := fun s => by unfold NulFree; infer_instance

theorem NulFree.append {s t : String} (hs : NulFree s) (ht : NulFree t) : NulFree (s ++ t) := by
  unfold NulFree at *
  rw [String.toList_append, List.mem_append]
  exact not_or.mpr ⟨hs, ht⟩

theorem NulFree.of_sublist {s : String} {cs : List Char} (hs : NulFree s)
    (h : cs.Sublist s.toList) : NulFree (String.ofList cs) := by
  unfold NulFree at *
  rw [String.toList_ofList]
  exact fun hc => hs (h.subset hc)

namespace Path

def NulFree (p : Path) : Prop := ∀ s ∈ p.parts, TabPackager.NulFree s

instance : DecidablePred NulFree := fun p => by unfold NulFree; infer_instance

variable {p q : Path}

theorem nulFree_parse {s : String} (hs : TabPackager.NulFree s) : (parse s).NulFree := by
  intro t ht
  obtain ⟨⟨cs, hcs, rfl⟩, -⟩ := by simpa [parse, pathComponents] using ht
  exact hs.of_sublist (Text.sublist_of_mem_splitOn hcs)

theorem NulFree.join (hp : p.NulFree) (hq : q.NulFree) : (p / q).NulFree := by
  change (Path.join p q).NulFree
  unfold Path.join
  split
  · intro s hs
    exact (List.mem_append.mp hs).elim (hp s) (hq s)
  · exact hq

theorem NulFree.child (hp : p.NulFree) {s : String} (hs : TabPackager.NulFree s) :
    (p.child s).NulFree := hp.join (nulFree_parse hs)

theorem NulFree.parent (hp : p.NulFree) : p.parent.NulFree :=
  fun s hs => hp s (List.dropLast_subset _ hs)

theorem NulFree.above (hq : q.NulFree) (h : p.Above q) : p.NulFree := by
  induction h with
  | self p => exact hq
  | parent h ih => exact (ih hq).parent

theorem NulFree.normalize (hp : p.NulFree) : p.normalize.NulFree := by
  intro s hs
  rcases mem_of_mem_foldDots hs with h | h | rfl
  · cases h
  · exact hp s h
  · decide

theorem mem_intercalate {c : Char} (hc : c ≠ '/') (ps : List String) :
    c ∈ ("/".intercalate ps).toList ↔ ∃ s ∈ ps, c ∈ s.toList := by
  induction ps with
  | nil => simp
  | cons p ps ih =>
    by_cases hps : ps = []
    · simp [hps]
    · rw [String.intercalate_cons_of_ne_nil hps, String.toList_append, List.mem_append, ih]
      simp [hc]

theorem text_ne_empty (p : Path) : p.text ≠ "" := by
  intro h
  have hnone (c : Char) : c ∉ p.text.toList := by simp [h]
  unfold text at hnone
  split at hnone
  · exact hnone '.' (by decide)
  · next hcurrent =>
    cases ha : p.anchor with
    | relative =>
      obtain ⟨s, ps, hps⟩ := List.exists_cons_of_ne_nil fun h => hcurrent ⟨ha, h⟩
      have hs : s ∈ p.parts := hps ▸ List.mem_cons_self
      obtain ⟨c, cs, hcs⟩ := List.exists_cons_of_ne_nil
        fun h => (p.isComponent s hs).1 (String.toList_eq_nil_iff.mp h)
      have hc : c ∈ s.toList := hcs ▸ List.mem_cons_self
      have hslash : c ≠ '/' := fun h => (p.isComponent s hs).2.2 (h ▸ hc)
      have hjoined : c ∈ ("/".intercalate p.parts).toList :=
        (mem_intercalate hslash _).mpr ⟨s, hs, hc⟩
      rw [String.toList_append] at hnone
      exact hnone c (List.mem_append_right _ hjoined)
    | root => exact hnone '/' (by simp [ha, Anchor.text])
    | doubleRoot => exact hnone '/' (by simp [ha, Anchor.text])

theorem nulFree_text_iff : TabPackager.NulFree p.text ↔ p.NulFree := by
  have hanchor : '\x00' ∉ p.anchor.text.toList := by
    cases p.anchor <;> decide
  have hjoined :
      '\x00' ∈ ("/".intercalate p.parts).toList ↔ ∃ s ∈ p.parts, '\x00' ∈ s.toList :=
    mem_intercalate (by decide) p.parts
  unfold TabPackager.NulFree text NulFree TabPackager.NulFree
  split
  · next h => simp [h.2]
  · rw [String.toList_append, List.mem_append, not_or, hjoined]
    simp [hanchor]

end Path

namespace FileSystem

/-- A path at which something has been found to be is free of zero bytes. -/
theorem nulFree_of_probe {fs : FileSystem} {cwd : Location} {test : Entry → Bool} {p : Path}
    (h : fs.probe cwd test p.text = .ok true) : p.NulFree := by
  rw [← Path.nulFree_text_iff]
  intro hnul
  have hstat : fs.stat cwd p.text = .error .nulByte := by
    rw [stat, resolve, if_pos hnul]
    rfl
  rw [probe, hstat] at h
  cases h

end FileSystem

namespace CommandLine

def Token.NulFree : Token → Prop
  | .plain s => TabPackager.NulFree s
  | .separator => True
  | .unknown s => TabPackager.NulFree s
  | .option _ _ attached => ∀ cs, attached = some cs → '\x00' ∉ cs

theorem nulFree_longMatches {cs : List Char} (hcs : '\x00' ∉ cs) :
    ∀ e ∈ longMatches cs, e.2.NulFree := by
  intro e he
  unfold longMatches at he
  split at he
  next start value hcut =>
  obtain ⟨x, -, rfl⟩ := List.mem_map.mp he
  rintro attached rfl
  exact fun hc => hcs ((Text.cutAt_suffix (congrArg Prod.snd hcut)).subset hc)

theorem nulFree_shortMatches {cs : List Char} (hcs : '\x00' ∉ cs) :
    ∀ e ∈ shortMatches cs, e.2.NulFree := by
  intro e he
  obtain ⟨x, -, rfl⟩ := List.mem_map.mp he
  rintro _ ⟨⟩
  exact fun hc => hcs (List.mem_of_mem_drop hc)

theorem nulFree_classify {a : String} (ha : TabPackager.NulFree a) {t : Token}
    (h : classify a = .ok t) : t.NulFree := by
  unfold classify at h
  dsimp only at h
  split at h
  · cases h
    exact ha
  · split at h
    · cases h
      nofun
    · split at h
      · next t' hexact =>
        cases h
        split at hexact
        · next spelling value hcut =>
          obtain ⟨x, -, rfl⟩ := Option.map_eq_some_iff.mp hexact
          rintro _ ⟨⟩
          exact fun hc => ha ((Text.cutAt_suffix (congrArg Prod.snd hcut)).subset hc)
        · cases hexact
      · have hmatches : ∀ e ∈ (if a.toList.take 2 = ['-', '-'] then longMatches a.toList
            else shortMatches a.toList), e.2.NulFree := by
          split
          · exact nulFree_longMatches ha
          · exact nulFree_shortMatches ha
        split at h
        · next spelling t' hone =>
          cases h
          rw [hone] at hmatches
          exact hmatches _ List.mem_cons_self
        · split at h
          · cases h
            exact ha
          · cases h
            exact ha
        · cases h

theorem nulFree_tokens {argv : List String} (ha : ∀ a ∈ argv, TabPackager.NulFree a)
    {ts : List Token} (h : tokens argv = .ok ts) : ∀ t ∈ ts, t.NulFree := by
  induction argv generalizing ts with
  | nil =>
    cases h
    simp
  | cons a rest ih =>
    rw [List.forall_mem_cons] at ha
    unfold tokens at h
    split at h
    · cases h
      rw [List.forall_mem_cons]
      refine ⟨trivial, fun t ht => ?_⟩
      obtain ⟨b, hb, rfl⟩ := List.mem_map.mp ht
      exact ha.2 b hb
    · obtain ⟨t, ht, h⟩ := bind_eq_ok.mp h
      obtain ⟨ts', hts, h⟩ := bind_eq_ok.mp h
      cases h
      rw [List.forall_mem_cons]
      exact ⟨nulFree_classify ha.1 ht, ih ha.2 hts⟩

def Given.NulFree (g : Given Path) : Prop := ∀ p, g = .value p → p.NulFree

structure Seen.NulFree (s : Seen) : Prop where
  directory : s.options.directory.NulFree
  bundle : s.options.bundle.NulFree
  first : ∀ a ∈ s.first, TabPackager.NulFree a
  others : ∀ a ∈ s.others, TabPackager.NulFree a

theorem nulFree_path {v : String} (hv : TabPackager.NulFree v) : (Given.path v).NulFree := by
  unfold Given.path
  split
  · nofun
  · rintro p ⟨⟩
    exact Path.nulFree_parse hv

namespace Seen

variable {s s' : Seen}

theorem NulFree.of_same (h : s.NulFree) (hd : s'.options.directory = s.options.directory)
    (hb : s'.options.bundle = s.options.bundle) (hf : s'.first = s.first)
    (ho : s'.others = s.others) : s'.NulFree where
  directory := hd ▸ h.directory
  bundle := hb ▸ h.bundle
  first := hf ▸ h.first
  others := ho ▸ h.others

theorem nulFree_start : ({} : Seen).NulFree where
  directory := fun _ h => by cases h
  bundle := fun _ h => by cases h
  first := nofun
  others := nofun

theorem NulFree.endGroup (h : s.NulFree) : s.endGroup.NulFree := by
  unfold Seen.endGroup
  split
  · exact h.of_same rfl rfl rfl rfl
  · exact h

theorem NulFree.addPlain (h : s.NulFree) {a : String} (ha : TabPackager.NulFree a) :
    (s.addPlain a).NulFree := by
  unfold Seen.addPlain
  split
  · refine ⟨h.directory, h.bundle, h.first, fun b hb => ?_⟩
    rcases List.mem_append.mp hb with hb | hb
    · exact h.others b hb
    · rw [List.mem_singleton.mp hb]
      exact ha
  · refine ⟨h.directory, h.bundle, fun b hb => ?_, h.others⟩
    rcases List.mem_append.mp hb with hb | hb
    · exact h.first b hb
    · rw [List.mem_singleton.mp hb]
      exact ha

theorem NulFree.addUnknown (h : s.NulFree) {a : String} (ha : TabPackager.NulFree a) :
    (s.addUnknown a).NulFree := by
  refine ⟨h.endGroup.directory, h.endGroup.bundle, h.endGroup.first, fun b hb => ?_⟩
  rcases List.mem_append.mp hb with hb | hb
  · exact h.others b hb
  · rw [List.mem_singleton.mp hb]
    exact ha

theorem NulFree.addSeparator (h : s.NulFree) : s.addSeparator.NulFree := by
  unfold Seen.addSeparator
  split
  · refine ⟨h.directory, h.bundle, h.first, fun b hb => ?_⟩
    rcases List.mem_append.mp hb with hb | hb
    · exact h.others b hb
    · rw [List.mem_singleton.mp hb]
      decide
  · exact h.of_same rfl rfl rfl rfl

theorem NulFree.setFlags (h : s.NulFree) {fs : List Flag} (hs : s.setFlags fs = .ok s') :
    s'.NulFree := by
  induction fs generalizing s with
  | nil =>
    cases hs
    exact h
  | cons f fs ih =>
    obtain ⟨s₁, h₁, hs⟩ := bind_eq_ok.mp hs
    refine ih ?_ hs
    cases f with
    | help => cases h₁
    | dryRun =>
      cases h₁
      exact h.of_same rfl rfl rfl rfl
    | verbose =>
      cases h₁
      exact h.of_same rfl rfl rfl rfl

theorem NulFree.setValue (h : s.NulFree) {t : Setting} {v : String}
    (hv : TabPackager.NulFree v) (hs : s.setValue t v = .ok s') : s'.NulFree := by
  cases t with
  | config =>
    cases hs
    exact h.of_same rfl rfl rfl rfl
  | directory =>
    cases hs
    exact ⟨nulFree_path hv, h.bundle, h.first, h.others⟩
  | bundle =>
    cases hs
    exact ⟨h.directory, nulFree_path hv, h.first, h.others⟩
  | log =>
    dsimp only [Seen.setValue] at hs
    split at hs
    · cases hs
      exact h.of_same rfl rfl rfl rfl
    · split at hs
      · cases hs
        exact h.of_same rfl rfl rfl rfl
      · cases hs

end Seen

theorem nulFree_unpack {o : Switch} {short : Bool} {attached : Option (List Char)}
    (ha : ∀ cs, attached = some cs → '\x00' ∉ cs) {flags : List Flag} {t : Setting} {v : String}
    (h : unpack o short attached = .ok (flags, some (t, some v))) : TabPackager.NulFree v := by
  fun_induction unpack o short attached generalizing flags with
  | case1 t short attached =>
    cases attached with
    | none => cases h
    | some cs =>
      cases h
      unfold TabPackager.NulFree
      rw [String.toList_ofList]
      exact ha cs rfl
  | case2 => cases h
  | case3 => cases h
  | case4 => cases h
  | case5 f short c cs s hs ih =>
    obtain ⟨⟨fs, last⟩, hu, h⟩ := bind_eq_ok.mp h
    cases h
    refine ih (fun ds hd => ?_) hu
    split at hd
    · cases hd
    · cases hd
      exact fun hc => ha _ rfl (List.mem_cons_of_mem c hc)

/-- How reading goes on from an option: its flags are set, then the value it comes with. -/
theorem read_option {s s' : Seen} {o : Switch} {short : Bool} {attached : Option (List Char)}
    {ts : List Token} (h : read s (.option o short attached :: ts) = .ok s') :
    ∃ flags last s₁, unpack o short attached = .ok (flags, last) ∧
      s.endGroup.setFlags flags = .ok s₁ ∧
      (read s₁ ts = .ok s' ∨ ∃ t v s₂, s₁.setValue t v = .ok s₂ ∧
        (last = some (t, some v) ∧ read s₂ ts = .ok s' ∨
          ∃ ts', ts = .plain v :: ts' ∧ read s₂ ts' = .ok s')) := by
  -- A match on the tokens behind has no equation of its own, so the recursion is opened.
  delta read at h ⊢
  obtain ⟨⟨flags, last⟩, hu, h⟩ := bind_eq_ok.mp h
  rcases last with _ | ⟨t, _ | v⟩
  · obtain ⟨s₁, h₁, h⟩ := bind_eq_ok.mp h
    exact ⟨flags, none, s₁, hu, h₁, .inl h⟩
  · rcases ts with _ | ⟨⟨v⟩ | _ | _ | _, ts⟩
    case cons.plain =>
      obtain ⟨s₁, h₁, h⟩ := bind_eq_ok.mp h
      obtain ⟨s₂, h₂, h⟩ := bind_eq_ok.mp h
      exact ⟨flags, some (t, none), s₁, hu, h₁, .inr ⟨t, v, s₂, h₂, .inr ⟨ts, rfl, h⟩⟩⟩
    all_goals cases h
  · obtain ⟨s₁, h₁, h⟩ := bind_eq_ok.mp h
    obtain ⟨s₂, h₂, h⟩ := bind_eq_ok.mp h
    exact ⟨flags, some (t, some v), s₁, hu, h₁, .inr ⟨t, v, s₂, h₂, .inl ⟨rfl, h⟩⟩⟩

theorem nulFree_read {ts : List Token} (ht : ∀ t ∈ ts, t.NulFree) {s s' : Seen} (hs : s.NulFree)
    (h : read s ts = .ok s') : s'.NulFree := by
  -- An option may take the token behind it, so the induction is on the number of tokens.
  induction hn : ts.length using Nat.strong_induction_on generalizing s ts with
  | _ n ih =>
    subst hn
    cases ts with
    | nil =>
      cases h
      exact hs
    | cons t ts =>
      rw [List.forall_mem_cons] at ht
      have hnext {s₁ : Seen} (h₁ : s₁.NulFree) (h : read s₁ ts = .ok s') : s'.NulFree :=
        ih ts.length (by simp) ht.2 h₁ h rfl
      cases t with
      | plain a => exact hnext (hs.addPlain ht.1) h
      | separator => exact hnext hs.addSeparator h
      | unknown a => exact hnext (hs.addUnknown ht.1) h
      | option o short attached =>
        obtain ⟨flags, last, s₁, hu, h₁, h⟩ := read_option h
        have hs₁ : s₁.NulFree := hs.endGroup.setFlags h₁
        rcases h with h | ⟨t, v, s₂, h₂, ⟨rfl, h⟩ | ⟨ts', rfl, hread⟩⟩
        · exact hnext hs₁ h
        · exact hnext (hs₁.setValue (nulFree_unpack ht.1 hu) h₂) h
        · rw [List.forall_mem_cons] at ht
          have hlt : ts'.length < (Token.option o short attached :: .plain v :: ts').length := by
            rw [List.length_cons, List.length_cons]
            omega
          exact ih ts'.length hlt ht.2.2 (hs₁.setValue ht.2.1 h₂) hread rfl

/-- The paths and the arguments of a command line are free of zero bytes, as its texts are. -/
theorem nulFree_parse {argv : List String} (ha : ∀ a ∈ argv, TabPackager.NulFree a)
    {o : Options} {arguments : List String} (h : parse argv = .ok (o, arguments)) :
    o.directory.NulFree ∧ o.bundle.NulFree ∧ ∀ a ∈ arguments, TabPackager.NulFree a := by
  unfold parse at h
  split at h
  · cases h
  · next ts hts =>
    cases hr : read {} ts with
    | error e =>
      rw [hr] at h
      cases h
    | ok s =>
      rw [hr] at h
      cases h
      have hs : s.NulFree :=
        nulFree_read (nulFree_tokens ha hts) Seen.nulFree_start hr
      exact ⟨hs.directory, hs.bundle, fun a hm =>
        (List.mem_append.mp hm).elim (hs.first a) (hs.others a)⟩

end CommandLine

end TabPackager
