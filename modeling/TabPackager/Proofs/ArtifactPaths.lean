import TabPackager.Commands
import TabPackager.Proofs.BundleNames
import TabPackager.Proofs.RunStages
import Mathlib.Data.List.DropRight

/-!
# Paths of artifacts

The three artifacts of a layout never share a path, whatever texts the binary and the triple are.
The texts may add components, drop them or start from the root, so the paths are compared as whole
lists of components: where two of them could meet, the components would have to be shifted
against each other, and then the profile would be the name of an artifact. Paths that differ are
written differently, which carries the statement over to the command of the packaging tool.
-/

namespace TabPackager

namespace Text

def lastPiece (s : String) : String := String.ofList (s.toList.rtakeWhile (· != '/'))

theorem not_mem_lastPiece (s : String) : '/' ∉ (lastPiece s).toList := by
  rw [lastPiece, String.toList_ofList]
  intro h
  have hne := List.mem_rtakeWhile_imp h
  simp at hne

end Text

open Text

theorem pathComponents_slash (xs ys : List Char) :
    pathComponents (xs ++ '/' :: ys) = pathComponents xs ++ pathComponents ys := by
  simp only [pathComponents, List.splitOn_append_cons_self, List.map_append, List.filter_append]

theorem pathComponents_of_not_mem {cs : List Char} (h : '/' ∉ cs) :
    pathComponents cs =
      if String.ofList cs ≠ "" ∧ String.ofList cs ≠ "." then [String.ofList cs] else [] := by
  rw [pathComponents, List.splitOn_eq_singleton h, List.map_singleton]
  split
  · next hc => rw [List.filter_cons_of_pos (by simpa using hc), List.filter_nil]
  · next hc => rw [List.filter_cons_of_neg (by simpa using hc), List.filter_nil]

theorem pathComponents_of_isComponent {s : String} (h : IsComponent s) :
    pathComponents s.toList = [s] := by
  rw [pathComponents_of_not_mem h.2.2, String.ofList_toList, if_pos ⟨h.1, h.2.1⟩]

def frontComponents (s : String) : List String :=
  pathComponents (s.toList.rdropWhile (· != '/'))

/-- What is put behind a text shows in its last piece, if it holds no slash. -/
theorem pathComponents_append (s : String) {xs : List Char} (h : '/' ∉ xs) :
    pathComponents (s.toList ++ xs) =
      frontComponents s ++ pathComponents ((lastPiece s).toList ++ xs) := by
  have hsplit : s.toList = s.toList.rdropWhile (· != '/') ++ (lastPiece s).toList := by
    rw [lastPiece, String.toList_ofList, List.rdropWhile_append_rtakeWhile]
  have hrest : '/' ∉ (lastPiece s).toList ++ xs := by
    rw [List.mem_append]
    exact not_or.mpr ⟨not_mem_lastPiece s, h⟩
  have hlast := List.rdropWhile_last_not (· != '/') s.toList
  rw [frontComponents]
  generalize s.toList.rdropWhile (· != '/') = front at hsplit hlast ⊢
  rw [hsplit, List.append_assoc]
  have hnone : pathComponents [] = [] := by decide
  by_cases hfront : front = []
  · rw [hfront, hnone, List.nil_append, List.nil_append]
  · have hslash : front.getLast hfront = '/' := by simpa using hlast hfront
    have hends : front.dropLast ++ ['/'] = front := by
      rw [← hslash]
      exact List.dropLast_append_getLast hfront
    rw [← hends, List.append_assoc, List.singleton_append, pathComponents_slash,
      pathComponents_slash, hnone, List.append_nil]

theorem isComponent_lastPiece_append (s : String) {ext : String} (hext : '/' ∉ ext.toList)
    (hlong : 2 ≤ ext.toList.length) : IsComponent (lastPiece s ++ ext) := by
  have hlength : 2 ≤ (lastPiece s ++ ext).toList.length := by
    rw [String.toList_append, List.length_append]
    omega
  refine ⟨?_, ?_, ?_⟩
  · intro he
    rw [he] at hlength
    simp at hlength
  · intro he
    rw [he] at hlength
    simp at hlength
  · rw [String.toList_append, List.mem_append]
    exact not_or.mpr ⟨not_mem_lastPiece s, hext⟩

theorem ordinary_lastPiece_append (s : String) {ext : String} (hext : '/' ∉ ext.toList)
    (hlong : 3 ≤ ext.toList.length) :
    IsComponent (lastPiece s ++ ext) ∧ lastPiece s ++ ext ≠ ".." := by
  refine ⟨isComponent_lastPiece_append s hext (by omega), ?_⟩
  intro he
  have hlength := congrArg (fun t => t.toList.length) he
  have htwo : "..".toList.length = 2 := by decide
  simp only [String.toList_append, List.length_append] at hlength
  omega

namespace Path

section

variable (s : String) {ext : String}

theorem parts_parse : (parse s).parts = frontComponents s ++ [lastPiece s] ∨
    (parse s).parts = frontComponents s ∧ (lastPiece s = "" ∨ lastPiece s = ".") := by
  have hparts : (parse s).parts = frontComponents s ++ pathComponents (lastPiece s).toList := by
    have happend := pathComponents_append s List.not_mem_nil
    rwa [List.append_nil, List.append_nil] at happend
  rw [hparts, pathComponents_of_not_mem (not_mem_lastPiece s), String.ofList_toList]
  by_cases hpiece : lastPiece s = "" ∨ lastPiece s = "."
  · refine .inr ⟨?_, hpiece⟩
    rw [if_neg (by tauto), List.append_nil]
  · refine .inl ?_
    rw [if_pos (by tauto)]

theorem parts_parse_append (hext : '/' ∉ ext.toList) (hlong : 2 ≤ ext.toList.length) :
    (parse (s ++ ext)).parts = frontComponents s ++ [lastPiece s ++ ext] := by
  have hcomponent := isComponent_lastPiece_append s hext hlong
  change pathComponents (s ++ ext).toList = _
  rw [String.toList_append, pathComponents_append s hext, ← String.toList_append,
    pathComponents_of_isComponent hcomponent]

/-- What is put behind a text does not change where its path starts, if it holds no slash. -/
theorem anchor_parse_append (hext : '/' ∉ ext.toList) :
    (parse (s ++ ext)).anchor = (parse s).anchor := by
  change anchorOf (s ++ ext).toList = anchorOf s.toList
  rw [String.toList_append]
  generalize s.toList = front
  generalize ext.toList = xs at hext
  have hhead (ys : List Char) : xs ≠ '/' :: ys := fun he => hext (he ▸ List.mem_cons_self)
  rcases front with _ | ⟨a, _ | ⟨b, _ | ⟨c, cs⟩⟩⟩
  · cases xs <;> simp_all [anchorOf]
  · by_cases ha : a = '/' <;> cases xs <;> simp_all [anchorOf]
  · by_cases ha : a = '/' <;> by_cases hb : b = '/' <;> cases xs <;> simp_all [anchorOf]
  · by_cases ha : a = '/' <;> by_cases hb : b = '/' <;> by_cases hc : c = '/' <;>
      simp_all [anchorOf]

theorem parts_child (p : Path) : (p.child s).parts =
    (if (parse s).anchor = .relative then p.parts else []) ++ (parse s).parts := by
  change (join p (parse s)).parts = _
  unfold join
  split
  · rfl
  · rfl

theorem anchor_child (p : Path) : (p.child s).anchor =
    if (parse s).anchor = .relative then p.anchor else (parse s).anchor := by
  change (join p (parse s)).anchor = _
  unfold join
  split
  · rfl
  · rfl

theorem parse_append_ne (hext : '/' ∉ ext.toList) (hlong : 2 ≤ ext.toList.length) :
    (parse (s ++ ext)).parts ≠ (parse s).parts := by
  intro he
  rw [parts_parse_append s hext hlong] at he
  rcases parts_parse s with hs | ⟨hs, -⟩
  · rw [hs, List.append_cancel_left_eq, List.singleton_inj] at he
    have hlength := congrArg (fun t => t.toList.length) he
    simp only [String.toList_append, List.length_append] at hlength
    omega
  · rw [hs] at he
    have hlength := congrArg List.length he
    simp only [List.length_append, List.length_singleton] at hlength
    omega

theorem child_append_ne (p : Path) (hext : '/' ∉ ext.toList) (hlong : 2 ≤ ext.toList.length) :
    p.child (s ++ ext) ≠ p.child s := by
  intro he
  have hparts := congrArg Path.parts he
  rw [parts_child, parts_child, anchor_parse_append s hext, List.append_cancel_left_eq] at hparts
  exact parse_append_ne s hext hlong hparts

theorem getLast?_child_append (p : Path) (hext : '/' ∉ ext.toList)
    (hlong : 2 ≤ ext.toList.length) :
    (p.child (s ++ ext)).parts.getLast? = some (lastPiece s ++ ext) := by
  rw [parts_child, parts_parse_append s hext hlong, ← List.append_assoc, List.getLast?_concat]

theorem name_child_append (p : Path) (hext : '/' ∉ ext.toList)
    (hlong : 2 ≤ ext.toList.length) : (p.child (s ++ ext)).name = lastPiece s ++ ext := by
  rw [name, getLast?_child_append s p hext hlong, Option.getD_some]

end

theorem pathComponents_intercalate {ps : List String} (h : ∀ s ∈ ps, IsComponent s) :
    pathComponents ("/".intercalate ps).toList = ps := by
  induction ps with
  | nil => decide
  | cons s ps ih =>
    rw [List.forall_mem_cons] at h
    by_cases hps : ps = []
    · rw [hps, String.intercalate_singleton, pathComponents_of_isComponent h.1]
    · have htext : ("/".intercalate (s :: ps)).toList =
          s.toList ++ '/' :: ("/".intercalate ps).toList := by
        rw [String.intercalate_cons_of_ne_nil hps]
        simp
      rw [htext, pathComponents_slash, pathComponents_of_isComponent h.1, ih h.2]
      rfl

theorem head?_intercalate {ps : List String} (h : ∀ s ∈ ps, IsComponent s) :
    ("/".intercalate ps).toList.head? ≠ some '/' := by
  cases ps with
  | nil => decide
  | cons s ps =>
    obtain ⟨hempty, -, hslash⟩ := h s List.mem_cons_self
    obtain ⟨c, cs, hs⟩ := List.exists_cons_of_ne_nil
      fun he => hempty (String.toList_eq_nil_iff.mp he)
    have hc : c ≠ '/' := fun he => hslash (by rw [hs, he]; exact List.mem_cons_self)
    by_cases hps : ps = []
    · rw [hps, String.intercalate_singleton, hs]
      simpa using hc
    · rw [String.intercalate_cons_of_ne_nil hps]
      simpa [hs] using hc

theorem parse_text (p : Path) : parse p.text = p := by
  have hcomponents := pathComponents_intercalate p.isComponent
  have hhead := head?_intercalate p.isComponent
  have hslash (cs : List Char) : pathComponents ('/' :: cs) = pathComponents cs :=
    pathComponents_slash [] cs
  by_cases hcurrent : p.anchor = .relative ∧ p.parts = []
  · rw [text, if_pos hcurrent]
    exact Path.ext hcurrent.1.symm hcurrent.2.symm
  · rw [text, if_neg hcurrent]
    generalize hjoined : ("/".intercalate p.parts).toList = cs at hcomponents hhead
    have htext :
        (p.anchor.text ++ "/".intercalate p.parts).toList = p.anchor.text.toList ++ cs := by
      rw [String.toList_append, hjoined]
    apply Path.ext
    · change anchorOf _ = p.anchor
      rw [htext]
      cases ha : p.anchor with
      | relative => cases cs <;> simp_all [Anchor.text, anchorOf]
      | root => cases cs <;> simp_all [Anchor.text, anchorOf]
      | doubleRoot => cases cs <;> simp_all [Anchor.text, anchorOf]
    · change pathComponents _ = p.parts
      rw [htext]
      cases p.anchor with
      | relative => exact hcomponents
      | root => exact (hslash cs).trans hcomponents
      | doubleRoot => exact ((hslash _).trans (hslash cs)).trans hcomponents

theorem text_injective : Function.Injective text := by
  intro p q h
  rw [← parse_text p, ← parse_text q, h]

end Path

/-- A list that is the same when its last item is put in front holds that item only. -/
theorem eq_of_cons_eq_concat {α : Type} {a b : α} {xs : List α} (h : a :: xs = xs ++ [b]) :
    a = b := by
  induction xs generalizing a with
  | nil => exact List.singleton_inj.mp h
  | cons x xs ih =>
    rw [List.cons_append, List.cons.injEq] at h
    exact h.1.trans (ih h.2)

namespace Layout

variable (l : Layout)

theorem elf_ne_tbf : l.elf ≠ l.tbf :=
  (Path.child_append_ne l.binary l.profileDirectory (by decide) (by decide)).symm

theorem tab_name : l.tab.name = lastPiece l.binary ++ ".tab" :=
  Path.name_child_append l.binary targetDirectory (by decide) (by decide)

theorem tbf_name : l.tbf.name = lastPiece l.binary ++ ".tbf" :=
  Path.name_child_append l.binary l.profileDirectory (by decide) (by decide)

theorem tab_name_ne_tbf_name : l.tab.name ≠ l.tbf.name := by
  rw [tab_name, tbf_name]
  intro h
  have hends := congrArg (fun s => s.toList.getLast?) h
  simp at hends

theorem tab_ne_tbf : l.tab ≠ l.tbf := by
  intro h
  exact l.tab_name_ne_tbf_name (congrArg Path.name h)

theorem parts_profileDirectory : l.profileDirectory.parts =
    (if (Path.parse l.triple).anchor = .relative then ["target"] else []) ++
      (Path.parse l.triple).parts ++ ["release"] := by
  rw [profileDirectory, Path.parts_child, Path.parts_child]
  rfl

theorem anchor_profileDirectory :
    l.profileDirectory.anchor = (Path.parse l.triple).anchor := by
  have hprofile : (Path.parse profile).anchor = .relative := by decide
  rw [profileDirectory, Path.anchor_child, if_pos hprofile, Path.anchor_child]
  split
  · next h => exact h.symm
  · rfl

/-- The executable and the bundle would share a path only if the profile were the bundle's
name. -/
theorem elf_ne_tab : l.elf ≠ l.tab := by
  intro h
  have hanchor := congrArg Path.anchor h
  have hparts := congrArg Path.parts h
  rw [elf, tab, Path.anchor_child, Path.anchor_child,
    Path.anchor_parse_append l.binary (by decide)] at hanchor
  rw [elf, tab, Path.parts_child, Path.parts_child,
    Path.anchor_parse_append l.binary (by decide)] at hparts
  by_cases hbinary : (Path.parse l.binary).anchor = .relative
  · rw [if_pos hbinary, if_pos hbinary, anchor_profileDirectory] at hanchor
    have htriple : (Path.parse l.triple).anchor = .relative := hanchor
    rw [if_pos hbinary, if_pos hbinary, parts_profileDirectory, if_pos htriple,
      Path.parts_parse_append l.binary (by decide) (by decide)] at hparts
    have hrest : (Path.parse l.triple).parts ++ "release" :: (Path.parse l.binary).parts =
        frontComponents l.binary ++ [lastPiece l.binary ++ ".tab"] := by
      have htarget : targetDirectory.parts = ["target"] := by decide
      simpa [htarget] using congrArg List.tail hparts
    have hlength := congrArg List.length hrest
    rw [List.length_append, List.length_cons, List.length_append, List.length_singleton]
      at hlength
    rcases Path.parts_parse l.binary with hs | ⟨hs, hpiece⟩
    · rw [hs, List.length_append, List.length_singleton] at hlength
      omega
    · -- The triple has no components, and the binary's are shifted by the profile.
      rw [hs] at hlength hrest
      have htriple : (Path.parse l.triple).parts = [] := List.length_eq_zero_iff.mp (by omega)
      rw [htriple, List.nil_append] at hrest
      have hname := eq_of_cons_eq_concat hrest
      rcases hpiece with hpiece | hpiece
      · rw [hpiece] at hname
        exact absurd hname (by decide)
      · rw [hpiece] at hname
        exact absurd hname (by decide)
  · rw [if_neg hbinary, if_neg hbinary, List.nil_append, List.nil_append] at hparts
    exact Path.parse_append_ne l.binary (by decide) (by decide) hparts.symm

theorem getLast?_tab : l.tab.parts.getLast? = some l.tab.name := by
  rw [tab_name]
  exact Path.getLast?_child_append l.binary targetDirectory (by decide) (by decide)

theorem getLast?_tbf : l.tbf.parts.getLast? = some l.tbf.name := by
  rw [tbf_name]
  exact Path.getLast?_child_append l.binary l.profileDirectory (by decide) (by decide)

theorem tab_name_ordinary : IsComponent l.tab.name ∧ l.tab.name ≠ ".." := by
  rw [tab_name]
  exact ordinary_lastPiece_append l.binary (by decide) (by decide)

theorem tbf_name_ordinary : IsComponent l.tbf.name ∧ l.tbf.name ≠ ".." := by
  rw [tbf_name]
  exact ordinary_lastPiece_append l.binary (by decide) (by decide)

end Layout

theorem Path.getLast?_join {p q : Path} {c : String} (h : q.parts.getLast? = some c) :
    (p / q).parts.getLast? = some c := by
  change (join p q).parts.getLast? = some c
  unfold join
  split
  · rw [List.getLast?_append, h, Option.some_or]
  · exact h

theorem Path.name_join {p q : Path} {c : String} (h : q.parts.getLast? = some c) :
    (p / q).name = c := by
  rw [name, getLast?_join h, Option.getD_some]

namespace CommandLine

open Layout

theorem artifacts_names (workspace : Path) (l : Layout) (there : Bool) :
    (artifacts workspace l there).map (·.name) =
      l.tab.name :: if there then [l.tbf.name] else [] := by
  have htab := Path.name_join (p := workspace) l.getLast?_tab
  have htbf := Path.name_join (p := workspace) l.getLast?_tbf
  cases there with
  | true => simp [artifacts, htab, htbf]
  | false => simp [artifacts, htab]

/-- The paths of the three artifacts differ, and so do the output and the input of the packaging
tool. The bundle and the binary format are named after the last piece of the binary, and the names
under which they are stored in a bundle are different names of single files. -/
theorem artifacts_apart (host : Host) (workspace : Path) (config : Packaging) (r : Packaged)
    (w : World) :
    (r.layout.elf ≠ r.layout.tab ∧ r.layout.elf ≠ r.layout.tbf ∧
      r.layout.tab ≠ r.layout.tbf) ∧
    (∃ front, packageCommand r.layout config =
        front ++ ["--output-file", r.layout.tab.text, r.layout.elf.text] ∧
      r.layout.tab.text ≠ r.layout.elf.text) ∧
    (r.layout.tab.name = lastPiece r.layout.binary ++ ".tab" ∧
      r.layout.tbf.name = lastPiece r.layout.binary ++ ".tbf") ∧
    ((bundleMembers host workspace r).exec w).1.map (fun members => members.map (·.name)) =
      (match tbfAt host workspace r w.files with
      | .ok there => .ok (r.layout.tab.name :: if there then [r.layout.tbf.name] else [])
      | .error why => .error (Fault.ofRefusal why (some (workspace / r.layout.tbf).text))) ∧
    r.layout.tab.name ≠ r.layout.tbf.name ∧
    (IsComponent r.layout.tab.name ∧ r.layout.tab.name ≠ "..") ∧
    (IsComponent r.layout.tbf.name ∧ r.layout.tbf.name ≠ "..") := by
  have hcommand : packageCommand r.layout config =
      (config.elf2tab ++ ["--package-name", r.layout.binary] ++ packageMetadata) ++
        ["--output-file", r.layout.tab.text, r.layout.elf.text] := rfl
  have htext : r.layout.tab.text ≠ r.layout.elf.text :=
    fun h => r.layout.elf_ne_tab (Path.text_injective h).symm
  refine ⟨⟨elf_ne_tab _, elf_ne_tbf _, tab_ne_tbf _⟩, ⟨_, hcommand, htext⟩,
    ⟨tab_name _, tbf_name _⟩, ?_, tab_name_ne_tbf_name _, tab_name_ordinary _,
    tbf_name_ordinary _⟩
  rw [exec_bundleMembers]
  cases tbfAt host workspace r w.files with
  | error why => rfl
  | ok there => exact congrArg Except.ok (artifacts_names workspace r.layout there)

end CommandLine

end TabPackager
