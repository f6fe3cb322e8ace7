import TabPackager.Config.Packaging
import TabPackager.Proofs.Results
import TabPackager.Proofs.Trimming

/-!
# Fields of a configuration

What is read from the value of one key: the texts for which it stands, trimmed and without the
blank ones, or the default where the key is absent.
-/

namespace TabPackager

namespace Config

open Text

def Value.items? : Value → Option (List Value)
  | .list items => some items
  | .tuple items => some items
  | .bytes data => some (data.map fun b => .int b.toNat)
  | _ => none

/-- The value stands for the texts: null for none, a text for itself, a sequence for its
items. -/
inductive Value.Lists : Value → List String → Prop
  | null : Lists .null []
  | text (s : String) : Lists (.text s) [s]
  | sequence {v : Value} {ss : List String} (h : v.items? = some (ss.map .text)) : Lists v ss

/-- The texts without blank ends, and without those that are blank all over. -/
def trimmedTexts (ss : List String) : List String := (ss.map trim).filter (· ≠ "")

theorem isTrimmed_of_mem_trimmedTexts {ss : List String} {s : String}
    (h : s ∈ trimmedTexts ss) : IsTrimmed s := by
  simp only [trimmedTexts, List.mem_filter, List.mem_map, decide_eq_true_eq] at h
  obtain ⟨⟨t, -, rfl⟩, hne⟩ := h
  exact isTrimmed_trim hne

theorem trimmedItems?_eq_some_iff {items : List Value} {out : List String} :
    trimmedItems? items = some out ↔ ∃ ss, items = ss.map .text ∧ out = trimmedTexts ss := by
  induction items generalizing out with
  | nil => simp [trimmedItems?, trimmedTexts, eq_comm]
  | cons v items ih =>
    cases v with
    | text s =>
      simp only [trimmedItems?, Option.map_eq_some_iff, ih]
      constructor
      · rintro ⟨rest, ⟨ss, rfl, rfl⟩, rfl⟩
        refine ⟨s :: ss, rfl, ?_⟩
        simp only [trimmedTexts, List.map_cons, List.filter_cons]
        split <;> simp_all
      · rintro ⟨ss, hss, rfl⟩
        cases ss with
        | nil => cases hss
        | cons t ts =>
          rw [List.map_cons, List.cons.injEq, Value.text.injEq] at hss
          obtain ⟨rfl, rfl⟩ := hss
          refine ⟨trimmedTexts ts, ⟨ts, rfl, rfl⟩, ?_⟩
          simp only [trimmedTexts, List.map_cons, List.filter_cons]
          split <;> simp_all
    | _ =>
      simp only [trimmedItems?, reduceCtorEq, false_iff, not_exists, not_and]
      intro ss hss
      cases ss <;> cases hss

theorem stringList_of_items {v : Value} {items : List Value} (h : v.items? = some items)
    (field : String) : stringList field v = match trimmedItems? items with
      | some ss => .ok ss
      | none => .error (.notStrings field) := by
  cases v with
  | list items' =>
    cases h
    rfl
  | tuple items' =>
    cases h
    rfl
  | bytes data =>
    cases h
    cases data <;> rfl
  | _ => cases h

theorem Value.lists_iff_of_items {v : Value} {items : List Value} (h : v.items? = some items)
    (ss : List String) : v.Lists ss ↔ items = ss.map .text := by
  constructor
  · intro hlists
    cases hlists with
    | null => cases h
    | text s => cases h
    | sequence h' => exact Option.some.inj (h.symm.trans h')
  · rintro rfl
    exact .sequence h

theorem stringList_eq_ok_iff {field : String} {v : Value} {out : List String} :
    stringList field v = .ok out ↔ ∃ ss, v.Lists ss ∧ out = trimmedTexts ss := by
  cases hv : v.items? with
  | some items =>
    simp only [stringList_of_items hv, Value.lists_iff_of_items hv, ← trimmedItems?_eq_some_iff]
    cases trimmedItems? items <;> simp
  | none =>
    have hlists (ss : List String) :
        v.Lists ss ↔ v = .null ∧ ss = [] ∨ ∃ s, v = .text s ∧ ss = [s] := by
      constructor
      · intro h
        cases h with
        | null => exact .inl ⟨rfl, rfl⟩
        | text s => exact .inr ⟨s, rfl, rfl⟩
        | sequence h => cases hv.symm.trans h
      · rintro (⟨rfl, rfl⟩ | ⟨s, rfl, rfl⟩)
        · exact .null
        · exact .text s
    simp only [hlists]
    cases v with
    | null => simp [stringList, trimmedTexts, eq_comm]
    | text s =>
      by_cases hs : trim s = "" <;> simp [stringList, trimmedTexts, hs, eq_comm]
    | list items => cases hv
    | tuple items => cases hv
    | bytes data => cases hv
    | _ => simp [stringList]

theorem isShowable_of_stringList {field : String} {v : Value} {e : Error}
    (h : stringList field v = .error e) : e.isShowable = true := by
  unfold stringList at h
  grind [Error.isShowable]

/-- All keys are among the given names. -/
def Entries.KeysIn (es : Entries) (known : List String) : Prop :=
  ∀ k ∈ es.map Prod.fst, ∃ s ∈ known, k = .text s

theorem unknownKeys_eq_nil_iff {known : List String} {es : Entries} :
    unknownKeys known es = [] ↔ es.KeysIn known := by
  rw [unknownKeys, List.filter_eq_nil_iff]
  refine forall₂_congr fun k _ => ?_
  cases k <;> simp

theorem table_eq_ok_iff {es t : Entries} {name : String} {known : List String} :
    table es name known = .ok t ↔ es.get? name = none ∧ t = [] ∨
      es.get? name = some (.map t) ∧ t.KeysIn known := by
  unfold table
  cases es.get? name with
  | none => simp [eq_comm]
  | some v =>
    cases v with
    | map t' =>
      dsimp only
      split
      · next h =>
        rw [List.isEmpty_iff, unknownKeys_eq_nil_iff] at h
        simp only [Except.ok.injEq, reduceCtorEq, false_and, Option.some.injEq, Value.map.injEq,
          false_or]
        exact ⟨fun ht => ⟨ht, ht ▸ h⟩, And.left⟩
      · next h =>
        rw [List.isEmpty_iff, unknownKeys_eq_nil_iff] at h
        simp only [reduceCtorEq, false_and, Option.some.injEq, Value.map.injEq, false_or,
          false_iff, not_and]
        rintro rfl
        exact h
    | _ => simp

def field? (es : Entries) (name key : String) : Option Value :=
  match es.get? name with
  | some (.map t) => Entries.get? t key
  | _ => none

theorem get?_of_table {es t : Entries} {name : String} {known : List String}
    (h : table es name known = .ok t) (key : String) : t.get? key = field? es name key := by
  rcases table_eq_ok_iff.mp h with ⟨hn, rfl⟩ | ⟨hs, -⟩
  · rw [field?, hn]
    rfl
  · rw [field?, hs]

/-- What is read from a key: the default where it is absent, else the texts for which its value
stands. -/
def ReadsAs (default out : List String) : Option Value → Prop
  | none => out = default
  | some v => ∃ ss, v.Lists ss ∧ out = trimmedTexts ss

theorem ReadsAs.unique {default out out' : List String} {o : Option Value}
    (h : ReadsAs default out o) (h' : ReadsAs default out' o) : out = out' := by
  cases o with
  | none => exact h.trans h'.symm
  | some v =>
    have hread : stringList "" v = .ok out := stringList_eq_ok_iff.mpr h
    exact Except.ok.inj (hread.symm.trans (stringList_eq_ok_iff.mpr h'))

theorem toolCommand_eq_ok_iff {tools : Entries} {key : String} {default out : List String}
    (hdefault : default ≠ []) : toolCommand tools key default = .ok out ↔
      ReadsAs default out (tools.get? key) ∧ out ≠ [] := by
  unfold toolCommand
  cases tools.get? key with
  | none =>
    simp only [Except.ok.injEq, ReadsAs]
    constructor
    · rintro rfl
      exact ⟨rfl, hdefault⟩
    · exact fun h => h.1.symm
  | some v =>
    simp only [bind_eq_ok, stringList_eq_ok_iff, ReadsAs]
    constructor
    · rintro ⟨command, hread, h⟩
      split at h
      · cases h
      · next hne =>
        cases h
        exact ⟨hread, by simpa using hne⟩
    · rintro ⟨hread, hne⟩
      exact ⟨out, hread, by simpa using hne⟩

theorem arguments_eq_ok_iff {build : Entries} {out : List String} :
    stringList "build.extra_args" ((build.get? "extra_args").getD .null) = .ok out ↔
      ReadsAs [] out (build.get? "extra_args") := by
  rw [stringList_eq_ok_iff]
  cases build.get? "extra_args" with
  | none =>
    constructor
    · rintro ⟨ss, h, rfl⟩
      cases h with
      | null => rfl
      | sequence h => cases h
    · rintro rfl
      exact ⟨[], .null, rfl⟩
  | some v => rfl

end Config

end TabPackager
