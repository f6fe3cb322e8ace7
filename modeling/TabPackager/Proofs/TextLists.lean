import Mathlib.Data.List.Forall2
import Mathlib.Data.Set.List
import TabPackager.Proofs.Acceptance

/-!
# Values as lists of texts

Reading a value as a list of texts fails exactly where the value is neither null nor a text nor a
sequence, or a sequence with an item that is no text. Otherwise it gives the items that are not
blank, in their order and without their blank ends. So what has been read is read again as it is,
a text alone is read like the list that holds only this text, and two sequences, one behind the
other, are read as each of them alone and refused if one of them is.
-/

namespace TabPackager.Config

open Text

variable {field : String} {v : Value} {items a b : List Value} {ss out : List String}

/-- The second list holds the texts of the first that are not blank, in their order and without
their blank ends. -/
def KeptTexts (ss out : List String) : Prop :=
  List.Forall₂ TrimsTo (ss.filter fun s => !s.toList.all isBlank) out

theorem trimmedTexts_eq_map_filter (ss : List String) :
    trimmedTexts ss = (ss.filter fun s => !s.toList.all isBlank).map trim := by
  rw [trimmedTexts, List.filter_map]
  congr 1
  refine List.filter_congr fun s _ => ?_
  rw [Function.comp_apply, decide_not, Bool.not_inj_iff, Bool.eq_iff_iff, decide_eq_true_iff,
    trim_eq_empty_iff, List.all_eq_true]

theorem keptTexts_iff : KeptTexts ss out ↔ out = trimmedTexts ss := by
  have hfun : TrimsTo = fun s t => trim s = t :=
    funext fun s => funext fun t => propext trimsTo_iff
  rw [KeptTexts, hfun, trimmedTexts_eq_map_filter, ← List.forall₂_map_left_iff (f := trim),
    List.forall₂_eq_eq_eq, eq_comm]

theorem trimmedTexts_append (ss ts : List String) :
    trimmedTexts (ss ++ ts) = trimmedTexts ss ++ trimmedTexts ts := by
  rw [trimmedTexts, List.map_append, List.filter_append, trimmedTexts, trimmedTexts]

theorem trimmedTexts_eq_self (h : ∀ s ∈ ss, IsTrimmed s) : trimmedTexts ss = ss := by
  have hmap : ss.map trim = ss :=
    (List.map_congr_left fun s hs => (h s hs).trim_eq).trans (List.map_id ss)
  rw [trimmedTexts, hmap, List.filter_eq_self]
  exact fun s hs => decide_eq_true (h s hs).ne_empty

theorem stringList_eq_ok_iff_keptTexts :
    stringList field v = .ok out ↔ ∃ ss, v.Lists ss ∧ KeptTexts ss out := by
  simp only [stringList_eq_ok_iff, keptTexts_iff]

theorem isTrimmed_of_stringList (h : stringList field v = .ok out) : ∀ t ∈ out, IsTrimmed t := by
  obtain ⟨ss, -, rfl⟩ := stringList_eq_ok_iff.mp h
  exact fun t ht => isTrimmed_of_mem_trimmedTexts ht

/-- What has been read for one field is read as it is for every other. -/
theorem stringList_read_again (h : stringList field v = .ok out) (field' : String) :
    stringList field' (.list (out.map .text)) = .ok out := by
  have hself : trimmedTexts out = out := trimmedTexts_eq_self (isTrimmed_of_stringList h)
  exact stringList_eq_ok_iff.mpr ⟨out, .sequence rfl, hself.symm⟩

theorem stringList_text (field s : String) :
    stringList field (.text s) = stringList field (.list [.text s]) := by
  by_cases hs : trim s = "" <;> simp [stringList, trimmedItems?, hs]

def Value.IsOther (v : Value) : Prop := v ≠ .null ∧ (∀ s, v ≠ .text s) ∧ v.items? = none

def Value.IsMixed (v : Value) : Prop :=
  ∃ items, v.items? = some items ∧ ∃ i ∈ items, ∀ s, i ≠ .text s

theorem Value.not_isOther_of_items (h : v.items? = some items) : ¬v.IsOther := fun hother =>
  Option.some_ne_none items (h.symm.trans hother.2.2)

theorem Value.isMixed_iff_of_items (h : v.items? = some items) :
    v.IsMixed ↔ ∃ i ∈ items, ∀ s, i ≠ .text s := by
  simp [Value.IsMixed, h]

theorem trimmedItems?_eq_none_iff :
    trimmedItems? items = none ↔ ∃ i ∈ items, ∀ s, i ≠ .text s := by
  have htexts : (∃ ss : List String, ss.map Value.text = items) ↔
      ∀ i ∈ items, ∃ s, Value.text s = i :=
    Set.ext_iff.mp (Set.range_list_map Value.text) items
  rw [← not_iff_not, ← ne_eq, Option.ne_none_iff_exists']
  simp only [trimmedItems?_eq_some_iff]
  constructor
  · rintro ⟨_, ss, rfl, rfl⟩ ⟨i, hi, hother⟩
    obtain ⟨s, -, rfl⟩ := List.mem_map.mp hi
    exact hother s rfl
  · intro h
    simp only [not_exists, not_and, not_forall, not_not] at h
    obtain ⟨ss, rfl⟩ := htexts.mpr fun i hi => (h i hi).imp fun _ => Eq.symm
    exact ⟨_, ss, rfl, rfl⟩

theorem stringList_eq_error_iff {e : Error} : stringList field v = .error e ↔
    v.IsOther ∧ e = .notStringList field ∨ v.IsMixed ∧ e = .notStrings field := by
  cases hv : v.items? with
  | some items =>
    have hother := Value.not_isOther_of_items hv
    rw [stringList_of_items hv, Value.isMixed_iff_of_items hv, ← trimmedItems?_eq_none_iff]
    cases trimmedItems? items <;> simp [hother, eq_comm]
  | none =>
    have hmixed : ¬v.IsMixed := by
      rintro ⟨items, hitems, -⟩
      cases hv.symm.trans hitems
    simp only [hmixed, false_and, or_false]
    cases v with
    | null => simp [stringList, Value.IsOther]
    | text s => simp [stringList, Value.IsOther]
    | list items => cases hv
    | tuple items => cases hv
    | bytes data => cases hv
    | _ => simp [stringList, Value.IsOther, Value.items?, eq_comm]

theorem exists_error_iff : (∃ e, stringList field v = .error e) ↔ v.IsOther ∨ v.IsMixed := by
  simp [stringList_eq_error_iff, exists_or]

theorem exists_keptTexts (field : String) (h : ¬(v.IsOther ∨ v.IsMixed)) :
    ∃ ss out, v.Lists ss ∧ stringList field v = .ok out ∧ KeptTexts ss out := by
  cases hread : stringList field v with
  | error e => exact absurd (exists_error_iff.mp ⟨e, hread⟩) h
  | ok out =>
    obtain ⟨ss, hlists, hkept⟩ := stringList_eq_ok_iff_keptTexts.mp hread
    exact ⟨ss, out, hlists, rfl, hkept⟩

section

variable {u w : Value} (hu : u.items? = some a) (hv : v.items? = some b)
  (hw : w.items? = some (a ++ b))
include hu hv hw

/-- The texts of two sequences, one behind the other, are those of the first and then those of
the second. -/
theorem stringList_append : stringList field w = .ok out ↔
    ∃ x y, stringList field u = .ok x ∧ stringList field v = .ok y ∧ out = x ++ y := by
  simp only [stringList_eq_ok_iff, Value.lists_iff_of_items hu, Value.lists_iff_of_items hv,
    Value.lists_iff_of_items hw]
  constructor
  · rintro ⟨ss, hss, rfl⟩
    obtain ⟨ts, us, rfl, rfl, rfl⟩ := List.append_eq_map_iff.mp hss
    exact ⟨_, _, ⟨ts, rfl, rfl⟩, ⟨us, rfl, rfl⟩, trimmedTexts_append ts us⟩
  · rintro ⟨_, _, ⟨ts, rfl, rfl⟩, ⟨us, rfl, rfl⟩, rfl⟩
    exact ⟨ts ++ us, (List.map_append ..).symm, (trimmedTexts_append ts us).symm⟩

theorem isMixed_append : w.IsMixed ↔ u.IsMixed ∨ v.IsMixed := by
  simp only [Value.isMixed_iff_of_items hu, Value.isMixed_iff_of_items hv,
    Value.isMixed_iff_of_items hw, List.mem_append, or_and_right, exists_or]

theorem exists_error_append_iff : (∃ e, stringList field w = .error e) ↔
    (∃ e, stringList field u = .error e) ∨ ∃ e, stringList field v = .error e := by
  simp only [exists_error_iff, Value.not_isOther_of_items hu, Value.not_isOther_of_items hv,
    Value.not_isOther_of_items hw, false_or]
  exact isMixed_append hu hv hw

end

theorem items?_of_mem {sequence : List Value → Value} (h : sequence ∈ [Value.list, Value.tuple])
    (items : List Value) : (sequence items).items? = some items := by
  rcases List.mem_pair.mp h with rfl | rfl <;> rfl

/-- A way to read the value of a field as a list of texts: what it refuses and how, what it gives
for every other value, and that nothing changes when a result is read again, when a text comes in a
list of its own, or when a sequence is read in two parts. -/
structure ReadsTexts (read : String → Value → Except Error (List String)) : Prop where
  refuses : ∀ field v e, read field v = .error e ↔
    v.IsOther ∧ e = .notStringList field ∨ v.IsMixed ∧ e = .notStrings field
  returns : ∀ field v, ¬(v.IsOther ∨ v.IsMixed) →
    ∃ ss out, v.Lists ss ∧ read field v = .ok out ∧ KeptTexts ss out
  trimmed : ∀ field v out, read field v = .ok out → ∀ t ∈ out, t ≠ "" ∧ trim t = t
  again : ∀ field v out, read field v = .ok out →
    ∀ field', read field' (.list (out.map .text)) = .ok out
  single : ∀ field s, read field (.text s) = read field (.list [.text s])
  joined : ∀ field, ∀ sequence ∈ [Value.list, Value.tuple], ∀ a b out,
    read field (sequence (a ++ b)) = .ok out ↔
      ∃ x y, read field (sequence a) = .ok x ∧ read field (sequence b) = .ok y ∧ out = x ++ y
  refusesJoined : ∀ field, ∀ sequence ∈ [Value.list, Value.tuple], ∀ a b,
    (∃ e, read field (sequence (a ++ b)) = .error e) ↔
      (∃ e, read field (sequence a) = .error e) ∨ ∃ e, read field (sequence b) = .error e

theorem stringList_readsTexts : ReadsTexts stringList where
  refuses field v e := stringList_eq_error_iff
  returns field v h := exists_keptTexts field h
  trimmed field v out h t ht := by
    have htrimmed : IsTrimmed t := isTrimmed_of_stringList h t ht
    exact ⟨htrimmed.ne_empty, htrimmed.trim_eq⟩
  again field v out h field' := stringList_read_again h field'
  single field s := stringList_text field s
  joined field sequence h a b out :=
    stringList_append (items?_of_mem h a) (items?_of_mem h b) (items?_of_mem h (a ++ b))
  refusesJoined field sequence h a b :=
    exists_error_append_iff (items?_of_mem h a) (items?_of_mem h b) (items?_of_mem h (a ++ b))

example : stringList "x" (.tuple [.text "\x1c a\u2003b\n", .text "\u3000", .text "c"]) =
    .ok ["a\u2003b", "c"] := by rfl

end TabPackager.Config
