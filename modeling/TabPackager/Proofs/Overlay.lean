import TabPackager.Proofs.KeptEntries
import Mathlib.Logic.Function.Basic

/-!
# Files laid over a file system

A file system together with some files of one's own, put where nothing stood and shared with
nobody. Own files can be written, moved onto each other and taken away, and none of it touches
anything else: when all own files are gone, everything is as it was.
-/

namespace TabPackager.FileSystem

/-- The file system is the base with files of one's own, given by their places and
identities. -/
structure Overlaid (base : FileSystem) (own : Location → Option Nat) (fs : FileSystem) :
    Prop where
  elsewhere : ∀ loc, own loc = none → fs.lookup loc = base.lookup loc
  here : ∀ loc i, own loc = some i → ∃ k m, fs.lookup loc = some (.file i k m)
  vacant : ∀ loc i, own loc = some i → base.lookup loc = none
  unshared : ∀ loc i, own loc = some i → ∀ loc' k m, base.lookup loc' ≠ some (.file i k m)
  distinct : ∀ loc loc' i, own loc = some i → own loc' = some i → loc = loc'

def single (loc : Location) (i : Nat) : Location → Option Nat :=
  Function.update (fun _ => none) loc (some i)

@[simp] theorem single_self (loc : Location) (i : Nat) : single loc i loc = some i := by
  simp [single]

theorem single_of_ne {loc loc' : Location} (h : loc' ≠ loc) (i : Nat) :
    single loc i loc' = none := by
  simp [single, h]

namespace Overlaid

variable {base fs : FileSystem} {own : Location → Option Nat} {loc loc' : Location} {i j : Nat}

theorem refl (base : FileSystem) : Overlaid base (fun _ => none) base := by
  constructor <;> simp

theorem entriesKept (h : Overlaid base own fs) : EntriesKept base fs := by
  intro loc e he
  cases ho : own loc with
  | none => rw [h.elsewhere loc ho, he]
  | some i =>
    rw [h.vacant loc i ho] at he
    cases he

theorem waysKept (h : Overlaid base own fs) : WaysKept base fs := h.entriesKept.waysKept

theorem waysKept_base (h : Overlaid base own fs) : WaysKept fs base := by
  intro loc e he hi
  cases ho : own loc with
  | none => rw [← h.elsewhere loc ho, he]
  | some i =>
    obtain ⟨k, m, hl⟩ := h.here loc i ho
    rw [hl] at he
    cases he
    cases hi

theorem ne_nil (h : Overlaid base own fs) (ho : own loc = some i) : loc ≠ [] := by
  rintro rfl
  have := h.vacant [] i ho
  simp at this

theorem own_eq_none (h : Overlaid base own fs) (hl : fs.lookup loc = none) : own loc = none := by
  cases ho : own loc with
  | none => rfl
  | some i =>
    obtain ⟨k, m, hf⟩ := h.here loc i ho
    rw [hf] at hl
    cases hl

theorem own_eq_none_of_base {e : Entry} (h : Overlaid base own fs)
    (hl : base.lookup loc = some e) : own loc = none := by
  cases ho : own loc with
  | none => rfl
  | some i =>
    rw [h.vacant loc i ho] at hl
    cases hl

/-- A file put where the base has nothing is one's own, if its identity is not taken. -/
theorem put (h : Overlaid base own fs) (hb : base.lookup loc = none)
    (hi : ∀ l k m, base.lookup l ≠ some (.file i k m)) (hd : ∀ l, l ≠ loc → own l ≠ some i)
    (k : Content) (m : Int) :
    Overlaid base (Function.update own loc (some i)) (fs.insert loc (.file i k m)) := by
  have hloc : loc ≠ [] := by
    rintro rfl
    simp at hb
  constructor
  case elsewhere =>
    intro l hl
    by_cases hll : l = loc
    · simp [hll] at hl
    · rw [lookup_insert hloc, if_neg hll]
      exact h.elsewhere l (by simpa [hll] using hl)
  case here =>
    intro l n hl
    by_cases hll : l = loc
    · subst hll
      rw [Function.update_self, Option.some.injEq] at hl
      exact ⟨k, m, by rw [lookup_insert hloc, if_pos rfl, hl]⟩
    · rw [lookup_insert hloc, if_neg hll]
      exact h.here l n (by simpa [hll] using hl)
  case vacant =>
    intro l n hl
    by_cases hll : l = loc
    · rw [hll, hb]
    · exact h.vacant l n (by simpa [hll] using hl)
  case unshared =>
    intro l n hl
    by_cases hll : l = loc
    · subst hll
      rw [Function.update_self, Option.some.injEq] at hl
      exact hl ▸ hi
    · exact h.unshared l n (by simpa [hll] using hl)
  case distinct =>
    intro l l' n hl hl'
    by_cases hll : l = loc <;> by_cases hll' : l' = loc
    · rw [hll, hll']
    · subst hll
      rw [Function.update_self, Option.some.injEq] at hl
      exact absurd (by simpa [hll'] using hl') (hl ▸ hd l' hll')
    · subst hll'
      rw [Function.update_self, Option.some.injEq] at hl'
      exact absurd (by simpa [hll] using hl) (hl' ▸ hd l hll)
    · exact h.distinct l l' n (by simpa [hll] using hl) (by simpa [hll'] using hl')

theorem create (h : Overlaid base own fs) (hn : fs.lookup loc = none) (k : Content) (m : Int) :
    Overlaid base (Function.update own loc (some fs.freshIdentity))
      (fs.insert loc (.file fs.freshIdentity k m)) := by
  refine h.put ?_ ?_ ?_ k m
  · rw [← h.elsewhere loc (h.own_eq_none hn), hn]
  · intro l k' m' hf
    rw [← h.elsewhere l (h.own_eq_none_of_base hf)] at hf
    have := lt_freshIdentity hf rfl
    omega
  · intro l _ ho
    obtain ⟨k', m', hf⟩ := h.here l _ ho
    have := lt_freshIdentity hf rfl
    omega

theorem lookup_replaceContent_of_ne (h : Overlaid base own fs) (ho : own loc = some i)
    (hne : loc' ≠ loc) (k : Content) (m : Int) :
    (fs.replaceContent i k m).lookup loc' = fs.lookup loc' := by
  rw [lookup_replaceContent]
  cases hl : fs.lookup loc' with
  | none => rfl
  | some e =>
    have hi : Entry.identity? e ≠ some i := by
      intro hi
      cases e with
      | directory => cases hi
      | link t m' => cases hi
      | file j k' m' =>
        obtain rfl : j = i := Option.some.inj hi
        cases ho' : own loc' with
        | none =>
          rw [h.elsewhere loc' ho'] at hl
          exact h.unshared loc j ho loc' k' m' hl
        | some n =>
          obtain ⟨k'', m'', hf⟩ := h.here loc' n ho'
          rw [hf] at hl
          cases hl
          exact hne (h.distinct loc' loc j ho' ho)
    simp [Entry.withContent, hi]

theorem lookup_replaceContent_self (h : Overlaid base own fs) (ho : own loc = some i)
    (k : Content) (m : Int) : (fs.replaceContent i k m).lookup loc = some (.file i k m) := by
  obtain ⟨k', m', hl⟩ := h.here loc i ho
  rw [lookup_replaceContent, hl]
  simp [Entry.withContent, Entry.identity?]

theorem replaceContent (h : Overlaid base own fs) (ho : own loc = some i) (k : Content)
    (m : Int) : Overlaid base own (fs.replaceContent i k m) where
  elsewhere l hl := by
    have hne : l ≠ loc := by
      rintro rfl
      rw [ho] at hl
      cases hl
    rw [h.lookup_replaceContent_of_ne ho hne, h.elsewhere l hl]
  here l n hl := by
    by_cases hll : l = loc
    · subst hll
      obtain rfl : i = n := Option.some.inj (ho.symm.trans hl)
      exact ⟨k, m, h.lookup_replaceContent_self ho k m⟩
    · rw [h.lookup_replaceContent_of_ne ho hll]
      exact h.here l n hl
  vacant := h.vacant
  unshared := h.unshared
  distinct := h.distinct

theorem erase (h : Overlaid base own fs) (ho : own loc = some i) :
    Overlaid base (Function.update own loc none) (fs.erase loc) := by
  have hloc := h.ne_nil ho
  constructor
  case elsewhere =>
    intro l hl
    rw [lookup_erase hloc]
    by_cases hll : l = loc
    · rw [if_pos hll, hll, h.vacant loc i ho]
    · rw [if_neg hll]
      exact h.elsewhere l (by simpa [hll] using hl)
  case here =>
    intro l n hl
    by_cases hll : l = loc
    · simp [hll] at hl
    · rw [lookup_erase hloc, if_neg hll]
      exact h.here l n (by simpa [hll] using hl)
  case vacant =>
    intro l n hl
    by_cases hll : l = loc
    · simp [hll] at hl
    · exact h.vacant l n (by simpa [hll] using hl)
  case unshared =>
    intro l n hl
    by_cases hll : l = loc
    · simp [hll] at hl
    · exact h.unshared l n (by simpa [hll] using hl)
  case distinct =>
    intro l l' n hl hl'
    by_cases hll : l = loc
    · simp [hll] at hl
    · by_cases hll' : l' = loc
      · simp [hll'] at hl'
      · exact h.distinct l l' n (by simpa [hll] using hl) (by simpa [hll'] using hl')

theorem move (h : Overlaid base own fs) (ho : own loc = some i) (ho' : own loc' = some j)
    (k : Content) (m : Int) :
    Overlaid base (Function.update (Function.update own loc none) loc' (some i))
      ((fs.erase loc).insert loc' (.file i k m)) := by
  refine (h.erase ho).put (h.vacant loc' j ho') (h.unshared loc i ho) ?_ k m
  intro l _ hl
  by_cases hll : l = loc
  · simp [hll] at hl
  · exact hll (h.distinct l loc i (by simpa [hll] using hl) ho)

/-- An own file can be put anywhere, which changes nothing else. -/
theorem lookup_placed (h : Overlaid base (single loc i) fs) (hne : loc' ≠ []) (e : Entry)
    {l : Location} (hl : l ≠ loc') :
    ((fs.erase loc).insert loc' e).lookup l = base.lookup l := by
  have hi := single_self loc i
  rw [lookup_insert hne, if_neg hl, lookup_erase (h.ne_nil hi)]
  by_cases hll : l = loc
  · rw [if_pos hll, hll, h.vacant loc i hi]
  · rw [if_neg hll, h.elsewhere l (single_of_ne hll i)]

end Overlaid

end TabPackager.FileSystem
