import TabPackager.FileSystem.Operations
import TabPackager.Path

/-!
# Where paths lead

A path whose last component is an ordinary name leads to one place, which is the name below the
directory that the rest of the path stands for. It leads there in every file system that keeps the
directories and links on the way, whatever else changes. The operations on files are restated in
terms of the place to which a path leads.
-/

namespace TabPackager.FileSystem

def IsOrdinary (c : String) : Prop := c ≠ "" ∧ c ≠ "." ∧ c ≠ ".."

def spotAt (fs : FileSystem) (d : Location) (c : String) : Spot :=
  match fs.lookup (d ++ [c]) with
  | none => .free d c
  | some _ => .found (d ++ [c])

/-- All directories and links of one file system stand in the other, too. -/
def WaysKept (a b : FileSystem) : Prop :=
  ∀ loc e, a.lookup loc = some e → Entry.identity? e = none → b.lookup loc = some e

theorem WaysKept.refl (a : FileSystem) : WaysKept a a := fun _ _ h _ => h

theorem WaysKept.directory {a b : FileSystem} (h : WaysKept a b) {loc : Location}
    (hl : a.lookup loc = some .directory) : b.lookup loc = some .directory :=
  h loc .directory hl rfl

theorem WaysKept.link {a b : FileSystem} (h : WaysKept a b) {loc : Location} {t : String}
    {m : Int} (hl : a.lookup loc = some (.link t m)) : b.lookup loc = some (.link t m) :=
  h loc (.link t m) hl rfl

section

variable {a b : FileSystem} {here : Location} {c : String} {cs ds : List String}

theorem descend_empty (fs : FileSystem) (follow : Bool) (hh : fs.lookup here = some .directory)
    (hc : c = "" ∨ c = ".") (rest : List String) :
    fs.descend follow here (c :: rest) = fs.descend follow here rest := by
  rw [descend, hh]
  simp only [hc, if_true]

theorem descend_up (fs : FileSystem) (follow : Bool) (hh : fs.lookup here = some .directory)
    (rest : List String) :
    fs.descend follow here (".." :: rest) = fs.descend follow here.dropLast rest := by
  rw [descend, hh]
  simp

theorem descend_ordinary (fs : FileSystem) (follow : Bool)
    (hh : fs.lookup here = some .directory) (hc : IsOrdinary c) (rest : List String) :
    fs.descend follow here (c :: rest) =
      if nameLimit < c.utf8ByteSize then .refused .nameTooLong
      else match fs.lookup (here ++ [c]) with
        | none => if rest.isEmpty then .arrived (.free here c) else .refused .noEntry
        | some (.link target _) =>
          if rest.isEmpty && !follow then .arrived (.found (here ++ [c]))
          else .detour here target rest
        | some _ => fs.descend follow (here ++ [c]) rest := by
  have hpass : ¬(c = "" ∨ c = ".") := not_or.mpr ⟨hc.1, hc.2.1⟩
  rw [descend, hh]
  exact (if_neg hpass).trans (if_neg hc.2.2)

theorem descend_elsewhere (fs : FileSystem) (follow : Bool)
    (hh : fs.lookup here ≠ some .directory) (hcs : cs ≠ []) :
    ∃ why, fs.descend follow here cs = .refused why := by
  cases cs with
  | nil => exact absurd rfl hcs
  | cons c rest =>
    rw [descend]
    split
    · next h => exact absurd h hh
    · exact ⟨_, rfl⟩
    · exact ⟨_, rfl⟩

theorem descend_last (fs : FileSystem) (follow : Bool) (hh : fs.lookup here = some .directory)
    (hc : IsOrdinary c)
    (hl : follow = true → ∀ t m, fs.lookup (here ++ [c]) ≠ some (.link t m)) :
    fs.descend follow here [c] =
      if nameLimit < c.utf8ByteSize then .refused .nameTooLong
      else .arrived (fs.spotAt here c) := by
  rw [descend_ordinary fs follow hh hc, spotAt]
  split
  · rfl
  · cases hf : fs.lookup (here ++ [c]) with
    | none => rfl
    | some e =>
      cases e with
      | directory => rfl
      | file i k m => rfl
      | link t m =>
        cases follow with
        | false => rfl
        | true => exact absurd hf (hl rfl t m)

/-- A descent that does not follow its last link arrives at its last name or turns off before it.
It does the same where the ways are kept, also when it follows links but meets none at the
end. -/
theorem descend_kept (hk : WaysKept a b) (follow : Bool) (hc : IsOrdinary c) (ds : List String)
    (here : Location) :
    (∀ s, a.descend false here (ds ++ [c]) = .arrived s →
      ∃ d, a.lookup d = some .directory ∧ s = a.spotAt d c ∧
        ((follow = true → ∀ t m, b.lookup (d ++ [c]) ≠ some (.link t m)) →
          b.descend follow here (ds ++ [c]) = .arrived (b.spotAt d c))) ∧
    (∀ h t r, a.descend false here (ds ++ [c]) = .detour h t r →
      b.descend follow here (ds ++ [c]) = .detour h t r ∧ ∃ rs, r = rs ++ [c]) := by
  -- Before the last name only directories and links lead on, and these stand in both.
  induction ds generalizing here with
  | nil =>
    by_cases hh : a.lookup here = some .directory
    · rw [List.nil_append, descend_last a false hh hc (by simp)]
      split
      · simp
      · next hsize =>
        refine ⟨fun s hs => ⟨here, hh, (Descent.arrived.inj hs).symm, fun hl => ?_⟩, ?_⟩
        · rw [descend_last b follow (hk.directory hh) hc hl, if_neg hsize]
        · intro h t r hs
          cases hs
    · obtain ⟨why, hr⟩ := descend_elsewhere a false hh (List.cons_ne_nil c [])
      rw [List.nil_append, hr]
      simp
  | cons x xs ih =>
    by_cases hh : a.lookup here = some .directory
    · have hb := hk.directory hh
      rw [List.cons_append]
      by_cases hx : x = "" ∨ x = "."
      · rw [descend_empty a false hh hx, descend_empty b follow hb hx]
        exact ih here
      · by_cases hu : x = ".."
        · rw [hu, descend_up a false hh, descend_up b follow hb]
          exact ih here.dropLast
        · have hx' : IsOrdinary x := ⟨fun h => hx (.inl h), fun h => hx (.inr h), hu⟩
          rw [descend_ordinary a false hh hx', descend_ordinary b follow hb hx']
          split
          · simp
          · cases hl : a.lookup (here ++ [x]) with
            | none => simp
            | some e =>
              cases e with
              | directory =>
                rw [hk.directory hl]
                exact ih _
              | link t m =>
                rw [hk.link hl]
                simp
              | file i k m =>
                have hf : a.lookup (here ++ [x]) ≠ some .directory := by simp [hl]
                obtain ⟨why, hr⟩ := descend_elsewhere a false hf (by simp : xs ++ [c] ≠ [])
                rw [hr]
                simp
    · obtain ⟨why, hr⟩ := descend_elsewhere a false hh (List.cons_ne_nil x (xs ++ [c]))
      rw [List.cons_append, hr]
      simp

theorem walk_arrived (fs : FileSystem) {follow : Bool} {s : Spot}
    (h : fs.descend follow here cs = .arrived s) (hops : Nat) :
    fs.walk follow hops here cs = .ok s := by
  rw [walk, h]

theorem walk_detour (fs : FileSystem) {follow : Bool} {h : Location} {t : String}
    {r : List String} (hd : fs.descend follow here cs = .detour h t r) (hops : Nat) :
    fs.walk follow (hops + 1) here cs = fs.walk follow hops (startOf h t) (pieces t ++ r) := by
  rw [walk, hd]

/-- A walk that ends has arrived, or has turned off at a link and ended from there. -/
theorem walk_eq_ok {fs : FileSystem} {follow : Bool} {hops : Nat} {s : Spot}
    (hs : fs.walk follow hops here cs = .ok s) :
    fs.descend follow here cs = .arrived s ∨
      ∃ h t r n, fs.descend follow here cs = .detour h t r ∧ hops = n + 1 ∧
        fs.walk follow n (startOf h t) (pieces t ++ r) = .ok s := by
  rw [walk] at hs
  cases hd : fs.descend follow here cs with
  | arrived t =>
    rw [hd] at hs
    exact .inl (congrArg _ (Except.ok.inj hs))
  | refused why =>
    rw [hd] at hs
    cases hs
  | detour h t r =>
    rw [hd] at hs
    cases hops with
    | zero => cases hs
    | succ n => exact .inr ⟨h, t, r, n, rfl, rfl, hs⟩

/-- A walk that does not follow its last link ends at its last name, and so it does where the
ways are kept, also when it follows links but meets none at the end. -/
theorem walk_kept (hk : WaysKept a b) (follow : Bool) (hc : IsOrdinary c) (hops : Nat)
    (here : Location) (ds : List String) {s : Spot}
    (hs : a.walk false hops here (ds ++ [c]) = .ok s) :
    ∃ d, a.lookup d = some .directory ∧ s = a.spotAt d c ∧
      ((follow = true → ∀ t m, b.lookup (d ++ [c]) ≠ some (.link t m)) →
        b.walk follow hops here (ds ++ [c]) = .ok (b.spotAt d c)) := by
  -- A detour uses up one of the links that may be followed, and keeps the last name.
  induction hops using Nat.strongRecOn generalizing here ds with
  | ind hops ih =>
    obtain ⟨harrive, hturn⟩ := descend_kept hk follow hc ds here
    rcases walk_eq_ok hs with hd | ⟨h, t, r, n, hd, rfl, hw⟩
    · obtain ⟨d, hl, rfl, hb⟩ := harrive s hd
      exact ⟨d, hl, rfl, fun hf => walk_arrived b (hb hf) hops⟩
    · obtain ⟨hb, rs, rfl⟩ := hturn h t r hd
      rw [walk_detour b hb, ← List.append_assoc]
      rw [← List.append_assoc] at hw
      exact ih n n.lt_succ_self _ _ hw

/-- A descent that ends beside a free name has that name last; one that turns off before its
last link keeps the end of the way. -/
theorem descend_free (fs : FileSystem) (here : Location) (cs : List String) :
    (∀ d c, fs.descend false here cs = .arrived (.free d c) →
      IsOrdinary c ∧ cs.getLast? = some c) ∧
    (∀ h t r, fs.descend false here cs = .detour h t r → r ≠ [] ∧ r.getLast? = cs.getLast?) := by
  induction cs generalizing here with
  | nil => simp [descend]
  | cons x xs ih =>
    by_cases hh : fs.lookup here = some .directory
    · have hlast (hx : xs ≠ []) : (x :: xs).getLast? = xs.getLast? := by
        cases xs with
        | nil => exact absurd rfl hx
        | cons y ys => rfl
      have hstep (here' : Location) :
          (∀ d c, fs.descend false here' xs = .arrived (.free d c) →
            IsOrdinary c ∧ (x :: xs).getLast? = some c) ∧
          (∀ h t r, fs.descend false here' xs = .detour h t r →
            r ≠ [] ∧ r.getLast? = (x :: xs).getLast?) := by
        cases hxs : xs with
        | nil => simp [descend]
        | cons y ys =>
          rw [← hxs, hlast (by simp [hxs])]
          exact ih here'
      by_cases hx : x = "" ∨ x = "."
      · rw [descend_empty fs false hh hx]
        exact hstep here
      · by_cases hu : x = ".."
        · subst hu
          rw [descend_up fs false hh]
          exact hstep here.dropLast
        · have hx' : IsOrdinary x := ⟨fun h => hx (.inl h), fun h => hx (.inr h), hu⟩
          rw [descend_ordinary fs false hh hx']
          split
          · simp
          · cases hl : fs.lookup (here ++ [x]) with
            | none =>
              cases xs with
              | nil => simpa using hx'
              | cons y ys => simp
            | some e =>
              cases e with
              | directory => exact hstep _
              | file i k m => exact hstep _
              | link t m =>
                cases xs with
                | nil => simp
                | cons y ys => simp
    · obtain ⟨why, hr⟩ := descend_elsewhere fs false hh (List.cons_ne_nil x xs)
      rw [hr]
      simp

theorem walk_free {fs : FileSystem} {hops : Nat} {d : Location}
    (h : fs.walk false hops here cs = .ok (.free d c)) :
    IsOrdinary c ∧ cs.getLast? = some c := by
  induction hops using Nat.strongRecOn generalizing here cs with
  | ind hops ih =>
    obtain ⟨harrive, hturn⟩ := descend_free fs here cs
    rcases walk_eq_ok h with hd | ⟨h', t, r, n, hd, rfl, hw⟩
    · exact harrive d c hd
    · obtain ⟨hr, hlast⟩ := hturn h' t r hd
      obtain ⟨hc, hcs⟩ := ih n n.lt_succ_self hw
      rw [List.getLast?_append, List.getLast?_eq_some_getLast hr, Option.some_or] at hcs
      exact ⟨hc, by rw [← hlast, List.getLast?_eq_some_getLast hr, hcs]⟩

end

end TabPackager.FileSystem
