import TabPackager.Proofs.Ancestors

/-!
# Walks among fewer directories

Where some directories of a file system are missing, a walk goes as it does with them, or ends at
the first one that is missing, and then nothing is found behind it.
-/

namespace TabPackager.FileSystem

variable {cwd : Location} {p : Path} {l : Location}

/-- The second file system has what the first has, but for some directories. -/
def Lacking (a b : FileSystem) : Prop :=
  ∀ l e, a.lookup l = some e → b.lookup l = some e ∨ e = .directory ∧ b.lookup l = none

/-- The descent has come to an entry or to a link on its way. -/
def Descent.Goes : Descent → Prop
  | .arrived (.found _) => True
  | .detour .. => True
  | _ => False

def Descent.Misses (x : Descent) : Prop :=
  x = .refused .noEntry ∨ ∃ d c, x = .arrived (.free d c)

def Misses (r : Except Refusal Spot) : Prop :=
  r = .error .noEntry ∨ ∃ d c, r = .ok (.free d c)

/-- The second file system lacks a directory of the first, and so it goes wherever that one is
lacking, whatever else is there. -/
def Blocked (a b : FileSystem) (goes : FileSystem → Prop) : Prop :=
  ∃ d, a.lookup d = some .directory ∧ b.lookup d = none ∧
    ∀ b', EntriesKept b b' → b'.lookup d = none → goes b'

section

variable {a b : FileSystem} {follow : Bool} {here : Location} {cs : List String} {s : String}

theorem Blocked.imp {P Q : FileSystem → Prop} (h : Blocked a b P)
    (hPQ : ∀ b', EntriesKept b b' → P b' → Q b') : Blocked a b Q := by
  obtain ⟨d, hd, hn, hgoes⟩ := h
  exact ⟨d, hd, hn, fun b' hk hn' => hPQ b' hk (hgoes b' hk hn')⟩

theorem Blocked.self {P : FileSystem → Prop} (h : Blocked a b P) : P b := by
  obtain ⟨d, -, hn, hgoes⟩ := h
  exact hgoes b (.refl b) hn

theorem misses_of_none {c : String} (hh : b.lookup here = some .directory) (hc : IsOrdinary c)
    (hsize : ¬nameLimit < c.utf8ByteSize) (hn : b.lookup (here ++ [c]) = none) :
    (b.descend follow here (c :: cs)).Misses := by
  rw [descend_ordinary b follow hh hc, if_neg hsize, hn]
  dsimp only
  split
  · exact .inr ⟨here, c, rfl⟩
  · exact .inl rfl

/-- Where directories are missing a descent goes as it does with them, or ends at the first that is
missing. -/
theorem Lacking.descend (h : Lacking a b) (hgoes : (a.descend follow here cs).Goes) :
    b.descend follow here cs = a.descend follow here cs ∨
      Blocked a b fun b' => (b'.descend follow here cs).Misses := by
  induction cs generalizing here with
  | nil => exact .inl rfl
  | cons c rest ih =>
    by_cases hh : a.lookup here = some .directory
    · rcases h here _ hh with hb | ⟨-, hb⟩
      · by_cases hc : c = "" ∨ c = "."
        · rw [descend_empty a follow hh hc] at hgoes ⊢
          rw [descend_empty b follow hb hc]
          refine (ih hgoes).imp_right fun hblocked => hblocked.imp fun b' hk hm => ?_
          rw [descend_empty b' follow (hk _ _ hb) hc]
          exact hm
        · by_cases hu : c = ".."
          · rw [hu, descend_up a follow hh] at hgoes ⊢
            rw [descend_up b follow hb]
            refine (ih hgoes).imp_right fun hblocked => hblocked.imp fun b' hk hm => ?_
            rw [descend_up b' follow (hk _ _ hb)]
            exact hm
          · have ho : IsOrdinary c := ⟨fun h => hc (.inl h), fun h => hc (.inr h), hu⟩
            rw [descend_ordinary a follow hh ho] at hgoes ⊢
            rw [descend_ordinary b follow hb ho]
            split
            · exact .inl rfl
            · next hsize =>
              rw [if_neg hsize] at hgoes
              cases hl : a.lookup (here ++ [c]) with
              | none =>
                rw [hl] at hgoes
                dsimp only at hgoes
                split at hgoes <;> exact hgoes.elim
              | some e =>
                rw [hl] at hgoes
                rcases h _ e hl with hl' | ⟨rfl, hl'⟩
                · have honward (he : ∀ t m, e ≠ .link t m) (hgoes' : (a.descend follow
                      (here ++ [c]) rest).Goes) :
                      b.descend follow (here ++ [c]) rest = a.descend follow (here ++ [c]) rest ∨
                        Blocked a b fun b' => (b'.descend follow here (c :: rest)).Misses := by
                    refine (ih hgoes').imp_right fun hblocked => hblocked.imp fun b' hk hm => ?_
                    rw [descend_ordinary b' follow (hk _ _ hb) ho, if_neg hsize, hk _ _ hl']
                    cases e with
                    | directory => exact hm
                    | file i k m => exact hm
                    | link t m => exact absurd rfl (he t m)
                  rw [hl']
                  cases e with
                  | directory => exact honward nofun hgoes
                  | file i k m => exact honward nofun hgoes
                  | link t m => exact .inl rfl
                · exact .inr ⟨here ++ [c], hl, hl', fun b' hk hn =>
                    misses_of_none (hk _ _ hb) ho hsize hn⟩
      · refine .inr ⟨here, hh, hb, fun b' _ hn => .inl ?_⟩
        rw [FileSystem.descend, hn]
    · obtain ⟨why, hr⟩ := descend_elsewhere a follow hh (List.cons_ne_nil c rest)
      rw [hr] at hgoes
      exact hgoes.elim

theorem Descent.Misses.walk (h : (b.descend follow here cs).Misses) (hops : Nat) :
    FileSystem.Misses (b.walk follow hops here cs) := by
  rcases h with hd | ⟨d, c, hd⟩
  · left
    rw [FileSystem.walk, hd]
  · exact .inr ⟨d, c, walk_arrived b hd hops⟩

theorem Lacking.walk (h : Lacking a b) {hops : Nat}
    (hw : a.walk follow hops here cs = .ok (.found l)) :
    b.walk follow hops here cs = .ok (.found l) ∨
      Blocked a b fun b' => Misses (b'.walk follow hops here cs) := by
  induction hops using Nat.strongRecOn generalizing here cs with
  | ind hops ih =>
    rcases walk_eq_ok hw with hd | ⟨h', t, r, n, hd, rfl, hw'⟩
    · rcases h.descend (by rw [hd]; trivial) with hb | hb
      · exact .inl (walk_arrived b (hb.trans hd) hops)
      · exact .inr (hb.imp fun b' _ hm => hm.walk hops)
    · rcases h.descend (by rw [hd]; trivial) with hb | hb
      · have hdetour := hb.trans hd
        rw [walk_detour b hdetour]
        refine (ih n n.lt_succ_self hw').imp_right fun hblocked => hblocked.imp fun b' hk hm => ?_
        have hmet := descend_met hk.waysKept (by rw [hdetour]; trivial)
        rw [walk_detour b' (hmet.trans hdetour)]
        exact hm
      · exact .inr (hb.imp fun b' _ hm => hm.walk _)

theorem Lacking.resolve (h : Lacking a b) (hr : a.resolve follow cwd s = .ok (.found l)) :
    b.resolve follow cwd s = .ok (.found l) ∨
      Blocked a b fun b' => Misses (b'.resolve follow cwd s) := by
  obtain ⟨hw, hsame⟩ := resolve_eq_ok hr
  simp only [hsame]
  exact h.walk hw

theorem Lacking.isDirectory (h : Lacking a b) {c : FileSystem} (hk : EntriesKept b c)
    (hboth : ∀ l, a.lookup l = some .directory → c.lookup l ≠ none → b.lookup l ≠ none)
    (ha : a.isDirectory cwd s = .ok true) (hc : c.isDirectory cwd s = .ok true) :
    b.isDirectory cwd s = .ok true := by
  obtain ⟨l, hs⟩ := isDirectory_eq_true.mp ha
  obtain ⟨l', hs'⟩ := isDirectory_eq_true.mp hc
  obtain ⟨hr, hdir⟩ := stat_eq_ok.mp hs
  obtain ⟨hr', hdir'⟩ := stat_eq_ok.mp hs'
  rcases h.resolve hr with hb | ⟨d, hd, hn, hmiss⟩
  · cases (resolve_met hk hb).symm.trans hr'
    rcases h l _ hdir with hl | ⟨-, hl⟩
    · exact isDirectory_eq_true.mpr ⟨l, stat_eq_ok.mpr ⟨hb, hl⟩⟩
    · exact absurd hl (hboth l hdir (by simp [hdir']))
  · have hnone : c.lookup d = none := by
      by_contra hthere
      exact hboth d hd hthere hn
    rcases hmiss c hk hnone with hno | ⟨e, x, hno⟩
    · cases hno.symm.trans hr'
    · cases hno.symm.trans hr'

end

end TabPackager.FileSystem
