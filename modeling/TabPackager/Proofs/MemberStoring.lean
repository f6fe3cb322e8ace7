import TabPackager.Proofs.OwnFiles
import TabPackager.Proofs.StoredMembers

/-!
# Storing members in a file of one's own

Members are stored in an own file one after the other. However that goes, nothing but the file has
changed; when it succeeds, the file holds what the members are, and nothing was due to go wrong.
-/

namespace TabPackager.Bundle

open FileSystem TabPackager.Task

variable {cwd : Location} {now : Int} {base fs fs' : FileSystem} {own : Location → Option Nat}
  {events : List Event} {file output : Path} {loc : Location} {i : Nat} {known : Fault → Prop}
  {mishaps : Mishaps}

theorem keeps_mayStore (I : FileSystem → Prop) (number : Nat) :
    Keeps cwd now I (mayStore mishaps number) := by
  unfold mayStore
  split
  · exact Keeps.throw _
  · exact Keeps.pure ()

theorem explains_mayStore {number : Nat}
    (hk : ∀ e, mishaps.storing number = some e → known (.os e)) :
    Explains cwd now known (mayStore mishaps number) := by
  unfold mayStore
  split
  · next e he => exact Explains.throw (hk e he)
  · exact Explains.pure ()

theorem execution_mayStore {number : Nat}
    (h : Task.Execution cwd now (mayStore mishaps number) fs events (.ok ()) fs') :
    mishaps.storing number = none := by
  unfold mayStore at h
  split at h
  · obtain ⟨-, hr, -⟩ := execution_throw h
    cases hr
  · next he => exact he

theorem keeps_storeTar (hl : base.Leads cwd file loc) (hi : own loc = some i) (number : Nat)
    (stored : List (Nat × String)) (entries : List (TarEntry Content)) (members : List Member) :
    Keeps cwd now (Overlaid base own) (storeTar mishaps file number stored entries members) := by
  induction members generalizing number stored entries with
  | nil => exact Keeps.pure entries
  | cons m ms ih =>
    refine Keeps.bind (keeps_mayStore _ number) fun _ => ?_
    refine Keeps.bind (Keeps.look fun _ => rfl) fun seen => ?_
    split
    · exact ih (number + 1) stored entries
    · exact Keeps.bind (keeps_writeFile hl hi _) fun _ => ih (number + 1) _ _

theorem keeps_storeZip (hl : base.Leads cwd file loc) (hi : own loc = some i) (number : Nat)
    (entries : List (ZipEntry Content)) (members : List Member) :
    Keeps cwd now (Overlaid base own) (storeZip mishaps file number entries members) := by
  induction members generalizing number entries with
  | nil => exact Keeps.pure entries
  | cons m ms ih =>
    refine Keeps.bind (keeps_mayStore _ number) fun _ => ?_
    refine Keeps.bind (Keeps.look fun _ => rfl) fun (content, modified) => ?_
    dsimp only
    split
    · exact Keeps.throw _
    · exact Keeps.bind (keeps_writeFile hl hi _) fun _ => ih (number + 1) _

theorem explains_storeTar {number : Nat} {members : List Member}
    (hk : ∀ k e, number ≤ k → k < number + members.length →
      mishaps.storing k = some e → known (.os e))
    (stored : List (Nat × String)) (entries : List (TarEntry Content)) :
    Explains cwd now known (storeTar mishaps file number stored entries members) := by
  induction members generalizing number stored entries with
  | nil => exact Explains.pure entries
  | cons m ms ih =>
    rw [List.length_cons] at hk
    have hrest : ∀ k e, number + 1 ≤ k → k < number + 1 + ms.length →
        mishaps.storing k = some e → known (.os e) :=
      fun k e hge hlt => hk k e (by omega) (by omega)
    have hfirst : Explains cwd now known (mayStore mishaps number) :=
      explains_mayStore fun e => hk number e (Nat.le_refl number) (by omega)
    refine Explains.bind hfirst fun _ => ?_
    refine Explains.bind (Explains.call rfl) fun seen => ?_
    split
    · exact ih hrest stored entries
    · exact Explains.bind (Explains.call rfl) fun _ => ih hrest _ _

theorem explains_storeZip {number : Nat} {members : List Member}
    (hk : ∀ k e, number ≤ k → k < number + members.length →
      mishaps.storing k = some e → known (.os e))
    (hname : ∀ m ∈ members, zipName? m.name = none → known (.escape .emptyName))
    (entries : List (ZipEntry Content)) :
    Explains cwd now known (storeZip mishaps file number entries members) := by
  induction members generalizing number entries with
  | nil => exact Explains.pure entries
  | cons m ms ih =>
    rw [List.length_cons] at hk
    have hrest : ∀ k e, number + 1 ≤ k → k < number + 1 + ms.length →
        mishaps.storing k = some e → known (.os e) :=
      fun k e hge hlt => hk k e (by omega) (by omega)
    have hfirst : Explains cwd now known (mayStore mishaps number) :=
      explains_mayStore fun e => hk number e (Nat.le_refl number) (by omega)
    refine Explains.bind hfirst fun _ => ?_
    refine Explains.bind (Explains.call rfl) fun (content, modified) => ?_
    dsimp only
    split
    · next hn => exact Explains.throw (hname m List.mem_cons_self hn)
    · exact Explains.bind (Explains.call rfl) fun _ =>
        ih hrest (fun m hm => hname m (List.mem_cons_of_mem _ hm)) _

theorem storing_cons {number : Nat} {m : Member} {ms : List Member}
    (hfirst : mishaps.storing number = none)
    (hrest : ∀ k, number + 1 ≤ k → k < number + 1 + ms.length → mishaps.storing k = none) :
    ∀ k, number ≤ k → k < number + (m :: ms).length → mishaps.storing k = none := by
  intro k hge hlt
  rw [List.length_cons] at hlt
  rcases Nat.eq_or_lt_of_le hge with rfl | hgt
  · exact hfirst
  · exact hrest k hgt (by omega)

/-- Members are stored to the end only when nothing is due to go wrong at any of them, and the
entries that are added are those of the members as they stand in the base. -/
theorem execution_storeTar (ho : Overlaid base own fs) (hl : base.Leads cwd file loc)
    (hi : own loc = some i) {number : Nat} {stored : List (Nat × String)}
    {entries entries' : List (TarEntry Content)} {members : List Member}
    (h : Task.Execution cwd now (storeTar mishaps file number stored entries members) fs events
      (.ok entries') fs') :
    (∃ es, entries' = entries ++ es ∧ TarPacked base cwd stored members es) ∧
      ∀ k, number ≤ k → k < number + members.length → mishaps.storing k = none := by
  induction members generalizing number stored entries fs events with
  | nil =>
    obtain ⟨-, hr, -⟩ := execution_pure h
    cases hr
    refine ⟨⟨[], (List.append_nil _).symm, .nil stored⟩, fun k hge hlt => ?_⟩
    rw [List.length_nil] at hlt
    omega
  | cons m ms ih =>
    obtain ⟨_, fs₁, _, _, h₁, h, -⟩ := (execution_bind h).resolve_right (by simp)
    have ho₁ := keeps_mayStore _ number _ _ _ _ ho h₁
    obtain ⟨seen, fs₂, _, _, h₂, h, -⟩ := (execution_bind h).resolve_right (by simp)
    have hseen : Seen base cwd m.path seen :=
      Seen.of_examine ho₁.entriesKept (execution_call_ok h₂)
    have ho₂ := Keeps.look (I := Overlaid base own) (fun _ => rfl) _ _ _ _ ho₁ h₂
    have hstep : (∃ es, entries' = entries ++ es ∧ TarPacked base cwd stored (m :: ms) es) ∧
        ∀ k, number + 1 ≤ k → k < number + 1 + ms.length → mishaps.storing k = none := by
      split at h
      · next hnone =>
        obtain ⟨⟨es, he, hp⟩, hrest⟩ := ih ho₂ h
        exact ⟨⟨es, he, .skip hseen hnone hp⟩, hrest⟩
      · next e hsome =>
        obtain ⟨_, fs₃, _, _, h₃, h, -⟩ := (execution_bind h).resolve_right (by simp)
        have ho₃ := keeps_writeFile hl hi _ _ _ _ _ ho₂ h₃
        obtain ⟨⟨es, he, hp⟩, hrest⟩ := ih ho₃ h
        refine ⟨⟨e :: es, ?_, .store hseen hsome hp⟩, hrest⟩
        rw [he, List.append_assoc, List.singleton_append]
    exact ⟨hstep.1, storing_cons (execution_mayStore h₁) hstep.2⟩

theorem execution_storeZip (ho : Overlaid base own fs) (hl : base.Leads cwd file loc)
    (hi : own loc = some i) {number : Nat} {entries entries' : List (ZipEntry Content)}
    {members : List Member}
    (h : Task.Execution cwd now (storeZip mishaps file number entries members) fs events
      (.ok entries') fs') :
    (∃ es, entries' = entries ++ es ∧ ZipPacked base cwd members es) ∧
      ∀ k, number ≤ k → k < number + members.length → mishaps.storing k = none := by
  induction members generalizing number entries fs events with
  | nil =>
    obtain ⟨-, hr, -⟩ := execution_pure h
    cases hr
    refine ⟨⟨[], (List.append_nil _).symm, .nil⟩, fun k hge hlt => ?_⟩
    rw [List.length_nil] at hlt
    omega
  | cons m ms ih =>
    obtain ⟨_, fs₁, _, _, h₁, h, -⟩ := (execution_bind h).resolve_right (by simp)
    have ho₁ := keeps_mayStore _ number _ _ _ _ ho h₁
    obtain ⟨⟨k, t⟩, fs₂, _, _, h₂, h, -⟩ := (execution_bind h).resolve_right (by simp)
    have hgot : Got base cwd m.path k t :=
      Got.of_contentOf ho₁.entriesKept (execution_call_ok h₂)
    have ho₂ := Keeps.look (I := Overlaid base own) (fun _ => rfl) _ _ _ _ ho₁ h₂
    dsimp only at h
    split at h
    · obtain ⟨-, hr, -⟩ := execution_throw h
      cases hr
    · next name hname =>
      obtain ⟨_, fs₃, _, _, h₃, h, -⟩ := (execution_bind h).resolve_right (by simp)
      have ho₃ := keeps_writeFile hl hi _ _ _ _ _ ho₂ h₃
      obtain ⟨⟨es, he, hp⟩, hrest⟩ := ih ho₃ h
      refine ⟨⟨zipEntry name k t :: es, ?_, .cons ⟨name, k, t, hname, hgot, rfl⟩ hp⟩, ?_⟩
      · rw [he, List.append_assoc, List.singleton_append]
      · exact storing_cons (execution_mayStore h₁) hrest

def fillTar (mishaps : Mishaps) (file : Path) (members : List Member) :
    Task (List (TarEntry Content)) := do
  Task.call (.writeFile file (.draft (.tar [])))
  let entries ← storeTar mishaps file 0 [] [] members
  Task.call (.writeFile file (.archive (.tar entries)))
  return entries

theorem writeTar_eq (mishaps : Mishaps) (file : Path) (members : List Member) :
    writeTar mishaps file members = Task.call (.createFile file) >>= fun _ =>
      tryCatch (fillTar mishaps file members) fun f => discard file >>= fun _ => throw f := rfl

theorem keeps_fillTar (hl : base.Leads cwd file loc) (hi : own loc = some i)
    (members : List Member) :
    Keeps cwd now (Overlaid base own) (fillTar mishaps file members) := by
  refine Keeps.bind (keeps_writeFile hl hi _) fun _ => ?_
  refine Keeps.bind (keeps_storeTar hl hi 0 [] [] members) fun entries => ?_
  exact Keeps.bind (keeps_writeFile hl hi _) fun _ => Keeps.pure entries

theorem execution_fillTar (ho : Overlaid base own fs) (hl : base.Leads cwd file loc)
    (hi : own loc = some i) {members : List Member} {entries : List (TarEntry Content)}
    (h : Task.Execution cwd now (fillTar mishaps file members) fs events (.ok entries) fs') :
    fs'.lookup loc = some (.file i (.archive (.tar entries)) now) ∧
      TarPacked base cwd [] members entries ∧
      ∀ k < members.length, mishaps.storing k = none := by
  obtain ⟨_, fs₁, _, _, h₁, h, -⟩ := (execution_bind h).resolve_right (by simp)
  obtain ⟨entries', fs₂, _, _, h₂, h, -⟩ := (execution_bind h).resolve_right (by simp)
  obtain ⟨_, fs₃, _, _, h₃, h, -⟩ := (execution_bind h).resolve_right (by simp)
  obtain ⟨-, hr, rfl⟩ := execution_pure h
  cases hr
  have ho₁ := keeps_writeFile hl hi _ _ _ _ _ ho h₁
  have ho₂ := keeps_storeTar hl hi 0 [] [] members _ _ _ _ ho₁ h₂
  obtain ⟨⟨es, he, hp⟩, hstored⟩ := execution_storeTar ho₁ hl hi h₂
  obtain rfl : entries = es := he
  refine ⟨execution_writeFile ho₂ hl hi h₃, hp, fun k hk => ?_⟩
  exact hstored k (Nat.zero_le k) (by omega)

theorem explains_writeTar {members : List Member}
    (hk : ∀ k e, k < members.length → mishaps.storing k = some e → known (.os e))
    (file : Path) : Explains cwd now known (writeTar mishaps file members) := by
  rw [writeTar_eq]
  refine Explains.bind (Explains.call rfl) fun _ => explains_tryDiscard ?_ file
  refine Explains.bind (Explains.call rfl) fun _ => ?_
  refine Explains.bind (explains_storeTar (fun k e _ hlt => hk k e (by omega)) [] []) ?_
  intro entries
  exact Explains.bind (Explains.call rfl) fun _ => Explains.pure entries

theorem execution_writeTar (ho : Overlaid base own fs) {members : List Member}
    {result : Except Fault (List (TarEntry Content))}
    (h : Task.Execution cwd now (writeTar mishaps file members) fs events result fs')
    (hc : Cleaned events) :
    (∃ f, result = .error f ∧ Overlaid base own fs') ∨
      ∃ entries loc i, result = .ok entries ∧ base.Leads cwd file loc ∧ own loc = none ∧
        base.lookup loc = none ∧ Overlaid base (Function.update own loc (some i)) fs' ∧
        fs'.lookup loc = some (.file i (.archive (.tar entries)) now) ∧
        TarPacked base cwd [] members entries ∧
        ∀ k < members.length, mishaps.storing k = none := by
  rw [writeTar_eq] at h
  rcases execution_bind h with ⟨_, fs₁, _, _, h₁, htry, rfl⟩ | ⟨f, h₁, rfl⟩
  · have hcreated := execution_createFile ho h₁
    obtain ⟨-, loc, i, hl, hown, hn, ho₁⟩ := hcreated.resolve_left (by simp)
    have hi : Function.update own loc (some i) loc = some i := Function.update_self ..
    rcases execution_tryCatch htry with
      ⟨entries, h₂, rfl⟩ | ⟨f, fs₂, _, _, h₂, hcatch, rfl⟩
    · have hfilled := execution_fillTar ho₁ hl hi h₂
      have ho₂ := keeps_fillTar hl hi members _ _ _ _ ho₁ h₂
      exact .inr ⟨entries, loc, i, rfl, hl, hown, hn, ho₂, hfilled⟩
    · have ho₂ := keeps_fillTar hl hi members _ _ _ _ ho₁ h₂
      have hc₂ := hc.of_append.2.of_append.2
      rcases execution_bind hcatch with ⟨_, fs₃, _, _, h₃, hthrow, rfl⟩ | ⟨g, h₃, rfl⟩
      · obtain ⟨-, ho₃, -⟩ := execution_discardOwn ho₂ hl hn h₃ hc₂.of_append.1
        obtain ⟨-, hr, rfl⟩ := execution_throw hthrow
        rw [Function.update_idem, ← hown, Function.update_eq_self] at ho₃
        exact .inl ⟨f, hr, ho₃⟩
      · obtain ⟨hr, -⟩ := execution_discardOwn ho₂ hl hn h₃ hc₂
        cases hr
  · rcases execution_createFile ho h₁ with ⟨rfl, -⟩ | ⟨hr, -⟩
    · exact .inl ⟨f, rfl, ho⟩
    · cases hr

end TabPackager.Bundle
