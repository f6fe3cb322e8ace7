import TabPackager.Invocation

/-!
# Argument vectors read back from shell text

The reader of shell text gets out of a written argument vector the very words that were put in,
so that the text determines them. On the way it is never outside quotes at a character that could
mean something else to a shell: there it meets harmless characters, quote marks, and a space
between each two words.
-/

namespace TabPackager

namespace ShellWord

namespace Reader

def read (r : Reader) (text : List Char) : Reader := text.foldl step r

@[simp] theorem read_nil (r : Reader) : r.read [] = r := rfl

@[simp] theorem read_cons (r : Reader) (c : Char) (cs : List Char) :
    r.read (c :: cs) = (r.step c).read cs := rfl

theorem read_append (r : Reader) (xs ys : List Char) : r.read (xs ++ ys) = (r.read xs).read ys :=
  List.foldl_append

/-- The next character stands between single or double quotes. -/
def Sheltered (r : Reader) : Prop := r.quoting = .single ∨ r.quoting = .double

end Reader

open Reader

variable {done : List (List Char)}

theorem ne_of_isPlain {c d : Char} (hc : isPlain c = true) (hd : isPlain d = false) : c ≠ d := by
  rintro rfl
  rw [hc] at hd
  cases hd

theorem step_plain {c : Char} (hc : isPlain c = true) (word : Option (List Char)) :
    step ⟨.none, done, word⟩ c = ⟨.none, done, some (c :: word.getD [])⟩ := by
  have hspace : c ≠ ' ' := ne_of_isPlain hc (by decide)
  have htab : c ≠ '\t' := ne_of_isPlain hc (by decide)
  have hline : c ≠ '\n' := ne_of_isPlain hc (by decide)
  have hsingle : c ≠ '\'' := ne_of_isPlain hc (by decide)
  have hdouble : c ≠ '"' := ne_of_isPlain hc (by decide)
  have hback : c ≠ '\\' := ne_of_isPlain hc (by decide)
  simp [step, add, hspace, htab, hline, hsingle, hdouble, hback]

theorem read_plain {cs : List Char} (hcs : ∀ c ∈ cs, isPlain c = true) (w : List Char) :
    read ⟨.none, done, some w⟩ cs = ⟨.none, done, some (cs.reverse ++ w)⟩ := by
  induction cs generalizing w with
  | nil => rfl
  | cons c cs ih =>
    rw [List.forall_mem_cons] at hcs
    rw [read_cons, step_plain hcs.1, ih hcs.2]
    simp

theorem read_quotedChar (c : Char) (w : List Char) :
    read ⟨.single, done, some w⟩ (quotedChar c) = ⟨.single, done, some (c :: w)⟩ := by
  unfold quotedChar
  split
  · next hc =>
    subst hc
    rfl
  · next hc => simp [step, add, hc]

theorem read_quotedChars (cs w : List Char) :
    read ⟨.single, done, some w⟩ (cs.flatMap quotedChar) =
      ⟨.single, done, some (cs.reverse ++ w)⟩ := by
  induction cs generalizing w with
  | nil => rfl
  | cons c cs ih =>
    rw [List.flatMap_cons, read_append, read_quotedChar, ih]
    simp

theorem read_quoteChars (w : List Char) :
    read ⟨.none, done, none⟩ (quoteChars w) = ⟨.none, done, some w.reverse⟩ := by
  unfold quoteChars
  split
  · next h =>
    obtain ⟨hne, hw⟩ := h
    rw [List.all_eq_true] at hw
    cases w with
    | nil => exact absurd rfl hne
    | cons c cs =>
      rw [List.forall_mem_cons] at hw
      rw [read_cons, step_plain hw.1, read_plain hw.2]
      simp
  · have hopen : step ⟨.none, done, none⟩ '\'' = ⟨.single, done, some []⟩ := rfl
    have hclose : step ⟨.single, done, some w.reverse⟩ '\'' = ⟨.none, done, some w.reverse⟩ := rfl
    rw [List.cons_append, read_cons, hopen, read_append, read_quotedChars, List.append_nil,
      read_cons, hclose, read_nil]

/-- A character that the written form of a word shows outside quotes. -/
def IsBare (c : Char) : Prop := isPlain c = true ∨ c = '\'' ∨ c = '"'

theorem sheltered_quotedChars {cs w pre post : List Char} {c : Char}
    (h : cs.flatMap quotedChar = pre ++ c :: post) :
    (read ⟨.single, done, some w⟩ pre).Sheltered ∨ IsBare c := by
  induction cs generalizing w pre with
  | nil => simp at h
  | cons d ds ih =>
    rw [List.flatMap_cons, List.append_eq_append_iff] at h
    rcases h with ⟨mid, rfl, hrest⟩ | ⟨mid, hd, hrest⟩
    · rw [read_append, read_quotedChar]
      exact ih hrest
    · by_cases hdq : d = '\''
      · have hmarks : ∀ x ∈ quotedChar d, x = '\'' ∨ x = '"' := by simp [quotedChar, hdq]
        cases mid with
        | nil =>
          rw [List.append_nil] at hd
          rw [List.nil_append] at hrest
          rw [← hd, read_quotedChar]
          exact .inl (.inl rfl)
        | cons x xs =>
          obtain ⟨rfl, -⟩ := List.cons.inj hrest
          exact .inr (.inr (hmarks c (by simp [hd])))
      · have hone : quotedChar d = [d] := if_neg hdq
        rw [hone] at hd
        have hstep : step ⟨.single, done, some w⟩ d = ⟨.single, done, some (d :: w)⟩ := by
          simp [step, add, hdq]
        rcases List.singleton_eq_append_iff.mp hd with ⟨rfl, -⟩ | ⟨rfl, -⟩
        · exact .inl (.inl rfl)
        · rw [read_cons, hstep]
          exact .inl (.inl rfl)

theorem sheltered_quoteChars {w pre post : List Char} {c : Char}
    (h : quoteChars w = pre ++ c :: post) :
    (read ⟨.none, done, none⟩ pre).Sheltered ∨ IsBare c := by
  unfold quoteChars at h
  split at h
  · next hw =>
    rw [List.all_eq_true] at hw
    exact .inr (.inl (hw.2 c (by simp [h])))
  · cases pre with
    | nil =>
      obtain ⟨rfl, -⟩ := List.cons.inj h
      exact .inr (.inr (.inl rfl))
    | cons x xs =>
      rw [List.cons_append, List.cons_append, List.cons.injEq] at h
      obtain ⟨rfl, h⟩ := h
      have hopen : step ⟨.none, done, none⟩ '\'' = ⟨.single, done, some []⟩ := rfl
      rw [read_cons, hopen]
      rw [List.append_eq_append_iff] at h
      rcases h with ⟨mid, -, hlast⟩ | ⟨mid, hbody, hrest⟩
      · rcases List.singleton_eq_append_iff.mp hlast with ⟨-, h⟩ | ⟨-, h⟩
        · obtain ⟨rfl, -⟩ := List.cons.inj h
          exact .inr (.inr (.inl rfl))
        · cases h
      · cases mid with
        | nil =>
          obtain ⟨rfl, -⟩ := List.cons.inj hrest
          exact .inr (.inr (.inl rfl))
        | cons y ys =>
          obtain ⟨rfl, -⟩ := List.cons.inj hrest
          exact sheltered_quotedChars hbody

def joinChars (ws : List (List Char)) : List Char := [' '].intercalate (ws.map quoteChars)

theorem joinChars_singleton (w : List Char) : joinChars [w] = quoteChars w :=
  List.intercalate_singleton

theorem joinChars_cons (w : List Char) {ws : List (List Char)} (hws : ws ≠ []) :
    joinChars (w :: ws) = quoteChars w ++ ' ' :: joinChars ws := by
  rw [joinChars, List.map_cons, List.intercalate_cons_of_ne_nil (by simpa using hws)]
  simp [joinChars]

theorem toList_formatCommand (command : List String) :
    (formatCommand command).toList = joinChars (command.map String.toList) := by
  rw [formatCommand, String.toList_intercalate, joinChars, List.map_map, List.map_map]
  congr 1
  exact List.map_congr_left fun w _ => String.toList_ofList

theorem read_word_space (w : List Char) (text : List Char) :
    read ⟨.none, done, none⟩ (quoteChars w ++ ' ' :: text) =
      read ⟨.none, w :: done, none⟩ text := by
  have hspace : step ⟨.none, done, some w.reverse⟩ ' ' = ⟨.none, w :: done, none⟩ := by
    simp [step, finish]
  rw [read_append, read_quoteChars, read_cons, hspace]

theorem read_joinChars (done ws : List (List Char)) :
    (read ⟨.none, done, none⟩ (joinChars ws)).quoting = .none ∧
      (read ⟨.none, done, none⟩ (joinChars ws)).finish.words = ws.reverse ++ done := by
  induction ws generalizing done with
  | nil => exact ⟨rfl, rfl⟩
  | cons w ws ih =>
    cases ws with
    | nil => simp [joinChars_singleton, read_quoteChars, finish]
    | cons v vs =>
      rw [joinChars_cons w (List.cons_ne_nil v vs), read_word_space]
      simpa using ih (w :: done)

/-- The reader gets the words back that were joined. -/
theorem splitWords_joinChars (ws : List (List Char)) : splitWords (joinChars ws) = some ws := by
  obtain ⟨hquoting, hwords⟩ := read_joinChars [] ws
  change (read ⟨.none, [], none⟩ (joinChars ws)).quoting = .none at hquoting
  unfold splitWords
  change (if (read ⟨.none, [], none⟩ (joinChars ws)).quoting = .none then
    some (read ⟨.none, [], none⟩ (joinChars ws)).finish.words.reverse else none) = some ws
  rw [if_pos hquoting, hwords, List.append_nil, List.reverse_reverse]

/-- What stands outside quotes and is no bare character is a space that parts two words. -/
theorem sheltered_joinChars (done : List (List Char)) {ws : List (List Char)}
    {pre post : List Char} {c : Char} (h : joinChars ws = pre ++ c :: post) :
    (read ⟨.none, done, none⟩ pre).Sheltered ∨ IsBare c ∨ c = ' ' ∧ ∃ us vs, us ≠ [] ∧ vs ≠ [] ∧
      ws = us ++ vs ∧ pre = joinChars us ∧ post = joinChars vs := by
  induction ws generalizing done pre with
  | nil => simp [joinChars] at h
  | cons w ws ih =>
    by_cases hws : ws = []
    · subst hws
      rw [joinChars_singleton] at h
      rcases sheltered_quoteChars h with hs | hb
      · exact .inl hs
      · exact .inr (.inl hb)
    · rw [joinChars_cons w hws, List.append_eq_append_iff] at h
      rcases h with ⟨mid, rfl, hrest⟩ | ⟨mid, hw, hrest⟩
      · cases mid with
        | nil =>
          obtain ⟨rfl, rfl⟩ := List.cons.inj hrest
          rw [List.append_nil]
          exact .inr (.inr ⟨rfl, [w], ws, by simp, hws, rfl, (joinChars_singleton w).symm, rfl⟩)
        | cons x xs =>
          obtain ⟨rfl, hxs⟩ := List.cons.inj hrest
          rw [read_word_space]
          rcases ih (w :: done) hxs with hs | hb | ⟨hc, us, vs, hus, hvs, rfl, rfl, rfl⟩
          · exact .inl hs
          · exact .inr (.inl hb)
          · refine .inr (.inr ⟨hc, w :: us, vs, by simp, hvs, rfl, ?_, rfl⟩)
            rw [joinChars_cons w hus]
      · cases mid with
        | nil =>
          obtain ⟨rfl, rfl⟩ := List.cons.inj hrest
          rw [List.append_nil] at hw
          exact .inr (.inr ⟨rfl, [w], ws, by simp, hws, rfl,
            hw.symm.trans (joinChars_singleton w).symm, rfl⟩)
        | cons x xs =>
          obtain ⟨rfl, -⟩ := List.cons.inj hrest
          rcases sheltered_quoteChars hw with hs | hb
          · exact .inl hs
          · exact .inr (.inl hb)

theorem splitWords_formatCommand (command : List String) :
    splitWords (formatCommand command).toList = some (command.map String.toList) := by
  rw [toList_formatCommand, splitWords_joinChars]

theorem formatCommand_injective {a b : List String} (h : formatCommand a = formatCommand b) :
    a = b := by
  have hwords : some (a.map String.toList) = some (b.map String.toList) := by
    rw [← splitWords_formatCommand, h, splitWords_formatCommand]
  exact (List.map_inj_right fun _ _ => String.toList_inj.mp).mp (Option.some.inj hwords)

end ShellWord

open ShellWord

theorem not_mem_toString {c : Char} (hdigit : c.isDigit = false) (hminus : c ≠ '-') (k : Int) :
    c ∉ (toString k).toList := by
  have hnat (n : Nat) : c ∉ n.repr.toList := by
    intro hc
    rw [Nat.repr, String.toList_ofList] at hc
    have := Nat.isDigit_of_mem_toDigits (by omega) (by omega) hc
    rw [hdigit] at this
    cases this
  cases k with
  | ofNat n => exact hnat n
  | negSucc n =>
    change c ∉ ("-" ++ (n + 1).repr).toList
    rw [String.toList_append, List.mem_append, not_or]
    exact ⟨by simpa using hminus, hnat (n + 1)⟩

/-- The colon after the code parts the message from the command. -/
theorem exitMessage_injective {a b : List String} {j k : Int}
    (h : exitMessage a j = exitMessage b k) : a = b := by
  have hcut (command : List String) (code : Int) :
      Text.cutAt ':' (exitMessage command code).toList =
        (("Command failed with exit code " ++ toString code).toList,
          some (' ' :: (formatCommand command).toList)) := by
    have hshape : (exitMessage command code).toList =
        ("Command failed with exit code " ++ toString code).toList ++
          ':' :: ' ' :: (formatCommand command).toList := by
      have hcolon : (": " : String).toList = [':', ' '] := rfl
      have hparts : exitMessage command code =
          "Command failed with exit code " ++ toString code ++ (": " ++ formatCommand command) :=
        String.append_assoc
      rw [hparts, String.toList_append, String.toList_append (s := ": "), hcolon]
      rfl
    rw [hshape, Text.cutAt_append]
    rw [String.toList_append, List.mem_append, not_or]
    exact ⟨by decide, not_mem_toString (by decide) (by decide) code⟩
  have hrest := (hcut a j).symm.trans ((congrArg (Text.cutAt ':' ·.toList) h).trans (hcut b k))
  simp only [Prod.mk.injEq, Option.some.injEq, List.cons.injEq, true_and] at hrest
  exact formatCommand_injective (String.toList_inj.mp hrest.2)

theorem dryRunLine_injective {workspace : Option Path} {a b : Invocation}
    (hpurpose : a.purpose = b.purpose) (hdirectory : a.directory = b.directory)
    (h : a.dryRunLine workspace = b.dryRunLine workspace) : a.command = b.command := by
  unfold Invocation.dryRunLine at h
  dsimp only at h
  rw [hpurpose, hdirectory] at h
  generalize hhead : "[dry-run]" :: (b.purpose.filter (· ≠ "")).toList = head at h
  have hne (more : List String) : head ++ more ≠ [] := by simp [← hhead]
  rw [String.intercalate_append_of_ne_nil (hne _) (List.cons_ne_nil _ _),
    String.intercalate_append_of_ne_nil (hne _) (List.cons_ne_nil _ _),
    String.append_right_inj, String.intercalate_singleton, String.intercalate_singleton] at h
  exact formatCommand_injective h

namespace ShellWord

/-- The written form of a command is a faithful one: it is read back, also from the messages that
show it, and nothing in it but harmless characters stands outside quotes. -/
structure Faithful (command : List String) : Prop where
  readBack : splitWords (formatCommand command).toList = some (command.map String.toList)
  determined : ∀ other, formatCommand other = formatCommand command → other = command
  diagnosed : ∀ other j k, exitMessage other j = exitMessage command k → other = command
  listed : ∀ other directory purpose workspace,
    (Invocation.mk other directory purpose).dryRunLine workspace =
      (Invocation.mk command directory purpose).dryRunLine workspace → other = command
  sheltered : ∀ pre c post, (formatCommand command).toList = pre ++ c :: post →
    (Reader.start.read pre).Sheltered ∨ IsBare c ∨ c = ' ' ∧ ∃ before after, before ≠ [] ∧
      after ≠ [] ∧ command = before ++ after ∧ pre = (formatCommand before).toList ∧
      post = (formatCommand after).toList

theorem formatCommand_faithful (command : List String) : Faithful command where
  readBack := splitWords_formatCommand command
  determined _ := formatCommand_injective
  diagnosed _ _ _ := exitMessage_injective
  listed _ _ _ _ := dryRunLine_injective rfl rfl
  sheltered pre c post h := by
    rw [toList_formatCommand] at h
    rcases sheltered_joinChars [] h with hs | hb | ⟨hc, us, vs, hus, hvs, hw, rfl, rfl⟩
    · exact .inl hs
    · exact .inr (.inl hb)
    · obtain ⟨before, after, rfl, rfl, rfl⟩ := List.map_eq_append_iff.mp hw
      exact .inr (.inr ⟨hc, before, after, by simpa using hus, by simpa using hvs, rfl,
        (toList_formatCommand before).symm, (toList_formatCommand after).symm⟩)

example : splitWords (formatCommand ["it's", "", "$A\n"]).toList =
    some ["it's".toList, [], "$A\n".toList] := by decide

end ShellWord

end TabPackager
