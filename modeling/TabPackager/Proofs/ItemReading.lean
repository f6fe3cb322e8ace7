import TabPackager.Proofs.OptionSpellings

/-!
# Items of a command line

A command line is written item by item: a plain argument, a flag, or an option with its value. An
item is read alike wherever it stands, and plain arguments count in their own order.
-/

namespace TabPackager.CommandLine

/-- How an option is written with its value: in two arguments, in one with an equals sign between
them, or in one with the value right behind a short spelling. -/
inductive Writing (spelling value : String) where
  | separate (bare : value.toList.head? ≠ some '-')
  | attached
  | joined (short : isShort spelling = true) (filled : value ≠ "")
    (direct : value.toList.head? ≠ some '=')

/-- An item of a command line. A plain argument has no hyphen in front, and a value of `log` is
the name of a level. -/
inductive Item where
  | plain (a : String) (bare : a.toList.head? ≠ some '-')
  | flag (f : Flag) (spelling : String) (known : (spelling, .flag f) ∈ spellings)
    (quiet : f ≠ .help)
  | setting (t : Setting) (spelling value : String) (known : (spelling, .setting t) ∈ spellings)
    (level : t = .log → (Level.ofName? value).isSome) (writing : Writing spelling value)

def Writing.arguments {spelling value : String} : Writing spelling value → List String
  | separate _ => [spelling, value]
  | attached => [spelling ++ "=" ++ value]
  | joined _ _ _ => [spelling ++ value]

def Writing.tokens {spelling value : String} (t : Setting) :
    Writing spelling value → List Token
  | separate _ => [.option (.setting t) (isShort spelling) none, .plain value]
  | attached => [.option (.setting t) (isShort spelling) (some value.toList)]
  | joined _ _ _ => [.option (.setting t) true (some value.toList)]

namespace Item

def arguments : Item → List String
  | plain a _ => [a]
  | flag _ s _ _ => [s]
  | setting _ _ _ _ _ w => w.arguments

def tokens : Item → List Token
  | plain a _ => [.plain a]
  | flag f s _ _ => [.option (.flag f) (isShort s) none]
  | setting t _ _ _ _ w => w.tokens t

def plain? : Item → Option String
  | plain a _ => some a
  | _ => none

def flag? : Item → Option Flag
  | flag f _ _ _ => some f
  | _ => none

def value? (t : Setting) : Item → Option String
  | setting u _ v _ _ _ => if u = t then some v else none
  | _ => none

end Item

theorem Writing.classified {s v : String} {t : Setting} (w : Writing s v)
    (known : (s, .setting t) ∈ spellings) (rest : List String) :
    CommandLine.tokens (w.arguments ++ rest) =
      (CommandLine.tokens rest).map (w.tokens t ++ ·) := by
  cases w with
  | separate bare =>
    show CommandLine.tokens (s :: v :: rest) = _
    rw [tokens_cons (spelling_ne_separator known) (classify_spelling known),
      tokens_cons (ne_separator_of_bare bare) (classify_plain bare)]
    cases CommandLine.tokens rest <;> rfl
  | attached =>
    refine tokens_cons ?_ (classify_attached known v) rest
    intro heq
    have hmem : '=' ∈ ("--" : String).toList := by
      rw [← heq, String.toList_append, String.toList_append]
      simp
    exact absurd hmem (by decide)
  | joined short filled direct =>
    refine tokens_cons ?_ (classify_joined known short filled direct) rest
    intro heq
    have hlen := congrArg (fun a : String => a.toList.length) heq
    have htwo : s.toList.length = 2 := by simpa [isShort] using short
    have hpos : 0 < v.toList.length := List.length_pos_iff.mpr (by simpa using filled)
    have hdash : ("--" : String).toList.length = 2 := by decide
    simp only [String.toList_append, List.length_append, htwo, hdash] at hlen
    omega

theorem Item.classified (i : Item) (rest : List String) :
    CommandLine.tokens (i.arguments ++ rest) =
      (CommandLine.tokens rest).map (i.tokens ++ ·) := by
  cases i with
  | plain a bare => exact tokens_cons (ne_separator_of_bare bare) (classify_plain bare) rest
  | flag f s known quiet =>
    exact tokens_cons (spelling_ne_separator known) (classify_spelling known) rest
  | setting t s v known level w => exact w.classified known rest

theorem tokens_items (items : List Item) (rest : List String) :
    tokens (items.flatMap Item.arguments ++ rest) =
      (tokens rest).map (items.flatMap Item.tokens ++ ·) := by
  induction items with
  | nil => cases h : tokens rest <;> simp [h, Except.map]
  | cons i items ih =>
    rw [List.flatMap_cons, List.append_assoc, Item.classified, ih]
    cases tokens rest <;> simp [Except.map]

def Options.set (o : Options) (t : Setting) (v : String) : Options :=
  match t with
  | .config => { o with config := .path v }
  | .directory => { o with directory := .path v }
  | .bundle => { o with bundle := .path v }
  | .log => { o with log := (Level.ofName? v).getD .none }

/-- Raises a flag. The help is asked for, not raised. -/
def Options.raise (o : Options) (f : Flag) : Options :=
  match f with
  | .help => o
  | .dryRun => { o with dryRun := true }
  | .verbose => { o with verbose := true }

def Item.adjust (i : Item) (o : Options) : Options :=
  match i with
  | plain _ _ => o
  | flag f _ _ _ => o.raise f
  | setting t _ v _ _ _ => o.set t v

def Item.take (i : Item) (s : Seen) : Seen :=
  match i.plain? with
  | some a => s.addPlain a
  | none => { s.endGroup with options := i.adjust s.options }

theorem endGroup_options (s : Seen) : s.endGroup.options = s.options := by
  unfold Seen.endGroup
  split <;> rfl

theorem setValue_eq {s : Seen} {t : Setting} {v : String}
    (hv : t = .log → (Level.ofName? v).isSome) :
    s.setValue t v = .ok { s with options := s.options.set t v } := by
  cases t with
  | log =>
    obtain ⟨l, hl⟩ := Option.isSome_iff_exists.mp (hv rfl)
    have hne : v ≠ "--" := by
      rintro rfl
      revert hl
      cases l <;> decide
    simp [Seen.setValue, Options.set, hne, hl]
  | _ => rfl

theorem setFlags_singleton {s : Seen} {f : Flag} (hf : f ≠ .help) :
    s.setFlags [f] = .ok { s with options := s.options.raise f } := by
  cases f with
  | help => exact absurd rfl hf
  | _ => rfl

theorem bind_of_eq {ε α β : Type} {x : Except ε α} {a : α} (h : x = .ok a)
    (f : α → Except ε β) : x >>= f = f a := by
  rw [h]
  rfl

section Steps

variable {s : Seen} {o : Switch} {short : Bool} {attached : Option (List Char)}
  {flags : List Flag} {t : Setting} {v : String}

-- The recursion of `read` is opened by hand: the match on the tokens behind an option leaves it
-- without equations.

theorem read_flags (h : unpack o short attached = .ok (flags, none)) (ts : List Token) :
    read s (.option o short attached :: ts) = s.endGroup.setFlags flags >>= (read · ts) := by
  delta read
  exact bind_of_eq h _

theorem read_value (h : unpack o short attached = .ok (flags, some (t, some v)))
    (ts : List Token) :
    read s (.option o short attached :: ts) =
      s.endGroup.setFlags flags >>= fun s => s.setValue t v >>= (read · ts) := by
  delta read
  exact bind_of_eq h _

theorem read_next (h : unpack o short attached = .ok (flags, some (t, none)))
    (ts : List Token) :
    read s (.option o short attached :: .plain v :: ts) =
      s.endGroup.setFlags flags >>= fun s => s.setValue t v >>= (read · ts) := by
  delta read
  exact bind_of_eq h _

/-- An option takes its value in the same way from its own argument and from the next one. -/
theorem setFlags_setValue (hv : t = .log → (Level.ofName? v).isSome) (ts : List Token) :
    (s.endGroup.setFlags [] >>= fun s => s.setValue t v >>= (read · ts)) =
      read { s.endGroup with options := s.options.set t v } ts := by
  rw [bind_of_eq (show s.endGroup.setFlags [] = .ok s.endGroup from rfl), setValue_eq hv,
    endGroup_options]
  rfl

end Steps

theorem read_writing (s : Seen) {t : Setting} {spelling v : String} (w : Writing spelling v)
    (level : t = .log → (Level.ofName? v).isSome) (ts : List Token) :
    read s (w.tokens t ++ ts) = read { s.endGroup with options := s.options.set t v } ts := by
  cases w with
  | separate bare =>
    have hu : unpack (.setting t) (isShort spelling) none = .ok ([], some (t, none)) := by
      rw [unpack]
      rfl
    show read s (.option (.setting t) (isShort spelling) none :: .plain v :: ts) = _
    rw [read_next hu, setFlags_setValue level]
  | attached =>
    have hu : unpack (.setting t) (isShort spelling) (some v.toList) =
        .ok ([], some (t, some v)) := by
      rw [unpack, Option.map_some, String.ofList_toList]
    show read s (.option (.setting t) (isShort spelling) (some v.toList) :: ts) = _
    rw [read_value hu, setFlags_setValue level]
  | joined short filled direct =>
    have hu : unpack (.setting t) true (some v.toList) = .ok ([], some (t, some v)) := by
      rw [unpack, Option.map_some, String.ofList_toList]
    show read s (.option (.setting t) true (some v.toList) :: ts) = _
    rw [read_value hu, setFlags_setValue level]

/-- One item is read to its end, whatever follows. -/
theorem read_item (s : Seen) (i : Item) (ts : List Token) :
    read s (i.tokens ++ ts) = read (i.take s) ts := by
  cases i with
  | plain a bare => rfl
  | flag f spelling known quiet =>
    have hu : unpack (.flag f) (isShort spelling) none = .ok ([f], none) := by rw [unpack]
    show read s (.option (.flag f) (isShort spelling) none :: ts) = _
    rw [read_flags hu, bind_of_eq (setFlags_singleton quiet), endGroup_options]
    rfl
  | setting t spelling v known level w => exact read_writing s w level ts

def takeAll (s : Seen) (items : List Item) : Seen := items.foldl (fun s i => i.take s) s

theorem takeAll_cons (s : Seen) (i : Item) (items : List Item) :
    takeAll s (i :: items) = takeAll (i.take s) items := rfl

theorem read_items (s : Seen) (items : List Item) (ts : List Token) :
    read s (items.flatMap Item.tokens ++ ts) = read (takeAll s items) ts := by
  induction items generalizing s with
  | nil => rfl
  | cons i items ih =>
    rw [List.flatMap_cons, List.append_assoc, read_item, ih, takeAll_cons]

namespace Seen

def arguments (s : Seen) : List String := s.first ++ s.others

/-- Nothing stands with the others as long as the first group has not ended. -/
def Ordered (s : Seen) : Prop := s.group ≠ .ended → s.others = []

theorem arguments_endGroup (s : Seen) : s.endGroup.arguments = s.arguments := by
  unfold endGroup
  split <;> rfl

theorem Ordered.endGroup {s : Seen} (h : s.Ordered) : s.endGroup.Ordered := by
  unfold Seen.endGroup
  split
  · intro hne
    exact absurd rfl hne
  · exact h

theorem Ordered.arguments_addPlain {s : Seen} (h : s.Ordered) (a : String) :
    (s.addPlain a).arguments = s.arguments ++ [a] := by
  unfold addPlain
  split
  · simp [arguments]
  · next hne => simp [arguments, h hne]

theorem Ordered.addPlain {s : Seen} (h : s.Ordered) (a : String) : (s.addPlain a).Ordered := by
  unfold Seen.addPlain
  split
  · next heq =>
    intro hne
    exact absurd heq hne
  · next hne =>
    intro _
    exact h hne

theorem Ordered.take {s : Seen} (h : s.Ordered) (i : Item) : (i.take s).Ordered := by
  cases i with
  | plain a _ => exact h.addPlain a
  | _ => exact h.endGroup

theorem Ordered.arguments_take {s : Seen} (h : s.Ordered) (i : Item) :
    (i.take s).arguments = s.arguments ++ i.plain?.toList := by
  cases i with
  | plain a _ => exact h.arguments_addPlain a
  | _ =>
    rw [show Item.plain? _ = none from rfl, Option.toList_none, List.append_nil,
      ← arguments_endGroup s]
    rfl

theorem Ordered.arguments_takeAll {s : Seen} (h : s.Ordered) (items : List Item) :
    (takeAll s items).arguments = s.arguments ++ items.filterMap Item.plain? := by
  induction items generalizing s with
  | nil => simp [takeAll]
  | cons i items ih =>
    rw [takeAll_cons, ih (h.take i), h.arguments_take, List.append_assoc]
    cases hp : i.plain? <;> simp [hp]

end Seen

end TabPackager.CommandLine
