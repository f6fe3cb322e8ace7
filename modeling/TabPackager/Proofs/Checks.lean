import TabPackager.Proofs.DistinctKeys

/-!
# Checks of a mapping

A mapping is checked in a fixed order: its tables are known, each of the two is a table with known
keys, then come the two commands and the arguments of the build. A check that fails says one thing,
with unknown keys in the order of their texts.
-/

namespace TabPackager.Config

inductive Check where
  | tableNames
  | isTable (name : String)
  | tableKeys (name : String) (known : List String)
  | command (key : String)
  | arguments

def checks : List Check :=
  [.tableNames,
    .isTable "tools", .tableKeys "tools" ["cargo", "elf2tab"],
    .isTable "build", .tableKeys "build" ["extra_args"],
    .command "cargo", .command "elf2tab", .arguments]

/-- The keys are the unknown ones among those of the mapping, and the texts are theirs in
ascending order. -/
structure Listed (known : List String) (es : Entries) (keys : List Value)
    (texts : List String) : Prop where
  unknown : keys.Perm (unknownKeys known es)
  nonempty : keys ≠ []
  theirs : texts.Perm (keys.map Value.keyText)
  ascending : texts.Pairwise (· ≤ ·)

/-- What is said about a value that does not stand for texts. -/
inductive Unlisted (field : String) (v : Value) : String → Prop
  | mixed {items : List Value} (sequence : v.items? = some items)
      (other : ∀ ss : List String, items ≠ ss.map .text) :
      Unlisted field v (field ++ " entries must be strings")
  | scalar (single : v.items? = none) (given : v ≠ .null) (other : ∀ s, v ≠ .text s) :
      Unlisted field v (field ++ " must be a string or sequence of strings")

/-- What a check that fails says, and which keys it names. -/
inductive Complains (es : Entries) : Check → String → List Value → Prop
  | tableNames {keys : List Value} {texts : List String}
      (listed : Listed ["tools", "build"] es keys texts) :
      Complains es .tableNames
        ("Unknown configuration table(s): " ++ ", ".intercalate texts) keys
  | isTable {name : String} {v : Value} (given : es.get? name = some v)
      (other : ∀ t, v ≠ .map t) :
      Complains es (.isTable name) ("[" ++ name ++ "] must be a table") []
  | tableKeys {name : String} {known : List String} {t : Entries} {keys : List Value}
      {texts : List String} (given : es.get? name = some (.map t))
      (listed : Listed known t keys texts) :
      Complains es (.tableKeys name known)
        ("Unknown key(s) in [" ++ name ++ "]: " ++ ", ".intercalate texts) keys
  | command {key : String} {v : Value} {msg : String} (given : field? es "tools" key = some v)
      (unlisted : Unlisted ("tools." ++ key) v msg) : Complains es (.command key) msg []
  | emptyCommand {key : String} {v : Value} {ss : List String}
      (given : field? es "tools" key = some v) (lists : v.Lists ss) (blank : trimmedTexts ss = []) :
      Complains es (.command key) ("tools." ++ key ++ " must not be empty") []
  | arguments {v : Value} {msg : String} (given : field? es "build" "extra_args" = some v)
      (unlisted : Unlisted "build.extra_args" v msg) : Complains es .arguments msg []

def Passes (es : Entries) (c : Check) : Prop := ∀ msg keys, ¬Complains es c msg keys

/-- What the first check that fails says, and which keys it names. -/
inductive FirstComplaint (es : Entries) : List Check → String → List Value → Prop
  | here {c : Check} {cs : List Check} {msg : String} {keys : List Value}
      (fails : Complains es c msg keys) : FirstComplaint es (c :: cs) msg keys
  | later {c : Check} {cs : List Check} {msg : String} {keys : List Value}
      (passes : Passes es c) (rest : FirstComplaint es cs msg keys) :
      FirstComplaint es (c :: cs) msg keys

theorem Unlisted.unique {field : String} {v : Value} {msg msg' : String}
    (h : Unlisted field v msg) (h' : Unlisted field v msg') : msg = msg' := by
  cases h with
  | mixed sequence _ =>
    cases h' with
    | mixed _ _ => rfl
    | scalar single _ _ => cases sequence.symm.trans single
  | scalar single _ _ =>
    cases h' with
    | mixed sequence _ => cases single.symm.trans sequence
    | scalar _ _ _ => rfl

theorem Unlisted.not_lists {field : String} {v : Value} {msg : String} (h : Unlisted field v msg)
    (ss : List String) : ¬v.Lists ss := by
  intro hlists
  cases h with
  | mixed sequence other =>
    cases hlists with
    | null => cases sequence
    | text s => cases sequence
    | sequence hss => exact other ss (Option.some.inj (sequence.symm.trans hss))
  | scalar single given other =>
    cases hlists with
    | null => exact given rfl
    | text s => exact other s rfl
    | sequence hss => cases single.symm.trans hss

theorem Listed.unique {known : List String} {es : Entries} {keys keys' : List Value}
    {texts texts' : List String} (h : Listed known es keys texts)
    (h' : Listed known es keys' texts') : texts = texts' ∧ keys.Perm keys' := by
  have hkeys : keys.Perm keys' := h.unknown.trans h'.unknown.symm
  have htexts : texts.Perm texts' := (h.theirs.trans (hkeys.map _)).trans h'.theirs.symm
  refine ⟨htexts.eq_of_pairwise ?_ h.ascending h'.ascending, hkeys⟩
  intro a b _ _ hab hba
  exact String.le_antisymm hab hba

theorem Complains.unique {es : Entries} {c : Check} {msg msg' : String}
    {keys keys' : List Value} (h : Complains es c msg keys) (h' : Complains es c msg' keys') :
    msg = msg' ∧ keys.Perm keys' := by
  cases h with
  | tableNames listed =>
    cases h' with
    | tableNames listed' =>
      obtain ⟨rfl, hkeys⟩ := listed.unique listed'
      exact ⟨rfl, hkeys⟩
  | isTable given other =>
    cases h' with
    | isTable given' other' => exact ⟨rfl, .refl _⟩
  | tableKeys given listed =>
    cases h' with
    | tableKeys given' listed' =>
      cases given.symm.trans given'
      obtain ⟨rfl, hkeys⟩ := listed.unique listed'
      exact ⟨rfl, hkeys⟩
  | command given unlisted =>
    cases h' with
    | command given' unlisted' =>
      cases given.symm.trans given'
      exact ⟨unlisted.unique unlisted', .refl _⟩
    | emptyCommand given' lists' _ =>
      cases given.symm.trans given'
      exact absurd lists' (unlisted.not_lists _)
  | emptyCommand given lists _ =>
    cases h' with
    | command given' unlisted' =>
      cases given.symm.trans given'
      exact absurd lists (unlisted'.not_lists _)
    | emptyCommand _ _ _ => exact ⟨rfl, .refl _⟩
  | arguments given unlisted =>
    cases h' with
    | arguments given' unlisted' =>
      cases given.symm.trans given'
      exact ⟨unlisted.unique unlisted', .refl _⟩

theorem FirstComplaint.unique {es : Entries} {cs : List Check} {msg msg' : String}
    {keys keys' : List Value} (h : FirstComplaint es cs msg keys)
    (h' : FirstComplaint es cs msg' keys') : msg = msg' ∧ keys.Perm keys' := by
  induction h with
  | here fails =>
    cases h' with
    | here fails' => exact fails.unique fails'
    | later passes _ => exact absurd fails (passes _ _)
  | later passes _ ih =>
    cases h' with
    | here fails => exact absurd fails (passes _ _)
    | later _ rest => exact ih rest

section

variable {es : Entries} {name key : String} {known : List String}

theorem Listed.ne_nil {keys : List Value} {texts : List String}
    (h : Listed known es keys texts) : unknownKeys known es ≠ [] := by
  intro hnil
  have hkeys := h.unknown
  rw [hnil, List.perm_nil] at hkeys
  exact h.nonempty hkeys

end

theorem Value.Lists.unique {v : Value} {ss ss' : List String} (h : v.Lists ss)
    (h' : v.Lists ss') : ss = ss' := by
  have htext : Function.Injective (List.map Value.text) :=
    List.map_injective_iff.mpr fun _ _ => Value.text.inj
  cases h with
  | null =>
    cases h' with
    | null => rfl
    | sequence h' => cases h'
  | text s =>
    cases h' with
    | text _ => rfl
    | sequence h' => cases h'
  | sequence h =>
    cases h' with
    | null => cases h
    | text _ => cases h
    | sequence h' => exact htext (Option.some.inj (h.symm.trans h'))

end TabPackager.Config
