import TabPackager.Proofs.CheckedReading

/-!
# The order of keys

The order in which the keys stand in a mapping and in its tables does not show, neither in what is
read from it nor in what the first failing check says.
-/

namespace TabPackager.Config

/-- What the reading of a mapping looks at: the keys, tables up to the order of their entries,
and the values in the tables. -/
structure ReadAlike (es es' : Entries) : Prop where
  keys : (es.map Prod.fst).Perm (es'.map Prod.fst)
  tables : ∀ name, es.get? name = es'.get? name ∨
    ∃ t u : Entries, es.get? name = some (.map t) ∧ es'.get? name = some (.map u) ∧ t.Perm u
  fields : ∀ name key, field? es name key = field? es' name key

theorem ReadAlike.symm {es es' : Entries} (h : ReadAlike es es') : ReadAlike es' es where
  keys := h.keys.symm
  tables name := by
    rcases h.tables name with heq | ⟨t, u, ht, hu, hp⟩
    · exact .inl heq.symm
    · exact .inr ⟨u, t, hu, ht, hp.symm⟩
  fields name key := (h.fields name key).symm

theorem Listed.of_perm {known : List String} {es es' : Entries} {keys : List Value}
    {texts : List String} (h : Listed known es keys texts)
    (hp : (es.map Prod.fst).Perm (es'.map Prod.fst)) : Listed known es' keys texts where
  unknown := h.unknown.trans (hp.filter _)
  nonempty := h.nonempty
  theirs := h.theirs
  ascending := h.ascending

theorem Complains.of_readAlike {es es' : Entries} (h : ReadAlike es es') {c : Check}
    {msg : String} {keys : List Value} (hc : Complains es c msg keys) :
    Complains es' c msg keys := by
  cases hc with
  | tableNames listed => exact .tableNames (listed.of_perm h.keys)
  | @isTable name v given other =>
    rcases h.tables name with heq | ⟨t, u, ht, -, -⟩
    · exact .isTable (heq.symm.trans given) other
    · cases given.symm.trans ht
      exact absurd rfl (other t)
  | @tableKeys name known t keys texts given listed =>
    rcases h.tables name with heq | ⟨t', u, ht, hu, hp⟩
    · exact .tableKeys (heq.symm.trans given) listed
    · cases given.symm.trans ht
      exact .tableKeys hu (listed.of_perm (hp.map _))
  | command given unlisted => exact .command (by rw [← h.fields, given]) unlisted
  | emptyCommand given lists blank => exact .emptyCommand (by rw [← h.fields, given]) lists blank
  | arguments given unlisted => exact .arguments (by rw [← h.fields, given]) unlisted

theorem Passes.of_readAlike {es es' : Entries} (h : ReadAlike es es') {c : Check}
    (hc : Passes es c) : Passes es' c :=
  fun msg keys hcomplains => hc msg keys (hcomplains.of_readAlike h.symm)

theorem FirstComplaint.of_readAlike {es es' : Entries} (h : ReadAlike es es') {cs : List Check}
    {msg : String} {keys : List Value} (hc : FirstComplaint es cs msg keys) :
    FirstComplaint es' cs msg keys := by
  induction hc with
  | here fails => exact .here (fails.of_readAlike h)
  | later passes _ ih => exact .later (passes.of_readAlike h) ih

def Refused (es : Entries) (msg : String) : Prop :=
  ∃ e, ofEntries es = .error (.config e) ∧ e.message = msg

end TabPackager.Config
