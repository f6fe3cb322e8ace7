import TabPackager.Commands
import TabPackager.Config.File
import TabPackager.Proofs.FieldReading

/-!
# Accepted configurations

Which mappings are configurations, and what is read from them. A mapping is accepted exactly when
its two tables hold the known keys with values that stand for texts, and what is read are these
texts, trimmed and without the blank ones. Every other mapping is refused with a message, except
that a number with too many digits among its unknown keys cannot be put into one.
-/

namespace TabPackager

namespace Config

open Text

/-- The keys that have no place in a configuration, at the root and in its tables. -/
def foreignKeys (es : Entries) : List Value :=
  let inTable (name : String) (known : List String) : List Value :=
    match es.get? name with
    | some (.map t) => unknownKeys known t
    | _ => []
  unknownKeys ["tools", "build"] es ++ inTable "tools" ["cargo", "elf2tab"] ++
    inTable "build" ["extra_args"]

theorem packaging_eq_ok_iff {es : Entries} {p : Packaging} :
    packaging es = .ok p ↔ es.KeysIn ["tools", "build"] ∧ ∃ tools build,
      table es "tools" ["cargo", "elf2tab"] = .ok tools ∧
      table es "build" ["extra_args"] = .ok build ∧
      (ReadsAs ["cargo"] p.cargo (field? es "tools" "cargo") ∧ p.cargo ≠ []) ∧
      (ReadsAs ["elf2tab"] p.elf2tab (field? es "tools" "elf2tab") ∧ p.elf2tab ≠ []) ∧
      ReadsAs [] p.cargoArgs (field? es "build" "extra_args") := by
  have hparts : packaging es = .ok p ↔ unknownKeys ["tools", "build"] es = [] ∧ ∃ tools,
      table es "tools" ["cargo", "elf2tab"] = .ok tools ∧ ∃ build,
      table es "build" ["extra_args"] = .ok build ∧ ∃ cargo,
      toolCommand tools "cargo" ["cargo"] = .ok cargo ∧ ∃ elf2tab,
      toolCommand tools "elf2tab" ["elf2tab"] = .ok elf2tab ∧ ∃ cargoArgs,
      stringList "build.extra_args" ((build.get? "extra_args").getD .null) = .ok cargoArgs ∧
      (⟨cargo, elf2tab, cargoArgs⟩ : Packaging) = p := by
    unfold packaging
    by_cases h : unknownKeys ["tools", "build"] es = []
    · simp only [h, List.isEmpty_nil, if_true, bind_eq_ok, pure, Except.pure, Except.ok.injEq,
        true_and]
    · simp [h, throw, throwThe, MonadExceptOf.throw, bind_eq_ok]
  rw [hparts, unknownKeys_eq_nil_iff]
  refine and_congr_right fun _ => ?_
  constructor
  · rintro ⟨tools, ht, build, hb, cargo, hc, elf2tab, he, cargoArgs, ha, rfl⟩
    rw [toolCommand_eq_ok_iff (by simp), get?_of_table ht] at hc he
    rw [arguments_eq_ok_iff, get?_of_table hb] at ha
    exact ⟨tools, build, ht, hb, hc, he, ha⟩
  · rintro ⟨tools, build, ht, hb, hc, he, ha⟩
    rw [← get?_of_table ht, ← toolCommand_eq_ok_iff (by simp)] at hc he
    rw [← get?_of_table hb, ← arguments_eq_ok_iff] at ha
    exact ⟨tools, ht, build, hb, _, hc, _, he, _, ha, rfl⟩

theorem exists_of_not_areShowable {keys : List Value} (h : Value.areShowable keys = false) :
    ∃ k ∈ keys, k.isShowable = false := by
  induction keys with
  | nil => simp [Value.areShowable] at h
  | cons k ks ih =>
    rw [Value.areShowable, Bool.and_eq_false_iff] at h
    rcases h with h | h
    · exact ⟨k, List.mem_cons_self, h⟩
    · obtain ⟨k', hk', hs⟩ := ih h
      exact ⟨k', List.mem_cons_of_mem k hk', hs⟩

theorem table_eq_error {es : Entries} {name : String} {known : List String} {e : Error}
    (h : table es name known = .error e) : e = .notTable name ∨
      ∃ t, es.get? name = some (.map t) ∧ e = .unknownKeys name (unknownKeys known t) := by
  unfold table at h
  split at h
  · cases h
  · next t ht =>
    dsimp only at h
    split at h
    · cases h
    · cases h
      exact .inr ⟨t, ht, rfl⟩
  · cases h
    exact .inl rfl

theorem isShowable_of_toolCommand {tools : Entries} {key : String} {default : List String}
    {e : Error} (h : toolCommand tools key default = .error e) : e.isShowable = true := by
  unfold toolCommand at h
  split at h
  · cases h
  · rw [bind_eq_error] at h
    rcases h with h | ⟨command, -, h⟩
    · exact isShowable_of_stringList h
    · split at h
      · cases h
        rfl
      · cases h

theorem isShowable_of_packaging {es : Entries} {e : Error} (h : packaging es = .error e) :
    e.isShowable = true ∨ ∃ k ∈ foreignKeys es, k.isShowable = false := by
  have hshown {keys : List Value} (hkeys : ∀ k ∈ keys, k ∈ foreignKeys es) :
      Value.areShowable keys = true ∨ ∃ k ∈ foreignKeys es, k.isShowable = false := by
    cases hs : Value.areShowable keys with
    | true => exact .inl rfl
    | false =>
      obtain ⟨k, hk, hn⟩ := exists_of_not_areShowable hs
      exact .inr ⟨k, hkeys k hk, hn⟩
  have htable {name : String} {known : List String} (ht : table es name known = .error e)
      (hforeign : ∀ t, es.get? name = some (.map t) →
        ∀ k ∈ unknownKeys known t, k ∈ foreignKeys es) :
      e.isShowable = true ∨ ∃ k ∈ foreignKeys es, k.isShowable = false := by
    rcases table_eq_error ht with rfl | ⟨t, hget, rfl⟩
    · exact .inl rfl
    · exact hshown (hforeign t hget)
  by_cases hroot : unknownKeys ["tools", "build"] es = []
  · unfold packaging at h
    simp only [hroot, List.isEmpty_nil, if_true, bind_eq_error] at h
    rcases h with h | ⟨tools, -, h | ⟨build, -, h | ⟨cargo, -, h | ⟨elf2tab, -, h |
      ⟨cargoArgs, -, h⟩⟩⟩⟩⟩
    · exact htable h fun t ht k hk => by simp [foreignKeys, ht, hk]
    · exact htable h fun t ht k hk => by simp [foreignKeys, ht, hk]
    · exact .inl (isShowable_of_toolCommand h)
    · exact .inl (isShowable_of_toolCommand h)
    · exact .inl (isShowable_of_stringList h)
    · cases h
  · have hunknown :
        packaging es = .error (.unknownTables (unknownKeys ["tools", "build"] es)) := by
      unfold packaging
      simp [hroot, throw, throwThe, MonadExceptOf.throw, bind, Except.bind]
    cases hunknown.symm.trans h
    exact hshown fun k hk => by simp [foreignKeys, hk]

theorem ofEntries_eq_ok_iff {es : Entries} {p : Packaging} :
    ofEntries es = .ok p ↔ packaging es = .ok p := by
  unfold ofEntries
  split
  · next p' h => simp [h]
  · next e h =>
    rw [h]
    split <;> simp

theorem ofEntries_of_error {es : Entries} {e : Error} (h : packaging es = .error e) :
    ofEntries es = if e.isShowable then .error (.config e) else .error .unshowable := by
  rw [ofEntries, h]

theorem ofEntries_eq_error {es : Entries} {f : Fault} (h : ofEntries es = .error f) :
    (∃ e, f = .config e) ∨ f = .unshowable ∧ ∃ k ∈ foreignKeys es, k.isShowable = false := by
  cases hp : packaging es with
  | ok p => cases (ofEntries_eq_ok_iff.mpr hp).symm.trans h
  | error e =>
    rw [ofEntries_of_error hp] at h
    split at h
    · cases h
      exact .inl ⟨e, rfl⟩
    · next hs =>
      cases h
      exact .inr ⟨rfl, (isShowable_of_packaging hp).resolve_left hs⟩

/-- What an accepted configuration holds, and what its commands begin with. -/
structure Reads (es : Entries) (p : Packaging) : Prop where
  cargo : ReadsAs ["cargo"] p.cargo (field? es "tools" "cargo")
  elf2tab : ReadsAs ["elf2tab"] p.elf2tab (field? es "tools" "elf2tab")
  cargoArgs : ReadsAs [] p.cargoArgs (field? es "build" "extra_args")
  trimmed : ∀ s ∈ p.cargo ++ p.elf2tab ++ p.cargoArgs, IsTrimmed s
  buildTool : ∀ l, ∃ tool, p.cargo.head? = some tool ∧ (buildCommand l p).head? = some tool ∧
    IsTrimmed tool
  packageTool : ∀ l, ∃ tool, p.elf2tab.head? = some tool ∧
    (packageCommand l p).head? = some tool ∧ IsTrimmed tool

theorem isTrimmed_of_readsAs {default out : List String} {o : Option Value}
    (h : ReadsAs default out o) (hdefault : ∀ s ∈ default, IsTrimmed s) :
    ∀ s ∈ out, IsTrimmed s := by
  cases o with
  | none =>
    cases h
    exact hdefault
  | some v =>
    obtain ⟨ss, -, rfl⟩ := h
    exact fun s hs => isTrimmed_of_mem_trimmedTexts hs

theorem head?_append_of_trimmed {command : List String} (hne : command ≠ [])
    (htrimmed : ∀ s ∈ command, IsTrimmed s) (more : List String) :
    ∃ tool, command.head? = some tool ∧ (command ++ more).head? = some tool ∧ IsTrimmed tool := by
  cases command with
  | nil => exact absurd rfl hne
  | cons tool rest => exact ⟨tool, rfl, rfl, htrimmed tool List.mem_cons_self⟩

theorem reads_of_packaging {es : Entries} {p : Packaging} (h : packaging es = .ok p) :
    Reads es p := by
  obtain ⟨-, _, _, -, -, ⟨hc, hcne⟩, ⟨he, hene⟩, ha⟩ := packaging_eq_ok_iff.mp h
  have hword (s : String) (hs : s ∈ ["cargo", "elf2tab"]) : IsTrimmed s := by
    rcases List.mem_pair.mp hs with rfl | rfl <;> constructor <;> simp <;> decide
  have hct := isTrimmed_of_readsAs hc fun s hs => hword s (by simp_all)
  have het := isTrimmed_of_readsAs he fun s hs => hword s (by simp_all)
  have hat := isTrimmed_of_readsAs ha (by simp)
  constructor
  case cargo => exact hc
  case elf2tab => exact he
  case cargoArgs => exact ha
  case trimmed =>
    intro s hs
    rcases List.mem_append.mp hs with hs | hs
    · exact (List.mem_append.mp hs).elim (hct s) (het s)
    · exact hat s hs
  case buildTool =>
    intro l
    rw [buildCommand, List.append_assoc]
    exact head?_append_of_trimmed hcne hct _
  case packageTool =>
    intro l
    rw [packageCommand, List.append_assoc, List.append_assoc]
    exact head?_append_of_trimmed hene het _

end Config

end TabPackager
