import TabPackager.Proofs.Checks

/-!
# Reading in the order of the checks

Each step of the reading of a mapping stands for some of the checks. It gives a result if all of them
pass, and else what the first that fails says, and so does the reading as a whole.
-/

namespace TabPackager.Config

/-- A step of the reading stands for some checks: it gives a result if all pass, and else the
complaint of the first that fails. -/
def Decides {α : Type} (es : Entries) (cs : List Check) (step : Except Error α) : Prop :=
  match step with
  | .ok _ => ∀ c ∈ cs, Passes es c
  | .error e => ∃ keys, FirstComplaint es cs e.message keys ∧
      e.isShowable = Value.areShowable keys

theorem firstComplaint_append {es : Entries} {cs : List Check} {msg : String}
    {keys : List Value} (h : FirstComplaint es cs msg keys) (ds : List Check) :
    FirstComplaint es (cs ++ ds) msg keys := by
  induction h with
  | here fails => exact .here fails
  | later passes _ ih => exact .later passes ih

theorem firstComplaint_of_passes {es : Entries} {cs ds : List Check} {msg : String}
    {keys : List Value} (hcs : ∀ c ∈ cs, Passes es c) (h : FirstComplaint es ds msg keys) :
    FirstComplaint es (cs ++ ds) msg keys := by
  induction cs with
  | nil => exact h
  | cons c cs ih =>
    exact .later (hcs c List.mem_cons_self) (ih fun d hd => hcs d (List.mem_cons_of_mem c hd))

theorem Decides.bind {α β : Type} {es : Entries} {cs ds : List Check} {x : Except Error α}
    {f : α → Except Error β} (hx : Decides es cs x)
    (hf : ∀ a, x = .ok a → Decides es ds (f a)) : Decides es (cs ++ ds) (x >>= f) := by
  cases x with
  | error e =>
    obtain ⟨keys, hfirst, hshow⟩ := hx
    exact ⟨keys, firstComplaint_append hfirst ds, hshow⟩
  | ok a =>
    have hrest := hf a rfl
    show Decides es (cs ++ ds) (f a)
    cases hfa : f a with
    | error e =>
      rw [hfa] at hrest
      obtain ⟨keys, hfirst, hshow⟩ := hrest
      exact ⟨keys, firstComplaint_of_passes hx hfirst, hshow⟩
    | ok b =>
      rw [hfa] at hrest
      intro c hc
      exact (List.mem_append.mp hc).elim (hx c) (hrest c)

end TabPackager.Config
