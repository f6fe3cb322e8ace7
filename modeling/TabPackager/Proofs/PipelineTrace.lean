import TabPackager.Proofs.Actions

/-!
# The trace of the pipeline

Which tools a run of the pipeline calls, in which order and with what, for tools of any
behaviour; when it goes on after each step, judged by the file system that the step has left; what
its result is on every way; and which file system it leaves.
-/

namespace TabPackager.Pipeline

open TabPackager.Action

def callFault? (role : ToolRole) (c : Invocation) : ToolEnd → Option Fault
  | .exited code => if code = 0 then none else some (.failure (.tool role code c.command))
  | .failed e => some (startFault c e)
  | .escaped e => some (.escape e)

theorem callFault?_eq_none {role : ToolRole} {c : Invocation} {e : ToolEnd} :
    callFault? role c e = none ↔ e = .exited 0 := by
  cases e with
  | exited code => by_cases h : code = 0 <;> simp [callFault?, h]
  | failed e => simp [callFault?]
  | escaped e => simp [callFault?]

theorem exec_invoke (tools : Tools) (role : ToolRole) (c : Invocation) (w : World) :
    (invoke tools role c).exec w =
      ((match callFault? role c (tools w.calls c w.files).ending with
          | none => .ok ()
          | some f => .error f),
        (w.afterCall tools c).say
          [.debug ("Running: " ++ ShellWord.formatCommand c.command)]) := by
  rw [invoke, exec_say_bind, exec_bind_ok (exec_call ..), World.say_calls, World.say_files,
    World.afterCall_say]
  cases (tools w.calls c w.files).ending with
  | exited code => by_cases h : code = 0 <;> simp [callFault?, h]
  | failed e => rfl
  | escaped e => rfl

/-- The fault of a run whose build has left a file system without the executable. A dry run does
not look for it. -/
def elfFault? (s : Setup) (l : Layout) (files : FileSystem) : Option Fault :=
  if s.dryRun then none
  else match files.isFile s.cwd.parts (s.workspace / l.elf).text with
    | .ok true => none
    | .ok false => some (.failure (.missingArtifact l.elf))
    | .error why => some (Fault.ofRefusal why (some (s.workspace / l.elf).text))

theorem elfFault?_eq_none {s : Setup} {l : Layout} {files : FileSystem} :
    elfFault? s l files = none ↔
      s.dryRun = true ∨ files.isFile s.cwd.parts (s.workspace / l.elf).text = .ok true := by
  unfold elfFault?
  split
  · simp_all
  · split <;> simp_all

def elfNotes (s : Setup) (l : Layout) : List Message :=
  if s.dryRun then [.dry s!"Would check that {l.elf} exists"] else []

theorem exec_checkElf (s : Setup) (l : Layout) (w : World) :
    (checkElf s l).exec w =
      match elfFault? s l w.files with
      | none => (.ok (), w.say (elfNotes s l))
      | some f => (.error f, w) := by
  unfold checkElf elfFault? elfNotes
  by_cases hd : s.dryRun = true
  · simp only [hd, if_true, exec_say]
  · rw [if_neg hd, if_neg hd, if_neg hd, exec_bind, exec_ask, World.say_nil]
    cases w.files.isFile s.cwd.parts (s.workspace / l.elf).text with
    | error why => rfl
    | ok there => cases there <;> rfl

section

variable (s : Setup) (tools : Tools) (l : Layout) (w : World)

def running (c : Invocation) : Message :=
  .debug ("Running: " ++ ShellWord.formatCommand c.command)

def opening : List Message :=
  [.debug s!"ELF: {l.elf}", .debug s!"TAB: {l.tab}", .debug s!"TBF: {l.tbf}",
    .info s!"Building {l.binary} for {l.triple}"]

def buildRun : ToolRun := tools w.calls (buildCall s l) w.files

def packageRun : ToolRun :=
  tools (w.calls ++ [buildCall s l]) (packageCall s l) (buildRun s tools l w).files

def built : World :=
  (w.afterCall tools (buildCall s l)).say (opening l ++ [running (buildCall s l)])

def packed : World :=
  ((built s tools l w).afterCall tools (packageCall s l)).say
    (elfNotes s l ++ [.info s!"Packaging {l.elf} into {l.tab}", running (packageCall s l)])

def buildFault? : Option Fault :=
  callFault? .build (buildCall s l) (buildRun s tools l w).ending

def packageFault? : Option Fault :=
  callFault? .packaging (packageCall s l) (packageRun s tools l w).ending

def packaged : Packaged :=
  ⟨l, [buildCommand l s.config, packageCommand l s.config], s.dryRun⟩

theorem exec_build : (invoke tools .build (buildCall s l)).exec (w.say (opening l)) =
    ((match buildFault? s tools l w with
        | none => .ok ()
        | some f => .error f), built s tools l w) := by
  rw [exec_invoke, World.afterCall_say, World.say_say]
  rfl

theorem exec_package :
    (invoke tools .packaging (packageCall s l)).exec
      (((built s tools l w).say (elfNotes s l)).say
        [.info s!"Packaging {l.elf} into {l.tab}"]) =
    ((match packageFault? s tools l w with
        | none => .ok ()
        | some f => .error f), packed s tools l w) := by
  rw [exec_invoke, World.say_say, World.afterCall_say, World.say_say, List.append_assoc]
  rfl

/-- A run looks for the workspace, then builds, then looks for the executable where the build has
left it, then packages. The first of these to fail gives the result. -/
theorem exec_run : (run s tools l).exec w =
    match w.files.isDirectory s.cwd.parts s.workspace.text with
    | .error why => (.error (Fault.ofRefusal why (some s.workspace.text)), w)
    | .ok false => (.error (.failure (.noWorkspace s.workspace)), w)
    | .ok true =>
      match buildFault? s tools l w, elfFault? s l (buildRun s tools l w).files,
        packageFault? s tools l w with
      | some f, _, _ => (.error f, built s tools l w)
      | none, some f, _ => (.error f, built s tools l w)
      | none, none, some f => (.error f, packed s tools l w)
      | none, none, none => (.ok (packaged s l), packed s tools l w) := by
  -- One equation for each step; what is left is to follow the first fault.
  rw [run, exec_bind, exec_ask]
  cases w.files.isDirectory s.cwd.parts s.workspace.text with
  | error why => rfl
  | ok there =>
    cases there with
    | false => rfl
    | true =>
      have hb := exec_build s tools l w
      have hc : (checkElf s l).exec (built s tools l w) =
          match elfFault? s l (buildRun s tools l w).files with
          | none => (.ok (), (built s tools l w).say (elfNotes s l))
          | some f => (.error f, built s tools l w) := exec_checkElf s l (built s tools l w)
      have hp := exec_package s tools l w
      simp only [Bool.not_true, Bool.false_eq_true, if_false, exec_say_bind, World.say_say]
      cases hbf : buildFault? s tools l w with
      | some f =>
        rw [hbf] at hb
        exact exec_bind_error hb _
      | none =>
        rw [hbf] at hb
        refine (exec_bind_ok hb _).trans ?_
        cases hef : elfFault? s l (buildRun s tools l w).files with
        | some f =>
          rw [hef] at hc
          exact exec_bind_error hc _
        | none =>
          rw [hef] at hc
          refine (exec_bind_ok hc _).trans ?_
          rw [exec_say_bind, exec_bind, hp]
          cases packageFault? s tools l w <;> rfl

end

/-- How the calls that a run makes, its result and the file system that it leaves hang together
with the tools and the file systems that it meets on its way. -/
structure Traced (s : Setup) (tools : Tools) (l : Layout) (w : World) (made : List Invocation)
    (result : Except Fault Packaged) (w' : World) : Prop where
  calls : w'.calls = w.calls ++ made
  inOrder : made <+: [buildCall s l, packageCall s l]
  none_iff : made = [] ↔ w.files.isDirectory s.cwd.parts s.workspace.text ≠ .ok true
  noWorkspace : w.files.isDirectory s.cwd.parts s.workspace.text = .ok false →
    result = .error (.failure (.noWorkspace s.workspace))
  workspaceRefused : ∀ why, w.files.isDirectory s.cwd.parts s.workspace.text = .error why →
    result = .error (Fault.ofRefusal why (some s.workspace.text))
  both_iff : made = [buildCall s l, packageCall s l] ↔
    made ≠ [] ∧ (buildRun s tools l w).ending = .exited 0 ∧
      (s.dryRun = true ∨ (buildRun s tools l w).files.isFile s.cwd.parts
        (s.workspace / l.elf).text = .ok true)
  returned_iff : (∃ r, result = .ok r) ↔
    made = [buildCall s l, packageCall s l] ∧
      (buildRun s tools l w).ending = .exited 0 ∧ (packageRun s tools l w).ending = .exited 0
  commands : ∀ r, result = .ok r → r = packaged s l ∧ r.commands = made.map (·.command)
  buildFailed : made ≠ [] → ∀ f,
    callFault? .build (buildCall s l) (buildRun s tools l w).ending = some f →
      result = .error f
  elfMissing : made = [buildCall s l] → (buildRun s tools l w).ending = .exited 0 →
    ∀ f, elfFault? s l (buildRun s tools l w).files = some f → result = .error f
  packageFailed : made = [buildCall s l, packageCall s l] → ∀ f,
    callFault? .packaging (packageCall s l) (packageRun s tools l w).ending = some f →
      result = .error f
  files : w'.files = match made with
    | [] => w.files
    | [_] => (buildRun s tools l w).files
    | _ => (packageRun s tools l w).files

section

variable {s : Setup} {tools : Tools} {l : Layout} {w : World}

theorem traced_build (hd : w.files.isDirectory s.cwd.parts s.workspace.text = .ok true)
    {f : Fault} (hf : buildFault? s tools l w = some f ∨ buildFault? s tools l w = none ∧
      elfFault? s l (buildRun s tools l w).files = some f) :
    Traced s tools l w [buildCall s l] (.error f) (built s tools l w) := by
  have hstop : ¬((buildRun s tools l w).ending = .exited 0 ∧ (s.dryRun = true ∨
      (buildRun s tools l w).files.isFile s.cwd.parts (s.workspace / l.elf).text = .ok true)) := by
    rintro ⟨hb, he⟩
    rw [← elfFault?_eq_none] at he
    rcases hf with hf | hf
    · rw [buildFault?, callFault?_eq_none.mpr hb] at hf
      cases hf
    · rw [he] at hf
      cases hf.2
  constructor
  case calls => rfl
  case inOrder => exact ⟨[packageCall s l], rfl⟩
  case none_iff => simp [hd]
  case noWorkspace => simp [hd]
  case workspaceRefused => simp [hd]
  case both_iff => simpa using hstop
  case returned_iff => simp
  case commands => simp
  case buildFailed =>
    intro _ g hg
    rcases hf with hf | hf
    · rw [Option.some.inj (hf.symm.trans hg)]
    · rw [buildFault?, hg] at hf
      cases hf.1
  case elfMissing =>
    intro _ hb g hg
    rcases hf with hf | hf
    · rw [buildFault?, callFault?_eq_none.mpr hb] at hf
      cases hf
    · rw [Option.some.inj (hf.2.symm.trans hg)]
  case packageFailed => simp
  case files => rfl

theorem traced_both (hd : w.files.isDirectory s.cwd.parts s.workspace.text = .ok true)
    (hb : buildFault? s tools l w = none)
    (he : elfFault? s l (buildRun s tools l w).files = none) {result : Except Fault Packaged}
    (hr : result = match packageFault? s tools l w with
      | some f => .error f
      | none => .ok (packaged s l)) :
    Traced s tools l w [buildCall s l, packageCall s l] result (packed s tools l w) := by
  have hbuild : (buildRun s tools l w).ending = .exited 0 := callFault?_eq_none.mp hb
  have helf := elfFault?_eq_none.mp he
  constructor
  case calls => exact List.append_assoc w.calls [buildCall s l] [packageCall s l]
  case inOrder => exact List.prefix_rfl
  case none_iff => simp [hd]
  case noWorkspace => simp [hd]
  case workspaceRefused => simp [hd]
  case both_iff => simp [hbuild, helf]
  case returned_iff =>
    have hp := @callFault?_eq_none .packaging (packageCall s l) (packageRun s tools l w).ending
    rw [← hp, hr, packageFault?]
    cases callFault? .packaging (packageCall s l) (packageRun s tools l w).ending <;>
      simp [hbuild]
  case commands =>
    intro r h
    rw [hr] at h
    cases hp : packageFault? s tools l w with
    | some f =>
      rw [hp] at h
      cases h
    | none =>
      rw [hp] at h
      cases h
      exact ⟨rfl, rfl⟩
  case buildFailed =>
    intro _ f hf
    rw [hbuild] at hf
    simp [callFault?] at hf
  case elfMissing => simp
  case packageFailed =>
    intro _ f hf
    rw [hr, packageFault?, hf]
  case files => rfl

end

/-- The law of the trace, for tools of any behaviour and from any world. -/
theorem run_traced (s : Setup) (tools : Tools) (l : Layout) (w : World) :
    ∃ made, Traced s tools l w made ((run s tools l).exec w).1 ((run s tools l).exec w).2 := by
  rw [exec_run]
  cases hd : w.files.isDirectory s.cwd.parts s.workspace.text with
  | error why =>
    refine ⟨[], ?_⟩
    constructor <;> simp [hd]
  | ok there =>
    cases there with
    | false =>
      refine ⟨[], ?_⟩
      constructor <;> simp [hd]
    | true =>
      cases hb : buildFault? s tools l w with
      | some f => exact ⟨_, traced_build hd (.inl hb)⟩
      | none =>
        cases he : elfFault? s l (buildRun s tools l w).files with
        | some f => exact ⟨_, traced_build hd (.inr ⟨hb, he⟩)⟩
        | none =>
          have ht := traced_both hd hb he rfl
          cases hp : packageFault? s tools l w with
          | some f =>
            rw [hp] at ht
            exact ⟨_, ht⟩
          | none =>
            rw [hp] at ht
            exact ⟨_, ht⟩

end TabPackager.Pipeline
