import TabPackager.Pipeline

/-!
# What actions come to

An action carried out in a world comes to a result and a later world. The equations below give
both for every way in which actions are built, so that later proofs never open the monad.
-/

namespace TabPackager

namespace World

variable (w : World)

def say (ms : List Message) : World := { w with log := w.log ++ ms }

def afterCall (tools : Tools) (c : Invocation) : World :=
  { w with
    files := (tools w.calls c w.files).files
    calls := w.calls ++ [c]
    printed := w.printed ++ (tools w.calls c w.files).printed }

variable (ms ns : List Message) (tools : Tools) (c : Invocation)

@[simp] theorem say_files : (w.say ms).files = w.files := rfl

@[simp] theorem say_calls : (w.say ms).calls = w.calls := rfl

@[simp] theorem say_printed : (w.say ms).printed = w.printed := rfl

@[simp] theorem say_log : (w.say ms).log = w.log ++ ms := rfl

@[simp] theorem afterCall_files :
    (w.afterCall tools c).files = (tools w.calls c w.files).files := rfl

@[simp] theorem afterCall_calls : (w.afterCall tools c).calls = w.calls ++ [c] := rfl

@[simp] theorem afterCall_printed :
    (w.afterCall tools c).printed = w.printed ++ (tools w.calls c w.files).printed := rfl

@[simp] theorem afterCall_log : (w.afterCall tools c).log = w.log := rfl

@[simp] theorem say_nil : w.say [] = w := by simp only [say, List.append_nil]

@[simp] theorem say_say : (w.say ms).say ns = w.say (ms ++ ns) := by
  simp only [say, List.append_assoc]

theorem afterCall_say : (w.say ms).afterCall tools c = (w.afterCall tools c).say ms := rfl

end World

namespace Action

variable {α β : Type}

def exec (a : Action α) (w : World) : Except Fault α × World := a.run.run w

@[simp] theorem exec_pure (a : α) (w : World) : exec (pure a) w = (.ok a, w) := rfl

@[simp] theorem exec_throw (f : Fault) (w : World) :
    exec (throw f : Action α) w = (.error f, w) := rfl

@[simp] theorem exec_get (w : World) : exec (get : Action World) w = (.ok w, w) := rfl

theorem exec_bind (a : Action α) (f : α → Action β) (w : World) :
    exec (a >>= f) w = match exec a w with
      | (.ok x, w') => exec (f x) w'
      | (.error e, w') => (.error e, w') := by
  simp only [exec, ExceptT.run_bind, StateT.run_bind]
  rcases a.run.run w with ⟨r, w'⟩
  cases r <;> rfl

theorem exec_bind_ok {a : Action α} {w w' : World} {x : α} (h : exec a w = (.ok x, w'))
    (f : α → Action β) : exec (a >>= f) w = exec (f x) w' := by
  rw [exec_bind, h]

theorem exec_bind_error {a : Action α} {w w' : World} {e : Fault}
    (h : exec a w = (.error e, w')) (f : α → Action β) :
    exec (a >>= f) w = (.error e, w') := by
  rw [exec_bind, h]

@[simp] theorem exec_say (m : Message) (w : World) : exec (say m) w = (.ok (), w.say [m]) := rfl

@[simp] theorem exec_say_bind (m : Message) (f : Unit → Action β) (w : World) :
    exec (say m >>= f) w = exec (f ()) (w.say [m]) := rfl

@[simp] theorem exec_get_bind (f : World → Action β) (w : World) :
    exec (get >>= f) w = exec (f w) w := rfl

@[simp] theorem exec_call (tools : Tools) (c : Invocation) (w : World) :
    exec (call tools c) w = (.ok (tools w.calls c w.files).ending, w.afterCall tools c) := rfl

theorem exec_ask (p : Path) (question : FileSystem → String → Except Refusal α) (w : World) :
    exec (ask p question) w = match question w.files p.text with
      | .ok a => (.ok a, w)
      | .error why => (.error (Fault.ofRefusal why (some p.text)), w) := by
  simp only [ask, exec_get_bind]
  cases question w.files p.text <;> rfl

theorem exec_carryOut (cwd : Path) (now : Int) (t : Task α) (w : World) :
    exec (carryOut cwd now t) w =
      ((t.run.run cwd.parts now w.files).1,
        { w with
          files := (t.run.run cwd.parts now w.files).2.1
          log := w.log ++ (t.run.run cwd.parts now w.files).2.2 }) := by
  simp only [carryOut, exec_get_bind]
  rcases t.run.run cwd.parts now w.files with ⟨r, fs, log⟩
  cases r <;> rfl

end Action

end TabPackager
