import TabPackager.Proofs.TaskOperations

/-!
# Tasks among others

What a task comes to when other tasks work on the same files between any two of its operations. It
relies on what the others leave as it is, and leaves to them what they rely on. So much can be
shown for each task alone, and holds however the tasks are interleaved. What the task is answered on
its way can then be told from a state of its own.
-/

namespace TabPackager

variable {α β W V : Type}

/-- The terms on which a task works beside others: what its operations do, what always holds, what
changes the others may make, and what changes it may make itself. -/
structure Terms (W : Type) where
  act : (o : FileOp) → W → Except Refusal o.Reply × W
  inv : W → Prop
  rely : W → W → Prop
  keep : W → W → Prop

/-- What the others may do in several steps they may do in one, or not at all. -/
structure Terms.Closed (t : Terms W) : Prop where
  refl : ∀ w, t.rely w w
  trans : ∀ {w w' w''}, t.rely w w' → t.rely w' w'' → t.rely w w''

/-- Which replies an operation may get in a state of one's own, and which state is left then. -/
abbrev Answers (V : Type) := (o : FileOp) → V → Except Refusal o.Reply → V → Prop

namespace Script

/-- Whatever the others do in between, the script keeps to the terms, and its result is good at
the end and stays so. -/
def Works (t : Terms W) (Q : α → W → Prop) : Script α → W → Prop
  | .done a, w => ∀ w', t.inv w' → t.rely w w' → Q a w'
  | .say _ next, w => next.Works t Q w
  | .op o next, w => ∀ w', t.inv w' → t.rely w w' →
      t.inv (t.act o w').2 ∧ t.keep w' (t.act o w').2 ∧
        (next (t.act o w').1).Works t Q (t.act o w').2

variable {t : Terms W} {Q : α → W → Prop} {R : β → W → Prop} {s : Script α} {w w' : W}

theorem Works.later (ht : t.Closed) (h : s.Works t Q w) (hw : t.rely w w') : s.Works t Q w' := by
  induction s with
  | done a => exact fun w'' hi hr => h w'' hi (ht.trans hw hr)
  | op o next ih => exact fun w'' hi hr => h w'' hi (ht.trans hw hr)
  | say m next ih => exact ih h

theorem Works.of_later (ht : t.Closed)
    (h : ∀ w', t.inv w' → t.rely w w' → s.Works t Q w') : s.Works t Q w := by
  induction s with
  | done a => exact fun w' hi hr => h w' hi hr w' hi (ht.refl w')
  | op o next ih => exact fun w' hi hr => h w' hi hr w' hi (ht.refl w')
  | say m next ih => exact ih h

theorem Works.bind (ht : t.Closed) (h : s.Works t Q w) {f : α → Script β}
    (hf : ∀ a w', t.inv w' → Q a w' → (f a).Works t R w') : (s.bind f).Works t R w := by
  induction s generalizing w with
  | done a => exact .of_later ht fun w' hi hr => hf a w' hi (h w' hi hr)
  | op o next ih =>
    intro w' hi hr
    obtain ⟨hinv, hkeep, hnext⟩ := h w' hi hr
    exact ⟨hinv, hkeep, ih _ hnext⟩
  | say m next ih => exact ih h

theorem Works.imp (h : s.Works t Q w) {Q' : α → W → Prop}
    (hq : ∀ a w', t.inv w' → Q a w' → Q' a w') : s.Works t Q' w := by
  induction s generalizing w with
  | done a => exact fun w' hi hr => hq a w' hi (h w' hi hr)
  | op o next ih =>
    intro w' hi hr
    obtain ⟨hinv, hkeep, hnext⟩ := h w' hi hr
    exact ⟨hinv, hkeep, ih _ hnext⟩
  | say m next ih => exact ih h

theorem Works.ended (ht : t.Closed) {a : α} (h : (done a).Works t Q w) (hi : t.inv w) : Q a w :=
  h w hi (ht.refl w)

def advance (t : Terms W) : Script α → W → Script α × W
  | .done a, w => (.done a, w)
  | .op o next, w => (next (t.act o w).1, (t.act o w).2)
  | .say _ next, w => (next, w)

theorem Works.advance (ht : t.Closed) (h : s.Works t Q w) (hi : t.inv w) :
    (s.advance t w).1.Works t Q (s.advance t w).2 ∧ t.inv (s.advance t w).2 ∧
      ((s.advance t w).2 = w ∨ t.keep w (s.advance t w).2) := by
  cases s with
  | done a => exact ⟨h, hi, .inl rfl⟩
  | op o next =>
    obtain ⟨hinv, hkeep, hnext⟩ := h w hi (ht.refl w)
    exact ⟨hnext, hinv, .inr hkeep⟩
  | say m next => exact ⟨h, hi, .inl rfl⟩

theorem Works.run (ht : t.Closed) (files : W → FileSystem) {cwd : Location} {now : Int}
    (hact : ∀ o w, (t.act o w).1 = (o.perform cwd now (files w)).1 ∧
      files (t.act o w).2 = (o.perform cwd now (files w)).2)
    (h : s.Works t Q w) (hi : t.inv w) :
    ∃ w', t.inv w' ∧ Q (s.run cwd now (files w)).1 w' := by
  induction s generalizing w with
  | done a => exact ⟨w, hi, h w hi (ht.refl w)⟩
  | op o next ih =>
    obtain ⟨hinv, -, hnext⟩ := h w hi (ht.refl w)
    obtain ⟨hr, hf⟩ := hact o w
    have hrest := ih _ hnext hinv
    rw [hr, hf] at hrest
    exact hrest
  | say m next ih => exact ih h hi

/-- The script can come to the result and the last state when its operations are answered out of
a state of its own. -/
def Comes (ans : Answers V) : Script α → V → α → V → Prop
  | .done a, v, b, v' => b = a ∧ v' = v
  | .op o next, v, b, v' => ∃ reply v₁, ans o v reply v₁ ∧ (next reply).Comes ans v₁ b v'
  | .say _ next, v, b, v' => next.Comes ans v b v'

variable {ans : Answers V} {v v' : V}

theorem comes_bind {f : α → Script β} {b : β} :
    (s.bind f).Comes ans v b v' ↔ ∃ a v₁, s.Comes ans v a v₁ ∧ (f a).Comes ans v₁ b v' := by
  induction s generalizing v with
  | done a =>
    constructor
    · exact fun h => ⟨a, v, ⟨rfl, rfl⟩, h⟩
    · rintro ⟨_, _, ⟨rfl, rfl⟩, h⟩
      exact h
  | op o next ih =>
    constructor
    · rintro ⟨reply, v₁, ho, h⟩
      obtain ⟨a, v₂, h₁, h₂⟩ := (ih reply).mp h
      exact ⟨a, v₂, ⟨reply, v₁, ho, h₁⟩, h₂⟩
    · rintro ⟨a, v₂, ⟨reply, v₁, ho, h₁⟩, h₂⟩
      exact ⟨reply, v₁, ho, (ih reply).mpr ⟨a, v₂, h₁, h₂⟩⟩
  | say m next ih => exact ih

theorem Comes.unique {P : FileOp → Prop} {G : α → Prop} (hs : s.Ways P (fun _ _ => True) G)
    (hans : ∀ o v r v₁ r' v₁', P o → ans o v r v₁ → ans o v r' v₁' → r = r' ∧ v₁ = v₁')
    {a a' : α} {v₁ v₂ : V} (h : s.Comes ans v a v₁) (h' : s.Comes ans v a' v₂) : a = a' := by
  induction s generalizing v with
  | done b => exact h.1.trans h'.1.symm
  | op o next ih =>
    obtain ⟨r, u, ho, h⟩ := h
    obtain ⟨r', u', ho', h'⟩ := h'
    obtain ⟨rfl, rfl⟩ := hans o v r u r' u' hs.1 ho ho'
    exact ih r (hs.2 r trivial) h h'
  | say m next ih => exact ih hs h h'

end Script

/-- In a world that agrees with a state of its own, an operation is answered as it may be in that
state, keeps to the terms, and leaves the two agreeing. -/
structure Terms.Mirrored (t : Terms W) (ans : Answers V) (A : W → V → Prop) (o : FileOp) (w : W)
    (v : V) : Prop where
  inv : t.inv (t.act o w).2
  keep : t.keep w (t.act o w).2
  answered : ∃ v', ans o v (t.act o w).1 v' ∧ A (t.act o w).2 v'

theorem Script.Works.of_ways {t : Terms W} {s : Script α} {w : W} {ans : Answers V}
    {A : W → V → Prop} {v : V} {P : FileOp → Prop} {G : α → Prop}
    (hrely : ∀ w w' v, t.rely w w' → A w v → A w' v)
    (hop : ∀ o w v, P o → t.inv w → A w v → t.Mirrored ans A o w v)
    (hs : s.Ways P (fun _ _ => True) G) (ha : A w v) :
    s.Works t (fun a w' => ∃ v', s.Comes ans v a v' ∧ A w' v') w := by
  induction s generalizing w v with
  | done a => exact fun w' _ hr => ⟨v, ⟨rfl, rfl⟩, hrely w w' v hr ha⟩
  | op o next ih =>
    intro w' hi hr
    have hm := hop o w' v hs.1 hi (hrely w w' v hr ha)
    obtain ⟨v₁, hans, ha₁⟩ := hm.answered
    refine ⟨hm.inv, hm.keep, (ih _ (hs.2 _ trivial) ha₁).imp fun a w'' _ hq => ?_⟩
    obtain ⟨v₂, hcomes, ha₂⟩ := hq
    exact ⟨v₂, ⟨_, v₁, hans, hcomes⟩, ha₂⟩
  | say m next ih => exact ih hs ha

namespace Task

def outcome (o : FileOp) (reply : Except Refusal o.Reply) : Except Fault o.Reply :=
  reply.mapError fun why => Fault.ofRefusal why (some o.files.1) o.files.2

theorem outcome_eq_ok {o : FileOp} {reply : Except Refusal o.Reply} {r : o.Reply} :
    outcome o reply = .ok r ↔ reply = .ok r := by
  cases reply with
  | ok r' => exact ⟨fun h => congrArg _ (Except.ok.inj h), fun h => congrArg _ (Except.ok.inj h)⟩
  | error why => exact ⟨nofun, nofun⟩

/-- The task can come to the result or fault and the last state when its operations are answered
out of a state of its own. -/
def Comes (ans : Answers V) (task : Task α) (v : V) (r : Except Fault α) (v' : V) : Prop :=
  task.run.Comes ans v r v'

section

variable {ans : Answers V} {v v' : V}

theorem comes_pure {a : α} {r : Except Fault α} :
    Comes ans (pure a : Task α) v r v' ↔ r = .ok a ∧ v' = v := .rfl

theorem comes_throw {f : Fault} {r : Except Fault α} :
    Comes ans (throw f : Task α) v r v' ↔ r = .error f ∧ v' = v := .rfl

theorem comes_call {o : FileOp} {r : Except Fault o.Reply} :
    Comes ans (call o) v r v' ↔ ∃ reply, ans o v reply v' ∧ r = outcome o reply := by
  constructor
  · rintro ⟨reply, v₁, ho, h⟩
    refine ⟨reply, ?_⟩
    cases reply <;> (obtain ⟨rfl, rfl⟩ := h; exact ⟨ho, rfl⟩)
  · rintro ⟨reply, ho, rfl⟩
    exact ⟨reply, v', ho, by cases reply <;> exact ⟨rfl, rfl⟩⟩

theorem comes_attempt_bind {o : FileOp} {g : Except Refusal o.Reply → Task β}
    {r : Except Fault β} :
    Comes ans (attempt o >>= g) v r v' ↔
      ∃ reply v₁, ans o v reply v₁ ∧ Comes ans (g reply) v₁ r v' := .rfl

theorem comes_bind {task : Task α} {g : α → Task β} {r : Except Fault β} :
    Comes ans (task >>= g) v r v' ↔
      (∃ a v₁, Comes ans task v (.ok a) v₁ ∧ Comes ans (g a) v₁ r v') ∨
        ∃ f, Comes ans task v (.error f) v' ∧ r = .error f := by
  refine Script.comes_bind.trans ?_
  constructor
  · rintro ⟨x, v₁, h, hg⟩
    cases x with
    | ok a => exact .inl ⟨a, v₁, h, hg⟩
    | error f =>
      obtain ⟨rfl, rfl⟩ := hg
      exact .inr ⟨f, h, rfl⟩
  · rintro (⟨a, v₁, h, hg⟩ | ⟨f, h, rfl⟩)
    · exact ⟨_, v₁, h, hg⟩
    · exact ⟨_, v', h, rfl, rfl⟩

theorem Comes.tryCatch {task : Task α} {handler : Fault → Task α} {r : Except Fault α}
    (h : Comes ans (tryCatch task handler) v r v') :
    (∃ a, Comes ans task v (.ok a) v' ∧ r = .ok a) ∨
      ∃ f v₁, Comes ans task v (.error f) v₁ ∧ Comes ans (handler f) v₁ r v' := by
  obtain ⟨x, v₁, h, hh⟩ := Script.comes_bind.mp h
  cases x with
  | ok a =>
    obtain ⟨rfl, rfl⟩ := hh
    exact .inl ⟨a, h, rfl⟩
  | error f => exact .inr ⟨f, v₁, h, hh⟩

theorem Comes.thenAlways {task : Task α} {after : Task Unit} {r : Except Fault α}
    (h : Comes ans (task.thenAlways after) v r v') :
    ∃ r₁ v₁ r₂, Comes ans task v r₁ v₁ ∧ Comes ans after v₁ r₂ v' ∧
      (r₂ = .ok () → r = r₁) := by
  obtain ⟨r₁, v₁, h₁, h⟩ := Script.comes_bind.mp h
  obtain ⟨r₂, v₂, h₂, h⟩ := Script.comes_bind.mp h
  cases r₂ with
  | ok u =>
    obtain ⟨rfl, rfl⟩ := h
    exact ⟨r, v₁, .ok u, h₁, h₂, fun _ => rfl⟩
  | error f =>
    obtain ⟨rfl, rfl⟩ := h
    exact ⟨r₁, v₁, .error f, h₁, h₂, nofun⟩

theorem Comes.andAlways {task : Task α} {after : Task Unit} {r : Except Fault α} {v₁ : V}
    (h : Comes ans task v r v₁) (ha : Comes ans after v₁ (.ok ()) v') :
    Comes ans (task.thenAlways after) v r v' :=
  Script.comes_bind.mpr ⟨r, v₁, h, Script.comes_bind.mpr ⟨.ok (), v', ha, rfl, rfl⟩⟩

theorem Comes.unique {P : FileOp → Prop} {F : Fault → Prop} {task : Task α}
    (ht : task.Ways P (fun _ _ => True) F)
    (hans : ∀ o v r v₁ r' v₁', P o → ans o v r v₁ → ans o v r' v₁' → r = r' ∧ v₁ = v₁')
    {r r' : Except Fault α} {v₁ v₂ : V} (h : Comes ans task v r v₁)
    (h' : Comes ans task v r' v₂) : r = r' := by
  unfold Task.Ways at ht
  exact Script.Comes.unique ht hans h h'

end

/-- Whatever the others do in between, the task keeps to the terms, and its result or its fault is
as it should be at the end. -/
def Works (t : Terms W) (Q : Except Fault α → W → Prop) (task : Task α) (w : W) : Prop :=
  task.run.Works t Q w

variable {t : Terms W} {Q : Except Fault α → W → Prop} {R : Except Fault β → W → Prop} {w : W}

theorem Works.script {task : Task α} (h : Works t Q task w) : task.run.Works t Q w := h

theorem Works.pure {a : α} (h : ∀ w', t.inv w' → t.rely w w' → Q (.ok a) w') :
    Works t Q (pure a : Task α) w := h

theorem Works.throw {f : Fault} (h : ∀ w', t.inv w' → t.rely w w' → Q (.error f) w') :
    Works t Q (throw f : Task α) w := h

theorem Works.call {o : FileOp} {Q : Except Fault o.Reply → W → Prop}
    (h : ∀ w', t.inv w' → t.rely w w' → t.inv (t.act o w').2 ∧ t.keep w' (t.act o w').2 ∧
      ∀ w'', t.inv w'' → t.rely (t.act o w').2 w'' → Q (outcome o (t.act o w').1) w'') :
    Works t Q (call o) w := by
  intro w' hi hr
  obtain ⟨hinv, hkeep, hq⟩ := h w' hi hr
  refine ⟨hinv, hkeep, ?_⟩
  generalize (t.act o w').1 = reply at hq
  cases reply with
  | ok r => exact hq
  | error why => exact hq

theorem Works.attempt_bind {o : FileOp} {g : Except Refusal o.Reply → Task β}
    (h : ∀ w', t.inv w' → t.rely w w' → t.inv (t.act o w').2 ∧ t.keep w' (t.act o w').2 ∧
      Works t R (g (t.act o w').1) (t.act o w').2) :
    Works t R (attempt o >>= g) w := h

theorem Works.say_bind {m : Message} {g : Unit → Task β} (h : Works t R (g ()) w) :
    Works t R (say m >>= g) w := h

/-- A task of mirrored operations comes to what it can by their answers. -/
theorem Works.of_ways {ans : Answers V} {A : W → V → Prop} {v : V} {P : FileOp → Prop}
    {F : Fault → Prop} {task : Task α} (hrely : ∀ w w' v, t.rely w w' → A w v → A w' v)
    (hop : ∀ o w v, P o → t.inv w → A w v → t.Mirrored ans A o w v)
    (hs : task.Ways P (fun _ _ => True) F) (ha : A w v) :
    Works t (fun r w' => ∃ v', task.Comes ans v r v' ∧ A w' v') task w := by
  unfold Task.Ways at hs
  exact Script.Works.of_ways hrely hop hs ha

theorem Works.of_mirrored {ans : Answers V} {A : W → V → Prop} {v : V} {o : FileOp}
    (hrely : ∀ w w' v, t.rely w w' → A w v → A w' v)
    (hop : ∀ w, t.inv w → A w v → t.Mirrored ans A o w v) (ha : A w v) :
    Works t (fun r w' => ∃ v', (Task.call o).Comes ans v r v' ∧ A w' v') (Task.call o) w := by
  refine .call fun w' hi hr => ?_
  have hm := hop w' hi (hrely w w' v hr ha)
  obtain ⟨v', hans, ha'⟩ := hm.answered
  exact ⟨hm.inv, hm.keep, fun w'' _ hr' => ⟨v', comes_call.mpr ⟨_, hans, rfl⟩, hrely _ _ _ hr' ha'⟩⟩

theorem Works.bind (ht : t.Closed) {task : Task α} (h : Works t Q task w) {g : α → Task β}
    (hg : ∀ a w', t.inv w' → Q (.ok a) w' → Works t R (g a) w')
    (hf : ∀ f w', t.inv w' → Q (.error f) w' →
      ∀ w'', t.inv w'' → t.rely w' w'' → R (.error f) w'') :
    Works t R (task >>= g) w := by
  refine Script.Works.bind ht h fun r w' hi hr => ?_
  cases r with
  | ok a => exact hg a w' hi hr
  | error f => exact hf f w' hi hr

theorem Works.thenAlways (ht : t.Closed) {task : Task α} (h : Works t Q task w)
    {after : Task Unit} {R : Except Fault α → W → Prop}
    (ha : ∀ r w', t.inv w' → Q r w' → Works t (fun r' w'' => r' = .ok () ∧
      ∀ w₃, t.inv w₃ → t.rely w'' w₃ → R r w₃) after w') :
    Works t R (task.thenAlways after) w := by
  refine Script.Works.bind ht h fun r w' hi hr => ?_
  refine Script.Works.bind ht (ha r w' hi hr) fun r' w'' _ hr' => ?_
  obtain ⟨rfl, hq⟩ := hr'
  exact hq

theorem Works.imp {task : Task α} (h : Works t Q task w) {Q' : Except Fault α → W → Prop}
    (hq : ∀ r w', t.inv w' → Q r w' → Q' r w') : Works t Q' task w := Script.Works.imp h hq

-- From here on scripts and tasks among others are followed by the lemmas above alone.
attribute [irreducible] Script.Works Script.Comes Works Comes

end Task

end TabPackager
