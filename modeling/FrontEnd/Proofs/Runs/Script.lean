import FrontEnd.Proofs.Scoping.Refinement

/-!
# Checks step by step

A `Check` tells where it ends, but not through which contexts it comes. A `Script` is a check as the
tree of its elementary steps, in which each step is followed by what depends on its answer.

- `Step`: the elementary steps, their answers (`Step.Answer`) and what each does (`Step.check`).
- `Script.run`: the check that a script performs.
- `Script.points`: the contexts that a script comes to, from the first to the one at which it ends.
  What is part of a script adds its own points (`Script.mem_points_bind`).
- `Script.Only`: whether a script takes no other steps than those allowed.
- `Script.Only.holds_at_points`: what each allowed step preserves holds at all points of a run.
-/

namespace FrontEnd

/-! ## Steps -/

/-- An elementary step of a check. -/
inductive Step where
  | lookup (name : String)
  | resultType
  | declare (name : String) (type : Ty)
  | openScope
  | closeScope
  | enterBody (result : Ty)
  | leaveBody

namespace Step

/-- What a step answers. -/
def Answer : Step → Type
  | lookup _ | resultType => Ty
  | declare .. | openScope | closeScope | enterBody _ | leaveBody => Unit

/-- What a step does. -/
def check : (s : Step) → Check s.Answer
  | lookup name => Check.lookup name
  | resultType => Check.resultType
  | declare name type => Check.declare name type
  | openScope => Check.openScope
  | closeScope => Check.closeScope
  | enterBody result => Check.enterBody result
  | leaveBody => Check.leaveBody

end Step

/-! ## Scripts -/

/-- A check as the tree of its steps. It ends with a value or with a fault. -/
inductive Script (α : Type) where
  | done (a : α)
  | fail (fault : Fault)
  | step (s : Step) (next : s.Answer → Script α)

namespace Script

variable {α β : Type}

/-- One script and then another, which depends on the value of the first. -/
def andThen : Script α → (α → Script β) → Script β
  | done a, f => f a
  | fail fault, _ => fail fault
  | step s next, f => step s fun answer => (next answer).andThen f

instance : Monad Script where
  pure := done
  bind := andThen

/-- A rule that takes no step. -/
def judge : Except Fault α → Script α
  | .ok a => done a
  | .error fault => fail fault

/-- A script of one step. -/
def take (s : Step) : Script s.Answer := step s done

def lookup (name : String) : Script Ty := take (.lookup name)

def resultType : Script Ty := take .resultType

def declare (name : String) (type : Ty) : Script Unit := take (.declare name type)

def openScope : Script Unit := take .openScope

def closeScope : Script Unit := take .closeScope

def enterBody (result : Ty) : Script Unit := take (.enterBody result)

def leaveBody : Script Unit := take .leaveBody

/-- Declares parameters in the innermost scope. -/
def declareParams : List Param → Script Unit
  | [] => return ()
  | p :: ps => do
    declare p.name p.type
    declareParams ps

/-- A script in a scope of its own. -/
def inBlock (body : Script Unit) : Script Unit := do
  openScope
  body
  closeScope

/-- A script as the body of a function. -/
def inBody (params : List Param) (result : Ty) (body : Script Unit) : Script Unit := do
  enterBody result
  openScope
  declareParams params
  body
  closeScope
  leaveBody

/-! ## Runs -/

/-- The check that a script performs. -/
def run : Script α → Check α
  | done a => pure a
  | fail fault => throw fault
  | step s next => do
    let answer ← s.check
    (next answer).run

@[simp] theorem run_pure (a : α) : (pure a : Script α).run = pure a := rfl

/-- Running scripts in sequence is running one and then the other. -/
@[simp] theorem run_bind (m : Script α) (f : α → Script β) :
    (m >>= f).run = m.run >>= fun a => (f a).run := by
  show (m.andThen f).run = _
  induction m with
  | done a => rfl
  | fail fault => rfl
  | step s next ih =>
    rw [andThen, run, run, bind_assoc]
    exact bind_congr ih

/-- A rule that takes no step is judged as it is. -/
@[simp] theorem run_judge (rule : Except Fault α) : (judge rule).run = Check.judge rule := by
  cases rule <;> rfl

/-- A script of one step does what the step does. -/
theorem run_take (s : Step) : (take s).run = s.check := bind_pure s.check

@[simp] theorem run_lookup (name : String) : (lookup name).run = Check.lookup name := run_take _

@[simp] theorem run_resultType : resultType.run = Check.resultType := run_take _

@[simp] theorem run_declare (name : String) (type : Ty) :
    (declare name type).run = Check.declare name type := run_take _

@[simp] theorem run_openScope : openScope.run = Check.openScope := run_take _

@[simp] theorem run_closeScope : closeScope.run = Check.closeScope := run_take _

@[simp] theorem run_enterBody (result : Ty) : (enterBody result).run = Check.enterBody result :=
  run_take _

@[simp] theorem run_leaveBody : leaveBody.run = Check.leaveBody := run_take _

/-- Declaring parameters step by step is what the check does. -/
@[simp] theorem run_declareParams (params : List Param) :
    (declareParams params).run = Check.declareParams params := by
  induction params with
  | nil => rfl
  | cons p params ih => rw [declareParams, run_bind, run_declare, Check.declareParams, ih]

/-- A block in a script is a block in the check. -/
@[simp] theorem run_inBlock (body : Script Unit) :
    (inBlock body).run = Check.inBlock body.run := by
  simp [inBlock, Check.inBlock]

/-- A body in a script is a body in the check. -/
@[simp] theorem run_inBody (params : List Param) (result : Ty) (body : Script Unit) :
    (inBody params result body).run = Check.inBody params result body.run := by
  simp [inBody, Check.inBody]

/-! ## Points -/

/-- The contexts that a script comes to, in order: one before each step, and one at the end. -/
def points : Script α → Context → List Context
  | done _, c => [c]
  | fail _, c => [c]
  | step s next, c =>
    c :: match s.check c with
      | .ok answer c' => (next answer).points c'
      | .error _ _ => []

/-- A script comes to the context that it starts in. -/
theorem start_mem_points (m : Script α) (c : Context) : c ∈ m.points c := by
  cases m with
  | done a => exact List.mem_singleton_self c
  | fail fault => exact List.mem_singleton_self c
  | step s next =>
    rw [points]
    exact List.mem_cons_self

/-- A script that ends with a value comes to the context in which it ends. -/
theorem stop_mem_points {m : Script α} {c stop : Context} {a : α} (h : m.run c = .ok a stop) :
    stop ∈ m.points c := by
  induction m generalizing c with
  | done b =>
    cases h
    exact List.mem_singleton_self stop
  | fail fault => cases h
  | step s next ih =>
    rw [points]
    cases hrun : s.check c with
    | ok answer c' =>
      rw [run, Check.bind_ok hrun] at h
      exact List.mem_cons_of_mem c (ih answer h)
    | error fault c' =>
      rw [run, Check.bind_error hrun] at h
      cases h

/-- The points of one script and then another are those of the first and, if it ends with a value,
those of the second from there. -/
theorem mem_points_bind {m : Script α} {f : α → Script β} {c p : Context} :
    p ∈ (m >>= f).points c ↔
      p ∈ m.points c ∨ ∃ a stop, m.run c = .ok a stop ∧ p ∈ (f a).points stop := by
  show p ∈ (m.andThen f).points c ↔ _
  induction m generalizing c with
  | done a =>
    constructor
    · exact fun hp => .inr ⟨a, c, rfl, hp⟩
    · rintro (hp | ⟨b, stop, hrun, hp⟩)
      · -- The script that ends at once has one point, where the other one starts.
        obtain rfl := List.mem_singleton.1 hp
        exact start_mem_points (f a) p
      · cases hrun
        exact hp
  | fail fault =>
    constructor
    · exact .inl
    · rintro (hp | ⟨b, stop, hrun, -⟩)
      · exact hp
      · cases hrun
  | step s next ih =>
    rw [andThen, points, points, List.mem_cons, List.mem_cons, or_assoc]
    refine or_congr_right ?_
    cases hs : s.check c with
    | ok answer c' =>
      rw [run, Check.bind_ok hs]
      exact ih answer
    | error fault c' =>
      rw [run, Check.bind_error hs]
      simp

/-- A script passes through all that its first part passes through. -/
theorem points_subset_bind (m : Script α) (f : α → Script β) (c : Context) :
    m.points c ⊆ (m >>= f).points c :=
  fun _ hp => mem_points_bind.2 (.inl hp)

/-- A script passes through what its second part passes through from where the first one ends. -/
theorem points_subset_bind_of_run {m : Script α} {f : α → Script β} {c stop : Context} {a : α}
    (h : m.run c = .ok a stop) : (f a).points stop ⊆ (m >>= f).points c :=
  fun _ hp => mem_points_bind.2 (.inr ⟨a, stop, h, hp⟩)

/-! ## Invariants -/

/-- Whether every step that a script may take is one of those allowed. -/
def Only (allowed : Step → Prop) : Script α → Prop
  | done _ => True
  | fail _ => True
  | step s next => allowed s ∧ ∀ answer, (next answer).Only allowed

namespace Only

variable {allowed : Step → Prop} {m : Script α} {f : α → Script β}

theorem pure (a : α) : (pure a : Script α).Only allowed := trivial

/-- A sequence takes allowed steps if both parts do. -/
theorem bind (hm : m.Only allowed) (hf : ∀ a, (f a).Only allowed) : (m >>= f).Only allowed := by
  show (m.andThen f).Only allowed
  induction m with
  | done a => exact hf a
  | fail fault => trivial
  | step s next ih => exact ⟨hm.1, fun answer => ih answer (hm.2 answer)⟩

theorem take {s : Step} (hs : allowed s) : (take s).Only allowed := ⟨hs, fun _ => trivial⟩

theorem judge (rule : Except Fault α) : (judge rule).Only allowed := by
  cases rule <;> trivial

/-- What each allowed step preserves holds at all points of a run, if it holds at the first. -/
theorem holds_at_points {I : Context → Prop} (hm : m.Only allowed)
    (hstep : ∀ s, allowed s → ∀ c answer c', I c → s.check c = .ok answer c' → I c')
    {c : Context} (hc : I c) : ∀ p ∈ m.points c, I p := by
  induction m generalizing c with
  | done a => exact List.forall_mem_singleton.2 hc
  | fail fault => exact List.forall_mem_singleton.2 hc
  | step s next ih =>
    rw [points]
    refine List.forall_mem_cons.2 ⟨hc, ?_⟩
    cases hrun : s.check c with
    | ok answer c' => exact ih answer (hm.2 answer) (hstep s hm.1 c answer c' hc hrun)
    | error fault c' => exact List.forall_mem_nil _

end Only

end Script

end FrontEnd
