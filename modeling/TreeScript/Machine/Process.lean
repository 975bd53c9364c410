import TreeScript.Machine.Action

/-!
# Processes

A process is a finite tree that says what a piece of evaluation does next: act
on the world, wait, or have a goal evaluated and go on with the outcome.  What
it takes to reach a goal is not part of the process; the rules give every goal
a process of its own.  In this way evaluation without end is described by
finite trees, and a suspended evaluation is a value.

A goal may also be driven: it is then run to its end at once, and waiting below
it is an error.

`Rule` adds interrupts, so that the rules of evaluation read like programs.
-/

namespace TreeScript

/-- Whether an evaluation may be suspended. -/
inductive Mode where
  | asynchronous
  | synchronous
  deriving DecidableEq, Repr

/-- The calls around an evaluation, innermost first, and its mode. -/
structure Context where
  calls : List Call
  mode : Mode
  deriving DecidableEq

namespace Context

/-- Outside of all calls. -/
def top (mode : Mode) : Context :=
  ⟨[], mode⟩

/-- The number of calls around an evaluation. -/
def depth (context : Context) : Nat :=
  context.calls.length

/-- The context inside one more call. -/
def enter (context : Context) (name : String) (site : Option Position) : Context :=
  { context with calls := ⟨name, site⟩ :: context.calls }

end Context

/-- What a suspended evaluation waits for. -/
inductive Wait where
  /-- Being polled again, after a timed sleep not before its timer has fired. -/
  | nextPoll
  /-- The end of a pause. -/
  | resumed (pause : Nat)
  deriving DecidableEq, Repr

/-- Something to evaluate. -/
inductive Goal where
  | evaluate (node : Node) (scope : Scope) (context : Context)
  /-- The rest of a loop without end. -/
  | loop (label : Option String) (statements : List Node) (scope : Scope) (context : Context)
  /-- The rest of a loop that has run `count` of `limit` times. -/
  | times (label : Option String) (count limit : Float) (body : Node) (scope : Scope)
      (context : Context)
  /-- The rest of a loop that counts a name up from `count` to below `limit`. -/
  | range (label : Option String) (counter : String) (count limit : Float) (body : Node)
      (scope : Scope) (context : Context)
  /-- The rest of a loop over the elements of an array from `place` on. -/
  | each (label : Option String) (pattern : Node) (array : ArrayId) (place : Nat) (body : Node)
      (scope : Scope) (context : Context)
  /-- A call of a function, at a place of the script or by the host. -/
  | apply (function : FunctionId) (arguments : List Value) (context : Context)
      (site : Option Position)
  /-- A call of a function as an entry point of its own. -/
  | enter (callee : Value) (arguments : List Value) (mode : Mode)

/-- What a piece of evaluation does next. -/
inductive Process (α : Type) where
  | done (result : α)
  | act (action : Action) (next : action.Reply → Process α)
  | wait (reason : Wait) (next : Process α)
  | call (goal : Goal) (next : Outcome → Process α)
  | drive (goal : Goal) (next : Outcome → Process α)

namespace Process

variable {α β : Type}

/-- Go on with another process after the end of one. -/
def bind (process : Process α) (continuation : α → Process β) : Process β :=
  match process with
  | .done result => continuation result
  | .act action next => .act action fun reply => (next reply).bind continuation
  | .wait reason next => .wait reason (next.bind continuation)
  | .call goal next => .call goal fun outcome => (next outcome).bind continuation
  | .drive goal next => .drive goal fun outcome => (next outcome).bind continuation

instance : Monad Process where
  pure := .done
  bind := bind

@[simp]
theorem pure_eq_done (result : α) :
    (pure result : Process α) = .done result := rfl

@[simp]
theorem bind_eq (process : Process α) (continuation : α → Process β) :
    process >>= continuation = process.bind continuation := rfl

@[simp]
theorem done_bind (result : α) (continuation : α → Process β) :
    (done result).bind continuation = continuation result := rfl

theorem bind_done (process : Process α) :
    process.bind .done = process := by
  induction process with
  | done result => rfl
  | act action next inductive_step => simp [bind, inductive_step]
  | wait reason next inductive_step => simp [bind, inductive_step]
  | call goal next inductive_step => simp [bind, inductive_step]
  | drive goal next inductive_step => simp [bind, inductive_step]

theorem bind_assoc {γ : Type} (process : Process α)
    (first : α → Process β) (second : β → Process γ) :
    (process.bind first).bind second =
      process.bind fun result => (first result).bind second := by
  induction process with
  | done result => rfl
  | act action next inductive_step => simp [bind, inductive_step]
  | wait reason next inductive_step => simp [bind, inductive_step]
  | call goal next inductive_step => simp [bind, inductive_step]
  | drive goal next inductive_step => simp [bind, inductive_step]

instance : LawfulMonad Process :=
  LawfulMonad.mk' Process bind_done (fun _ _ => rfl) bind_assoc

end Process

/-- How the process of a goal ends: with an outcome, or with another goal in its place. -/
inductive Turn where
  | answer (outcome : Outcome)
  | again (goal : Goal)

/-- A process that may be interrupted. -/
abbrev Rule := ExceptT Interrupt Process

namespace Rule

/-- Act on the world. -/
def perform (action : Action) : Rule action.Reply :=
  ExceptT.lift (.act action .done)

/-- Fail with an error. -/
def fail {α : Type} (error : Error) : Rule α :=
  throw (.error error)

/-- Take the result of a computation that may fail. -/
def ofExcept {α : Type} : Except Error α → Rule α
  | .ok result => pure result
  | .error error => fail error

instance : MonadLift (Except Error) Rule where
  monadLift := ofExcept

/-- Act on the world with an action that may fail. -/
def attempt {α : Type} (reply : Rule (Except Error α)) : Rule α := do
  ofExcept (← reply)

/-- Have a goal evaluated. -/
def call (goal : Goal) : Rule Value :=
  ExceptT.mk (.call goal .done)

/-- Run a goal to its end at once. -/
def drive (goal : Goal) : Rule Value :=
  ExceptT.mk (.drive goal .done)

/-- Wait. -/
def wait (reason : Wait) : Rule Unit :=
  ExceptT.lift (.wait reason (.done ()))

/-- Run a rule and look at how it ends instead of being interrupted. -/
def outcome {α : Type} (rule : Rule α) : Rule (Except Interrupt α) :=
  ExceptT.lift rule.run

/-- Change the error that a rule ends with. -/
def mapError {α : Type} (change : Error → Error) (rule : Rule α) : Rule α := do
  match ← rule.outcome with
  | .ok result => return result
  | .error (.error error) => fail (change error)
  | .error interrupt => throw interrupt

/-- Look at the store. -/
def look {α : Type} (view : Store → α) : Rule α := do
  return view (← perform .store)

/-! ## Steps for the elements of a list -/

section Traversal

variable {α β : Type} (step : α → Rule β)

/--
Take a step for every element in order.  The results follow those of earlier
steps, which are given latest first, so that what is left to do after a step
does not grow with the number of steps before it.
-/
def traverseAfter (earlier : List β) : List α → Rule (List β)
  | [] => return earlier.reverse
  | element :: rest => do
      let result ← step element
      traverseAfter (result :: earlier) rest

/-- Take a step for every element in order, collecting the results. -/
def traverse (elements : List α) : Rule (List β) :=
  traverseAfter step [] elements

theorem traverseAfter_eq (earlier : List β) (elements : List α) :
    traverseAfter step earlier elements =
      (earlier.reverse ++ ·) <$> traverse step elements := by
  unfold traverse
  induction elements generalizing earlier with
  | nil => simp [traverseAfter]
  | cons element rest inductive_step =>
    simp only [traverseAfter, map_bind]
    refine congrArg (step element >>= ·) (funext fun result => ?_)
    rw [inductive_step, inductive_step [result]]
    simp

@[simp]
theorem traverse_nil : traverse step [] = pure [] := rfl

theorem traverse_cons (element : α) (rest : List α) :
    traverse step (element :: rest) = do
      let result ← step element
      return result :: (← traverse step rest) := by
  refine congrArg (step element >>= ·) (funext fun result => ?_)
  rw [traverseAfter_eq]
  simp

end Traversal

end Rule

end TreeScript
