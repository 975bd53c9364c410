import TreeScript.Proofs.Manner
import TreeScript.Proofs.ResemblingEdits

/-!
# Processes in accord

Two processes are in accord if they are the same but for labels: they perform
actions, ask for goals and end with results that resemble each other, as long
as they get replies and outcomes that do.  Errors are never caught: when a goal
gives one, both processes end at once with what has become of it.

The terms of an accord say more of what both of them do: which calls are around
the goals that are asked for, and which errors are raised.  So a process that
is in accord with itself keeps to these terms.
-/

namespace TreeScript

/-! ## Results and goals -/

/-- Two results that are the same, with a property. -/
def Shared {α : Type} (holds : α → Prop) (result other : α) : Prop :=
  other = result ∧ holds result

section

variable (numbers : Float → Prop)

/-- Signals that leave corresponding constructs; none leaves a call. -/
inductive Signal.Resembles : Option (List Binder) → Signal → Signal → Prop where
  | returning {binders : List Binder} {value : Value} (carries : value.Carries numbers) :
      Resembles (some binders) (.returning value) (.returning value)
  | breaking {binders : List Binder} {label other : Option String} {value : Option Value}
      (labels : Binder.ReferIfAny binders label other)
      (carries : ∀ carried ∈ value, carried.Carries numbers) :
      Resembles (some binders) (.breaking label value) (.breaking other value)
  | continuing {binders : List Binder} {label other : Option String}
      (labels : Binder.ReferIfAny (Binder.loops binders) label other) :
      Resembles (some binders) (.continuing label) (.continuing other)

/-- Evaluations that end alike: with related results, with related signals, or with an error. -/
inductive EndsAlike {α β : Type} (fails : Error → Prop) (within : Option (List Binder))
    (holds : α → β → Prop) : Except Interrupt α → Except Interrupt β → Prop where
  | ok {result : α} {other : β} (given : holds result other) :
      EndsAlike fails within holds (.ok result) (.ok other)
  | signal {signal other : Signal} (signals : signal.Resembles numbers within other) :
      EndsAlike fails within holds (.error (.signal signal)) (.error (.signal other))
  | error {error : Error} (raised : fails error) :
      EndsAlike fails within holds (.error (.error error)) (.error (.error error))

/-- Outcomes other than errors that are alike. -/
abbrev Outcome.Resembles (within : Option (List Binder)) (outcome other : Outcome) : Prop :=
  EndsAlike numbers (fun _ => False) within (Shared (Value.Carries numbers)) outcome other

/-- Goals that are the same but for labels, with the constructs that signals can leave. -/
inductive Goal.Resembles : Option (List Binder) → Goal → Goal → Prop where
  | evaluate {binders : List Binder} {node other : Node} {scope : Scope} {context : Context}
      (nodes : node.Resembles numbers binders other) :
      Resembles (some binders) (.evaluate node scope context) (.evaluate other scope context)
  | loop {binders : List Binder} {label label' : Option String}
      {statements statements' : List Node} {scope : Scope} {context : Context}
      (each : Node.Resemble numbers (⟨label, label', true⟩ :: binders) statements statements') :
      Resembles (some binders) (.loop label statements scope context)
        (.loop label' statements' scope context)
  | times {binders : List Binder} {label label' : Option String} {count limit : Float}
      {body body' : Node} {scope : Scope} {context : Context}
      (bodies : body.Resembles numbers (⟨label, label', true⟩ :: binders) body') :
      Resembles (some binders) (.times label count limit body scope context)
        (.times label' count limit body' scope context)
  | range {binders : List Binder} {label label' : Option String} {counter : String}
      {count limit : Float} {body body' : Node} {scope : Scope} {context : Context}
      (bodies : body.Resembles numbers (⟨label, label', true⟩ :: binders) body') :
      Resembles (some binders) (.range label counter count limit body scope context)
        (.range label' counter count limit body' scope context)
  | each {binders : List Binder} {label label' : Option String} {pattern pattern' : Node}
      {array : ArrayId} {place : Nat} {body body' : Node} {scope : Scope} {context : Context}
      (patterns : pattern.Resembles numbers binders pattern')
      (bodies : body.Resembles numbers (⟨label, label', true⟩ :: binders) body') :
      Resembles (some binders) (.each label pattern array place body scope context)
        (.each label' pattern' array place body' scope context)
  | apply {function : FunctionId} {arguments : List Value} {context : Context}
      {site : Option Position}
      (carry : ∀ argument ∈ arguments, argument.Carries numbers) :
      Resembles none (.apply function arguments context site)
        (.apply function arguments context site)

/-- Turns that are alike: outcomes, or goals to go on with inside the same calls. -/
inductive Turn.Resembles (fails : Error → Prop) (calls : List Call) :
    Option (List Binder) → Turn → Turn → Prop where
  | answer {within : Option (List Binder)} {outcome other : Outcome}
      (ended : EndsAlike numbers fails within (Shared (Value.Carries numbers)) outcome other) :
      Turn.Resembles fails calls within (.answer outcome) (.answer other)
  | again {binders : List Binder} {goal other : Goal}
      (goals : goal.Resembles numbers (some binders) other)
      (inside : goal.context.calls = calls) :
      Turn.Resembles fails calls (some binders) (.again goal) (.again other)

end

/-- What processes that are in accord keep to. -/
structure Terms where
  /-- The calls around the goals that are asked for. -/
  asks : List Call → Prop
  /-- The errors that are raised. -/
  fails : Error → Prop
  /-- The numbers that are written without being of the kind. -/
  sums : Float → Prop

/-- A kind of numbers that takes in all that are numbers, and their opposites. -/
structure IsKind (numbers : Float → Prop) : Prop where
  ordinary : ∀ number : Float, number.isNaN = false → numbers number
  neg : ∀ number : Float, numbers number → numbers (-number)

/-- Terms that the constructs of a script keep to in a context. -/
structure Terms.Fit (numbers : Float → Prop) (terms : Terms) (context : Context) : Prop
    extends IsKind numbers where
  asked : terms.asks context.calls
  bare : ∀ error : Error, error.IsBare → terms.fails error

variable {numbers : Float → Prop} {terms : Terms} {α β γ δ : Type}

/-! ## Processes -/

namespace Process

/-- Processes that are the same but for labels; an error of a goal ends both of them. -/
inductive Accords (numbers : Float → Prop) (terms : Terms) (failed : Error → α)
    (failed' : Error → β) (ends : α → β → Prop) : Process α → Process β → Prop where
  | done {result : α} {other : β} (ended : ends result other) :
      Accords numbers terms failed failed' ends (.done result) (.done other)
  | act {action action' : Action} {replies : action.Reply → action'.Reply → Prop}
      {next : action.Reply → Process α} {next' : action'.Reply → Process β}
      (actions : Action.Resembles numbers terms.sums action action' replies)
      (rest : ∀ reply reply', replies reply reply' →
        Accords numbers terms failed failed' ends (next reply) (next' reply')) :
      Accords numbers terms failed failed' ends (.act action next) (.act action' next')
  | wait {reason : Wait} {next : Process α} {next' : Process β}
      (rest : Accords numbers terms failed failed' ends next next') :
      Accords numbers terms failed failed' ends (.wait reason next) (.wait reason next')
  | call {within : Option (List Binder)} {goal goal' : Goal} {next : Outcome → Process α}
      {next' : Outcome → Process β}
      (goals : Goal.Resembles numbers within goal goal')
      (asked : terms.asks goal.context.calls)
      (rest : ∀ outcome outcome', Outcome.Resembles numbers within outcome outcome' →
        Accords numbers terms failed failed' ends (next outcome) (next' outcome'))
      (passes : ∀ error : Error, next (.error (.error error)) = .done (failed error) ∧
        next' (.error (.error error)) = .done (failed' error)) :
      Accords numbers terms failed failed' ends (.call goal next) (.call goal' next')
  | drive {within : Option (List Binder)} {goal goal' : Goal} {next : Outcome → Process α}
      {next' : Outcome → Process β}
      (goals : Goal.Resembles numbers within goal goal')
      (asked : terms.asks goal.context.calls)
      (rest : ∀ outcome outcome', Outcome.Resembles numbers within outcome outcome' →
        Accords numbers terms failed failed' ends (next outcome) (next' outcome'))
      (passes : ∀ error : Error, next (.error (.error error)) = .done (failed error) ∧
        next' (.error (.error error)) = .done (failed' error)) :
      Accords numbers terms failed failed' ends (.drive goal next) (.drive goal' next')

/-- Processes in accord may go on with processes in accord. -/
theorem Accords.bind {failed : Error → α} {failed' : Error → β} {ends : α → β → Prop}
    {failedAfter : Error → γ} {failedAfter' : Error → δ} {endsAfter : γ → δ → Prop}
    {process : Process α} {process' : Process β}
    (accords : Accords numbers terms failed failed' ends process process')
    {continuation : α → Process γ} {continuation' : β → Process δ}
    (goesOn : ∀ result result', ends result result' →
      Accords numbers terms failedAfter failedAfter' endsAfter (continuation result)
        (continuation' result'))
    (kept : ∀ error : Error, continuation (failed error) = .done (failedAfter error) ∧
      continuation' (failed' error) = .done (failedAfter' error)) :
    Accords numbers terms failedAfter failedAfter' endsAfter (process.bind continuation)
      (process'.bind continuation') := by
  induction accords with
  | done ended => exact goesOn _ _ ended
  | act actions _ inductive_step => exact .act actions inductive_step
  | wait _ inductive_step => exact .wait inductive_step
  | call goals asked _ passes inductive_step =>
      refine .call goals asked inductive_step fun error => ?_
      rw [(passes error).1, (passes error).2]
      exact kept error
  | drive goals asked _ passes inductive_step =>
      refine .drive goals asked inductive_step fun error => ?_
      rw [(passes error).1, (passes error).2]
      exact kept error

end Process

/-! ## Rules -/

namespace Rule

/-- Rules that are the same but for labels. -/
def Accords (numbers : Float → Prop) (terms : Terms) (within : Option (List Binder))
    (holds : α → β → Prop) (rule : Rule α) (other : Rule β) : Prop :=
  Process.Accords numbers terms (fun error => .error (.error error))
    (fun error => .error (.error error)) (EndsAlike numbers terms.fails within holds)
    rule.run other.run

section Closure

variable {within inner : Option (List Binder)} {holds : α → β → Prop} {holdsAfter : γ → δ → Prop}

theorem accords_pure {result : α} {other : β} (given : holds result other) :
    Accords numbers terms within holds (pure result) (pure other) :=
  .done (.ok given)

/-- The case of `accords_pure` in which both results are the same. -/
theorem accords_same {holds : α → Prop} {result : α} (given : holds result) :
    Accords numbers terms within (Shared holds) (pure result) (pure result) :=
  accords_pure ⟨rfl, given⟩

theorem accords_signal {signal other : Signal}
    (signals : Signal.Resembles numbers within signal other) :
    Accords numbers terms within holds (throw (.signal signal)) (throw (.signal other)) :=
  .done (.signal signals)

theorem accords_fail {error : Error} (raised : terms.fails error) :
    Accords numbers terms within holds (fail error) (fail error) :=
  .done (.error raised)

/-- Nothing comes after an error. -/
theorem accords_fail_bind {error : Error} (raised : terms.fails error)
    {continuation : γ → Rule α} {continuation' : δ → Rule β} :
    Accords numbers terms within holds (fail error >>= continuation)
      (fail error >>= continuation') :=
  .done (.error raised)

theorem Accords.bind {rule : Rule α} {other : Rule β}
    (accords : Accords numbers terms within holds rule other)
    {continuation : α → Rule γ} {continuation' : β → Rule δ}
    (goesOn : ∀ result result', holds result result' →
      Accords numbers terms within holdsAfter (continuation result) (continuation' result')) :
    Accords numbers terms within holdsAfter (rule >>= continuation) (other >>= continuation') := by
  refine Process.Accords.bind accords (fun result result' ended => ?_) fun _ => ⟨rfl, rfl⟩
  cases ended with
  | ok given => exact goesOn _ _ given
  | signal signals => exact .done (.signal signals)
  | error raised => exact .done (.error raised)

/-- The case of `Accords.bind` in which both rules give the same result. -/
theorem Accords.andThen {holds : α → Prop} {rule other : Rule α}
    (accords : Accords numbers terms within (Shared holds) rule other)
    {continuation : α → Rule γ} {continuation' : α → Rule δ}
    (goesOn : ∀ result, holds result →
      Accords numbers terms within holdsAfter (continuation result) (continuation' result)) :
    Accords numbers terms within holdsAfter (rule >>= continuation) (other >>= continuation') := by
  refine accords.bind ?_
  rintro result _ ⟨rfl, given⟩
  exact goesOn _ given

theorem accords_ofExcept {holds : α → Prop} {result : Except Error α}
    (bare : ∀ error : Error, error.IsBare → terms.fails error) (answered : Answered holds result) :
    Accords numbers terms within (Shared holds) (ofExcept result) (ofExcept result) := by
  cases result with
  | ok value => exact accords_same answered
  | error error => exact accords_fail (bare error answered)

theorem accords_perform {action action' : Action}
    {replies : action.Reply → action'.Reply → Prop}
    (actions : Action.Resembles numbers terms.sums action action' replies) :
    Accords numbers terms within replies (perform action) (perform action') :=
  .act actions fun _ _ replied => .done (.ok replied)

/-- Performing an action that holds no nodes. -/
theorem accords_act (action : Action) (carries : action.Carries numbers terms.sums) :
    Accords numbers terms within (action.Gives numbers) (perform action) (perform action) :=
  accords_perform (.same carries)

/-- An action that may fail. -/
theorem Accords.attempt {holds : α → Prop} {reply other : Rule (Except Error α)}
    (bare : ∀ error : Error, error.IsBare → terms.fails error)
    (accords : Accords numbers terms within
      (fun reply reply' => reply' = reply ∧ Answered holds reply) reply other) :
    (attempt reply).Accords numbers terms within (Shared holds) (attempt other) := by
  refine Accords.bind accords ?_
  rintro reply _ ⟨rfl, answered⟩
  exact accords_ofExcept bare answered

theorem accords_look (view : Store → α) (holds : α → Prop)
    (seen : ∀ store other : Store, store.Resembles numbers other →
      view other = view store ∧ holds (view store)) :
    Accords numbers terms within (Shared holds) (look view) (look view) :=
  (accords_act .store trivial).bind fun store other stores =>
    accords_pure (seen store other stores)

/-- Looking at the store for something that is the same in both stores. -/
theorem accords_glance (view : Store → α)
    (seen : ∀ store other : Store, store.Resembles numbers other → view other = view store) :
    Accords numbers terms within (Shared fun _ => True) (look view) (look view) :=
  accords_look view _ fun store other stores => ⟨seen store other stores, trivial⟩

theorem accords_call {goal goal' : Goal} (goals : Goal.Resembles numbers within goal goal')
    (asked : terms.asks goal.context.calls) :
    Accords numbers terms within (Shared (Value.Carries numbers)) (call goal) (call goal') := by
  refine .call goals asked (fun outcome outcome' alike => .done ?_) fun _ => ⟨rfl, rfl⟩
  cases alike with
  | ok given => exact .ok given
  | signal signals => exact .signal signals
  | error raised => exact raised.elim

theorem accords_drive {goal goal' : Goal} (goals : Goal.Resembles numbers within goal goal')
    (asked : terms.asks goal.context.calls) :
    Accords numbers terms within (Shared (Value.Carries numbers)) (drive goal) (drive goal') := by
  refine .drive goals asked (fun outcome outcome' alike => .done ?_) fun _ => ⟨rfl, rfl⟩
  cases alike with
  | ok given => exact .ok given
  | signal signals => exact .signal signals
  | error raised => exact raised.elim

theorem accords_wait (reason : Wait) :
    Accords numbers terms within (Shared fun _ => True) (wait reason) (wait reason) :=
  .wait (.done (.ok ⟨rfl, trivial⟩))

/-- A rule that looks at how another one ends lets errors through. -/
theorem Accords.outcome_bind {rule : Rule α} {other : Rule β}
    (accords : Accords numbers terms inner holds rule other)
    {continuation : Except Interrupt α → Rule γ} {continuation' : Except Interrupt β → Rule δ}
    (goesOn : ∀ result result',
      EndsAlike numbers (fun _ => False) inner holds result result' →
        Accords numbers terms within holdsAfter (continuation result) (continuation' result'))
    (kept : ∀ error : Error, continuation (.error (.error error)) = fail error ∧
      continuation' (.error (.error error)) = fail error) :
    Accords numbers terms within holdsAfter (outcome rule >>= continuation)
      (outcome other >>= continuation') := by
  unfold Accords
  rw [run_outcome_bind, run_outcome_bind]
  refine Process.Accords.bind accords (fun result result' ended => ?_) fun error => ?_
  · cases ended with
    | ok given => exact goesOn _ _ (.ok given)
    | signal signals => exact goesOn _ _ (.signal signals)
    | @error error raised =>
        rw [(kept error).1, (kept error).2]
        exact accords_fail raised
  · rw [(kept error).1, (kept error).2]
    exact ⟨rfl, rfl⟩

/-- A step for the first elements of two lists, and steps for the others. -/
theorem accords_traverse_cons {step : α → Rule γ} {step' : β → Rule γ} {holds : γ → Prop}
    {element : α} {other : β} {rest : List α} {others : List β}
    (first : Accords numbers terms within (Shared holds) (step element) (step' other))
    (further : Accords numbers terms within (Shared fun results => ∀ result ∈ results, holds result)
      (traverse step rest) (traverse step' others)) :
    Accords numbers terms within (Shared fun results => ∀ result ∈ results, holds result)
      (traverse step (element :: rest)) (traverse step' (other :: others)) := by
  rw [traverse_cons, traverse_cons]
  exact first.andThen fun result given => further.andThen fun results all =>
    accords_same (List.forall_mem_cons.mpr ⟨given, all⟩)

theorem accords_traverse_nil {step : α → Rule γ} {step' : β → Rule γ} {holds : γ → Prop} :
    Accords numbers terms within (Shared fun results => ∀ result ∈ results, holds result)
      (traverse step []) (traverse step' []) :=
  accords_same (List.forall_mem_nil _)

/-- The same steps for the elements of one list. -/
theorem accords_traverse (step : α → Rule γ) (holds : γ → Prop) {elements : List α}
    (each : ∀ element ∈ elements,
      Accords numbers terms within (Shared holds) (step element) (step element)) :
    Accords numbers terms within (Shared fun results => ∀ result ∈ results, holds result)
      (traverse step elements) (traverse step elements) := by
  induction elements with
  | nil => exact accords_traverse_nil
  | cons element rest inductive_step =>
      obtain ⟨first, further⟩ := List.forall_mem_cons.mp each
      exact accords_traverse_cons first (inductive_step further)

end Closure

end Rule

end TreeScript
