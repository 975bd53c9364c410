import TreeScript.Proofs.Callers
import TreeScript.Proofs.NativeAccord
import TreeScript.Proofs.ScriptAccord

/-!
# Goals in accord

Goals that are the same but for labels have processes that are in accord.  The
terms are those of the goal (`Goal.Fails`, `Goal.failed`): what it raises has
not been located, unless the goal is the evaluation of a node, which locates
every error that comes out of it.

What a call asks for is inside one more call.  Its name is that of the function
when it is called (`Store.callOf?`), so this is settled once the call has
looked at the store.
-/

namespace TreeScript

open Rule

/-! ## What goals make of errors -/

/-- What a goal makes of the error of another goal. -/
def Goal.failed : Goal → Error → Error
  | .evaluate node _ context, error => error.locate node.start context.calls
  | _, error => error

/-- The errors that arise in a goal. -/
def Goal.Fails (goal : Goal) (error : Error) : Prop :=
  ∃ raised : Error, raised.IsBare ∧ error = goal.failed raised

/-- Whether a goal is the evaluation of a compound assignment. -/
def Goal.IsCompound : Goal → Prop
  | .evaluate node _ _ => ∃ operator target value, node.shape = .compound operator target value
  | _ => False

/-- The terms of a goal that asks for goals inside some calls. -/
def Goal.terms (goal : Goal) (calls : List Call) : Terms where
  asks asked := asked = calls
  fails := Error.IsBare
  sums _ := goal.IsCompound

/-- The call that a goal makes, named as the function is named in a store. -/
def Store.callOf? (store : Store) : Goal → Option Call
  | .apply function _ _ site =>
      match store.function? function with
      | some ⟨name, _, .closure _ _ _ _⟩ => some ⟨name.getD Evaluation.anonymous, site⟩
      | some ⟨_, _, .native _⟩ => some ⟨"<native>", site⟩
      | none => none
  | _ => none

/-- A process whose goal ends with an error ends with it as well, changed in a way. -/
abbrev Turn.passing (change : Error → Error) (error : Error) : Turn :=
  .answer (.error (.error (change error)))

variable {numbers : Float → Prop} {terms : Terms} {binders : List Binder}
variable {within : Option (List Binder)}

namespace Evaluation

/-! ## The processes of rules -/

/-- Rules of turns that are in accord have processes that are in accord. -/
theorem accords_process {fails : Error → Prop} {calls : List Call} {rule other : Rule Turn}
    (accords : Accords numbers terms within
      (Turn.Resembles numbers (fun _ => False) calls within) rule other)
    (raises : ∀ error : Error, terms.fails error → fails error) :
    Process.Accords numbers terms (Turn.passing id) (Turn.passing id)
      (Turn.Resembles numbers fails calls within) (process rule) (process other) := by
  refine Process.Accords.bind accords (fun result result' ended => .done ?_) fun _ => ⟨rfl, rfl⟩
  cases ended with
  | signal signals => exact .answer (.signal signals)
  | error raised => exact .answer (.error (raises _ raised))
  | ok given =>
      cases given with
      | again goals inside => exact .again goals inside
      | answer ended =>
          cases ended with
          | ok given => exact .answer (.ok given)
          | signal signals => exact .answer (.signal signals)
          | error raised => exact raised.elim

/-- Rules that end a goal with what another rule gives, and change the errors of that. -/
theorem accords_answering {calls : List Call} {run run' : Rule Value} {change : Error → Error}
    {fails : Error → Prop}
    (accords : Process.Accords numbers terms (fun error => .error (.error (change error)))
      (fun error => .error (.error (change error)))
      (EndsAlike numbers fails within (Shared (Value.Carries numbers))) run.run run'.run) :
    Process.Accords numbers terms (Turn.passing change) (Turn.passing change)
      (Turn.Resembles numbers fails calls within) (process (answering run))
      (process (answering run')) := by
  rw [process_answering, process_answering]
  exact Process.Accords.bind accords (fun _ _ ended => .done (.answer ended)) fun _ => ⟨rfl, rfl⟩

/-- The case of `accords_answering` in which errors are let through. -/
theorem accords_passing {calls : List Call} {rule other : Rule Value} {fails : Error → Prop}
    (accords : Accords numbers terms within (Shared (Value.Carries numbers)) rule other)
    (raises : ∀ error : Error, terms.fails error → fails error) :
    Process.Accords numbers terms (Turn.passing id) (Turn.passing id)
      (Turn.Resembles numbers fails calls within) (process (answering rule))
      (process (answering other)) := by
  rw [process_answering, process_answering]
  refine Process.Accords.bind accords (fun _ _ ended => .done (.answer ?_)) fun _ => ⟨rfl, rfl⟩
  cases ended with
  | ok given => exact .ok given
  | signal signals => exact .signal signals
  | error raised => exact .error (raises _ raised)

/-- A rule that changes the errors of another rule, whether they arise in it or come from a goal. -/
theorem accords_mapError {rule other : Rule Value} {change : Error → Error}
    (accords : Accords numbers terms within (Shared (Value.Carries numbers)) rule other) :
    Process.Accords numbers terms (fun error => .error (.error (change error)))
      (fun error => .error (.error (change error)))
      (EndsAlike numbers (fun error => ∃ raised, terms.fails raised ∧ error = change raised) within
        (Shared (Value.Carries numbers))) (mapError change rule).run
      (mapError change other).run := by
  unfold mapError
  rw [run_outcome_bind, run_outcome_bind]
  refine Process.Accords.bind accords (fun result result' ended => ?_) fun _ => ⟨rfl, rfl⟩
  cases ended with
  | ok given => exact .done (.ok given)
  | signal signals => exact .done (.signal signals)
  | error raised => exact .done (.error ⟨_, raised, rfl⟩)

/-! ## Calls -/

section Calls

variable {context : Context} {site : Option Position} {arguments : List Value}
variable (bare : ∀ error : Error, error.IsBare → terms.fails error)
variable (carry : ∀ argument ∈ arguments, argument.Carries numbers)

include bare

theorem accords_bindParameters {scope : Scope} {parameters parameters' : List Parameter}
    {fallbacks : List (Option Value)} {arguments : List Value}
    (each : Parameter.Resemble numbers binders parameters parameters')
    (given : ∀ value, some value ∈ fallbacks → value.Carries numbers)
    (carry : ∀ argument ∈ arguments, argument.Carries numbers) :
    Accords numbers terms within (Shared fun _ => True)
      (bindParameters scope parameters fallbacks arguments)
      (bindParameters scope parameters' fallbacks arguments) := by
  induction parameters generalizing parameters' fallbacks arguments with
  | nil =>
      cases each
      exact accords_same trivial
  | cons parameter rest inductive_step =>
      cases each with
      | cons targets _ others =>
          rw [bindParameters, bindParameters]
          split
          · rename_i value chosen
            have carries : value.Carries numbers := by
              rcases Option.or_eq_some_iff.mp chosen with first | ⟨-, fallback⟩
              · exact carry value (List.mem_of_head? first)
              · exact given value (List.mem_of_head? (Option.join_eq_some_iff.mp fallback))
            refine (Accords.attempt bare (accords_perform (.define targets carries))).andThen
              fun _ _ => ?_
            exact inductive_step others (fun value mem => given value (List.mem_of_mem_tail mem))
              fun argument mem => carry argument (List.mem_of_mem_tail mem)
          · exact accords_fail (bare _ rfl)

/-- A function takes a `return`; any other signal has nothing left to leave. -/
theorem accords_endOfBody {outcome other : Outcome}
    (ended : EndsAlike numbers (fun _ => False) (some []) (Shared (Value.Carries numbers))
      outcome other) :
    Accords numbers terms none (Shared (Value.Carries numbers))
      (ExceptT.mk (.done (endOfBody outcome))) (ExceptT.mk (.done (endOfBody other))) := by
  cases ended with
  | ok given => exact accords_pure given
  | error raised => exact raised.elim
  | signal signals =>
      cases signals with
      | returning carries => exact accords_same carries
      | breaking labels carries => exact .done (.error (bare _ rfl))
      | continuing labels => exact .done (.error (bare _ rfl))

include carry

theorem accords_applyClosure (options : Options) {name : Option String}
    (asked : terms.asks (⟨name.getD anonymous, site⟩ :: context.calls))
    {parameters parameters' : List Parameter} {fallbacks : List (Option Value)}
    {statements statements' : List Node} (scope : Scope)
    (each : Parameter.Resemble numbers binders parameters parameters')
    (given : ∀ value, some value ∈ fallbacks → value.Carries numbers)
    (bodies : Node.Resemble numbers [] statements statements') :
    Accords numbers terms none (Shared (Value.Carries numbers))
      (applyClosure options name parameters fallbacks statements scope arguments context site)
      (applyClosure options name parameters' fallbacks statements' scope arguments context
        site) := by
  have rest :
      Accords numbers terms none (Shared (Value.Carries numbers)) (do
          let inner ← openScope scope .empty
          bindParameters inner parameters fallbacks arguments
          let outcome ←
            (runAll inner (context.enter (name.getD anonymous) site) statements).outcome
          ExceptT.mk (.done (endOfBody outcome))) (do
          let inner ← openScope scope .empty
          bindParameters inner parameters' fallbacks arguments
          let outcome ←
            (runAll inner (context.enter (name.getD anonymous) site) statements').outcome
          ExceptT.mk (.done (endOfBody outcome))) := by
    refine (accords_openScope carries_empty).andThen fun inner _ => ?_
    refine (accords_bindParameters bare each given carry).andThen fun _ _ => ?_
    refine Accords.outcome_bind ?_ (fun _ _ ended => accords_endOfBody bare ended)
      fun _ => ⟨rfl, rfl⟩
    exact accords_runAll asked bodies
  unfold applyClosure
  split
  · have refused := bare (.of (.callDepth options.depthLimit)) rfl
    exact accords_fail_bind refused
  · exact rest

end Calls

/-- What a call does with the function that it has found. -/
def applyFound (options : Options) (host : Host) (arguments : List Value) (context : Context)
    (site : Option Position) : Option Function → Rule Value
  | some ⟨name, _, .closure parameters fallbacks statements scope⟩ =>
      applyClosure options name parameters fallbacks statements scope arguments context site
  | some ⟨_, _, .native native⟩ => (nativeForms host native).apply arguments context site
  | none => Rule.fail (.of (.internal "no such function"))

theorem apply_eq (options : Options) (host : Host) (function : FunctionId)
    (arguments : List Value) (context : Context) (site : Option Position) :
    apply options host function arguments context site =
      Rule.look (fun store => store.function? function) >>=
        applyFound options host arguments context site := rfl

/-- After a call has found its function, it is in accord with one that has found the same. -/
theorem accords_applyFound (options : Options) (host : Host) (kind : IsKind numbers)
    {function : FunctionId} {arguments : List Value} {context : Context} {site : Option Position}
    {store other : Store} (stores : store.Resembles numbers other)
    (carry : ∀ argument ∈ arguments, argument.Carries numbers)
    (spares : ∀ found native, store.function? function = some found →
      found.body = .native native → native.Spares numbers arguments) :
    Accords numbers
      ((Goal.apply function arguments context site).terms
        ((store.callOf? (.apply function arguments context site)).toList ++ context.calls)) none
      (Shared (Value.Carries numbers))
      (applyFound options host arguments context site (store.function? function))
      (applyFound options host arguments context site (other.function? function)) := by
  rcases stores.function? function with ⟨missing, missingThere⟩ |
    ⟨found, counterpart, present, presentThere, alike⟩
  · rw [missing, missingThere]
    exact accords_fail rfl
  · have spared := fun native => spares found native present
    obtain ⟨name, attributes, body⟩ := found
    obtain ⟨name', attributes', body'⟩ := counterpart
    obtain rfl : name' = name := alike.name
    have bodies : body.Resembles numbers body' := alike.body
    rw [Store.callOf?, present, presentThere]
    cases bodies with
    | closure each given bodies =>
        exact accords_applyClosure (fun _ => id) carry options rfl _ each given bodies
    | native hostless =>
        exact replies_native ⟨kind, rfl, fun _ => id⟩ carry hostless (spared _ rfl)

/-! ## Nodes -/

section Nodes

variable {context : Context} {scope : Scope}

theorem accords_gate (irq : Irq) :
    Accords numbers terms within (Shared fun _ => True) (gate irq) (gate irq) := by
  have yielding :
      Accords numbers terms within (Shared fun _ => True) (yieldNow irq.sleep)
        (yieldNow irq.sleep) := by
    unfold yieldNow
    split
    · exact accords_wait .nextPoll
    · refine (accords_acting .yielded trivial fun _ _ => id).andThen fun _ _ => ?_
      split
      · exact accords_wait .nextPoll
      · exact accords_same trivial
  have rest :
      Accords numbers terms within (Shared fun _ => True) (do
          if irq.isDue (← Rule.perform .steps) then
            yieldNow irq.sleep) (do
          if irq.isDue (← Rule.perform .steps) then
            yieldNow irq.sleep) := by
    refine (accords_acting .steps trivial fun _ _ => id).andThen fun steps _ => ?_
    split
    · exact yielding
    · exact accords_same trivial
  refine (accords_acting .pause trivial fun _ _ => id).andThen fun pause _ => ?_
  cases pause with
  | none => exact rest
  | some pause => exact (accords_wait (.resumed pause)).andThen fun _ _ => rest

theorem accords_enterNode (options : Options) (fit : terms.Fit numbers context)
    {node other : Node} (nodes : node.Resembles numbers binders other)
    (sums : ∀ operator target value, node.shape = .compound operator target value →
      ∀ number : Float, terms.sums number) :
    Agree numbers terms binders (enterNode options node scope context)
      (enterNode options other scope context) := by
  have ticked :
      Agree numbers terms binders (do
          if ← Rule.perform .tick then
            construct scope context node.start node.shape
          else Rule.fail (.of .stepLimit)) (do
          if ← Rule.perform .tick then
            construct scope context other.start other.shape
          else Rule.fail (.of .stepLimit)) := by
    refine (accords_acting .tick trivial fun _ _ => id).andThen fun counted _ => ?_
    rw [nodes.start]
    cases counted with
    | true => exact accords_construct fit node.start nodes.shape sums
    | false => exact accords_fail (fit.bare _ rfl)
  refine (accords_acting .isStopped trivial fun _ _ => id).andThen
    fun stopped _ => ?_
  cases stopped with
  | true => exact accords_same trivial
  | false =>
      obtain ⟨calls, mode⟩ := context
      cases mode with
      | asynchronous => exact (accords_gate options.irq).andThen fun _ _ => ticked
      | synchronous => exact ticked

end Nodes

/-- Goals other than calls that are the same but for labels have processes in accord. -/
theorem accords_ofGoal (options : Options) (host : Host) (kind : IsKind numbers)
    {goal goal' : Goal} (goals : goal.Resembles numbers (some binders) goal') :
    Process.Accords numbers (goal.terms goal.context.calls) (Turn.passing goal.failed)
      (Turn.passing goal.failed)
      (Turn.Resembles numbers goal.Fails goal.context.calls (some binders))
      (ofGoal options host goal) (ofGoal options host goal') := by
  have fit : (goal.terms goal.context.calls).Fit numbers goal.context := ⟨kind, rfl, fun _ => id⟩
  cases goals with
  | @evaluate _ node other scope context nodes =>
      refine accords_answering ?_
      show Process.Accords _ _ _ _ _ (evaluateNode options node scope context).run
        (evaluateNode options other scope context).run
      unfold evaluateNode
      rw [nodes.start]
      exact accords_mapError (accords_enterNode options fit nodes
        fun operator target value compound _ => ⟨operator, target, value, compound⟩)
  | loop each =>
      exact accords_process (accords_loopTurn fit.asked each) fun error raised =>
        ⟨error, raised, rfl⟩
  | times bodies =>
      exact accords_process (accords_timesTurn fit.asked _ _ bodies) fun error raised =>
        ⟨error, raised, rfl⟩
  | range bodies =>
      exact accords_process (accords_rangeTurn fit.asked kind.ordinary _ _ _ bodies)
        fun error raised => ⟨error, raised, rfl⟩
  | each patterns bodies =>
      exact accords_process (accords_eachTurn fit.asked fit _ _ patterns bodies)
        fun error raised => ⟨error, raised, rfl⟩

end Evaluation

end TreeScript
