import TreeScript.Evaluation.Namespace
import TreeScript.Proofs.ConstructAccord

/-!
# Scripts in accord

The turns of loops, the declarations of namespaces and whole scripts that are
the same but for labels are in accord, as the nodes in them are.  No signal
leaves a script or the value of a member: it becomes an error there.
-/

namespace TreeScript

variable {numbers : Float → Prop} {terms : Terms} {binders : List Binder}

namespace Evaluation

open Rule

variable {context : Context} {scope : Scope}

/-! ## Turns of loops -/

section Loops

variable (asked : terms.asks context.calls)

/-- Turns of a loop inside some constructs that are alike. -/
abbrev AgreeOnTurns (numbers : Float → Prop) (terms : Terms) (calls : List Call)
    (binders : List Binder) (rule other : Rule Turn) : Prop :=
  Accords numbers terms (some binders)
    (Turn.Resembles numbers (fun _ => False) calls (some binders)) rule other

theorem accords_finished {calls : List Call} :
    AgreeOnTurns numbers terms calls binders (pure finished) (pure finished) :=
  accords_pure (.answer (.ok ⟨rfl, trivial⟩))

theorem accords_turnAfter {calls : List Call} {label label' : Option String}
    {rest rest' : Goal} {body body' : Rule Value}
    (bodies : Agree numbers terms (⟨label, label', true⟩ :: binders) body body')
    (goals : rest.Resembles numbers (some binders) rest')
    (inside : rest.context.calls = calls) :
    AgreeOnTurns numbers terms calls binders (turnAfter label rest body)
      (turnAfter label' rest' body') := by
  refine bodies.outcome_bind (fun outcome outcome' ended => ?_) fun _ => ⟨rfl, rfl⟩
  rcases ended.iteration with ⟨same, ends⟩ | ⟨signal, other, signals, first, second⟩
  · rw [same]
    cases iteration : Iteration.ofOutcome label outcome with
    | next => exact accords_pure (.again goals inside)
    | leave => exact accords_finished
    | propagate interrupt => exact (ends interrupt iteration).elim
  · rw [first, second]
    exact accords_signal signals

/-- A loop asks whether evaluation is stopped before each turn. -/
theorem accords_unlessStopped {calls : List Call} {turn turn' : Rule Turn}
    (goesOn : AgreeOnTurns numbers terms calls binders turn turn') :
    AgreeOnTurns numbers terms calls binders (do
        if ← perform .isStopped then return finished
        turn) (do
        if ← perform .isStopped then return finished
        turn') := by
  refine (accords_acting .isStopped trivial fun _ _ => id).andThen fun stopped _ => ?_
  cases stopped with
  | true => exact accords_finished
  | false => exact goesOn

include asked

theorem accords_loopTurn {label label' : Option String} {statements statements' : List Node}
    (each : Node.Resemble numbers (⟨label, label', true⟩ :: binders) statements statements') :
    AgreeOnTurns numbers terms context.calls binders (loopTurn label statements scope context)
      (loopTurn label' statements' scope context) := by
  refine accords_unlessStopped ?_
  exact (accords_openScope carries_empty).andThen fun _ _ =>
    accords_turnAfter (accords_runAll asked each) (.loop each) rfl

theorem accords_timesTurn {label label' : Option String} (count limit : Float)
    {body body' : Node}
    (bodies : body.Resembles numbers (⟨label, label', true⟩ :: binders) body') :
    AgreeOnTurns numbers terms context.calls binders
      (timesTurn label count limit body scope context)
      (timesTurn label' count limit body' scope context) := by
  unfold timesTurn
  split
  · exact accords_finished
  · exact accords_unlessStopped
      (accords_turnAfter (accords_evaluateClause asked bodies) (.times bodies) rfl)

/-- The counter of a turn is less than something, and so a number. -/
theorem accords_rangeTurn (ordinary : ∀ number : Float, number.isNaN = false → numbers number)
    {label label' : Option String} (counter : String) (count limit : Float) {body body' : Node}
    (bodies : body.Resembles numbers (⟨label, label', true⟩ :: binders) body') :
    AgreeOnTurns numbers terms context.calls binders
      (rangeTurn label counter count limit body scope context)
      (rangeTurn label' counter count limit body' scope context) := by
  unfold rangeTurn
  split
  · exact accords_finished
  · rename_i notOver
    have less : count < limit := by simpa using notOver
    refine accords_unlessStopped ((accords_openScope ?_).andThen fun _ _ =>
      accords_turnAfter (accords_evaluateClause asked bodies) (.range bodies) rfl)
    intro name bound present
    rcases Dict.eq_or_find?_of_insert present with rfl | present
    · exact ordinary count (Double.isNaN_of_lt less)
    · cases present

theorem accords_eachTurn (fit : terms.Fit numbers context)
    {label label' : Option String} {pattern pattern' : Node} (array : ArrayId) (place : Nat)
    {body body' : Node}
    (patterns : pattern.Resembles numbers binders pattern')
    (bodies : body.Resembles numbers (⟨label, label', true⟩ :: binders) body') :
    AgreeOnTurns numbers terms context.calls binders
      (eachTurn label pattern array place body scope context)
      (eachTurn label' pattern' array place body' scope context) := by
  refine accords_unlessStopped ?_
  refine (accords_look (fun store => (store.items array)[place]?)
    (fun item => ∀ value ∈ item, value.Carries numbers) fun store other stores =>
      ⟨by rw [stores.items], fun value present =>
        stores.contains.items array value (Array.mem_of_getElem? present)⟩).andThen
    fun item given => ?_
  cases item with
  | none => exact accords_finished
  | some item =>
      refine (accords_openScope carries_empty).andThen fun inner _ => ?_
      refine (accords_defining fit false patterns (given item rfl)).andThen fun _ _ => ?_
      exact accords_turnAfter (accords_evaluate asked bodies) (.each patterns bodies) rfl

end Loops

/-! ## Namespaces and scripts -/

section Scripts

variable {within inner : Option (List Binder)} {mode : Mode} {rule other : Rule Value}

/-- A signal that may not leave a rule becomes an error. -/
theorem accords_expectingValue (unexpected : ∀ signal : Signal, terms.fails signal.unexpected)
    (accords : Accords numbers terms inner (Shared (Value.Carries numbers)) rule other) :
    Accords numbers terms within (Shared (Value.Carries numbers)) (expectingValue rule)
      (expectingValue other) := by
  refine accords.outcome_bind (fun result result' ended => ?_) fun _ => ⟨rfl, rfl⟩
  cases ended with
  | ok given => exact accords_pure given
  | error raised => exact raised.elim
  | @signal signal other signals =>
      have same : other.unexpected = signal.unexpected :=
        congrArg (fun name => Error.of (.internal ("Unexpected " ++ name ++ _))) signals.name
      show Accords numbers terms within _ (fail signal.unexpected) (fail other.unexpected)
      rw [same]
      exact accords_fail (unexpected signal)

variable (fit : terms.Fit numbers (.top mode)) (lenient : ∀ error : Error, terms.fails error)

include lenient

theorem accords_expectingAttributes {rule other : Rule (List Attribute)}
    (accords : Accords numbers terms inner (Shared fun _ => True) rule other) :
    Accords numbers terms within (Shared fun _ => True) (expectingAttributes rule)
      (expectingAttributes other) := by
  refine accords.outcome_bind (fun result result' ended => ?_) fun _ => ⟨rfl, rfl⟩
  cases ended with
  | ok given => exact accords_pure given
  | error raised => exact raised.elim
  | signal signals =>
      dsimp only
      rw [signals.name]
      exact accords_fail (lenient _)

/-- Defining a member, which gives the error a position. -/
theorem accords_definingMember {scope : Scope} {change : Error → Error} {pattern other : Node}
    {value : Value} (patterns : pattern.Resembles numbers binders other)
    (carries : value.Carries numbers) :
    Accords numbers terms within (Shared fun _ => True)
      (mapError change (attempt (perform (.define scope false pattern value))))
      (mapError change (attempt (perform (.define scope false other value)))) := by
  refine Process.Accords.act (.define patterns carries) ?_
  rintro _ reply ⟨rfl, -⟩
  cases reply with
  | ok defined => exact .done (.ok ⟨rfl, trivial⟩)
  | error error => exact .done (.error (lenient _))

include fit

theorem accords_defineMember (outer inner : Scope) (position : Position)
    {target target' literal literal' : Node} (isMutable : Bool)
    {attributes attributes' : List (String × Node)}
    (targets : target.Resembles numbers binders target')
    (literals : literal.Resembles numbers binders literal')
    (each : Node.EntriesResemble numbers binders attributes attributes') :
    Accords numbers terms within (Shared fun _ => True)
      (defineMember outer inner mode position target literal isMutable attributes)
      (defineMember outer inner mode position target' literal' isMutable attributes') := by
  have rest :
      Accords numbers terms within (Shared fun _ => True) (do
          let value ← expectingValue (evaluate literal inner (.top mode))
          let attributes ←
            expectingAttributes (evaluateAttributes outer (.top mode) attributes)
          nameLiteral inner target literal value
          (Rule.attempt (Rule.perform (.define inner false target value))).mapError fun error =>
            error.positioned position
          Rule.attempt (Rule.perform (.decorate inner target value attributes))) (do
          let value ← expectingValue (evaluate literal' inner (.top mode))
          let attributes ←
            expectingAttributes (evaluateAttributes outer (.top mode) attributes')
          nameLiteral inner target' literal' value
          (Rule.attempt (Rule.perform (.define inner false target' value))).mapError fun error =>
            error.positioned position
          Rule.attempt (Rule.perform (.decorate inner target' value attributes))) := by
    refine (accords_expectingValue (fun _ => lenient _)
      (accords_evaluate fit.asked literals)).andThen fun value carries => ?_
    refine (accords_expectingAttributes lenient
      (accords_evaluateAttributes fit.asked each)).andThen fun attributes _ => ?_
    refine (accords_nameLiteral targets literals value).andThen fun _ _ => ?_
    refine (accords_definingMember lenient targets carries).andThen fun _ _ => ?_
    exact accords_decorating fit targets value attributes
  obtain ⟨shapes⟩ := targets
  unfold defineMember
  cases shapes with
  | identifier name =>
      cases isMutable with
      | true =>
          exact accords_fail_bind (lenient _)
      | false => exact rest
  | _ => exact accords_fail (lenient _)

theorem accords_defineMembers (outer inner : Scope) {members members' : List Node}
    (each : Node.Resemble numbers binders members members') :
    Accords numbers terms within (Shared fun _ => True) (defineMembers outer inner mode members)
      (defineMembers outer inner mode members') := by
  induction members generalizing members' with
  | nil =>
      cases each
      exact accords_same trivial
  | cons member rest inductive_step =>
      cases each with
      | cons first others =>
          have further := inductive_step others
          obtain ⟨shapes⟩ := first
          cases shapes with
          | definition targets values each =>
              exact (accords_defineMember fit lenient outer inner _ _ targets values each).andThen
                fun _ _ => further
          | namespaceBlock each => exact further
          | _ =>
              exact accords_fail_bind (lenient _)

omit fit lenient in
mutual

theorem accords_collectNode (fit : terms.Fit numbers (.top mode))
    (lenient : ∀ error : Error, terms.fails error) (scope : Scope) :
    ∀ (node other : Node) {binders : List Binder}, node.Resembles numbers binders other →
      Accords numbers terms within (Shared fun _ => True) (collectNode mode scope node)
        (collectNode mode scope other)
  | .mk shape span, .mk shape' span', _, nodes => by
      cases nodes with
      | mk shapes =>
          cases shapes with
          | @namespaceBlock _ name members members' each =>
              refine (accords_acting (.newLayer .empty) carries_empty
                fun _ _ => id).andThen fun layer _ => ?_
              refine (accords_collect fit lenient (.member layer name scope) members _
                each).andThen fun _ _ => ?_
              exact accords_defineMembers fit lenient scope (.member layer name scope) each
          | _ => exact accords_same trivial

theorem accords_collect (fit : terms.Fit numbers (.top mode))
    (lenient : ∀ error : Error, terms.fails error) (scope : Scope) :
    ∀ (nodes others : List Node) {binders : List Binder},
      Node.Resemble numbers binders nodes others →
        Accords numbers terms within (Shared fun _ => True) (collect mode scope nodes)
          (collect mode scope others)
  | [], _, _, each => by
      cases each
      exact accords_same trivial
  | node :: rest, _, _, each => by
      cases each with
      | cons first others =>
          exact (accords_collectNode fit lenient scope node _ first).andThen fun _ _ =>
            accords_collect fit lenient scope rest _ others

end

omit fit lenient in
/-- Scripts that are the same but for labels are in accord, if their namespaces are. -/
theorem accords_runScript {root : Scope} {script script' : List Node}
    (asked : terms.asks []) (unexpected : ∀ signal : Signal, terms.fails signal.unexpected)
    (collected : Accords numbers terms within (Shared fun _ => True) (collect mode root script)
      (collect mode root script'))
    (each : Node.Resemble numbers [] script script') :
    Accords numbers terms within (Shared (Value.Carries numbers)) (runScript root script mode)
      (runScript root script' mode) := by
  refine collected.andThen fun _ _ => ?_
  refine (accords_expectingValue unexpected (accords_runAll asked each)).andThen
    fun value carries => ?_
  exact (accords_acting (.log _ _ _) trivial fun _ _ => id).andThen fun _ _ =>
    accords_same carries

end Scripts

end Evaluation

end TreeScript
