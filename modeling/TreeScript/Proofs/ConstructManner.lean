import TreeScript.Proofs.ClosedConstructs

/-!
# The manner of constructs

To mind a plain manner is a property that the operations of rules keep.  So the rules of
constructs and scripts mind every plain manner: they perform quiet actions, and ask for
nothing but goals in the context that they are evaluated in.  A turn of a loop does so
too, and the goal that it goes on with is one that the manner allows to ask for.
-/

namespace TreeScript

open Rule

/-- A turn that is over, or goes on with a goal that a manner allows to ask for. -/
def Turn.Minds (manner : Manner) : Turn → Prop
  | .answer _ => True
  | .again goal => manner.calls goal

variable {manner : Manner}

/-- Rules that mind a manner may follow each other. -/
theorem sequential_minds : Rule.Sequential fun _ rule => rule.Minds manner where
  pure _ := uses_pure trivial
  throw interrupt := uses_throw interrupt
  bind first goesOn := Uses.bind first fun result _ => goesOn result
  outcome first goesOn _ := first.outcome_bind goesOn

/-- Rules that mind a plain manner are written with each other. -/
theorem Manner.Plain.compositional {mode : Mode} (plain : manner.Plain mode) :
    Rule.Compositional mode fun _ rule => rule.Minds manner :=
  sequential_minds.compositional (fun action quiet _ => minds_perform (plain.acts action quiet))
    (fun runs => minds_call (plain.calls _ runs))
    fun atOnce runs => minds_drive (plain.drives atOnce _ runs)

theorem Manner.Plain.closed {mode : Mode} (plain : manner.Plain mode) :
    Rule.Closed mode fun _ rule => rule.Minds manner :=
  plain.compositional.closed fun _ _ _ => minds_perform (plain.acts (.log _ _ _) trivial)

namespace Evaluation

section Constructs

variable {context : Context} {scope : Scope} (plain : manner.Plain context.mode)

include plain

/-- The nodes that give a signal mind every plain manner, too. -/
theorem minds_signal (start : Position) {shape : Shape} (signals : shape.isSignal = true) :
    (construct scope context start shape).Minds manner :=
  compositional_signal plain.compositional
    (fun _ _ _ => minds_perform (plain.acts (.log _ _ _) trivial)) rfl scope start signals

/-- So do definitions, since a plain manner allows names to be given. -/
theorem minds_definition (start : Position) {shape : Shape}
    (isDefinition : shape.isDefinition = true) :
    (construct scope context start shape).Minds manner :=
  closed_definition plain.closed
    (fun _ _ => minds_perform (plain.acts (.nameFunction _ _) trivial)) start isDefinition

/-- A construct minds every plain manner. -/
theorem minds_construct (start : Position) (shape : Shape) :
    (construct scope context start shape).Minds manner :=
  closed_construct plain.closed start shape (minds_definition plain start)
    (minds_signal plain start)

/-! ## Loops -/

theorem uses_turnAfter {body : Rule Value} (minds : body.Minds manner) (label : Option String)
    {rest : Goal} (runs : rest.RunsIn context.mode) :
    (turnAfter label rest body).Uses manner (Turn.Minds manner) := by
  refine minds.outcome_bind fun outcome => ?_
  split
  · exact uses_pure (plain.calls rest runs)
  · exact uses_pure trivial
  · exact uses_throw _

/-- A loop asks whether evaluation is stopped before each turn. -/
theorem uses_unlessStopped {turn : Rule Turn} (uses : turn.Uses manner (Turn.Minds manner)) :
    (do
      if ← perform .isStopped then return finished
      turn).Uses manner (Turn.Minds manner) := by
  refine (minds_perform (plain.acts .isStopped trivial)).bind fun stopped _ => ?_
  cases stopped with
  | true => exact uses_pure trivial
  | false => exact uses

theorem uses_loopTurn (label : Option String) (statements : List Node) :
    (loopTurn label statements scope context).Uses manner (Turn.Minds manner) := by
  refine uses_unlessStopped plain ?_
  refine Uses.bind (closed_openScope plain.closed .empty) fun inner _ => ?_
  exact uses_turnAfter plain (closed_runAll plain.closed statements) label rfl

theorem uses_timesTurn (label : Option String) (start limit : Float) (body : Node) :
    (timesTurn label start limit body scope context).Uses manner (Turn.Minds manner) := by
  unfold timesTurn
  split
  · exact uses_pure trivial
  · refine uses_unlessStopped plain ?_
    exact uses_turnAfter plain (closed_evaluateClause plain.closed body) label rfl

theorem uses_rangeTurn (label : Option String) (counter : String) (start limit : Float)
    (body : Node) :
    (rangeTurn label counter start limit body scope context).Uses manner (Turn.Minds manner) := by
  unfold rangeTurn
  split
  · exact uses_pure trivial
  · refine uses_unlessStopped plain ?_
    refine Uses.bind (closed_openScope plain.closed _) fun inner _ => ?_
    exact uses_turnAfter plain (closed_evaluateClause plain.closed body) label rfl

theorem uses_eachTurn (label : Option String) (pattern : Node) (array : ArrayId) (place : Nat)
    (body : Node) :
    (eachTurn label pattern array place body scope context).Uses manner (Turn.Minds manner) := by
  refine uses_unlessStopped plain ?_
  refine Uses.bind (closed_look plain.closed _) fun item _ => ?_
  cases item with
  | none => exact uses_pure trivial
  | some item =>
      refine Uses.bind (closed_openScope plain.closed .empty) fun inner _ => ?_
      refine Uses.bind (closed_defining plain.closed false pattern item) fun _ _ => ?_
      exact uses_turnAfter plain (closed_evaluate plain.closed body) label rfl

end Constructs

/-! ## Scripts -/

/-- A script minds every plain manner. -/
theorem minds_runScript {mode : Mode} (plain : manner.Plain mode) (root : Scope)
    (script : List Node) :
    (runScript root script mode).Minds manner :=
  closed_runScript plain.closed
    (fun _ _ => minds_perform (plain.acts (.nameFunction _ _) trivial)) root script

end Evaluation

end TreeScript
