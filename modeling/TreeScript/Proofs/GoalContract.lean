import TreeScript.Evaluation.Namespace
import TreeScript.Proofs.NativeContract

/-!
# Contracts of goals

The process of every goal meets the contract of the goal, and that of a
well-scoped script ends without a signal.  Loops take the signals that are
their own; the members of a namespace and the script itself are outside of all
constructs, so that no signal comes out of them.
-/

namespace TreeScript

/-- A turn that ends as its goal may, or goes on with a goal that may be asked for as well. -/
def Turn.Fits (enclosure : Enclosure) (count : Nat) : Turn → Prop
  | .answer outcome => EndsWithin enclosure Value.IsKnown count outcome
  | .again goal => goal.Fits enclosure count

namespace Evaluation

open Rule

variable {enclosure : Enclosure} {count : Nat} {context : Context}

/-! ## Loops -/

/-- What a loop does not take has something else around it to leave. -/
theorem leaves_ofOutcome {label : Option String} {outcome : Outcome}
    (ends : EndsWithin (enclosure.loop label) Value.IsKnown count outcome)
    {interrupt : Interrupt}
    (propagates : Iteration.ofOutcome label outcome = .propagate interrupt) :
    interrupt.Leaves enclosure count := by
  rcases outcome with (signal | error) | value
  · cases signal with
    | returning value =>
        cases propagates
        exact ends
    | breaking target value =>
        change (if Iteration.isOwn label target then _ else _) = _ at propagates
        split at propagates
        · cases propagates
        · rename_i notOwn
          cases propagates
          exact ⟨Enclosure.admitsBreak_of_loop ends.1 (Bool.not_eq_true _ ▸ notOwn), ends.2⟩
    | continuing target =>
        change (if Iteration.isOwn label target then _ else _) = _ at propagates
        split at propagates
        · cases propagates
        · rename_i notOwn
          cases propagates
          exact ⟨Enclosure.admitsContinue_of_loop ends.1 (Bool.not_eq_true _ ▸ notOwn), ends.2⟩
  · cases propagates
    exact ends
  · cases propagates

theorem meets_turnAfter {label : Option String} {body : Rule Value}
    (meets : body.Meets (enclosure.loop label) Value.IsKnown count)
    {rest : Goal} (fits : ∀ more, rest.Fits enclosure more) :
    (turnAfter label rest body).Meets enclosure (Turn.Fits enclosure) count := by
  refine meets.outcome_bind ?_
  intro more _ outcome ends
  split
  · exact meets_pure (fits more)
  · exact meets_pure trivial
  · rename_i interrupt propagates
    exact meets_throw (leaves_ofOutcome ends propagates)

theorem meets_loopTurn {label : Option String} {statements : List Node}
    (wellScoped : Node.areWellScoped statements (enclosure.loop label)) (scope : Scope) :
    (loopTurn label statements scope context).Meets enclosure (Turn.Fits enclosure) count := by
  refine (meets_perform .isStopped trivial).bind ?_
  intro _ _ stopped _
  split
  · exact meets_pure trivial
  · exact (meets_openScope_empty scope).bind fun _ _ inner _ =>
      meets_turnAfter (meets_runAll wellScoped inner) fun _ => wellScoped

theorem meets_timesTurn {label : Option String} {body : Node}
    (wellScoped : body.isWellScoped (enclosure.loop label)) (start limit : Float)
    (scope : Scope) :
    (timesTurn label start limit body scope context).Meets enclosure
      (Turn.Fits enclosure) count := by
  unfold timesTurn
  split
  · exact meets_pure trivial
  · refine (meets_perform .isStopped trivial).bind ?_
    intro _ _ stopped _
    split
    · exact meets_pure trivial
    · exact meets_turnAfter (meets_evaluateClause wellScoped scope) fun _ => wellScoped

theorem meets_rangeTurn {label : Option String} {body : Node}
    (wellScoped : body.isWellScoped (enclosure.loop label)) (counter : String)
    (start limit : Float) (scope : Scope) :
    (rangeTurn label counter start limit body scope context).Meets enclosure
      (Turn.Fits enclosure) count := by
  unfold rangeTurn
  split
  · exact meets_pure trivial
  · refine (meets_perform .isStopped trivial).bind ?_
    intro more _ stopped _
    split
    · exact meets_pure trivial
    · refine (meets_openScope scope ?_).bind ?_
      · intro name bound found
        rcases Dict.eq_or_find?_of_insert found with rfl | found
        · trivial
        · exact (Dict.find?_empty_ne_some name bound found).elim
      · intro _ _ inner _
        exact meets_turnAfter (meets_evaluateClause wellScoped inner) fun _ => wellScoped

theorem meets_eachTurn {label : Option String} {body : Node}
    (wellScoped : body.isWellScoped (enclosure.loop label)) (pattern : Node) (array : ArrayId)
    (place : Nat) (scope : Scope) :
    (eachTurn label pattern array place body scope context).Meets enclosure
      (Turn.Fits enclosure) count := by
  have seen {count : Nat} : (look fun store => (store.items array)[place]?).Meets enclosure
      (fun more item => ∀ value ∈ item, value.IsKnown more) count :=
    meets_look fun _ _ _ sound value mem => sound.items array value (Array.mem_of_getElem? mem)
  refine (meets_perform .isStopped trivial).bind ?_
  intro _ _ stopped _
  split
  · exact meets_pure trivial
  · refine seen.bind ?_
    intro _ _ item known
    cases item with
    | none => exact meets_pure trivial
    | some item =>
        refine (meets_openScope_empty scope).bind ?_
        intro _ grows inner _
        have itemKnown := (known item rfl).mono grows
        refine (meets_perform (.define inner false pattern item) itemKnown).attempt.bind ?_
        intro _ _ _ _
        exact meets_turnAfter (meets_evaluate wellScoped inner) fun _ => wellScoped

/-! ## Namespaces and scripts -/

/-- No signal comes out of what is outside of all constructs. -/
theorem not_endsWithin_script {α : Type} {holds : Nat → α → Prop} {signal : Signal}
    (ends : EndsWithin .script holds count (.error (.signal signal))) :
    False := by
  have admitted := ends.1
  rw [Enclosure.not_admits_script] at admitted
  cases admitted

theorem meets_expectingValue {rule : Rule Value}
    (meets : rule.Meets .script Value.IsKnown count) :
    (expectingValue rule).Meets enclosure Value.IsKnown count := by
  refine meets.outcome_bind ?_
  intro _ _ outcome ends
  rcases outcome with (signal | error) | value
  · exact (not_endsWithin_script ends).elim
  · exact meets_fail ends
  · exact meets_pure ends

theorem meets_expectingAttributes {rule : Rule (List Attribute)}
    (meets : rule.Meets .script (fun _ _ => True) count) :
    (expectingAttributes rule).Meets enclosure (fun _ _ => True) count := by
  refine meets.outcome_bind ?_
  intro _ _ outcome ends
  rcases outcome with (signal | error) | attributes
  · exact (not_endsWithin_script ends).elim
  · exact meets_fail ends
  · exact meets_pure trivial

theorem meets_refuseMember (position : Position) (message : String) :
    (refuseMember position message : Rule Unit).Meets enclosure (fun _ _ => True) count :=
  meets_fail trivial

theorem meets_defineMember (outer inner : Scope) (mode : Mode) (position : Position)
    (target : Node) {literal : Node} (wellScoped : literal.isWellScoped .script)
    (isMutable : Bool) {attributes : List (String × Node)}
    (attributesScoped : Node.entriesAreWellScoped attributes .script) :
    (defineMember outer inner mode position target literal isMutable attributes).Meets enclosure
      (fun _ _ => True) count := by
  unfold defineMember
  split
  · cases isMutable with
    | true => exact meets_fail trivial
    | false =>
        refine (meets_expectingValue (meets_evaluate wellScoped inner)).bind ?_
        intro _ _ value known
        refine (meets_expectingAttributes (meets_evaluateAttributes attributesScoped outer)).bind ?_
        intro _ grows attributes _
        refine (meets_nameLiteral inner target literal value).bind ?_
        intro _ grows' _ _
        have stillKnown := known.mono (Nat.le_trans grows grows')
        have keepsCause (error : Error) : (error.positioned position).cause = error.cause := rfl
        refine ((meets_perform (.define inner false target value) stillKnown).attempt.mapError
          keepsCause).bind fun _ _ _ _ => ?_
        exact (meets_perform (.decorate inner target value attributes) trivial).attempt
  · exact meets_fail trivial

theorem meets_defineMembers (outer inner : Scope) (mode : Mode) {members : List Node}
    (wellScoped : Node.areWellScoped members .script) :
    (defineMembers outer inner mode members).Meets enclosure (fun _ _ => True) count := by
  induction members generalizing count with
  | nil => exact meets_pure trivial
  | cons member rest inductive_step =>
      rcases Bool.and_eq_true_iff.mp wellScoped with ⟨first, others⟩
      rcases member with ⟨shape, span⟩
      cases shape with
      | definition target literal isMutable attributes =>
          rcases Bool.and_eq_true_iff.mp first with ⟨literalScoped, attributesScoped⟩
          exact (meets_defineMember outer inner mode _ target literalScoped isMutable
            attributesScoped).bind fun _ _ _ _ => inductive_step others
      | namespaceBlock name members => exact inductive_step others
      | _ => exact (meets_refuseMember _ _).bind fun _ _ _ _ => inductive_step others

mutual

theorem meets_collectNode (mode : Mode) (scope : Scope) :
    ∀ {node : Node} {count : Nat}, node.isWellScoped .script →
      (collectNode mode scope node).Meets enclosure (fun _ _ => True) count
  | .mk shape span, _, wellScoped => by
      cases shape with
      | namespaceBlock name members =>
          refine (meets_perform (.newLayer .empty) ?_).bind ?_
          · exact fun name bound found => (Dict.find?_empty_ne_some name bound found).elim
          · intro _ _ layer _
            exact (meets_collect mode (.member layer name scope) wellScoped).bind fun _ _ _ _ =>
              meets_defineMembers scope (.member layer name scope) mode wellScoped
      | _ => exact meets_pure trivial

theorem meets_collect (mode : Mode) (scope : Scope) :
    ∀ {nodes : List Node} {count : Nat}, Node.areWellScoped nodes .script →
      (collect mode scope nodes).Meets enclosure (fun _ _ => True) count
  | [], _, _ => meets_pure trivial
  | _ :: _, _, wellScoped =>
      (meets_collectNode mode scope (Bool.and_eq_true_iff.mp wellScoped).1).bind fun _ _ _ _ =>
        meets_collect mode scope (Bool.and_eq_true_iff.mp wellScoped).2

end

/-- A script that is well-scoped ends without a signal. -/
theorem meets_runScript (root : Scope) {script : List Node}
    (wellScoped : Node.areWellScoped script .script) (mode : Mode) :
    (runScript root script mode).Meets .script Value.IsKnown count := by
  refine (meets_collect mode root wellScoped).bind ?_
  intro _ _ _ _
  refine (meets_expectingValue (meets_runAll wellScoped root)).bind ?_
  intro _ _ value known
  exact (meets_perform (.log "end" none (some value)) trivial).bind fun _ grows _ _ =>
    meets_pure (known.mono grows)

/-! ## Goals -/

theorem meets_yieldNow (sleep : Sleep) :
    (yieldNow sleep).Meets enclosure (fun _ _ => True) count := by
  cases sleep with
  | timed duration => exact meets_wait .nextPoll
  | custom suspends =>
      refine (meets_perform .yielded trivial).bind ?_
      intro _ _ _ _
      split
      · exact meets_wait .nextPoll
      · exact meets_pure trivial

theorem meets_gate (irq : Irq) : (gate irq).Meets enclosure (fun _ _ => True) count := by
  have rest {count : Nat} :
      (do
        if irq.isDue (← Rule.perform .steps) then
          yieldNow irq.sleep : Rule Unit).Meets enclosure (fun _ _ => True) count := by
    refine (meets_perform .steps trivial).bind ?_
    intro _ _ steps _
    split
    · exact meets_yieldNow irq.sleep
    · exact meets_pure trivial
  refine (meets_perform .pause trivial).bind ?_
  intro _ _ pause _
  cases pause with
  | none => exact rest
  | some pause => exact (meets_wait (.resumed pause)).bind fun _ _ _ _ => rest

/-- A node that is well-scoped meets its contract. -/
theorem meets_evaluateNode (options : Options) {node : Node}
    (wellScoped : node.isWellScoped enclosure) (scope : Scope) :
    (evaluateNode options node scope context).Meets enclosure Value.IsKnown count := by
  have ticked {count : Nat} :
      (do
        if ← Rule.perform .tick then
          construct scope context node.start node.shape
        else Rule.fail (.of .stepLimit)).Meets enclosure Value.IsKnown count := by
    refine (meets_perform .tick trivial).bind ?_
    intro _ _ within _
    split
    · exact meets_construct (by cases node; exact wellScoped) scope node.start
    · exact meets_fail trivial
  have entered : (enterNode options node scope context).Meets enclosure Value.IsKnown count := by
    refine (meets_perform .isStopped trivial).bind ?_
    intro _ _ stopped _
    split
    · exact meets_pure trivial
    · rcases context with ⟨calls, mode⟩
      cases mode with
      | asynchronous => exact (meets_gate options.irq).bind fun _ _ _ _ => ticked
      | synchronous => exact ticked
  exact entered.mapError fun error => error.cause_locate node.start context.calls

theorem meets_answering {rule : Rule Value} (meets : rule.Meets enclosure Value.IsKnown count) :
    (answering rule).Meets enclosure (Turn.Fits enclosure) count :=
  Meets.bind meets fun _ _ _ known => meets_pure known

theorem meets_process {rule : Rule Turn}
    (meets : rule.Meets enclosure (Turn.Fits enclosure) count) :
    (process rule).Meets (Turn.Fits enclosure) count := by
  refine Process.Meets.bind meets fun _ _ result ends => .done ?_
  rcases result with interrupt | turn
  · exact ends
  · exact ends

/-- The process of a goal meets the contract of the goal. -/
theorem meets_ofGoal (options : Options) (host : Host) {goal : Goal}
    (fits : goal.Fits enclosure count) :
    (ofGoal options host goal).Meets (Turn.Fits enclosure) count := by
  refine meets_process ?_
  cases goal with
  | evaluate node scope context => exact meets_answering (meets_evaluateNode options fits scope)
  | loop label statements scope context => exact meets_loopTurn fits scope
  | times label start limit body scope context => exact meets_timesTurn fits start limit scope
  | range label counter start limit body scope context =>
      exact meets_rangeTurn fits counter start limit scope
  | each label pattern array place body scope context =>
      exact meets_eachTurn fits pattern array place scope
  | apply function arguments context site =>
      exact meets_answering (meets_apply options host fits.1 fits.2 site)
  | enter callee arguments mode => exact fits.elim

end Evaluation

end TreeScript
