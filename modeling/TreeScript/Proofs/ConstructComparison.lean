import TreeScript.Evaluation.Loop
import TreeScript.Evaluation.Namespace
import TreeScript.Proofs.Comparison

/-!
# Comparing the rules of constructs

The rules of constructs, loops and namespaces pass the context on without
looking into it.  So each follows itself from any context to any other, as long
as the same goals correspond in both, which is `Comparison.Contexts`.  Most
rules have nothing but nodes evaluated, so that `Comparison.Evaluates` is enough
for them.  All that holds of the evaluation of nodes, whatever the construct, is
in this way reduced to what holds of goals.
-/

namespace TreeScript

/-- The same goal in two contexts. -/
inductive Goal.Alike (context other : Context) : Goal → Goal → Prop where
  | evaluate (node : Node) (scope : Scope) :
      Alike context other (.evaluate node scope context) (.evaluate node scope other)
  | loop (label : Option String) (statements : List Node) (scope : Scope) :
      Alike context other (.loop label statements scope context)
        (.loop label statements scope other)
  | times (label : Option String) (count limit : Float) (body : Node) (scope : Scope) :
      Alike context other (.times label count limit body scope context)
        (.times label count limit body scope other)
  | range (label : Option String) (counter : String) (count limit : Float) (body : Node)
      (scope : Scope) :
      Alike context other (.range label counter count limit body scope context)
        (.range label counter count limit body scope other)
  | each (label : Option String) (pattern : Node) (array : ArrayId) (place : Nat) (body : Node)
      (scope : Scope) :
      Alike context other (.each label pattern array place body scope context)
        (.each label pattern array place body scope other)
  | apply (function : FunctionId) (arguments : List Value) (site : Option Position) :
      Alike context other (.apply function arguments context site)
        (.apply function arguments other site)

namespace Comparison

/-- Two contexts in which the evaluation of a node corresponds to that of the same node. -/
def Evaluates (comparison : Comparison) (context other : Context) : Prop :=
  ∀ (node : Node) (scope : Scope),
    comparison.goal (.evaluate node scope context) (.evaluate node scope other)

/-- Two contexts in which the same goals correspond to each other. -/
def Contexts (comparison : Comparison) (context other : Context) : Prop :=
  ∀ ⦃goal goal' : Goal⦄, Goal.Alike context other goal goal' → comparison.goal goal goal'

theorem Contexts.evaluates {comparison : Comparison} {context other : Context}
    (contexts : comparison.Contexts context other) :
    comparison.Evaluates context other :=
  fun node scope => contexts (.evaluate node scope)

end Comparison

namespace Evaluation

open Rule

section Constructs

variable {comparison : Comparison} {context other : Context}
variable (evaluates : comparison.Evaluates context other)

include evaluates

/-! ## Nodes in sequence -/

theorem follows_evaluate (node : Node) (scope : Scope) :
    Follows comparison Eq (evaluate node scope context) (evaluate node scope other) :=
  follows_call (evaluates node scope)

theorem follows_evaluateBool (node : Node) (scope : Scope) :
    Follows comparison Eq (evaluateBool node scope context) (evaluateBool node scope other) :=
  (follows_evaluate evaluates node scope).andThen fun value => follows_ofExcept value.asBool

theorem follows_evaluateNum (node : Node) (scope : Scope) :
    Follows comparison Eq (evaluateNum node scope context) (evaluateNum node scope other) :=
  (follows_evaluate evaluates node scope).andThen fun value => follows_ofExcept value.asNum

theorem follows_evaluateAll (scope : Scope) (nodes : List Node) :
    Follows comparison Eq (evaluateAll scope context nodes) (evaluateAll scope other nodes) :=
  follows_traverse (fun node => follows_evaluate evaluates node scope) nodes

theorem follows_evaluateEntries (scope : Scope) (entries : List (String × Node)) :
    Follows comparison Eq (evaluateEntries scope context entries)
      (evaluateEntries scope other entries) :=
  follows_traverse
    (fun entry => (follows_evaluate evaluates entry.2 scope).andThen fun _ => follows_pure rfl)
    entries

theorem follows_evaluateAttributes (scope : Scope) (attributes : List (String × Node)) :
    Follows comparison Eq (evaluateAttributes scope context attributes)
      (evaluateAttributes scope other attributes) :=
  (follows_evaluateEntries evaluates scope attributes).andThen fun _ => follows_pure rfl

omit evaluates in
theorem follows_openScope (scope : Scope) (bindings : Dict Variable) :
    Follows comparison Eq (openScope scope bindings) (openScope scope bindings) :=
  (follows_act (.newLayer bindings) trivial).andThen fun _ => follows_pure rfl

omit evaluates in
theorem follows_logBlock (event : String) (scope : Scope) (value : Option Value) :
    Follows comparison Eq (logBlock event scope value) (logBlock event scope value) :=
  follows_act (.log ("block:" ++ event) (some scope.name) value) trivial

theorem follows_runFrom (scope : Scope) (last : Value) (statements : List Node) :
    Follows comparison Eq (runFrom scope context last statements)
      (runFrom scope other last statements) := by
  induction statements generalizing last with
  | nil =>
      exact (follows_logBlock "leave" scope (some last)).andThen fun _ => follows_pure rfl
  | cons statement rest inductive_step =>
      refine (follows_evaluate evaluates statement scope).outcome_bind ?_ ?_
      · rintro ((signal | error) | value)
        · exact (follows_logBlock signal.name scope signal.carried).andThen fun _ =>
            follows_throw Eq _
        · exact follows_throw Eq _
        · exact inductive_step value
      · exact fun error given => ⟨error, given, rfl⟩

theorem follows_runAll (scope : Scope) (statements : List Node) :
    Follows comparison Eq (runAll scope context statements) (runAll scope other statements) :=
  (follows_logBlock "enter" scope none).andThen fun _ =>
    follows_runFrom evaluates scope .null statements

theorem follows_evaluateClause (node : Node) (scope : Scope) :
    Follows comparison Eq (evaluateClause node scope context)
      (evaluateClause node scope other) := by
  unfold evaluateClause
  split
  · exact (follows_openScope scope .empty).andThen fun inner =>
      follows_evaluate evaluates node inner
  · exact follows_evaluate evaluates node scope

omit evaluates in
theorem follows_takingBreaks (label : Option String) {rule rule' : Rule Value}
    (follows : Follows comparison Eq rule rule') :
    Follows comparison Eq (takingBreaks label rule) (takingBreaks label rule') := by
  refine follows.outcome_bind ?_ ?_
  · exact fun result => .done (same_eq_iff.mpr rfl)
  · exact fun error given => ⟨error, given, rfl⟩

/-! ## Choices -/

/-- The clause that is left when no other was chosen. -/
theorem follows_otherwise (label : Option String) (otherwise : Option Node) (scope : Scope) :
    Follows comparison Eq
      (match otherwise with
        | some clause => takingBreaks label (evaluateClause clause scope context)
        | none => return .null)
      (match otherwise with
        | some clause => takingBreaks label (evaluateClause clause scope other)
        | none => return .null) := by
  cases otherwise with
  | some clause => exact follows_takingBreaks label (follows_evaluateClause evaluates clause scope)
  | none => exact follows_pure rfl

theorem follows_chooseBranch (label : Option String) (otherwise : Option Node) (scope : Scope)
    (branches : List (Node × Node)) :
    Follows comparison Eq (chooseBranch label otherwise scope context branches)
      (chooseBranch label otherwise scope other branches) := by
  induction branches with
  | nil => exact follows_otherwise evaluates label otherwise scope
  | cons branch rest inductive_step =>
      refine (follows_evaluateBool evaluates branch.1 scope).andThen ?_
      intro chosen
      cases chosen with
      | true =>
          exact follows_takingBreaks label (follows_evaluateClause evaluates branch.2 scope)
      | false => exact inductive_step

theorem follows_chooseCase (label : Option String) (subject : Value) (otherwise : Option Node)
    (scope : Scope) (cases : List (Node × Node)) :
    Follows comparison Eq (chooseCase label subject otherwise scope context cases)
      (chooseCase label subject otherwise scope other cases) := by
  induction cases with
  | nil => exact follows_otherwise evaluates label otherwise scope
  | cons candidate rest inductive_step =>
      refine (follows_evaluate evaluates candidate.1 scope).andThen ?_
      intro value
      refine (follows_look _).andThen ?_
      intro chosen
      cases chosen with
      | true =>
          exact follows_takingBreaks label (follows_evaluateClause evaluates candidate.2 scope)
      | false => exact inductive_step

/-! ## Definitions and assignments -/

omit evaluates in
theorem follows_nameLiteral (scope : Scope) (target literal : Node) (value : Value) :
    Follows comparison Eq (nameLiteral scope target literal value)
      (nameLiteral scope target literal value) := by
  unfold nameLiteral
  split
  · exact follows_act (.nameFunction _ _) trivial
  · exact follows_pure rfl

theorem follows_define (target literal : Node) (isMutable : Bool)
    (attributes : List (String × Node)) (scope : Scope) :
    Follows comparison Eq (define target literal isMutable attributes scope context)
      (define target literal isMutable attributes scope other) := by
  refine (follows_evaluate evaluates literal scope).andThen ?_
  intro value
  refine (follows_evaluateAttributes evaluates scope attributes).andThen ?_
  intro attributes
  refine (follows_nameLiteral scope target literal value).andThen ?_
  intro _
  refine (follows_act (.define scope isMutable target value) trivial).attempt.andThen ?_
  intro _
  exact (follows_act (.decorate scope target value attributes) trivial).attempt.andThen fun _ =>
    follows_pure rfl

end Constructs

section Targets

variable {comparison : Comparison} {context other : Context}

mutual

theorem follows_locate (evaluates : comparison.Evaluates context other) (scope : Scope) :
    ∀ target, Follows comparison Eq (locate scope context target) (locate scope other target)
  | .mk shape span => by
      cases shape with
      | identifier name => exact follows_pure rfl
      | index target place =>
          refine (follows_evaluate evaluates target scope).andThen ?_
          intro target
          refine (follows_evaluate evaluates place scope).andThen ?_
          intro place
          split
          · exact follows_pure rfl
          · exact follows_pure rfl
          · exact (follows_look _).andThen fun _ => follows_fail Eq _
      | prop target name =>
          refine (follows_evaluate evaluates target scope).andThen ?_
          intro target
          exact (follows_ofExcept target.asObj).andThen fun _ => follows_pure rfl
      | arr targets =>
          exact (follows_locateItems evaluates scope [] targets).andThen fun _ => follows_pure rfl
      | obj targets =>
          exact (follows_locateEntries evaluates scope [] targets).andThen fun _ => follows_pure rfl
      | _ => exact follows_fail Eq _

theorem follows_locateItems (evaluates : comparison.Evaluates context other) (scope : Scope)
    (earlier : List Location) :
    ∀ targets, Follows comparison Eq (locateItems scope context earlier targets)
      (locateItems scope other earlier targets)
  | [] => follows_pure rfl
  | target :: rest =>
      (follows_locate evaluates scope target).andThen fun location =>
        follows_locateItems evaluates scope (location :: earlier) rest

theorem follows_locateEntries (evaluates : comparison.Evaluates context other) (scope : Scope)
    (earlier : List (String × Location)) :
    ∀ targets, Follows comparison Eq (locateEntries scope context earlier targets)
      (locateEntries scope other earlier targets)
  | [] => follows_pure rfl
  | (name, target) :: rest =>
      (follows_locate evaluates scope target).andThen fun location =>
        follows_locateEntries evaluates scope ((name, location) :: earlier) rest

end

end Targets

section Constructs

variable {comparison : Comparison} {context other : Context}
variable (evaluates : comparison.Evaluates context other)

include evaluates

theorem follows_assign (target source : Node) (scope : Scope) :
    Follows comparison Eq (assign target source scope context)
      (assign target source scope other) := by
  refine (follows_locate evaluates scope target).andThen ?_
  intro location
  refine (follows_evaluate evaluates source scope).andThen ?_
  intro value
  exact (follows_act (.write location value) trivial).attempt.andThen fun _ => follows_pure rfl

theorem follows_compound (operator : CompoundOperator) (target source : Node) (scope : Scope) :
    Follows comparison Eq (compound operator target source scope context)
      (compound operator target source scope other) := by
  refine (follows_locate evaluates scope target).andThen ?_
  intro location
  refine (follows_evaluateNum evaluates source scope).andThen ?_
  intro change
  refine (follows_act (.read location) trivial).attempt.andThen ?_
  intro current
  refine (follows_ofExcept current.asNum).andThen ?_
  intro current
  exact (follows_act (.write location _) trivial).attempt.andThen fun _ => follows_pure rfl

/-! ## Expressions -/

theorem follows_fillTemplate (scope : Scope) (parts : List Part) :
    Follows comparison Eq (fillTemplate scope context parts)
      (fillTemplate scope other parts) := by
  refine (follows_traverse (fun part => ?_) parts).andThen fun _ => follows_pure rfl
  cases part with
  | text content => exact follows_pure rfl
  | expression node =>
      exact (follows_evaluate evaluates node scope).andThen fun _ => follows_look _

theorem follows_fallbacks (scope : Scope) (parameters : List Parameter) :
    Follows comparison Eq (fallbacks scope context parameters)
      (fallbacks scope other parameters) := by
  refine follows_traverse (fun parameter => ?_) parameters
  rcases parameter with ⟨target, isOptional, _ | node⟩
  · exact follows_pure rfl
  · exact (follows_evaluate evaluates node scope).andThen fun _ => follows_pure rfl

theorem follows_logical (operator : LogicalOperator) (left right : Node) (scope : Scope) :
    Follows comparison Eq (logical operator left right scope context)
      (logical operator left right scope other) := by
  refine (follows_evaluateBool evaluates left scope).andThen ?_
  intro first
  split
  · exact follows_pure rfl
  · exact follows_pure rfl
  · exact (follows_evaluateBool evaluates right scope).andThen fun _ => follows_pure rfl

omit evaluates in
theorem follows_binary (contexts : comparison.Contexts context other)
    (operator : BinaryOperator) (left right : Node) (scope : Scope) :
    Follows comparison Eq (binary operator left right scope context)
      (binary operator left right scope other) := by
  refine (follows_act (.readName scope _) trivial).attempt.andThen ?_
  intro callee
  refine (follows_ofExcept callee.asFn).andThen ?_
  intro function
  refine (follows_evaluate contexts.evaluates left scope).andThen ?_
  intro first
  refine (follows_evaluate contexts.evaluates right scope).andThen ?_
  intro second
  exact follows_call (contexts (.apply function [first, second] none))

omit evaluates in
theorem follows_eachLoop (contexts : comparison.Contexts context other)
    (label : Option String) (pattern items body : Node) (scope : Scope) :
    Follows comparison Eq (eachLoop label pattern items body scope context)
      (eachLoop label pattern items body scope other) := by
  refine (follows_evaluate contexts.evaluates items scope).andThen ?_
  intro items
  exact (follows_ofExcept items.asArr).andThen fun array =>
    follows_call (contexts (.each label pattern array 0 body scope))

omit evaluates in
theorem follows_rangeLoop (contexts : comparison.Contexts context other)
    (label : Option String) (counter : String) (start : Option Node) (count body : Node)
    (scope : Scope) :
    Follows comparison Eq (rangeLoop label counter start count body scope context)
      (rangeLoop label counter start count body scope other) := by
  have rest (first : Value) :
      Follows comparison Eq
        (do
          let count ← evaluate count scope context
          let first ← first.asNum
          let limit := first + (← count.asNum)
          call (.range label counter first limit body scope context))
        (do
          let count ← evaluate count scope other
          let first ← first.asNum
          let limit := first + (← count.asNum)
          call (.range label counter first limit body scope other)) := by
    refine (follows_evaluate contexts.evaluates count scope).andThen ?_
    intro count
    refine (follows_ofExcept first.asNum).andThen ?_
    intro first
    exact (follows_ofExcept count.asNum).andThen fun count =>
      follows_call (contexts (.range label counter first (first + count) body scope))
  cases start with
  | some node => exact (follows_evaluate contexts.evaluates node scope).andThen rest
  | none => exact (follows_pure rfl).andThen rest

omit evaluates in
theorem follows_get (target : Value) (name : String) :
    Follows comparison Eq (Property.get target name) (Property.get target name) := by
  unfold Property.get
  split
  · exact follows_look _
  · refine (follows_look _).andThen ?_
    intro found
    split
    · exact follows_pure rfl
    · exact (follows_act (.newFunction _ (.native (.method _))) trivial).andThen fun _ =>
        follows_pure rfl
    · exact follows_fail Eq _

omit evaluates in
theorem follows_item (target place : Value) :
    Follows comparison Eq (Property.item target place) (Property.item target place) := by
  unfold Property.item
  split
  · refine (follows_ofExcept place.asNum).andThen ?_
    intro index
    refine (follows_look _).andThen ?_
    intro items
    split
    · exact follows_pure rfl
    · exact follows_fail Eq _
  · exact (follows_ofExcept place.asStr).andThen fun _ => follows_look _
  · exact (follows_ofExcept place.asNum).andThen fun _ => follows_ofExcept _
  · exact (follows_look _).andThen fun _ => follows_fail Eq _

theorem follows_breaking (label : Option String) (value : Option Node) (scope : Scope)
    (start : Position) :
    Follows comparison Eq (construct scope context start (.breaking label value))
      (construct scope other start (.breaking label value)) := by
  have rest (value : Option Value) :
      Follows comparison Eq
        (do
          logBlock "break" scope none
          throw (.signal (.breaking label value)) : Rule Value)
        (do
          logBlock "break" scope none
          throw (.signal (.breaking label value))) :=
    (follows_logBlock "break" scope none).andThen fun _ => follows_throw Eq _
  cases value with
  | some node =>
    exact (follows_evaluate evaluates node scope).andThen fun value => rest (some value)
  | none => exact rest none

omit evaluates in
/-- Every construct follows itself. -/
theorem follows_construct (contexts : comparison.Contexts context other)
    (scope : Scope) (start : Position) (shape : Shape) :
    Follows comparison Eq (construct scope context start shape)
      (construct scope other start shape) := by
  have evaluates := contexts.evaluates
  cases shape with
  | namespaceBlock name members => exact follows_pure rfl
  | metadata name value => exact follows_pure rfl
  | definition target value isMutable attributes =>
      exact follows_define evaluates target value isMutable attributes scope
  | returning value =>
      refine (follows_evaluate evaluates value scope).andThen ?_
      intro value
      exact (follows_logBlock "return" scope (some value)).andThen fun _ => follows_throw Eq _
  | each label pattern items body => exact follows_eachLoop contexts label pattern items body scope
  | times label count body =>
      exact (follows_evaluateNum evaluates count scope).andThen fun limit =>
        follows_call (contexts (.times label (Float.ofNat 0) limit body scope))
  | range label counter start count body =>
      exact follows_rangeLoop contexts label counter start count body scope
  | loop label statements => exact follows_call (contexts (.loop label statements scope))
  | breaking label value => exact follows_breaking evaluates label value scope start
  | continuing label =>
      exact (follows_logBlock "continue" scope none).andThen fun _ => follows_throw Eq _
  | assign target value => exact follows_assign evaluates target value scope
  | compound operator target value => exact follows_compound evaluates operator target value scope
  | conditional label condition clause branches otherwise =>
      exact follows_chooseBranch evaluates label otherwise scope ((condition, clause) :: branches)
  | function parameters body =>
      refine (follows_fallbacks evaluates scope parameters).andThen ?_
      intro fallbacks
      exact (follows_act (.newFunction none (.closure parameters fallbacks body scope)) trivial)
        |>.andThen fun _ => follows_pure rfl
  | selection label subject cases otherwise =>
      exact (follows_evaluate evaluates subject scope).andThen fun subject =>
        follows_chooseCase evaluates label subject otherwise scope cases
  | block label statements =>
      exact (follows_openScope scope .empty).andThen fun inner =>
        follows_takingBreaks label (follows_runAll evaluates inner statements)
  | existence name => exact (follows_look _).andThen fun _ => follows_pure rfl
  | template parts =>
      exact (follows_fillTemplate evaluates scope parts).andThen fun _ => follows_pure rfl
  | str text => exact follows_pure rfl
  | num number => exact follows_pure rfl
  | bool truth => exact follows_pure rfl
  | null => exact follows_pure rfl
  | obj entries =>
      refine (follows_evaluateEntries evaluates scope entries).andThen ?_
      intro values
      exact (follows_act (.newObject values) trivial).andThen fun _ => follows_pure rfl
  | arr items =>
      refine (follows_evaluateAll evaluates scope items).andThen ?_
      intro values
      exact (follows_act (.newArray values.toArray) trivial).andThen fun _ => follows_pure rfl
  | unary operator operand =>
      cases operator with
      | not =>
        exact (follows_evaluateBool evaluates operand scope).andThen fun _ => follows_pure rfl
      | plus =>
        exact (follows_evaluateNum evaluates operand scope).andThen fun _ => follows_pure rfl
      | minus =>
        exact (follows_evaluateNum evaluates operand scope).andThen fun _ => follows_pure rfl
  | binary operator left right => exact follows_binary contexts operator left right scope
  | logical operator left right => exact follows_logical evaluates operator left right scope
  | identifier name => exact (follows_act (.readName scope name) trivial).attempt
  | call callee arguments =>
      refine (follows_evaluate evaluates callee scope).andThen ?_
      intro callee
      refine (follows_ofExcept callee.asFn).andThen ?_
      intro function
      exact (follows_evaluateAll evaluates scope arguments).andThen fun arguments =>
        follows_call (contexts (.apply function arguments (some start)))
  | index target place =>
      refine (follows_evaluate evaluates target scope).andThen ?_
      intro target
      exact (follows_evaluate evaluates place scope).andThen fun place => follows_item target place
  | prop target name =>
      exact (follows_evaluate evaluates target scope).andThen fun target => follows_get target name
  | erased type => exact follows_fail Eq _

/-! ## Loops -/

omit evaluates in
theorem follows_turnAfter {again : Goal → Goal → Prop} (label : Option String)
    {goal goal' : Goal} (goals : again goal goal') {body body' : Rule Value}
    (follows : Follows comparison Eq body body') :
    Follows comparison (Turn.Same again) (turnAfter label goal body)
      (turnAfter label goal' body') := by
  refine follows.outcome_bind ?_ ?_
  · intro outcome
    split
    · exact follows_pure goals
    · exact follows_pure rfl
    · exact follows_throw _ _
  · exact fun error given => ⟨error, given, rfl⟩

theorem follows_loopTurn {again : Goal → Goal → Prop} (label : Option String)
    (statements : List Node) (scope : Scope)
    (rest : again (.loop label statements scope context) (.loop label statements scope other)) :
    Follows comparison (Turn.Same again) (loopTurn label statements scope context)
      (loopTurn label statements scope other) := by
  refine (follows_act .isStopped trivial).andThen ?_
  intro stopped
  split
  · exact follows_pure rfl
  · exact (follows_openScope scope .empty).andThen fun inner =>
      follows_turnAfter label rest
        (follows_runAll evaluates inner statements)

theorem follows_timesTurn {again : Goal → Goal → Prop} (label : Option String)
    (count limit : Float) (body : Node) (scope : Scope)
    (rest : again (.times label (count + Float.ofNat 1) limit body scope context)
      (.times label (count + Float.ofNat 1) limit body scope other)) :
    Follows comparison (Turn.Same again) (timesTurn label count limit body scope context)
      (timesTurn label count limit body scope other) := by
  unfold timesTurn
  split
  · exact follows_pure rfl
  · refine (follows_act .isStopped trivial).andThen ?_
    intro stopped
    split
    · exact follows_pure rfl
    · exact follows_turnAfter label rest
        (follows_evaluateClause evaluates body scope)

theorem follows_rangeTurn {again : Goal → Goal → Prop} (label : Option String)
    (counter : String) (count limit : Float) (body : Node) (scope : Scope)
    (rest : again (.range label counter (count + Float.ofNat 1) limit body scope context)
      (.range label counter (count + Float.ofNat 1) limit body scope other)) :
    Follows comparison (Turn.Same again)
      (rangeTurn label counter count limit body scope context)
      (rangeTurn label counter count limit body scope other) := by
  unfold rangeTurn
  split
  · exact follows_pure rfl
  · refine (follows_act .isStopped trivial).andThen ?_
    intro stopped
    split
    · exact follows_pure rfl
    · exact (follows_openScope scope _).andThen fun inner =>
        follows_turnAfter label rest
          (follows_evaluateClause evaluates body inner)

theorem follows_eachTurn {again : Goal → Goal → Prop} (label : Option String) (pattern : Node)
    (array : ArrayId) (place : Nat) (body : Node) (scope : Scope)
    (rest : again (.each label pattern array (place + 1) body scope context)
      (.each label pattern array (place + 1) body scope other)) :
    Follows comparison (Turn.Same again)
      (eachTurn label pattern array place body scope context)
      (eachTurn label pattern array place body scope other) := by
  refine (follows_act .isStopped trivial).andThen ?_
  intro stopped
  split
  · exact follows_pure rfl
  · refine (follows_look _).andThen ?_
    intro item
    split
    · exact follows_pure rfl
    · refine (follows_openScope scope .empty).andThen ?_
      intro inner
      exact (follows_act (.define inner false pattern _) trivial).attempt.andThen fun _ =>
        follows_turnAfter label rest
          (follows_evaluate evaluates body inner)

end Constructs

section Scripts

variable {comparison : Comparison} {mode mode' : Mode}

/-! ## Namespaces and scripts -/

theorem follows_expectingValue {rule rule' : Rule Value}
    (follows : Follows comparison Eq rule rule') :
    Follows comparison Eq (expectingValue rule) (expectingValue rule') :=
  follows.outcome_bind (fun _ => follows_ofExcept _) fun error given => ⟨error, given, rfl⟩

theorem follows_expectingAttributes {rule rule' : Rule (List Attribute)}
    (follows : Follows comparison Eq rule rule') :
    Follows comparison Eq (expectingAttributes rule) (expectingAttributes rule') := by
  refine follows.outcome_bind ?_ fun error given => ⟨error, given, rfl⟩
  rintro ((signal | error) | attributes)
  · exact follows_fail Eq _
  · exact follows_fail Eq _
  · exact follows_pure rfl

theorem follows_refuseMember (position : Position) (message : String) :
    Follows comparison Eq (refuseMember (α := Unit) position message)
      (refuseMember position message) :=
  follows_fail Eq _

variable (evaluates : comparison.Evaluates (.top mode) (.top mode'))

include evaluates

theorem follows_defineMember (outer inner : Scope) (position : Position) (target literal : Node)
    (isMutable : Bool) (attributes : List (String × Node)) :
    Follows comparison Eq
      (defineMember outer inner mode position target literal isMutable attributes)
      (defineMember outer inner mode' position target literal isMutable attributes) := by
  unfold defineMember
  split
  · cases isMutable with
    | true => exact follows_fail Eq _
    | false =>
        refine (follows_expectingValue (follows_evaluate evaluates literal inner)).andThen ?_
        intro value
        refine (follows_expectingAttributes
          (follows_evaluateAttributes evaluates outer attributes)).andThen fun attributes => ?_
        refine (follows_nameLiteral inner target literal value).andThen ?_
        intro _
        have defined :
            Follows comparison Eq
              (mapError (fun error => error.positioned position)
                (attempt (perform (.define inner false target value))))
              (mapError (fun error => error.positioned position)
                (attempt (perform (.define inner false target value)))) :=
          (follows_act (.define inner false target value) trivial).attempt.mapError fun _ => rfl
        refine defined.andThen ?_
        intro _
        exact (follows_act (.decorate inner target value attributes) trivial).attempt
  · exact follows_fail Eq _

theorem follows_defineMembers (outer inner : Scope) (members : List Node) :
    Follows comparison Eq (defineMembers outer inner mode members)
      (defineMembers outer inner mode' members) := by
  induction members with
  | nil => exact follows_pure rfl
  | cons member rest inductive_step =>
      rw [defineMembers, defineMembers]
      split
      · exact (follows_defineMember evaluates outer inner member.start _ _ _ _).andThen fun _ =>
          inductive_step
      · exact inductive_step
      · exact (follows_refuseMember member.start _).andThen fun _ => inductive_step

end Scripts

section Collection

variable {comparison : Comparison} {mode mode' : Mode}

mutual

theorem follows_collectNode (evaluates : comparison.Evaluates (.top mode) (.top mode'))
    (scope : Scope) :
    ∀ node, Follows comparison Eq (collectNode mode scope node) (collectNode mode' scope node)
  | .mk shape span => by
      cases shape with
      | namespaceBlock name members =>
          refine (follows_act (.newLayer .empty) trivial).andThen ?_
          intro layer
          refine (follows_collect evaluates (.member layer name scope) members).andThen ?_
          intro _
          exact follows_defineMembers evaluates scope (.member layer name scope) members
      | _ => exact follows_pure rfl

theorem follows_collect (evaluates : comparison.Evaluates (.top mode) (.top mode'))
    (scope : Scope) :
    ∀ nodes, Follows comparison Eq (collect mode scope nodes) (collect mode' scope nodes)
  | [] => follows_pure rfl
  | node :: rest =>
      (follows_collectNode evaluates scope node).andThen fun _ =>
        follows_collect evaluates scope rest

end

/-- Every script follows itself. -/
theorem follows_runScript (evaluates : comparison.Evaluates (.top mode) (.top mode'))
    (root : Scope) (script : List Node) :
    Follows comparison Eq (runScript root script mode) (runScript root script mode') := by
  refine (follows_collect evaluates root script).andThen ?_
  intro _
  refine (follows_expectingValue (follows_runAll evaluates root script)).andThen ?_
  intro value
  exact (follows_act (.log "end" none (some value)) trivial).andThen fun _ => follows_pure rfl

end Collection

end Evaluation

end TreeScript
