import TreeScript.Evaluation.Statement
import TreeScript.Natives.Property

/-!
# The rules of the constructs

One rule for each construct of a script.  Parts are always evaluated as goals
of their own, so that stepping, pausing and locating errors apply to every
node alike.
-/

namespace TreeScript.Evaluation

open TreeScript

/-- A choice between clauses guarded by conditions. -/
def chooseBranch (label : Option String) (otherwise : Option Node) (scope : Scope)
    (context : Context) : List (Node × Node) → Rule Value
  | [] =>
      match otherwise with
      | some clause => takingBreaks label (evaluateClause clause scope context)
      | none => return .null
  | (condition, clause) :: rest => do
      if ← evaluateBool condition scope context then
        takingBreaks label (evaluateClause clause scope context)
      else chooseBranch label otherwise scope context rest

/-- A choice of the first case whose value equals that of the subject. -/
def chooseCase (label : Option String) (subject : Value) (otherwise : Option Node) (scope : Scope)
    (context : Context) : List (Node × Node) → Rule Value
  | [] =>
      match otherwise with
      | some clause => takingBreaks label (evaluateClause clause scope context)
      | none => return .null
  | (candidate, clause) :: rest => do
      let value ← evaluate candidate scope context
      if ← Rule.look fun store => store.equal subject value then
        takingBreaks label (evaluateClause clause scope context)
      else chooseCase label subject otherwise scope context rest

/-- A function literal that is bound directly to a name takes that name, if it is evaluated. -/
def nameLiteral (scope : Scope) (target literal : Node) (value : Value) : Rule Unit := do
  match literal.shape, target.shape, value with
  | .function _ _, .identifier name, .fn function =>
      Rule.perform (.nameFunction function (scope.qualifier ++ name))
  | _, _, _ => return ()

/-- A definition: its value, its attributes, its names, in this order. -/
def define (target literal : Node) (isMutable : Bool) (attributes : List (String × Node))
    (scope : Scope) (context : Context) : Rule Value := do
  let value ← evaluate literal scope context
  let attributes ← evaluateAttributes scope context attributes
  nameLiteral scope target literal value
  Rule.attempt (Rule.perform (.define scope isMutable target value))
  Rule.attempt (Rule.perform (.decorate scope target value attributes))
  return .null

section Targets

variable (scope : Scope) (context : Context)

mutual

/-- Evaluate the target of an assignment to a location. -/
def locate : Node → Rule Location
  | .mk (.identifier name) _ => return .name scope name
  | .mk (.index target place) _ => do
      let target ← evaluate target scope context
      let place ← evaluate place scope context
      match target, place with
      | .arr array, .num index => return .element array index
      | .obj object, .str name => return .entry object name
      | target, place => do
          let shown ← Rule.look fun store => store.literal place
          Rule.fail (.of (.cannotReadProp shown target.typeName))
  | .mk (.prop target name) _ => do
      let target ← evaluate target scope context
      return .entry (← target.asObj) name
  | .mk (.arr targets) _ => do
      return .items (← locateItems [] targets)
  | .mk (.obj targets) _ => do
      return .entries (← locateEntries [] targets)
  | _ =>
      Rule.fail (.of (.invalidTarget "The left-hand side of an assignment must be a variable."))

/-- Evaluate a list of targets after others, the latest of which comes first. -/
def locateItems (earlier : List Location) : List Node → Rule (List Location)
  | [] => return earlier.reverse
  | target :: rest => do
      let location ← locate target
      locateItems (location :: earlier) rest

/-- Evaluate a list of named targets after others, the latest of which comes first. -/
def locateEntries (earlier : List (String × Location)) :
    List (String × Node) → Rule (List (String × Location))
  | [] => return earlier.reverse
  | (name, target) :: rest => do
      let location ← locate target
      locateEntries ((name, location) :: earlier) rest

end

end Targets

/-- The target of an assignment is evaluated before the value. -/
def assign (target source : Node) (scope : Scope) (context : Context) : Rule Value := do
  let location ← locate scope context target
  let value ← evaluate source scope context
  Rule.attempt (Rule.perform (.write location value))
  return .null

/-- The sign that the change of a compound assignment is taken with. -/
def sign : CompoundOperator → Float
  | .add => Float.ofNat 1
  | .sub => -(Float.ofNat 1)

/-- A compound assignment evaluates its target once, and reads it after the change. -/
def compound (operator : CompoundOperator) (target source : Node) (scope : Scope)
    (context : Context) : Rule Value := do
  let location ← locate scope context target
  let change ← evaluateNum source scope context
  let current ← (← Rule.attempt (Rule.perform (.read location))).asNum
  let result := current + sign operator * change
  Rule.attempt (Rule.perform (.write location (.num result)))
  return .null

/-- The text of a part of a template. -/
def partText (scope : Scope) (context : Context) : Part → Rule String
  | .text content => return content
  | .expression node => do
      let value ← evaluate node scope context
      Rule.look fun store => store.display value

/-- The text of a template. -/
def fillTemplate (scope : Scope) (context : Context) (parts : List Part) : Rule String := do
  return String.join (← Rule.traverse (partText scope context) parts)

/-- The fallback of a parameter, evaluated where the function is written. -/
def fallback (scope : Scope) (context : Context) : Parameter → Rule (Option Value)
  | .mk _ isOptional none => return if isOptional then some .null else none
  | .mk _ _ (some node) => do
      let value ← evaluate node scope context
      return some value

/-- The fallbacks of parameters. -/
def fallbacks (scope : Scope) (context : Context) (parameters : List Parameter) :
    Rule (List (Option Value)) :=
  Rule.traverse (fallback scope context) parameters

/-- A logical operator evaluates its second operand only if the first does not decide. -/
def logical (operator : LogicalOperator) (left right : Node) (scope : Scope)
    (context : Context) : Rule Value := do
  let first ← evaluateBool left scope context
  match operator, first with
  | .and, false => return .bool false
  | .or, true => return .bool true
  | _, _ => return .bool (← evaluateBool right scope context)

/-- An operator is the function that is bound to its name at that moment. -/
def binary (operator : BinaryOperator) (left right : Node) (scope : Scope) (context : Context) :
    Rule Value := do
  let name := (LibraryFunction.ofOperator operator).name
  let function ← (← Rule.attempt (Rule.perform (.readName scope name))).asFn
  let first ← evaluate left scope context
  let second ← evaluate right scope context
  Rule.call (.apply function [first, second] context none)

/-- A loop over the elements of an array. -/
def eachLoop (label : Option String) (pattern items body : Node) (scope : Scope)
    (context : Context) : Rule Value := do
  let items ← evaluate items scope context
  let array ← items.asArr
  Rule.call (.each label pattern array 0 body scope context)

/-- A loop that counts a name upward; the bounds must be numbers once both are evaluated. -/
def rangeLoop (label : Option String) (counter : String) (start : Option Node) (count body : Node)
    (scope : Scope) (context : Context) : Rule Value := do
  let first ←
    match start with
    | some node => evaluate node scope context
    | none => pure (.num (Float.ofNat 0))
  let count ← evaluate count scope context
  let first ← first.asNum
  let limit := first + (← count.asNum)
  Rule.call (.range label counter first limit body scope context)

/-- The rule of a construct that starts at a position. -/
def construct (scope : Scope) (context : Context) (start : Position) : Shape → Rule Value
  | .call callee arguments => do
      let callee ← evaluate callee scope context
      let function ← callee.asFn
      let arguments ← evaluateAll scope context arguments
      Rule.call (.apply function arguments context (some start))
  | .conditional label condition clause branches otherwise =>
      chooseBranch label otherwise scope context ((condition, clause) :: branches)
  | .selection label subject cases otherwise => do
      let subject ← evaluate subject scope context
      chooseCase label subject otherwise scope context cases
  | .loop label statements => Rule.call (.loop label statements scope context)
  | .times label count body => do
      let limit ← evaluateNum count scope context
      Rule.call (.times label (Float.ofNat 0) limit body scope context)
  | .range label counter start count body =>
      rangeLoop label counter start count body scope context
  | .each label pattern items body => eachLoop label pattern items body scope context
  | .definition target value isMutable attributes =>
      define target value isMutable attributes scope context
  | .identifier name => Rule.attempt (Rule.perform (.readName scope name))
  | .assign target value => assign target value scope context
  | .compound operator target value => compound operator target value scope context
  | .null => return .null
  | .bool truth => return .bool truth
  | .num number => return .num number
  | .str text => return .str text
  | .arr items => do
      let values ← evaluateAll scope context items
      return .arr (← Rule.perform (.newArray values.toArray))
  | .obj entries => do
      let values ← evaluateEntries scope context entries
      return .obj (← Rule.perform (.newObject values))
  | .template parts => do
      return .str (← fillTemplate scope context parts)
  | .existence name => do
      return .bool (← Rule.look fun store => store.isBound scope name)
  | .prop target name => do
      let target ← evaluate target scope context
      Property.get target name
  | .index target place => do
      let target ← evaluate target scope context
      let place ← evaluate place scope context
      Property.item target place
  | .unary .not operand => do
      return .bool !(← evaluateBool operand scope context)
  | .unary .plus operand => do
      return .num (← evaluateNum operand scope context)
  | .unary .minus operand => do
      return .num (-(← evaluateNum operand scope context))
  | .function parameters body => do
      let fallbacks ← fallbacks scope context parameters
      return .fn (← Rule.perform (.newFunction none (.closure parameters fallbacks body scope)))
  | .block label statements => do
      let inner ← openScope scope .empty
      takingBreaks label (runAll inner context statements)
  | .returning value => do
      let value ← evaluate value scope context
      logBlock "return" scope (some value)
      throw (.signal (.returning value))
  | .breaking label value => do
      let value ←
        match value with
        | some node => do
            let value ← evaluate node scope context
            pure (some value)
        | none => pure none
      logBlock "break" scope none
      throw (.signal (.breaking label value))
  | .continuing label => do
      logBlock "continue" scope none
      throw (.signal (.continuing label))
  | .logical operator left right => logical operator left right scope context
  | .binary operator left right => binary operator left right scope context
  | .namespaceBlock _ _ => return .null
  | .metadata _ _ => return .null
  | .erased type =>
      Rule.fail (.of (.internal ("invalid node type: " ++ (Kind.erased type).name)))

end TreeScript.Evaluation
