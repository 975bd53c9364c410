import TreeScript.Machine.Process

/-!
# Nodes in sequence

What all constructs share: having a node evaluated, evaluating nodes in order,
and running statements one after the other.  A run of statements tells the host
when it is entered and how it is left: with a value, or with a signal that a
statement gave.
-/

namespace TreeScript.Evaluation

open TreeScript

/-- Have a node evaluated. -/
def evaluate (node : Node) (scope : Scope) (context : Context) : Rule Value :=
  Rule.call (.evaluate node scope context)

/-- Evaluate a node that has to give a truth value. -/
def evaluateBool (node : Node) (scope : Scope) (context : Context) : Rule Bool := do
  let value ← evaluate node scope context
  value.asBool

/-- Evaluate a node that has to give a number. -/
def evaluateNum (node : Node) (scope : Scope) (context : Context) : Rule Float := do
  let value ← evaluate node scope context
  value.asNum

/-- Evaluate nodes in order. -/
def evaluateAll (scope : Scope) (context : Context) (nodes : List Node) : Rule (List Value) :=
  Rule.traverse (fun node => evaluate node scope context) nodes

/-- Evaluate the nodes of named entries in order. -/
def evaluateEntries (scope : Scope) (context : Context) (entries : List (String × Node)) :
    Rule (List (String × Value)) :=
  Rule.traverse (fun (name, node) => return (name, ← evaluate node scope context)) entries

/-- Evaluate the attributes of a definition in order. -/
def evaluateAttributes (scope : Scope) (context : Context) (attributes : List (String × Node)) :
    Rule (List Attribute) := do
  let entries ← evaluateEntries scope context attributes
  return entries.map fun entry => ⟨entry.1, entry.2⟩

/-- A new plain scope inside another. -/
def openScope (scope : Scope) (bindings : Dict Variable) : Rule Scope := do
  return .child (← Rule.perform (.newLayer bindings)) scope

/-- Tell the host what happens to a block. -/
def logBlock (event : String) (scope : Scope) (value : Option Value) : Rule Unit :=
  Rule.perform (.log ("block:" ++ event) (some scope.name) value)

/-- Run the statements that are left after one with a given value. -/
def runFrom (scope : Scope) (context : Context) (last : Value) : List Node → Rule Value
  | [] => do
      logBlock "leave" scope (some last)
      return last
  | statement :: rest => do
      match ← (evaluate statement scope context).outcome with
      | .ok value => runFrom scope context value rest
      | .error (.signal signal) =>
          logBlock signal.name scope signal.carried
          throw (.signal signal)
      | .error interrupt => throw interrupt

/-- Run statements in a scope; the value is that of the last one. -/
def runAll (scope : Scope) (context : Context) (statements : List Node) : Rule Value := do
  logBlock "enter" scope none
  runFrom scope context .null statements

/-- Evaluate a clause.  A statement gets a scope of its own. -/
def evaluateClause (node : Node) (scope : Scope) (context : Context) : Rule Value :=
  if node.isStatement then do
    let inner ← openScope scope .empty
    evaluate node inner context
  else evaluate node scope context

/-- Let a labelled construct take the breaks that carry its label. -/
def takingBreaks (label : Option String) (rule : Rule Value) : Rule Value := do
  let outcome ← rule.outcome
  ExceptT.mk (.done (Outcome.takeBreak label outcome))

end TreeScript.Evaluation
