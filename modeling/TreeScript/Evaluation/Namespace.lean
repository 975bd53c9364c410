import TreeScript.Evaluation.Construct

/-!
# Collecting namespaces

Before a script runs, its namespaces are collected: each gets a scope, inner
namespaces come first, and then its members are defined in order.  Members are
immutable and have plain names.  Values are evaluated in the scope of the
namespace, attributes in the scope around it.
-/

namespace TreeScript.Evaluation

open TreeScript

/-- A rule that may not be left by a signal. -/
def expectingValue (rule : Rule Value) : Rule Value := do
  let outcome ← rule.outcome
  Rule.ofExcept (Outcome.expectValue outcome)

/-- Attributes that may not be left by a signal. -/
def expectingAttributes (rule : Rule (List Attribute)) : Rule (List Attribute) := do
  match ← rule.outcome with
  | .ok attributes => return attributes
  | .error (.error error) => Rule.fail error
  | .error (.signal signal) =>
      Rule.fail (.of (.internal ("Unexpected " ++ signal.name ++ " in attribute")))

/-- Refuse a member at a position. -/
def refuseMember {α : Type} (position : Position) (message : String) : Rule α :=
  Rule.fail ((Error.of (.invalidNamespace message)).positioned position)

/-- Define a member of a namespace. -/
def defineMember (outer inner : Scope) (mode : Mode) (position : Position) (target literal : Node)
    (isMutable : Bool) (attributes : List (String × Node)) : Rule Unit := do
  match target.shape with
  | .identifier name =>
      if isMutable then
        refuseMember position ("No \"var\" in namespace declaration: " ++ name)
      let value ← expectingValue (evaluate literal inner (.top mode))
      let attributes ←
        expectingAttributes (evaluateAttributes outer (.top mode) attributes)
      nameLiteral inner target literal value
      (Rule.attempt (Rule.perform (.define inner false target value))).mapError fun error =>
        error.positioned position
      Rule.attempt (Rule.perform (.decorate inner target value attributes))
  | _ =>
      refuseMember position "Destructuring assignment is invalid in namespace declarations."

/-- Define the members of a namespace in order. -/
def defineMembers (outer inner : Scope) (mode : Mode) : List Node → Rule Unit
  | [] => return ()
  | member :: rest => do
      match member.shape with
      | .definition target literal isMutable attributes =>
          defineMember outer inner mode member.start target literal isMutable attributes
      | .namespaceBlock _ _ => pure ()
      | other => refuseMember member.start ("invalid ns member type: " ++ other.kind.name)
      defineMembers outer inner mode rest

mutual

/-- Collect a node, if it is a namespace. -/
def collectNode (mode : Mode) (scope : Scope) : Node → Rule Unit
  | .mk (.namespaceBlock name members) _ => do
      let inner := Scope.member (← Rule.perform (.newLayer .empty)) name scope
      collect mode inner members
      defineMembers scope inner mode members
  | _ => return ()

/-- Collect the namespaces among some nodes. -/
def collect (mode : Mode) (scope : Scope) : List Node → Rule Unit
  | [] => return ()
  | node :: rest => do
      collectNode mode scope node
      collect mode scope rest

end

theorem collect_append (mode : Mode) (scope : Scope) (first second : List Node) :
    collect mode scope (first ++ second) = (do
      collect mode scope first
      collect mode scope second) := by
  induction first with
  | nil => rfl
  | cons node rest inductive_step =>
      simp only [List.cons_append, collect, inductive_step, bind_assoc]

/-- A script that declares no namespaces has none to collect. -/
theorem collect_eq_pure {mode : Mode} {nodes : List Node}
    (plain : ∀ node ∈ nodes, node.kind ≠ .namespaceBlock) (scope : Scope) :
    collect mode scope nodes = pure () := by
  induction nodes with
  | nil => rfl
  | cons node rest inductive_step =>
      obtain ⟨first, others⟩ := List.forall_mem_cons.mp plain
      rw [collect, inductive_step others]
      obtain ⟨shape, span⟩ := node
      cases shape with
      | namespaceBlock name members => exact (first rfl).elim
      | _ => rfl

/-- Run a script in its root scope: namespaces first, then all statements. -/
def runScript (root : Scope) (script : List Node) (mode : Mode) : Rule Value := do
  collect mode root script
  let value ← expectingValue (runAll root (.top mode) script)
  Rule.perform (.log "end" none (some value))
  return value

end TreeScript.Evaluation
