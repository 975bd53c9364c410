import TreeScript.Syntax.Node
import TreeScript.Number.Text

/-!
# Errors

An error has a cause, the position of the innermost node that was being
evaluated when it arose, and a trace of the calls around that node.  Position
and trace are attached once, on the way out of that node.
-/

namespace TreeScript

/-- Why an evaluation failed. -/
inductive Cause where
  | typeMismatch (expected actual : String)
  | expectedAny
  | indexOutOfRange (index : Float) (greatest : Int)
  | cannotReadProp (prop target : String)
  | noSuchProp (name target : String)
  | unknownIdentifier (name scope : String)
  | assignToImmutable (name : String)
  | alreadyDefined (name scope : String)
  | invalidTarget (message : String)
  | invalidOperation (message : String)
  | invalidNamespace (message : String)
  | stepLimit
  | callDepth (limit : Nat)
  | hostSide (message : String)
  | native (message : String)
  | internal (message : String)
  deriving DecidableEq

/-- The text of a cause. -/
def Cause.message : Cause → String
  | .typeMismatch expected actual => "Expect " ++ expected ++ ", but got " ++ actual ++ "."
  | .expectedAny => "Expect anything, but got nothing."
  | .indexOutOfRange index greatest =>
      "Index out of range. index: " ++ Number.plain index ++ " max: " ++ toString greatest
  | .cannotReadProp prop target => "Cannot read prop (" ++ prop ++ ") of " ++ target ++ "."
  | .noSuchProp name target => "No such property '" ++ name ++ "' on " ++ target ++ "."
  | .unknownIdentifier name scope =>
      "No such variable '" ++ name ++ "' in scope '" ++ scope ++ "'"
  | .assignToImmutable name => "Cannot assign to an immutable variable " ++ name ++ "."
  | .alreadyDefined name scope =>
      "Variable '" ++ name ++ "' already exists in scope '" ++ scope ++ "'"
  | .invalidTarget message => "Invalid target: " ++ message
  | .invalidOperation message => "Invalid operation: " ++ message
  | .invalidNamespace message => message
  | .stepLimit => "max step exceeded"
  | .callDepth limit => "max call depth exceeded (" ++ toString limit ++ ")"
  | .hostSide message => message
  | .native message => message
  | .internal message => "Internal error: " ++ message

/-- Whether a cause ends the whole execution rather than a single call. -/
def Cause.isFatal : Cause → Bool
  | .stepLimit => true
  | .hostSide _ => true
  | _ => false

/-- An error with its position and the lines of its trace, innermost first. -/
structure Error where
  cause : Cause
  position : Option Position
  trace : List String
  deriving DecidableEq

/-- A call that has not returned: the name of the function and where it was called. -/
structure Call where
  name : String
  site : Option Position
  deriving DecidableEq, Repr

namespace Error

/-- An error that has not been located yet. -/
def of (cause : Cause) : Error :=
  ⟨cause, none, []⟩

/-- Give an error a position, unless it has one. -/
def positioned (error : Error) (position : Position) : Error :=
  { error with position := error.position.or (some position) }

/-- One line of a trace. -/
def traceLine (name : String) : Option Position → String
  | none => "  at " ++ name
  | some position =>
      "  at " ++ name ++ " (Line " ++ toString position.line ++ ", Column "
        ++ toString position.column ++ ")"

/--
The lines of a trace, given the position that was reached in the innermost of
some calls: each call is named with the position reached inside it, and the
last line is that of the script.
-/
def traceLines (reached : Option Position) : List Call → List String
  | [] => [traceLine "<root>" reached]
  | call :: outer => traceLine call.name reached :: traceLines call.site outer

/-- Locate an error that arose in a node, unless an inner node has done so. -/
def locate (error : Error) (position : Position) (calls : List Call) : Error :=
  match error.position with
  | some _ => error
  | none => { error with position := some position, trace := traceLines (some position) calls }

/-- The text of an error with its trace below it. -/
def display (error : Error) : String :=
  error.cause.message ++ String.join (error.trace.map fun line => "\n" ++ line)

@[simp]
theorem length_traceLines (reached : Option Position) (calls : List Call) :
    (traceLines reached calls).length = calls.length + 1 := by
  induction calls generalizing reached with
  | nil => rfl
  | cons call outer inductive_step => simp [traceLines, inductive_step]

end Error

end TreeScript
