/-!
# Syntax trees

A script is a list of nodes.  A node is a shape together with the part of the
source text it came from; the shape says which construct it is and holds its
parts.  Every shape has a kind, whose name is the tag of the node in JSON texts
and in messages.
-/

namespace TreeScript

/-- A line and a column of the source text, both counted from one; zeros mean unknown. -/
structure Position where
  line : Nat
  column : Nat
  deriving DecidableEq, Repr, Inhabited

/-- The part of the source text that a node covers. -/
structure Span where
  start : Position
  finish : Position
  deriving DecidableEq, Repr, Inhabited

/-- Operators in front of one operand. -/
inductive UnaryOperator where
  | not
  | plus
  | minus
  deriving DecidableEq, Repr

/-- Operators between two operands that are always both evaluated. -/
inductive BinaryOperator where
  | pow
  | mul
  | div
  | rem
  | add
  | sub
  | lt
  | lteq
  | gt
  | gteq
  | eq
  | neq
  deriving DecidableEq, Repr

/-- Operators whose second operand is evaluated only when it decides the result. -/
inductive LogicalOperator where
  | and
  | or
  deriving DecidableEq, Repr

/-- The assignments that change a number in place. -/
inductive CompoundOperator where
  | add
  | sub
  deriving DecidableEq, Repr

/-- Type annotations, which are expected to be gone before a script runs. -/
inductive ErasedType where
  | named
  | function
  | union
  | attribute
  deriving DecidableEq, Repr

/-- The construct that a node is. -/
inductive Kind where
  | namespaceBlock
  | metadata
  | definition
  | returning
  | each
  | counted
  | loop
  | breaking
  | continuing
  | assign
  | compound (operator : CompoundOperator)
  | conditional
  | function
  | selection
  | block
  | existence
  | template
  | str
  | num
  | bool
  | null
  | obj
  | arr
  | unary (operator : UnaryOperator)
  | binary (operator : BinaryOperator)
  | logical (operator : LogicalOperator)
  | identifier
  | call
  | index
  | prop
  | erased (type : ErasedType)
  deriving DecidableEq, Repr

namespace Kind

/-- The tag of a kind. -/
def name : Kind → String
  | .namespaceBlock => "ns"
  | .metadata => "meta"
  | .definition => "def"
  | .returning => "return"
  | .each => "each"
  | .counted => "for"
  | .loop => "loop"
  | .breaking => "break"
  | .continuing => "continue"
  | .assign => "assign"
  | .compound .add => "addAssign"
  | .compound .sub => "subAssign"
  | .conditional => "if"
  | .function => "fn"
  | .selection => "match"
  | .block => "block"
  | .existence => "exists"
  | .template => "tmpl"
  | .str => "str"
  | .num => "num"
  | .bool => "bool"
  | .null => "null"
  | .obj => "obj"
  | .arr => "arr"
  | .unary .not => "not"
  | .unary .plus => "plus"
  | .unary .minus => "minus"
  | .binary .pow => "pow"
  | .binary .mul => "mul"
  | .binary .div => "div"
  | .binary .rem => "rem"
  | .binary .add => "add"
  | .binary .sub => "sub"
  | .binary .lt => "lt"
  | .binary .lteq => "lteq"
  | .binary .gt => "gt"
  | .binary .gteq => "gteq"
  | .binary .eq => "eq"
  | .binary .neq => "neq"
  | .logical .and => "and"
  | .logical .or => "or"
  | .identifier => "identifier"
  | .call => "call"
  | .index => "index"
  | .prop => "prop"
  | .erased .named => "namedTypeSource"
  | .erased .function => "fnTypeSource"
  | .erased .union => "unionTypeSource"
  | .erased .attribute => "attr"

/-- All kinds; a kind may also be written as its place in this list. -/
def all : List Kind :=
  [.namespaceBlock, .metadata, .definition, .returning, .each, .counted, .loop, .breaking,
    .continuing, .assign, .compound .add, .compound .sub, .conditional, .function, .selection,
    .block, .existence, .template, .str, .num, .bool, .null, .obj, .arr, .unary .not,
    .unary .plus, .unary .minus, .binary .pow, .binary .mul, .binary .div, .binary .rem,
    .binary .add, .binary .sub, .binary .lt, .binary .lteq, .binary .gt, .binary .gteq,
    .binary .eq, .binary .neq, .logical .and, .logical .or, .identifier, .call, .index, .prop,
    .erased .named, .erased .function, .erased .union, .erased .attribute]

/-- The kind with a tag. -/
def ofName? (tag : String) : Option Kind :=
  all.find? fun kind => kind.name == tag

/-- Whether a clause of this kind is a statement, which runs in a scope of its own. -/
def isStatement : Kind → Bool
  | .definition | .returning | .each | .counted | .loop | .breaking | .continuing | .assign
  | .compound _ => true
  | _ => false

end Kind

mutual

/-- A node: a construct and where it stands. -/
inductive Node where
  | mk (shape : Shape) (span : Span)

/-- The constructs and their parts. -/
inductive Shape where
  /-- A namespace declaration with its members. -/
  | namespaceBlock (name : String) (members : List Node)
  /-- A block of metadata, which is never evaluated. -/
  | metadata (name : Option String) (value : Node)
  /-- A definition of the names in a pattern, decorated with attributes. -/
  | definition (target value : Node) (isMutable : Bool) (attributes : List (String × Node))
  | returning (value : Node)
  /-- A loop over the elements of an array, each bound to a pattern. -/
  | each (label : Option String) (pattern items body : Node)
  /-- A loop that runs a number of times. -/
  | times (label : Option String) (count body : Node)
  /-- A loop that counts a variable upward, from zero unless a start is given. -/
  | range (label : Option String) (counter : String) (start : Option Node) (count body : Node)
  | loop (label : Option String) (statements : List Node)
  | breaking (label : Option String) (value : Option Node)
  | continuing (label : Option String)
  | assign (target value : Node)
  | compound (operator : CompoundOperator) (target value : Node)
  /-- A condition with its clause, further conditions with theirs, and a last clause. -/
  | conditional (label : Option String) (condition clause : Node)
      (branches : List (Node × Node)) (otherwise : Option Node)
  | function (parameters : List Parameter) (body : List Node)
  /-- A choice of the first case that equals a value. -/
  | selection (label : Option String) (subject : Node)
      (cases : List (Node × Node)) (otherwise : Option Node)
  | block (label : Option String) (statements : List Node)
  /-- Whether a name is bound. -/
  | existence (name : String)
  | template (parts : List Part)
  | str (text : String)
  | num (number : Float)
  | bool (truth : Bool)
  | null
  | obj (entries : List (String × Node))
  | arr (items : List Node)
  | unary (operator : UnaryOperator) (operand : Node)
  | binary (operator : BinaryOperator) (left right : Node)
  | logical (operator : LogicalOperator) (left right : Node)
  | identifier (name : String)
  | call (callee : Node) (arguments : List Node)
  | index (target place : Node)
  | prop (target : Node) (name : String)
  | erased (type : ErasedType)

/-- A parameter: the pattern it binds, and what happens when its argument is missing. -/
inductive Parameter where
  | mk (target : Node) (isOptional : Bool) (fallback : Option Node)

/-- A piece of a template: text, or an expression whose value is shown. -/
inductive Part where
  | text (content : String)
  | expression (node : Node)

end

instance : Inhabited Shape :=
  ⟨.null⟩

instance : Inhabited Node :=
  ⟨.mk .null default⟩

namespace Shape

/-- The kind of a shape. -/
def kind : Shape → Kind
  | .namespaceBlock .. => .namespaceBlock
  | .metadata .. => .metadata
  | .definition .. => .definition
  | .returning .. => .returning
  | .each .. => .each
  | .times .. => .counted
  | .range .. => .counted
  | .loop .. => .loop
  | .breaking .. => .breaking
  | .continuing .. => .continuing
  | .assign .. => .assign
  | .compound operator _ _ => .compound operator
  | .conditional .. => .conditional
  | .function .. => .function
  | .selection .. => .selection
  | .block .. => .block
  | .existence .. => .existence
  | .template .. => .template
  | .str .. => .str
  | .num .. => .num
  | .bool .. => .bool
  | .null => .null
  | .obj .. => .obj
  | .arr .. => .arr
  | .unary operator _ => .unary operator
  | .binary operator _ _ => .binary operator
  | .logical operator _ _ => .logical operator
  | .identifier .. => .identifier
  | .call .. => .call
  | .index .. => .index
  | .prop .. => .prop
  | .erased type => .erased type

end Shape

namespace Node

/-- The construct of a node. -/
def shape : Node → Shape
  | .mk shape _ => shape

/-- Where a node stands. -/
def span : Node → Span
  | .mk _ span => span

/-- Where a node starts. -/
def start (node : Node) : Position :=
  node.span.start

/-- The kind of a node. -/
def kind (node : Node) : Kind :=
  node.shape.kind

/-- Whether a node is a statement. -/
def isStatement (node : Node) : Bool :=
  node.kind.isStatement

@[simp]
theorem shape_mk (shape : Shape) (span : Span) :
    (Node.mk shape span).shape = shape := rfl

@[simp]
theorem span_mk (shape : Shape) (span : Span) :
    (Node.mk shape span).span = span := rfl

end Node

namespace Parameter

/-- The pattern that a parameter binds. -/
def target : Parameter → Node
  | .mk target _ _ => target

/-- Whether a missing argument counts as `null`. -/
def isOptional : Parameter → Bool
  | .mk _ isOptional _ => isOptional

/-- The expression for a missing argument. -/
def fallback : Parameter → Option Node
  | .mk _ _ fallback => fallback

/-- The name of a parameter that is a plain identifier, and a question mark for a pattern. -/
def shownName (parameter : Parameter) : String :=
  match parameter.target.shape with
  | .identifier name => name
  | _ => "?"

end Parameter

end TreeScript
