import TreeScript.Control
import TreeScript.Syntax.Node

/-!
# Scripts that differ in their labels

Two nodes resemble each other if they are the same but for the labels of
constructs and signals, and if corresponding signals leave corresponding
constructs.  A signal with a label refers to the nearest construct around it
that has the label and takes such signals: a loop, or for a `break` also a
conditional, a selection or a block.  What is around a node begins anew in the
body of every function; headers, conditions, subjects and candidates are
outside of the construct that they belong to, and the fallbacks of parameters
are outside of the function.

Beside the labels, all numbers that are written in the nodes must be of one
kind.  In this way a node that resembles itself also says something about the
numbers in it.
-/

namespace TreeScript

/-! ## Labels -/

/-- A construct that signals may leave, with the label it has in each of two scripts. -/
structure Binder where
  label : Option String
  other : Option String
  isLoop : Bool

namespace Binder

/-- Two labels that refer to corresponding constructs, of some the innermost of which is first. -/
def Refer : List Binder → String → String → Prop
  | [], _, _ => True
  | binder :: outer, label, other =>
      (binder.label = some label ∧ binder.other = some other) ∨
        (binder.label ≠ some label ∧ binder.other ≠ some other ∧ Refer outer label other)

/-- The labels of two signals that refer to corresponding constructs, or of two without labels. -/
def ReferIfAny (binders : List Binder) : Option String → Option String → Prop
  | none, none => True
  | some label, some other => Refer binders label other
  | _, _ => False

/-- The loops among some constructs, which are what a `continue` can leave. -/
def loops (binders : List Binder) : List Binder :=
  binders.filter fun binder => binder.isLoop

/-- Whether all constructs have the same labels in both scripts. -/
def AreSame (binders : List Binder) : Prop :=
  ∀ binder ∈ binders, binder.other = binder.label

variable {binders : List Binder}

theorem AreSame.cons (same : AreSame binders) (label : Option String) (isLoop : Bool) :
    AreSame (⟨label, label, isLoop⟩ :: binders) :=
  List.forall_mem_cons.mpr ⟨rfl, same⟩

theorem AreSame.loops (same : AreSame binders) : AreSame (loops binders) :=
  fun binder mem => same binder (List.mem_filter.mp mem).1

theorem AreSame.refer (same : AreSame binders) (label : String) : Refer binders label label := by
  induction binders with
  | nil => trivial
  | cons binder outer inductive_step =>
      obtain ⟨here, further⟩ := List.forall_mem_cons.mp same
      by_cases own : binder.label = some label
      · exact .inl ⟨own, here.trans own⟩
      · exact .inr ⟨own, fun other => own (here.symm.trans other), inductive_step further⟩

theorem AreSame.referIfAny (same : AreSame binders) (label : Option String) :
    ReferIfAny binders label label := by
  cases label with
  | none => trivial
  | some label => exact same.refer label

/-- A construct takes a label if and only if its counterpart takes the other one. -/
theorem Refer.iff {binder : Binder} {label other : String}
    (refer : Refer (binder :: binders) label other) :
    binder.label = some label ↔ binder.other = some other := by
  rcases refer with ⟨own, ownOther⟩ | ⟨foreign, foreignOther, -⟩
  · exact ⟨fun _ => ownOther, fun _ => own⟩
  · exact ⟨fun own => (foreign own).elim, fun own => (foreignOther own).elim⟩

/-- What a construct does not take, refers to one further out. -/
theorem Refer.outer {binder : Binder} {label other : String}
    (refer : Refer (binder :: binders) label other) (foreign : binder.label ≠ some label) :
    Refer binders label other := by
  rcases refer with ⟨own, -⟩ | ⟨-, -, further⟩
  · exact (foreign own).elim
  · exact further

end Binder

/-! ## Nodes -/

section

variable (numbers : Float → Prop)

mutual

/-- Nodes that are the same but for labels, inside some constructs. -/
inductive Node.Resembles : List Binder → Node → Node → Prop where
  | mk {binders : List Binder} {shape other : Shape} {span : Span}
      (shapes : Shape.Resembles binders shape other) :
      Node.Resembles binders (.mk shape span) (.mk other span)

/-- Constructs that are the same but for labels. -/
inductive Shape.Resembles : List Binder → Shape → Shape → Prop where
  | namespaceBlock {binders : List Binder} {name : String} {members members' : List Node}
      (each : Node.Resemble binders members members') :
      Shape.Resembles binders (.namespaceBlock name members) (.namespaceBlock name members')
  | metadata {binders : List Binder} {name : Option String} {value value' : Node} :
      Shape.Resembles binders (.metadata name value) (.metadata name value')
  | definition {binders : List Binder} {target target' value value' : Node} {isMutable : Bool}
      {attributes attributes' : List (String × Node)}
      (targets : Node.Resembles binders target target')
      (values : Node.Resembles binders value value')
      (each : Node.EntriesResemble binders attributes attributes') :
      Shape.Resembles binders (.definition target value isMutable attributes)
        (.definition target' value' isMutable attributes')
  | returning {binders : List Binder} {value value' : Node}
      (values : Node.Resembles binders value value') :
      Shape.Resembles binders (.returning value) (.returning value')
  | each {binders : List Binder} {label label' : Option String}
      {pattern pattern' items items' body body' : Node}
      (patterns : Node.Resembles binders pattern pattern')
      (headers : Node.Resembles binders items items')
      (bodies : Node.Resembles (⟨label, label', true⟩ :: binders) body body') :
      Shape.Resembles binders (.each label pattern items body) (.each label' pattern' items' body')
  | times {binders : List Binder} {label label' : Option String} {count count' body body' : Node}
      (headers : Node.Resembles binders count count')
      (bodies : Node.Resembles (⟨label, label', true⟩ :: binders) body body') :
      Shape.Resembles binders (.times label count body) (.times label' count' body')
  | range {binders : List Binder} {label label' : Option String} {counter : String}
      {start start' : Option Node} {count count' body body' : Node}
      (starts : Node.ResembleIfAny binders start start')
      (headers : Node.Resembles binders count count')
      (bodies : Node.Resembles (⟨label, label', true⟩ :: binders) body body') :
      Shape.Resembles binders (.range label counter start count body)
        (.range label' counter start' count' body')
  | loop {binders : List Binder} {label label' : Option String}
      {statements statements' : List Node}
      (each : Node.Resemble (⟨label, label', true⟩ :: binders) statements statements') :
      Shape.Resembles binders (.loop label statements) (.loop label' statements')
  | breaking {binders : List Binder} {label label' : Option String} {value value' : Option Node}
      (labels : Binder.ReferIfAny binders label label')
      (values : Node.ResembleIfAny binders value value') :
      Shape.Resembles binders (.breaking label value) (.breaking label' value')
  | continuing {binders : List Binder} {label label' : Option String}
      (labels : Binder.ReferIfAny (Binder.loops binders) label label') :
      Shape.Resembles binders (.continuing label) (.continuing label')
  | assign {binders : List Binder} {target target' value value' : Node}
      (targets : Node.Resembles binders target target')
      (values : Node.Resembles binders value value') :
      Shape.Resembles binders (.assign target value) (.assign target' value')
  | compound {binders : List Binder} {operator : CompoundOperator}
      {target target' value value' : Node}
      (targets : Node.Resembles binders target target')
      (values : Node.Resembles binders value value') :
      Shape.Resembles binders (.compound operator target value) (.compound operator target' value')
  | conditional {binders : List Binder} {label label' : Option String}
      {condition condition' clause clause' : Node} {branches branches' : List (Node × Node)}
      {otherwise otherwise' : Option Node}
      (each : Node.BranchesResemble ⟨label, label', false⟩ binders
        ((condition, clause) :: branches) ((condition', clause') :: branches'))
      (rest : Node.ResembleIfAny (⟨label, label', false⟩ :: binders) otherwise otherwise') :
      Shape.Resembles binders (.conditional label condition clause branches otherwise)
        (.conditional label' condition' clause' branches' otherwise')
  | function {binders : List Binder} {parameters parameters' : List Parameter}
      {body body' : List Node}
      (each : Parameter.Resemble binders parameters parameters')
      (bodies : Node.Resemble [] body body') :
      Shape.Resembles binders (.function parameters body) (.function parameters' body')
  | selection {binders : List Binder} {label label' : Option String} {subject subject' : Node}
      {candidates candidates' : List (Node × Node)} {otherwise otherwise' : Option Node}
      (subjects : Node.Resembles binders subject subject')
      (each : Node.BranchesResemble ⟨label, label', false⟩ binders candidates candidates')
      (rest : Node.ResembleIfAny (⟨label, label', false⟩ :: binders) otherwise otherwise') :
      Shape.Resembles binders (.selection label subject candidates otherwise)
        (.selection label' subject' candidates' otherwise')
  | block {binders : List Binder} {label label' : Option String}
      {statements statements' : List Node}
      (each : Node.Resemble (⟨label, label', false⟩ :: binders) statements statements') :
      Shape.Resembles binders (.block label statements) (.block label' statements')
  | existence {binders : List Binder} (name : String) :
      Shape.Resembles binders (.existence name) (.existence name)
  | template {binders : List Binder} {parts parts' : List Part}
      (each : Part.Resemble binders parts parts') :
      Shape.Resembles binders (.template parts) (.template parts')
  | str {binders : List Binder} (text : String) : Shape.Resembles binders (.str text) (.str text)
  | num {binders : List Binder} {number : Float} (written : numbers number) :
      Shape.Resembles binders (.num number) (.num number)
  | bool {binders : List Binder} (truth : Bool) :
      Shape.Resembles binders (.bool truth) (.bool truth)
  | null {binders : List Binder} : Shape.Resembles binders .null .null
  | obj {binders : List Binder} {entries entries' : List (String × Node)}
      (each : Node.EntriesResemble binders entries entries') :
      Shape.Resembles binders (.obj entries) (.obj entries')
  | arr {binders : List Binder} {items items' : List Node}
      (each : Node.Resemble binders items items') :
      Shape.Resembles binders (.arr items) (.arr items')
  | unary {binders : List Binder} {operator : UnaryOperator} {operand operand' : Node}
      (operands : Node.Resembles binders operand operand') :
      Shape.Resembles binders (.unary operator operand) (.unary operator operand')
  | binary {binders : List Binder} {operator : BinaryOperator} {left left' right right' : Node}
      (lefts : Node.Resembles binders left left')
      (rights : Node.Resembles binders right right') :
      Shape.Resembles binders (.binary operator left right) (.binary operator left' right')
  | logical {binders : List Binder} {operator : LogicalOperator} {left left' right right' : Node}
      (lefts : Node.Resembles binders left left')
      (rights : Node.Resembles binders right right') :
      Shape.Resembles binders (.logical operator left right) (.logical operator left' right')
  | identifier {binders : List Binder} (name : String) :
      Shape.Resembles binders (.identifier name) (.identifier name)
  | call {binders : List Binder} {callee callee' : Node} {arguments arguments' : List Node}
      (callees : Node.Resembles binders callee callee')
      (each : Node.Resemble binders arguments arguments') :
      Shape.Resembles binders (.call callee arguments) (.call callee' arguments')
  | index {binders : List Binder} {target target' place place' : Node}
      (targets : Node.Resembles binders target target')
      (places : Node.Resembles binders place place') :
      Shape.Resembles binders (.index target place) (.index target' place')
  | prop {binders : List Binder} {target target' : Node} {name : String}
      (targets : Node.Resembles binders target target') :
      Shape.Resembles binders (.prop target name) (.prop target' name)
  | erased {binders : List Binder} (type : ErasedType) :
      Shape.Resembles binders (.erased type) (.erased type)

/-- Lists of nodes that are the same but for labels. -/
inductive Node.Resemble : List Binder → List Node → List Node → Prop where
  | nil {binders : List Binder} : Node.Resemble binders [] []
  | cons {binders : List Binder} {node node' : Node} {rest rest' : List Node}
      (first : Node.Resembles binders node node')
      (others : Node.Resemble binders rest rest') :
      Node.Resemble binders (node :: rest) (node' :: rest')

/-- Named nodes that are the same but for labels. -/
inductive Node.EntriesResemble :
    List Binder → List (String × Node) → List (String × Node) → Prop where
  | nil {binders : List Binder} : Node.EntriesResemble binders [] []
  | cons {binders : List Binder} {name : String} {node node' : Node}
      {rest rest' : List (String × Node)}
      (first : Node.Resembles binders node node')
      (others : Node.EntriesResemble binders rest rest') :
      Node.EntriesResemble binders ((name, node) :: rest) ((name, node') :: rest')

/-- Conditions outside of a construct, and their clauses inside it. -/
inductive Node.BranchesResemble :
    Binder → List Binder → List (Node × Node) → List (Node × Node) → Prop where
  | nil {binder : Binder} {binders : List Binder} : Node.BranchesResemble binder binders [] []
  | cons {binder : Binder} {binders : List Binder} {condition condition' clause clause' : Node}
      {rest rest' : List (Node × Node)}
      (conditions : Node.Resembles binders condition condition')
      (clauses : Node.Resembles (binder :: binders) clause clause')
      (others : Node.BranchesResemble binder binders rest rest') :
      Node.BranchesResemble binder binders ((condition, clause) :: rest)
        ((condition', clause') :: rest')

/-- Nodes that are the same but for labels, or both missing. -/
inductive Node.ResembleIfAny : List Binder → Option Node → Option Node → Prop where
  | none {binders : List Binder} : Node.ResembleIfAny binders none none
  | some {binders : List Binder} {node node' : Node} (nodes : Node.Resembles binders node node') :
      Node.ResembleIfAny binders (some node) (some node')

/-- Parameters that are the same but for labels. -/
inductive Parameter.Resemble : List Binder → List Parameter → List Parameter → Prop where
  | nil {binders : List Binder} : Parameter.Resemble binders [] []
  | cons {binders : List Binder} {target target' : Node} {isOptional : Bool}
      {fallback fallback' : Option Node} {rest rest' : List Parameter}
      (targets : Node.Resembles binders target target')
      (fallbacks : Node.ResembleIfAny binders fallback fallback')
      (others : Parameter.Resemble binders rest rest') :
      Parameter.Resemble binders (.mk target isOptional fallback :: rest)
        (.mk target' isOptional fallback' :: rest')

/-- Parts of templates that are the same but for labels. -/
inductive Part.Resemble : List Binder → List Part → List Part → Prop where
  | nil {binders : List Binder} : Part.Resemble binders [] []
  | text {binders : List Binder} {content : String} {rest rest' : List Part}
      (others : Part.Resemble binders rest rest') :
      Part.Resemble binders (.text content :: rest) (.text content :: rest')
  | expression {binders : List Binder} {node node' : Node} {rest rest' : List Part}
      (first : Node.Resembles binders node node')
      (others : Part.Resemble binders rest rest') :
      Part.Resemble binders (.expression node :: rest) (.expression node' :: rest')

end

end

section

variable {numbers : Float → Prop} {binders : List Binder}

theorem Node.Resembles.shape {node other : Node}
    (nodes : node.Resembles numbers binders other) :
    node.shape.Resembles numbers binders other.shape := by
  cases nodes with
  | mk shapes => exact shapes

theorem Node.Resembles.start {node other : Node}
    (nodes : node.Resembles numbers binders other) :
    other.start = node.start := by
  cases nodes with
  | mk shapes => rfl

theorem Shape.Resembles.kind {shape other : Shape}
    (shapes : shape.Resembles numbers binders other) :
    other.kind = shape.kind := by
  cases shapes <;> rfl

theorem Node.Resembles.isStatement {node other : Node}
    (nodes : node.Resembles numbers binders other) :
    other.isStatement = node.isStatement :=
  congrArg Kind.isStatement nodes.shape.kind

/-- Parameters that resemble each other are shown alike. -/
theorem Parameter.Resemble.shownNames {parameters others : List Parameter}
    (each : Parameter.Resemble numbers binders parameters others) :
    others.map Parameter.shownName = parameters.map Parameter.shownName := by
  induction parameters generalizing others with
  | nil =>
      cases each
      rfl
  | cons parameter rest inductive_step =>
      cases each with
      | cons targets fallbacks others =>
          rw [List.map_cons, List.map_cons, inductive_step others]
          refine congrArg (· :: _) ?_
          cases targets with
          | mk shapes => cases shapes <;> rfl

end

/-! ## What is written in a script -/

section

variable {α : Type} (own : Shape → List α)

mutual

/-- What all the constructs of a node have of their own, one after the other. -/
def Node.gather : Node → List α
  | .mk shape _ => own shape ++ shape.gatherParts

/-- What all the constructs in the parts of a construct have of their own. -/
def Shape.gatherParts : Shape → List α
  | .namespaceBlock _ members => Node.gatherAll members
  | .metadata _ value => value.gather
  | .definition target value _ attributes =>
      target.gather ++ (value.gather ++ Node.gatherEntries attributes)
  | .returning value => value.gather
  | .each _ pattern items body => pattern.gather ++ (items.gather ++ body.gather)
  | .times _ count body => count.gather ++ body.gather
  | .range _ _ start count body => Node.gatherIfAny start ++ (count.gather ++ body.gather)
  | .loop _ statements => Node.gatherAll statements
  | .breaking _ value => Node.gatherIfAny value
  | .assign target value => target.gather ++ value.gather
  | .compound _ target value => target.gather ++ value.gather
  | .conditional _ condition clause branches otherwise =>
      (condition.gather ++ (clause.gather ++ Node.gatherBranches branches)) ++
        Node.gatherIfAny otherwise
  | .function parameters body => Parameter.gatherAll parameters ++ Node.gatherAll body
  | .selection _ subject candidates otherwise =>
      subject.gather ++ (Node.gatherBranches candidates ++ Node.gatherIfAny otherwise)
  | .block _ statements => Node.gatherAll statements
  | .template parts => Part.gatherAll parts
  | .obj entries => Node.gatherEntries entries
  | .arr items => Node.gatherAll items
  | .unary _ operand => operand.gather
  | .binary _ left right => left.gather ++ right.gather
  | .logical _ left right => left.gather ++ right.gather
  | .call callee arguments => callee.gather ++ Node.gatherAll arguments
  | .index target place => target.gather ++ place.gather
  | .prop target _ => target.gather
  | .continuing _ | .existence _ | .str _ | .num _ | .bool _ | .null | .identifier _
  | .erased _ => []

/-- What all the constructs of some nodes have of their own. -/
def Node.gatherAll : List Node → List α
  | [] => []
  | node :: rest => node.gather ++ Node.gatherAll rest

/-- What all the constructs of named nodes have of their own. -/
def Node.gatherEntries : List (String × Node) → List α
  | [] => []
  | (_, node) :: rest => node.gather ++ Node.gatherEntries rest

/-- What all the constructs of conditions and clauses have of their own. -/
def Node.gatherBranches : List (Node × Node) → List α
  | [] => []
  | (condition, clause) :: rest =>
      condition.gather ++ (clause.gather ++ Node.gatherBranches rest)

/-- What all the constructs of a node that may be missing have of their own. -/
def Node.gatherIfAny : Option Node → List α
  | none => []
  | some node => node.gather

/-- What all the constructs of parameters have of their own. -/
def Parameter.gatherAll : List Parameter → List α
  | [] => []
  | .mk target _ fallback :: rest =>
      target.gather ++ (Node.gatherIfAny fallback ++ Parameter.gatherAll rest)

/-- What all the constructs of a template have of their own. -/
def Part.gatherAll : List Part → List α
  | [] => []
  | .text _ :: rest => Part.gatherAll rest
  | .expression node :: rest => node.gather ++ Part.gatherAll rest

end

end

/-- The numbers written in a construct itself. -/
def Shape.ownNumbers : Shape → List Float
  | .num number => [number]
  | _ => []

/-- Every number written in some nodes is of a kind. -/
def Node.Write (numbers : Float → Prop) (nodes : List Node) : Prop :=
  ∀ number ∈ Node.gatherAll Shape.ownNumbers nodes, numbers number

section

variable {numbers : Float → Prop}

mutual

/-- A node resembles itself, if the numbers in it are of the kind. -/
theorem Node.resembles_self {binders : List Binder} (same : Binder.AreSame binders) :
    ∀ node : Node, (∀ number ∈ node.gather Shape.ownNumbers, numbers number) →
      node.Resembles numbers binders node
  | .mk shape span, written => by
      obtain ⟨own, parts⟩ := List.forall_mem_append.mp written
      exact .mk (Shape.resembles_self same shape own parts)

theorem Shape.resembles_self {binders : List Binder} (same : Binder.AreSame binders) :
    ∀ shape : Shape, (∀ number ∈ shape.ownNumbers, numbers number) →
      (∀ number ∈ shape.gatherParts Shape.ownNumbers, numbers number) →
        shape.Resembles numbers binders shape
  | .namespaceBlock _ members, _, written =>
      .namespaceBlock (Node.resemble_self same members written)
  | .metadata _ _, _, _ => .metadata
  | .definition target value _ attributes, _, written => by
      obtain ⟨inTarget, rest⟩ := List.forall_mem_append.mp written
      obtain ⟨inValue, inAttributes⟩ := List.forall_mem_append.mp rest
      exact .definition (Node.resembles_self same target inTarget)
        (Node.resembles_self same value inValue)
        (Node.entriesResemble_self same attributes inAttributes)
  | .returning value, _, written => .returning (Node.resembles_self same value written)
  | .each label pattern items body, _, written => by
      obtain ⟨inPattern, rest⟩ := List.forall_mem_append.mp written
      obtain ⟨inItems, inBody⟩ := List.forall_mem_append.mp rest
      exact .each (Node.resembles_self same pattern inPattern)
        (Node.resembles_self same items inItems)
        (Node.resembles_self (same.cons label true) body inBody)
  | .times label count body, _, written => by
      obtain ⟨inCount, inBody⟩ := List.forall_mem_append.mp written
      exact .times (Node.resembles_self same count inCount)
        (Node.resembles_self (same.cons label true) body inBody)
  | .range label _ start count body, _, written => by
      obtain ⟨inStart, rest⟩ := List.forall_mem_append.mp written
      obtain ⟨inCount, inBody⟩ := List.forall_mem_append.mp rest
      exact .range (Node.resembleIfAny_self same start inStart)
        (Node.resembles_self same count inCount)
        (Node.resembles_self (same.cons label true) body inBody)
  | .loop label statements, _, written =>
      .loop (Node.resemble_self (same.cons label true) statements written)
  | .breaking label value, _, written =>
      .breaking (same.referIfAny label) (Node.resembleIfAny_self same value written)
  | .continuing label, _, _ => .continuing (same.loops.referIfAny label)
  | .assign target value, _, written => by
      obtain ⟨inTarget, inValue⟩ := List.forall_mem_append.mp written
      exact .assign (Node.resembles_self same target inTarget)
        (Node.resembles_self same value inValue)
  | .compound _ target value, _, written => by
      obtain ⟨inTarget, inValue⟩ := List.forall_mem_append.mp written
      exact .compound (Node.resembles_self same target inTarget)
        (Node.resembles_self same value inValue)
  | .conditional label condition clause branches otherwise, _, written => by
      obtain ⟨inBranches, inOtherwise⟩ := List.forall_mem_append.mp written
      obtain ⟨inCondition, rest⟩ := List.forall_mem_append.mp inBranches
      obtain ⟨inClause, inRest⟩ := List.forall_mem_append.mp rest
      exact .conditional
        (.cons (Node.resembles_self same condition inCondition)
          (Node.resembles_self (same.cons label false) clause inClause)
          (Node.branchesResemble_self same label branches inRest))
        (Node.resembleIfAny_self (same.cons label false) otherwise inOtherwise)
  | .function parameters body, _, written => by
      obtain ⟨inParameters, inBody⟩ := List.forall_mem_append.mp written
      exact .function (Parameter.resemble_self same parameters inParameters)
        (Node.resemble_self (List.forall_mem_nil _) body inBody)
  | .selection label subject candidates otherwise, _, written => by
      obtain ⟨inSubject, rest⟩ := List.forall_mem_append.mp written
      obtain ⟨inCandidates, inOtherwise⟩ := List.forall_mem_append.mp rest
      exact .selection (Node.resembles_self same subject inSubject)
        (Node.branchesResemble_self same label candidates inCandidates)
        (Node.resembleIfAny_self (same.cons label false) otherwise inOtherwise)
  | .block label statements, _, written =>
      .block (Node.resemble_self (same.cons label false) statements written)
  | .existence name, _, _ => .existence name
  | .template parts, _, written => .template (Part.resemble_self same parts written)
  | .str text, _, _ => .str text
  | .num number, own, _ => .num (own number List.mem_cons_self)
  | .bool truth, _, _ => .bool truth
  | .null, _, _ => .null
  | .obj entries, _, written => .obj (Node.entriesResemble_self same entries written)
  | .arr items, _, written => .arr (Node.resemble_self same items written)
  | .unary _ operand, _, written => .unary (Node.resembles_self same operand written)
  | .binary _ left right, _, written => by
      obtain ⟨inLeft, inRight⟩ := List.forall_mem_append.mp written
      exact .binary (Node.resembles_self same left inLeft) (Node.resembles_self same right inRight)
  | .logical _ left right, _, written => by
      obtain ⟨inLeft, inRight⟩ := List.forall_mem_append.mp written
      exact .logical (Node.resembles_self same left inLeft)
        (Node.resembles_self same right inRight)
  | .identifier name, _, _ => .identifier name
  | .call callee arguments, _, written => by
      obtain ⟨inCallee, inArguments⟩ := List.forall_mem_append.mp written
      exact .call (Node.resembles_self same callee inCallee)
        (Node.resemble_self same arguments inArguments)
  | .index target place, _, written => by
      obtain ⟨inTarget, inPlace⟩ := List.forall_mem_append.mp written
      exact .index (Node.resembles_self same target inTarget)
        (Node.resembles_self same place inPlace)
  | .prop target _, _, written => .prop (Node.resembles_self same target written)
  | .erased type, _, _ => .erased type

theorem Node.resemble_self {binders : List Binder} (same : Binder.AreSame binders) :
    ∀ nodes : List Node, Node.Write numbers nodes → Node.Resemble numbers binders nodes nodes
  | [], _ => .nil
  | node :: rest, written => by
      obtain ⟨first, others⟩ := List.forall_mem_append.mp written
      exact .cons (Node.resembles_self same node first) (Node.resemble_self same rest others)

theorem Node.entriesResemble_self {binders : List Binder} (same : Binder.AreSame binders) :
    ∀ entries : List (String × Node),
      (∀ number ∈ Node.gatherEntries Shape.ownNumbers entries, numbers number) →
        Node.EntriesResemble numbers binders entries entries
  | [], _ => .nil
  | (_, node) :: rest, written => by
      obtain ⟨first, others⟩ := List.forall_mem_append.mp written
      exact .cons (Node.resembles_self same node first)
        (Node.entriesResemble_self same rest others)

theorem Node.branchesResemble_self {binders : List Binder} (same : Binder.AreSame binders)
    (label : Option String) :
    ∀ branches : List (Node × Node),
      (∀ number ∈ Node.gatherBranches Shape.ownNumbers branches, numbers number) →
        Node.BranchesResemble numbers ⟨label, label, false⟩ binders branches branches
  | [], _ => .nil
  | (condition, clause) :: rest, written => by
      obtain ⟨inCondition, further⟩ := List.forall_mem_append.mp written
      obtain ⟨inClause, others⟩ := List.forall_mem_append.mp further
      exact .cons (Node.resembles_self same condition inCondition)
        (Node.resembles_self (same.cons label false) clause inClause)
        (Node.branchesResemble_self same label rest others)

theorem Node.resembleIfAny_self {binders : List Binder} (same : Binder.AreSame binders) :
    ∀ node : Option Node,
      (∀ number ∈ Node.gatherIfAny Shape.ownNumbers node, numbers number) →
        Node.ResembleIfAny numbers binders node node
  | none, _ => .none
  | some node, written => .some (Node.resembles_self same node written)

theorem Parameter.resemble_self {binders : List Binder} (same : Binder.AreSame binders) :
    ∀ parameters : List Parameter,
      (∀ number ∈ Parameter.gatherAll Shape.ownNumbers parameters, numbers number) →
        Parameter.Resemble numbers binders parameters parameters
  | [], _ => .nil
  | .mk target _ fallback :: rest, written => by
      obtain ⟨inTarget, further⟩ := List.forall_mem_append.mp written
      obtain ⟨inFallback, others⟩ := List.forall_mem_append.mp further
      exact .cons (Node.resembles_self same target inTarget)
        (Node.resembleIfAny_self same fallback inFallback)
        (Parameter.resemble_self same rest others)

theorem Part.resemble_self {binders : List Binder} (same : Binder.AreSame binders) :
    ∀ parts : List Part,
      (∀ number ∈ Part.gatherAll Shape.ownNumbers parts, numbers number) →
        Part.Resemble numbers binders parts parts
  | [], _ => .nil
  | .text _ :: rest, written => .text (Part.resemble_self same rest written)
  | .expression node :: rest, written => by
      obtain ⟨first, others⟩ := List.forall_mem_append.mp written
      exact .expression (Node.resembles_self same node first)
        (Part.resemble_self same rest others)

end

end

end TreeScript
