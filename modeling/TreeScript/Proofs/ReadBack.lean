import TreeScript.Syntax.Reading
import TreeScript.Syntax.Writing

/-!
# What is written is read back

`Node.reads_back_iff`: reading the JSON form of a script gives that script
again, for exactly the scripts that JSON can hold (`Node.areWritable`): number
literals are finite, and lines and columns are ordinals of the reader.

Both directions come from one equation, proved for every construct and every
list that a construct contains: reading what was written gives the tree back
on the condition that the tree is writable, and gives nothing otherwise
(`Reading.provided`).  The reader descends by a depth, so each equation holds
at every depth that the document does not exceed.
-/

namespace TreeScript

/-- Whether both parts of a position are below the limit of the reader. -/
def Position.isWritable (position : Position) : Bool :=
  position.line < Reading.ordinalLimit && position.column < Reading.ordinalLimit

/-- Whether both ends of a place are writable. -/
def Span.isWritable (span : Span) : Bool :=
  span.start.isWritable && span.finish.isWritable

mutual

/-- Whether JSON can hold a node: its numbers are finite and its places have ordinals. -/
def Node.isWritable : Node → Bool
  | .mk shape span => span.isWritable && shape.isWritable

/-- Whether JSON can hold a construct. -/
def Shape.isWritable : Shape → Bool
  | .namespaceBlock _ members => Node.areWritable members
  | .metadata _ value => value.isWritable
  | .definition target value _ attributes =>
      target.isWritable && value.isWritable && Node.entriesAreWritable attributes
  | .returning value => value.isWritable
  | .each _ pattern items body => pattern.isWritable && items.isWritable && body.isWritable
  | .times _ count body => count.isWritable && body.isWritable
  | .range _ _ start count body =>
      Node.isWritableIfAny start && count.isWritable && body.isWritable
  | .loop _ statements => Node.areWritable statements
  | .breaking _ value => Node.isWritableIfAny value
  | .assign target value => target.isWritable && value.isWritable
  | .compound _ target value => target.isWritable && value.isWritable
  | .conditional _ condition clause branches otherwise =>
      condition.isWritable && clause.isWritable && Node.pairsAreWritable branches &&
        Node.isWritableIfAny otherwise
  | .function parameters body => Parameter.areWritable parameters && Node.areWritable body
  | .selection _ subject cases otherwise =>
      subject.isWritable && Node.pairsAreWritable cases && Node.isWritableIfAny otherwise
  | .block _ statements => Node.areWritable statements
  | .template parts => Part.areWritable parts
  | .num number => number.isFinite
  | .obj entries => Node.entriesAreWritable entries
  | .arr items => Node.areWritable items
  | .unary _ operand => operand.isWritable
  | .binary _ left right => left.isWritable && right.isWritable
  | .logical _ left right => left.isWritable && right.isWritable
  | .call callee arguments => callee.isWritable && Node.areWritable arguments
  | .index target place => target.isWritable && place.isWritable
  | .prop target _ => target.isWritable
  | .continuing _ | .existence _ | .str _ | .bool _ | .null | .identifier _ | .erased _ => true

/-- Whether JSON can hold every node of a list. -/
def Node.areWritable : List Node → Bool
  | [] => true
  | node :: rest => node.isWritable && Node.areWritable rest

/-- Whether JSON can hold every named node of a list. -/
def Node.entriesAreWritable : List (String × Node) → Bool
  | [] => true
  | (_, node) :: rest => node.isWritable && Node.entriesAreWritable rest

/-- Whether JSON can hold every pair of nodes of a list. -/
def Node.pairsAreWritable : List (Node × Node) → Bool
  | [] => true
  | (first, second) :: rest =>
      first.isWritable && second.isWritable && Node.pairsAreWritable rest

/-- Whether JSON can hold a node that may be missing. -/
def Node.isWritableIfAny : Option Node → Bool
  | none => true
  | some node => node.isWritable

/-- Whether JSON can hold every parameter of a list. -/
def Parameter.areWritable : List Parameter → Bool
  | [] => true
  | .mk target _ fallback :: rest =>
      target.isWritable && Node.isWritableIfAny fallback && Parameter.areWritable rest

/-- Whether JSON can hold every piece of a template. -/
def Part.areWritable : List Part → Bool
  | [] => true
  | .text _ :: rest => Part.areWritable rest
  | .expression node :: rest => node.isWritable && Part.areWritable rest

end

namespace Reading

section Provided

variable {α β : Type}

/-- A result that is given on a condition. -/
def provided (condition : Bool) (result : α) : Option α :=
  if condition then some result else none

@[simp]
theorem provided_true (result : α) : provided true result = some result := rfl

@[simp]
theorem if_some (condition : Prop) [Decidable condition] (result : α) :
    (if condition then some result else none) = provided (decide condition) result := by
  by_cases holds : condition
  · rw [if_pos holds, decide_eq_true holds]
    rfl
  · rw [if_neg holds, decide_eq_false holds]
    rfl

@[simp]
theorem if_provided (condition : Prop) [Decidable condition] (further : Bool) (result : α) :
    (if condition then provided further result else none) =
      provided (decide condition && further) result := by
  by_cases holds : condition
  · rw [if_pos holds, decide_eq_true holds, Bool.true_and]
  · rw [if_neg holds, decide_eq_false holds]
    rfl

@[simp]
theorem provided_bind (condition : Bool) (result : α) (next : α → Option β) :
    (provided condition result).bind next = if condition then next result else none := by
  cases condition <;> rfl

@[simp]
theorem map_provided (condition : Bool) (result : α) (change : α → β) :
    (provided condition result).map change = provided condition (change result) := by
  cases condition <;> rfl

theorem provided_eq_some_iff (condition : Bool) (result : α) :
    provided condition result = some result ↔ condition = true := by
  cases condition
  · exact ⟨nofun, nofun⟩
  · exact ⟨fun _ => rfl, fun _ => rfl⟩

end Provided

/-- The tag of a kind is not the tag of another. -/
theorem kind?_name (kind : Kind) : kind? (.str kind.name) = some kind := by
  cases kind with
  | compound operator => cases operator <;> decide
  | unary operator => cases operator <;> decide
  | binary operator => cases operator <;> decide
  | logical operator => cases operator <;> decide
  | erased type => cases type <;> decide
  | _ => decide

theorem ordinal?_natural (ordinal : Nat) :
    ordinal? (.num (.natural ordinal)) = provided (ordinal < ordinalLimit) ordinal := by
  simp [ordinal?]

attribute [local simp] required? optional? Document.named

theorem position?_position (place : Position) :
    position? (Writing.position place) = provided place.isWritable place := by
  simp [position?, Writing.position, ordinal?_natural, Position.isWritable]

theorem span?_span (place : Span) :
    span? (Writing.span place) = provided place.isWritable place := by
  simp [span?, Writing.span, position?_position, Span.isWritable]

theorem number?_number (literal : Float) :
    number? (Writing.number literal) = provided literal.isFinite literal := by
  unfold Writing.number
  cases literal.isFinite <;> rfl

/-- Read null or what a reader reads. -/
def nullOr? {α : Type} (read : Document → Option α) : Document → Option (Option α)
  | .null => some none
  | document => (read document).map some

theorem nullable?_eq {α : Type} (read : Document → Option α) (members : Members)
    (name : String) :
    nullable? read members name =
      (optional? members name).bind fun found => (found.map (nullOr? read)).getD (some none) := by
  unfold nullable?
  cases optional? members name with
  | none => rfl
  | some found =>
    rcases found with _ | document
    · rfl
    · cases document with
      | null => rfl
      | _ => exact Option.map_eq_bind.symm

theorem nullOr?_optionalText (text : Option String) :
    nullOr? text? (Writing.optionalText text) = some text := by
  cases text <;> rfl

theorem list?_arr {α : Type} (read : Document → Option α) (items : List Document) :
    list? read (.arr items) = items.mapM read := rfl

-- From here on a construct is opened on both sides: as the writer lists its fields and as the
-- reader asks for them by name.
attribute [local simp] nullable?_eq nullOr?_optionalText list?_arr text? truth?
  shape? Shape.kind Shape.isWritable Writing.shape Writing.tagged
  Document.depth Document.depthMembers Document.depthItems

/-- No construct has a field by the name of the place, so the place is given once. -/
theorem named_loc (shape : Shape) (place : Document) :
    Document.named "loc" (Writing.shape shape ++ [("loc", place)]) = [place] := by
  cases shape <;> rfl

theorem depthMembers_append (first second : Members) :
    Document.depthMembers (first ++ second) =
      max (Document.depthMembers first) (Document.depthMembers second) := by
  induction first with
  | nil => simp
  | cons member rest ih =>
    obtain ⟨name, document⟩ := member
    simp [ih, Nat.max_assoc]

/-- No construct has a field by the name of the tag, so the tag is given once. -/
theorem named_type (shape : Shape) (place : Document) :
    Document.named "type" (Writing.shape shape ++ [("loc", place)]) = [.str shape.kind.name] := by
  cases shape <;> rfl

-- The induction is on the tree.  The depth goes down by one from a node to its construct, whatever
-- the nesting of arrays and objects in between, and omega settles that it suffices.
mutual

theorem nodeWithin?_node (depth : Nat) : ∀ node : Node, (Writing.node node).depth ≤ depth →
    nodeWithin? depth (Writing.node node) = provided node.isWritable node
  | .mk shape place, deep => by
      cases depth with
      | zero => simp [Writing.node] at deep
      | succ depth =>
        rw [Writing.node, Document.depth, depthMembers_append] at deep
        have readShape := shape?_shape depth (Writing.span place) shape (by omega)
        have readPlace : defaulted? span? default
            (Writing.shape shape ++ [("loc", Writing.span place)]) "loc" =
              provided place.isWritable place := by
          rw [defaulted?, optional?, named_loc]
          exact span?_span place
        have readKind : (required? (Writing.shape shape ++ [("loc", Writing.span place)])
            "type").bind kind? = some shape.kind := by
          rw [required?, named_type]
          exact kind?_name shape.kind
        have readNode : nodeWithin? (depth + 1) (Writing.node (.mk shape place)) =
            (provided place.isWritable place).bind fun place =>
              (provided shape.isWritable shape).bind fun shape => some (.mk shape place) := by
          rw [Writing.node, nodeWithin?, readPlace, readKind]
          exact congrArg _ (funext fun _ => congrArg (Option.bind · _) readShape)
        rw [readNode, provided_bind, provided_bind, if_some, if_provided, Node.isWritable,
          Bool.decide_eq_true, Bool.decide_eq_true]

theorem shape?_shape (depth : Nat) (place : Document) : ∀ shape : Shape,
    Document.depthMembers (Writing.shape shape) ≤ depth →
    shape? (nodeWithin? depth) (Writing.shape shape ++ [("loc", place)]) shape.kind =
      provided shape.isWritable shape
  | .namespaceBlock name members, deep => by
      simp at deep
      have readMembers := mapM_nodes depth members (by omega)
      simp [readMembers]
  | .metadata name value, deep => by
      simp at deep
      have readValue := nodeWithin?_node depth value (by omega)
      simp [readValue]
  | .definition target value isMutable attributes, deep => by
      simp at deep
      have readTarget := nodeWithin?_node depth target (by omega)
      have readValue := nodeWithin?_node depth value (by omega)
      have readAttributes := mapM_attributeList depth attributes (by omega)
      simp [readTarget, readValue, readAttributes, defaulted?, Bool.and_assoc]
  | .returning value, deep => by
      simp at deep
      have readValue := nodeWithin?_node depth value (by omega)
      simp [readValue]
  | .each label pattern items body, deep => by
      simp at deep
      have readPattern := nodeWithin?_node depth pattern (by omega)
      have readItems := nodeWithin?_node depth items (by omega)
      have readBody := nodeWithin?_node depth body (by omega)
      simp [readPattern, readItems, readBody, Bool.and_assoc]
  | .times label count body, deep => by
      simp at deep
      have readCount := nodeWithin?_node depth count (by omega)
      have readBody := nodeWithin?_node depth body (by omega)
      simp [readCount, readBody, header?, Bool.and_comm]
  | .range label counter start count body, deep => by
      simp at deep
      have readStart := nullOr?_optional depth start (by omega)
      have readCount := nodeWithin?_node depth count (by omega)
      have readBody := nodeWithin?_node depth body (by omega)
      simp [readStart, readCount, readBody, header?, Bool.and_comm]
  | .loop label statements, deep => by
      simp at deep
      have readStatements := mapM_nodes depth statements (by omega)
      simp [readStatements]
  | .breaking label value, deep => by
      simp at deep
      have readValue := nullOr?_optional depth value (by omega)
      simp [readValue]
  | .continuing label, deep => by simp
  | .assign target value, deep => by
      simp at deep
      have readTarget := nodeWithin?_node depth target (by omega)
      have readValue := nodeWithin?_node depth value (by omega)
      simp [readTarget, readValue]
  | .compound operator target value, deep => by
      simp at deep
      have readTarget := nodeWithin?_node depth target (by omega)
      have readValue := nodeWithin?_node depth value (by omega)
      simp [readTarget, readValue]
  | .conditional label condition clause branches otherwise, deep => by
      simp at deep
      have readCondition := nodeWithin?_node depth condition (by omega)
      have readClause := nodeWithin?_node depth clause (by omega)
      have readBranches := mapM_pairs depth "cond" "then" (by decide) branches (by omega)
      have readOtherwise := nullOr?_optional depth otherwise (by omega)
      simp [readCondition, readClause, readBranches, readOtherwise, defaulted?, Bool.and_assoc]
  | .function parameters body, deep => by
      simp at deep
      have readParameters := mapM_parameterList depth parameters (by omega)
      have readBody := mapM_nodes depth body (by omega)
      simp [readParameters, readBody]
  | .selection label subject cases otherwise, deep => by
      simp at deep
      have readSubject := nodeWithin?_node depth subject (by omega)
      have readCases := mapM_pairs depth "q" "a" (by decide) cases (by omega)
      have readOtherwise := nullOr?_optional depth otherwise (by omega)
      simp [readSubject, readCases, readOtherwise, Bool.and_assoc]
  | .block label statements, deep => by
      simp at deep
      have readStatements := mapM_nodes depth statements (by omega)
      simp [readStatements]
  | .existence name, deep => by simp
  | .template parts, deep => by
      simp at deep
      have readParts := mapM_partList depth parts (by omega)
      simp [readParts]
  | .str text, deep => by simp
  | .num literal, deep => by simp [number?_number]
  | .bool truth, deep => by simp
  | .null, deep => by simp
  | .obj entries, deep => by
      simp at deep
      have readEntries := mapM_entryList depth entries (by omega)
      simp [readEntries]
  | .arr items, deep => by
      simp at deep
      have readItems := mapM_nodes depth items (by omega)
      simp [readItems]
  | .unary operator operand, deep => by
      simp at deep
      have readOperand := nodeWithin?_node depth operand (by omega)
      simp [readOperand]
  | .binary operator left right, deep => by
      simp at deep
      have readLeft := nodeWithin?_node depth left (by omega)
      have readRight := nodeWithin?_node depth right (by omega)
      simp [readLeft, readRight]
  | .logical operator left right, deep => by
      simp at deep
      have readLeft := nodeWithin?_node depth left (by omega)
      have readRight := nodeWithin?_node depth right (by omega)
      simp [readLeft, readRight]
  | .identifier name, deep => by simp
  | .call callee arguments, deep => by
      simp at deep
      have readCallee := nodeWithin?_node depth callee (by omega)
      have readArguments := mapM_nodes depth arguments (by omega)
      simp [readCallee, readArguments]
  | .index target position, deep => by
      simp at deep
      have readTarget := nodeWithin?_node depth target (by omega)
      have readPosition := nodeWithin?_node depth position (by omega)
      simp [readTarget, readPosition]
  | .prop target name, deep => by
      simp at deep
      have readTarget := nodeWithin?_node depth target (by omega)
      simp [readTarget]
  | .erased type, deep => by simp

theorem mapM_nodes (depth : Nat) : ∀ nodes : List Node,
    Document.depthItems (Writing.nodes nodes) ≤ depth →
    (Writing.nodes nodes).mapM (nodeWithin? depth) = provided (Node.areWritable nodes) nodes
  | [], _ => rfl
  | node :: rest, deep => by
      simp [Writing.nodes] at deep
      have readNode := nodeWithin?_node depth node (by omega)
      have readRest := mapM_nodes depth rest (by omega)
      simp [Writing.nodes, Node.areWritable, readNode, readRest]

theorem nullOr?_optional (depth : Nat) : ∀ node : Option Node,
    (Writing.optional node).depth ≤ depth →
    nullOr? (nodeWithin? depth) (Writing.optional node) =
      provided (Node.isWritableIfAny node) node
  | none, _ => rfl
  | some (.mk shape place), deep => by
      have readNode := nodeWithin?_node depth (.mk shape place) deep
      have written : nullOr? (nodeWithin? depth) (Writing.optional (some (.mk shape place))) =
        (nodeWithin? depth (Writing.node (.mk shape place))).map some := rfl
      rw [written, readNode]
      simp [Node.isWritableIfAny]

theorem mapM_attributeList (depth : Nat) : ∀ attributes : List (String × Node),
    Document.depthItems (Writing.attributeList attributes) ≤ depth →
    (Writing.attributeList attributes).mapM (attribute? (nodeWithin? depth)) =
      provided (Node.entriesAreWritable attributes) attributes
  | [], _ => rfl
  | (name, value) :: rest, deep => by
      simp [Writing.attributeList] at deep
      have readValue := nodeWithin?_node depth value (by omega)
      have readRest := mapM_attributeList depth rest (by omega)
      simp [Writing.attributeList, Node.entriesAreWritable, attribute?, readValue, readRest]

theorem mapM_entryList (depth : Nat) : ∀ entries : List (String × Node),
    Document.depthItems (Writing.entryList entries) ≤ depth →
    (Writing.entryList entries).mapM (namedNode? (nodeWithin? depth)) =
      provided (Node.entriesAreWritable entries) entries
  | [], _ => rfl
  | (name, value) :: rest, deep => by
      simp [Writing.entryList] at deep
      have readValue := nodeWithin?_node depth value (by omega)
      have readRest := mapM_entryList depth rest (by omega)
      simp [Writing.entryList, Node.entriesAreWritable, namedNode?, readValue, readRest]

theorem mapM_pairs (depth : Nat) (first second : String) (different : first ≠ second) :
    ∀ pairs : List (Node × Node),
    Document.depthItems (Writing.pairs first second pairs) ≤ depth →
    (Writing.pairs first second pairs).mapM (pair? (nodeWithin? depth) first second) =
      provided (Node.pairsAreWritable pairs) pairs
  | [], _ => rfl
  | (left, right) :: rest, deep => by
      simp [Writing.pairs] at deep
      have readLeft := nodeWithin?_node depth left (by omega)
      have readRight := nodeWithin?_node depth right (by omega)
      have readRest := mapM_pairs depth first second different rest (by omega)
      simp [Writing.pairs, Node.pairsAreWritable, pair?, different, different.symm, readLeft,
        readRight, readRest, Bool.and_assoc]

theorem mapM_parameterList (depth : Nat) : ∀ parameters : List Parameter,
    Document.depthItems (Writing.parameterList parameters) ≤ depth →
    (Writing.parameterList parameters).mapM (parameter? (nodeWithin? depth)) =
      provided (Parameter.areWritable parameters) parameters
  | [], _ => rfl
  | .mk target isOptional fallback :: rest, deep => by
      simp [Writing.parameterList] at deep
      have readTarget := nodeWithin?_node depth target (by omega)
      have readFallback := nullOr?_optional depth fallback (by omega)
      have readRest := mapM_parameterList depth rest (by omega)
      simp [Writing.parameterList, Parameter.areWritable, parameter?, defaulted?, readTarget,
        readFallback, readRest, Bool.and_assoc]

theorem mapM_partList (depth : Nat) : ∀ parts : List Part,
    Document.depthItems (Writing.partList parts) ≤ depth →
    (Writing.partList parts).mapM (part? (nodeWithin? depth)) =
      provided (Part.areWritable parts) parts
  | [], _ => rfl
  | .text content :: rest, deep => by
      simp [Writing.partList] at deep
      have readRest := mapM_partList depth rest (by omega)
      simp [Writing.partList, Part.areWritable, part?, readRest]
  | .expression (.mk shape place) :: rest, deep => by
      simp [Writing.partList] at deep
      have readNode := nodeWithin?_node depth (.mk shape place) (by omega)
      have readRest := mapM_partList depth rest (by omega)
      have written : part? (nodeWithin? depth) (Writing.node (.mk shape place)) =
        (nodeWithin? depth (Writing.node (.mk shape place))).map .expression := rfl
      simp [Writing.partList, Part.areWritable, written, readNode, readRest]

end

end Reading

/--
Reading the JSON form of a script gives the script back, for the scripts whose
number literals are finite and whose lines and columns are ordinals, and for
no others.
-/
theorem Node.reads_back_iff (script : List Node) :
    Node.listOfDocument? (Node.listToDocument script) = some script ↔
      Node.areWritable script = true := by
  have deep : Document.depthItems (Writing.nodes script) ≤
      (Node.listToDocument script).depth := by
    rw [Node.listToDocument, Document.depth]
    exact Nat.le_succ _
  have readScript : Node.listOfDocument? (Node.listToDocument script) =
      Reading.provided (Node.areWritable script) script :=
    Reading.mapM_nodes _ script deep
  rw [readScript]
  exact Reading.provided_eq_some_iff _ script

end TreeScript
