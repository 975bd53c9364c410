import Mathlib
import TreeScript.Syntax.Listing

/-!
# Listings are complete

A listing has one line for each node of a script, in the order in which a walk
through the tree meets them, and each of these lines is indented deeper than the
line of the node that it is a part of.  All other lines are titles: of the parts
of a construct, or the name of an entry or an attribute.

`Listing.Shows` says how the lines of a listing go together, by rules that do not
mention the constructs: which parts a construct has, and in which order, is said
by `Shape.members`, and which titles it has by `Shape.titles`.  So a part that the
listing forgets, shows twice or shows in another place has no derivation.
-/

namespace TreeScript

/-! ## The parts of a construct -/

/-- A piece of a template as a node, if it is an expression. -/
def Part.expression? : Part → Option Node
  | .text _ => none
  | .expression node => some node

/-- A piece of a template as a text, if it is one. -/
def Part.text? : Part → Option String
  | .text content => some content
  | .expression _ => none

namespace Shape

/-- The nodes that a construct is made of, in the order of the source text. -/
def members : Shape → List Node
  | .namespaceBlock _ members => members
  | .metadata _ value => [value]
  | .definition target value _ attributes => attributes.map Prod.snd ++ [target, value]
  | .returning value => [value]
  | .each _ pattern items body => [pattern, items, body]
  | .times _ count body => [count, body]
  | .range _ _ start count body => start.toList ++ [count, body]
  | .loop _ statements => statements
  | .breaking _ value => value.toList
  | .continuing _ => []
  | .assign target value => [target, value]
  | .compound _ target value => [target, value]
  | .conditional _ condition clause branches otherwise =>
      condition :: clause :: branches.flatMap (fun branch => [branch.1, branch.2])
        ++ otherwise.toList
  | .function parameters body =>
      parameters.flatMap (fun parameter => parameter.target :: parameter.fallback.toList) ++ body
  | .selection _ subject cases otherwise =>
      subject :: cases.flatMap (fun choice => [choice.1, choice.2]) ++ otherwise.toList
  | .block _ statements => statements
  | .existence _ => []
  | .template pieces => pieces.filterMap Part.expression?
  | .str _ => []
  | .num _ => []
  | .bool _ => []
  | .null => []
  | .obj entries => entries.map Prod.snd
  | .arr items => items
  | .unary _ operand => [operand]
  | .binary _ left right => [left, right]
  | .logical _ left right => [left, right]
  | .identifier _ => []
  | .call callee arguments => callee :: arguments
  | .index target place => [target, place]
  | .prop target _ => [target]
  | .erased _ => []

/-- The names and labels that a construct is written with. -/
def names : Shape → List String
  | .namespaceBlock name _ => [name]
  | .metadata name _ => name.toList
  | .definition _ _ _ attributes => attributes.map Prod.fst
  | .each label _ _ _ => label.toList
  | .times label _ _ => label.toList
  | .range label counter _ _ _ => label.toList ++ [counter]
  | .loop label _ => label.toList
  | .breaking label _ => label.toList
  | .continuing label => label.toList
  | .conditional label _ _ _ _ => label.toList
  | .selection label _ _ _ => label.toList
  | .block label _ => label.toList
  | .existence name => [name]
  | .obj entries => entries.map Prod.fst
  | .identifier name => [name]
  | .prop _ name => [name]
  | _ => []

/-- The titles that may stand among the parts of a construct. -/
def titles : Shape → List String
  | .namespaceBlock _ _ => ["Members:", "Members: (none)"]
  | .definition _ _ _ attributes => attributes.map fun held => "#[" ++ held.1 ++ "]"
  | .loop _ _ => ["Statements:", "Statements: (none)"]
  | .block _ _ => ["Statements:", "Statements: (none)"]
  | .conditional _ _ _ _ _ => ["elif:", "else:"]
  | .function _ _ =>
      ["Params:", "Params: (none)", "default:", "(optional)", "Body:", "Body: (none)"]
  | .selection _ _ _ _ => ["case:", "default:"]
  | .template pieces => (pieces.filterMap Part.text?).map Text.quoteVisibly
  | .obj entries => entries.map fun entry => entry.1 ++ ":"
  | .call _ _ => ["Args:", "Args: (none)"]
  | _ => []

section Sizes

variable {node : Node}

theorem sizeOf_lt_of_mem_pairs {pairs : List (Node × Node)}
    (member : node ∈ pairs.flatMap fun pair => [pair.1, pair.2]) : sizeOf node < sizeOf pairs := by
  obtain ⟨pair, inside, isPart⟩ := List.mem_flatMap.mp member
  have smaller := List.sizeOf_lt_of_mem inside
  have parts : sizeOf pair = 1 + sizeOf pair.1 + sizeOf pair.2 := rfl
  simp only [List.mem_cons, List.not_mem_nil, or_false] at isPart
  rcases isPart with rfl | rfl <;> omega

theorem sizeOf_lt_of_mem_named {named : List (String × Node)} (member : node ∈ named.map Prod.snd) :
    sizeOf node < sizeOf named := by
  obtain ⟨entry, inside, rfl⟩ := List.mem_map.mp member
  have smaller := List.sizeOf_lt_of_mem inside
  have parts : sizeOf entry = 1 + sizeOf entry.1 + sizeOf entry.2 := rfl
  omega

theorem sizeOf_lt_of_mem_toList {present : Option Node} (member : node ∈ present.toList) :
    sizeOf node < sizeOf present := by
  obtain rfl := Option.mem_toList.mp member
  rw [Option.some.sizeOf_spec]
  omega

theorem sizeOf_lt_of_mem_parameters {parameters : List Parameter}
    (member : node ∈ parameters.flatMap fun parameter =>
      parameter.target :: parameter.fallback.toList) :
    sizeOf node < sizeOf parameters := by
  obtain ⟨⟨target, isOptional, fallback⟩, inside, isPart⟩ := List.mem_flatMap.mp member
  have smaller := List.sizeOf_lt_of_mem inside
  rw [Parameter.mk.sizeOf_spec] at smaller
  rcases List.mem_cons.mp isPart with isTarget | isFallback
  · have same : node = target := isTarget
    rw [same]
    omega
  · have within : sizeOf node < sizeOf fallback := sizeOf_lt_of_mem_toList isFallback
    omega

theorem sizeOf_lt_of_mem_expressions {pieces : List Part}
    (member : node ∈ pieces.filterMap Part.expression?) : sizeOf node < sizeOf pieces := by
  obtain ⟨piece, inside, isExpression⟩ := List.mem_filterMap.mp member
  have smaller := List.sizeOf_lt_of_mem inside
  cases piece with
  | text content => cases isExpression
  | expression present =>
      obtain rfl := Option.some.inj isExpression
      rw [Part.expression.sizeOf_spec] at smaller
      omega

/-- What a construct is made of is smaller than the construct. -/
theorem sizeOf_lt_of_mem_members {shape : Shape} (member : node ∈ shape.members) :
    sizeOf node < sizeOf shape := by
  have listed {nodes : List Node} (member : node ∈ nodes) : sizeOf node < sizeOf nodes :=
    List.sizeOf_lt_of_mem member
  cases shape <;>
    simp only [members, List.mem_append, List.mem_cons, List.not_mem_nil, or_false] at member <;>
    grind [→ sizeOf_lt_of_mem_pairs, → sizeOf_lt_of_mem_named, → sizeOf_lt_of_mem_toList,
      → sizeOf_lt_of_mem_parameters, → sizeOf_lt_of_mem_expressions, namespaceBlock.sizeOf_spec,
      metadata.sizeOf_spec, definition.sizeOf_spec, returning.sizeOf_spec, each.sizeOf_spec,
      times.sizeOf_spec, range.sizeOf_spec, loop.sizeOf_spec, breaking.sizeOf_spec,
      assign.sizeOf_spec, compound.sizeOf_spec, conditional.sizeOf_spec, function.sizeOf_spec,
      selection.sizeOf_spec, block.sizeOf_spec, template.sizeOf_spec, obj.sizeOf_spec,
      arr.sizeOf_spec, unary.sizeOf_spec, binary.sizeOf_spec, logical.sizeOf_spec,
      call.sizeOf_spec, index.sizeOf_spec, prop.sizeOf_spec]

end Sizes

end Shape

namespace Node

/-- A node and all nodes inside of it, in the order of the source text. -/
def preorder (node : Node) : List Node :=
  node :: node.shape.members.attach.flatMap fun member => member.1.preorder
termination_by sizeOf node
decreasing_by
  have smaller := Shape.sizeOf_lt_of_mem_members member.2
  cases node
  simp only [shape_mk] at smaller
  rw [mk.sizeOf_spec]
  omega

theorem preorder_eq (node : Node) :
    node.preorder = node :: node.shape.members.flatMap preorder := by
  rw [preorder, List.flatMap_subtype fun _ _ => rfl, List.unattach_attach]

end Node

namespace Listing

/-! ## Lines of a listing -/

/--
The lines of nodes and of all that is inside of them, below a depth and with some
titles between them.
-/
inductive Shows : List String → Nat → List Node → List String → Prop where
  | nil {titles : List String} {above : Nat} : Shows titles above [] []
  /-- A title stands on a line of its own. -/
  | title {titles : List String} {above depth : Nat} {text : String} {nodes : List Node}
      {lines : List String} (listed : text ∈ titles) (shows : Shows titles above nodes lines) :
      Shows titles above nodes (line depth text :: lines)
  /-- A node stands below what it is a part of, with its own parts below it. -/
  | node {titles : List String} {above depth : Nat} {first : Node} {nodes : List Node}
      {inner lines : List String} (deeper : above < depth)
      (parts : Shows first.shape.titles depth first.shape.members inner)
      (shows : Shows titles above nodes lines) :
      Shows titles above (first :: nodes) (header depth first.shape first.start :: (inner ++ lines))

namespace Shows

variable {titles : List String} {above below : Nat} {nodes others : List Node}
variable {lines further : List String}

theorem append (shows : Shows titles above nodes lines)
    (shows' : Shows titles above others further) :
    Shows titles above (nodes ++ others) (lines ++ further) := by
  induction shows with
  | nil => exact shows'
  | title listed _ inductive_step => exact .title listed (inductive_step shows')
  | node deeper parts _ _ inductive_step =>
      rw [List.cons_append, List.cons_append, List.append_assoc]
      exact .node deeper parts (inductive_step shows')

theorem mono (shows : Shows titles below nodes lines) (ordered : above ≤ below) :
    Shows titles above nodes lines := by
  induction shows with
  | nil => exact .nil
  | title listed _ inductive_step => exact .title listed (inductive_step ordered)
  | node deeper parts _ _ inductive_step =>
      exact .node (Nat.lt_of_le_of_lt ordered deeper) parts (inductive_step ordered)

end Shows

mutual

theorem shows_node {titles : List String} {above depth : Nat} (deeper : above < depth) :
    ∀ present : Node, Shows titles above [present] (node depth present)
  | .mk shape span => by
      have shows : Shows titles above [.mk shape span]
          (header depth shape span.start :: (parts depth shape ++ [])) :=
        .node deeper (shows_parts depth shape) .nil
      rwa [List.append_nil] at shows

theorem shows_parts (depth : Nat) : ∀ shape : Shape,
    Shows shape.titles depth shape.members (parts depth shape)
  | .namespaceBlock _ members => shows_titled depth "Members" (by simp [Shape.titles]) members
  | .metadata _ value => shows_node (by omega) value
  | .definition target value _ attributes => by
      rw [parts, List.append_assoc]
      exact (shows_attributeLines depth attributes (List.Subset.refl _)).append
        ((shows_node (by omega) target).append
          (shows_node (by omega) value))
  | .returning value => shows_node (by omega) value
  | .each _ pattern items body =>
      ((shows_node (by omega) pattern).append
        (shows_node (by omega) items)).append
          (shows_node (by omega) body)
  | .times _ count body =>
      (shows_node (by omega) count).append
        (shows_node (by omega) body)
  | .range _ _ start count body => by
      rw [parts, List.append_assoc]
      exact (shows_optional (by omega) start).append
        ((shows_node (by omega) count).append
          (shows_node (by omega) body))
  | .loop _ statements => shows_titled depth "Statements" (by simp [Shape.titles]) statements
  | .block _ statements => shows_titled depth "Statements" (by simp [Shape.titles]) statements
  | .breaking _ value => shows_optional (by omega) value
  | .continuing _ => .nil
  | .assign target value =>
      (shows_node (by omega) target).append
        (shows_node (by omega) value)
  | .compound _ target value =>
      (shows_node (by omega) target).append
        (shows_node (by omega) value)
  | .conditional _ condition clause branches otherwise =>
      (((shows_node (by omega) condition).append
        (shows_node (by omega) clause)).append
          (shows_pairs depth "elif:" (by simp [Shape.titles]) branches)).append
            (shows_lastClause depth "else:" (by simp [Shape.titles]) otherwise)
  | .function parameters body => by
      refine Shows.append ?_ (shows_titled depth "Body" (by simp [Shape.titles]) body)
      by_cases empty : parameters.isEmpty
      · rw [if_pos empty, List.isEmpty_iff.mp empty]
        exact .title (by simp [Shape.titles]) .nil
      · rw [if_neg empty]
        exact .title (by simp [Shape.titles])
          (shows_parameterLines depth (by simp [Shape.titles]) parameters)
  | .selection _ subject cases otherwise =>
      ((shows_node (by omega) subject).append
        (shows_pairs depth "case:" (by simp [Shape.titles]) cases)).append
          (shows_lastClause depth "default:" (by simp [Shape.titles]) otherwise)
  | .existence _ => .nil
  | .template pieces => shows_pieceLines depth pieces (List.Subset.refl _)
  | .str _ => .nil
  | .num _ => .nil
  | .bool _ => .nil
  | .null => .nil
  | .obj entries => shows_entryLines depth entries (List.Subset.refl _)
  | .arr items => shows_nodes (by omega) items
  | .unary _ operand => shows_node (by omega) operand
  | .binary _ left right =>
      (shows_node (by omega) left).append
        (shows_node (by omega) right)
  | .logical _ left right =>
      (shows_node (by omega) left).append
        (shows_node (by omega) right)
  | .identifier _ => .nil
  | .call callee arguments =>
      (shows_node (by omega) callee).append
        (shows_titled depth "Args" (by simp [Shape.titles]) arguments)
  | .index target place =>
      (shows_node (by omega) target).append
        (shows_node (by omega) place)
  | .prop target _ => shows_node (by omega) target
  | .erased _ => .nil

theorem shows_nodes {titles : List String} {above depth : Nat} (deeper : above < depth) :
    ∀ present : List Node, Shows titles above present (nodes depth present)
  | [] => .nil
  | first :: rest => (shows_node deeper first).append (shows_nodes deeper rest)

theorem shows_titled {titles : List String} (depth : Nat) (title : String)
    (listed : [title ++ ":", title ++ ": (none)"] ⊆ titles) : ∀ present : List Node,
    Shows titles depth present (titled (depth + 1) title present)
  | [] => .title (listed (by simp)) .nil
  | first :: rest => .title (listed (by simp))
      ((shows_node (by omega) first).append (shows_nodes (by omega) rest))

theorem shows_optional {titles : List String} {above depth : Nat} (deeper : above < depth) :
    ∀ present : Option Node, Shows titles above present.toList (optional depth present)
  | none => .nil
  | some present => shows_node deeper present

theorem shows_lastClause {titles : List String} (depth : Nat) (title : String)
    (listed : title ∈ titles) : ∀ present : Option Node,
    Shows titles depth present.toList (lastClause depth title present)
  | none => .nil
  | some present => .title listed (shows_node (by omega) present)

theorem shows_pairs {titles : List String} (depth : Nat) (title : String)
    (listed : title ∈ titles) : ∀ present : List (Node × Node),
    Shows titles depth (present.flatMap fun pair => [pair.1, pair.2]) (pairs depth title present)
  | [] => .nil
  | (left, right) :: rest =>
      (Shows.title listed ((shows_node (by omega) left).append
        (shows_node (by omega) right))).append (shows_pairs depth title listed rest)

theorem shows_attributeLines {titles : List String} (depth : Nat) :
    ∀ present : List (String × Node),
    (present.map fun held => "#[" ++ held.1 ++ "]") ⊆ titles →
    Shows titles depth (present.map Prod.snd) (attributeLines depth present)
  | [], _ => .nil
  | (name, value) :: rest, listed =>
      (Shows.title (listed List.mem_cons_self) (shows_node (by omega) value)).append
        (shows_attributeLines depth rest (List.cons_subset.mp listed).2)

theorem shows_entryLines {titles : List String} (depth : Nat) :
    ∀ present : List (String × Node),
    (present.map fun entry => entry.1 ++ ":") ⊆ titles →
    Shows titles depth (present.map Prod.snd) (entryLines depth present)
  | [], _ => .nil
  | (name, value) :: rest, listed =>
      (Shows.title (listed List.mem_cons_self) (shows_node (by omega) value)).append
        (shows_entryLines depth rest (List.cons_subset.mp listed).2)

theorem shows_parameterLines {titles : List String} (depth : Nat)
    (listed : ["default:", "(optional)"] ⊆ titles) : ∀ present : List Parameter,
    Shows titles depth
      (present.flatMap fun parameter => parameter.target :: parameter.fallback.toList)
      (parameterLines depth present)
  | [] => .nil
  | .mk target isOptional fallback :: rest =>
      ((shows_node (by omega) target).append
        (shows_fallbackLines depth listed isOptional fallback)).append
          (shows_parameterLines depth listed rest)

theorem shows_fallbackLines {titles : List String} (depth : Nat)
    (listed : ["default:", "(optional)"] ⊆ titles) (isOptional : Bool) :
    ∀ present : Option Node,
    Shows titles depth present.toList (fallbackLines depth isOptional present)
  | none => by
      rw [fallbackLines]
      split
      · exact .title (listed (by simp)) .nil
      · exact .nil
  | some present => .title (listed (by simp)) (shows_node (by omega) present)

theorem shows_pieceLines {titles : List String} (depth : Nat) : ∀ present : List Part,
    (present.filterMap Part.text?).map Text.quoteVisibly ⊆ titles →
    Shows titles depth (present.filterMap Part.expression?) (pieceLines depth present)
  | [], _ => .nil
  | .text content :: rest, listed =>
      .title (listed List.mem_cons_self)
        (shows_pieceLines depth rest (List.cons_subset.mp listed).2)
  | .expression present :: rest, listed =>
      (shows_node (by omega) present).append (shows_pieceLines depth rest listed)

end

/-! ## Entries of a listing -/

/-- A line of a listing, with the node that it was written for if it is not a title. -/
structure Entry where
  depth : Nat
  text : String
  node? : Option Node

/-- What the line of a node says: its kind, its position and what its construct adds. -/
def heading (node : Node) : String :=
  node.kind.name ++ " @" ++ toString node.start.line ++ ":" ++ toString node.start.column
    ++ suffix node.shape

namespace Entry

/-- The line as it stands in the listing. -/
def line (entry : Entry) : String :=
  Listing.line entry.depth entry.text

/-- A line begins with two blanks for each level of its depth. -/
theorem toList_line (entry : Entry) :
    entry.line.toList = List.replicate (2 * entry.depth) ' ' ++ entry.text.toList := by
  rw [line, Listing.line, String.toList_append, String.toList_ofList]

/-- The node that a line was written for, with the depth of the line. -/
def heading? (entry : Entry) : Option (Nat × Node) :=
  entry.node?.map fun node => (entry.depth, node)

/-- The line of a node begins with its kind and position, and all other lines are titles. -/
def IsProper (isTitle : String → Prop) (entry : Entry) : Prop :=
  match entry.node? with
  | some node => entry.text = heading node
  | none => isTitle entry.text

theorem IsProper.mono {isTitle wider : String → Prop} {entry : Entry}
    (proper : entry.IsProper isTitle) (implied : ∀ text, isTitle text → wider text) :
    entry.IsProper wider := by
  unfold IsProper at proper ⊢
  split at proper
  · exact proper
  · exact implied _ proper

end Entry

/--
The nodes of trees in depth-first order, each with its depth: a node is deeper than
what it is a part of.
-/
inductive Outlines : Nat → List Node → List (Nat × Node) → Prop where
  | nil {above : Nat} : Outlines above [] []
  | cons {above depth : Nat} {node : Node} {rest : List Node} {inner others : List (Nat × Node)}
      (deeper : above < depth) (parts : Outlines depth node.shape.members inner)
      (siblings : Outlines above rest others) :
      Outlines above (node :: rest) ((depth, node) :: (inner ++ others))

/-- An outline has all nodes, each once and in the order of the source text. -/
theorem Outlines.map_snd {above : Nat} {nodes : List Node} {outline : List (Nat × Node)}
    (outlines : Outlines above nodes outline) :
    outline.map Prod.snd = nodes.flatMap Node.preorder := by
  induction outlines with
  | nil => rfl
  | cons _ _ _ parts siblings =>
      rw [List.map_cons, List.map_append, parts, siblings, List.flatMap_cons, Node.preorder_eq,
        List.cons_append]

/-- One of some titles, or a title of something inside of some nodes. -/
def IsTitleIn (titles : List String) (nodes : List Node) (text : String) : Prop :=
  text ∈ titles ∨ ∃ node ∈ nodes.flatMap Node.preorder, text ∈ node.shape.titles

/-- The lines of nodes are the headers of all that is in them, and titles. -/
theorem Shows.exists_entries {titles : List String} {above : Nat} {nodes : List Node}
    {lines : List String} (shows : Shows titles above nodes lines) :
    ∃ entries : List Entry, lines = entries.map Entry.line ∧
      Outlines above nodes (entries.filterMap Entry.heading?) ∧
        ∀ entry ∈ entries, entry.IsProper (IsTitleIn titles nodes) := by
  induction shows with
  | nil => exact ⟨[], rfl, .nil, nofun⟩
  | @title titles above depth text nodes lines listed _ inductive_step =>
      obtain ⟨entries, rfl, outlines, each⟩ := inductive_step
      exact ⟨⟨depth, text, none⟩ :: entries, rfl, outlines,
        List.forall_mem_cons.mpr ⟨.inl listed, each⟩⟩
  | @node titles above depth first nodes inner lines deeper _ _ parts siblings =>
      obtain ⟨entries, rfl, outlines, each⟩ := parts
      obtain ⟨entries', rfl, outlines', each'⟩ := siblings
      have within (text : String) :
          IsTitleIn first.shape.titles first.shape.members text →
            IsTitleIn titles (first :: nodes) text := by
        simp only [IsTitleIn, List.flatMap_cons, Node.preorder_eq first, List.mem_append,
          List.mem_cons]
        rintro (listed | ⟨owner, inside, listed⟩)
        · exact .inr ⟨first, .inl (.inl rfl), listed⟩
        · exact .inr ⟨owner, .inl (.inr inside), listed⟩
      have beside (text : String) :
          IsTitleIn titles nodes text → IsTitleIn titles (first :: nodes) text := by
        simp only [IsTitleIn, List.flatMap_cons, List.mem_append]
        exact Or.imp_right fun ⟨owner, inside, listed⟩ => ⟨owner, .inr inside, listed⟩
      refine ⟨⟨depth, heading first, some first⟩ :: (entries ++ entries'), ?_, ?_, ?_⟩
      · rw [List.map_cons, List.map_append]
        rfl
      · rw [List.filterMap_cons, List.filterMap_append]
        exact .cons deeper outlines outlines'
      · refine List.forall_mem_cons.mpr ⟨rfl, List.forall_mem_append.mpr ⟨?_, ?_⟩⟩
        · exact fun entry listed => (each entry listed).mono within
        · exact fun entry listed => (each' entry listed).mono beside

/-! ## Lines without line breaks -/

/-- A text that is written on one line. -/
def IsOneLine (text : String) : Prop :=
  '\n' ∉ text.toList

instance (text : String) : Decidable (IsOneLine text) :=
  inferInstanceAs (Decidable (¬ _))

namespace IsOneLine

theorem append {text other : String} (oneLine : IsOneLine text) (oneLine' : IsOneLine other) :
    IsOneLine (text ++ other) := by
  rw [IsOneLine, String.toList_append, List.mem_append]
  exact not_or.mpr ⟨oneLine, oneLine'⟩

theorem digits (number : Nat) {base : Nat} (atLeastTwo : 1 < base) (atMostSixteen : base ≤ 16) :
    '\n' ∉ Nat.toDigits base number := by
  have digitChar : ∀ digit < 16, Nat.digitChar digit ≠ '\n' := by decide
  have written {digit : Nat} (isDigit : digit < base) : '\n' ∉ [digit.digitChar] := by
    rw [List.mem_singleton]
    exact (digitChar digit (by omega)).symm
  induction number using Nat.strongRecOn with
  | ind number inductive_step =>
      rw [Nat.toDigits_eq_if atLeastTwo]
      split
      · exact written ‹_›
      · rw [List.mem_append]
        exact not_or.mpr ⟨inductive_step _ (Nat.div_lt_self (by omega) atLeastTwo),
          written (Nat.mod_lt _ (by omega))⟩

theorem ofList {characters : List Char} (absent : '\n' ∉ characters) :
    IsOneLine (String.ofList characters) := by
  rwa [IsOneLine, String.toList_ofList]

theorem toString (number : Nat) : IsOneLine (toString number) := by
  rw [Nat.toString_eq_repr, Nat.repr_eq_ofList_toDigits]
  exact ofList (digits number (by decide) (by decide))

theorem signed (negative : Bool) {text : String} (oneLine : IsOneLine text) :
    IsOneLine (Number.signed negative text) := by
  rw [Number.signed]
  split
  · exact .append (by decide) oneLine
  · exact oneLine

theorem zeros (count : Nat) : IsOneLine (Number.zeros count) :=
  ofList fun listed => absurd (List.eq_of_mem_replicate listed) (by decide)

theorem positional {digits : String} (oneLine : IsOneLine digits) (exponent : Int) :
    IsOneLine (Number.positional digits exponent) := by
  have part {characters : List Char} (within : characters ⊆ digits.toList) :
      IsOneLine (String.ofList characters) :=
    ofList fun listed => oneLine (within listed)
  rw [Number.positional]
  split
  · exact oneLine.append (zeros _)
  · dsimp only
    split
    · exact ((part (List.take_subset _ _)).append (by decide)).append (part (List.drop_subset _ _))
    · exact ((show IsOneLine "0." by decide).append (zeros _)).append oneLine

theorem plain (number : Float) : IsOneLine (Number.plain number) := by
  unfold Number.plain
  split
  · decide
  · exact signed _ (by decide)
  · split
    · exact signed _ (by decide)
    · exact signed _ (positional (toString _) _)

theorem escapeVisibly (character : Char) : IsOneLine (Text.escapeVisibly character) := by
  unfold Text.escapeVisibly
  split_ifs with quote backslash lineBreak
  · decide
  · decide
  · decide
  · decide
  · decide
  · decide
  · exact ((show IsOneLine "\\u\x7b" by decide).append
      (ofList (digits _ (by decide) (by decide)))).append (by decide)
  · exact ofList fun listed => lineBreak (beq_iff_eq.mpr (List.mem_singleton.mp listed).symm)

theorem quoteVisibly (text : String) : IsOneLine (Text.quoteVisibly text) := by
  have inside : IsOneLine (String.join (text.toList.map Text.escapeVisibly)) := by
    rw [IsOneLine, String.toList_join, List.mem_flatMap]
    rintro ⟨shown, listed, broken⟩
    obtain ⟨character, -, rfl⟩ := List.mem_map.mp listed
    exact escapeVisibly character broken
  exact ((show IsOneLine "\"" by decide).append inside).append (by decide)

theorem name (kind : Kind) : IsOneLine kind.name := by
  rcases kind with _ | _ | _ | _ | _ | _ | _ | _ | _ | _ | ⟨_ | _⟩ | _ | _ | _ | _ | _ | _ | _ | _ |
    _ | _ | _ | _ | ⟨_ | _ | _⟩ |
    ⟨_ | _ | _ | _ | _ | _ | _ | _ | _ | _ | _ | _⟩ | ⟨_ | _⟩ | _ | _ | _ | _ | ⟨_ | _ | _ | _⟩ <;>
    decide

theorem line {text : String} (oneLine : IsOneLine text) (depth : Nat) :
    IsOneLine (Listing.line depth text) :=
  (ofList fun listed => absurd (List.eq_of_mem_replicate listed) (by decide)).append oneLine

theorem labelSuffix {label : Option String} (oneLine : ∀ name ∈ label.toList, IsOneLine name) :
    IsOneLine (Listing.labelSuffix label) := by
  cases label with
  | none => decide
  | some label => exact .append (by decide) (oneLine label (by simp))

end IsOneLine

/-- What a construct adds to the line of its node is written on one line if its names are. -/
theorem isOneLine_suffix {shape : Shape} (oneLine : ∀ name ∈ shape.names, IsOneLine name) :
    IsOneLine (suffix shape) := by
  have spaced {text : String} (oneLine : IsOneLine text) : IsOneLine (" " ++ text) :=
    .append (by decide) oneLine
  cases shape with
  | namespaceBlock | existence | identifier => exact spaced (oneLine _ (by simp [Shape.names]))
  | prop => exact .append (by decide) (oneLine _ (by simp [Shape.names]))
  | metadata name value =>
      cases name with
      | none => exact spaced (by decide)
      | some name => exact spaced (oneLine name (by simp [Shape.names]))
  | definition target value isMutable attributes =>
      cases isMutable with
      | true => exact (show IsOneLine " var" by decide)
      | false => exact (show IsOneLine " let" by decide)
  | each | loop | block | breaking | continuing | conditional | selection =>
      exact .labelSuffix oneLine
  | times => exact (IsOneLine.labelSuffix oneLine).append (by decide)
  | range label counter start count body =>
      refine ((IsOneLine.labelSuffix fun name listed => ?_).append (by decide)).append ?_
      · exact oneLine name (by simp [Shape.names, Option.mem_toList.mp listed])
      · exact oneLine counter (by simp [Shape.names])
  | str text => exact spaced (.quoteVisibly text)
  | num number => exact spaced (.plain number)
  | bool truth =>
      cases truth with
      | true => exact (show IsOneLine " true" by decide)
      | false => exact (show IsOneLine " false" by decide)
  | _ => exact (by decide : IsOneLine "")

/-- The titles of a construct are written on one line each if its names are. -/
theorem isOneLine_titles {shape : Shape} (oneLine : ∀ name ∈ shape.names, IsOneLine name) :
    ∀ title ∈ shape.titles, IsOneLine title := by
  intro title listed
  have fixed (titles : List String) (each : ∀ title ∈ titles, IsOneLine title)
      (listed : title ∈ titles) : IsOneLine title := each title listed
  cases shape with
  | definition target value isMutable attributes =>
      obtain ⟨held, inside, rfl⟩ := List.mem_map.mp listed
      exact ((show IsOneLine "#[" by decide).append
        (oneLine _ (List.mem_map_of_mem inside))).append (by decide)
  | obj entries =>
      obtain ⟨entry, inside, rfl⟩ := List.mem_map.mp listed
      exact (oneLine _ (List.mem_map_of_mem inside)).append (by decide)
  | template pieces =>
      obtain ⟨content, -, rfl⟩ := List.mem_map.mp listed
      exact .quoteVisibly content
  | namespaceBlock => exact fixed ["Members:", "Members: (none)"] (by decide) listed
  | loop | block => exact fixed ["Statements:", "Statements: (none)"] (by decide) listed
  | conditional => exact fixed ["elif:", "else:"] (by decide) listed
  | function =>
      exact fixed ["Params:", "Params: (none)", "default:", "(optional)", "Body:", "Body: (none)"]
        (by decide) listed
  | selection => exact fixed ["case:", "default:"] (by decide) listed
  | call => exact fixed ["Args:", "Args: (none)"] (by decide) listed
  | _ => cases listed

theorem isOneLine_heading {node : Node} (oneLine : ∀ name ∈ node.shape.names, IsOneLine name) :
    IsOneLine (heading node) :=
  ((((IsOneLine.name _).append (by decide)).append (.toString _)).append (by decide)).append
    (.toString _) |>.append (isOneLine_suffix oneLine)

/-! ## Complete listings -/

theorem splitOn_join (lines : List String) (oneLine : ∀ text ∈ lines, IsOneLine text) :
    (String.join (lines.map fun text => text ++ "\n")).toList.splitOn '\n' =
      lines.map String.toList ++ [[]] := by
  have broken : (String.join (lines.map fun text => text ++ "\n")).toList =
      ['\n'].intercalate (lines.map String.toList ++ [[]]) := by
    clear oneLine
    induction lines with
    | nil => rfl
    | cons first rest inductive_step =>
        rw [List.map_cons, String.join_cons, String.toList_append, inductive_step, List.map_cons,
          List.cons_append, List.intercalate_cons_of_ne_nil (by simp), String.toList_append]
        rfl
  rw [broken]
  refine List.splitOn_intercalate _ ?_ (by simp)
  exact List.forall_mem_append.mpr ⟨List.forall_mem_map.mpr oneLine, by simp⟩

/-- The lines of a script are its title, the headers of all of its nodes, and their titles. -/
theorem exists_entries_of_script (script : List Node) :
    ∃ entries : List Entry, Node.listingLines script = entries.map Entry.line ∧
      entries.filterMap Entry.node? = script.flatMap Node.preorder ∧
      Outlines 0 script (entries.filterMap Entry.heading?) ∧
      ∀ entry ∈ entries, entry.IsProper (IsTitleIn ["Script:"] script) := by
  have shows : Shows ["Script:"] 0 script (Listing.nodes 1 script) :=
    shows_nodes Nat.one_pos script
  obtain ⟨entries, lines, outlines, each⟩ := shows.exists_entries
  refine ⟨⟨0, "Script:", none⟩ :: entries, ?_, ?_, outlines,
    List.forall_mem_cons.mpr ⟨.inl (List.mem_singleton_self _), each⟩⟩
  · rw [Node.listingLines, lines]
    rfl
  · rw [List.filterMap_cons, ← outlines.map_snd, List.map_filterMap]
    refine List.filterMap_congr fun entry _ => ?_
    rw [Entry.heading?, Option.map_map]
    exact Option.map_id'.symm

section OneLine

variable {script : List Node}
  (oneLine : ∀ node ∈ script.flatMap Node.preorder, ∀ name ∈ node.shape.names, IsOneLine name)

include oneLine

theorem IsTitleIn.isOneLine {text : String} (isTitle : IsTitleIn ["Script:"] script text) :
    IsOneLine text := by
  rcases isTitle with listed | ⟨node, inside, listed⟩
  · rw [List.mem_singleton.mp listed]
    decide
  · exact isOneLine_titles (oneLine node inside) text listed

theorem Entry.IsProper.isOneLine {entry : Entry}
    (proper : entry.IsProper (IsTitleIn ["Script:"] script))
    (isOf : ∀ node, entry.node? = some node → node ∈ script.flatMap Node.preorder) :
    IsOneLine entry.line := by
  refine .line ?_ entry.depth
  unfold Entry.IsProper at proper
  cases owner : entry.node? with
  | some node =>
      have text : entry.text = heading node := by simpa only [owner] using proper
      rw [text]
      exact isOneLine_heading (oneLine node (isOf node owner))
  | none =>
      have isTitle : IsTitleIn ["Script:"] script entry.text := by simpa only [owner] using proper
      exact isTitle.isOneLine oneLine

/--
The lines of a listing are those of the nodes of the script and titles.  There is
one line for each node, in the order of the source text.  It begins with two blanks
for each level of its depth, behind them stand the kind and the position of the node,
and it is deeper than the line of the node that this one is a part of.
-/
theorem listing_complete :
    ∃ entries : List Entry,
      (Node.listing script).toList.splitOn '\n' =
        entries.map (fun entry =>
          List.replicate (2 * entry.depth) ' ' ++ entry.text.toList) ++ [[]] ∧
      entries.filterMap Entry.node? = script.flatMap Node.preorder ∧
      Outlines 0 script (entries.filterMap Entry.heading?) ∧
      ∀ entry ∈ entries, entry.IsProper (IsTitleIn ["Script:"] script) := by
  obtain ⟨entries, lines, headings, outlines, each⟩ := exists_entries_of_script script
  refine ⟨entries, ?_, headings, outlines, each⟩
  rw [Node.listing, lines, splitOn_join, List.map_map]
  · refine congrArg (· ++ [[]]) (List.map_congr_left fun entry _ => ?_)
    exact entry.toList_line
  · refine List.forall_mem_map.mpr fun entry listed => ?_
    refine (each entry listed).isOneLine oneLine fun node owner => ?_
    rw [← headings]
    exact List.mem_filterMap.mpr ⟨entry, listed, owner⟩

end OneLine

/-- A function with a parameter that has a fallback, decorated, and called in a template. -/
def decoratedScript : List Node :=
  let place (line column : Nat) (shape : Shape) : Node := .mk shape ⟨⟨line, column⟩, ⟨line, column⟩⟩
  [place 2 1 (.definition (place 2 5 (.identifier "f"))
    (place 2 9 (.function [.mk (place 2 11 (.identifier "x")) true (some (place 2 15 (.num 0)))]
      [place 3 3 (.returning (place 3 10 (.identifier "x")))]))
    false [("note", place 1 3 (.str "a\nb"))]),
   place 5 1 (.template [.text "x is ",
    .expression (place 5 8 (.call (place 5 8 (.identifier "f")) []))])]

theorem listing_complete_decoratedScript :
    (∀ node ∈ decoratedScript.flatMap Node.preorder, ∀ name ∈ node.shape.names, IsOneLine name) ∧
    ∃ entries : List Entry,
      (Node.listing decoratedScript).toList.splitOn '\n' =
        entries.map (fun entry =>
          List.replicate (2 * entry.depth) ' ' ++ entry.text.toList) ++ [[]] ∧
      entries.filterMap Entry.node? = decoratedScript.flatMap Node.preorder ∧
      Outlines 0 decoratedScript (entries.filterMap Entry.heading?) ∧
      ∀ entry ∈ entries, entry.IsProper (IsTitleIn ["Script:"] decoratedScript) := by
  have oneLine : ∀ node ∈ decoratedScript.flatMap Node.preorder,
      ∀ name ∈ node.shape.names, IsOneLine name := by
    have preorder (shape : Shape) (span : Span) := Node.preorder_eq (.mk shape span)
    simp only [decoratedScript, preorder, Node.shape_mk, Shape.members, Parameter.target,
      Parameter.fallback, Part.expression?, List.map_cons, List.map_nil, List.filterMap_cons,
      List.filterMap_nil, Option.toList_some, List.flatMap_cons, List.flatMap_nil, List.cons_append,
      List.nil_append, List.append_nil, List.forall_mem_cons]
    simp only [Shape.names]
    decide
  exact ⟨oneLine, listing_complete oneLine⟩

end Listing

end TreeScript
