import TreeScript.Proofs.Resemblance

/-!
# Relabelling a construct

A construct of a script can be given another label, together with the signals
that refer to it: each signal refers to the nearest construct around it, in the
same function body, that has its label and takes such signals.  If the new
label occurs nowhere in the script, then signals and constructs correspond as
before (`Node.resemble_relabelAll`): no construct in between takes a signal
that has the new label, and no other signal is taken by the construct.
-/

namespace TreeScript

/-! ## Places -/

/-- Where a construct is, if it is in some node: the numbers of the parts on the way to it. -/
abbrev Place := Option (List Nat)

namespace Place

/-- Where the construct is in a part. -/
def part (place : Place) (number : Nat) : Place :=
  match place with
  | some (first :: rest) => if first = number then some rest else none
  | _ => none

/-- The label of a construct, which is another one if the construct is the one at the place. -/
def relabel (fresh : String) (place : Place) (label : Option String) : Option String :=
  match place with
  | some [] => some fresh
  | _ => label

/-- A construct with its labels before and after. -/
def binder (fresh : String) (place : Place) (label : Option String) (isLoop : Bool) : Binder :=
  ⟨label, place.relabel fresh label, isLoop⟩

theorem isSome_of_part {place : Place} {number : Nat} (inside : (place.part number).isSome) :
    place.isSome := by
  unfold part at inside
  split at inside
  · rfl
  · cases inside

end Place

/-- What the nearest construct with a label is called now; a label of no construct stays. -/
def Binder.counterpart (binders : List Binder) (label : String) : String :=
  ((binders.find? fun binder => binder.label == some label).bind Binder.other).getD label

/-! ## Nodes -/

section

variable (fresh : String)

mutual

/-- Give the construct at a place in a node another label, inside some constructs. -/
def Node.relabel (place : Place) (binders : List Binder) : Node → Node
  | .mk shape span => .mk (shape.relabel place binders) span

/-- Give the construct at a place another label: this one, or one in its parts. -/
def Shape.relabel (place : Place) (binders : List Binder) : Shape → Shape
  | .namespaceBlock name members =>
      .namespaceBlock name (Node.relabelAll place 0 binders members)
  | .metadata name value => .metadata name (value.relabel (place.part 0) binders)
  | .definition target value isMutable attributes =>
      .definition (target.relabel (place.part 0) binders) (value.relabel (place.part 1) binders)
        isMutable (Node.relabelEntries place 2 binders attributes)
  | .returning value => .returning (value.relabel (place.part 0) binders)
  | .each label pattern items body =>
      .each (place.relabel fresh label) (pattern.relabel (place.part 0) binders)
        (items.relabel (place.part 1) binders)
        (body.relabel (place.part 2) (place.binder fresh label true :: binders))
  | .times label count body =>
      .times (place.relabel fresh label) (count.relabel (place.part 0) binders)
        (body.relabel (place.part 1) (place.binder fresh label true :: binders))
  | .range label counter start count body =>
      .range (place.relabel fresh label) counter
        (Node.relabelIfAny (place.part 0) binders start) (count.relabel (place.part 1) binders)
        (body.relabel (place.part 2) (place.binder fresh label true :: binders))
  | .loop label statements =>
      .loop (place.relabel fresh label)
        (Node.relabelAll place 0 (place.binder fresh label true :: binders) statements)
  | .breaking label value =>
      .breaking (label.map (Binder.counterpart binders))
        (Node.relabelIfAny (place.part 0) binders value)
  | .continuing label =>
      .continuing (label.map (Binder.counterpart (Binder.loops binders)))
  | .assign target value =>
      .assign (target.relabel (place.part 0) binders) (value.relabel (place.part 1) binders)
  | .compound operator target value =>
      .compound operator (target.relabel (place.part 0) binders)
        (value.relabel (place.part 1) binders)
  | .conditional label condition clause branches otherwise =>
      .conditional (place.relabel fresh label) (condition.relabel (place.part 0) binders)
        (clause.relabel (place.part 1) (place.binder fresh label false :: binders))
        (Node.relabelBranches place 3 (place.binder fresh label false) binders branches)
        (Node.relabelIfAny (place.part 2) (place.binder fresh label false :: binders) otherwise)
  | .function parameters body =>
      .function (Parameter.relabelAll (place.part 0) 0 binders parameters)
        (Node.relabelAll (place.part 1) 0 [] body)
  | .selection label subject candidates otherwise =>
      .selection (place.relabel fresh label) (subject.relabel (place.part 0) binders)
        (Node.relabelBranches place 2 (place.binder fresh label false) binders candidates)
        (Node.relabelIfAny (place.part 1) (place.binder fresh label false :: binders) otherwise)
  | .block label statements =>
      .block (place.relabel fresh label)
        (Node.relabelAll place 0 (place.binder fresh label false :: binders) statements)
  | .template parts => .template (Part.relabelAll place 0 binders parts)
  | .obj entries => .obj (Node.relabelEntries place 0 binders entries)
  | .arr items => .arr (Node.relabelAll place 0 binders items)
  | .unary operator operand => .unary operator (operand.relabel (place.part 0) binders)
  | .binary operator left right =>
      .binary operator (left.relabel (place.part 0) binders) (right.relabel (place.part 1) binders)
  | .logical operator left right =>
      .logical operator (left.relabel (place.part 0) binders)
        (right.relabel (place.part 1) binders)
  | .call callee arguments =>
      .call (callee.relabel (place.part 0) binders) (Node.relabelAll place 1 binders arguments)
  | .index target position =>
      .index (target.relabel (place.part 0) binders) (position.relabel (place.part 1) binders)
  | .prop target name => .prop (target.relabel (place.part 0) binders) name
  | .existence name => .existence name
  | .str text => .str text
  | .num number => .num number
  | .bool truth => .bool truth
  | .null => .null
  | .identifier name => .identifier name
  | .erased type => .erased type

/-- Relabel in nodes that are numbered from some number on. -/
def Node.relabelAll (place : Place) (number : Nat) (binders : List Binder) :
    List Node → List Node
  | [] => []
  | node :: rest =>
      node.relabel (place.part number) binders :: Node.relabelAll place (number + 1) binders rest

/-- Relabel in named nodes. -/
def Node.relabelEntries (place : Place) (number : Nat) (binders : List Binder) :
    List (String × Node) → List (String × Node)
  | [] => []
  | (name, node) :: rest =>
      (name, node.relabel (place.part number) binders) ::
        Node.relabelEntries place (number + 1) binders rest

/-- Relabel in conditions, which are outside of a construct, and in clauses, which are inside. -/
def Node.relabelBranches (place : Place) (number : Nat) (binder : Binder)
    (binders : List Binder) : List (Node × Node) → List (Node × Node)
  | [] => []
  | (condition, clause) :: rest =>
      (condition.relabel (place.part number) binders,
        clause.relabel (place.part (number + 1)) (binder :: binders)) ::
        Node.relabelBranches place (number + 2) binder binders rest

/-- Relabel in a node that may be missing. -/
def Node.relabelIfAny (place : Place) (binders : List Binder) : Option Node → Option Node
  | none => none
  | some node => some (node.relabel place binders)

/-- Relabel in parameters. -/
def Parameter.relabelAll (place : Place) (number : Nat) (binders : List Binder) :
    List Parameter → List Parameter
  | [] => []
  | .mk target isOptional fallback :: rest =>
      .mk (target.relabel (place.part number) binders) isOptional
          (Node.relabelIfAny (place.part (number + 1)) binders fallback) ::
        Parameter.relabelAll place (number + 2) binders rest

/-- Relabel in the parts of a template. -/
def Part.relabelAll (place : Place) (number : Nat) (binders : List Binder) :
    List Part → List Part
  | [] => []
  | .text content :: rest => .text content :: Part.relabelAll place (number + 1) binders rest
  | .expression node :: rest =>
      .expression (node.relabel (place.part number) binders) ::
        Part.relabelAll place (number + 1) binders rest

end

end

/-- The label of a construct or signal itself. -/
def Shape.ownLabels : Shape → List String
  | .each label _ _ _ | .times label _ _ | .range label _ _ _ _ | .loop label _
  | .breaking label _ | .continuing label | .conditional label _ _ _ _ | .selection label _ _ _
  | .block label _ => label.toList
  | _ => []

/-! ## Correspondence -/

/-- Constructs of which one at most has another label, unless that is for one further inside. -/
structure Binder.AreFit (fresh : String) (place : Place) (binders : List Binder) : Prop where
  apart : ∀ binder ∈ binders, binder.label ≠ some fresh
  each : ∀ binder ∈ binders, binder.other = binder.label ∨ binder.other = some fresh
  single : binders.Pairwise fun inner outer =>
    inner.other = inner.label ∨ outer.other = outer.label
  pending : place.isSome → AreSame binders

namespace Binder

variable {binders : List Binder} {label : String}

theorem counterpart_cons_self {binder : Binder} (own : binder.label = some label) :
    counterpart (binder :: binders) label = binder.other.getD label := by
  have taken : (binder.label == some label) = true := beq_iff_eq.mpr own
  simp only [counterpart, List.find?_cons, taken, Option.bind_some]

theorem counterpart_cons_of_ne {binder : Binder} (foreign : binder.label ≠ some label) :
    counterpart (binder :: binders) label = counterpart binders label := by
  have passed : (binder.label == some label) = false := beq_eq_false_iff_ne.mpr foreign
  simp only [counterpart, List.find?_cons, passed]

/-- Where all constructs keep their labels, the signals do as well. -/
theorem AreSame.counterpart_eq (same : AreSame binders) (label : String) :
    counterpart binders label = label := by
  induction binders with
  | nil => rfl
  | cons binder outer inductive_step =>
      obtain ⟨here, further⟩ := List.forall_mem_cons.mp same
      by_cases own : binder.label = some label
      · rw [counterpart_cons_self own, here, own]
        rfl
      · rw [counterpart_cons_of_ne own, inductive_step further]

end Binder

namespace Binder.AreFit

variable {fresh : String} {place : Place} {binders : List Binder}

theorem nil (fresh : String) (place : Place) : AreFit fresh place [] where
  apart := List.forall_mem_nil _
  each := List.forall_mem_nil _
  single := .nil
  pending _ := List.forall_mem_nil _

variable (fit : AreFit fresh place binders)

include fit

theorem part (number : Nat) : AreFit fresh (place.part number) binders where
  apart := fit.apart
  each := fit.each
  single := fit.single
  pending inside := fit.pending (Place.isSome_of_part inside)

theorem loops : AreFit fresh place (loops binders) where
  apart binder mem := fit.apart binder (List.mem_filter.mp mem).1
  each binder mem := fit.each binder (List.mem_filter.mp mem).1
  single := fit.single.filter _
  pending inside := (fit.pending inside).loops

/-- Inside of a construct, for one of its parts. -/
theorem enter {label : Option String} (unused : ∀ own ∈ label.toList, own ≠ fresh)
    (isLoop : Bool) (number : Nat) :
    AreFit fresh (place.part number) (place.binder fresh label isLoop :: binders) where
  apart := by
    refine List.forall_mem_cons.mpr ⟨fun taken => ?_, fit.apart⟩
    exact unused fresh (Option.mem_toList.mpr taken) rfl
  each := by
    refine List.forall_mem_cons.mpr ⟨?_, fit.each⟩
    unfold Place.binder Place.relabel
    split
    · exact .inr rfl
    · exact .inl rfl
  single := by
    refine List.pairwise_cons.mpr ⟨fun outer mem => ?_, fit.single⟩
    unfold Place.binder Place.relabel
    split
    · exact .inr (fit.pending rfl outer mem)
    · exact .inl rfl
  pending inside := by
    refine List.forall_mem_cons.mpr ⟨?_, fit.pending (Place.isSome_of_part inside)⟩
    unfold Place.binder Place.relabel
    split
    · cases inside
    · rfl

omit fit in
/-- A signal keeps its label or gets the new one. -/
theorem counterpart_eq (each : ∀ binder ∈ binders,
      binder.other = binder.label ∨ binder.other = some fresh) (label : String) :
    counterpart binders label = label ∨ counterpart binders label = fresh := by
  induction binders with
  | nil => exact .inl rfl
  | cons binder outer inductive_step =>
      obtain ⟨here, further⟩ := List.forall_mem_cons.mp each
      by_cases own : binder.label = some label
      · rw [counterpart_cons_self own]
        rcases here with kept | changed
        · exact .inl (by rw [kept, own]; rfl)
        · exact .inr (by rw [changed]; rfl)
      · rw [counterpart_cons_of_ne own]
        exact inductive_step further

omit fit in
/-- The new label of a signal refers to the counterpart of what its label referred to. -/
theorem refer_counterpart (apart : ∀ binder ∈ binders, binder.label ≠ some fresh)
    (each : ∀ binder ∈ binders, binder.other = binder.label ∨ binder.other = some fresh)
    (single : binders.Pairwise fun inner outer =>
      inner.other = inner.label ∨ outer.other = outer.label)
    {label : String} (unused : label ≠ fresh) :
    Refer binders label (counterpart binders label) := by
  induction binders with
  | nil => trivial
  | cons binder outer inductive_step =>
      obtain ⟨apartHere, apartFurther⟩ := List.forall_mem_cons.mp apart
      obtain ⟨here, further⟩ := List.forall_mem_cons.mp each
      obtain ⟨keeps, singleFurther⟩ := List.pairwise_cons.mp single
      by_cases own : binder.label = some label
      · rw [counterpart_cons_self own]
        refine .inl ⟨own, ?_⟩
        rcases here with kept | changed
        · rw [kept, own]
          rfl
        · rw [changed]
          rfl
      · rw [counterpart_cons_of_ne own]
        refine .inr ⟨own, ?_, inductive_step apartFurther further singleFurther⟩
        by_cases kept : binder.other = binder.label
        · -- The construct has an old label, which is neither the signal's nor the new one.
          rw [kept]
          rcases counterpart_eq further label with same | changed
          · rwa [same]
          · rwa [changed]
        · -- The construct has the new label, which nothing further out has.
          have same : AreSame outer := fun other mem => (keeps other mem).resolve_left kept
          rw [here.resolve_left kept, same.counterpart_eq]
          exact fun taken => unused (Option.some.inj taken).symm

/-- The signals of a construct's body correspond, if none has the new label. -/
theorem referIfAny {label : Option String} (unused : ∀ own ∈ label.toList, own ≠ fresh) :
    ReferIfAny binders label (label.map (counterpart binders)) := by
  cases label with
  | none => trivial
  | some label =>
      exact refer_counterpart fit.apart fit.each fit.single (unused label List.mem_cons_self)

end Binder.AreFit

section

variable {fresh : String}

mutual

/-- A node corresponds to what comes of it, if the new label is not in it. -/
theorem Node.resembles_relabel {place : Place} {binders : List Binder}
    (fit : Binder.AreFit fresh place binders) :
    ∀ node : Node, (∀ label ∈ node.gather Shape.ownLabels, label ≠ fresh) →
      node.Resembles (fun _ => True) binders (node.relabel fresh place binders)
  | .mk shape span, unused => by
      obtain ⟨own, parts⟩ := List.forall_mem_append.mp unused
      exact .mk (Shape.resembles_relabel fit shape own parts)

theorem Shape.resembles_relabel {place : Place} {binders : List Binder}
    (fit : Binder.AreFit fresh place binders) :
    ∀ shape : Shape, (∀ label ∈ shape.ownLabels, label ≠ fresh) →
      (∀ label ∈ shape.gatherParts Shape.ownLabels, label ≠ fresh) →
        shape.Resembles (fun _ => True) binders (shape.relabel fresh place binders)
  | .namespaceBlock _ members, _, unused =>
      .namespaceBlock (Node.resemble_relabelAll fit.part 0 members unused)
  | .metadata _ _, _, _ => .metadata
  | .definition target value _ attributes, _, unused => by
      obtain ⟨inTarget, rest⟩ := List.forall_mem_append.mp unused
      obtain ⟨inValue, inAttributes⟩ := List.forall_mem_append.mp rest
      exact .definition (Node.resembles_relabel (fit.part 0) target inTarget)
        (Node.resembles_relabel (fit.part 1) value inValue)
        (Node.entriesResemble_relabel fit.part 2 attributes inAttributes)
  | .returning value, _, unused =>
      .returning (Node.resembles_relabel (fit.part 0) value unused)
  | .each label pattern items body, own, unused => by
      obtain ⟨inPattern, rest⟩ := List.forall_mem_append.mp unused
      obtain ⟨inItems, inBody⟩ := List.forall_mem_append.mp rest
      exact .each (Node.resembles_relabel (fit.part 0) pattern inPattern)
        (Node.resembles_relabel (fit.part 1) items inItems)
        (Node.resembles_relabel (fit.enter own true 2) body inBody)
  | .times label count body, own, unused => by
      obtain ⟨inCount, inBody⟩ := List.forall_mem_append.mp unused
      exact .times (Node.resembles_relabel (fit.part 0) count inCount)
        (Node.resembles_relabel (fit.enter own true 1) body inBody)
  | .range label _ start count body, own, unused => by
      obtain ⟨inStart, rest⟩ := List.forall_mem_append.mp unused
      obtain ⟨inCount, inBody⟩ := List.forall_mem_append.mp rest
      exact .range (Node.resembleIfAny_relabel (fit.part 0) start inStart)
        (Node.resembles_relabel (fit.part 1) count inCount)
        (Node.resembles_relabel (fit.enter own true 2) body inBody)
  | .loop label statements, own, unused =>
      .loop (Node.resemble_relabelAll (fit.enter own true) 0 statements unused)
  | .breaking label value, own, unused =>
      .breaking (fit.referIfAny own) (Node.resembleIfAny_relabel (fit.part 0) value unused)
  | .continuing label, own, _ => .continuing (fit.loops.referIfAny own)
  | .assign target value, _, unused => by
      obtain ⟨inTarget, inValue⟩ := List.forall_mem_append.mp unused
      exact .assign (Node.resembles_relabel (fit.part 0) target inTarget)
        (Node.resembles_relabel (fit.part 1) value inValue)
  | .compound _ target value, _, unused => by
      obtain ⟨inTarget, inValue⟩ := List.forall_mem_append.mp unused
      exact .compound (Node.resembles_relabel (fit.part 0) target inTarget)
        (Node.resembles_relabel (fit.part 1) value inValue)
  | .conditional label condition clause branches otherwise, own, unused => by
      obtain ⟨inBranches, inOtherwise⟩ := List.forall_mem_append.mp unused
      obtain ⟨inCondition, rest⟩ := List.forall_mem_append.mp inBranches
      obtain ⟨inClause, inRest⟩ := List.forall_mem_append.mp rest
      exact .conditional
        (.cons (Node.resembles_relabel (fit.part 0) condition inCondition)
          (Node.resembles_relabel (fit.enter own false 1) clause inClause)
          (Node.branchesResemble_relabel fit.part (fit.enter own false) 3 branches inRest))
        (Node.resembleIfAny_relabel (fit.enter own false 2) otherwise inOtherwise)
  | .function parameters body, _, unused => by
      obtain ⟨inParameters, inBody⟩ := List.forall_mem_append.mp unused
      exact .function (Parameter.resemble_relabelAll (fit.part 0).part 0 parameters inParameters)
        (Node.resemble_relabelAll (fun _ => .nil fresh _) 0 body inBody)
  | .selection label subject candidates otherwise, own, unused => by
      obtain ⟨inSubject, rest⟩ := List.forall_mem_append.mp unused
      obtain ⟨inCandidates, inOtherwise⟩ := List.forall_mem_append.mp rest
      exact .selection (Node.resembles_relabel (fit.part 0) subject inSubject)
        (Node.branchesResemble_relabel fit.part (fit.enter own false) 2 candidates inCandidates)
        (Node.resembleIfAny_relabel (fit.enter own false 1) otherwise inOtherwise)
  | .block label statements, own, unused =>
      .block (Node.resemble_relabelAll (fit.enter own false) 0 statements unused)
  | .existence name, _, _ => .existence name
  | .template parts, _, unused => .template (Part.resemble_relabelAll fit.part 0 parts unused)
  | .str text, _, _ => .str text
  | .num _, _, _ => .num trivial
  | .bool truth, _, _ => .bool truth
  | .null, _, _ => .null
  | .obj entries, _, unused => .obj (Node.entriesResemble_relabel fit.part 0 entries unused)
  | .arr items, _, unused => .arr (Node.resemble_relabelAll fit.part 0 items unused)
  | .unary _ operand, _, unused =>
      .unary (Node.resembles_relabel (fit.part 0) operand unused)
  | .binary _ left right, _, unused => by
      obtain ⟨inLeft, inRight⟩ := List.forall_mem_append.mp unused
      exact .binary (Node.resembles_relabel (fit.part 0) left inLeft)
        (Node.resembles_relabel (fit.part 1) right inRight)
  | .logical _ left right, _, unused => by
      obtain ⟨inLeft, inRight⟩ := List.forall_mem_append.mp unused
      exact .logical (Node.resembles_relabel (fit.part 0) left inLeft)
        (Node.resembles_relabel (fit.part 1) right inRight)
  | .identifier name, _, _ => .identifier name
  | .call callee arguments, _, unused => by
      obtain ⟨inCallee, inArguments⟩ := List.forall_mem_append.mp unused
      exact .call (Node.resembles_relabel (fit.part 0) callee inCallee)
        (Node.resemble_relabelAll fit.part 1 arguments inArguments)
  | .index target position, _, unused => by
      obtain ⟨inTarget, inPosition⟩ := List.forall_mem_append.mp unused
      exact .index (Node.resembles_relabel (fit.part 0) target inTarget)
        (Node.resembles_relabel (fit.part 1) position inPosition)
  | .prop target _, _, unused => .prop (Node.resembles_relabel (fit.part 0) target unused)
  | .erased type, _, _ => .erased type

theorem Node.resemble_relabelAll {place : Place} {binders : List Binder}
    (fits : ∀ number, Binder.AreFit fresh (place.part number) binders) (number : Nat) :
    ∀ nodes : List Node, (∀ label ∈ Node.gatherAll Shape.ownLabels nodes, label ≠ fresh) →
      Node.Resemble (fun _ => True) binders nodes
        (Node.relabelAll fresh place number binders nodes)
  | [], _ => .nil
  | node :: rest, unused => by
      obtain ⟨first, others⟩ := List.forall_mem_append.mp unused
      exact .cons (Node.resembles_relabel (fits number) node first)
        (Node.resemble_relabelAll fits (number + 1) rest others)

theorem Node.entriesResemble_relabel {place : Place} {binders : List Binder}
    (fits : ∀ number, Binder.AreFit fresh (place.part number) binders) (number : Nat) :
    ∀ entries : List (String × Node),
      (∀ label ∈ Node.gatherEntries Shape.ownLabels entries, label ≠ fresh) →
        Node.EntriesResemble (fun _ => True) binders entries
          (Node.relabelEntries fresh place number binders entries)
  | [], _ => .nil
  | (_, node) :: rest, unused => by
      obtain ⟨first, others⟩ := List.forall_mem_append.mp unused
      exact .cons (Node.resembles_relabel (fits number) node first)
        (Node.entriesResemble_relabel fits (number + 1) rest others)

theorem Node.branchesResemble_relabel {place : Place} {binder : Binder} {binders : List Binder}
    (outside : ∀ number, Binder.AreFit fresh (place.part number) binders)
    (inside : ∀ number, Binder.AreFit fresh (place.part number) (binder :: binders))
    (number : Nat) :
    ∀ branches : List (Node × Node),
      (∀ label ∈ Node.gatherBranches Shape.ownLabels branches, label ≠ fresh) →
        Node.BranchesResemble (fun _ => True) binder binders branches
          (Node.relabelBranches fresh place number binder binders branches)
  | [], _ => .nil
  | (condition, clause) :: rest, unused => by
      obtain ⟨inCondition, further⟩ := List.forall_mem_append.mp unused
      obtain ⟨inClause, others⟩ := List.forall_mem_append.mp further
      exact .cons (Node.resembles_relabel (outside number) condition inCondition)
        (Node.resembles_relabel (inside (number + 1)) clause inClause)
        (Node.branchesResemble_relabel outside inside (number + 2) rest others)

theorem Node.resembleIfAny_relabel {place : Place} {binders : List Binder}
    (fit : Binder.AreFit fresh place binders) :
    ∀ node : Option Node,
      (∀ label ∈ Node.gatherIfAny Shape.ownLabels node, label ≠ fresh) →
        Node.ResembleIfAny (fun _ => True) binders node
          (Node.relabelIfAny fresh place binders node)
  | none, _ => .none
  | some node, unused => .some (Node.resembles_relabel fit node unused)

theorem Parameter.resemble_relabelAll {place : Place} {binders : List Binder}
    (fits : ∀ number, Binder.AreFit fresh (place.part number) binders) (number : Nat) :
    ∀ parameters : List Parameter,
      (∀ label ∈ Parameter.gatherAll Shape.ownLabels parameters, label ≠ fresh) →
        Parameter.Resemble (fun _ => True) binders parameters
          (Parameter.relabelAll fresh place number binders parameters)
  | [], _ => .nil
  | .mk target _ fallback :: rest, unused => by
      obtain ⟨inTarget, further⟩ := List.forall_mem_append.mp unused
      obtain ⟨inFallback, others⟩ := List.forall_mem_append.mp further
      exact .cons (Node.resembles_relabel (fits number) target inTarget)
        (Node.resembleIfAny_relabel (fits (number + 1)) fallback inFallback)
        (Parameter.resemble_relabelAll fits (number + 2) rest others)

theorem Part.resemble_relabelAll {place : Place} {binders : List Binder}
    (fits : ∀ number, Binder.AreFit fresh (place.part number) binders) (number : Nat) :
    ∀ parts : List Part, (∀ label ∈ Part.gatherAll Shape.ownLabels parts, label ≠ fresh) →
      Part.Resemble (fun _ => True) binders parts
        (Part.relabelAll fresh place number binders parts)
  | [], _ => .nil
  | .text _ :: rest, unused => .text (Part.resemble_relabelAll fits (number + 1) rest unused)
  | .expression node :: rest, unused => by
      obtain ⟨first, others⟩ := List.forall_mem_append.mp unused
      exact .expression (Node.resembles_relabel (fits number) node first)
        (Part.resemble_relabelAll fits (number + 1) rest others)

end

/-- Give the construct at a place in a script another label. -/
def Node.relabelScript (fresh : String) (path : List Nat) (script : List Node) : List Node :=
  Node.relabelAll fresh (some path) 0 [] script

/-- A script corresponds to what comes of it, if the new label is not in it. -/
theorem Node.resemble_relabelScript {script : List Node}
    (unused : fresh ∉ Node.gatherAll Shape.ownLabels script) (path : List Nat) :
    Node.Resemble (fun _ => True) [] script (Node.relabelScript fresh path script) := by
  refine Node.resemble_relabelAll (fun _ => .nil fresh _) 0 script fun label mem => ?_
  rintro rfl
  exact unused mem

/-- The script `loop #a { loop #a { break #a } break #a }`. -/
def repeatedLabels : List Node :=
  [.mk (.loop (some "a")
    [.mk (.loop (some "a") [.mk (.breaking (some "a") none) default]) default,
      .mk (.breaking (some "a") none) default]) default]

/-- Of two loops with one label, one inside the other, each signal leaves the nearer. -/
example :
    Node.relabelScript "b" [0] repeatedLabels =
      [.mk (.loop (some "b")
        [.mk (.loop (some "a") [.mk (.breaking (some "a") none) default]) default,
          .mk (.breaking (some "b") none) default]) default] :=
  rfl

end

end TreeScript
