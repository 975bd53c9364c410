import TreeScript.Control

/-!
# Well-scoped scripts

A `return` needs a function around it, an unlabelled `break` or `continue` a
loop, and a labelled one a construct with its label.  What is around a node
begins anew in the body of every function; headers, conditions and subjects
are outside of the construct that they belong to, the fallbacks of parameters
are outside of the function, and the members of a namespace are outside of
everything.

A node is well-scoped if all signals under it have something to leave, and no
type annotation is left in it.  Nothing is asked of patterns, which are not
evaluated, nor of metadata.
-/

namespace TreeScript

/-- The constructs around a node, as far as it can leave them. -/
structure Enclosure where
  inFunction : Bool
  inLoop : Bool
  /-- The labels of the loops around the node. -/
  loops : List String
  /-- The labels of all the constructs around the node. -/
  labels : List String
  deriving DecidableEq, Repr

namespace Enclosure

/-- Outside of all constructs. -/
def script : Enclosure :=
  ⟨false, false, [], []⟩

/-- Directly inside a function. -/
def function : Enclosure :=
  ⟨true, false, [], []⟩

/-- Inside one more construct, which a `break` with its label leaves. -/
def labelled (label : Option String) (outer : Enclosure) : Enclosure :=
  { outer with labels := label.toList ++ outer.labels }

/-- Inside one more loop. -/
def loop (label : Option String) (outer : Enclosure) : Enclosure :=
  { outer.labelled label with inLoop := true, loops := label.toList ++ outer.loops }

/-- Whether there is something around a `break` for it to leave. -/
def admitsBreak (enclosure : Enclosure) : Option String → Bool
  | none => enclosure.inLoop
  | some label => enclosure.labels.contains label

/-- Whether there is a loop around a `continue` for it to go on with. -/
def admitsContinue (enclosure : Enclosure) : Option String → Bool
  | none => enclosure.inLoop
  | some label => enclosure.loops.contains label

/-- Whether a signal has something around it to leave. -/
def admits (enclosure : Enclosure) : Signal → Bool
  | .returning _ => enclosure.inFunction
  | .breaking label _ => enclosure.admitsBreak label
  | .continuing label => enclosure.admitsContinue label

/-- A label that is not that of the innermost construct is one further out. -/
theorem contains_of_ne {label : Option String} {target : String} {outer : List String}
    (listed : (label.toList ++ outer).contains target)
    (other : label ≠ some target) :
    outer.contains target := by
  rcases List.mem_append.mp (List.contains_iff_mem.mp listed) with own | further
  · exact (other (Option.mem_toList.mp own)).elim
  · exact List.contains_iff_mem.mpr further

/-- A `break` that is not that of a loop has something else around it to leave. -/
theorem admitsBreak_of_loop {enclosure : Enclosure} {label target : Option String}
    (admitted : (enclosure.loop label).admitsBreak target)
    (notOwn : Iteration.isOwn label target = false) :
    enclosure.admitsBreak target := by
  cases target with
  | none => cases notOwn
  | some target =>
      refine contains_of_ne admitted ?_
      intro own
      subst own
      simp [Iteration.isOwn] at notOwn

/-- A `continue` that is not that of a loop has another one around it. -/
theorem admitsContinue_of_loop {enclosure : Enclosure} {label target : Option String}
    (admitted : (enclosure.loop label).admitsContinue target)
    (notOwn : Iteration.isOwn label target = false) :
    enclosure.admitsContinue target := by
  cases target with
  | none => cases notOwn
  | some target =>
      refine contains_of_ne admitted ?_
      intro own
      subst own
      simp [Iteration.isOwn] at notOwn

/-- Nothing can be left outside of all constructs. -/
theorem not_admits_script (signal : Signal) : script.admits signal = false := by
  cases signal with
  | returning value => rfl
  | breaking label value => cases label <;> rfl
  | continuing label => cases label <;> rfl

end Enclosure

/-! ## The check -/

mutual

/-- Whether a node is well-scoped inside some constructs. -/
def Node.isWellScoped : Node → Enclosure → Bool
  | .mk shape _, enclosure => shape.isWellScoped enclosure

/-- Whether a construct is well-scoped inside some others. -/
def Shape.isWellScoped : Shape → Enclosure → Bool
  | .namespaceBlock _ members, _ => Node.areWellScoped members .script
  | .definition _ value _ attributes, enclosure =>
      value.isWellScoped enclosure && Node.entriesAreWellScoped attributes enclosure
  | .returning value, enclosure => enclosure.inFunction && value.isWellScoped enclosure
  | .each label _ items body, enclosure =>
      items.isWellScoped enclosure && body.isWellScoped (enclosure.loop label)
  | .times label count body, enclosure =>
      count.isWellScoped enclosure && body.isWellScoped (enclosure.loop label)
  | .range label _ start count body, enclosure =>
      Node.isWellScopedIfAny start enclosure && count.isWellScoped enclosure &&
        body.isWellScoped (enclosure.loop label)
  | .loop label statements, enclosure => Node.areWellScoped statements (enclosure.loop label)
  | .breaking label value, enclosure =>
      enclosure.admitsBreak label && Node.isWellScopedIfAny value enclosure
  | .continuing label, enclosure => enclosure.admitsContinue label
  | .assign target value, enclosure =>
      target.isWellScoped enclosure && value.isWellScoped enclosure
  | .compound _ target value, enclosure =>
      target.isWellScoped enclosure && value.isWellScoped enclosure
  | .conditional label condition clause branches otherwise, enclosure =>
      condition.isWellScoped enclosure && clause.isWellScoped (enclosure.labelled label) &&
        Node.branchesAreWellScoped branches label enclosure &&
        Node.isWellScopedIfAny otherwise (enclosure.labelled label)
  | .function parameters body, enclosure =>
      Parameter.areWellScoped parameters enclosure && Node.areWellScoped body .function
  | .selection label subject cases otherwise, enclosure =>
      subject.isWellScoped enclosure && Node.branchesAreWellScoped cases label enclosure &&
        Node.isWellScopedIfAny otherwise (enclosure.labelled label)
  | .block label statements, enclosure =>
      Node.areWellScoped statements (enclosure.labelled label)
  | .template parts, enclosure => Part.areWellScoped parts enclosure
  | .obj entries, enclosure => Node.entriesAreWellScoped entries enclosure
  | .arr items, enclosure => Node.areWellScoped items enclosure
  | .unary _ operand, enclosure => operand.isWellScoped enclosure
  | .binary _ left right, enclosure =>
      left.isWellScoped enclosure && right.isWellScoped enclosure
  | .logical _ left right, enclosure =>
      left.isWellScoped enclosure && right.isWellScoped enclosure
  | .call callee arguments, enclosure =>
      callee.isWellScoped enclosure && Node.areWellScoped arguments enclosure
  | .index target place, enclosure =>
      target.isWellScoped enclosure && place.isWellScoped enclosure
  | .prop target _, enclosure => target.isWellScoped enclosure
  | .erased _, _ => false
  | .metadata _ _, _ | .existence _, _ | .str _, _ | .num _, _ | .bool _, _ | .null, _
  | .identifier _, _ => true

/-- Whether all of some nodes are well-scoped. -/
def Node.areWellScoped : List Node → Enclosure → Bool
  | [], _ => true
  | node :: rest, enclosure =>
      node.isWellScoped enclosure && Node.areWellScoped rest enclosure

/-- Whether the nodes of named entries are well-scoped. -/
def Node.entriesAreWellScoped : List (String × Node) → Enclosure → Bool
  | [], _ => true
  | (_, node) :: rest, enclosure =>
      node.isWellScoped enclosure && Node.entriesAreWellScoped rest enclosure

/-- Whether conditions are well-scoped outside of a construct, and their clauses inside it. -/
def Node.branchesAreWellScoped :
    List (Node × Node) → Option String → Enclosure → Bool
  | [], _, _ => true
  | (condition, clause) :: rest, label, enclosure =>
      condition.isWellScoped enclosure && clause.isWellScoped (enclosure.labelled label) &&
        Node.branchesAreWellScoped rest label enclosure

/-- Whether a node that may be missing is well-scoped. -/
def Node.isWellScopedIfAny : Option Node → Enclosure → Bool
  | none, _ => true
  | some node, enclosure => node.isWellScoped enclosure

/-- Whether the fallbacks of parameters are well-scoped. -/
def Parameter.areWellScoped : List Parameter → Enclosure → Bool
  | [], _ => true
  | .mk _ _ fallback :: rest, enclosure =>
      Node.isWellScopedIfAny fallback enclosure && Parameter.areWellScoped rest enclosure

/-- Whether the expressions of a template are well-scoped. -/
def Part.areWellScoped : List Part → Enclosure → Bool
  | [], _ => true
  | .text _ :: rest, enclosure => Part.areWellScoped rest enclosure
  | .expression node :: rest, enclosure =>
      node.isWellScoped enclosure && Part.areWellScoped rest enclosure

end

theorem Node.areWellScoped_iff {nodes : List Node} {enclosure : Enclosure} :
    Node.areWellScoped nodes enclosure ↔ ∀ node ∈ nodes, node.isWellScoped enclosure := by
  induction nodes with
  | nil => simp [Node.areWellScoped]
  | cons node rest inductive_step => simp [Node.areWellScoped, inductive_step]

theorem Node.entriesAreWellScoped_iff {entries : List (String × Node)} {enclosure : Enclosure} :
    Node.entriesAreWellScoped entries enclosure ↔
      ∀ entry ∈ entries, entry.2.isWellScoped enclosure := by
  induction entries with
  | nil => simp [Node.entriesAreWellScoped]
  | cons entry rest inductive_step => simp [Node.entriesAreWellScoped, inductive_step]

end TreeScript
