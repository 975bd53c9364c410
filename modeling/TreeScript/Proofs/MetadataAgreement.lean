import TreeScript.Proofs.Inertness
import TreeScript.Proofs.LiteralRuns

/-!
# Metadata and evaluation

Metadata is read off literals without evaluating them, and what is read is the
document of the value that evaluating them would give (`Metadata.isRenderedAs`).
If there is something else in a metadata block, reading fails at the first such
node in the order in which the script is written (`Metadata.reports_collect`).
Everything outside of the metadata blocks at the top level is ignored
(`Metadata.collect_eq`).
-/

namespace TreeScript

namespace Metadata

/-! ## Nodes that are no literals -/

/-- The first node that is no literal. -/
def stranger? (nodes : List Node) : Option Node :=
  nodes.find? fun node => !node.kind.isLiteral

theorem stranger?_append (nodes others : List Node) :
    stranger? (nodes ++ others) = (stranger? nodes).or (stranger? others) :=
  List.find?_append

theorem stranger?_eq_none_iff {nodes : List Node} :
    stranger? nodes = none ↔ ∀ node ∈ nodes, node.kind.isLiteral = true := by
  simp [stranger?, List.find?_eq_none]

/-- The error for a node says what kind it is of, and where it begins; no call is under way. -/
theorem eq_unexpected_iff {error : Error} {kind : Kind} {position : Position} :
    error = unexpected kind position ↔
      error.position = some position ∧
        error.cause = .hostSide ("Unexpected node in metadata: " ++ kind.name) ∧
        error.trace = [] := by
  constructor
  · rintro rfl
    exact ⟨rfl, rfl, rfl⟩
  · obtain ⟨cause, position, trace⟩ := error
    rintro ⟨rfl, rfl, rfl⟩
    rfl

/-- Reading fails at a node that is no literal, if one has been found, and else it succeeds. -/
def Reports {α : Type} (found : Option Node) (result : Except Error α) : Prop :=
  match found with
  | some stranger => result = .error (unexpected stranger.kind stranger.start)
  | none => ∃ read, result = .ok read

namespace Reports

variable {α β : Type} {found foundThen : Option Node} {result : Except Error α}

/-- What is read after something else fails at its own node, if the other thing does not fail. -/
theorem bind {next : α → Except Error β} (first : Reports found result)
    (second : ∀ read, Reports foundThen (next read)) :
    Reports (found.or foundThen) (result >>= next) := by
  cases found with
  | some stranger =>
      obtain rfl := first
      rfl
  | none =>
      obtain ⟨read, rfl⟩ := first
      exact second read

theorem map {make : α → β} (reports : Reports found result) :
    Reports found (do return make (← result)) := by
  cases found with
  | some stranger =>
      obtain rfl := reports
      rfl
  | none =>
      obtain ⟨read, rfl⟩ := reports
      exact ⟨make read, rfl⟩

theorem error_iff (reports : Reports found result) (error : Error) :
    result = .error error ↔
      ∃ stranger, found = some stranger ∧ error = unexpected stranger.kind stranger.start := by
  cases found with
  | some stranger =>
      obtain rfl := reports
      simp [eq_comm]
  | none =>
      obtain ⟨read, rfl⟩ := reports
      simp

end Reports

mutual

/-- A literal cannot be read if there is something else in it. -/
theorem reports_literal : ∀ node : Node, Reports (stranger? node.parts) (literal node)
  | .mk shape span => by
      cases shape with
      | null => exact ⟨_, rfl⟩
      | bool truth => exact ⟨_, rfl⟩
      | num number => exact ⟨_, rfl⟩
      | str text => exact ⟨_, rfl⟩
      | arr items => exact (reports_literals items).map
      | obj entries => exact (reports_entryLiterals entries).map
      | _ => rfl

theorem reports_literals : ∀ items : List Node,
    Reports (stranger? (Node.partsOfItems items)) (literals items)
  | [] => ⟨_, rfl⟩
  | node :: rest => by
      rw [Node.partsOfItems, stranger?_append, literals]
      exact (reports_literal node).bind fun document => (reports_literals rest).map

theorem reports_entryLiterals : ∀ entries : List (String × Node),
    Reports (stranger? (Node.partsOfEntries entries)) (entryLiterals entries)
  | [] => ⟨_, rfl⟩
  | (name, node) :: rest => by
      rw [Node.partsOfEntries, stranger?_append, entryLiterals]
      exact (reports_literal node).bind fun document => (reports_entryLiterals rest).map

end

/-- Every literal has a document. -/
theorem exists_literal_eq_ok {node : Node} (literals : node.IsLiteral) :
    ∃ document, literal node = .ok document := by
  have reports := reports_literal node
  rwa [stranger?_eq_none_iff.mpr literals] at reports

/-! ## Scripts -/

/-- The parts of the value of a metadata block; other nodes have nothing to do with metadata. -/
def partsOfBlock (node : Node) : List Node :=
  match node.shape with
  | .metadata _ value => value.parts
  | _ => []

/-- The parts of all metadata blocks at the top level of a script. -/
def partsOfScript (script : List Node) : List Node :=
  script.flatMap partsOfBlock

theorem reports_collectFrom (script : List Node) (read : List Block) :
    Reports (stranger? (partsOfScript script)) (collectFrom read script) := by
  induction script generalizing read with
  | nil => exact ⟨_, rfl⟩
  | cons node rest inductive_step =>
      obtain ⟨shape, span⟩ := node
      rw [partsOfScript, List.flatMap_cons, stranger?_append]
      cases shape with
      | metadata name value =>
          rw [collectFrom]
          exact (reports_literal value).bind fun document => inductive_step _
      | _ => exact inductive_step _

/-- Metadata cannot be collected if there is something else than literals in a block. -/
theorem reports_collect (script : List Node) :
    Reports (stranger? (partsOfScript script)) (collect script) := by
  cases script with
  | nil => exact ⟨_, rfl⟩
  | cons node rest => exact (reports_collectFrom (node :: rest) []).map

/-- Nothing counts but the metadata blocks at the top level. -/
theorem collectFrom_filter (script : List Node) (read : List Block) :
    collectFrom read (script.filter fun node => node.kind == .metadata) =
      collectFrom read script := by
  induction script generalizing read with
  | nil => rfl
  | cons node rest inductive_step =>
      obtain ⟨shape, span⟩ := node
      cases shape with
      | metadata name value =>
          rw [List.filter_cons_of_pos (by rfl), collectFrom, collectFrom]
          exact bind_congr fun document => inductive_step _
      | _ =>
          rw [List.filter_cons_of_neg (by simp [Node.kind, Shape.kind]), inductive_step]
          rfl

/-- Nothing counts but the metadata blocks at the top level. -/
theorem collect_eq (script : List Node) (nonempty : script ≠ []) :
    collect script =
      (collectFrom [] (script.filter fun node => node.kind == .metadata)).map some := by
  rw [collect, collectFrom_filter, if_neg (by simpa using nonempty)]

/-- Reading fails precisely if a metadata block at the top level holds something else. -/
theorem exists_error_iff (script : List Node) :
    (∃ error, collect script = .error error) ↔
      ∃ node ∈ script, ∃ name value,
        node.shape = .metadata name value ∧ ¬ value.IsLiteral := by
  have fails : (∃ error, collect script = .error error) ↔
      ∃ part ∈ partsOfScript script, ¬ part.kind.isLiteral = true := by
    simp only [(reports_collect script).error_iff]
    rw [exists_comm]
    simp only [exists_and_left, exists_eq, and_true]
    rw [← Option.ne_none_iff_exists', ne_eq, stranger?_eq_none_iff]
    simp only [not_forall, exists_prop]
  rw [fails]
  constructor
  · rintro ⟨part, inside, other⟩
    obtain ⟨⟨shape, span⟩, listed, inside⟩ := List.mem_flatMap.mp inside
    cases shape with
    | metadata name value =>
        exact ⟨_, listed, name, value, rfl, fun literals => other (literals part inside)⟩
    | _ => cases inside
  · rintro ⟨⟨shape, span⟩, listed, name, value, rfl, other⟩
    simp only [Node.IsLiteral, not_forall] at other
    obtain ⟨part, inside, other⟩ := other
    exact ⟨part, List.mem_flatMap.mpr ⟨_, listed, inside⟩, other⟩

/-! ## Agreement -/

/-- On a new interpreter a literal comes to a value that is rendered as its metadata. -/
structure IsRenderedAs (interpreter : Interpreter) (node : Node) (mode : Mode)
    (document : Document) : Prop where
  /-- There is a value if there may be as many steps as the literal has nodes. -/
  ends : interpreter.options.stepLimit = 0 ∨ node.parts.length ≤ interpreter.options.stepLimit →
    ∃ fuel polls value reached,
      interpreter.complete fuel polls (interpreter.launch [node] mode) =
        some (.ok (some value), reached)
  renders : ∀ fuel polls value reached,
    interpreter.complete fuel polls (interpreter.launch [node] mode) =
      some (.ok (some value), reached) →
    reached.world.store.toDocument value = document

section Interpreters

variable {interpreter : Interpreter} {mode : Mode}

/-- The run of a script comes to a value if and only if the rule of the script does. -/
theorem exists_complete_ok_iff {script : List Node} (nonempty : script ≠ []) {value : Value}
    {reached : Interpreter} :
    (∃ fuel polls, interpreter.complete fuel polls (interpreter.launch script mode) =
        some (.ok (some value), reached)) ↔
      ∃ world, (Evaluation.runScript interpreter.root script mode).Ends interpreter.options
          interpreter.host mode.isFree interpreter.world world (.ok value) ∧
        reached = { interpreter with world := world } := by
  rw [Interpreter.launch_eq_start interpreter nonempty, Interpreter.complete_iff_ends rfl rfl]
  constructor
  · rintro ⟨world, outcome, ends, concluded⟩
    obtain ⟨verdict, rfl⟩ := Prod.mk.inj concluded
    obtain rfl := Interpreter.conclude_eq_value_iff.mp verdict.symm
    refine ⟨world, ?_, rfl⟩
    cases mode with
    | asynchronous => exact Task.ends_ofRule_iff.mp ends
    | synchronous =>
        rcases Task.ends_ofRuleAtOnce_iff.mp ends with ends | ⟨-, waits⟩
        · exact ends
        · cases waits
  · rintro ⟨world, ends, rfl⟩
    refine ⟨world, .ok value, ?_, rfl⟩
    cases mode with
    | asynchronous => exact Task.ends_ofRule_iff.mpr ends
    | synchronous => exact Task.ends_ofRuleAtOnce_iff.mpr (.inl ends)

theorem isRenderedAs {node : Node} {document : Document} (read : literal node = .ok document)
    (running : interpreter.world.lifecycle.isStopped = false)
    (unpaused : interpreter.world.lifecycle.pause = none) (fresh : interpreter.world.steps = 0) :
    IsRenderedAs interpreter node mode document := by
  have spends : (Evaluation.runScript interpreter.root [node] mode).Spends interpreter.options
      interpreter.host mode node.parts.length (fun _ => True)
      fun store value => store.Shows value document :=
    Evaluation.spends_runScript read
  have nonempty : [node] ≠ [] := List.cons_ne_nil node []
  constructor
  · intro enough
    have affords : interpreter.world.Affords interpreter.options mode node.parts.length := by
      rw [World.Affords, fresh, Nat.zero_add]
      exact .inr (.inr ⟨fun _ => unpaused, enough⟩)
    obtain ⟨world, value, ends⟩ := spends.exists_ends running trivial affords
    obtain ⟨fuel, polls, completed⟩ := (exists_complete_ok_iff nonempty).mpr ⟨world, ends, rfl⟩
    exact ⟨fuel, polls, value, _, completed⟩
  · intro fuel polls value reached completed
    obtain ⟨world, ends, rfl⟩ := (exists_complete_ok_iff nonempty).mp ⟨fuel, polls, completed⟩
    exact (spends.of_ends running trivial ends).2.toDocument_eq

end Interpreters

/--
A tree of literals has a document, which is also the document of the value that
any new interpreter evaluates it to.  Metadata cannot be collected precisely if
a block at the top level of the script holds something else.  The error is that of
the first such node: its position is the start of this node, and its cause says what
kind of node it is.  Nothing but the blocks at the top level is looked at.
-/
theorem metadata_agrees :
    (∀ node : Node, node.IsLiteral → ∃ document, literal node = .ok document ∧
      ∀ options host hostNames constants inputs mode,
        IsRenderedAs (.create options host hostNames constants inputs) node mode document) ∧
    (∀ script, (∃ error, collect script = .error error) ↔
      ∃ node ∈ script, ∃ name value,
        node.shape = .metadata name value ∧ ¬ value.IsLiteral) ∧
    (∀ script error, collect script = .error error ↔
      ∃ stranger, stranger? (partsOfScript script) = some stranger ∧
        error.position = some stranger.start ∧
        error.cause = .hostSide ("Unexpected node in metadata: " ++ stranger.kind.name) ∧
        error.trace = []) ∧
    ∀ script, script ≠ [] → collect script =
      (collectFrom [] (script.filter fun node => node.kind == .metadata)).map some := by
  refine ⟨fun node literals => ?_, exists_error_iff, fun script error => ?_, collect_eq⟩
  · obtain ⟨document, read⟩ := exists_literal_eq_ok literals
    exact ⟨document, read, fun _ _ _ _ _ _ => isRenderedAs read rfl rfl rfl⟩
  · rw [(reports_collect script).error_iff]
    simp only [eq_unexpected_iff]

/-- The literal `[{ a: true, a: null }]`. -/
def repeatedName : Node :=
  .of (.arr [.of (.obj [("a", .of (.bool true)), ("a", .of .null)])])

/-- A namespace and two blocks of metadata, of which the latter holds `[null, x]`. -/
def strangeScript : List Node :=
  [.of (.namespaceBlock "n" [.of (.metadata none (.of (.identifier "y")))]),
    .of (.metadata none repeatedName),
    .of (.metadata (some "m")
      (.of (.arr [.of .null, .mk (.identifier "x") ⟨⟨3, 7⟩, ⟨3, 8⟩⟩])))]

/-- Of the two entries the latter counts, and the error is that of `x`. -/
theorem metadata_agrees_repeatedName :
    literal repeatedName = .ok (.arr [.obj [("a", .null)]]) ∧
    IsRenderedAs (.create (.silent 4 1) .none [] [] []) repeatedName .synchronous
      (.arr [.obj [("a", .null)]]) ∧
    collect strangeScript =
      .error ⟨.hostSide "Unexpected node in metadata: identifier", some ⟨3, 7⟩, []⟩ ∧
    collect strangeScript = (collectFrom [] (strangeScript.drop 1)).map some := by
  obtain ⟨literals, -, errors, blocks⟩ := metadata_agrees
  have read : literal repeatedName = .ok (.arr [.obj [("a", .null)]]) := rfl
  obtain ⟨document, read', renders⟩ := literals repeatedName (by decide)
  obtain rfl := Except.ok.inj (read.symm.trans read')
  refine ⟨read, renders _ _ _ _ _ _, ?_, ?_⟩
  · exact (errors _ _).mpr ⟨.mk (.identifier "x") ⟨⟨3, 7⟩, ⟨3, 8⟩⟩, rfl, rfl, rfl, rfl⟩
  · exact blocks strangeScript (List.cons_ne_nil _ _)

end Metadata

end TreeScript
