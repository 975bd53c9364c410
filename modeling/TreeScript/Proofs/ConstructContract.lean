import TreeScript.Evaluation.Construct
import TreeScript.Proofs.Contract

/-!
# Contracts of the constructs

Every construct of a script meets its contract: inside the constructs around
it, a well-wellScoped node ends with a known value, a proper error, or a signal
that something around it takes.  Signals are taken in two places here, by
labelled clauses and blocks.
-/

namespace TreeScript.Evaluation

open TreeScript Rule

variable {enclosure : Enclosure} {count : Nat} {context : Context}

/-! ## Nodes in sequence -/

theorem meets_evaluate {node : Node} (wellScoped : node.isWellScoped enclosure) (scope : Scope) :
    (evaluate node scope context).Meets enclosure Value.IsKnown count :=
  meets_call wellScoped

theorem meets_evaluateBool {node : Node}
    (wellScoped : node.isWellScoped enclosure) (scope : Scope) :
    (evaluateBool node scope context).Meets enclosure (fun _ _ => True) count :=
  (meets_evaluate wellScoped scope).bind fun _ _ value _ => meets_ofExcept (Replies.asBool value)

theorem meets_evaluateNum {node : Node} (wellScoped : node.isWellScoped enclosure) (scope : Scope) :
    (evaluateNum node scope context).Meets enclosure (fun _ _ => True) count :=
  (meets_evaluate wellScoped scope).bind fun _ _ value _ => meets_ofExcept (Replies.asNum value)

theorem meets_evaluateAll {nodes : List Node} (wellScoped : Node.areWellScoped nodes enclosure)
    (scope : Scope) :
    (evaluateAll scope context nodes).Meets enclosure
      (fun more values => ∀ value ∈ values, value.IsKnown more) count :=
  meets_traverse Value.IsKnown.mono fun node mem _ _ =>
    meets_evaluate (Node.areWellScoped_iff.mp wellScoped node mem) scope

theorem meets_evaluateEntries {entries : List (String × Node)}
    (wellScoped : Node.entriesAreWellScoped entries enclosure) (scope : Scope) :
    (evaluateEntries scope context entries).Meets enclosure
      (fun more values => ∀ value ∈ values, value.2.IsKnown more) count := by
  refine meets_traverse Value.IsKnown.mono ?_
  intro entry mem more _
  have first := Node.entriesAreWellScoped_iff.mp wellScoped entry mem
  exact (meets_evaluate first scope).bind fun _ _ _ known => meets_pure known

theorem meets_evaluateAttributes {attributes : List (String × Node)}
    (wellScoped : Node.entriesAreWellScoped attributes enclosure) (scope : Scope) :
    (evaluateAttributes scope context attributes).Meets enclosure (fun _ _ => True) count :=
  (meets_evaluateEntries wellScoped scope).bind fun _ _ _ _ => meets_pure trivial

theorem meets_openScope (scope : Scope) {bindings : Dict Variable}
    (known : ∀ name bound, bindings.find? name = some bound → bound.value.IsKnown count) :
    (openScope scope bindings).Meets enclosure (fun _ _ => True) count :=
  (meets_perform (.newLayer bindings) known).bind fun _ _ _ _ => meets_pure trivial

theorem meets_openScope_empty (scope : Scope) :
    (openScope scope .empty).Meets enclosure (fun _ _ => True) count :=
  meets_openScope scope fun name bound found => (Dict.find?_empty_ne_some name bound found).elim

theorem meets_logBlock (event : String) (scope : Scope) (value : Option Value) :
    (logBlock event scope value).Meets enclosure (fun _ _ => True) count :=
  meets_perform (.log _ _ _) trivial

theorem meets_runFrom {statements : List Node}
    (wellScoped : Node.areWellScoped statements enclosure)
    (scope : Scope) {last : Value} (known : last.IsKnown count) :
    (runFrom scope context last statements).Meets enclosure Value.IsKnown count := by
  induction statements generalizing last count with
  | nil =>
      exact (meets_logBlock "leave" scope (some last)).bind fun _ grows _ _ =>
        meets_pure (known.mono grows)
  | cons statement rest inductive_step =>
      rcases Bool.and_eq_true_iff.mp wellScoped with ⟨first, others⟩
      refine (meets_evaluate first scope).outcome_bind ?_
      intro more _ outcome ends
      rcases outcome with (signal | error) | value
      · exact (meets_logBlock signal.name scope signal.carried).bind fun _ grows _ _ =>
          meets_throw ⟨ends.1, Signal.IsKnown.mono ends.2 grows⟩
      · exact meets_throw ends
      · exact inductive_step others ends

theorem meets_runAll {statements : List Node} (wellScoped : Node.areWellScoped statements enclosure)
    (scope : Scope) :
    (runAll scope context statements).Meets enclosure Value.IsKnown count :=
  (meets_logBlock "enter" scope none).bind fun _ _ _ _ => meets_runFrom wellScoped scope trivial

theorem meets_evaluateClause {node : Node} (wellScoped : node.isWellScoped enclosure)
    (scope : Scope) :
    (evaluateClause node scope context).Meets enclosure Value.IsKnown count := by
  unfold evaluateClause
  split
  · exact (meets_openScope_empty scope).bind fun _ _ inner _ => meets_evaluate wellScoped inner
  · exact meets_evaluate wellScoped scope

/-! ## Clauses and blocks -/

/-- What a labelled construct does not take has something else around it to leave. -/
theorem ends_takeBreak {label : Option String} {outcome : Outcome}
    (ends : EndsWithin (enclosure.labelled label) Value.IsKnown count outcome) :
    EndsWithin enclosure Value.IsKnown count (outcome.takeBreak label) := by
  rcases outcome with (signal | error) | value
  · cases signal with
    | returning value => exact ends
    | continuing target => cases target <;> exact ends
    | breaking target value =>
        cases target with
        | none => exact ends
        | some target =>
            rcases ends with ⟨admitted, known⟩
            show EndsWithin enclosure Value.IsKnown count (if label = some target then _ else _)
            split
            · cases value with
              | none => trivial
              | some value => exact known value rfl
            · rename_i other
              exact ⟨Enclosure.contains_of_ne admitted other, known⟩
  · exact ends
  · exact ends

theorem meets_takingBreaks {label : Option String} {rule : Rule Value}
    (meets : rule.Meets (enclosure.labelled label) Value.IsKnown count) :
    (takingBreaks label rule).Meets enclosure Value.IsKnown count :=
  meets.outcome_bind fun _ _ _ ends => .done (ends_takeBreak ends)

theorem meets_otherwise {label : Option String} {otherwise : Option Node}
    (wellScoped : Node.isWellScopedIfAny otherwise (enclosure.labelled label)) (scope : Scope) :
    (chooseBranch label otherwise scope context []).Meets enclosure Value.IsKnown count := by
  cases otherwise with
  | none => exact meets_pure trivial
  | some clause => exact meets_takingBreaks (meets_evaluateClause wellScoped scope)

theorem meets_chooseBranch {label : Option String} {otherwise : Option Node}
    (wellScoped : Node.isWellScopedIfAny otherwise (enclosure.labelled label)) (scope : Scope)
    {branches : List (Node × Node)}
    (branchesScoped : Node.branchesAreWellScoped branches label enclosure) :
    (chooseBranch label otherwise scope context branches).Meets enclosure Value.IsKnown count := by
  induction branches generalizing count with
  | nil => exact meets_otherwise wellScoped scope
  | cons branch rest inductive_step =>
      rcases Bool.and_eq_true_iff.mp branchesScoped with ⟨first, others⟩
      rcases Bool.and_eq_true_iff.mp first with ⟨condition, clause⟩
      refine (meets_evaluateBool condition scope).bind ?_
      intro _ _ truth _
      split
      · exact meets_takingBreaks (meets_evaluateClause clause scope)
      · exact inductive_step others

theorem meets_chooseCase {label : Option String} (subject : Value) {otherwise : Option Node}
    (wellScoped : Node.isWellScopedIfAny otherwise (enclosure.labelled label)) (scope : Scope)
    {cases : List (Node × Node)}
    (casesScoped : Node.branchesAreWellScoped cases label enclosure) :
    (chooseCase label subject otherwise scope context cases).Meets enclosure
      Value.IsKnown count := by
  induction cases generalizing count with
  | nil => exact meets_otherwise wellScoped scope
  | cons branch rest inductive_step =>
      rcases Bool.and_eq_true_iff.mp casesScoped with ⟨first, others⟩
      rcases Bool.and_eq_true_iff.mp first with ⟨candidate, clause⟩
      refine (meets_evaluate candidate scope).bind ?_
      intro _ _ value _
      refine (meets_glance _).bind ?_
      intro _ _ same _
      split
      · exact meets_takingBreaks (meets_evaluateClause clause scope)
      · exact inductive_step others

/-! ## Definitions and assignments -/

theorem meets_nameLiteral (scope : Scope) (target literal : Node) (value : Value) :
    (nameLiteral scope target literal value).Meets enclosure (fun _ _ => True) count := by
  unfold nameLiteral
  split
  · exact meets_perform (.nameFunction _ _) trivial
  · exact meets_pure trivial

theorem meets_define {literal : Node} (wellScoped : literal.isWellScoped enclosure)
    {attributes : List (String × Node)}
    (attributesScoped : Node.entriesAreWellScoped attributes enclosure)
    (target : Node) (isMutable : Bool) (scope : Scope) :
    (define target literal isMutable attributes scope context).Meets enclosure
      Value.IsKnown count := by
  refine (meets_evaluate wellScoped scope).bind ?_
  intro _ _ value known
  refine (meets_evaluateAttributes attributesScoped scope).bind ?_
  intro _ grows attributes _
  refine (meets_nameLiteral scope target literal value).bind ?_
  intro _ grows' _ _
  have stillKnown := known.mono (Nat.le_trans grows grows')
  refine (meets_perform (.define scope isMutable target value) stillKnown).attempt.bind ?_
  intro _ _ _ _
  refine (meets_perform (.decorate scope target value attributes) trivial).attempt.bind ?_
  intro _ _ _ _
  exact meets_pure trivial

mutual

theorem meets_locate (scope : Scope) :
    ∀ {target : Node} {count : Nat}, target.isWellScoped enclosure →
      (locate scope context target).Meets enclosure (fun _ _ => True) count
  | .mk shape span, _, wellScoped => by
      cases shape with
      | identifier name => exact meets_pure trivial
      | index target place =>
          rcases Bool.and_eq_true_iff.mp wellScoped with ⟨targetScoped, placeScoped⟩
          refine (meets_evaluate targetScoped scope).bind ?_
          intro _ _ target _
          refine (meets_evaluate placeScoped scope).bind ?_
          intro _ _ place _
          split
          · exact meets_pure trivial
          · exact meets_pure trivial
          · exact (meets_glance _).bind
              fun _ _ _ _ => meets_fail trivial
      | prop target name =>
          have targetScoped : target.isWellScoped enclosure := wellScoped
          refine (meets_evaluate targetScoped scope).bind ?_
          intro _ _ target _
          exact (meets_ofExcept (Replies.asObj target)).bind fun _ _ _ _ => meets_pure trivial
      | arr targets =>
          exact (meets_locateItems scope [] wellScoped).bind fun _ _ _ _ => meets_pure trivial
      | obj targets =>
          exact (meets_locateEntries scope [] wellScoped).bind fun _ _ _ _ => meets_pure trivial
      | _ => exact meets_fail trivial

theorem meets_locateItems (scope : Scope) :
    ∀ (earlier : List Location) {targets : List Node} {count : Nat},
      Node.areWellScoped targets enclosure →
      (locateItems scope context earlier targets).Meets enclosure (fun _ _ => True) count
  | _, [], _, _ => meets_pure trivial
  | _, _ :: _, _, wellScoped =>
      (meets_locate scope (Bool.and_eq_true_iff.mp wellScoped).1).bind fun _ _ _ _ =>
        meets_locateItems scope _ (Bool.and_eq_true_iff.mp wellScoped).2

theorem meets_locateEntries (scope : Scope) :
    ∀ (earlier : List (String × Location)) {targets : List (String × Node)} {count : Nat},
      Node.entriesAreWellScoped targets enclosure →
      (locateEntries scope context earlier targets).Meets enclosure (fun _ _ => True) count
  | _, [], _, _ => meets_pure trivial
  | _, (_, _) :: _, _, wellScoped =>
      (meets_locate scope (Bool.and_eq_true_iff.mp wellScoped).1).bind fun _ _ _ _ =>
        meets_locateEntries scope _ (Bool.and_eq_true_iff.mp wellScoped).2

end

theorem meets_assign {target source : Node} (targetScoped : target.isWellScoped enclosure)
    (sourceScoped : source.isWellScoped enclosure) (scope : Scope) :
    (assign target source scope context).Meets enclosure Value.IsKnown count := by
  refine (meets_locate scope targetScoped).bind ?_
  intro _ _ location _
  refine (meets_evaluate sourceScoped scope).bind ?_
  intro _ _ value known
  exact (meets_perform (.write location value) known).attempt.bind
    fun _ _ _ _ => meets_pure trivial

theorem meets_compound (operator : CompoundOperator) {target source : Node}
    (targetScoped : target.isWellScoped enclosure) (sourceScoped : source.isWellScoped enclosure)
    (scope : Scope) :
    (compound operator target source scope context).Meets enclosure Value.IsKnown count := by
  refine (meets_locate scope targetScoped).bind ?_
  intro _ _ location _
  refine (meets_evaluateNum sourceScoped scope).bind ?_
  intro _ _ change _
  refine (meets_perform (.read location) trivial).attempt.bind ?_
  intro _ _ value _
  refine (meets_ofExcept (Replies.asNum value)).bind ?_
  intro _ _ current _
  exact (meets_perform (.write location (.num _)) trivial).attempt.bind
    fun _ _ _ _ => meets_pure trivial

/-! ## Expressions -/

theorem meets_fillTemplate {parts : List Part} (wellScoped : Part.areWellScoped parts enclosure)
    (scope : Scope) :
    (fillTemplate scope context parts).Meets enclosure (fun _ _ => True) count := by
  have partScoped : ∀ part ∈ parts, ∀ more,
      (partText scope context part).Meets enclosure (fun _ _ => True) more := by
    induction parts with
    | nil => exact nofun
    | cons part rest inductive_step =>
        cases part with
        | text content =>
            exact List.forall_mem_cons.mpr
              ⟨fun more => meets_pure trivial, inductive_step wellScoped⟩
        | expression node =>
            rcases Bool.and_eq_true_iff.mp wellScoped with ⟨nodeScoped, restScoped⟩
            refine List.forall_mem_cons.mpr ⟨fun more => ?_, inductive_step restScoped⟩
            exact (meets_evaluate nodeScoped scope).bind fun _ _ value _ =>
              meets_glance _
  exact (meets_traverse (fun _ _ => trivial) fun part mem more _ => partScoped part mem more).bind
    fun _ _ _ _ => meets_pure trivial

/-- The fallbacks of parameters are known. -/
theorem meets_fallbacks {parameters : List Parameter}
    (wellScoped : Parameter.areWellScoped parameters enclosure) (scope : Scope) :
    (fallbacks scope context parameters).Meets enclosure
      (fun more found => ∀ fallback ∈ found, ∀ value ∈ fallback, value.IsKnown more) count := by
  have parameterScoped : ∀ parameter ∈ parameters, ∀ more,
      (fallback scope context parameter).Meets enclosure
        (fun most found => ∀ value ∈ found, value.IsKnown most) more := by
    induction parameters with
    | nil => exact nofun
    | cons parameter rest inductive_step =>
        rcases parameter with ⟨target, isOptional, node⟩
        rcases Bool.and_eq_true_iff.mp wellScoped with ⟨nodeScoped, restScoped⟩
        refine List.forall_mem_cons.mpr ⟨fun more => ?_, inductive_step restScoped⟩
        cases node with
        | none =>
            refine meets_pure ?_
            intro value mem
            split at mem
            · cases mem
              trivial
            · cases mem
        | some node =>
            refine (meets_evaluate nodeScoped scope).bind ?_
            intro _ _ value known
            refine meets_pure ?_
            intro other mem
            cases mem
            exact known
  exact meets_traverse (fun known grows value mem => (known value mem).mono grows)
    fun parameter mem more _ => parameterScoped parameter mem more

theorem meets_logical (operator : LogicalOperator) {left right : Node}
    (leftScoped : left.isWellScoped enclosure) (rightScoped : right.isWellScoped enclosure)
    (scope : Scope) :
    (logical operator left right scope context).Meets enclosure Value.IsKnown count := by
  refine (meets_evaluateBool leftScoped scope).bind ?_
  intro _ _ first _
  split
  · exact meets_pure trivial
  · exact meets_pure trivial
  · exact (meets_evaluateBool rightScoped scope).bind fun _ _ _ _ => meets_pure trivial

theorem meets_binary (operator : BinaryOperator) {left right : Node}
    (leftScoped : left.isWellScoped enclosure) (rightScoped : right.isWellScoped enclosure)
    (scope : Scope) :
    (binary operator left right scope context).Meets enclosure Value.IsKnown count := by
  refine (meets_perform (.readName scope _) trivial).attempt.bind ?_
  intro _ _ callee known
  refine (meets_ofExcept (Replies.asFn known)).bind ?_
  intro _ grows function functionKnown
  refine (meets_evaluate leftScoped scope).bind ?_
  intro _ grows' first firstKnown
  refine (meets_evaluate rightScoped scope).bind ?_
  intro _ grows'' second secondKnown
  refine meets_call ⟨functionKnown.mono (Nat.le_trans grows (Nat.le_trans grows' grows'')), ?_⟩
  exact List.forall_mem_cons.mpr
    ⟨firstKnown.mono grows'', List.forall_mem_cons.mpr ⟨secondKnown, List.forall_mem_nil _⟩⟩

theorem isKnown_ofText {text name : String} {value : Value}
    (found : Property.ofText? text name = some (.value value)) :
    value.IsKnown count := by
  unfold Property.ofText? at found
  split at found <;> cases found
  trivial

theorem isKnown_ofArray {array : ArrayId} {length : Nat} {name : String} {value : Value}
    (found : Property.ofArray? array length name = some (.value value)) :
    value.IsKnown count := by
  unfold Property.ofArray? at found
  split at found <;> cases found
  trivial

theorem isKnown_ofError {errorName name : String} {information value : Value}
    (known : information.IsKnown count)
    (found : Property.ofError? errorName information name = some (.value value)) :
    value.IsKnown count := by
  unfold Property.ofError? at found
  split at found <;> cases found
  · trivial
  · exact known

/-- A property that is a value is known, if its receiver is. -/
theorem isKnown_find {store : Store} {target : Value} (known : target.IsKnown count)
    {name : String} {value : Value}
    (found : Property.find? store target name = some (.value value)) :
    value.IsKnown count := by
  cases target with
  | str text => exact isKnown_ofText found
  | arr array => exact isKnown_ofArray found
  | error errorName =>
      have informed : Value.null.IsKnown count := trivial
      exact isKnown_ofError informed found
  | errorWith errorName information =>
      have informed : information.IsKnown count := known
      exact isKnown_ofError informed found
  | num number =>
      change (if name = "to_str" then _ else _) = _ at found
      split at found <;> cases found
  | bool truth =>
      change (if name = "to_str" then _ else _) = _ at found
      split at found <;> cases found
  | _ => cases found

theorem meets_get {target : Value} (known : target.IsKnown count) (name : String) :
    (Property.get target name).Meets enclosure Value.IsKnown count := by
  have found : (look fun store => Property.find? store target name).Meets enclosure
      (fun more found => ∀ value, found = some (.value value) → value.IsKnown more) count :=
    meets_look fun more grows store _ value => isKnown_find (known.mono grows)
  unfold Property.get
  split
  · exact meets_look fun _ _ _ sound => sound.entry _ name
  · refine found.bind ?_
    intro _ _ found foundKnown
    split
    · exact meets_pure (foundKnown _ rfl)
    · exact (meets_perform (.newFunction _ (.native (.method _))) trivial).bind
        fun _ _ _ functionKnown => meets_pure functionKnown
    · exact meets_fail trivial

theorem replies_character (text : String) (index : Float) :
    Replies (Value.IsKnown count) (Property.character text index) := by
  unfold Property.character
  split <;> trivial

theorem meets_item (target place : Value) :
    (Property.item target place).Meets enclosure Value.IsKnown count := by
  cases target with
  | arr array =>
      have seen {count : Nat} : (look fun store => store.items array).Meets enclosure
          (fun more items => ∀ value ∈ items, value.IsKnown more) count :=
        meets_look fun _ _ _ sound => sound.items array
      refine (meets_ofExcept (Replies.asNum place)).bind ?_
      intro _ _ index _
      refine seen.bind ?_
      intro _ _ items known
      split
      · rename_i value found
        rcases Option.bind_eq_some_iff.mp found with ⟨place, -, present⟩
        exact meets_pure (known value (Array.mem_of_getElem? present))
      · exact meets_fail trivial
  | obj object =>
      exact (meets_ofExcept (Replies.asStr place)).bind fun _ _ name _ =>
        meets_look fun _ _ _ sound => sound.entry object name
  | str text =>
      exact (meets_ofExcept (Replies.asNum place)).bind fun _ _ index _ =>
        meets_reply (replies_character text index)
  | _ => exact (meets_glance _).bind fun _ _ _ _ => meets_fail trivial

theorem meets_rangeLoop {label : Option String} (counter : String) {start : Option Node}
    (startScoped : Node.isWellScopedIfAny start enclosure)
    {limit body : Node} (limitScoped : limit.isWellScoped enclosure)
    (bodyScoped : body.isWellScoped (enclosure.loop label)) (scope : Scope) :
    (rangeLoop label counter start limit body scope context).Meets enclosure
      Value.IsKnown count := by
  have rest (first : Value) {more : Nat} :
      (do
        let count ← evaluate limit scope context
        let first ← first.asNum
        let limit := first + (← count.asNum)
        Rule.call (.range label counter first limit body scope context)).Meets enclosure
        Value.IsKnown more := by
    refine (meets_evaluate limitScoped scope).bind ?_
    intro _ _ limit _
    refine (meets_ofExcept (Replies.asNum first)).bind ?_
    intro _ _ first _
    exact (meets_ofExcept (Replies.asNum limit)).bind fun _ _ limit _ => meets_call bodyScoped
  cases start with
  | none => exact rest _
  | some node => exact (meets_evaluate startScoped scope).bind fun _ _ first _ => rest first

theorem meets_breaking {label : Option String} (admitted : enclosure.admitsBreak label)
    {value : Option Node} (wellScoped : Node.isWellScopedIfAny value enclosure) (scope : Scope)
    (start : Position) :
    (construct scope context start (.breaking label value)).Meets enclosure
      Value.IsKnown count := by
  cases value with
  | none =>
      exact (meets_logBlock "break" scope none).bind fun _ _ _ _ => meets_throw ⟨admitted, nofun⟩
  | some node =>
      refine (meets_evaluate wellScoped scope).bind ?_
      intro _ _ value known
      refine (meets_logBlock "break" scope none).bind ?_
      intro _ grows _ _
      refine meets_throw ⟨admitted, fun carried mem => ?_⟩
      cases mem
      exact known.mono grows

/-- Every construct that is well-scoped meets its contract. -/
theorem meets_construct {shape : Shape} (wellScoped : shape.isWellScoped enclosure)
    (scope : Scope) (start : Position) :
    (construct scope context start shape).Meets enclosure Value.IsKnown count := by
  cases shape with
  | namespaceBlock name members => exact meets_pure trivial
  | metadata name value => exact meets_pure trivial
  | definition target value isMutable attributes =>
      rcases Bool.and_eq_true_iff.mp wellScoped with ⟨valueScoped, attributesScoped⟩
      exact meets_define valueScoped attributesScoped target isMutable scope
  | returning value =>
      rcases Bool.and_eq_true_iff.mp wellScoped with ⟨admitted, valueScoped⟩
      refine (meets_evaluate valueScoped scope).bind ?_
      intro _ _ value known
      exact (meets_logBlock "return" scope (some value)).bind fun _ grows _ _ =>
        meets_throw ⟨admitted, Value.IsKnown.mono known grows⟩
  | each label pattern items body =>
      rcases Bool.and_eq_true_iff.mp wellScoped with ⟨itemsScoped, bodyScoped⟩
      refine (meets_evaluate itemsScoped scope).bind ?_
      intro _ _ items _
      exact (meets_ofExcept (Replies.asArr items)).bind fun _ _ array _ => meets_call bodyScoped
  | times label limit body =>
      rcases Bool.and_eq_true_iff.mp wellScoped with ⟨limitScoped, bodyScoped⟩
      exact (meets_evaluateNum limitScoped scope).bind fun _ _ limit _ => meets_call bodyScoped
  | range label counter start limit body =>
      rcases Bool.and_eq_true_iff.mp wellScoped with ⟨headerScoped, bodyScoped⟩
      rcases Bool.and_eq_true_iff.mp headerScoped with ⟨startScoped, limitScoped⟩
      exact meets_rangeLoop counter startScoped limitScoped bodyScoped scope
  | loop label statements => exact meets_call wellScoped
  | breaking label value =>
      rcases Bool.and_eq_true_iff.mp wellScoped with ⟨admitted, valueScoped⟩
      exact meets_breaking admitted valueScoped scope start
  | continuing label =>
      exact (meets_logBlock "continue" scope none).bind fun _ _ _ _ =>
        meets_throw ⟨wellScoped, trivial⟩
  | assign target value =>
      rcases Bool.and_eq_true_iff.mp wellScoped with ⟨targetScoped, valueScoped⟩
      exact meets_assign targetScoped valueScoped scope
  | compound operator target value =>
      rcases Bool.and_eq_true_iff.mp wellScoped with ⟨targetScoped, valueScoped⟩
      exact meets_compound operator targetScoped valueScoped scope
  | conditional label condition clause branches otherwise =>
      rcases Bool.and_eq_true_iff.mp wellScoped with ⟨branchesScoped, otherwiseScoped⟩
      exact meets_chooseBranch otherwiseScoped scope branchesScoped
  | function parameters body =>
      rcases Bool.and_eq_true_iff.mp wellScoped with ⟨parametersScoped, bodyScoped⟩
      refine (meets_fallbacks parametersScoped scope).bind ?_
      intro _ _ fallbacks known
      let created : Body := .closure parameters fallbacks body scope
      have sound : created.IsSound _ :=
        ⟨fun value mem => known (some value) mem value rfl, bodyScoped⟩
      refine (meets_perform (.newFunction none created) sound).bind ?_
      exact fun _ _ _ functionKnown => meets_pure functionKnown
  | selection label subject cases otherwise =>
      rcases Bool.and_eq_true_iff.mp wellScoped with ⟨headScoped, otherwiseScoped⟩
      rcases Bool.and_eq_true_iff.mp headScoped with ⟨subjectScoped, casesScoped⟩
      exact (meets_evaluate subjectScoped scope).bind fun _ _ subject _ =>
        meets_chooseCase subject otherwiseScoped scope casesScoped
  | block label statements =>
      exact (meets_openScope_empty scope).bind fun _ _ inner _ =>
        meets_takingBreaks (meets_runAll wellScoped inner)
  | existence name => exact (meets_glance _).bind fun _ _ _ _ => meets_pure trivial
  | template parts =>
      exact (meets_fillTemplate wellScoped scope).bind fun _ _ _ _ => meets_pure trivial
  | str text => exact meets_pure trivial
  | num number => exact meets_pure trivial
  | bool truth => exact meets_pure trivial
  | null => exact meets_pure trivial
  | obj entries =>
      refine (meets_evaluateEntries wellScoped scope).bind ?_
      intro _ _ values known
      exact (meets_perform (.newObject values) known).bind fun _ _ _ _ => meets_pure trivial
  | arr items =>
      refine (meets_evaluateAll wellScoped scope).bind ?_
      intro _ _ values known
      have itemsKnown := fun value mem => known value (List.mem_toArray.mp mem)
      exact (meets_perform (.newArray values.toArray) itemsKnown).bind
        fun _ _ _ _ => meets_pure trivial
  | unary operator operand =>
      cases operator with
      | not => exact (meets_evaluateBool wellScoped scope).bind fun _ _ _ _ => meets_pure trivial
      | plus => exact (meets_evaluateNum wellScoped scope).bind fun _ _ _ _ => meets_pure trivial
      | minus => exact (meets_evaluateNum wellScoped scope).bind fun _ _ _ _ => meets_pure trivial
  | binary operator left right =>
      rcases Bool.and_eq_true_iff.mp wellScoped with ⟨leftScoped, rightScoped⟩
      exact meets_binary operator leftScoped rightScoped scope
  | logical operator left right =>
      rcases Bool.and_eq_true_iff.mp wellScoped with ⟨leftScoped, rightScoped⟩
      exact meets_logical operator leftScoped rightScoped scope
  | identifier name => exact (meets_perform (.readName scope name) trivial).attempt
  | call callee arguments =>
      rcases Bool.and_eq_true_iff.mp wellScoped with ⟨calleeScoped, argumentsScoped⟩
      refine (meets_evaluate calleeScoped scope).bind ?_
      intro _ _ callee known
      refine (meets_ofExcept (Replies.asFn known)).bind ?_
      intro _ grows function functionKnown
      refine (meets_evaluateAll argumentsScoped scope).bind ?_
      intro _ grows' arguments known
      exact meets_call ⟨functionKnown.mono (Nat.le_trans grows grows'), known⟩
  | index target place =>
      rcases Bool.and_eq_true_iff.mp wellScoped with ⟨targetScoped, placeScoped⟩
      refine (meets_evaluate targetScoped scope).bind ?_
      intro _ _ target _
      exact (meets_evaluate placeScoped scope).bind fun _ _ place _ => meets_item target place
  | prop target name =>
      have targetScoped : target.isWellScoped enclosure := wellScoped
      exact (meets_evaluate targetScoped scope).bind fun _ _ target known => meets_get known name
  | erased type => cases wellScoped

end TreeScript.Evaluation
