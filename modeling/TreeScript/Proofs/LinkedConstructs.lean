import TreeScript.Evaluation.Construct
import TreeScript.Evaluation.Loop
import TreeScript.Evaluation.Namespace
import TreeScript.Proofs.LinkedProcesses
import TreeScript.Proofs.LinkedViews

/-!
# Linked constructs

A construct that keeps to some names does the same in linked scopes: the rules
of constructs, loops and scripts are linked to themselves.
-/

namespace TreeScript.Evaluation

open TreeScript Rule

variable {names : String → Bool} {link : Link} {context : Context} {scope scope' : Scope}

/-! ## Properties -/

/-- What properties of linked values are before their functions are created. -/
inductive Found.Linked (link : Link) : Property.Found → Property.Found → Prop where
  | value {value other : Value} (values : value.Linked link other) :
      Linked link (.value value) (.value other)
  | method {property other : Method} (methods : property.Linked link other) :
      Linked link (.method property) (.method other)

theorem find?_linked {store store' : Store} (stores : store.Linked names link store')
    {target target' : Value} (targets : target.Linked link target') (name : String) :
    Option.Rel (Found.Linked link) (Property.find? store target name)
      (Property.find? store' target' name) := by
  cases targets with
  | str text =>
      unfold Property.find? Property.ofText?
      dsimp only
      split
      · exact .some (.value (.num _))
      · exact .some (.method (.strUpper text))
      · exact .some (.method (.strLower text))
      · exact .some (.method (.strToNum text))
      · exact .some (.method (.strSplit text))
      · exact .none
  | num number =>
      unfold Property.find?
      dsimp only
      split
      · exact .some (.method (.numToStr number))
      · exact .none
  | bool truth =>
      unfold Property.find?
      dsimp only
      split
      · exact .some (.method (.boolToStr truth))
      · exact .none
  | arr handles =>
      unfold Property.find? Property.ofArray?
      dsimp only
      rw [stores.size_items handles]
      split
      · exact .some (.value (.num _))
      · exact .some (.method (.arrPush handles))
      · exact .some (.method (.arrPop handles))
      · exact .some (.method (.arrJoin handles))
      · exact .some (.method (.arrMap handles))
      · exact .none
  | error errorName =>
      unfold Property.find? Property.ofError?
      dsimp only
      split
      · exact .some (.value (.str errorName))
      · exact .some (.value .null)
      · exact .none
  | errorWith errorName information =>
      unfold Property.find? Property.ofError?
      dsimp only
      split
      · exact .some (.value (.str errorName))
      · exact .some (.value information)
      · exact .none
  | _ => exact .none

theorem linked_get {target target' : Value} (targets : target.Linked link target')
    (name : String) :
    (Property.get target name).Linked names link (Value.Linked link)
      (Property.get target' name) := by
  have looked : (look fun store => Property.find? store target name).Linked names link
      (Option.Rel (Found.Linked link)) (look fun store => Property.find? store target' name) :=
    linked_look fun _ _ stores => find?_linked stores targets name
  cases targets with
  | obj handles => exact linked_look fun _ _ stores => stores.entry handles name
  | _ =>
      refine looked.bind fun found found' both => ?_
      cases both with
      | none => exact linked_fail _
      | some both =>
          cases both with
          | value values => exact linked_pure values
          | method methods =>
              dsimp only
              rw [methods.name]
              exact (linked_perform (.newFunction _ (.method methods))).bind fun _ _ handles =>
                linked_pure (.fn handles)

theorem linked_item {target target' place place' : Value} (targets : target.Linked link target')
    (places : place.Linked link place') :
    (Property.item target place).Linked names link (Value.Linked link)
      (Property.item target' place') := by
  have refused (type : String) : Rule.Linked names link (Value.Linked link)
      (do
        let shown ← look fun store => store.literal place
        fail (.of (.cannotReadProp shown type)))
      (do
        let shown ← look fun store => store.literal place'
        fail (.of (.cannotReadProp shown type))) := by
    have shown : (look fun store => store.literal place).Linked names link Eq
        (look fun store => store.literal place') :=
      linked_look fun _ _ stores => stores.literal_eq places
    exact shown.andThen fun _ => linked_fail _
  cases targets with
  | @arr array array' handles =>
      refine (linked_asNum places).andThen fun index => ?_
      have looked : (look fun store => store.items array).Linked names link
          (fun items items' => items.size = items'.size ∧
            Option.Rel (Value.Linked link)
              ((slot? index items.size).bind fun place => items[place]?)
              ((slot? index items'.size).bind fun place => items'[place]?))
          (look fun store => store.items array') :=
        linked_look fun _ _ stores => ⟨stores.size_items handles, stores.slot handles index⟩
      refine looked.bind fun items items' both => ?_
      obtain ⟨size, found⟩ := both
      split <;> rename_i here <;> split <;> rename_i there <;> rw [here, there] at found
      · cases found with
        | some values => exact linked_pure values
      · cases found
      · cases found
      · exact size ▸ linked_fail _
  | obj handles =>
      exact (linked_asStr places).andThen fun name =>
        linked_look fun _ _ stores => stores.entry handles name
  | str text =>
      refine (linked_asNum places).andThen fun index => linked_ofExcept ?_
      unfold Property.character
      split
      · exact .ok (.str _)
      · exact .error rfl
  | _ => exact refused _

section Constructs

variable (mode : context.mode = .asynchronous) (scopes : scope.Linked link scope')

include mode scopes

/-! ## Nodes in sequence -/

theorem linked_evaluate {node : Node} (keeps : node.keepsTo names) :
    (evaluate node scope context).Linked names link (Value.Linked link)
      (evaluate node scope' context) :=
  linked_call (.evaluate keeps scopes mode)

theorem linked_evaluateBool {node : Node} (keeps : node.keepsTo names) :
    (evaluateBool node scope context).Linked names link Eq (evaluateBool node scope' context) :=
  (linked_evaluate mode scopes keeps).bind fun _ _ values => linked_asBool values

theorem linked_evaluateNum {node : Node} (keeps : node.keepsTo names) :
    (evaluateNum node scope context).Linked names link Eq (evaluateNum node scope' context) :=
  (linked_evaluate mode scopes keeps).bind fun _ _ values => linked_asNum values

theorem linked_evaluateAll {nodes : List Node} (keep : Node.keepTo names nodes) :
    (evaluateAll scope context nodes).Linked names link (List.Forall₂ (Value.Linked link))
      (evaluateAll scope' context nodes) := by
  refine linked_traverse ?_
  induction nodes with
  | nil => exact .nil
  | cons node rest inductive_step =>
      obtain ⟨keeps, keep⟩ := Bool.and_eq_true_iff.mp keep
      exact .cons (linked_evaluate mode scopes keeps) (inductive_step keep)

theorem linked_evaluateEntries {entries : List (String × Node)}
    (keep : Node.entriesKeepTo names entries) :
    (evaluateEntries scope context entries).Linked names link
      (List.Forall₂ (Named (Value.Linked link))) (evaluateEntries scope' context entries) := by
  refine linked_traverse ?_
  induction entries with
  | nil => exact .nil
  | cons entry rest inductive_step =>
      obtain ⟨keeps, keep⟩ := Bool.and_eq_true_iff.mp keep
      refine .cons ?_ (inductive_step keep)
      exact (linked_evaluate mode scopes keeps).bind fun _ _ values =>
        linked_pure (.mk entry.1 values)

omit mode in
theorem linked_openScope {bindings : Dict Variable}
    (each : Bindings.Linked names link bindings bindings) :
    (openScope scope bindings).Linked names link (Scope.Linked link)
      (openScope scope' bindings) :=
  (linked_perform (.newLayer each)).bind fun _ _ handles => linked_pure (.child handles scopes)

omit mode in
theorem linked_openScope_empty :
    (openScope scope .empty).Linked names link (Scope.Linked link) (openScope scope' .empty) :=
  linked_openScope scopes fun name _ => optionRel_empty name

omit mode scopes in
theorem linked_logBlock (scope scope' : Scope) (event : String) (value value' : Option Value) :
    (logBlock event scope value).Linked names link Eq (logBlock event scope' value') :=
  (linked_perform (.log _ (some scope.name) (some scope'.name) value value')).bind
    fun _ _ _ => linked_pure rfl

theorem linked_runFrom {last last' : Value} (lasts : last.Linked link last')
    {statements : List Node} (keep : Node.keepTo names statements) :
    (runFrom scope context last statements).Linked names link (Value.Linked link)
      (runFrom scope' context last' statements) := by
  induction statements generalizing last last' with
  | nil => exact (linked_logBlock scope scope' "leave" _ _).andThen fun _ => linked_pure lasts
  | cons statement rest inductive_step =>
      obtain ⟨keeps, keep⟩ := Bool.and_eq_true_iff.mp keep
      refine (linked_evaluate mode scopes keeps).outcome_bind fun outcome outcome' outcomes => ?_
      cases outcomes with
      | ok values => exact inductive_step values keep
      | error interrupts =>
          cases interrupts with
          | signal signals =>
              dsimp only
              rw [signals.name]
              exact (linked_logBlock scope scope' _ _ _).andThen fun _ =>
                linked_throw (.signal signals)
          | error error => exact linked_throw (.error error)

theorem linked_runAll {statements : List Node} (keep : Node.keepTo names statements) :
    (runAll scope context statements).Linked names link (Value.Linked link)
      (runAll scope' context statements) :=
  (linked_logBlock scope scope' "enter" none none).andThen fun _ =>
    linked_runFrom mode scopes .null keep

theorem linked_evaluateClause {node : Node} (keeps : node.keepsTo names) :
    (evaluateClause node scope context).Linked names link (Value.Linked link)
      (evaluateClause node scope' context) := by
  unfold evaluateClause
  split
  · exact (linked_openScope_empty scopes).bind fun _ _ inner => linked_evaluate mode inner keeps
  · exact linked_evaluate mode scopes keeps

omit mode scopes in
theorem linked_takingBreaks {rule rule' : Rule Value}
    (linked : rule.Linked names link (Value.Linked link) rule') (label : Option String) :
    (takingBreaks label rule).Linked names link (Value.Linked link) (takingBreaks label rule') :=
  linked.outcome_bind fun _ _ outcomes => .done (Outcome.Linked.takeBreak outcomes label)

/-! ## Constructs -/

theorem linked_otherwise (label : Option String) {otherwise : Option Node}
    (keeps : Node.keepsToIfAny names otherwise) :
    (chooseBranch label otherwise scope context []).Linked names link (Value.Linked link)
      (chooseBranch label otherwise scope' context []) := by
  cases otherwise with
  | none => exact linked_pure .null
  | some clause => exact linked_takingBreaks (linked_evaluateClause mode scopes keeps) label

theorem linked_chooseBranch (label : Option String) {otherwise : Option Node}
    (keeps : Node.keepsToIfAny names otherwise) {branches : List (Node × Node)}
    (keep : Node.branchesKeepTo names branches) :
    (chooseBranch label otherwise scope context branches).Linked names link (Value.Linked link)
      (chooseBranch label otherwise scope' context branches) := by
  induction branches with
  | nil => exact linked_otherwise mode scopes label keeps
  | cons branch rest inductive_step =>
      obtain ⟨first, keep⟩ := Bool.and_eq_true_iff.mp keep
      obtain ⟨condition, clause⟩ := Bool.and_eq_true_iff.mp first
      refine (linked_evaluateBool mode scopes condition).andThen fun chosen => ?_
      cases chosen with
      | true => exact linked_takingBreaks (linked_evaluateClause mode scopes clause) label
      | false => exact inductive_step keep

theorem linked_chooseCase (label : Option String) {subject subject' : Value}
    (subjects : subject.Linked link subject') {otherwise : Option Node}
    (keeps : Node.keepsToIfAny names otherwise) {candidates : List (Node × Node)}
    (keep : Node.branchesKeepTo names candidates) :
    (chooseCase label subject otherwise scope context candidates).Linked names link
      (Value.Linked link) (chooseCase label subject' otherwise scope' context candidates) := by
  induction candidates with
  | nil => exact linked_otherwise mode scopes label keeps
  | cons candidate rest inductive_step =>
      obtain ⟨first, keep⟩ := Bool.and_eq_true_iff.mp keep
      obtain ⟨condition, clause⟩ := Bool.and_eq_true_iff.mp first
      refine (linked_evaluate mode scopes condition).bind fun value value' values => ?_
      have same : (look fun store => store.equal subject value).Linked names link Eq
          (look fun store => store.equal subject' value') :=
        linked_look fun _ _ stores => stores.equal_eq subjects values
      refine same.andThen fun chosen => ?_
      cases chosen with
      | true => exact linked_takingBreaks (linked_evaluateClause mode scopes clause) label
      | false => exact inductive_step keep

omit mode in
theorem linked_nameLiteral (target literal : Node) {value value' : Value}
    (values : value.Linked link value') :
    (nameLiteral scope target literal value).Linked names link (fun _ _ => True)
      (nameLiteral scope' target literal value') := by
  unfold nameLiteral
  rw [scopes.qualifier.1, scopes.qualifier.2]
  split
  · rename_i parameters body name function shape pattern
    cases values with
    | fn handles =>
        rw [shape, pattern]
        exact linked_perform (.nameFunction handles _)
  · rename_i unnamed
    split
    · rename_i parameters body name function shape pattern
      cases values with
      | fn handles => exact (unnamed _ _ _ _ shape pattern rfl).elim
    · exact linked_pure trivial

omit mode in
theorem linked_reading {name : String} (named : names name) :
    (attempt (perform (.readName scope name))).Linked names link (Value.Linked link)
      (attempt (perform (.readName scope' name))) :=
  (linked_perform (.readName scopes named)).attempt

omit mode in
theorem linked_defining (isMutable : Bool) {target : Node} (keeps : target.keepsTo names)
    {value value' : Value} (values : value.Linked link value') :
    (attempt (perform (.define scope isMutable target value))).Linked names link
      (fun _ _ => True) (attempt (perform (.define scope' isMutable target value'))) :=
  (linked_perform (.define isMutable scopes keeps values)).attempt

omit mode scopes in
theorem linked_writing {location location' : Location}
    (locations : location.Linked names link location') {value value' : Value}
    (values : value.Linked link value') :
    (attempt (perform (.write location value))).Linked names link (fun _ _ => True)
      (attempt (perform (.write location' value'))) :=
  (linked_perform (.write locations values)).attempt

theorem linked_define {target literal : Node} (isMutable : Bool)
    (targetKeeps : target.keepsTo names) (literalKeeps : literal.keepsTo names) :
    (define target literal isMutable [] scope context).Linked names link (Value.Linked link)
      (define target literal isMutable [] scope' context) := by
  refine (linked_evaluate mode scopes literalKeeps).bind fun value value' values => ?_
  refine (linked_nameLiteral scopes target literal values).bind fun _ _ _ => ?_
  refine (linked_defining scopes isMutable targetKeeps values).bind fun _ _ _ => ?_
  have bare : (attempt (perform (.decorate scope target value []))).Linked names link
      (fun _ _ => True) (attempt (perform (.decorate scope' target value' []))) :=
    (linked_perform (.decorate scope scope' target value value')).attempt
  exact bare.bind fun _ _ _ => linked_pure .null

omit mode scopes in
theorem linked_place {target target' place place' : Value} :
    target.Linked link target' → place.Linked link place' →
    Rule.Linked names link (Location.Linked names link)
      (match target, place with
        | .arr array, .num index => pure (.element array index)
        | .obj object, .str name => pure (.entry object name)
        | target, place => do
            let shown ← look fun store => store.literal place
            fail (.of (.cannotReadProp shown target.typeName)))
      (match target', place' with
        | .arr array, .num index => pure (.element array index)
        | .obj object, .str name => pure (.entry object name)
        | target, place => do
            let shown ← look fun store => store.literal place
            fail (.of (.cannotReadProp shown target.typeName))) := by
  intro targets places
  have refused : Rule.Linked names link (Location.Linked names link)
      (do
        let shown ← look fun store => store.literal place
        fail (.of (.cannotReadProp shown target.typeName)))
      (do
        let shown ← look fun store => store.literal place'
        fail (.of (.cannotReadProp shown target'.typeName))) := by
    rw [targets.typeName]
    have shown : (look fun store => store.literal place).Linked names link Eq
        (look fun store => store.literal place') :=
      linked_look fun _ _ stores => stores.literal_eq places
    exact shown.andThen fun _ => linked_fail _
  cases targets <;> cases places <;> first
    | exact refused
    | exact linked_pure (.element ‹_› _)
    | exact linked_pure (.entry ‹_› _)

omit mode scopes in
mutual

theorem linked_locate (mode : context.mode = .asynchronous) (scopes : scope.Linked link scope') :
    ∀ target : Node, target.keepsTo names →
      (locate scope context target).Linked names link (Location.Linked names link)
        (locate scope' context target)
  | .mk shape span, keeps => by
      cases shape with
      | identifier name => exact linked_pure (.name scopes keeps)
      | index target place =>
          obtain ⟨first, second⟩ := Bool.and_eq_true_iff.mp keeps
          refine (linked_evaluate mode scopes first).bind fun target target' targets => ?_
          refine (linked_evaluate mode scopes second).bind fun place place' places => ?_
          exact linked_place targets places
      | prop target name =>
          have keeps : target.keepsTo names := keeps
          refine (linked_evaluate mode scopes keeps).bind fun target target' targets => ?_
          exact (linked_ofExcept targets.asObj).bind fun _ _ handles =>
            linked_pure (.entry handles name)
      | arr targets =>
          exact (linked_locateItems mode scopes .nil targets keeps).bind fun _ _ each =>
            linked_pure (.items each)
      | obj targets =>
          exact (linked_locateEntries mode scopes .nil targets keeps).bind fun _ _ each =>
            linked_pure (.entries each)
      | _ => exact linked_fail _

theorem linked_locateItems (mode : context.mode = .asynchronous)
    (scopes : scope.Linked link scope') {earlier earlier' : List Location}
    (before : List.Forall₂ (Location.Linked names link) earlier earlier') :
    ∀ targets : List Node, Node.keepTo names targets →
      (locateItems scope context earlier targets).Linked names link
        (List.Forall₂ (Location.Linked names link)) (locateItems scope' context earlier' targets)
  | [], _ => linked_pure (List.rel_reverse before)
  | target :: rest, keep => by
      obtain ⟨keeps, keep⟩ := Bool.and_eq_true_iff.mp keep
      exact (linked_locate mode scopes target keeps).bind fun _ _ location =>
        linked_locateItems mode scopes (.cons location before) rest keep

theorem linked_locateEntries (mode : context.mode = .asynchronous)
    (scopes : scope.Linked link scope') {earlier earlier' : List (String × Location)}
    (before : List.Forall₂ (Named (Location.Linked names link)) earlier earlier') :
    ∀ targets : List (String × Node), Node.entriesKeepTo names targets →
      (locateEntries scope context earlier targets).Linked names link
        (List.Forall₂ (Named (Location.Linked names link)))
        (locateEntries scope' context earlier' targets)
  | [], _ => linked_pure (List.rel_reverse before)
  | (name, target) :: rest, keep => by
      obtain ⟨keeps, keep⟩ := Bool.and_eq_true_iff.mp keep
      exact (linked_locate mode scopes target keeps).bind fun _ _ location =>
        linked_locateEntries mode scopes (.cons (.mk name location) before) rest keep

end

theorem linked_assign {target source : Node} (targetKeeps : target.keepsTo names)
    (sourceKeeps : source.keepsTo names) :
    (assign target source scope context).Linked names link (Value.Linked link)
      (assign target source scope' context) := by
  refine (linked_locate mode scopes target targetKeeps).bind fun _ _ locations => ?_
  refine (linked_evaluate mode scopes sourceKeeps).bind fun _ _ values => ?_
  exact (linked_writing locations values).bind fun _ _ _ => linked_pure .null

theorem linked_compound (operator : CompoundOperator) {target source : Node}
    (targetKeeps : target.keepsTo names) (sourceKeeps : source.keepsTo names) :
    (compound operator target source scope context).Linked names link (Value.Linked link)
      (compound operator target source scope' context) := by
  refine (linked_locate mode scopes target targetKeeps).bind fun _ _ locations => ?_
  refine (linked_evaluateNum mode scopes sourceKeeps).andThen fun change => ?_
  have read : (attempt (perform (.read _))).Linked names link (Value.Linked link)
      (attempt (perform (.read _))) :=
    (linked_perform (.read locations)).attempt
  refine read.bind fun value value' values => ?_
  refine (linked_asNum values).andThen fun current => ?_
  exact (linked_writing locations (.num _)).bind fun _ _ _ => linked_pure .null

theorem linked_fillTemplate {parts : List Part} (keep : Part.keepTo names parts) :
    (fillTemplate scope context parts).Linked names link Eq
      (fillTemplate scope' context parts) := by
  have texts : (Rule.traverse (partText scope context) parts).Linked names link (List.Forall₂ Eq)
      (Rule.traverse (partText scope' context) parts) := by
    refine linked_traverse ?_
    induction parts with
    | nil => exact .nil
    | cons part rest inductive_step =>
        cases part with
        | text content => exact .cons (linked_pure rfl) (inductive_step keep)
        | expression node =>
            obtain ⟨keeps, keep⟩ := Bool.and_eq_true_iff.mp keep
            refine .cons ?_ (inductive_step keep)
            exact (linked_evaluate mode scopes keeps).bind fun _ _ values =>
              linked_look fun _ _ stores => stores.display_eq values
  exact texts.bind fun _ _ same => linked_pure (by rw [List.forall₂_eq_eq_eq] at same; rw [same])

theorem linked_fallbacks {parameters : List Parameter}
    (keep : Parameter.keepTo names parameters) :
    (fallbacks scope context parameters).Linked names link
      (List.Forall₂ (Option.Rel (Value.Linked link))) (fallbacks scope' context parameters) := by
  refine linked_traverse ?_
  induction parameters with
  | nil => exact .nil
  | cons parameter rest inductive_step =>
      rcases parameter with ⟨target, isOptional, node⟩
      obtain ⟨first, keep⟩ := Bool.and_eq_true_iff.mp keep
      refine .cons ?_ (inductive_step keep)
      cases node with
      | none =>
          cases isOptional with
          | true => exact linked_pure (.some .null)
          | false => exact linked_pure .none
      | some node =>
          exact (linked_evaluate mode scopes (Bool.and_eq_true_iff.mp first).2).bind
            fun _ _ values => linked_pure (.some values)

theorem linked_logical (operator : LogicalOperator) {left right : Node}
    (leftKeeps : left.keepsTo names) (rightKeeps : right.keepsTo names) :
    (logical operator left right scope context).Linked names link (Value.Linked link)
      (logical operator left right scope' context) := by
  refine (linked_evaluateBool mode scopes leftKeeps).andThen fun first => ?_
  split
  · exact linked_pure (.bool false)
  · exact linked_pure (.bool true)
  · exact (linked_evaluateBool mode scopes rightKeeps).andThen fun second =>
      linked_pure (.bool second)

omit scopes in
theorem linked_calling {function function' : FunctionId}
    (handles : link .function function.index function'.index) {arguments arguments' : List Value}
    (values : List.Forall₂ (Value.Linked link) arguments arguments') (site : Option Position) :
    (call (.apply function arguments context site)).Linked names link (Value.Linked link)
      (call (.apply function' arguments' context site)) :=
  linked_call (.apply handles values mode site)

theorem linked_binary (operator : BinaryOperator) {left right : Node}
    (named : names (LibraryFunction.ofOperator operator).name) (leftKeeps : left.keepsTo names)
    (rightKeeps : right.keepsTo names) :
    (binary operator left right scope context).Linked names link (Value.Linked link)
      (binary operator left right scope' context) := by
  refine (linked_reading scopes named).bind fun callee callee' callees => ?_
  refine (linked_ofExcept callees.asFn).bind fun _ _ handles => ?_
  refine (linked_evaluate mode scopes leftKeeps).bind fun _ _ first => ?_
  exact (linked_evaluate mode scopes rightKeeps).bind fun _ _ second =>
    linked_calling mode handles (.cons first (.cons second .nil)) none

theorem linked_rangeLoop (label : Option String) {counter : String} (named : names counter)
    {start : Option Node} (startKeeps : Node.keepsToIfAny names start) {count body : Node}
    (countKeeps : count.keepsTo names) (bodyKeeps : body.keepsTo names) :
    (rangeLoop label counter start count body scope context).Linked names link (Value.Linked link)
      (rangeLoop label counter start count body scope' context) := by
  have rest {first first' : Value} (firsts : first.Linked link first') :
      (do
        let count ← evaluate count scope context
        let first ← first.asNum
        let limit := first + (← count.asNum)
        Rule.call (.range label counter first limit body scope context)).Linked names link
        (Value.Linked link)
      (do
        let count ← evaluate count scope' context
        let first ← first'.asNum
        let limit := first + (← count.asNum)
        Rule.call (.range label counter first limit body scope' context)) := by
    refine (linked_evaluate mode scopes countKeeps).bind fun limit limit' limits => ?_
    refine (linked_asNum firsts).andThen fun first => ?_
    refine (linked_asNum limits).andThen fun limit => ?_
    exact linked_call (.range label _ _ named bodyKeeps scopes mode)
  cases start with
  | none => exact rest (.num _)
  | some node => exact (linked_evaluate mode scopes startKeeps).bind fun _ _ firsts => rest firsts

theorem linked_breaking (label : Option String) {value : Option Node}
    (keeps : Node.keepsToIfAny names value) (start : Position) :
    (construct scope context start (.breaking label value)).Linked names link (Value.Linked link)
      (construct scope' context start (.breaking label value)) := by
  have broken {given given' : Option Value} (values : Option.Rel (Value.Linked link) given given') :
      (do
        logBlock "break" scope none
        throw (.signal (.breaking label given)) : Rule Value).Linked names link (Value.Linked link)
      (do
        logBlock "break" scope' none
        throw (.signal (.breaking label given'))) :=
    (linked_logBlock scope scope' "break" none none).andThen fun _ =>
      linked_throw (.signal (.breaking label values))
  cases value with
  | none => exact broken .none
  | some node =>
      exact (linked_evaluate mode scopes keeps).bind fun _ _ values => broken (.some values)

/-- A construct is linked to itself in linked scopes. -/
theorem linked_construct (start : Position) {shape : Shape} (keeps : shape.keepsTo names) :
    (construct scope context start shape).Linked names link (Value.Linked link)
      (construct scope' context start shape) := by
  cases shape with
  | namespaceBlock name members => cases keeps
  | metadata name value => exact linked_pure .null
  | definition target value isMutable attributes =>
      obtain ⟨both, bare⟩ := Bool.and_eq_true_iff.mp keeps
      obtain ⟨targetKeeps, valueKeeps⟩ := Bool.and_eq_true_iff.mp both
      obtain rfl := List.isEmpty_iff.mp bare
      exact linked_define mode scopes isMutable targetKeeps valueKeeps
  | returning value =>
      refine (linked_evaluate mode scopes keeps).bind fun value value' values => ?_
      exact (linked_logBlock scope scope' "return" _ _).andThen fun _ =>
        linked_throw (.signal (.returning values))
  | each label pattern items body =>
      obtain ⟨both, bodyKeeps⟩ := Bool.and_eq_true_iff.mp keeps
      obtain ⟨patternKeeps, itemsKeeps⟩ := Bool.and_eq_true_iff.mp both
      refine (linked_evaluate mode scopes itemsKeeps).bind fun items items' values => ?_
      exact (linked_ofExcept values.asArr).bind fun array array' handles =>
        linked_call (.each label 0 patternKeeps handles bodyKeeps scopes mode)
  | times label count body =>
      obtain ⟨countKeeps, bodyKeeps⟩ := Bool.and_eq_true_iff.mp keeps
      exact (linked_evaluateNum mode scopes countKeeps).andThen fun limit =>
        linked_call (.times label _ limit bodyKeeps scopes mode)
  | range label counter start count body =>
      obtain ⟨rest, bodyKeeps⟩ := Bool.and_eq_true_iff.mp keeps
      obtain ⟨both, countKeeps⟩ := Bool.and_eq_true_iff.mp rest
      obtain ⟨named, startKeeps⟩ := Bool.and_eq_true_iff.mp both
      exact linked_rangeLoop mode scopes label named startKeeps countKeeps bodyKeeps
  | loop label statements => exact linked_call (.loop label keeps scopes mode)
  | breaking label value => exact linked_breaking mode scopes label keeps start
  | continuing label =>
      exact (linked_logBlock scope scope' "continue" none none).andThen fun _ =>
        linked_throw (.signal (.continuing label))
  | assign target value =>
      obtain ⟨targetKeeps, valueKeeps⟩ := Bool.and_eq_true_iff.mp keeps
      exact linked_assign mode scopes targetKeeps valueKeeps
  | compound operator target value =>
      obtain ⟨targetKeeps, valueKeeps⟩ := Bool.and_eq_true_iff.mp keeps
      exact linked_compound mode scopes operator targetKeeps valueKeeps
  | conditional label condition clause branches otherwise =>
      obtain ⟨rest, otherwiseKeeps⟩ := Bool.and_eq_true_iff.mp keeps
      exact linked_chooseBranch mode scopes label otherwiseKeeps rest
  | function parameters body =>
      obtain ⟨parametersKeep, bodyKeeps⟩ := Bool.and_eq_true_iff.mp keeps
      refine (linked_fallbacks mode scopes parametersKeep).bind fun _ _ values => ?_
      exact (linked_perform (.newFunction none
        (.closure parametersKeep values bodyKeeps scopes))).bind fun _ _ handles =>
          linked_pure (.fn handles)
  | selection label subject cases otherwise =>
      obtain ⟨both, otherwiseKeeps⟩ := Bool.and_eq_true_iff.mp keeps
      obtain ⟨subjectKeeps, casesKeep⟩ := Bool.and_eq_true_iff.mp both
      exact (linked_evaluate mode scopes subjectKeeps).bind fun _ _ subjects =>
        linked_chooseCase mode scopes label subjects otherwiseKeeps casesKeep
  | block label statements =>
      exact (linked_openScope_empty scopes).bind fun _ _ inner =>
        linked_takingBreaks (linked_runAll mode inner keeps) label
  | existence name =>
      have same : (look fun store => store.isBound scope name).Linked names link Eq
          (look fun store => store.isBound scope' name) :=
        linked_look fun _ _ stores => stores.isBound keeps scopes
      exact same.andThen fun bound => linked_pure (.bool bound)
  | template parts =>
      exact (linked_fillTemplate mode scopes keeps).andThen fun text => linked_pure (.str text)
  | str text => exact linked_pure (.str text)
  | num number => exact linked_pure (.num number)
  | bool truth => exact linked_pure (.bool truth)
  | null => exact linked_pure .null
  | obj entries =>
      refine (linked_evaluateEntries mode scopes keeps).bind fun _ _ values => ?_
      exact (linked_perform (.newObject values)).bind fun _ _ handles =>
        linked_pure (.obj handles)
  | arr items =>
      refine (linked_evaluateAll mode scopes keeps).bind fun _ _ values => ?_
      exact (linked_perform (.newArray values)).bind fun _ _ handles => linked_pure (.arr handles)
  | unary operator operand =>
      cases operator with
      | not =>
          exact (linked_evaluateBool mode scopes keeps).andThen fun _ => linked_pure (.bool _)
      | plus =>
          exact (linked_evaluateNum mode scopes keeps).andThen fun _ => linked_pure (.num _)
      | minus =>
          exact (linked_evaluateNum mode scopes keeps).andThen fun _ => linked_pure (.num _)
  | binary operator left right =>
      obtain ⟨both, rightKeeps⟩ := Bool.and_eq_true_iff.mp keeps
      obtain ⟨named, leftKeeps⟩ := Bool.and_eq_true_iff.mp both
      exact linked_binary mode scopes operator named leftKeeps rightKeeps
  | logical operator left right =>
      obtain ⟨leftKeeps, rightKeeps⟩ := Bool.and_eq_true_iff.mp keeps
      exact linked_logical mode scopes operator leftKeeps rightKeeps
  | identifier name => exact linked_reading scopes keeps
  | call callee arguments =>
      obtain ⟨calleeKeeps, argumentsKeep⟩ := Bool.and_eq_true_iff.mp keeps
      refine (linked_evaluate mode scopes calleeKeeps).bind fun _ _ callees => ?_
      refine (linked_ofExcept callees.asFn).bind fun _ _ handles => ?_
      exact (linked_evaluateAll mode scopes argumentsKeep).bind fun _ _ values =>
        linked_calling mode handles values (some start)
  | index target place =>
      obtain ⟨targetKeeps, placeKeeps⟩ := Bool.and_eq_true_iff.mp keeps
      refine (linked_evaluate mode scopes targetKeeps).bind fun _ _ targets => ?_
      exact (linked_evaluate mode scopes placeKeeps).bind fun _ _ places =>
        linked_item targets places
  | prop target name =>
      have targetKeeps : target.keepsTo names := keeps
      exact (linked_evaluate mode scopes targetKeeps).bind fun _ _ targets =>
        linked_get targets name
  | erased type => exact linked_fail _

/-! ## Loops -/

omit scopes mode in
theorem linked_turnAfter (label : Option String) {rest rest' : Goal}
    (goals : rest.Linked names link rest') {body body' : Rule Value}
    (bodies : body.Linked names link (Value.Linked link) body') :
    (turnAfter label rest body).Linked names link (Turn.Linked names link)
      (turnAfter label rest' body') := by
  refine bodies.outcome_bind fun outcome outcome' outcomes => ?_
  have iterations := Outcome.Linked.iteration outcomes label
  generalize Iteration.ofOutcome label outcome = iteration at iterations ⊢
  generalize Iteration.ofOutcome label outcome' = iteration' at iterations ⊢
  cases iterations with
  | next => exact linked_pure (.again goals)
  | leave => exact linked_pure (.answer (.ok .null))
  | propagate interrupts => exact linked_throw interrupts

omit scopes mode in
theorem linked_finished :
    Rule.Linked names link (Turn.Linked names link) (pure finished) (pure finished) :=
  linked_pure (.answer (.ok .null))

omit scopes mode in
/-- A loop asks whether evaluation is stopped before each turn; it is in both worlds or in none. -/
theorem linked_unlessStopped {turn turn' : Rule Turn}
    (linked : turn.Linked names link (Turn.Linked names link) turn') :
    (do
      if ← perform .isStopped then return finished
      turn).Linked names link (Turn.Linked names link)
    (do
      if ← perform .isStopped then return finished
      turn') := by
  refine (linked_perform .isStopped).bind fun stopped stopped' same => ?_
  cases (same : stopped = stopped')
  cases stopped with
  | true => exact linked_finished
  | false => exact linked

theorem linked_loopTurn (label : Option String) {statements : List Node}
    (keep : Node.keepTo names statements) :
    (loopTurn label statements scope context).Linked names link (Turn.Linked names link)
      (loopTurn label statements scope' context) :=
  linked_unlessStopped <| (linked_openScope_empty scopes).bind fun _ _ inner =>
    linked_turnAfter label (.loop label keep scopes mode) (linked_runAll mode inner keep)

theorem linked_timesTurn (label : Option String) (count limit : Float) {body : Node}
    (keeps : body.keepsTo names) :
    (timesTurn label count limit body scope context).Linked names link (Turn.Linked names link)
      (timesTurn label count limit body scope' context) := by
  unfold timesTurn
  split
  · exact linked_finished
  · exact linked_unlessStopped <| linked_turnAfter label (.times label _ limit keeps scopes mode)
      (linked_evaluateClause mode scopes keeps)

theorem linked_rangeTurn (label : Option String) {counter : String} (named : names counter)
    (count limit : Float) {body : Node} (keeps : body.keepsTo names) :
    (rangeTurn label counter count limit body scope context).Linked names link
      (Turn.Linked names link) (rangeTurn label counter count limit body scope' context) := by
  unfold rangeTurn
  split
  · exact linked_finished
  · refine linked_unlessStopped ?_
    have counted : Bindings.Linked names link (Dict.empty.insert counter (.constant (.num count)))
        (Dict.empty.insert counter (.constant (.num count))) :=
      fun name _ => optionRel_insert (optionRel_empty name) counter (.plain false (.num count))
    exact (linked_openScope scopes counted).bind fun _ _ inner =>
      linked_turnAfter label (.range label _ limit named keeps scopes mode)
        (linked_evaluateClause mode inner keeps)

theorem linked_eachTurn (label : Option String) {pattern : Node}
    (patternKeeps : pattern.keepsTo names) {array array' : ArrayId}
    (handles : link .array array.index array'.index) (place : Nat) {body : Node}
    (bodyKeeps : body.keepsTo names) :
    (eachTurn label pattern array place body scope context).Linked names link
      (Turn.Linked names link) (eachTurn label pattern array' place body scope' context) := by
  refine linked_unlessStopped ?_
  have looked : (look fun store => (store.items array)[place]?).Linked names link
      (Option.Rel (Value.Linked link)) (look fun store => (store.items array')[place]?) :=
    linked_look fun _ _ stores => stores.item handles place
  refine looked.bind fun item item' items => ?_
  cases items with
  | none => exact linked_finished
  | some values =>
      refine (linked_openScope_empty scopes).bind fun _ _ inner => ?_
      refine (linked_defining inner false patternKeeps values).bind fun _ _ _ => ?_
      exact linked_turnAfter label
        (.each label (place + 1) patternKeeps handles bodyKeeps scopes mode)
        (linked_evaluate mode inner bodyKeeps)

end Constructs

/-! ## Scripts -/

/-- What keeps to some names declares no namespaces. -/
theorem kind_ne_of_keepTo {script : List Node} (keep : Node.keepTo names script) :
    ∀ node ∈ script, node.kind ≠ .namespaceBlock := by
  induction script with
  | nil => exact List.forall_mem_nil _
  | cons node rest inductive_step =>
      rcases node with ⟨shape, span⟩
      obtain ⟨keeps, keepRest⟩ := Bool.and_eq_true_iff.mp keep
      refine List.forall_mem_cons.mpr ⟨fun isNamespace => ?_, inductive_step keepRest⟩
      cases shape with
      | namespaceBlock name members => cases keeps
      | _ => cases isNamespace

/-- A script is linked to itself in linked scopes. -/
theorem linked_runScript {root root' : Scope} (roots : root.Linked link root')
    {script : List Node} (keep : Node.keepTo names script) :
    (runScript root script .asynchronous).Linked names link (Value.Linked link)
      (runScript root' script .asynchronous) := by
  unfold runScript
  rw [collect_eq_pure (kind_ne_of_keepTo keep), collect_eq_pure (kind_ne_of_keepTo keep)]
  refine (linked_pure rfl : Rule.Linked names link Eq (pure ()) (pure ())).andThen fun _ => ?_
  have value : (expectingValue (runAll root (.top .asynchronous) script)).Linked names link
      (Value.Linked link) (expectingValue (runAll root' (.top .asynchronous) script)) :=
    (linked_runAll rfl roots keep).outcome_bind fun _ _ outcomes =>
      linked_ofExcept (Outcome.Linked.expectValue outcomes)
  exact value.bind fun _ _ values =>
    (linked_perform (.log "end" none none _ _)).bind fun _ _ _ => linked_pure values

end TreeScript.Evaluation
