import TreeScript.Machine.Process
import TreeScript.Proofs.Mentions
import Mathlib.Data.List.Forall2
import Mathlib.Order.Basic

/-!
# Links between handles

Two runs of a script hand out different handles for what is the same to the
script.  A link says which handle of the one store stands for which handle of
the other.  Values, scopes, targets of assignments, outcomes and goals are
linked if they differ in linked handles only.

A script that keeps to some names sees nothing of bindings under other names.
So the names are part of what it means for functions, targets and goals to be
linked: the nodes that they hold keep to the names, and so do the functions of
the library.  Nothing that is linked carries attributes or belongs to a
namespace.
-/

namespace TreeScript

/-- The kinds of handles that a store gives out. -/
inductive HandleKind where
  | array
  | object
  | function
  | layer

/-- Which handles of one store stand for which handles of another. -/
abbrev Link := HandleKind → Nat → Nat → Prop

/-- A handle stands for one handle at most, and no two stand for the same one. -/
structure Link.IsMatching (link : Link) : Prop where
  functional {kind : HandleKind} {index other another : Nat} :
    link kind index other → link kind index another → other = another
  injective {kind : HandleKind} {index another other : Nat} :
    link kind index other → link kind another other → index = another

/-- Entries with one name and related contents. -/
inductive Named {α β : Type} (related : α → β → Prop) : String × α → String × β → Prop where
  | mk (name : String) {content : α} {other : β} (contents : related content other) :
      Named related (name, content) (name, other)

theorem Named.imp {α β : Type} {related weaker : α → β → Prop}
    (weakens : ∀ content other, related content other → weaker content other)
    {entry : String × α} {other : String × β} (named : Named related entry other) :
    Named weaker entry other := by
  cases named with
  | mk name contents => exact .mk name (weakens _ _ contents)

theorem optionRel_map {α β γ δ : Type} {related : α → β → Prop} {weaker : γ → δ → Prop}
    {view : α → γ} {view' : β → δ}
    (views : ∀ content other, related content other → weaker (view content) (view' other))
    {content : Option α} {other : Option β} (held : Option.Rel related content other) :
    Option.Rel weaker (content.map view) (other.map view') := by
  cases held with
  | none => exact .none
  | some given => exact .some (views _ _ given)

theorem optionRel_imp {α β : Type} {related weaker : α → β → Prop}
    (weakens : ∀ content other, related content other → weaker content other)
    {content : Option α} {other : Option β} (held : Option.Rel related content other) :
    Option.Rel weaker content other := by
  cases held with
  | none => exact .none
  | some given => exact .some (weakens _ _ given)

theorem optionRel_getD {α β : Type} {related : α → β → Prop} {default : α} {default' : β}
    (defaults : related default default')
    {content : Option α} {other : Option β} (held : Option.Rel related content other) :
    related (content.getD default) (other.getD default') := by
  cases held with
  | none => exact defaults
  | some given => exact given

/-- How two computations end that may fail: with related results or related errors. -/
inductive Except.Linked {ε α β : Type} (errors : ε → ε → Prop) (same : α → β → Prop) :
    Except ε α → Except ε β → Prop where
  | ok {result : α} {other : β} (results : same result other) :
      Linked errors same (.ok result) (.ok other)
  | error {error other : ε} (failures : errors error other) :
      Linked errors same (.error error) (.error other)

theorem Except.Linked.imp {ε α β : Type} {errors weakerErrors : ε → ε → Prop}
    {same weaker : α → β → Prop}
    (failures : ∀ error other, errors error other → weakerErrors error other)
    (results : ∀ result other, same result other → weaker result other)
    {result : Except ε α} {other : Except ε β} (linked : Except.Linked errors same result other) :
    Except.Linked weakerErrors weaker result other := by
  cases linked with
  | ok given => exact .ok (results _ _ given)
  | error given => exact .error (failures _ _ given)

/-! ## Values and scopes -/

/-- Values that differ in linked handles only. -/
inductive Value.Linked (link : Link) : Value → Value → Prop where
  | null : Linked link .null .null
  | bool (truth : Bool) : Linked link (.bool truth) (.bool truth)
  | num (number : Float) : Linked link (.num number) (.num number)
  | str (text : String) : Linked link (.str text) (.str text)
  | arr {array other : ArrayId} (handles : link .array array.index other.index) :
      Linked link (.arr array) (.arr other)
  | obj {object other : ObjectId} (handles : link .object object.index other.index) :
      Linked link (.obj object) (.obj other)
  | fn {function other : FunctionId} (handles : link .function function.index other.index) :
      Linked link (.fn function) (.fn other)
  | error (name : String) : Linked link (.error name) (.error name)
  | errorWith (name : String) {information other : Value}
      (linked : Linked link information other) :
      Linked link (.errorWith name information) (.errorWith name other)

/-- Scopes outside of namespaces that differ in linked layers only. -/
inductive Scope.Linked (link : Link) : Scope → Scope → Prop where
  | root {layer other : LayerId} (handles : link .layer layer.index other.index) :
      Linked link (.root layer) (.root other)
  | child {layer other : LayerId} {outer around : Scope}
      (handles : link .layer layer.index other.index)
      (outers : Linked link outer around) :
      Linked link (.child layer outer) (.child other around)

section

variable {link wider : Link} (within : link ≤ wider)

include within

theorem Value.Linked.mono {value other : Value} (linked : value.Linked link other) :
    value.Linked wider other := by
  induction linked with
  | null => exact .null
  | bool truth => exact .bool truth
  | num number => exact .num number
  | str text => exact .str text
  | arr handles => exact .arr (within _ _ _ handles)
  | obj handles => exact .obj (within _ _ _ handles)
  | fn handles => exact .fn (within _ _ _ handles)
  | error name => exact .error name
  | errorWith name _ inductive_step => exact .errorWith name inductive_step

theorem Scope.Linked.mono {scope other : Scope} (linked : scope.Linked link other) :
    scope.Linked wider other := by
  induction linked with
  | root handles => exact .root (within _ _ _ handles)
  | child handles _ inductive_step => exact .child (within _ _ _ handles) inductive_step

end

namespace Value.Linked

variable {link : Link} {value other : Value}

theorem typeName (linked : value.Linked link other) : value.typeName = other.typeName := by
  cases linked <;> rfl

theorem asBool (linked : value.Linked link other) : value.asBool = other.asBool := by
  cases linked <;> rfl

theorem asNum (linked : value.Linked link other) : value.asNum = other.asNum := by
  cases linked <;> rfl

theorem asStr (linked : value.Linked link other) : value.asStr = other.asStr := by
  cases linked <;> rfl

theorem asArr (linked : value.Linked link other) :
    Except.Linked Eq (fun array array' => link .array array.index array'.index)
      value.asArr other.asArr := by
  cases linked with
  | arr handles => exact .ok handles
  | _ => exact .error rfl

theorem asObj (linked : value.Linked link other) :
    Except.Linked Eq (fun object object' => link .object object.index object'.index)
      value.asObj other.asObj := by
  cases linked with
  | obj handles => exact .ok handles
  | _ => exact .error rfl

theorem asFn (linked : value.Linked link other) :
    Except.Linked Eq (fun function function' => link .function function.index function'.index)
      value.asFn other.asFn := by
  cases linked with
  | fn handles => exact .ok handles
  | _ => exact .error rfl

theorem headD {values others : List Value}
    (linked : List.Forall₂ (Value.Linked link) values others) :
    (values.headD .null).Linked link (others.headD .null) := by
  cases linked with
  | nil => exact .null
  | cons first _ => exact first

end Value.Linked

namespace Scope.Linked

variable {link : Link} {scope other : Scope}

theorem name (linked : scope.Linked link other) : scope.name = other.name := by
  cases linked <;> rfl

theorem layer (linked : scope.Linked link other) :
    link .layer scope.layer.index other.layer.index := by
  cases linked with
  | root handles => exact handles
  | child handles _ => exact handles

theorem layers (linked : scope.Linked link other) :
    List.Forall₂ (fun layer layer' : LayerId => link .layer layer.index layer'.index)
      scope.layers other.layers := by
  induction linked with
  | root handles => exact .cons handles .nil
  | child handles _ inductive_step => exact .cons handles inductive_step

theorem qualifier (linked : scope.Linked link other) :
    scope.qualifier = "" ∧ other.qualifier = "" := by
  cases linked <;> exact ⟨rfl, rfl⟩

theorem registrations (linked : scope.Linked link other) (name : String) :
    scope.registrations name = [(scope, name)] ∧ other.registrations name = [(other, name)] := by
  cases linked <;> exact ⟨rfl, rfl⟩

end Scope.Linked

/-! ## Outcomes -/

/-- Signals that carry linked values. -/
inductive Signal.Linked (link : Link) : Signal → Signal → Prop where
  | returning {value other : Value} (linked : value.Linked link other) :
      Linked link (.returning value) (.returning other)
  | breaking (label : Option String) {value other : Option Value}
      (linked : Option.Rel (Value.Linked link) value other) :
      Linked link (.breaking label value) (.breaking label other)
  | continuing (label : Option String) : Linked link (.continuing label) (.continuing label)

/-- Linked signals, or one error. -/
inductive Interrupt.Linked (link : Link) : Interrupt → Interrupt → Prop where
  | signal {signal other : Signal} (linked : signal.Linked link other) :
      Linked link (.signal signal) (.signal other)
  | error (error : Error) : Linked link (.error error) (.error error)

/-- Outcomes that differ in linked handles only. -/
abbrev Outcome.Linked (link : Link) : Outcome → Outcome → Prop :=
  Except.Linked (Interrupt.Linked link) (Value.Linked link)

theorem Signal.Linked.name {link : Link} {signal other : Signal}
    (linked : signal.Linked link other) : signal.name = other.name := by
  cases linked <;> rfl

section

variable {link : Link} {outcome other : Outcome} (linked : Outcome.Linked link outcome other)

include linked

theorem Outcome.Linked.expectValue :
    Except.Linked Eq (Value.Linked link) outcome.expectValue other.expectValue := by
  cases linked with
  | ok results => exact .ok results
  | error failures =>
      cases failures with
      | signal linked => exact .error (by rw [linked.name])
      | error error => exact .error rfl

theorem Outcome.Linked.takeBreak (label : Option String) :
    Outcome.Linked link (outcome.takeBreak label) (other.takeBreak label) := by
  cases linked with
  | ok results => exact .ok results
  | error failures =>
      cases failures with
      | signal linked =>
          cases linked with
          | breaking target linked =>
              cases target with
              | none => exact .error (.signal (.breaking none linked))
              | some target =>
                  unfold Outcome.takeBreak
                  dsimp only
                  split
                  · exact .ok (optionRel_getD .null linked)
                  · exact .error (.signal (.breaking (some target) linked))
          | returning linked => exact .error (.signal (.returning linked))
          | continuing target => exact .error (.signal (.continuing target))
      | error error => exact .error (.error error)

end

/-- What a loop does after its body has ended, up to linked handles. -/
inductive Iteration.Linked (link : Link) : Iteration → Iteration → Prop where
  | next : Linked link .next .next
  | leave : Linked link .leave .leave
  | propagate {interrupt other : Interrupt} (linked : interrupt.Linked link other) :
      Linked link (.propagate interrupt) (.propagate other)

theorem Outcome.Linked.iteration {link : Link} {outcome other : Outcome}
    (linked : Outcome.Linked link outcome other) (label : Option String) :
    (Iteration.ofOutcome label outcome).Linked link (Iteration.ofOutcome label other) := by
  cases linked with
  | ok results => exact .next
  | error failures =>
      cases failures with
      | signal linked =>
          cases linked with
          | returning linked => exact .propagate (.signal (.returning linked))
          | breaking target linked =>
              unfold Iteration.ofOutcome
              dsimp only
              split
              · exact .leave
              · exact .propagate (.signal (.breaking target linked))
          | continuing target =>
              unfold Iteration.ofOutcome
              dsimp only
              split
              · exact .next
              · exact .propagate (.signal (.continuing target))
      | error error => exact .propagate (.error error)

/-! ## Functions and targets of assignments -/

/-- Methods of linked receivers. -/
inductive Method.Linked (link : Link) : Method → Method → Prop where
  | strUpper (text : String) : Linked link (.strUpper text) (.strUpper text)
  | strLower (text : String) : Linked link (.strLower text) (.strLower text)
  | strToNum (text : String) : Linked link (.strToNum text) (.strToNum text)
  | strSplit (text : String) : Linked link (.strSplit text) (.strSplit text)
  | numToStr (number : Float) : Linked link (.numToStr number) (.numToStr number)
  | boolToStr (truth : Bool) : Linked link (.boolToStr truth) (.boolToStr truth)
  | arrPush {array other : ArrayId} (handles : link .array array.index other.index) :
      Linked link (.arrPush array) (.arrPush other)
  | arrPop {array other : ArrayId} (handles : link .array array.index other.index) :
      Linked link (.arrPop array) (.arrPop other)
  | arrJoin {array other : ArrayId} (handles : link .array array.index other.index) :
      Linked link (.arrJoin array) (.arrJoin other)
  | arrMap {array other : ArrayId} (handles : link .array array.index other.index) :
      Linked link (.arrMap array) (.arrMap other)

theorem Method.Linked.name {link : Link} {property other : Method}
    (linked : property.Linked link other) : property.name = other.name := by
  cases linked <;> rfl

/-- What functions do that keep to some names. -/
inductive Body.Linked (names : String → Bool) (link : Link) : Body → Body → Prop where
  | closure {parameters : List Parameter} {fallbacks others : List (Option Value)}
      {statements : List Node} {scope other : Scope}
      (parametersWithin : Parameter.keepTo names parameters)
      (values : List.Forall₂ (Option.Rel (Value.Linked link)) fallbacks others)
      (statementsWithin : Node.keepTo names statements)
      (scopes : scope.Linked link other) :
      Linked names link (.closure parameters fallbacks statements scope)
        (.closure parameters others statements other)
  | library {function : LibraryFunction} (named : names function.name) :
      Linked names link (.native (.library function)) (.native (.library function))
  | method {property other : Method} (methods : property.Linked link other) :
      Linked names link (.native (.method property)) (.native (.method other))

/-- Places to assign to that differ in linked handles only. -/
inductive Location.Linked (names : String → Bool) (link : Link) :
    Location → Location → Prop where
  | name {scope other : Scope} {name : String}
      (scopes : scope.Linked link other) (named : names name) :
      Linked names link (.name scope name) (.name other name)
  | element {array other : ArrayId} (handles : link .array array.index other.index)
      (index : Float) :
      Linked names link (.element array index) (.element other index)
  | entry {object other : ObjectId} (handles : link .object object.index other.index)
      (name : String) :
      Linked names link (.entry object name) (.entry other name)
  | items {locations others : List Location}
      (each : List.Forall₂ (Linked names link) locations others) :
      Linked names link (.items locations) (.items others)
  | entries {locations others : List (String × Location)}
      (each : List.Forall₂ (Named (Linked names link)) locations others) :
      Linked names link (.entries locations) (.entries others)

/-- Bindings of one kind to linked values, without attributes. -/
inductive Variable.Linked (link : Link) : Variable → Variable → Prop where
  | plain (isMutable : Bool) {value other : Value} (linked : value.Linked link other) :
      Linked link (.plain isMutable value) (.plain isMutable other)

/-- Bindings that are linked as far as some names go. -/
def Bindings.Linked (names : String → Bool) (link : Link) (bindings others : Dict Variable) :
    Prop :=
  ∀ name, names name → Option.Rel (Variable.Linked link) (bindings.find? name) (others.find? name)

section

variable {names : String → Bool} {link wider : Link} (within : link ≤ wider)

include within

theorem Method.Linked.mono {property other : Method} (linked : property.Linked link other) :
    property.Linked wider other := by
  cases linked with
  | arrPush handles => exact .arrPush (within _ _ _ handles)
  | arrPop handles => exact .arrPop (within _ _ _ handles)
  | arrJoin handles => exact .arrJoin (within _ _ _ handles)
  | arrMap handles => exact .arrMap (within _ _ _ handles)
  | _ => constructor

theorem Body.Linked.mono {body other : Body} (linked : body.Linked names link other) :
    body.Linked names wider other := by
  cases linked with
  | closure parametersWithin values statementsWithin scopes =>
      exact .closure parametersWithin
        (values.imp fun _ _ linked => optionRel_imp (fun _ _ given => given.mono within) linked)
        statementsWithin (scopes.mono within)
  | library named => exact .library named
  | method methods => exact .method (methods.mono within)

theorem Variable.Linked.mono {bound other : Variable} (linked : bound.Linked link other) :
    bound.Linked wider other := by
  cases linked with
  | plain isMutable linked => exact .plain isMutable (linked.mono within)

theorem Bindings.Linked.mono {bindings others : Dict Variable}
    (linked : Bindings.Linked names link bindings others) :
    Bindings.Linked names wider bindings others :=
  fun name named => optionRel_imp (fun _ _ given => given.mono within) (linked name named)

end

mutual

theorem Location.Linked.mono {names : String → Bool} {link wider : Link} (within : link ≤ wider) :
    ∀ {location other : Location}, location.Linked names link other →
      location.Linked names wider other
  | _, _, .name scopes named => .name (scopes.mono within) named
  | _, _, .element handles index => .element (within _ _ _ handles) index
  | _, _, .entry handles text => .entry (within _ _ _ handles) text
  | _, _, .items each => .items (Location.Linked.monoItems within each)
  | _, _, .entries each => .entries (Location.Linked.monoEntries within each)

theorem Location.Linked.monoItems {names : String → Bool} {link wider : Link}
    (within : link ≤ wider) :
    ∀ {locations others : List Location},
      List.Forall₂ (Location.Linked names link) locations others →
        List.Forall₂ (Location.Linked names wider) locations others
  | _, _, .nil => .nil
  | _, _, .cons first rest =>
      .cons (Location.Linked.mono within first) (Location.Linked.monoItems within rest)

theorem Location.Linked.monoEntries {names : String → Bool} {link wider : Link}
    (within : link ≤ wider) :
    ∀ {locations others : List (String × Location)},
      List.Forall₂ (Named (Location.Linked names link)) locations others →
        List.Forall₂ (Named (Location.Linked names wider)) locations others
  | _, _, .nil => .nil
  | _, _, .cons (.mk text first) rest =>
      .cons (.mk text (Location.Linked.mono within first))
        (Location.Linked.monoEntries within rest)

end

/-! ## Goals -/

/-- Goals of asynchronous evaluation that keep to some names. -/
inductive Goal.Linked (names : String → Bool) (link : Link) : Goal → Goal → Prop where
  | evaluate {node : Node} {scope other : Scope} {context : Context}
      (nodeWithin : node.keepsTo names) (scopes : scope.Linked link other)
      (mode : context.mode = .asynchronous) :
      Linked names link (.evaluate node scope context) (.evaluate node other context)
  | loop (label : Option String) {statements : List Node} {scope other : Scope}
      {context : Context}
      (statementsWithin : Node.keepTo names statements) (scopes : scope.Linked link other)
      (mode : context.mode = .asynchronous) :
      Linked names link (.loop label statements scope context)
        (.loop label statements other context)
  | times (label : Option String) (count limit : Float) {body : Node} {scope other : Scope}
      {context : Context}
      (bodyWithin : body.keepsTo names) (scopes : scope.Linked link other)
      (mode : context.mode = .asynchronous) :
      Linked names link (.times label count limit body scope context)
        (.times label count limit body other context)
  | range (label : Option String) {counter : String} (count limit : Float) {body : Node}
      {scope other : Scope} {context : Context}
      (named : names counter) (bodyWithin : body.keepsTo names)
      (scopes : scope.Linked link other) (mode : context.mode = .asynchronous) :
      Linked names link (.range label counter count limit body scope context)
        (.range label counter count limit body other context)
  | each (label : Option String) {pattern : Node} {array array' : ArrayId} (place : Nat)
      {body : Node} {scope other : Scope} {context : Context}
      (patternWithin : pattern.keepsTo names)
      (handles : link .array array.index array'.index)
      (bodyWithin : body.keepsTo names) (scopes : scope.Linked link other)
      (mode : context.mode = .asynchronous) :
      Linked names link (.each label pattern array place body scope context)
        (.each label pattern array' place body other context)
  | apply {function other : FunctionId} {arguments others : List Value} {context : Context}
      (handles : link .function function.index other.index)
      (values : List.Forall₂ (Value.Linked link) arguments others)
      (mode : context.mode = .asynchronous) (site : Option Position) :
      Linked names link (.apply function arguments context site)
        (.apply other others context site)

/-- Linked outcomes, or linked goals to go on with. -/
inductive Turn.Linked (names : String → Bool) (link : Link) : Turn → Turn → Prop where
  | answer {outcome other : Outcome} (outcomes : Outcome.Linked link outcome other) :
      Linked names link (.answer outcome) (.answer other)
  | again {goal other : Goal} (goals : goal.Linked names link other) :
      Linked names link (.again goal) (.again other)

end TreeScript
