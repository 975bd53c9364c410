import TreeScript.Proofs.Collecting

/-!
# Members that are literals and functions

Where the members of namespaces are literals and functions, what collecting them
comes to can be said in advance: they are evaluated, named and declared in order,
those of inner namespaces first, unless one of them is refused
(`Evaluation.collects_collect`).
-/

namespace TreeScript

open Rule

variable {options : Options} {host : Host} {mode : Mode} {free : Bool}
variable {world before between after reached : World}
variable {scope outer inner : Scope}

/-! ## Plain members -/

/-- Whether an expression is a literal without parts, or a function without fallbacks. -/
def Shape.isPlain : Shape → Bool
  | .function parameters _ => parameters.all fun parameter => parameter.fallback.isNone
  | shape => shape.literal?.isSome

namespace Node

/-- The members of namespaces: constants with plain names, and namespaces of such members. -/
inductive IsMember : Node → Prop where
  | block {space : String} {members : List Node} {span : Span}
      (each : ∀ member ∈ members, IsMember member) :
      IsMember (.mk (.namespaceBlock space members) span)
  | constant {target value : Node} {name : String} {attributes : List (String × Node)}
      {span : Span} (named : target.shape = .identifier name) :
      IsMember (.mk (.definition target value false attributes) span)

theorem isMember_block_iff {space : String} {members : List Node} {span : Span} :
    IsMember (.mk (.namespaceBlock space members) span) ↔ ∀ member ∈ members, member.IsMember := by
  constructor
  · rintro ⟨each⟩
    exact each
  · exact .block

theorem isMember_definition_iff {target value : Node} {isMutable : Bool}
    {attributes : List (String × Node)} {span : Span} :
    IsMember (.mk (.definition target value isMutable attributes) span) ↔
      isMutable = false ∧ ∃ name, target.shape = .identifier name := by
  constructor
  · intro valid
    cases valid with
    | constant named => exact ⟨rfl, _, named⟩
  · rintro ⟨rfl, name, named⟩
    exact .constant named

/-- All definitions in a namespace, however deep, are of plain values without attributes. -/
inductive IsPlain : Node → Prop where
  | block {space : String} {members : List Node} {span : Span}
      (each : ∀ member ∈ members, IsPlain member) :
      IsPlain (.mk (.namespaceBlock space members) span)
  | definition {target value : Node} {isMutable : Bool} {span : Span}
      (plain : value.shape.isPlain = true) :
      IsPlain (.mk (.definition target value isMutable []) span)
  | other {shape : Shape} {span : Span} (kind : shape.kind ∉ [.namespaceBlock, .definition]) :
      IsPlain (.mk shape span)

end Node

/-- A plain expression is a literal or a function. -/
theorem Shape.isPlain_cases {shape : Shape} (plain : shape.isPlain = true) :
    (∃ value, shape.literal? = some value ∧ ∀ function, value ≠ .fn function) ∨
      ∃ parameters body, shape = .function parameters body ∧
        parameters.all (fun parameter => parameter.fallback.isNone) = true := by
  cases shape with
  | null | bool _ | num _ | str _ => exact .inl ⟨_, rfl, by rintro _ ⟨⟩⟩
  | function parameters body => exact .inr ⟨parameters, body, rfl, plain⟩
  | _ => cases plain

namespace Edit

/-- A registration changes nothing but bindings. -/
theorem register_keeps (options : Options) (bound : Variable)
    (registrations : List (Scope × String)) (world : World) :
    let after := ((register options bound registrations).run.run world).2
    after.lifecycle = world.lifecycle ∧ after.steps = world.steps ∧
      after.store.functions = world.store.functions ∧
      after.store.layers.size = world.store.layers.size := by
  induction registrations generalizing world with
  | nil => exact ⟨rfl, rfl, rfl, rfl⟩
  | cons place rest inductive_step =>
      rw [run_register_cons]
      have logged : (world.log options "var:add" (some place.1.name) (some place.2)
          (some bound.value)).lifecycle = world.lifecycle ∧
          (world.log options "var:add" (some place.1.name) (some place.2)
            (some bound.value)).steps = world.steps ∧
          (world.log options "var:add" (some place.1.name) (some place.2)
            (some bound.value)).store = world.store := by
        unfold World.log
        split <;> exact ⟨rfl, rfl, rfl⟩
      obtain ⟨lifecycle, steps, store⟩ := logged
      split
      · exact ⟨lifecycle, steps, congrArg Store.functions store,
          congrArg (·.layers.size) store⟩
      · obtain ⟨lifecycle', steps', functions, layers⟩ := inductive_step _
        refine ⟨lifecycle'.trans lifecycle, steps'.trans steps, functions.trans ?_,
          layers.trans ?_⟩
        · rw [World.mapStore, store]
          rfl
        · rw [World.mapStore, store]
          exact Array.size_modify

/-- A definition succeeds if all of its places are free. -/
theorem exists_declare_ok (options : Options) (bound : Variable) {name : String}
    (holds : world.store.HasLayers scope)
    (free : ∀ place ∈ scope.places name, (world.store.bindings place.1).find? place.2 = none) :
    ∃ after, (declare options scope name bound).run.run world = (.ok (), after) := by
  generalize ran : (declare options scope name bound).run.run world = ended
  rcases ended with ⟨error | ⟨⟩, after⟩
  · have inside : ∀ place ∈ scope.registrations name,
        place.1.layer.index < world.store.layers.size := fun place mem =>
      holds.present _ (scope.layer_mem_of_registration mem)
    have apart := (scope.sublist_layers_registrations name).nodup holds.nodup
    obtain ⟨depth, within, -, taken, -⟩ := register_error options inside apart ran
    have missing := free _ (List.mem_map_of_mem (List.getElem_mem within))
    rw [Dict.contains, missing] at taken
    cases taken
  · exact ⟨after, rfl⟩

end Edit

/-- A value has been evaluated and named for a declaration. -/
structure World.Values (inner : Scope) (declaration : Declaration) (before after : World)
    (value : Value) : Prop where
  lifecycle : after.lifecycle = before.lifecycle
  steps : after.steps = before.steps + if before.lifecycle.isStopped then 0 else 1
  layers : after.store.layers = before.store.layers
  functions : ∀ function found, before.store.function? function = some found →
    after.store.function? function = some found
  makes : after.store.Makes before.lifecycle.isStopped inner declaration value

namespace Evaluation

/-- Fallbacks without an expression are known in advance. -/
theorem fallbacks_plain (scope : Scope) (context : Context) {parameters : List Parameter}
    (plain : parameters.all (fun parameter => parameter.fallback.isNone) = true) :
    fallbacks scope context parameters = pure (parameters.map Parameter.constantFallback) := by
  induction parameters with
  | nil => rfl
  | cons parameter rest inductive_step =>
      rw [List.all_cons, Bool.and_eq_true] at plain
      rcases parameter with ⟨target, isOptional, _ | node⟩
      · rw [fallbacks, traverse_cons]
        have below := inductive_step plain.2
        rw [fallbacks] at below
        rw [below]
        rfl
      · cases plain.1

/-- Where evaluation gets to a node, it has changed nothing that counts. -/
theorem same_of_arrives {entered : World} (arrives : world.Arrives options mode entered) :
    entered.store = world.store ∧ entered.steps = world.steps ∧
      entered.lifecycle = world.lifecycle := by
  cases mode with
  | synchronous => exact arrives ▸ ⟨rfl, rfl, rfl⟩
  | asynchronous =>
      rw [arrives.2, World.afterYield]
      split
      · split <;> exact ⟨rfl, rfl, rfl⟩
      · exact ⟨rfl, rfl, rfl⟩

/-- A node can be entered if a step can be afforded. -/
theorem exists_arrives_iff_affords (running : world.lifecycle.isStopped = false) :
    (∃ entered, world.Arrives options mode entered ∧ (entered.tick options).1 = true) ↔
      world.Affords options mode 1 := by
  have ticks {entered : World} (same : entered.steps = world.steps) :
      (entered.tick options).1 = true ↔
        options.stepLimit = 0 ∨ world.steps + 1 ≤ options.stepLimit := by
    rw [World.tick, same]
    simp
  rw [World.Affords, running]
  simp only [Nat.one_ne_zero, Bool.false_eq_true, false_or]
  constructor
  · rintro ⟨entered, arrives, ticked⟩
    refine ⟨?_, (ticks (same_of_arrives arrives).2.1).mp ticked⟩
    rintro rfl
    exact arrives.1
  · rintro ⟨unpaused, enough⟩
    have arrives : ∃ entered, world.Arrives options mode entered := by
      cases mode with
      | synchronous => exact ⟨world, rfl⟩
      | asynchronous => exact ⟨_, unpaused rfl, rfl⟩
    obtain ⟨entered, arrives⟩ := arrives
    exact ⟨entered, arrives, (ticks (same_of_arrives arrives).2.1).mpr enough⟩

end Evaluation

namespace Store

/-- A function that is named as soon as it is made is made with its name. -/
theorem nameFunction_newFunction (store : Store) (body : Body) (name : String) :
    (store.newFunction none body).1.nameFunction (store.newFunction none body).2 name =
      (store.newFunction (some name) body).1 := by
  have named : (store.functions.push ⟨none, [], body⟩).modify store.functions.size
      (fun cell => { cell with name := some name }) =
        store.functions.push ⟨some name, [], body⟩ := by
    refine Array.ext (by simp) fun place within _ => ?_
    rw [Array.size_modify, Array.size_push] at within
    rw [Array.getElem_modify, Array.getElem_push, Array.getElem_push]
    rcases Nat.lt_succ_iff_lt_or_eq.mp within with earlier | rfl
    · rw [if_neg (Nat.ne_of_gt earlier), dif_pos earlier, dif_pos earlier]
    · rw [if_pos rfl, dif_neg (Nat.lt_irrefl _), dif_neg (Nat.lt_irrefl _)]
  exact congrArg (fun functions => { store with functions := functions }) named

theorem function?_newFunction (store : Store) (name : Option String) (body : Body) :
    (store.newFunction name body).1.function? (store.newFunction name body).2 =
      some ⟨name, [], body⟩ :=
  Array.getElem?_push_size

theorem function?_newFunction_of_some {store : Store} {function : FunctionId} {found : Function}
    (present : store.function? function = some found) (name : Option String) (body : Body) :
    (store.newFunction name body).1.function? function = some found := by
  have inside : function.index < store.functions.size :=
    (Array.getElem?_eq_some_iff.mp present).1
  rw [function?, newFunction, Array.getElem?_push, if_neg (Nat.ne_of_lt inside)]
  exact present

end Store

namespace World.Values

variable {declaration : Declaration} {value : Value}

theorem bindings (values : Values inner declaration before after value) (layer : LayerId) :
    after.store.bindings layer = before.store.bindings layer := by
  rw [Store.bindings, Store.bindings, values.layers]

theorem hasLayers (values : Values inner declaration before after value)
    (holds : before.store.HasLayers scope) : after.store.HasLayers scope :=
  holds.of_le (Nat.le_of_eq (congrArg Array.size values.layers).symm)

theorem inside (values : Values inner declaration before after value)
    (holds : before.store.HasLayers scope) {name : String} :
    ∀ place ∈ scope.registrations name, place.1.layer.index < after.store.layers.size :=
  fun _ mem => (values.hasLayers holds).present _ (scope.layer_mem_of_registration mem)

/-- What has been evaluated for a member is declared. -/
theorem declares {name : String} {member : Node}
    (values : Values inner ⟨[], name, member, []⟩ before between value)
    (holds : before.store.HasLayers inner)
    (declared : (Edit.declare options inner name (.plain false value)).run.run between =
      (.ok (), after)) :
    Declares inner [⟨[], name, member, []⟩] before after := by
  obtain ⟨-, free, bound⟩ := Edit.register_ok options (values.inside holds) declared
  have kept := Edit.register_keeps options (.plain false value) (inner.registrations name) between
  rw [show Edit.register options (.plain false value) (inner.registrations name) =
    Edit.declare options inner name (.plain false value) from rfl, declared] at kept
  obtain ⟨lifecycle, steps, functions, layers⟩ := kept
  have sameFunctions (function : FunctionId) :
      after.store.function? function = between.store.function? function := by
    rw [Store.function?, Store.function?, functions]
  refine ⟨lifecycle.trans values.lifecycle, steps.trans values.steps, ?_, ?_, ?_, ?_, ?_⟩
  · exact Nat.le_of_eq (layers.trans (congrArg Array.size values.layers)).symm
  · exact fun function found present =>
      (sameFunctions function).trans (values.functions function found present)
  · refine ⟨List.nodup_singleton _, fun sought mem place placed => ?_⟩
    cases List.mem_singleton.mp mem
    exact values.bindings place.1 ▸ free place placed
  · intro layer sought _ elsewhere
    exact ((bound layer sought).trans (if_neg (elsewhere _ (.head _)))).trans
      (by rw [values.bindings])
  · intro declaration mem
    cases List.mem_singleton.mp mem
    refine ⟨inner, value, .here, values.makes.later fun function found present => ?_,
      fun place placed => (bound place.1 place.2).trans (if_pos placed)⟩
    exact (sameFunctions function).trans present

end World.Values

/-- It is the same to make a function and to name it, and to make it with its name. -/
theorem World.perform_nameFunction_newFunction (world : World) (body : Body) (name : String) :
    ((world.perform options (.newFunction none body)).2.perform options
      (.nameFunction (world.perform options (.newFunction none body)).1 name)).2 =
      (world.perform options (.newFunction (some name) body)).2 :=
  congrArg (fun store => { world with store := store })
    (world.store.nameFunction_newFunction body name)

namespace Evaluation

section Member

variable {target value : Node} {name : String}

/-- Only functions are named. -/
theorem nameLiteral_of_ne {given : Value} (noFunction : ∀ function, given ≠ .fn function) :
    nameLiteral inner target value given = pure () := by
  unfold nameLiteral
  split
  · exact (noFunction _ rfl).elim
  · rfl

/-- A function without fallbacks is made at once. -/
theorem construct_function {parameters : List Parameter} (body : List Node)
    (plain : parameters.all (fun parameter => parameter.fallback.isNone) = true)
    (context : Context) (start : Position) :
    construct inner context start (.function parameters body) =
      perform (.newFunction none (.closure parameters
        (parameters.map Parameter.constantFallback) body inner)) >>= fun function =>
          pure (.fn function) := by
  rw [construct, fallbacks_plain inner context plain, pure_bind]

/-- A function is named after its member, with the namespaces that this lies in. -/
theorem nameLiteral_function {parameters : List Parameter} {body : List Node}
    (named : target.shape = .identifier name) (shape : value.shape = .function parameters body)
    (function : FunctionId) :
    nameLiteral inner target value (.fn function) =
      perform (.nameFunction function (inner.qualifier ++ name)) := by
  unfold nameLiteral
  rw [shape, named]

/-- What is evaluated and named for a member is made as its expression says. -/
theorem values_of_ends (named : target.shape = .identifier name)
    (plain : value.shape.isPlain = true) {given : Value}
    (ends : (evaluate value inner (.top mode)).Ends options host mode.isFree before between
      (.ok given))
    (endsThen : (nameLiteral inner target value given).Ends options host mode.isFree between after
      (.ok ())) :
    before.Values inner ⟨[], name, value, []⟩ after given := by
  rcases ends_evaluate_top_iff.mp ends with
    ⟨stopped, rfl, ⟨⟩⟩ | ⟨running, entered, outcome, arrives, constructs, same⟩
  · -- While evaluation is stopped, any node evaluates to nothing.
    rw [nameLiteral_of_ne (by rintro _ ⟨⟩)] at endsThen
    obtain ⟨rfl, -⟩ := ends_pure_iff.mp endsThen
    exact ⟨rfl, by rw [stopped]; rfl, rfl, fun _ _ found => found, .nothing stopped⟩
  · obtain rfl : outcome = .ok given := by
      cases outcome <;> cases same
      rfl
    obtain ⟨store, steps, lifecycle⟩ := same_of_arrives arrives
    have ticked : (entered.tick options).2.steps = before.steps +
        if before.lifecycle.isStopped then 0 else 1 := by
      rw [running]
      exact congrArg (· + 1) steps
    have kept : (entered.tick options).2.store = before.store := store
    have layers := congrArg Store.layers kept
    split at constructs
    · rcases Shape.isPlain_cases plain with
        ⟨literal, isLiteral, noFunction⟩ | ⟨parameters, body, shape, without⟩
      · rw [construct_literal isLiteral] at constructs
        obtain ⟨rfl, ⟨⟩⟩ := ends_pure_iff.mp constructs
        rw [nameLiteral_of_ne noFunction] at endsThen
        obtain ⟨rfl, -⟩ := ends_pure_iff.mp endsThen
        refine ⟨lifecycle, ticked, layers, fun _ _ found => ?_,
          .literal running isLiteral⟩
        rw [kept]
        exact found
      · rw [shape, construct_function body without] at constructs
        have constructs := ends_perform_bind_iff.mp constructs
        obtain ⟨rfl, ⟨⟩⟩ := ends_pure_iff.mp constructs
        rw [nameLiteral_function named shape] at endsThen
        obtain ⟨rfl, -⟩ := ends_perform_iff.mp endsThen
        rw [World.perform_nameFunction_newFunction]
        refine ⟨lifecycle, ticked, layers, fun _ _ found => ?_,
          .function running shape ?_⟩
        · exact Store.function?_newFunction_of_some (kept ▸ found) _ _
        · exact Store.function?_newFunction _ _ _
    · cases (ends_fail_iff.mp constructs).2

/-- A value can be evaluated for a member if a step can be afforded. -/
theorem exists_evaluated_iff (plain : value.shape.isPlain = true) :
    (∃ between given, (evaluate value inner (.top mode)).Ends options host mode.isFree world
        between (.ok given)) ↔
      world.Affords options mode 1 := by
  cases stopped : world.lifecycle.isStopped with
  | true =>
      refine iff_of_true ⟨world, .null, ?_⟩ (.inr (.inl stopped))
      exact ends_evaluate_top_iff.mpr (.inl ⟨stopped, rfl, rfl⟩)
  | false =>
      rw [← exists_arrives_iff_affords stopped]
      constructor
      · rintro ⟨between, given, ends⟩
        rcases ends_evaluate_top_iff.mp ends with
          ⟨stopped', -⟩ | ⟨-, entered, outcome, arrives, constructs, same⟩
        · cases stopped.symm.trans stopped'
        · refine ⟨entered, arrives, ?_⟩
          by_contra refused
          rw [if_neg refused] at constructs
          obtain ⟨rfl, rfl⟩ := ends_fail_iff.mp constructs
          cases same
      · rintro ⟨entered, arrives, ticked⟩
        have constructs : ∃ between given,
            (construct inner (.top mode) value.start value.shape).Ends options host mode.isFree
              (entered.tick options).2 between (.ok given) := by
          rcases Shape.isPlain_cases plain with
            ⟨literal, isLiteral, -⟩ | ⟨parameters, body, shape, without⟩
          · rw [construct_literal isLiteral]
            exact ⟨_, literal, ends_pure_iff.mpr ⟨rfl, rfl⟩⟩
          · rw [shape, construct_function body without]
            exact ⟨_, _, ends_perform_bind_iff.mpr (ends_pure_iff.mpr ⟨rfl, rfl⟩)⟩
        obtain ⟨between, given, constructs⟩ := constructs
        refine ⟨between, given, ends_evaluate_top_iff.mpr (.inr ⟨stopped, entered, .ok given,
          arrives, ?_, rfl⟩)⟩
        rw [if_pos ticked]
        exact constructs

/-- Naming always succeeds. -/
theorem exists_named (inner : Scope) (target value : Node) (given : Value) (world : World) :
    ∃ named, (nameLiteral inner target value given).Ends options host free world named
      (.ok ()) := by
  unfold nameLiteral
  split
  · exact ⟨_, ends_perform_iff.mpr ⟨rfl, rfl⟩⟩
  · exact ⟨_, ends_pure_iff.mpr ⟨rfl, rfl⟩⟩

/-- A member without attributes is evaluated, named and declared. -/
theorem ends_defineMember_iff {position : Position} (named : target.shape = .identifier name) :
    (defineMember outer inner mode position target value false []).Ends options host mode.isFree
        world reached (.ok ()) ↔
      ∃ between after given,
        (evaluate value inner (.top mode)).Ends options host mode.isFree world between
          (.ok given) ∧
        (nameLiteral inner target value given).Ends options host mode.isFree between after
          (.ok ()) ∧
        (Edit.declare options inner name (.plain false given)).run.run after =
          (.ok (), reached) := by
  refine (ends_defineMember_ok_iff named).trans ⟨?_, ?_⟩
  · rintro ⟨valued, attributed, known, defined, given, held, values, holds, names, declares, rfl⟩
    obtain ⟨rfl, ⟨⟩⟩ := ends_pure_iff.mp holds
    exact ⟨attributed, known, given, values, names, declares⟩
  · rintro ⟨valued, known, given, values, names, declares⟩
    exact ⟨valued, valued, known, reached, given, [], values, ends_pure_iff.mpr ⟨rfl, rfl⟩, names,
      declares, rfl⟩

/-- A constant without attributes is declared. -/
theorem collects_constant (position : Position) (named : target.shape = .identifier name)
    (plain : value.shape.isPlain = true) :
    (defineMember outer inner mode position target value false []).Collects options host mode
      inner True [⟨[], name, value, []⟩] where
  ends_iff {world} holds := by
    have room : world.store.HasRoom inner [name] ↔ ∀ place ∈ inner.places name,
        (world.store.bindings place.1).find? place.2 = none := by
      simp [Store.HasRoom]
    show _ ↔ True ∧ world.store.HasRoom inner [name] ∧ world.Affords options mode 1
    rw [room, true_and, ← exists_evaluated_iff plain]
    constructor
    · rintro ⟨reached, ends⟩
      obtain ⟨between, after, given, evaluates, names, declares⟩ :=
        (ends_defineMember_iff named).mp ends
      have values := values_of_ends named plain evaluates names
      obtain ⟨-, free, -⟩ := Edit.register_ok options (values.inside holds) declares
      exact ⟨fun place placed => values.bindings place.1 ▸ free place placed,
        between, given, evaluates⟩
    · rintro ⟨free, between, given, evaluates⟩
      obtain ⟨after, names⟩ := exists_named inner target value given between
      have values := values_of_ends named plain evaluates names
      have stillFree : ∀ place ∈ inner.places name,
          (after.store.bindings place.1).find? place.2 = none :=
        fun place placed => (values.bindings place.1).symm ▸ free place placed
      obtain ⟨reached, declares⟩ := Edit.exists_declare_ok options (.plain false given)
        (values.hasLayers holds) stillFree
      exact ⟨reached, (ends_defineMember_iff named).mpr
        ⟨between, after, given, evaluates, names, declares⟩⟩
  declares holds ends := by
    obtain ⟨between, after, given, evaluates, names, declares⟩ :=
      (ends_defineMember_iff named).mp ends
    exact (values_of_ends named plain evaluates names).declares holds declares

/-- A definition declares its name, unless it is refused. -/
theorem collects_defineMember {isMutable : Bool} {span : Span} (position : Position)
    (plain : value.shape.isPlain = true) :
    (defineMember outer inner mode position target value isMutable []).Collects options host mode
      inner (Node.IsMember (.mk (.definition target value isMutable []) span))
      (Node.declarations (.mk (.definition target value isMutable []) span)) := by
  cases named : target.shape with
  | identifier name =>
      have declares : Node.declarations (.mk (.definition target value isMutable []) span) =
          [⟨[], name, value, []⟩] := by rw [Node.declarations, named]
      rw [declares]
      cases isMutable with
      | false =>
          exact (collects_constant position named plain).congr
            (iff_true_intro (.constant named)) (.refl _)
      | true =>
          refine (Collects.refused ?_ _).congr (iff_false_intro ?_) (.refl _)
          · intro world reached ends
            rw [defineMember, named] at ends
            exact not_ends_refuseMember ends
          · exact fun valid => Bool.noConfusion (Node.isMember_definition_iff.mp valid).1
  | _ =>
      refine (Collects.refused ?_ _).congr (iff_false_intro ?_) (.refl _)
      · intro world reached ends
        rw [defineMember, named] at ends
        cases (ends_fail_iff.mp ends).2
      · intro valid
        obtain ⟨-, name, named'⟩ := Node.isMember_definition_iff.mp valid
        cases named.symm.trans named'

end Member

/-- The members of a namespace that are no namespaces themselves are declared in order. -/
theorem collects_defineMembers (outer inner : Scope) {members : List Node}
    (plain : ∀ member ∈ members, member.isBlock = false → member.IsPlain) :
    (defineMembers outer inner mode members).Collects options host mode inner
      (∀ member ∈ members, member.isBlock = false → member.IsMember)
      (Node.declarationsOf (members.filter fun member => !member.isBlock)) := by
  induction members with
  | nil => exact (Collects.nothing inner).congr (by simp) .nil
  | cons member rest inductive_step =>
      obtain ⟨here, below⟩ := List.forall_mem_cons.mp plain
      have later := inductive_step below
      rcases member with ⟨shape, span⟩
      cases shape with
      | namespaceBlock space members =>
          exact later.congr (List.forall_mem_cons.trans (and_iff_right nofun)) (.refl _)
      | definition target value isMutable attributes =>
          cases here rfl with
          | definition isPlain =>
              refine ((collects_defineMember span.start isPlain).andThen later).congr ?_ (.refl _)
              exact List.forall_mem_cons.trans (and_congr_left' (forall_prop_of_true rfl))
          | other kind => exact (kind (.tail _ (.head _))).elim
      | _ =>
          refine (Collects.refused not_ends_refuseMember _).congr (iff_false_intro ?_) (.refl _)
          exact fun each => nomatch each _ (.head _) rfl

mutual

/-- A namespace declares what its members declare. -/
theorem collects_collectNode (scope : Scope) :
    ∀ node : Node, (node.isBlock = true → node.IsPlain) →
      (collectNode mode scope node).Collects options host mode scope
        (node.isBlock = true → node.IsMember)
        (Node.declarationsOf ([node].filter Node.isBlock))
  | .mk shape span, plain => by
      cases shape with
      | namespaceBlock space members =>
          cases plain rfl with
          | block each =>
              have declares (layer : LayerId) :
                  (collect mode (.member layer space scope) members >>= fun _ =>
                    defineMembers scope (.member layer space scope) mode members).Collects options
                      host mode (.member layer space scope) (∀ member ∈ members, member.IsMember)
                      (Node.declarationsOf members) := by
                refine ((collects_collect (.member layer space scope) members
                  fun member mem _ => each member mem).andThen (collects_defineMembers scope
                    (.member layer space scope) fun member mem _ => each member mem)).congr ?_
                      (Node.perm_declarationsOf_isBlock members)
                refine ⟨fun each => ⟨fun member mem _ => each member mem,
                  fun member mem _ => each member mem⟩, fun ⟨blocks, others⟩ member mem => ?_⟩
                cases isBlock : member.isBlock with
                | true => exact blocks member mem isBlock
                | false => exact others member mem isBlock
              refine (Collects.inNamespace declares).congr ?_ (.of_eq ?_)
              · exact (forall_prop_of_true rfl).trans Node.isMember_block_iff
              · exact (List.append_nil _).symm
          | other kind => exact (kind (.head _)).elim
      | _ => exact (Collects.nothing scope).congr (iff_true_intro nofun) (.refl _)

/-- The namespaces among some nodes declare what their members declare. -/
theorem collects_collect (scope : Scope) :
    ∀ nodes : List Node, (∀ node ∈ nodes, node.isBlock = true → node.IsPlain) →
      (collect mode scope nodes).Collects options host mode scope
        (∀ node ∈ nodes, node.isBlock = true → node.IsMember)
        (Node.declarationsOf (nodes.filter Node.isBlock))
  | [], _ => (Collects.nothing scope).congr (by simp) .nil
  | node :: rest, plain => by
      obtain ⟨here, below⟩ := List.forall_mem_cons.mp plain
      refine ((collects_collectNode scope node here).andThen
        (collects_collect scope rest below)).congr List.forall_mem_cons (.of_eq ?_)
      rw [← Node.declarationsOf_append, ← List.filter_append]
      rfl

end

end Evaluation

end TreeScript
