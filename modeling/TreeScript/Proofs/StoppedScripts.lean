import TreeScript.Proofs.ActionAgreement
import TreeScript.Proofs.Bindings
import TreeScript.Proofs.StoppedRules

/-!
# Scripts in a stopped world

A script that is run after evaluation has been stopped takes no step and prints nothing,
and what was bound before stays as it is.  But its namespaces are collected all the same:
their members are defined, as `null`, and anything else in them is refused.  So a script
does nothing at all if and only if there is nothing in its namespaces but namespaces.
Otherwise it fails or binds a new name in the root scope (`Evaluation.comes_collect`).
-/

namespace TreeScript

open Rule

/-! ## What is told -/

namespace Event

variable {α : Type}

/-- Whether the host is shown an output. -/
def isPrint : Event α → Bool
  | .print _ => true
  | _ => false

/-- Whether the host is told that a name is bound, read or written. -/
def isBinding : Event α → Bool
  | .log name _ _ _ => ["var:add", "var:read", "var:write"].contains name
  | _ => false

end Event

/-! ## Namespaces -/

namespace Node

/-- Whether a node is a namespace. -/
def isNamespace (node : Node) : Bool :=
  match node.shape with
  | .namespaceBlock _ _ => true
  | _ => false

mutual

/-- Whether a node is a namespace with nothing in it but such namespaces. -/
def isHollow : Node → Bool
  | .mk (.namespaceBlock _ members) _ => areHollow members
  | _ => false

/-- Whether all nodes are namespaces with nothing in them but such namespaces. -/
def areHollow : List Node → Bool
  | [] => true
  | node :: rest => node.isHollow && areHollow rest

end

/-- Whether there is nothing in the namespaces among some nodes but namespaces. -/
def declareNothing : List Node → Bool
  | [] => true
  | node :: rest => (!node.isNamespace || node.isHollow) && declareNothing rest

theorem areHollow_eq (nodes : List Node) :
    areHollow nodes = (declareNothing nodes && nodes.all isNamespace) := by
  induction nodes with
  | nil => rfl
  | cons node rest inductive_step =>
      rw [areHollow, declareNothing, List.all_cons, inductive_step]
      rcases node with ⟨shape, span⟩
      cases shape with
      | namespaceBlock name members =>
          cases isHollow (.mk (.namespaceBlock name members) span) <;>
            simp [isNamespace]
      | _ => simp [isHollow, isNamespace]

end Node

/-! ## What a stopped script leaves alone -/

/--
A later world in which no step was taken, the host was told nothing but what is allowed, and
the bindings of the layers that were known before are what they were.
-/
structure World.Spares (allowed : Event Snapshot → Prop) (known : Nat) (before after : World) :
    Prop where
  steps : after.steps = before.steps
  lifecycle : after.lifecycle = before.lifecycle
  told : ∃ told, after.events.toList = before.events.toList ++ told ∧ ∀ event ∈ told, allowed event
  layers : before.store.layers.size ≤ after.store.layers.size
  kept : ∀ layer name bound, layer.index < known →
    (before.store.bindings layer).find? name = some bound →
    (after.store.bindings layer).find? name = some bound

/-- No name was bound anew in the layers that were known before. -/
def World.AddsNothing (known : Nat) (before after : World) : Prop :=
  ∀ layer name, layer.index < known →
    (before.store.bindings layer).find? name = none →
    (after.store.bindings layer).find? name = none

/-- An evaluation that has failed, or has bound a name of the root scope. -/
def World.Disturbed {α : Type} (root : LayerId) (before after : World)
    (result : Except Interrupt α) : Prop :=
  (∃ error, result = .error (.error error)) ∨
    ∃ name, (before.store.bindings root).find? name = none ∧
      (after.store.bindings root).find? name ≠ none

namespace World

variable {allowed also : Event Snapshot → Prop} {known : Nat} {world before between after : World}

namespace Spares

theorem refl (world : World) : world.Spares allowed known world where
  steps := rfl
  lifecycle := rfl
  told := ⟨[], (List.append_nil _).symm, nofun⟩
  layers := Nat.le_refl _
  kept _ _ _ _ found := found

theorem trans (first : before.Spares allowed known between)
    (second : between.Spares allowed known after) :
    before.Spares allowed known after where
  steps := second.steps.trans first.steps
  lifecycle := second.lifecycle.trans first.lifecycle
  told := by
    obtain ⟨told, same, fits⟩ := first.told
    obtain ⟨more, sameAfter, fitsAfter⟩ := second.told
    refine ⟨told ++ more, ?_, List.forall_mem_append.mpr ⟨fits, fitsAfter⟩⟩
    rw [sameAfter, same, List.append_assoc]
  layers := Nat.le_trans first.layers second.layers
  kept layer name bound inside found :=
    second.kept layer name bound inside (first.kept layer name bound inside found)

theorem mono (spares : before.Spares allowed known after)
    (implies : ∀ event, allowed event → also event) :
    before.Spares also known after where
  steps := spares.steps
  lifecycle := spares.lifecycle
  told := by
    obtain ⟨told, same, fits⟩ := spares.told
    exact ⟨told, same, fun event mem => implies event (fits event mem)⟩
  layers := spares.layers
  kept := spares.kept

/-- A name that is not bound afterwards was not bound before. -/
theorem missing (spares : before.Spares allowed known after) {layer : LayerId} {name : String}
    (inside : layer.index < known)
    (missing : (after.store.bindings layer).find? name = none) :
    (before.store.bindings layer).find? name = none := by
  cases found : (before.store.bindings layer).find? name with
  | none => rfl
  | some bound => cases missing.symm.trans (spares.kept layer name bound inside found)

theorem log (options : Options) (name : String) (scope bound : Option String)
    (value : Option Value) (world : World)
    (fits : ∀ shown, allowed (.log name scope bound shown)) :
    world.Spares allowed known (world.log options name scope bound value) := by
  unfold World.log
  split
  · exact ⟨rfl, rfl, ⟨[_], Array.toList_push .., List.forall_mem_singleton.mpr (fits _)⟩,
      Nat.le_refl _, fun _ _ _ _ found => found⟩
  · exact refl world

/-- A change of the bindings. -/
theorem mapStore {change : Store → Store}
    (layers : world.store.layers.size ≤ (change world.store).layers.size)
    (kept : ∀ layer name bound, layer.index < known →
      (world.store.bindings layer).find? name = some bound →
      ((change world.store).bindings layer).find? name = some bound) :
    world.Spares allowed known (world.mapStore change) :=
  ⟨rfl, rfl, ⟨[], (List.append_nil _).symm, nofun⟩, layers, kept⟩

/-- A name is bound in a layer that was not known, or for the first time. -/
theorem bind {layer : LayerId} {name : String}
    (fresh : layer.index < known → (world.store.bindings layer).find? name = none)
    (bound : Variable) :
    world.Spares allowed known (world.mapStore fun store =>
      store.modifyLayer layer fun bindings => bindings.insert name bound) := by
  refine mapStore (Nat.le_of_eq Array.size_modify.symm) ?_
  intro other sought earlier inside found
  rw [Store.find?_bind, if_neg ?_]
  · exact found
  · rintro ⟨rfl, rfl, -⟩
    cases (fresh inside).symm.trans found

end Spares

theorem AddsNothing.refl (world : World) : world.AddsNothing known world :=
  fun _ _ _ missing => missing

theorem AddsNothing.trans (first : before.AddsNothing known between)
    (second : between.AddsNothing known after) :
    before.AddsNothing known after :=
  fun layer name inside missing => second layer name inside (first layer name inside missing)

theorem AddsNothing.log (options : Options) (name : String) (scope bound : Option String)
    (value : Option Value) (world : World) :
    world.AddsNothing known (world.log options name scope bound value) := by
  unfold World.log
  split <;> exact .refl world

section Layers

variable {created : Dict Variable} (given : known ≤ world.store.layers.size)

include given

theorem find?_newLayer (options : Options) {layer : LayerId} (inside : layer.index < known)
    (name : String) :
    ((world.perform options (.newLayer created)).2.store.bindings layer).find? name =
      (world.store.bindings layer).find? name :=
  congrArg (Dict.find? · name)
    (world.store.bindings_newLayer created (Nat.lt_of_lt_of_le inside given))

theorem spares_newLayer (options : Options) :
    world.Spares allowed known (world.perform options (.newLayer created)).2 where
  steps := rfl
  lifecycle := rfl
  told := ⟨[], (List.append_nil _).symm, nofun⟩
  layers := Nat.le_of_lt (Nat.lt_of_lt_of_eq (Nat.lt_succ_self _) (Array.size_push _).symm)
  kept layer name bound inside found := by
    rw [world.find?_newLayer given options inside]
    exact found

theorem addsNothing_newLayer (options : Options) :
    world.AddsNothing known (world.perform options (.newLayer created)).2 := by
  intro layer name inside missing
  rw [world.find?_newLayer given options inside]
  exact missing

end Layers

section Disturbances

variable {α β : Type} {root : LayerId} {result : Except Interrupt α} {value : β}

/-- A new name stays, whatever comes next. -/
theorem Disturbed.later (disturbed : before.Disturbed root between (.ok value : Except Interrupt β))
    (spares : between.Spares allowed known after) (inside : root.index < known) :
    before.Disturbed root after result := by
  rcases disturbed with ⟨error, same⟩ | ⟨name, missing, bound⟩
  · cases same
  · exact .inr ⟨name, missing, fun absent => bound (spares.missing inside absent)⟩

/-- A name that is new after some steps was not bound before them. -/
theorem Disturbed.earlier (disturbed : between.Disturbed root after result)
    (spares : before.Spares allowed known between) (inside : root.index < known) :
    before.Disturbed root after result := by
  rcases disturbed with failed | ⟨name, missing, bound⟩
  · exact .inl failed
  · exact .inr ⟨name, spares.missing inside missing, bound⟩

end Disturbances

end World

/-! ## Definitions -/

/-- A scope of namespaces in a root, the layers of which are not known yet. -/
inductive Scope.Inside (root : LayerId) (known : Nat) : Scope → Prop where
  | root : Inside root known (.root root)
  | member {layer : LayerId} {space : String} {outer : Scope}
      (fresh : known ≤ layer.index)
      (inside : Inside root known outer) :
      Inside root known (.member layer space outer)

namespace Event

/-- An event that shows no output. -/
def Silent (event : Event Snapshot) : Prop :=
  event.isPrint = false

/-- An event that shows no output and is not about a name. -/
def Plain (event : Event Snapshot) : Prop :=
  event.isPrint = false ∧ event.isBinding = false

end Event

namespace Edit

variable {root : LayerId} {known : Nat} {scope : Scope} {world : World}

/-- A definition inside namespaces is refused, or binds a name of the root. -/
theorem spares_register (options : Options) (bound : Variable)
    (inside : scope.Inside root known) (rootKnown : root.index < known) (name : String)
    (given : known ≤ world.store.layers.size) :
    let reached := (register options bound (scope.registrations name)).run.run world
    world.Spares Event.Silent known reached.2 ∧
      world.Disturbed root reached.2 (reached.1.mapError Interrupt.error) := by
  induction inside generalizing name world with
  | root =>
      rw [Scope.registrations, run_register_cons]
      dsimp only
      have logged : world.Spares Event.Silent known (world.log options "var:add" _ _ _) :=
        .log options "var:add" (some (Scope.root root).name) (some name) (some bound.value) world
          fun _ => rfl
      generalize world.log options "var:add" _ _ _ = between at logged ⊢
      split
      · exact ⟨logged, .inl ⟨_, rfl⟩⟩
      · rename_i absent
        have missing : (between.store.bindings root).find? name = none :=
          Option.not_isSome_iff_eq_none.mp absent
        refine ⟨logged.trans (.bind (fun _ => missing) bound), .inr ⟨name, ?_, ?_⟩⟩
        · exact logged.missing rootKnown missing
        · have stored := Nat.lt_of_lt_of_le rootKnown (Nat.le_trans given logged.layers)
          show ((between.mapStore _).store.bindings root).find? name ≠ none
          rw [World.mapStore, Store.find?_bind, if_pos ⟨rfl, rfl, stored⟩]
          nofun
  | @member layer space outer fresh inside inductive_step =>
      rw [Scope.registrations, run_register_cons]
      dsimp only
      have logged : world.Spares Event.Silent known (world.log options "var:add" _ _ _) :=
        .log options "var:add" (some (Scope.member layer space outer).name) (some name)
          (some bound.value) world fun _ => rfl
      generalize world.log options "var:add" _ _ _ = between at logged ⊢
      split
      · exact ⟨logged, .inl ⟨_, rfl⟩⟩
      · have bound : between.Spares Event.Silent known (between.mapStore fun store =>
            store.modifyLayer layer fun bindings => bindings.insert name bound) :=
          .bind (fun known => (Nat.not_lt_of_le fresh known).elim) bound
        have first := logged.trans bound
        obtain ⟨spares, disturbed⟩ := inductive_step
          (space ++ ":" ++ name) (Nat.le_trans given first.layers)
        exact ⟨first.trans spares, disturbed.earlier first rootKnown⟩

/-- Attributes of `null` are put on its new binding. -/
theorem spares_decorate {layer : LayerId} (fresh : known ≤ layer.index) (space : String)
    (outer : Scope) (name : String) (span : Span) (attributes : List Attribute) (world : World) :
    world.Spares Event.Silent known ((decorate (.member layer space outer)
      (.mk (.identifier name) span) .null attributes).run.run world).2 := by
  unfold decorate
  split
  · exact .refl world
  · show world.Spares Event.Silent known (world.mapStore fun store =>
      store.describe layer name attributes)
    refine .mapStore ?_ ?_
    · unfold Store.describe
      split
      · exact Nat.le_of_eq Array.size_modify.symm
      · exact Nat.le_refl _
    · intro other sought bound inside found
      unfold Store.describe
      split
      · rw [Store.find?_bind, if_neg ?_]
        · exact found
        · rintro ⟨rfl, -, -⟩
          exact Nat.not_lt_of_le fresh inside
      · exact found

end Edit

/-! ## Parts of a script -/

/--
How a part of a script ends that declares nothing, and how one ends that tries to declare
something: the one comes to a value, the other fails or binds a new name of the root.
-/
def World.Ended {α : Type} (root : LayerId) (known : Nat) (value : α) (before : World) :
    Bool → World → Except Interrupt α → Prop
  | true, after, result =>
      result = .ok value ∧ before.Spares Event.Plain known after ∧ before.AddsNothing known after
  | false, after, result =>
      before.Spares Event.Silent known after ∧ before.Disturbed root after result

namespace World.Ended

variable {α : Type} {root : LayerId} {known : Nat} {before between after : World} {value : α}
variable {result : Except Interrupt α} {hollow hollowThen : Bool}

theorem spares (ended : before.Ended root known value hollow after result) :
    before.Spares Event.Silent known after := by
  cases hollow with
  | true => exact ended.2.1.mono fun _ plain => plain.1
  | false => exact ended.1

/-- Two parts, one after the other. -/
theorem trans {β : Type} {first given : β} (rootKnown : root.index < known)
    (ended : before.Ended root known first hollow between (.ok given))
    (endedThen : between.Ended root known value hollowThen after result) :
    before.Ended root known value (hollow && hollowThen) after result := by
  have silent := ended.spares
  cases hollow with
  | true =>
      obtain ⟨-, spares, addsNothing⟩ := ended
      cases hollowThen with
      | true =>
          obtain ⟨same, sparesThen, addsNothingThen⟩ := endedThen
          exact ⟨same, spares.trans sparesThen, addsNothing.trans addsNothingThen⟩
      | false => exact ⟨silent.trans endedThen.1, endedThen.2.earlier silent rootKnown⟩
  | false =>
      exact ⟨silent.trans endedThen.spares, ended.2.later endedThen.spares rootKnown⟩

/-- What interrupts the first of two parts ends both of them. -/
theorem interrupted {interrupt : Interrupt}
    (ended : before.Ended root known () hollow after (.error interrupt)) :
    before.Ended root known value (hollow && hollowThen) after (.error interrupt) := by
  cases hollow with
  | true => cases ended.1
  | false =>
      obtain ⟨spares, ⟨error, same⟩ | added⟩ := ended
      · cases same
        exact ⟨spares, .inl ⟨error, rfl⟩⟩
      · exact ⟨spares, .inr added⟩

end World.Ended

namespace Evaluation

variable {options : Options} {host : Host} {mode : Mode} {root : LayerId} {known : Nat}
variable {world : World}

section Parts

variable (stopped : world.lifecycle.isStopped = true) (given : known ≤ world.store.layers.size)

include stopped given

/-- A part of a script that is followed by another one. -/
theorem comes_ended_bind {α : Type} {first : Rule Unit} {rest : Rule α} {value : α}
    {hollow hollowThen : Bool} (rootKnown : root.index < known)
    (comes : first.Comes options host world (world.Ended root known () hollow))
    (comesThen : ∀ next : World, next.lifecycle.isStopped = true →
      known ≤ next.store.layers.size →
      rest.Comes options host next (next.Ended root known value hollowThen)) :
    (first >>= fun _ => rest).Comes options host world
      (world.Ended root known value (hollow && hollowThen)) := by
  refine comes.bind ?_ fun next interrupt ended => ended.interrupted
  rintro next ⟨⟩ ended
  have spares := ended.spares
  have givenThen := Nat.le_trans given spares.layers
  refine (comesThen next ?_ givenThen).mono fun _ _ => ended.trans rootKnown
  rw [spares.lifecycle]
  exact stopped

end Parts

/-! ## Collecting namespaces -/

section Members

variable {scope : Scope} {space : String} {layer : LayerId}
variable (rootKnown : root.index < known)
variable (fresh : known ≤ layer.index) (inside : scope.Inside root known)

include rootKnown fresh inside

/-- A member of a namespace is bound to `null`, or refused. -/
theorem comes_defineMember (stopped : world.lifecycle.isStopped = true)
    (given : known ≤ world.store.layers.size) (position : Position) (target literal : Node)
    (isMutable : Bool) (attributes : List (String × Node)) :
    (defineMember scope (.member layer space scope) mode position target literal isMutable
      attributes).Comes options host world (world.Ended root known () false) := by
  obtain ⟨shape, span⟩ := target
  unfold defineMember
  split
  · rename_i name same
    obtain rfl : shape = .identifier name := same
    cases isMutable with
    | true => exact comes_fail ⟨.refl _, .inl ⟨_, rfl⟩⟩
    | false =>
        have unnamed : (nameLiteral (.member layer space scope) (.mk (.identifier name) span)
            literal .null).Returns options host world () := by
          unfold nameLiteral
          split
          · rename_i noFunction
            cases noFunction
          · exact comes_pure ⟨rfl, rfl⟩
        refine (returns_expectingValue (returns_evaluate stopped literal)).bind ?_
        refine (returns_expectingAttributes
          (returns_evaluateAttributes stopped attributes)).bind ?_
        refine unnamed.bind ?_
        have within : (Scope.member layer space scope).Inside root known := .member fresh inside
        have defined := Edit.spares_register options (.plain false .null) within rootKnown name
          given
        have attempted : (attempt (perform (.define (.member layer space scope) false
            (.mk (.identifier name) span) .null))).Comes options host world
            (world.Ended root known () false) :=
          comes_attempt (comes_perform ⟨_, rfl, defined⟩)
        refine (attempted.mapError (fun _ _ ended => ended)
          (fun _ _ ended => ⟨ended.spares, .inl ⟨_, rfl⟩⟩) fun _ _ ended => ended).bind ?_ ?_
        · rintro next ⟨⟩ ⟨spares, disturbed⟩
          have decorated := Edit.spares_decorate fresh space scope name span
            (attributes.map fun entry => ⟨entry.1, .null⟩) next
          exact comes_attempt (comes_perform
            ⟨_, rfl, spares.trans decorated, disturbed.later decorated rootKnown⟩)
        · exact fun _ _ ended => ended
  · exact comes_fail ⟨.refl _, .inl ⟨_, rfl⟩⟩

/-- Of the members of a namespace, those that are namespaces have been collected already. -/
theorem comes_defineMembers (stopped : world.lifecycle.isStopped = true)
    (given : known ≤ world.store.layers.size) (members : List Node) :
    (defineMembers scope (.member layer space scope) mode members).Comes options host world
      (world.Ended root known () (members.all Node.isNamespace)) := by
  induction members generalizing world with
  | nil => exact comes_pure ⟨rfl, .refl world, .refl world⟩
  | cons member rest inductive_step =>
      obtain ⟨shape, span⟩ := member
      rw [defineMembers, List.all_cons]
      cases shape with
      | definition target literal isMutable attributes =>
          exact comes_ended_bind stopped given rootKnown
            (comes_defineMember rootKnown fresh inside stopped given _ target literal isMutable
              attributes)
            fun next stoppedThen givenThen => inductive_step stoppedThen givenThen
      | namespaceBlock name members => exact inductive_step stopped given
      | _ => exact comes_fail ⟨.refl _, .inl ⟨_, rfl⟩⟩

end Members

mutual

theorem comes_collectNode (rootKnown : root.index < known) {scope : Scope}
    (inside : scope.Inside root known) {world : World}
    (stopped : world.lifecycle.isStopped = true) (given : known ≤ world.store.layers.size) :
    ∀ node, (collectNode mode scope node).Comes options host world
      (world.Ended root known () (!node.isNamespace || node.isHollow))
  | .mk shape span => by
      cases shape with
      | namespaceBlock name members =>
          let opened := (world.perform options (.newLayer .empty)).2
          have first : world.Ended root known () true opened (.ok ()) :=
            ⟨rfl, World.spares_newLayer given options, World.addsNothing_newLayer given options⟩
          have givenThen := Nat.le_trans given first.spares.layers
          have stoppedThen : opened.lifecycle.isStopped = true := stopped
          have collected : (do
              collect mode (.member _ name scope) members
              defineMembers scope (.member _ name scope) mode members).Comes options host opened
                (opened.Ended root known ()
                  (Node.declareNothing members && members.all Node.isNamespace)) :=
            comes_ended_bind stoppedThen givenThen rootKnown
              (comes_collect rootKnown (.member given inside) stoppedThen givenThen members)
              fun _ stoppedThen givenThen =>
                comes_defineMembers rootKnown given inside stoppedThen givenThen members
          rw [← Node.areHollow_eq] at collected
          exact comes_perform_bind (collected.mono fun _ _ => first.trans rootKnown)
      | _ => exact comes_pure ⟨rfl, .refl world, .refl world⟩

theorem comes_collect (rootKnown : root.index < known) {scope : Scope}
    (inside : scope.Inside root known) {world : World}
    (stopped : world.lifecycle.isStopped = true) (given : known ≤ world.store.layers.size) :
    ∀ nodes, (collect mode scope nodes).Comes options host world
      (world.Ended root known () (Node.declareNothing nodes))
  | [] => comes_pure ⟨rfl, .refl world, .refl world⟩
  | node :: rest =>
      comes_ended_bind stopped given rootKnown
        (comes_collectNode rootKnown inside stopped given node)
        fun _ stoppedThen givenThen => comes_collect rootKnown inside stoppedThen givenThen rest

end

/-! ## Running statements -/

section Statements

variable (stopped : world.lifecycle.isStopped = true) (given : known ≤ world.store.layers.size)
variable (rootKnown : root.index < known)

theorem comes_log {name : String}
    (plain : ["var:add", "var:read", "var:write"].contains name = false) (scope : Option String)
    (value : Option Value) :
    (perform (.log name scope value)).Comes options host world (world.Ended root known () true) :=
  comes_perform ⟨rfl, .log options name scope none value world fun _ => ⟨rfl, plain⟩,
    .log options name scope none value world⟩

include stopped given rootKnown

/-- Statements give `null`, and the host is told that their block is left. -/
theorem comes_runFrom (scope : Scope) (context : Context) (statements : List Node) :
    (runFrom scope context .null statements).Comes options host world
      (world.Ended root known .null true) := by
  induction statements with
  | nil =>
      exact comes_ended_bind stopped given rootKnown (comes_log rfl _ _) fun next _ _ =>
        comes_pure ⟨rfl, .refl next, .refl next⟩
  | cons statement rest inductive_step =>
      rw [runFrom]
      refine Comes.outcome_bind (returns_evaluate stopped statement) ?_
      rintro next result ⟨rfl, rfl⟩
      exact inductive_step

theorem comes_runAll (scope : Scope) (context : Context) (statements : List Node) :
    (runAll scope context statements).Comes options host world
      (world.Ended root known .null true) :=
  comes_ended_bind stopped given rootKnown (comes_log rfl _ _) fun _ stoppedThen givenThen =>
    comes_runFrom stoppedThen givenThen rootKnown scope context statements

/-- Running a script tells the host of its end. -/
theorem comes_running (scope : Scope) (context : Context) (script : List Node) :
    (do
      let value ← expectingValue (runAll scope context script)
      perform (.log "end" none (some value))
      return value : Rule Value).Comes options host world (world.Ended root known .null true) := by
  have values : (expectingValue (runAll scope context script)).Comes options host world
      (world.Ended root known .null true) := by
    refine (comes_runAll stopped given rootKnown scope context script).outcome_bind ?_
    rintro next result ⟨rfl, left⟩
    exact comes_pure ⟨rfl, left⟩
  refine values.bind ?_ fun _ _ ended => by cases ended.1
  intro next value ended
  obtain rfl : value = .null := Except.ok.inj ended.1
  have stoppedThen : next.lifecycle.isStopped = true := by
    rw [ended.spares.lifecycle]
    exact stopped
  have logged : (do
      perform (.log "end" none (some .null))
      return .null : Rule Value).Comes options host next (next.Ended root known .null true) :=
    comes_ended_bind stoppedThen (Nat.le_trans given ended.spares.layers) rootKnown
      (comes_log rfl _ _) fun next _ _ => comes_pure ⟨rfl, .refl next, .refl next⟩
  exact logged.mono fun _ _ => ended.trans rootKnown

/-- A script comes to an end: with `null`, if there is nothing to declare. -/
theorem comes_runScript (script : List Node) :
    (runScript (.root root) script mode).Comes options host world
      (world.Ended root known .null (Node.declareNothing script)) := by
  rw [← Bool.and_true (Node.declareNothing script)]
  exact comes_ended_bind stopped given rootKnown
    (comes_collect rootKnown .root stopped given script)
    fun _ stoppedThen givenThen => comes_running stoppedThen givenThen rootKnown _ _ script

end Statements

end Evaluation

end TreeScript
