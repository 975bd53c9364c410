import TreeScript.Proofs.Bindings
import TreeScript.Proofs.HostManner
import TreeScript.Proofs.Permanence
import TreeScript.Proofs.QualifiedNames
import TreeScript.Proofs.RuleEndings

/-!
# The attributes of bindings are permanent

Attributes are put on a binding by the definition that makes it, as soon as it is
made.  So nothing that is evaluated changes the attributes of a binding that there
is already, whatever is called or looped, unless a function of the host puts
attributes on bindings on its own (`Host.LeavesAttributes`).

Of a process this is a property of its tree: each decoration comes right after
the definition of its target (`Process.DecoratesFresh`).  It is closed under the
operations that rules are written with, so every goal of evaluation has it.  With
what is known of bindings, it follows that what is immutable stays as it is for all
that is evaluated later, its attributes included (`Rule.Ends.settles`).
-/

namespace TreeScript

open Rule

variable {options : Options} {host : Host} {free : Bool} {α β : Type}

/-! ## Stores -/

/-- A later state of a store, in which all bindings have the attributes that they had. -/
def Store.KeepsAttributes (before after : Store) : Prop :=
  ∀ layer name bound, (before.bindings layer).find? name = some bound →
    ∃ later, (after.bindings layer).find? name = some later ∧ later.attributes = bound.attributes

namespace Store

variable {before between after : Store}

namespace KeepsAttributes

theorem of_layers (same : after.layers = before.layers) : before.KeepsAttributes after := by
  intro layer name bound found
  refine ⟨bound, ?_, rfl⟩
  rw [bindings, same]
  exact found

theorem refl (store : Store) : store.KeepsAttributes store :=
  of_layers rfl

theorem trans (first : before.KeepsAttributes between) (second : between.KeepsAttributes after) :
    before.KeepsAttributes after := by
  intro layer name bound found
  obtain ⟨between, foundBetween, same⟩ := first layer name bound found
  obtain ⟨later, foundLater, same'⟩ := second layer name between foundBetween
  exact ⟨later, foundLater, same'.trans same⟩

/-- What is not bound yet was not bound before either. -/
theorem missing (kept : before.KeepsAttributes after) {layer : LayerId} {name : String}
    (missing : (after.bindings layer).find? name = none) :
    (before.bindings layer).find? name = none := by
  cases found : (before.bindings layer).find? name with
  | none => rfl
  | some bound =>
      obtain ⟨later, foundLater, -⟩ := kept layer name bound found
      cases missing.symm.trans foundLater

end KeepsAttributes

/-- A binding is new, or it replaces one with the same attributes. -/
theorem keepsAttributes_bind (store : Store) (layer : LayerId) (name : String) {bound : Variable}
    (same : ∀ earlier, (store.bindings layer).find? name = some earlier →
      bound.attributes = earlier.attributes) :
    store.KeepsAttributes
      (store.modifyLayer layer fun bindings => bindings.insert name bound) := by
  intro other sought earlier found
  rw [find?_bind]
  split
  · rename_i here
    obtain ⟨rfl, rfl, -⟩ := here
    exact ⟨bound, rfl, same earlier found⟩
  · exact ⟨earlier, found, rfl⟩

/-- To keep attributes withstands edits. -/
theorem withstands_keepsAttributes (adds : LayerId → String → Bool → Prop) :
    Withstands adds KeepsAttributes where
  same := .of_layers
  trans := .trans
  add store layer name bound missing _ := by
    refine store.keepsAttributes_bind layer name fun earlier found => ?_
    cases missing.symm.trans found
  assign store layer name bound value present _ := by
    refine store.keepsAttributes_bind layer name fun earlier found => ?_
    cases present.symm.trans found
    rfl

theorem keepsAttributes_newLayer (store : Store) (created : Dict Variable) :
    store.KeepsAttributes (store.newLayer created).1 := by
  intro layer name bound found
  rw [bindings_newLayer store created (index_lt_of_find?_bindings found)]
  exact ⟨bound, found, rfl⟩

/-- Attributes on a binding that was not there before change nothing that was. -/
theorem KeepsAttributes.describe (kept : before.KeepsAttributes between) {layer : LayerId}
    {name : String} (missing : (before.bindings layer).find? name = none)
    (attributes : List Attribute) :
    before.KeepsAttributes (between.describe layer name attributes) := by
  intro other sought bound found
  obtain ⟨later, foundLater, same⟩ := kept other sought bound found
  unfold Store.describe
  split
  · rw [find?_bind]
    split
    · rename_i here
      obtain ⟨rfl, rfl, -⟩ := here
      cases missing.symm.trans found
    · exact ⟨later, foundLater, same⟩
  · exact ⟨later, foundLater, same⟩

end Store

/-! ## Actions -/

/-- Other actions keep attributes. -/
theorem World.keepsAttributes_perform (options : Options) (world : World) {action : Action}
    (noDecoration : action.isDecoration = false) :
    world.store.KeepsAttributes (world.perform options action).2.store := by
  refine relates_perform options (Store.withstands_keepsAttributes _)
    (fun _ store => store.keepsAttributes_newLayer _) ?_ world
  rintro scope target value attributes rfl
  cases noDecoration

/-- A name that is defined successfully has not been bound in the scope. -/
theorem World.missing_of_define {world : World} {scope : Scope} {isMutable : Bool} {target : Node}
    {value : Value} {name : String} (named : target.shape = .identifier name)
    (defined : (world.perform options (.define scope isMutable target value)).1 = .ok ()) :
    (world.store.bindings scope.layer).find? name = none := by
  rcases target with ⟨shape, span⟩
  obtain rfl : shape = .identifier name := named
  have registered : (Edit.register options (.plain isMutable value)
      (scope.registrations name)).run.run world =
      (.ok (), (world.perform options (.define scope isMutable
        (.mk (.identifier name) span) value)).2) := Prod.ext defined rfl
  obtain ⟨rest, registrations⟩ := scope.registrations_eq_cons name
  rw [registrations] at registered
  exact (Edit.register_cons_ok options registered).1

/-- Attributes are put on nothing else than the value and the target. -/
theorem Store.KeepsAttributes.decorate {start : Store} {world : World}
    (kept : start.KeepsAttributes world.store) {scope : Scope} {target : Node} (value : Value)
    (attributes : List Attribute)
    (fresh : ∀ name, target.shape = .identifier name →
      (start.bindings scope.layer).find? name = none) :
    start.KeepsAttributes
      (world.perform options (.decorate scope target value attributes)).2.store := by
  rw [World.perform, Edit.decorate]
  split
  · exact kept
  · have valued : start.KeepsAttributes (world.store.setAttributes value attributes) :=
      kept.trans (.of_layers (by cases value <;> rfl))
    cases named : target.shape with
    | identifier name => exact valued.describe (fresh name named) attributes
    | _ => exact valued

/-! ## Processes -/

/--
A process that puts attributes only on what it has just defined.  A definition may
have been carried out right in front of it.
-/
inductive Process.DecoratesFresh : Option (Scope × Node) → Process α → Prop where
  | done {defined : Option (Scope × Node)} {result : α} :
      DecoratesFresh defined (.done result)
  | act {defined : Option (Scope × Node)} {action : Action} {next : action.Reply → Process α}
      (noDecoration : action.isDecoration = false)
      (rest : ∀ reply, DecoratesFresh none (next reply)) :
      DecoratesFresh defined (.act action next)
  | define {defined : Option (Scope × Node)} {scope : Scope} {isMutable : Bool} {target : Node}
      {value : Value} {next : Except Error Unit → Process α}
      (refused : ∀ error, DecoratesFresh none (next (.error error)))
      (rest : DecoratesFresh (some (scope, target)) (next (.ok ()))) :
      DecoratesFresh defined (.act (.define scope isMutable target value) next)
  | decorate {scope : Scope} {target : Node} {value : Value} {attributes : List Attribute}
      {next : Except Error Unit → Process α}
      (rest : ∀ reply, DecoratesFresh none (next reply)) :
      DecoratesFresh (some (scope, target)) (.act (.decorate scope target value attributes) next)
  | wait {defined : Option (Scope × Node)} {reason : Wait} {next : Process α}
      (rest : DecoratesFresh none next) :
      DecoratesFresh defined (.wait reason next)
  | call {defined : Option (Scope × Node)} {goal : Goal} {next : Outcome → Process α}
      (rest : ∀ outcome, DecoratesFresh none (next outcome)) :
      DecoratesFresh defined (.call goal next)
  | drive {defined : Option (Scope × Node)} {goal : Goal} {next : Outcome → Process α}
      (rest : ∀ outcome, DecoratesFresh none (next outcome)) :
      DecoratesFresh defined (.drive goal next)

namespace Process.DecoratesFresh

variable {defined : Option (Scope × Node)}

/-- What needs no definition in front of it may have one. -/
theorem after {process : Process α} (fresh : process.DecoratesFresh none)
    (defined : Option (Scope × Node)) : process.DecoratesFresh defined := by
  cases fresh with
  | done => exact .done
  | act noDecoration rest => exact .act noDecoration rest
  | define refused rest => exact .define refused rest
  | wait rest => exact .wait rest
  | call rest => exact .call rest
  | drive rest => exact .drive rest

theorem bind {process : Process α} (fresh : process.DecoratesFresh defined)
    {continuation : α → Process β} (goesOn : ∀ result, (continuation result).DecoratesFresh none) :
    (process.bind continuation).DecoratesFresh defined := by
  induction fresh with
  | done => exact (goesOn _).after _
  | act noDecoration _ inductive_step => exact .act noDecoration inductive_step
  | define _ _ refused inductive_step => exact .define refused inductive_step
  | decorate _ inductive_step => exact .decorate inductive_step
  | wait _ inductive_step => exact .wait inductive_step
  | call _ inductive_step => exact .call inductive_step
  | drive _ inductive_step => exact .drive inductive_step

theorem andThen (turn : Turn) {next : Outcome → Process α}
    (rest : ∀ outcome, (next outcome).DecoratesFresh none) :
    (turn.andThen next).DecoratesFresh none := by
  cases turn with
  | answer outcome => exact rest outcome
  | again goal => exact .call rest

theorem andThenAtOnce (turn : Turn) {next : Outcome → Process α}
    (rest : ∀ outcome, (next outcome).DecoratesFresh none) :
    (turn.andThenAtOnce next).DecoratesFresh none := by
  cases turn with
  | answer outcome => exact rest outcome
  | again goal => exact .drive rest

end Process.DecoratesFresh

/-- Since a store, attributes have been kept, and what has just been defined is new. -/
structure World.Since (start : Store) (defined : Option (Scope × Node)) (world : World) : Prop where
  kept : start.KeepsAttributes world.store
  fresh : ∀ {scope : Scope} {target : Node}, defined = some (scope, target) →
    ∀ name, target.shape = .identifier name → (start.bindings scope.layer).find? name = none

theorem World.Since.now (world : World) : world.Since world.store none :=
  ⟨.refl world.store, nofun⟩

/-- If the goals put attributes only on what they have just defined, so do the processes that ask
for them, and keep all attributes that there are. -/
theorem Process.Ends.keepsAttributes
    (goals : ∀ goal, (Evaluation.ofGoal options host goal).DecoratesFresh none)
    {defined : Option (Scope × Node)} {process : Process α}
    (decoratesFresh : process.DecoratesFresh defined) {start : Store} {world reached : World}
    {result : Option α} (since : world.Since start defined)
    (ends : process.Ends options host free world reached result) :
    start.KeepsAttributes reached.store := by
  -- What is asked for starts anew from its own world: a definition that has been made in front
  -- of a process is not in front of what it asks for.
  induction ends generalizing defined start with
  | done | refused => exact since.kept
  | act _ inductive_step =>
      cases decoratesFresh with
      | act noDecoration rest =>
          exact inductive_step (rest _)
            ⟨since.kept.trans (World.keepsAttributes_perform options _ noDecoration), nofun⟩
      | @define _ scope isMutable target value _ refused rest =>
          have defines : Action.isDecoration (.define scope isMutable target value) = false := rfl
          have kept := since.kept.trans (World.keepsAttributes_perform options _ defines)
          cases ended : (World.perform options _ (.define scope isMutable target value)).1 with
          | error error =>
              refine inductive_step (ended ▸ refused error) ⟨kept, ?_⟩
              rintro _ _ ⟨⟩
          | ok _ =>
              refine inductive_step (ended ▸ rest) ⟨kept, ?_⟩
              rintro _ _ ⟨⟩ name named
              exact since.kept.missing (World.missing_of_define named ended)
      | decorate rest =>
          exact inductive_step (rest _)
            ⟨since.kept.decorate _ _ fun name named => since.fresh rfl name named, nofun⟩
  | wait _ _ inductive_step =>
      cases decoratesFresh with
      | wait rest => exact inductive_step rest ⟨since.kept, nofun⟩
  | call _ _ asks inductive_step =>
      cases decoratesFresh with
      | call rest =>
          have asked := asks (goals _) (.now _)
          exact inductive_step (.andThen _ rest) ⟨since.kept.trans asked, nofun⟩
  | callRefused _ asks => exact since.kept.trans (asks (goals _) (.now _))
  | drive _ _ asks inductive_step =>
      cases decoratesFresh with
      | drive rest =>
          have asked := asks (goals _) (.now _)
          exact inductive_step (.andThenAtOnce _ rest) ⟨since.kept.trans asked, nofun⟩
  | driveRefused _ _ asks inductive_step =>
      cases decoratesFresh with
      | drive rest =>
          have asked := asks (goals _) (.now _)
          exact inductive_step (rest _) ⟨since.kept.trans asked, nofun⟩

/-! ## Rules -/

/-- A rule that puts attributes only on what it has just defined. -/
def Rule.DecoratesFresh (rule : Rule α) : Prop :=
  rule.run.DecoratesFresh none

/-- The manner of what puts no attributes on bindings. -/
def Manner.undecorating : Manner where
  acts action := action.isDecoration = false
  replies _ _ := True
  waits _ := True
  calls _ := True
  drives _ := True

/-- A host none of whose functions puts attributes on bindings on its own. -/
def Host.LeavesAttributes (host : Host) : Prop :=
  host.Minds .undecorating

theorem Process.Uses.decoratesFresh {holds : α → Prop} {process : Process α}
    (uses : process.Uses .undecorating holds) : process.DecoratesFresh none := by
  induction uses with
  | done => exact .done
  | act noDecoration _ inductive_step =>
      exact .act noDecoration fun reply => inductive_step reply trivial
  | wait _ _ inductive_step => exact .wait inductive_step
  | call _ _ inductive_step => exact .call inductive_step
  | drive _ _ inductive_step => exact .drive inductive_step

namespace Rule

theorem decoratesFresh_perform {action : Action} (noDecoration : action.isDecoration = false) :
    (perform action).DecoratesFresh :=
  .act noDecoration fun _ => .done

/-- Who names a function decorates nothing. -/
theorem decoratesFresh_nameFunction (function : FunctionId) (name : String) :
    (perform (.nameFunction function name)).DecoratesFresh :=
  decoratesFresh_perform rfl

theorem decoratesFresh_wait (reason : Wait) : (wait reason).DecoratesFresh :=
  .wait .done

theorem DecoratesFresh.outcome_bind {rule : Rule α} (fresh : rule.DecoratesFresh)
    {continuation : Except Interrupt α → Rule β}
    (goesOn : ∀ result, (continuation result).DecoratesFresh) :
    (rule.outcome >>= continuation).DecoratesFresh := by
  unfold DecoratesFresh
  rw [run_outcome_bind]
  exact fresh.bind goesOn

/-- Rules that put attributes only on what they have just defined may follow each other. -/
theorem sequential_decoratesFresh : Sequential fun _ rule => rule.DecoratesFresh where
  pure _ := .done
  throw _ := .done
  bind first goesOn := by
    refine Process.DecoratesFresh.bind first fun result => ?_
    cases result with
    | error interrupt => exact .done
    | ok result => exact goesOn result
  outcome first goesOn _ := first.outcome_bind goesOn

/-- Rules are written so that attributes are put only on what has just been defined. -/
theorem compositional_decoratesFresh (mode : Mode) :
    Compositional mode fun _ rule => rule.DecoratesFresh where
  toSequential := sequential_decoratesFresh
  perform _ _ alone := decoratesFresh_perform (Action.standsAlone_iff.mp alone).2.1
  decorate _ _ _ _ _ _ _ := .define (fun _ => .done) (.decorate fun reply => by
    cases reply <;> exact .done)
  call _ := .call fun _ => .done
  drive _ _ := .drive fun _ => .done

theorem closed_decoratesFresh (mode : Mode) : Closed mode fun _ rule => rule.DecoratesFresh :=
  (compositional_decoratesFresh mode).closed fun _ _ _ => decoratesFresh_perform rfl

end Rule

/-! ## Goals -/

namespace Evaluation

theorem decoratesFresh_gate (irq : Irq) : (gate irq).DecoratesFresh :=
  closed_gate (closed_decoratesFresh .asynchronous) (decoratesFresh_perform rfl)
    (decoratesFresh_perform rfl) (decoratesFresh_perform rfl) decoratesFresh_wait irq

/-- An entry point tells the host of an error, besides. -/
theorem decoratesFresh_enter (callee : Value) (arguments : List Value) (mode : Mode) :
    (enter callee arguments mode).DecoratesFresh := by
  have closed := closed_decoratesFresh mode
  refine (closed_applyValue closed callee arguments).outcome_bind fun outcome => ?_
  split
  · exact closed.pure _
  · refine closed.bind (decoratesFresh_perform rfl) fun answer => ?_
    cases answer with
    | some error => exact closed_fail closed error
    | none => exact closed.pure _

theorem decoratesFresh_process {rule : Rule Turn} (fresh : rule.DecoratesFresh) :
    (process rule).DecoratesFresh none :=
  Process.DecoratesFresh.bind fresh fun _ => .done

/-- Every goal puts attributes only on what it has just defined. -/
theorem decoratesFresh_ofGoal (options : Options) (guests : host.LeavesAttributes) (goal : Goal) :
    (ofGoal options host goal).DecoratesFresh none := by
  refine decoratesFresh_process ?_
  have entry {callee : Value} {arguments : List Value} {mode : Mode} :
      (answering (enter callee arguments mode)).DecoratesFresh :=
    (closed_decoratesFresh mode).bind (decoratesFresh_enter callee arguments mode) fun _ => .done
  cases goal with
  | enter callee arguments mode => exact entry
  | _ =>
      refine closed_turn (closed_decoratesFresh _) (decoratesFresh_perform rfl)
        (fun _ => decoratesFresh_gate options.irq) ?_ ?_ ?_ rfl
      · exact fun function arguments context site _ =>
          closed_apply (closed_decoratesFresh context.mode) options function arguments site
            fun name forms supplied =>
              ((guests name forms supplied).apply arguments context site).decoratesFresh
      · exact fun node scope context _ => closed_definition (closed_decoratesFresh context.mode)
          decoratesFresh_nameFunction node.start
      · exact fun node scope context _ => compositional_signal
          (compositional_decoratesFresh context.mode) (fun _ _ _ => decoratesFresh_perform rfl) rfl
          scope node.start

end Evaluation

/-- Whatever a rule evaluates, it removes no binding. -/
theorem Rule.Ends.keepsBindings {rule : Rule α} {world reached : World}
    {result : Except Interrupt α} (ends : rule.Ends options host free world reached result) :
    world.store.KeepsBindings reached.store :=
  Process.Ends.related (fun before after => before.store.KeepsBindings after.store)
    (fun world => .refl world.store) (fun first second => first.trans second)
    (fun world action => (world.grows_perform options action).mono fun _ _ _ _ _ => trivial) ends

/-- A later state of a store: no layer is lost, and what is immutable stays as it is. -/
structure Store.Settles (before after : Store) : Prop where
  layers : before.layers.size ≤ after.layers.size
  kept : ∀ layer name bound, (before.bindings layer).find? name = some bound →
    bound.isMutable = false → (after.bindings layer).find? name = some bound

theorem Store.Settles.of_keeps {before after : Store} (bindings : before.KeepsBindings after)
    (attributes : before.KeepsAttributes after) : before.Settles after where
  layers := bindings.layers
  kept layer name bound found constant := by
    obtain ⟨later, foundLater, continues⟩ := bindings.kept layer name bound found
    obtain ⟨other, foundOther, same⟩ := attributes layer name bound found
    cases foundLater.symm.trans foundOther
    rw [foundLater]
    refine congrArg some ?_
    rcases bound with ⟨isMutable, value, held⟩
    rcases later with ⟨isMutable', value', held'⟩
    obtain rfl : isMutable' = isMutable := continues.isMutable
    obtain rfl : value' = value := continues.value constant
    obtain rfl : held' = held := same
    rfl

/-- Whatever a rule evaluates, what is immutable keeps its value and its attributes. -/
theorem Rule.Ends.settles (guests : host.LeavesAttributes) {rule : Rule α}
    (fresh : rule.DecoratesFresh) {world reached : World} {result : Except Interrupt α}
    (ends : rule.Ends options host free world reached result) :
    world.store.Settles reached.store :=
  .of_keeps ends.keepsBindings (Process.Ends.keepsAttributes
    (Evaluation.decoratesFresh_ofGoal options guests) fresh (.now world) ends)

namespace Probe

/-- The probing host leaves the attributes of bindings alone. -/
theorem leavesAttributes_host : Probe.host.LeavesAttributes :=
  minds_host ⟨fun _ _ _ noDecoration _ => noDecoration, trivial, fun _ => trivial, fun _ => trivial⟩

end Probe

end TreeScript
