import TreeScript.Proofs.Mutability

/-!
# Bindings are permanent

Whatever a session is asked to do, in whatever order, and however its runs are
suspended, given up or ended by errors: a binding of a layer is never removed,
it stays as mutable as it was made, and one that is not mutable keeps its value.
This needs no assumption on scripts or on functions of the host, since nothing
but actions and the edits of the host itself changes layers, and each of them
keeps to `Store.Grows`.
-/

namespace TreeScript

/-- A later state of a store, whatever names have been added. -/
def Store.KeepsBindings (before after : Store) : Prop :=
  before.Grows (fun _ _ _ => True) after

namespace Store.KeepsBindings

theorem refl (store : Store) : store.KeepsBindings store :=
  Grows.refl store

theorem of_eq {before after : Store} (same : after = before) : before.KeepsBindings after :=
  same ▸ refl before

theorem trans {before between after : Store}
    (first : before.KeepsBindings between)
    (second : between.KeepsBindings after) :
    before.KeepsBindings after :=
  Grows.trans first second fun _ _ _ _ added => added

end Store.KeepsBindings

/-! ## Tasks -/

/-- The world after a step. -/
def Progress.world : Progress → World
  | .running world _ => world
  | .waiting world _ _ => world
  | .finished world _ => world

namespace Task

variable {options : Options} {host : Host}

theorem keepsBindings_step (options : Options) (host : Host) (world : World) (task : Task) :
    world.store.KeepsBindings (task.step options host world).world.store := by
  rcases task with ⟨process, stack⟩
  cases process with
  | done turn =>
      cases turn with
      | answer outcome => cases stack <;> exact .refl _
      | again goal => exact .refl _
  | act action next =>
      exact (world.grows_perform options action).mono fun _ _ _ _ _ => trivial
  | wait reason next =>
      unfold step
      dsimp only
      split <;> exact .refl _
  | call goal next => exact .refl _
  | drive goal next => exact .refl _

theorem keepsBindings_run {fuel : Nat} {world : World} {task : Task} {progress : Progress}
    (ran : task.run options host fuel world = some progress) :
    world.store.KeepsBindings progress.world.store := by
  have comes := exists_last_of_run (fun between _ => world.store.KeepsBindings between.store)
    ran (.refl _) fun {between next last after} kept running => by
      have stepped := last.keepsBindings_step options host between
      rw [running] at stepped
      exact kept.trans stepped
  rcases comes with ⟨between, last, kept, rfl⟩
  exact kept.trans (last.keepsBindings_step options host between)

theorem Reached.keepsBindings {meanwhile : World → World → Prop}
    (undisturbed : ∀ before after, meanwhile before after →
      before.store.KeepsBindings after.store)
    {start world : World} {task current : Task} {goals : List Goal}
    (reached : Reached options host meanwhile start task world current goals) :
    start.store.KeepsBindings world.store := by
  induction reached with
  | start => exact .refl _
  | @step world next current after goals _ running inductive_step =>
      have stepped := current.keepsBindings_step options host world
      rw [running] at stepped
      exact inductive_step.trans stepped
  | @resume world between next current after reason goals _ waiting changed inductive_step =>
      have stepped := current.keepsBindings_step options host world
      rw [waiting] at stepped
      exact (inductive_step.trans stepped).trans (undisturbed _ _ changed)

end Task

/-! ## Interpreters -/

namespace Interpreter

/-- A verdict leaves alone what delivering an error leaves alone. -/
theorem conclude_keeps {α : Type} {part : World → α} {options : Options} {world : World}
    (keeps : ∀ error, part (world.deliver options error).2 = part world)
    (delivers : Bool) (outcome : Outcome) :
    part (conclude options delivers outcome world).2 = part world := by
  unfold conclude
  split
  · rfl
  · rename_i error _
    have delivered := keeps error
    split
    · split
      · rename_i handed
        rw [handed] at delivered
        exact delivered
      · rename_i handed
        rw [handed] at delivered
        exact delivered
    · rfl

theorem store_conclude (options : Options) (delivers : Bool) (outcome : Outcome)
    (world : World) :
    (conclude options delivers outcome world).2.store = world.store :=
  conclude_keeps (world.store_deliver options) delivers outcome

theorem keepsBindings_poll {interpreter after : Interpreter} {fuel : Nat} {run : Run}
    {polled : Polled}
    (answered : interpreter.poll fuel run = some (polled, after)) :
    interpreter.world.store.KeepsBindings after.world.store := by
  unfold poll at answered
  split at answered
  · cases answered
    exact .refl _
  · split at answered
    · split at answered
      · rename_i world outcome ran
        cases answered
        exact (Task.keepsBindings_run ran).trans (.of_eq (store_conclude _ _ outcome world))
      · rename_i ran
        cases answered
        exact Task.keepsBindings_run ran
      · cases answered
    · cases answered
      exact .refl _

theorem keepsBindings_complete {interpreter after : Interpreter} {fuel polls : Nat} {run : Run}
    {verdict : Verdict}
    (answered : interpreter.complete fuel polls run = some (verdict, after)) :
    interpreter.world.store.KeepsBindings after.world.store := by
  induction polls generalizing interpreter run with
  | zero => cases answered
  | succ polls inductive_step =>
      rw [complete] at answered
      split at answered
      · rename_i polled
        cases answered
        exact keepsBindings_poll polled
      · rename_i polled
        split at answered
        · exact (keepsBindings_poll polled).trans (inductive_step answered)
        · cases answered
      · cases answered

end Interpreter

/-! ## Sessions -/

/-- Looking after a session keeps the bindings. -/
theorem World.upkeep_keepsBindings :
    World.Upkeep fun before after => before.store.KeepsBindings after.store where
  refl world := .refl world.store
  trans first second := first.trans second
  readName options scope name world :=
    Edit.relates_readName options (Store.withstands_grows _) scope name world
  assign options scope name value world :=
    Edit.relates_assign options (Store.withstands_grows _) scope name value world
  declare options _ _ _ world :=
    Edit.relates_register options (Store.withstands_grows _) (fun _ _ => trivial) world
  build world datum := .of_layers (world.store.layers_build datum)
  transition _ _ := .of_eq rfl
  subscribe world _ tag response := .of_eq (world.store_handler tag response)
  unsubscribe world _ tag response := .of_eq (world.store_handler tag response)

namespace Session

/-- Whatever a session is asked, the bindings stay. -/
theorem keepsBindings_answer {session after : Session} {fuel : Nat} {request : Request}
    {answer : Answer}
    (answered : session.answer fuel request = some (answer, after)) :
    session.world.store.KeepsBindings after.world.store := by
  have kept {interpreter : Interpreter} (same : after.world = interpreter.world) :
      interpreter.world.store.KeepsBindings after.world.store :=
    .of_eq (congrArg World.store same)
  cases course_of_answer World.upkeep_keepsBindings answered with
  | tended _ tended => exact tended.world
  | launched _ tended _ remembered => exact remembered ▸ tended.world
  | dropped | unknown => exact .refl _
  | completed _ tended _ completed world _ =>
      exact (tended.world.trans (Interpreter.keepsBindings_complete completed)).trans (kept world)
  | suspended _ polled => exact Interpreter.keepsBindings_poll polled
  | ended _ polled world _ => exact (Interpreter.keepsBindings_poll polled).trans (kept world)

/--
The worlds that a session passes through: its own, those in the middle of a run
of some task, and those that it passes through after it has answered a request.
-/
inductive Passes : Session → World → Prop where
  | settled (session : Session) : Passes session session.world
  | amid {session : Session} {task current : Task} {world : World} {goals : List Goal}
      (reached : Task.Reached session.interpreter.options session.interpreter.host
        (fun before after => after = before) session.world task world current goals) :
      Passes session world
  | answer {session next : Session} {fuel : Nat} {request : Request} {answer : Answer}
      {world : World}
      (answered : session.answer fuel request = some (answer, next))
      (passes : Passes next world) :
      Passes session world

theorem Passes.keepsBindings {session : Session} {world : World}
    (passes : session.Passes world) :
    session.world.store.KeepsBindings world.store := by
  induction passes with
  | settled session => exact .refl _
  | amid reached =>
      exact reached.keepsBindings fun before after same => .of_eq (congrArg World.store same)
  | answer answered _ inductive_step =>
      exact (keepsBindings_answer answered).trans inductive_step

end Session

/-! ## Where immutable bindings come from -/

namespace Interpreter

/-- Bindings none of which can be assigned to. -/
def AreConstant (bindings : Dict Variable) : Prop :=
  ∀ name bound, bindings.find? name = some bound → bound.isMutable = false

theorem areConstant_insert {bindings : Dict Variable}
    (constant : AreConstant bindings)
    (name : String)
    (value : Value) :
    AreConstant (bindings.insert name (.constant value)) := by
  intro other bound found
  rcases Dict.eq_or_find?_of_insert found with rfl | found
  · rfl
  · exact constant other bound found

theorem areConstant_bindNatives {bindings : Dict Variable}
    (constant : AreConstant bindings)
    (store : Store)
    (natives : List Native) :
    AreConstant (bindNatives store bindings natives).1 := by
  induction natives generalizing store bindings with
  | nil => exact constant
  | cons native rest inductive_step => exact inductive_step (areConstant_insert constant _ _) _

theorem areConstant_bindConstants {bindings : Dict Variable}
    (constant : AreConstant bindings)
    (store : Store)
    (constants : List (String × Datum Value)) :
    AreConstant (bindConstants store bindings constants).1 := by
  induction constants generalizing store bindings with
  | nil => exact constant
  | cons _ rest inductive_step => exact inductive_step (areConstant_insert constant _ _) _

/-- In a new interpreter neither a constant nor a function can be assigned to. -/
theorem areConstant_create (options : Options) (host : Host) (hostNames : List String)
    (constants : List (String × Datum Value)) (inputs : List String) :
    let interpreter := create options host hostNames constants inputs
    AreConstant (interpreter.world.store.bindings interpreter.root.layer) := by
  intro interpreter
  have empty : AreConstant .empty := fun name bound found =>
    (Dict.find?_empty_ne_some name bound found).elim
  have natives := areConstant_bindNatives empty .empty (hostNames.map Native.host)
  have bound := areConstant_bindConstants natives
    (bindNatives .empty .empty (hostNames.map Native.host)).2 constants
  have library := areConstant_bindNatives bound
    (bindConstants (bindNatives .empty .empty (hostNames.map Native.host)).2
      (bindNatives .empty .empty (hostNames.map Native.host)).1 constants).2
    (LibraryFunction.all.map Native.library)
  exact (Store.bindings_newLayer_self _ _).symm ▸ library

end Interpreter

namespace Session

/--
Bindings are permanent.  Whatever a session is asked, and in every world that it
passes through meanwhile: a binding is never removed and stays as mutable as it
was made, and the value of one that is not mutable stays the same.  The
constants and functions of a new interpreter are not mutable, and a definition
makes bindings that are as mutable as it says.  So whatever a run binds, and
whatever else happens meanwhile, is as mutable as the innermost goal under way
binds it: not at all in a loop over numbers or elements and in the namespaces of
a script, and in a definition if it is written so.
-/
theorem bindings_are_permanent {session : Session} {world : World}
    (passes : session.Passes world) :
    (∀ layer name bound, (session.world.store.bindings layer).find? name = some bound →
      ∃ later, (world.store.bindings layer).find? name = some later ∧
        later.isMutable = bound.isMutable ∧
        (bound.isMutable = false → later.value = bound.value)) ∧
      (∀ options host hostNames constants inputs,
        let interpreter := Interpreter.create options host hostNames constants inputs
        Interpreter.AreConstant (interpreter.world.store.bindings interpreter.root.layer)) ∧
      (∀ options scope isMutable pattern value layer name later,
        layer.index < world.store.layers.size →
        (world.store.bindings layer).find? name = none →
        ((world.perform options (.define scope isMutable pattern value)).2.store.bindings
          layer).find? name = some later →
        later.isMutable = isMutable) ∧
      ∀ {meanwhile : World → World → Prop} {run : Run} {origin current after : Task}
        {start now next : World} {goals : List Goal} {layer : LayerId} {name : String}
        {later : Variable},
        session.interpreter.Starts run → run.task = some origin →
        Task.Reached session.interpreter.options session.interpreter.host meanwhile start origin
          now current goals →
        current.step session.interpreter.options session.interpreter.host now =
          .running next after →
        (now.store.bindings layer).find? name = none →
        (next.store.bindings layer).find? name = some later →
        ∀ isMutable ∈ Goal.binding? goals, later.isMutable = isMutable := by
  refine ⟨?_, Interpreter.areConstant_create, ?_, ?_⟩
  · intro layer name bound found
    rcases passes.keepsBindings.kept layer name bound found with ⟨later, present, continues⟩
    exact ⟨later, present, continues.isMutable, continues.value⟩
  · intro options scope isMutable pattern value layer name later inside missing found
    have grown := world.grows_perform options (.define scope isMutable pattern value)
    exact (grown.added layer name later inside missing found).1
  · intro _ _ _ _ _ _ _ _ _ _ _ _ starts underway reached running missing found _ settled
    exact (reached.bindsIn (starts.bindsIn underway)).isMutable running settled missing found

/-- A session with the constant `limit`. -/
def limited : Session :=
  .start (.create (.silent 0 0) Host.none [] [("limit", .str "three")] [])

/-- The script `limit = null;`. -/
def reassignment : List Node :=
  [.of (.assign (.of (.identifier "limit")) (.of .null))]

/-- The node of a definition of a name as null. -/
def defineNull (name : String) (isMutable : Bool) : Node :=
  .of (.definition (.of (.identifier name)) (.of .null) isMutable [])

/-- The script `ns n { let x = null; } var y = null; for (i : 1) null;`. -/
def declarations : List Node :=
  [.of (.namespaceBlock "n" [defineNull "x" false]), defineNull "y" true,
    .of (.range none "i" none (.of (.num (Float.ofNat 1))) (.of .null))]

/-- The script `let z = null; for (e in [null]) null;`. -/
def constantDeclarations : List Node :=
  [defineNull "z" false,
    .of (.each none (.of (.identifier "e")) (.of (.arr [.of .null])) (.of .null))]

/-- How far a script gets in some steps. -/
def declared (script : List Node) (steps : Nat) : World × Task × List Goal :=
  (Task.ofScript limited.interpreter.root script .synchronous).stateAfter
    limited.interpreter.options limited.interpreter.host steps limited.world []

/-- What is bound after a step and not before has been bound by the step. -/
theorem step_declared {script : List Node} {steps : Nat} {layer : LayerId} {name : String}
    {made : Variable}
    (missing : ((declared script steps).1.store.bindings layer).find? name = none)
    (found : ((declared script (steps + 1)).1.store.bindings layer).find? name = some made) :
    (declared script steps).2.1.step limited.interpreter.options limited.interpreter.host
        (declared script steps).1 =
      .running (declared script (steps + 1)).1 (declared script (steps + 1)).2.1 := by
  rcases Task.stateAfter_succ limited.interpreter.options limited.interpreter.host
    (.ofScript limited.interpreter.root script .synchronous) steps limited.world [] with
    same | running
  · rw [declared, same] at found
    cases missing.symm.trans found
  · exact running

/--
A script that assigns to a constant ends with an error, and the constant keeps its value.  The
member of a namespace, what is defined with `var` and with `let`, and the variables of loops
are as mutable as they should be.
-/
theorem bindings_are_permanent_constant :
    (∃ error next,
      limited.answer 40 (.execute .synchronous (some reassignment) none) =
          some (.verdict (.error error), next) ∧
        error.cause = .assignToImmutable "limit" ∧
        limited.Passes next.world ∧
        ∃ later, (next.world.store.bindings ⟨0⟩).find? "limit" = some later ∧
          later.isMutable = false ∧ later.value = .str "three") ∧
      ∃ member assignable counter constant element,
        ((declared declarations 6).1.store.bindings ⟨1⟩).find? "x" = some member ∧
          ((declared declarations 20).1.store.bindings ⟨0⟩).find? "y" = some assignable ∧
          ((declared declarations 32).1.store.bindings ⟨2⟩).find? "i" = some counter ∧
          ((declared constantDeclarations 9).1.store.bindings ⟨0⟩).find? "z" = some constant ∧
          ((declared constantDeclarations 28).1.store.bindings ⟨1⟩).find? "e" = some element ∧
          member.isMutable = false ∧ assignable.isMutable = true ∧ counter.isMutable = false ∧
          constant.isMutable = false ∧ element.isMutable = false := by
  have answered : ∃ error next,
      limited.answer 40 (.execute .synchronous (some reassignment) none) =
          some (.verdict (.error error), next) ∧
        error.cause = .assignToImmutable "limit" := ⟨_, _, rfl, rfl⟩
  obtain ⟨error, next, answered, refused⟩ := answered
  have passes : limited.Passes next.world := .answer answered (.settled next)
  obtain ⟨kept, -, -, binds⟩ := bindings_are_permanent passes
  obtain ⟨later, found, isMutable, value⟩ := kept ⟨0⟩ "limit" (.constant (.str "three")) rfl
  have bound {script : List Node} (steps after : Nat) (layer : LayerId) (name : String)
      (isMutable : Bool) (follows : after = steps + 1)
      (starts : (limited.interpreter.startAtOnce script).task =
        some (.ofScript limited.interpreter.root script .synchronous))
      (missing : ((declared script steps).1.store.bindings layer).find? name = none)
      (present : (((declared script after).1.store.bindings layer).find? name).isSome)
      (settled : isMutable ∈ Goal.binding? (declared script steps).2.2) :
      ∃ made, ((declared script after).1.store.bindings layer).find? name = some made ∧
        made.isMutable = isMutable := by
    subst follows
    obtain ⟨made, found⟩ := Option.isSome_iff_exists.mp present
    have reached : Task.Reached limited.interpreter.options limited.interpreter.host
        (fun _ _ => False) limited.world
        (.ofScript limited.interpreter.root script .synchronous) (declared script steps).1
        (declared script steps).2.1 (declared script steps).2.2 :=
      Task.Reached.start.stateAfter steps
    exact ⟨made, found, binds (.scriptAtOnce script) starts reached
      (step_declared missing found) missing found isMutable settled⟩
  obtain ⟨member, isMember, memberIs⟩ :=
    @bound declarations 5 6 ⟨1⟩ "x" false rfl rfl rfl (by decide +kernel) rfl
  obtain ⟨assignable, isAssignable, assignableIs⟩ :=
    @bound declarations 19 20 ⟨0⟩ "y" true rfl rfl rfl (by decide +kernel) rfl
  obtain ⟨counter, isCounter, counterIs⟩ :=
    @bound declarations 31 32 ⟨2⟩ "i" false rfl rfl rfl (by decide +kernel) rfl
  obtain ⟨constant, isConstant, constantIs⟩ :=
    @bound constantDeclarations 8 9 ⟨0⟩ "z" false rfl rfl rfl (by decide +kernel) rfl
  obtain ⟨element, isElement, elementIs⟩ :=
    @bound constantDeclarations 27 28 ⟨1⟩ "e" false rfl rfl rfl (by decide +kernel) rfl
  exact ⟨⟨error, next, answered, refused, passes, later, found, isMutable, value rfl⟩,
    member, assignable, counter, constant, element, isMember, isAssignable, isCounter,
    isConstant, isElement, memberIs, assignableIs, counterIs, constantIs, elementIs⟩

end Session

end TreeScript
