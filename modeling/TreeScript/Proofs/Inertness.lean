import TreeScript.Proofs.Elsewhere
import TreeScript.Proofs.Permanence
import TreeScript.Proofs.Releases
import TreeScript.Proofs.StoppedScripts

/-!
# Stopped interpreters

An interpreter that has been stopped ends every script that it is given in one poll: no
step is taken, nothing is printed, and what was bound before stays as it is.  It does
nothing at all if and only if there is nothing in the namespaces of the script but
namespaces (`Session.stopped_scripts_inert_iff`): the members of namespaces are defined
before anything is evaluated, and whether evaluation has been stopped is asked by what
is evaluated only.
-/

namespace TreeScript

/-! ## Ending at once -/

namespace Interpreter

/-- The run of a script in a mode. -/
def launch (interpreter : Interpreter) (script : List Node) : Mode → Run
  | .asynchronous => interpreter.start script
  | .synchronous => interpreter.startAtOnce script

/-- The run of a script that is not empty has the task of the script. -/
theorem launch_eq_start (interpreter : Interpreter) {script : List Node} (nonempty : script ≠ [])
    (mode : Mode) :
    interpreter.launch script mode =
      .start (.ofScript interpreter.root script mode) (mode == .asynchronous) := by
  cases script with
  | nil => exact (nonempty rfl).elim
  | cons statement rest => cases mode <;> rfl

/-- A script comes to its verdict when it is polled for the first time. -/
def EndsInOnePoll (interpreter : Interpreter) (script : List Node) (mode : Mode)
    (verdict : Verdict) (after : World) : Prop :=
  ∃ enough, ∀ fuel, interpreter.poll (fuel + enough) (interpreter.launch script mode) =
    some (.ended verdict, { interpreter with world := after })

/--
A script does nothing: it ends at once with `null`, or without a value if it is empty,
takes no step, tells the host of no output and no name, and leaves every binding and the
names of the root scope as they are.
-/
def IsInert (interpreter : Interpreter) (script : List Node) (mode : Mode) : Prop :=
  ∃ after : World,
    interpreter.EndsInOnePoll script mode
        (.ok (if script.isEmpty then none else some .null)) after ∧
      interpreter.world.Spares Event.Plain interpreter.world.store.layers.size after ∧
      ∀ name, after.store.isBound interpreter.root name =
        interpreter.world.store.isBound interpreter.root name

/-- A script ends in one way only. -/
theorem EndsInOnePoll.unique {interpreter : Interpreter} {script : List Node} {mode : Mode}
    {verdict other : Verdict} {after reached : World}
    (ends : interpreter.EndsInOnePoll script mode verdict after)
    (endsOtherwise : interpreter.EndsInOnePoll script mode other reached) :
    verdict = other ∧ after = reached := by
  obtain ⟨enough, polled⟩ := ends
  obtain ⟨more, polledOtherwise⟩ := endsOtherwise
  have same := (polled more).symm.trans (Nat.add_comm more enough ▸ polledOtherwise enough)
  injection same with same
  injection same with verdicts interpreters
  injection verdicts with verdicts
  injection interpreters with _ _ _ worlds
  exact ⟨verdicts, worlds⟩

/-- The verdict on a script whose evaluation has ended. -/
def verdictOn (interpreter : Interpreter) (mode : Mode) (outcome : Outcome) (world : World) :
    Verdict × World :=
  conclude interpreter.options (mode == .asynchronous) outcome world

/-- A script that comes to an outcome ends with the verdict on it. -/
theorem endsInOnePoll_of_comes {interpreter : Interpreter} {script : List Node} {mode : Mode}
    (nonempty : script ≠ []) {post : World → Outcome → Prop}
    (comes : (Evaluation.runScript interpreter.root script mode).Comes interpreter.options
      interpreter.host interpreter.world post) :
    ∃ next outcome, post next outcome ∧
      interpreter.EndsInOnePoll script mode (interpreter.verdictOn mode outcome next).1
        (interpreter.verdictOn mode outcome next).2 := by
  obtain ⟨next, outcome, holds, goesOn⟩ := comes
  refine ⟨next, outcome, holds, ?_⟩
  have ended : Task.GoesOn interpreter.options interpreter.host interpreter.world
      (.ofScript interpreter.root script mode) next ⟨.done (.answer outcome), []⟩ := by
    have goesOn := goesOn fun outcome => .done (.answer outcome)
    rw [← Evaluation.process_answering] at goesOn
    cases mode with
    | asynchronous => exact goesOn []
    | synchronous => exact (goesOn _).trans (.step (Task.step_answer _ _ _ _) (.refl _ _))
  obtain ⟨enough, ran⟩ := ended.run_eq
  refine ⟨enough, fun fuel => ?_⟩
  rw [launch_eq_start interpreter nonempty mode, poll_of_ready interpreter _ rfl rfl, ran]
  rfl

end Interpreter

/-! ## Stopped worlds -/

/-- Delivering an error shows no output, and does not stop again what is stopped. -/
theorem World.spares_deliver {options : Options} {world : World} {known : Nat}
    (stopped : world.lifecycle.isStopped = true) (error : Error) :
    world.Spares Event.Silent known (world.deliver options error).2 := by
  unfold World.deliver
  split
  · split
    · exact .refl world
    · exact ⟨rfl, rfl, ⟨[_], Array.toList_push .., List.forall_mem_singleton.mpr rfl⟩,
        Nat.le_refl _, fun _ _ _ _ found => found⟩
  · exact .refl world

/-- A name is bound in a root scope if it is bound in its layer. -/
theorem Store.isBound_root (store : Store) (root : LayerId) (name : String) :
    store.isBound (.root root) name = ((store.bindings root).find? name).isSome := by
  show ((store.findBinding? name [root]).map Prod.snd).isSome = _
  rw [findBinding?]
  cases (store.bindings root).find? name <;> rfl

namespace Interpreter

variable {interpreter : Interpreter}

/-- An interpreter with a root scope that its store knows. -/
structure IsRooted (interpreter : Interpreter) (root : LayerId) : Prop where
  scope : interpreter.root = .root root
  known : root.index < interpreter.world.store.layers.size

section Stopped

variable {root : LayerId} (rooted : interpreter.IsRooted root)
variable (stopped : interpreter.world.lifecycle.isStopped = true)

include rooted stopped

/-- How a script ends in a stopped interpreter. -/
theorem ends_of_stopped {script : List Node} (nonempty : script ≠ []) (mode : Mode) :
    ∃ next outcome,
      interpreter.world.Ended root interpreter.world.store.layers.size .null
        (Node.declareNothing script) next outcome ∧
      interpreter.EndsInOnePoll script mode (interpreter.verdictOn mode outcome next).1
        (interpreter.verdictOn mode outcome next).2 := by
  refine endsInOnePoll_of_comes nonempty ?_
  rw [rooted.scope]
  exact Evaluation.comes_runScript stopped (Nat.le_refl _) rooted.known script

/-- Whatever a script is, a stopped interpreter is done with it in one poll. -/
theorem exists_verdict_of_stopped (script : List Node) (mode : Mode) :
    ∃ verdict after, interpreter.EndsInOnePoll script mode verdict after ∧
      interpreter.world.Spares Event.Silent interpreter.world.store.layers.size after := by
  cases script with
  | nil => exact ⟨.ok none, interpreter.world, ⟨0, fun fuel => by cases mode <;> rfl⟩, .refl _⟩
  | cons statement rest =>
      obtain ⟨next, outcome, ended, ends⟩ :=
        ends_of_stopped rooted stopped (List.cons_ne_nil statement rest) mode
      have stoppedThen : next.lifecycle.isStopped = true := by
        rw [ended.spares.lifecycle]
        exact stopped
      -- A verdict changes the world in no other way than delivering an error does.
      have concluded := @conclude_keeps Prop
        (next.Spares Event.Silent interpreter.world.store.layers.size) interpreter.options next
        (fun error => propext
          ⟨fun _ => .refl next, fun _ => World.spares_deliver stoppedThen error⟩)
        (mode == .asynchronous) outcome
      exact ⟨_, _, ends, ended.spares.trans (concluded.mpr (.refl next))⟩

/-- A script without anything to declare does nothing. -/
theorem isInert_of_declareNothing {script : List Node}
    (nothing : Node.declareNothing script = true) (mode : Mode) :
    interpreter.IsInert script mode := by
  cases script with
  | nil =>
      exact ⟨interpreter.world, ⟨0, fun fuel => by cases mode <;> rfl⟩, .refl _, fun name => rfl⟩
  | cons statement rest =>
      obtain ⟨next, outcome, ended, ends⟩ :=
        ends_of_stopped rooted stopped (List.cons_ne_nil statement rest) mode
      rw [nothing] at ended
      obtain ⟨rfl, spares, addsNothing⟩ := ended
      refine ⟨next, ends, spares, fun name => ?_⟩
      rw [rooted.scope, Store.isBound_root, Store.isBound_root]
      cases found : (interpreter.world.store.bindings root).find? name with
      | none => rw [addsNothing root name rooted.known found]
      | some bound => rw [spares.kept root name bound rooted.known found]

/-- A script that tries to declare something fails, or binds a name of the root. -/
theorem declareNothing_of_isInert {script : List Node} {mode : Mode}
    (inert : interpreter.IsInert script mode) :
    Node.declareNothing script = true := by
  cases script with
  | nil => rfl
  | cons statement rest =>
      obtain ⟨next, outcome, ended, ends⟩ :=
        ends_of_stopped rooted stopped (List.cons_ne_nil statement rest) mode
      obtain ⟨after, endsInert, -, names⟩ := inert
      obtain ⟨verdicts, worlds⟩ := endsInert.unique ends
      have value : outcome = .ok .null := conclude_eq_value_iff.mp verdicts.symm
      cases nothing : Node.declareNothing (statement :: rest) with
      | true => rfl
      | false =>
          rw [nothing] at ended
          rcases ended.2 with ⟨error, failed⟩ | ⟨name, missing, bound⟩
          · cases failed.symm.trans value
          · have same := names name
            have stored : after.store = next.store :=
              (congrArg World.store worlds).trans (store_conclude _ _ _ next)
            rw [rooted.scope, Store.isBound_root, Store.isBound_root, stored, missing] at same
            exact (bound (Option.not_isSome_iff_eq_none.mp (Bool.eq_false_iff.mp same))).elim

end Stopped

theorem isRooted_create (options : Options) (host : Host) (hostNames : List String)
    (constants : List (String × Datum Value)) (inputs : List String) :
    ∃ root, (create options host hostNames constants inputs).IsRooted root :=
  ⟨_, rfl, Nat.lt_of_lt_of_eq (Nat.lt_succ_self _) (Array.size_push _).symm⟩

end Interpreter

/-! ## Sessions -/

namespace Session

variable {session after : Session}

theorem Reaches.keepsBindings (reached : session.Reaches after) :
    session.world.store.KeepsBindings after.world.store := by
  induction reached with
  | start => exact .refl _
  | answer _ answered inductive_step =>
      exact inductive_step.trans (keepsBindings_answer answered)
  | takeEvents _ inductive_step => exact inductive_step

theorem Reaches.isRooted (reached : session.Reaches after) {root : LayerId}
    (rooted : session.interpreter.IsRooted root) :
    after.interpreter.IsRooted root where
  scope := by
    rw [reached.interpreter]
    exact rooted.scope
  known := Nat.lt_of_lt_of_le rooted.known reached.keepsBindings.layers

/--
A session that has been stopped is done with every script in one poll, takes no step,
prints nothing and keeps what is bound.  It is inert if and only if there is nothing in
the namespaces of the script but namespaces.
-/
theorem stopped_scripts_inert_iff {options : Options} {host : Host} {hostNames : List String}
    {constants : List (String × Datum Value)} {inputs : List String} {session : Session}
    (reached : (start (.create options host hostNames constants inputs)).Reaches session)
    (stopped : session.world.lifecycle.isStopped = true) (script : List Node) (mode : Mode) :
    (∃ verdict after, session.interpreter.EndsInOnePoll script mode verdict after ∧
      session.world.Spares Event.Silent session.world.store.layers.size after) ∧
      (session.interpreter.IsInert script mode ↔ Node.declareNothing script = true) := by
  obtain ⟨root, created⟩ := Interpreter.isRooted_create options host hostNames constants inputs
  have rooted := reached.isRooted created
  exact ⟨Interpreter.exists_verdict_of_stopped rooted stopped script mode,
    Interpreter.declareNothing_of_isInert rooted stopped,
    fun nothing => Interpreter.isInert_of_declareNothing rooted stopped nothing mode⟩

theorem reaches_stopped_plain : plain.Reaches plain.stopped :=
  .answer .start (answer_abort rfl rfl 0)

/-- The script `print("x"); :: N { :: M { } };`. -/
def announcement : List Node :=
  [.of (.call (.of (.identifier "print")) [.of (.str "x")]),
    .of (.namespaceBlock "N" [.of (.namespaceBlock "M" [])])]

/-- The script `:: N { let x = true; };`. -/
def namespaceDefinition : List Node :=
  [.of (.namespaceBlock "N" Interpreter.definition)]

/-- A stopped interpreter prints nothing, and collects empty namespaces. -/
theorem stopped_scripts_inert_iff_announcement :
    plain.stopped.interpreter.IsInert announcement .asynchronous :=
  (stopped_scripts_inert_iff reaches_stopped_plain rfl announcement .asynchronous).2.mpr rfl

/-- A stopped interpreter defines the members of a namespace. -/
theorem not_isInert_namespaceDefinition :
    plain.Reaches plain.stopped ∧ plain.stopped.world.lifecycle.isStopped = true ∧
      ¬ plain.stopped.interpreter.IsInert namespaceDefinition .synchronous := by
  refine ⟨reaches_stopped_plain, rfl, fun inert => ?_⟩
  obtain ⟨root, created⟩ := Interpreter.isRooted_create (.silent 0 0) Host.none [] [] []
  have rooted := reaches_stopped_plain.isRooted created
  cases Interpreter.declareNothing_of_isInert rooted rfl inert

end Session

end TreeScript
