import TreeScript.Proofs.ActionAgreement
import TreeScript.Proofs.Confinement
import TreeScript.Proofs.Fresh
import TreeScript.Proofs.Reach

/-!
# The frame of an evaluation

Evaluating a node adds names to the innermost layer of its scope, to the scopes
around its namespaces under qualified names, and to layers that it makes itself.
It adds no name to any other layer, and a block, the body of a loop or of a
function, and a clause that is a statement add none to any layer that there was.

`Process.During` follows a process above the frames that wait for it, until it
answers them.  What the process and the frames above them are confined to when
it starts, they are still confined to after every step.
-/

namespace TreeScript

/-- Where a scope registers names: in its own layer, and qualified around its namespace. -/
theorem Scope.registers_iff (scope : Scope) (layer : LayerId) (name : String) :
    scope.Registers layer name ↔
      layer = scope.layer ∨
        ∃ own space outer defined registered, scope = .member own space outer ∧
          (registered, name) ∈ outer.registrations (space ++ ":" ++ defined) ∧
          registered.layer = layer := by
  constructor
  · rintro ⟨defined, registered, member, rfl⟩
    cases scope with
    | root own | child own outer =>
        cases List.mem_singleton.mp member
        exact .inl rfl
    | member own space outer =>
        rcases List.mem_cons.mp member with here | member
        · cases here
          exact .inl rfl
        · exact .inr ⟨own, space, outer, defined, registered, rfl, member, rfl⟩
  · rintro (rfl | ⟨own, space, outer, defined, registered, rfl, member, rfl⟩)
    · refine ⟨name, scope, ?_, rfl⟩
      cases scope <;> exact List.mem_cons_self
    · exact ⟨defined, registered, List.mem_cons_of_mem _ member, rfl⟩

namespace Process

/--
The states of a process and of the frames that it has put on the stack, while
it runs above some other frames.  While it waits the store is left alone.
-/
inductive During (options : Options) (host : Host) (below : List Frame) (start : World)
    (process : Process Turn) : World → Process Turn → List Frame → Prop where
  | start : During options host below start process start process []
  | step {world next : World} {current after : Process Turn} {above rest : List Frame}
      (during : During options host below start process world current above)
      (running : Task.step options host world ⟨current, above ++ below⟩ =
        .running next ⟨after, rest ++ below⟩) :
      During options host below start process next after rest
  | resume {world between next : World} {current after : Process Turn} {above : List Frame}
      {reason : Wait}
      (during : During options host below start process world current above)
      (waiting : Task.step options host world ⟨current, above ++ below⟩ =
        .waiting between reason ⟨after, above ++ below⟩)
      (undisturbed : next.store = between.store) :
      During options host below start process next after above

/-- A process, with its frames, that has kept to some places since it started. -/
structure KeepsTo (permits : LayerId → String → Prop) (start world : World)
    (current : Process Turn) (above : List Frame) : Prop where
  hostless : world.store.Hostless
  grows : start.store.Grows (fun layer name _ => permits layer name) world.store
  process : current.Confined permits (Turn.IsConfined permits)
  frames : ∀ frame ∈ above, ∀ outcome,
    (frame.resume outcome).Confined permits (Turn.IsConfined permits)

end Process

namespace Task

/-- The innermost barrier is one of the frames above some others, or one of these others. -/
theorem barrier?_append {above below outer : List Frame} {frame : Frame}
    (barrier : barrier? (above ++ below) = some (frame, outer)) :
    (∃ rest, outer = rest ++ below ∧ frame :: rest ⊆ above) ∨ outer.length < below.length := by
  induction above with
  | nil => exact .inr (length_of_barrier? barrier)
  | cons first rest inductive_step =>
      rw [List.cons_append, barrier?] at barrier
      split at barrier
      · cases barrier
        exact .inl ⟨rest, rfl, List.Subset.refl _⟩
      · rcases inductive_step barrier with ⟨left, rfl, inside⟩ | short
        · exact .inl ⟨left, rfl, fun other mem => List.mem_cons_of_mem first (inside mem)⟩
        · exact .inr short

/-- Two tasks above the same frames are equal only if they are so part by part. -/
theorem running_inj {world next : World} {current after : Process Turn}
    {above rest below : List Frame}
    (same : Progress.running world ⟨current, above ++ below⟩ =
      .running next ⟨after, rest ++ below⟩) :
    world = next ∧ current = after ∧ above = rest := by
  injection same with worlds tasks
  injection tasks with processes frames
  exact ⟨worlds, processes, List.append_cancel_right frames⟩

end Task

namespace Process.KeepsTo

variable {options : Options} {host : Host} {permits : LayerId → String → Prop}
variable {start world : World} {current : Process Turn} {above below : List Frame}

/-- An action keeps to the places, if all new layers are among these. -/
theorem act {action : Action} {next : action.Reply → Process Turn}
    (keeps : KeepsTo permits start world (.act action next) above)
    (opened : ∀ layer name, start.store.layers.size ≤ layer.index → permits layer name) :
    KeepsTo permits start (world.perform options action).2
      (next (world.perform options action).1) above := by
  cases keeps.process with
  | act confined rest =>
      have supplied : action.Supplies permits (world.perform options action).1 := by
        cases action with
        | store => exact keeps.hostless
        | newLayer bindings => exact fun name => opened _ name keeps.grows.layers
        | _ => trivial
      exact {
        hostless := World.hostless_perform options action confined.hostless keeps.hostless
        grows := keeps.grows.trans (world.grows_perform options action)
          fun layer name isMutable _ adds => confined.adds adds
        process := rest _ supplied
        frames := keeps.frames }

/-- A step above some frames keeps to the places. -/
theorem step {next : World} {after : Process Turn} {rest : List Frame}
    (keeps : KeepsTo permits start world current above)
    (opened : ∀ layer name, start.store.layers.size ≤ layer.index → permits layer name)
    (running : Task.step options host world ⟨current, above ++ below⟩ =
      .running next ⟨after, rest ++ below⟩) :
    KeepsTo permits start next after rest := by
  rcases keeps with ⟨hostless, grows, confined, frames⟩
  cases confined with
  | @done turn confined =>
      cases turn with
      | answer outcome =>
          cases above with
          | nil =>
              -- The answer goes to a frame below, so that these are not there afterwards.
              cases below with
              | nil => cases running
              | cons frame outer =>
                  injection running with _ same
                  have lengths := congrArg (fun task => task.stack.length) same
                  simp only [List.length_append, List.length_cons] at lengths
                  omega
          | cons frame above =>
              obtain ⟨rfl, rfl, rfl⟩ := Task.running_inj running
              rcases List.forall_mem_cons.mp frames with ⟨resumes, others⟩
              exact ⟨hostless, grows, resumes outcome, others⟩
      | again goal =>
          obtain ⟨rfl, rfl, rfl⟩ := Task.running_inj running
          exact ⟨hostless, grows, Evaluation.confined_ofGoal options host confined, frames⟩
  | act confined rest =>
      obtain ⟨rfl, rfl, rfl⟩ := Task.running_inj running
      exact act ⟨hostless, grows, .act confined rest, frames⟩ opened
  | wait confined =>
      cases barrier : Task.barrier? (above ++ below) with
      | none =>
          rw [Task.step_wait barrier] at running
          cases running
      | some found =>
          rcases found with ⟨frame, outer⟩
          rw [Task.step_wait_barrier barrier] at running
          rcases Task.barrier?_append barrier with ⟨left, rfl, inside⟩ | short
          · obtain ⟨rfl, rfl, rfl⟩ := Task.running_inj running
            rcases List.cons_subset.mp inside with ⟨here, others⟩
            exact ⟨hostless, grows, frames frame here _, fun other mem => frames other (others mem)⟩
          · injection running with _ same
            have lengths := congrArg (fun task => task.stack.length) same
            simp only [List.length_append] at lengths
            omega
  | call confined resumes =>
      obtain ⟨rfl, rfl, rfl⟩ := @Task.running_inj _ _ _ _ (_ :: above) _ _ running
      exact ⟨hostless, grows, Evaluation.confined_ofGoal options host confined,
        List.forall_mem_cons.mpr ⟨resumes, frames⟩⟩
  | drive confined resumes =>
      obtain ⟨rfl, rfl, rfl⟩ := @Task.running_inj _ _ _ _ (_ :: above) _ _ running
      exact ⟨hostless, grows, Evaluation.confined_ofGoal options host confined,
        List.forall_mem_cons.mpr ⟨resumes, frames⟩⟩

/-- Whatever a confined process has done above some frames, it has kept to the places. -/
theorem during {process : Process Turn}
    (confined : process.Confined permits (Turn.IsConfined permits))
    (hostless : start.store.Hostless)
    (opened : ∀ layer name, start.store.layers.size ≤ layer.index → permits layer name)
    (during : During options host below start process world current above) :
    KeepsTo permits start world current above := by
  induction during with
  | start => exact ⟨hostless, .refl start.store, confined, nofun⟩
  | step _ running inductive_step => exact inductive_step.step opened running
  | @resume world between next current after above reason _ waiting undisturbed inductive_step =>
      rcases Task.eq_of_waiting waiting with ⟨rfl, proceed, stack, same, rest⟩
      injection same with waits
      injection rest with goesOn
      subst waits goesOn
      rcases inductive_step with ⟨hostless, grows, confined, frames⟩
      cases confined with
      | wait confined =>
          exact ⟨undisturbed ▸ hostless, undisturbed ▸ grows, confined, frames⟩

end Process.KeepsTo

namespace Process.During

variable {options : Options} {host : Host} {start world : World} {process current : Process Turn}
variable {below above : List Frame}

/-- A process that is confined to new layers and some other places adds names there alone. -/
theorem grows {adds : LayerId → String → Prop}
    (hostless : start.store.Hostless)
    (confined : ∀ permits : LayerId → String → Prop,
      (∀ layer name, adds layer name → permits layer name) →
      process.Confined permits (Turn.IsConfined permits))
    (during : During options host below start process world current above) :
    start.store.Grows (fun layer name _ => adds layer name) world.store := by
  have confined := confined
    (fun layer name => start.store.layers.size ≤ layer.index ∨ adds layer name)
    fun _ _ => Or.inr
  have keeps := KeepsTo.during confined hostless (fun _ _ => Or.inl) during
  exact keeps.grows.mono fun layer name _ inside permitted =>
    permitted.resolve_left (Nat.not_le_of_lt inside)

/-- A task that runs on its own, in whatever state it has reached, has run above no frames. -/
theorem of_reached {task : Task} {goals : List Goal}
    (reached : Task.Reached options host (fun between next => next.store = between.store) start
      ⟨process, []⟩ world task goals) :
    During options host [] start process world task.process task.stack := by
  induction reached with
  | start => exact .start
  | @step world next current after goals _ running inductive_step =>
      refine .step inductive_step ?_
      rw [List.append_nil, List.append_nil]
      exact running
  | @resume world between next current after reason goals _ waiting undisturbed inductive_step =>
      rcases Task.eq_of_waiting waiting with ⟨rfl, proceed, stack, rfl, rfl⟩
      have suspended : Task.step options host between ⟨.wait reason proceed, stack ++ []⟩ =
          .waiting between reason ⟨proceed, stack ++ []⟩ := by
        rw [List.append_nil]
        exact waiting
      exact .resume inductive_step suspended undisturbed

end Process.During

/-! ## Evaluations with a scope of their own -/

/-- A goal that defines in scopes that it opens itself: a loop, the body of a function, a block. -/
def Goal.HasOwnScope : Goal → Prop
  | .evaluate node _ _ => node.IsBlock
  | .times _ _ _ body _ _ => body.isStatement
  | .enter _ _ _ => False
  | _ => True

theorem Goal.HasOwnScope.isConfined {goal : Goal} (own : goal.HasOwnScope)
    (permits : LayerId → String → Prop) :
    goal.IsConfined permits := by
  cases goal with
  | evaluate node scope context => exact .inl own
  | times label count limit body scope context => exact .inl own
  | enter callee arguments mode => exact own
  | _ => trivial

namespace Evaluation

variable (options : Options) (host : Host) {start : World} {below : List Frame}

/--
The frame of an evaluation.  A scope registers names in its innermost layer and,
if it belongs to a namespace, around it under the qualified name.  Whatever frames
are below, and whether it may be suspended or not: while a node is evaluated in a
scope, the layers that there were when it began get names alone that the scope
registers there.  They get none while a block, a loop or the body of a function
runs, and none from a clause that is a statement.
-/
theorem lexical_frame (hostless : start.store.Hostless) (scope : Scope) (context : Context) :
    (∀ layer name, scope.Registers layer name ↔
      layer = scope.layer ∨
        ∃ own space outer defined registered, scope = .member own space outer ∧
          (registered, name) ∈ outer.registrations (space ++ ":" ++ defined) ∧
          registered.layer = layer) ∧
      (∀ node world current above,
        Process.During options host below start (ofGoal options host (.evaluate node scope context))
          world current above →
        start.store.Grows (fun layer name _ => scope.Registers layer name) world.store) ∧
      (∀ goal world current above, goal.HasOwnScope →
        Process.During options host below start (ofGoal options host goal) world current above →
        start.store.Grows (fun _ _ _ => False) world.store) ∧
      ∀ clause world current above, clause.isStatement →
        Process.During options host below start
          (process (answering (evaluateClause clause scope context))) world current above →
        start.store.Grows (fun _ _ _ => False) world.store := by
  refine ⟨scope.registers_iff, ?_, ?_, ?_⟩
  · intro node world current above during
    refine during.grows hostless fun permits within => ?_
    have confined : (Goal.evaluate node scope context).IsConfined permits := .inr within
    exact confined_ofGoal options host confined
  · intro goal world current above own during
    exact during.grows hostless fun permits _ =>
      confined_ofGoal options host (own.isConfined permits)
  · intro clause world current above statement during
    exact during.grows hostless fun permits _ =>
      confined_process (confined_answering (stays_evaluateClause (.inl statement)))

/-- A new interpreter, and a layer that is to be that of the namespace `space`. -/
def spacious : World :=
  ((Interpreter.create (.silent 0 0) Host.none [] [] []).world.perform (.silent 0 0)
    (.newLayer .empty)).2

/-- The scope of the namespace `space`. -/
def spaceScope : Scope :=
  .member ⟨1⟩ "space" (.root ⟨0⟩)

/-- The definition `let x = null`. -/
def definitionOfX : Node :=
  .of (.definition (.of (.identifier "x")) (.of .null) false [])

/-- How far the evaluation of a node in the namespace gets in some steps. -/
def stateInSpace (node : Node) (steps : Nat) : World × Task × List Goal :=
  let start := ofGoal (.silent 0 0) Host.none (.evaluate node spaceScope (.top .asynchronous))
  Task.stateAfter (.silent 0 0) Host.none ⟨start, []⟩ steps spacious []

/-- In a namespace a definition adds two names, and one within a block adds none. -/
theorem lexical_frame_space :
    let defined := (stateInSpace definitionOfX 20).1.store
    let enclosed := (stateInSpace (.of (.block none [definitionOfX])) 40).1.store
    ((defined.bindings ⟨1⟩).find? "x").isSome ∧
      ((defined.bindings ⟨0⟩).find? "space:x").isSome ∧
      spacious.store.Grows (fun layer name _ => spaceScope.Registers layer name) defined ∧
      ((enclosed.bindings ⟨2⟩).find? "x").isSome ∧
      spacious.store.Grows (fun _ _ _ => False) enclosed := by
  intro defined enclosed
  have hostless : spacious.store.Hostless :=
    World.hostless_perform _ (.newLayer .empty) trivial (Interpreter.hostless_create _ _ _ _)
  obtain ⟨-, evaluates, encloses, -⟩ :=
    @lexical_frame (.silent 0 0) Host.none spacious [] hostless spaceScope (.top .asynchronous)
  refine ⟨rfl, rfl, ?_, rfl, ?_⟩
  · exact evaluates _ _ _ _ (.of_reached (Task.Reached.start.stateAfter 20))
  · exact encloses (.evaluate (.of (.block none [definitionOfX])) spaceScope (.top .asynchronous))
      _ _ _ trivial (.of_reached (Task.Reached.start.stateAfter 40))

end Evaluation

end TreeScript
