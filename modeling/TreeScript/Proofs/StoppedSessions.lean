import TreeScript.Proofs.OrderlySessions

/-!
# Stopping holds the steps

Once evaluation has been stopped no run comes to the gate in front of a node any
more.  The runs that are suspended there at that moment enter the node that they
stand in front of, if they are polled on, and take a step with that.  Every other
step that is ever taken would need a run that is not stopped.

So `Session.held` counts all steps that are left: no request takes more of them
than it leaves fewer (`Session.IsOrderly.spends`).
-/

namespace TreeScript

theorem World.Upkeep.and {kept also : World → World → Prop} (first : World.Upkeep kept)
    (second : World.Upkeep also) :
    World.Upkeep fun before after => kept before after ∧ also before after where
  refl world := ⟨first.refl world, second.refl world⟩
  trans earlier later := ⟨first.trans earlier.1 later.1, second.trans earlier.2 later.2⟩
  readName options scope name world :=
    ⟨first.readName options scope name world, second.readName options scope name world⟩
  assign options scope name value world :=
    ⟨first.assign options scope name value world, second.assign options scope name value world⟩
  declare options scope name bound world :=
    ⟨first.declare options scope name bound world, second.declare options scope name bound world⟩
  build world datum := ⟨first.build world datum, second.build world datum⟩
  transition world transition :=
    ⟨first.transition world transition, second.transition world transition⟩
  subscribe world transition tag response :=
    ⟨first.subscribe world transition tag response, second.subscribe world transition tag response⟩
  unsubscribe world transition tag response :=
    ⟨first.unsubscribe world transition tag response,
      second.unsubscribe world transition tag response⟩

/-- Looking after a session takes no steps. -/
theorem World.upkeep_steps : World.Upkeep fun before after => after.steps = before.steps where
  refl _ := rfl
  trans first second := second.trans first
  readName options scope name world := world.steps_perform options (.readName scope name) nofun
  assign options scope name value world :=
    world.steps_perform options (.write (.name scope name) value) nofun
  declare options scope name bound world := by
    have agree := Edit.agree_register (World.editRelation_comesFrom options world) bound
      (scope.registrations name) world world ⟨rfl, rfl, rfl, .refl _⟩
    exact agree.2.2.1
  build _ _ := rfl
  transition world transition := rfl
  subscribe world _ tag response := world.steps_handler tag response
  unsubscribe world _ tag response := world.steps_handler tag response

namespace Session

open Classical in
/-- The number of runs that are suspended at a gate, for a pause or for a yield. -/
noncomputable def held (session : Session) : Nat :=
  session.runs.countP fun entry => entry.2.IsHeld session.interpreter.options.irq

variable {session after : Session}

/-! ## What is left ahead -/

section Held

open Classical

variable {id : String} {run : Run}

theorem held_forget_le (session : Session) (id : String) :
    (session.forget id).held ≤ session.held :=
  List.Sublist.countP_le List.filter_sublist

/-- Forgetting a run leaves fewer steps ahead by those that the run has ahead of it. -/
theorem held_forget_add_le (found : session.runs.lookup id = some run) :
    (session.forget id).held + run.ahead session.interpreter.options.irq ≤ session.held := by
  rw [Run.ahead]
  split
  · rename_i isHeld
    rw [held, held, session.runs.countP_eq_countP_filter_add _ fun entry => entry.1 != id]
    refine Nat.add_le_add_left (List.countP_pos_iff.mpr ⟨(id, run), ?_, ?_⟩) _
    · exact List.mem_filter.mpr ⟨mem_of_lookup found, by simp⟩
    · exact decide_eq_true isHeld
  · exact held_forget_le session id

theorem held_remember (session : Session) (id : String) (run : Run) :
    (session.remember id run).held =
      (session.forget id).held + run.ahead session.interpreter.options.irq := by
  rw [Run.ahead]
  split
  · rename_i isHeld
    exact List.countP_cons_of_pos (decide_eq_true isHeld)
  · rename_i free
    exact List.countP_cons_of_neg (mt of_decide_eq_true free)

end Held

/--
When evaluation has been stopped, no request takes more steps than it leaves
fewer ahead.
-/
theorem IsOrderly.spends {fuel : Nat} {request : Request} {answer : Answer}
    (orderly : session.IsOrderly True)
    (stopped : session.world.lifecycle.isStopped = true)
    (answered : session.answer fuel request = some (answer, after)) :
    after.world.steps + after.held ≤ session.world.steps + session.held := by
  have leads := leads_answer answered
  have lookedAfter := World.upkeep_steps.and World.upkeep_evolves
  -- Equal runs have as much ahead of them, since the options stay what they are.
  have heldOf {between : Session} (runs : between.runs = session.runs)
      (interpreter : between.interpreter =
        { session.interpreter with world := between.interpreter.world }) :
      between.held = session.held := by
    rw [held, held, runs, interpreter]
  cases course_of_answer lookedAfter answered with
  | tended _ tended =>
      exact Nat.le_of_eq (by rw [tended.world.1, heldOf tended.runs tended.interpreter])
  | @launched _ _ between id run _ tended launches remembered =>
      subst remembered
      have fresh : run.ahead between.interpreter.options.irq = 0 :=
        Run.ahead_of_fresh launches.starts.fresh
      have steps : (between.remember id run).world.steps = session.world.steps := tended.world.1
      rw [held_remember, fresh, steps, Nat.add_zero, ← heldOf tended.runs tended.interpreter]
      exact Nat.add_le_add_left (held_forget_le between id) _
  | dropped => exact Nat.add_le_add_left (held_forget_le session _) _
  | @completed _ _ between run _ interpreter _ tended begins completed world runs =>
      -- A run that is started now has nothing ahead of it.
      have guests : True → between.interpreter.host.IsStepless :=
        fun given => tended.interpreter ▸ orderly.guests given
      have advances := Interpreter.orderly_complete guests (.inl trivial)
        (begins.starts.isOrderly between.interpreter.options.irq) completed
      have spent := advances.spends (tended.world.2.isStopped stopped)
      rw [Run.ahead_of_fresh begins.starts.fresh] at spent
      have steps : between.interpreter.world.steps = session.world.steps := tended.world.1
      rw [world, heldOf (runs.trans tended.runs) leads.interpreter]
      omega
  | unknown missing => exact Nat.le_refl _
  | @suspended id save run rest interpreter found polled =>
      obtain ⟨-, -, advances⟩ :=
        Interpreter.orderly_poll orderly.guests orderly.hostless (orderly.of_lookup found) polled
      have left := held_forget_add_le found
      have spent : interpreter.world.steps + rest.ahead session.interpreter.options.irq ≤
          session.world.steps + run.ahead session.interpreter.options.irq :=
        advances.spends stopped
      have steps : ({ session with interpreter := interpreter }.remember id rest).world.steps =
          interpreter.world.steps := rfl
      have same := Interpreter.eq_of_poll polled
      have kept : ({ session with interpreter := interpreter }.forget id).held =
          (session.forget id).held := by
        rw [held, held, forget, same]
        rfl
      rw [held_remember, kept, steps, same]
      dsimp only
      omega
  | @ended id save run verdict interpreter after found polled world runs =>
      obtain ⟨-, -, advances⟩ :=
        Interpreter.orderly_poll orderly.guests orderly.hostless (orderly.of_lookup found) polled
      have left := held_forget_add_le found
      have spent : interpreter.world.steps ≤
          session.world.steps + run.ahead session.interpreter.options.irq :=
        advances.spends stopped
      have kept : after.held = (session.forget id).held := by
        rw [held, held, runs, leads.interpreter]
        rfl
      rw [world, kept]
      omega

/-- After evaluation has been stopped, no more steps are taken than are ahead. -/
theorem Reaches.steps_le {later : Session} (reached : session.Reaches later)
    (orderly : session.IsOrderly True)
    (stopped : session.world.lifecycle.isStopped = true) :
    later.world.steps + later.held ≤ session.world.steps + session.held := by
  induction reached with
  | start => exact Nat.le_refl _
  | answer reached answered inductive_step =>
      have spent := (reached.isOrderly orderly).spends (reached.evolves.isStopped stopped) answered
      exact Nat.le_trans spent inductive_step
  | takeEvents _ inductive_step => exact inductive_step

/-- A run that a session has started, or can start. -/
def Knows (session : Session) (run : Run) : Prop :=
  session.interpreter.Starts run ∨ ∃ id, session.runs.lookup id = some run

theorem IsOrderly.of_knows (orderly : session.IsOrderly True) {run : Run}
    (known : session.Knows run) :
    run.IsOrderly session.interpreter.options.irq True := by
  rcases known with starts | ⟨id, found⟩
  · exact starts.isOrderly _
  · exact orderly.of_lookup found

/--
Stopping holds the steps.  In every session in which evaluation has been stopped,
whatever is asked of it, no more steps are taken than there are runs that are
suspended at a gate at that moment, for a pause or for a yield.  However a run of
the session is continued then, it takes one step of its own at most, and none if
it is not suspended at a gate.  A run that stops evaluation itself takes no step
after that.
-/
theorem stopping_holds_the_steps {interpreter : Interpreter}
    (guests : interpreter.host.IsStepless)
    (reached : (start interpreter).Reaches session) :
    let options := session.interpreter.options
    let host := session.interpreter.host
    (session.world.lifecycle.isStopped = true → ∀ later, session.Reaches later →
        later.world.steps ≤ session.world.steps + session.held) ∧
      (∀ run task, session.Knows run → run.task = some task →
        ∀ world taken, world.lifecycle.isStopped = true →
          task.Takes options host World.StaysStopped world taken →
          taken ≤ 1 ∧ (¬ run.IsHeld options.irq → taken = 0)) ∧
      ∀ run task world current goals next after, session.Knows run → run.task = some task →
        Task.Reached options host (fun _ _ => False) session.world task world current goals →
        current.step options host world = .running next after →
        world.lifecycle.isStopped = false → next.lifecycle.isStopped = true →
        ∀ taken, after.Takes options host World.StaysStopped next taken → taken = 0 := by
  intro options host
  have orderly := reached.isOrderly (isOrderly_start guests)
  have guests : host.IsStepless := orderly.guests trivial
  refine ⟨fun stopped later further => ?_, ?_, ?_⟩
  · have spent := further.steps_le orderly stopped
    exact Nat.le_trans (Nat.le_add_right _ _) spent
  · intro run task known underway world taken stopped takes
    have rests := (orderly.of_knows known).rests underway
    have taken_le := takes.taken_le guests (rests.orderly _) stopped
    refine ⟨Nat.le_trans taken_le (run.ahead_le_one _), fun free => ?_⟩
    rw [Run.ahead_of_not_isHeld free] at taken_le
    exact Nat.le_zero.mp taken_le
  · intro run task world current goals next after known underway amid running unstopped stopped
      taken takes
    have rests := (orderly.of_knows known).rests underway
    obtain ⟨left, current, -, -⟩ :=
      amid.staysOrderly (fun _ => guests) (rests.orderly _) (.inl trivial)
    obtain ⟨last, after, -, advances⟩ := current.step (fun _ => guests) (.inl trivial) running
    have nothing : last = 0 := (advances.stops stopped).resolve_left (by simp [unstopped])
    exact Nat.le_zero.mp (nothing ▸ takes.taken_le guests after stopped)

/-- A session after an abort that no handler waits for. -/
def stopped (session : Session) : Session :=
  session.withWorld
    { session.world with lifecycle := { session.world.lifecycle with isStopped := true } }

theorem answer_abort (running : session.world.lifecycle.isStopped = false)
    (unattended : session.world.lifecycle.onAbort = []) (fuel : Nat) :
    session.answer fuel (.transition .abort) = some (.silent, session.stopped) := by
  rcases session with ⟨⟨options, host, root, world⟩, runs, saved⟩
  rcases world with ⟨store, steps, ⟨isStopped, pause, pauses, onAbort, onPause, onUnpause⟩, rest⟩
  cases running
  cases unattended
  simp [Session.answer, World.transition, Lifecycle.transition, Lifecycle.enter, Lifecycle.settle,
    Lifecycle.take, Lifecycle.waiting, Lifecycle.withWaiting, stopped, withWorld, Session.world]

/-- A session that yields before every step, with a function that stops evaluation. -/
def stoppable : Session :=
  .start (.create { Options.silent 0 0 with irq := ⟨Float.ofNat 1, .custom true⟩ }
    Probe.host [Probe.qualified "abort"] [] [])

/-- The script `Host:abort();`. -/
def abortion : List Node :=
  [.of (.call (.of (.identifier (Probe.qualified "abort"))) [])]

/--
A run that yields when evaluation is stopped still takes a step.  A run that
stops evaluation by a function of the host takes none after that.
-/
theorem stopping_holds_the_steps_asleep :
    let poll : Request := .poll "negation" none
    let asleep := ((stoppable.asked 40 (.start "negation" (some negation))).asked 40 poll).stopped
    let later := asleep.asked 40 poll
    later.world.steps = asleep.world.steps + 1 ∧
      later.world.steps ≤ asleep.world.steps + asleep.held ∧
      ∃ task world current goals next after,
        (stoppable.interpreter.startAtOnce abortion).task = some task ∧
          Task.Reached stoppable.interpreter.options Probe.host (fun _ _ => False)
            stoppable.world task world current goals ∧
          current.step stoppable.interpreter.options Probe.host world = .running next after ∧
          world.lifecycle.isStopped = false ∧ next.lifecycle.isStopped = true ∧
          ∀ taken, after.Takes stoppable.interpreter.options Probe.host World.StaysStopped next
            taken → taken = 0 := by
  intro poll asleep later
  have guests : stoppable.interpreter.host.IsStepless := Probe.isStepless_host
  have reached : stoppable.Reaches asleep :=
    .answer ((Reaches.start.asked 40 _).asked 40 poll) (answer_abort rfl rfl 40)
  obtain ⟨bounded, -, -⟩ := stopping_holds_the_steps guests reached
  obtain ⟨-, -, aborts⟩ := stopping_holds_the_steps guests .start
  have taken := bounded rfl later (.asked .start 40 poll)
  refine ⟨rfl, taken, ?_⟩
  let task := Task.ofScript stoppable.interpreter.root abortion .synchronous
  let state := task.stateAfter stoppable.interpreter.options Probe.host 11 stoppable.world []
  -- After eleven moves the function of the host is about to stop evaluation.
  obtain ⟨next, stack, stands, running⟩ : ∃ next stack,
      state.2.1 = ⟨.act (.transition .abort) next, stack⟩ ∧
        state.1.lifecycle.isStopped = false :=
    ⟨_, _, rfl, rfl⟩
  have amid : Task.Reached stoppable.interpreter.options Probe.host (fun _ _ => False)
      stoppable.world task state.1 state.2.1 state.2.2 := Task.Reached.start.stateAfter 11
  have known : stoppable.Knows (stoppable.interpreter.startAtOnce abortion) :=
    .inl (.scriptAtOnce abortion)
  have stopped : (state.1.perform stoppable.interpreter.options
      (.transition .abort)).2.lifecycle.isStopped = true := Lifecycle.isStopped_abort _
  have stepped : state.2.1.step stoppable.interpreter.options Probe.host state.1 = _ :=
    (congrArg _ stands).trans (Task.step_act state.1 (.transition .abort) next stack)
  exact ⟨task, _, _, _, _, _, rfl, amid, stepped, running, stopped,
    aborts _ task _ _ _ _ _ known rfl amid stepped running stopped⟩

end Session

end TreeScript
