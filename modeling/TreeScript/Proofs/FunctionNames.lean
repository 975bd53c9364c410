import TreeScript.Proofs.Commissions
import TreeScript.Proofs.Evaluations
import TreeScript.Proofs.Moments

/-!
# The names of functions are written once

Whatever a session is asked, and however its runs take turns: a function is named at most
once, and never if it had a name when it was made.  It gets the name of the definition
whose function literal has made it, with the namespaces around the definition in front.

The runs of a session share the store, so that between two steps of one run others may do
what they like.  A session therefore keeps a ledger of the functions that each of its runs
has still to name (`Session.Accounts`).  What a run names is taken from its own page of the
ledger, and nothing else is on two pages.
-/

namespace TreeScript

/-! ## Moments -/

/-- The tasks that the runs of an interpreter start as. -/
def Interpreter.Begins (interpreter : Interpreter) (origin : Task) : Prop :=
  ∃ run, interpreter.Starts run ∧ run.task = some origin

/-- The definition is a member of a namespace of the script that a task has started as. -/
def Interpreter.Declares (interpreter : Interpreter) (origin : Task) (naming : Naming) : Prop :=
  ∃ script mode, origin = .ofScript interpreter.root script mode ∧
    naming.IsMember mode interpreter.root script

namespace Moment

/-- One moment of a run comes later than another, whatever functions others have made and named
meanwhile. -/
def Leads (options : Options) (host : Host) : Moment → Moment → Prop :=
  Relation.ReflTransGen (Goes options host World.MayName)

/-- The moment at which the function of a commission is made. -/
structure Makes (moment : Moment) (commission : Commission) : Prop where
  goals : moment.goals = commission.goals
  acts : ∃ body rest, commission.naming.Makes body ∧
    moment.task.process = .act (.newFunction none body) rest ∧
    (moment.world.store.newFunction none body).2 = commission.function

variable (interpreter : Interpreter) (start : World) (origin : Task)

/--
The moment at which a function gets its name.  The innermost goal under way is the definition
that names it; or there is none, and the definition is a member of a namespace of the script.
Earlier in the run the literal of the definition has made the function, in the goal that the
definition asks for its value.
-/
structure Names (now : Moment) (function : FunctionId) (naming : Naming) : Prop where
  begins : interpreter.Begins origin
  acts : ∃ rest, now.task.process = .act (.nameFunction function naming.name) rest
  within : naming.Within (interpreter.Declares origin) now.goals
  made : ∃ made : Moment,
    Reached interpreter.options interpreter.host World.MayName start origin made ∧
      made.Makes ⟨function, naming, naming.goal :: now.goals⟩ ∧
      made.Leads interpreter.options interpreter.host now

/-- A moment of a run, with the functions that it has still to name. -/
structure Accounts (moment : Moment) (pending : List Commission) : Prop where
  begins : interpreter.Begins origin
  carries : moment.task.Carries True (interpreter.Declares origin) moment.goals pending
  reached : Reached interpreter.options interpreter.host World.MayName start origin moment
  made : ∀ commission ∈ pending, ∃ made : Moment,
    Reached interpreter.options interpreter.host World.MayName start origin made ∧
      made.Makes commission ∧ made.Leads interpreter.options interpreter.host moment

end Moment

/-- What a task names in a world, as a run of the interpreter. -/
def Interpreter.NamesAt (interpreter : Interpreter) (world : World) (task : Task)
    (function : FunctionId) (naming : Naming) : Prop :=
  ∃ start origin underway,
    Moment.Names interpreter start origin ⟨world, task, underway⟩ function naming

namespace Moment.Accounts

variable {interpreter : Interpreter} {start next : World} {origin after : Task} {moment : Moment}
  {pending left : List Commission} {others : Commission → Prop}

/-- A later moment still knows where its functions come from. -/
theorem madeBefore {later : Moment} (accounts : moment.Accounts interpreter start origin pending)
    (goes : Goes interpreter.options interpreter.host World.MayName moment later) :
    ∀ commission ∈ pending, ∃ made : Moment,
      Reached interpreter.options interpreter.host World.MayName start origin made ∧
        made.Makes commission ∧ made.Leads interpreter.options interpreter.host later := by
  intro commission mem
  obtain ⟨made, reached, makes, leads⟩ := accounts.made commission mem
  exact ⟨made, reached, makes, leads.tail goes⟩

/-- A step leads from one account to another. -/
theorem step (guests : interpreter.host.LeavesNames)
    (accounts : moment.Accounts interpreter start origin pending)
    (running : moment.task.step interpreter.options interpreter.host moment.world =
      .running next after) :
    ∃ left, Accounts interpreter start origin ⟨next, after, moment.underwayAfter⟩ left ∧
      moment.task.Handles (interpreter.Declares origin) moment.world moment.goals next pending
        left := by
  obtain ⟨left, carries, handles⟩ := accounts.carries.step (fun _ => guests) (.inl trivial) running
  have goes : Goes interpreter.options interpreter.host World.MayName moment
      ⟨next, after, moment.underwayAfter⟩ := .step running
  refine ⟨left, ⟨accounts.begins, ?_, accounts.reached.go goes, ?_⟩, handles⟩
  · show after.Carries True _ (moment.underwayAfter.map Undertaking.goal) left
    rw [goals_underwayAfter]
    exact carries
  · have madeBefore := accounts.madeBefore goes
    cases handles with
    | keeps fewer _ _ => exact fun commission mem => madeBefore commission (fewer.subset mem)
    | names _ _ _ => exact fun commission mem => madeBefore commission (List.mem_cons_of_mem _ mem)
    | makes fewer acts made _ =>
        refine List.forall_mem_cons.mpr
          ⟨?_, fun commission mem => madeBefore commission (fewer.subset mem)⟩
        exact ⟨moment, accounts.reached, ⟨rfl, _, _, made, acts, rfl⟩, .single goes⟩

/-- A run that goes on after it has waited has the same functions to name. -/
theorem resume {between : World} {reason : Wait}
    (accounts : moment.Accounts interpreter start origin pending)
    (waiting : moment.task.step interpreter.options interpreter.host moment.world =
      .waiting between reason after) (since : between.MayName next) :
    Accounts interpreter start origin ⟨next, after, moment.underway⟩ pending := by
  have goes : Goes interpreter.options interpreter.host World.MayName moment
      ⟨next, after, moment.underway⟩ := .resume waiting since
  exact ⟨accounts.begins, accounts.carries.wait waiting, accounts.reached.go goes,
    accounts.madeBefore goes⟩

/-- What a step names is the function of a commission. -/
theorem namesBy (accounts : moment.Accounts interpreter start origin pending)
    (handles : moment.task.Handles (interpreter.Declares origin) moment.world moment.goals next
      pending left)
    (owes : moment.world.store.Owes pending others) :
    moment.world.store.NamesBy (interpreter.NamesAt moment.world moment.task) next.store :=
  (handles.namesBy owes).mono fun _ _ ⟨acts, within, mem⟩ =>
    ⟨start, origin, moment.underway, accounts.begins, acts, within, accounts.made _ mem⟩

/-- Whatever a run is about to name is without a name, and has been made for the purpose. -/
theorem names (guests : interpreter.host.LeavesNames)
    (accounts : moment.Accounts interpreter start origin pending)
    (owes : moment.world.store.Owes pending others) {function : FunctionId} {name : String}
    {rest : Unit → Process Turn}
    (acts : moment.task.process = .act (.nameFunction function name) rest) :
    ∃ naming body, name = naming.name ∧ naming.Makes body ∧
      moment.world.store.core? function = some (none, body) ∧
      interpreter.NamesAt moment.world moment.task function naming := by
  have running : moment.task.step interpreter.options interpreter.host moment.world =
      .running (moment.world.perform interpreter.options (.nameFunction function name)).2
        ⟨rest (), moment.task.stack⟩ := by
    rw [Task.step, acts]
  obtain ⟨left, -, handles⟩ := accounts.step guests running
  obtain ⟨naming, rfl, within, mem⟩ := handles.mem_of_acts acts
  obtain ⟨body, unnamed, makes⟩ := owes.isOpen _ mem
  exact ⟨naming, body, rfl, makes, unnamed, start, origin, moment.underway, accounts.begins,
    ⟨rest, acts⟩, within, accounts.made _ mem⟩

/-- What the next step of a run names is the function of a commission. -/
theorem namesBy_step (guests : interpreter.host.LeavesNames)
    (accounts : moment.Accounts interpreter start origin pending)
    (owes : moment.world.store.Owes pending others) :
    moment.world.store.NamesBy (interpreter.NamesAt moment.world moment.task)
      (moment.task.step interpreter.options interpreter.host moment.world).world.store := by
  cases progress : moment.task.step interpreter.options interpreter.host moment.world with
  | running next after =>
      obtain ⟨left, -, handles⟩ := accounts.step guests progress
      exact accounts.namesBy handles owes
  | waiting between reason after =>
      obtain ⟨rfl, -⟩ := Task.eq_of_waiting progress
      exact .refl _
  | finished reached outcome =>
      obtain ⟨rfl, -⟩ := Task.eq_of_finished progress
      exact .refl _

end Moment.Accounts

/-! ## Runs -/

namespace Interpreter

variable {interpreter : Interpreter} {run : Run}

/-- What is started does not depend on the world. -/
theorem Starts.withWorld {world : World}
    (starts : Starts { interpreter with world := world } run) : interpreter.Starts run := by
  cases starts with
  | script script => exact .script script
  | scriptAtOnce script => exact .scriptAtOnce script
  | call callee arguments style => exact .call callee arguments style

/-- A run starts without functions to name. -/
theorem Starts.carries (starts : interpreter.Starts run) {task : Task}
    (underway : run.task = some task) : task.Carries True (interpreter.Declares task) [] [] := by
  have scripted (script : List Node) (mode : Mode) :
      (Evaluation.process (Evaluation.answering
        (Evaluation.runScript interpreter.root script mode))).Carries True
          (interpreter.Declares (.ofScript interpreter.root script mode)) [] none none :=
    Evaluation.carries_runScript fun naming isMember => ⟨script, mode, rfl, isMember⟩
  have called {rule : Rule Value} {script : Naming → Prop}
      (leaves : rule.LeavesNames ⟨script, fun _ => False, True⟩) :
      (Evaluation.process (Evaluation.answering rule)).Carries True script [] none none :=
    Evaluation.carries_answering ((leaves.names none).mono fun _ _ _ => trivial)
  cases starts with
  | script script =>
      cases script with
      | nil => cases underway
      | cons statement rest =>
          cases underway
          exact .plain (scripted _ .asynchronous) .foot
  | scriptAtOnce script =>
      cases script with
      | nil => cases underway
      | cons statement rest =>
          cases underway
          exact .plain (scripted _ .synchronous) .barrier
  | call callee arguments style =>
      cases style with
      | asynchronous =>
          cases underway
          exact .plain (called (Evaluation.leavesNames_enter callee arguments _)) .foot
      | synchronous =>
          cases underway
          exact .plain (called (Evaluation.leavesNames_enter callee arguments _)) .barrier
      | simple =>
          cases underway
          exact .plain
            (called (Evaluation.closed_applyValue (Rule.closed_leavesNames _ _) callee arguments))
            .foot

end Interpreter

/-- A run between two polls, with the functions that it has still to name.  Meanwhile others may
have made and named functions. -/
inductive Run.Owes (interpreter : Interpreter) (world : World) : Run → List Commission → Prop where
  | fresh {run : Run} (starts : interpreter.Starts run) : Owes interpreter world run []
  | waits {start between : World} {origin after : Task} {moment : Moment} {reason : Wait}
      {delivers : Bool} {pending : List Commission}
      (accounts : moment.Accounts interpreter start origin pending)
      (waiting : moment.task.step interpreter.options interpreter.host moment.world =
        .waiting between reason after)
      (since : between.MayName world) :
      Owes interpreter world ⟨some after, some reason, delivers⟩ pending

namespace Run.Owes

variable {interpreter : Interpreter} {world next : World} {run : Run} {pending : List Commission}

theorem later (owes : run.Owes interpreter world pending) (meanwhile : world.MayName next) :
    run.Owes interpreter next pending := by
  cases owes with
  | fresh starts => exact .fresh starts
  | waits accounts waiting since => exact .waits accounts waiting (since.trans meanwhile)

/-- A run goes on with what it has still to name. -/
theorem accounts (owes : run.Owes interpreter world pending) {task : Task}
    (underway : run.task = some task) :
    ∃ start origin goals,
      Moment.Accounts interpreter start origin ⟨world, task, goals⟩ pending := by
  cases owes with
  | fresh starts =>
      exact ⟨world, task, [], ⟨_, starts, underway⟩, starts.carries underway, .start, nofun⟩
  | @waits start _ origin _ moment _ _ _ accounts waiting since =>
      cases underway
      exact ⟨start, origin, moment.underway, accounts.resume waiting since⟩

end Run.Owes

/-! ## Sessions -/

/-- Looking after a session names no function. -/
theorem World.upkeep_keepsNames :
    World.Upkeep fun before after => before.store.KeepsNames after.store where
  refl world := .refl world.store
  trans first second := first.trans second
  readName options scope name world :=
    keepsNames_edit world (Edit.agree_readName (editRelation_keepsNames options world) scope name)
  assign options scope name value world :=
    keepsNames_edit world
      (Edit.agree_assign (editRelation_keepsNames options world) scope name value)
  declare options scope name bound world :=
    keepsNames_edit world (Edit.agree_register (editRelation_keepsNames options world) bound
      (scope.registrations name))
  build world datum := .of_functions (world.store.functions_build datum)
  transition _ _ := .of_eq rfl
  subscribe world _ tag response := .of_eq (world.store_handler tag response)
  unsubscribe world _ tag response := .of_eq (world.store_handler tag response)

namespace Session

/-- What a session names on the way to the answer to a request. -/
def Names (interpreter : Interpreter) (session : Session) (request : Request)
    (function : FunctionId) (naming : Naming) : Prop :=
  ∃ world task, session.Evaluates request world task ∧
    interpreter.NamesAt world task function naming

/-- What is named on the way from one session to another, while one of the requests between them
is answered. -/
def NamesUntil (interpreter : Interpreter) (session after : Session) (function : FunctionId)
    (naming : Naming) : Prop :=
  ∃ between next fuel request answer, session.Reaches between ∧
    between.answer fuel request = some (answer, next) ∧ next.Reaches after ∧
    between.Names interpreter request function naming

variable {interpreter : Interpreter} {session between after : Session} {request : Request}
  {fuel : Nat}

theorem NamesUntil.later {function : FunctionId} {naming : Naming}
    (names : session.NamesUntil interpreter between function naming)
    (reached : between.Reaches after) : session.NamesUntil interpreter after function naming := by
  obtain ⟨before, next, fuel, request, answer, first, answered, later, names⟩ := names
  exact ⟨before, next, fuel, request, answer, first, answered, later.trans reached, names⟩

/-! ## Ledgers -/

/-- The commissions of all runs but the one with an identifier. -/
def Others (ledger : String → List Commission) (ran : Option String) (commission : Commission) :
    Prop :=
  ∃ id, ran ≠ some id ∧ commission ∈ ledger id

/-- A session of an interpreter, with the functions that its runs have still to name: all of them
are without a name, and none is on two pages. -/
structure Accounts (interpreter : Interpreter) (session : Session)
    (ledger : String → List Commission) : Prop where
  same : session.interpreter = { interpreter with world := session.world }
  runs : ∀ id run, session.runs.lookup id = some run →
    run.Owes interpreter session.world (ledger id)
  owes : ∀ id, session.world.store.Owes (ledger id) (Others ledger (some id))

variable {ledger : String → List Commission}

/-- What one run has named and made is on its page alone. -/
theorem owes_update {before after : Store} {id : String} {left : List Commission}
    (pages : ∀ other, before.Owes (ledger other) (Others ledger (some other)))
    (owes : after.Owes left (Others ledger (some id))) (other : String) :
    after.Owes (Function.update ledger id left other)
      (Others (Function.update ledger id left) (some other)) := by
  have elsewhere {page : String} (apart : page ≠ id) :
      Function.update ledger id left page = ledger page := Function.update_of_ne apart left ledger
  have here : Function.update ledger id left id = left := Function.update_self id left ledger
  have others {page : String} {commission : Commission} (apart : page ≠ id)
      (mem : commission ∈ ledger page) : Others ledger (some id) commission :=
    ⟨page, fun same => apart (Option.some.inj same).symm, mem⟩
  have isOpen (page : String) :
      ∀ commission ∈ Function.update ledger id left page, commission.IsOpen after := by
    intro commission mem
    by_cases same : page = id
    · subst same
      exact owes.isOpen commission (here ▸ mem)
    · exact owes.othersOpen commission (others same (elsewhere same ▸ mem))
  refine ⟨?_, isOpen other, fun commission ⟨page, _, mem⟩ => isOpen page commission mem, ?_⟩
  · by_cases same : other = id
    · subst same
      exact here.symm ▸ owes.distinct
    · exact (elsewhere same).symm ▸ (pages other).distinct
  · rintro first mem second ⟨page, apart, memPage⟩
    by_cases same : other = id
    · subst same
      rw [here] at mem
      have apart : page ≠ other := fun same => apart (congrArg some same.symm)
      exact owes.apart first mem second (others apart (elsewhere apart ▸ memPage))
    · rw [elsewhere same] at mem
      by_cases samePage : page = id
      · subst samePage
        rw [here] at memPage
        exact (owes.apart second memPage first (others same mem)).symm
      · rw [elsewhere samePage] at memPage
        exact (pages other).apart first mem second ⟨page, apart, memPage⟩

namespace Accounts

/-- A run that is begun has nothing to name, apart from what the others have. -/
theorem owesNothing (accounts : session.Accounts interpreter ledger) :
    session.world.store.Owes [] (Others ledger none) :=
  ⟨List.nodup_nil, nofun, fun commission ⟨id, _, mem⟩ => (accounts.owes id).isOpen commission mem,
    nofun⟩

/-- What evaluation has come to is on the page of the run. -/
theorem evaluates (guests : interpreter.host.LeavesNames)
    (accounts : session.Accounts interpreter ledger) {world : World} {task : Task}
    (evaluates : session.Evaluates request world task) :
    ∃ start origin underway left,
      Moment.Accounts interpreter start origin ⟨world, task, underway⟩ left ∧
        world.store.Owes left (Others ledger request.polled) ∧
        session.world.store.NamesBy (session.Names interpreter request) world.store := by
  have options : session.interpreter.options = interpreter.options := by rw [accounts.same]
  have host : session.interpreter.host = interpreter.host := by rw [accounts.same]
  induction evaluates with
  | @begins between run task begins underway =>
      have tended := begins.tended World.upkeep_keepsNames
      have starts := begins.starts
      rw [tended.interpreter, accounts.same] at starts
      have starts : Interpreter.Starts { interpreter with world := between.world } run := starts
      have fresh : run.Owes interpreter between.world [] := .fresh starts.withWorld
      obtain ⟨start, origin, goals, moment⟩ := fresh.accounts underway
      refine ⟨start, origin, goals, [], moment, ?_, .of_keepsNames tended.world⟩
      rw [begins.noPoll]
      exact accounts.owesNothing.later tended.world
  | @polls id save run task polls remembered ready underway =>
      subst polls
      obtain ⟨start, origin, goals, moment⟩ :=
        (accounts.runs id run remembered).accounts underway
      exact ⟨start, origin, goals, ledger id, moment, accounts.owes id,
        .refl _⟩
  | @step world next task after evaluated running inductive_step =>
      obtain ⟨start, origin, goals, pending, moment, owes, named⟩ := inductive_step
      rw [options, host] at running
      obtain ⟨left, later, handles⟩ := moment.step guests running
      refine ⟨start, origin, _, left, later, handles.owes owes, named.trans ?_⟩
      exact (moment.namesBy handles owes).mono fun _ _ names => ⟨world, task, evaluated, names⟩
  | @again world between task after reason noPoll evaluated waiting _ inductive_step =>
      obtain ⟨start, origin, goals, pending, moment, owes, named⟩ := inductive_step
      rw [options, host] at waiting
      obtain ⟨rfl, -⟩ := Task.eq_of_waiting waiting
      exact ⟨start, origin, goals, pending, moment.resume waiting (.refl _), owes, named⟩

/-- Looking after a session leaves its ledger as it is. -/
theorem tended (accounts : session.Accounts interpreter ledger)
    (tended : Tended (fun before after => before.store.KeepsNames after.store) session after) :
    after.Accounts interpreter ledger where
  same := by rw [tended.interpreter, accounts.same]
  runs id run found :=
    (accounts.runs id run (tended.runs ▸ found)).later (.of_namesBy tended.world)
  owes id := (accounts.owes id).later tended.world

/-- A session in which one run may have been replaced, and its page with it. -/
theorem replaced (accounts : session.Accounts interpreter ledger) {id : String}
    {left : List Commission}
    (same : after.interpreter = { session.interpreter with world := after.world })
    (meanwhile : session.world.MayName after.world)
    (others : ∀ other, other ≠ id → after.runs.lookup other = session.runs.lookup other)
    (own : ∀ run, after.runs.lookup id = some run → run.Owes interpreter after.world left)
    (owes : after.world.store.Owes left (Others ledger (some id))) :
    after.Accounts interpreter (Function.update ledger id left) where
  same := by rw [same, accounts.same]
  runs other run found := by
    by_cases isOwn : other = id
    · subst isOwn
      exact (Function.update_self other left ledger).symm ▸ own run found
    · rw [others other isOwn] at found
      exact (Function.update_of_ne isOwn left ledger).symm ▸
        (accounts.runs other run found).later meanwhile
  owes := owes_update accounts.owes owes

/-- What a poll of a remembered run comes to is on its page. -/
theorem polled (guests : interpreter.host.LeavesNames)
    (accounts : session.Accounts interpreter ledger) {id : String} {save : Option String}
    {run : Run} {result : Polled} {reached : Interpreter}
    (found : session.runs.lookup id = some run)
    (polled : session.interpreter.poll fuel run = some (result, reached)) :
    ∃ left, reached.world.store.Owes left (Others ledger (some id)) ∧
      session.world.store.NamesBy (session.Names interpreter (.poll id save))
        reached.world.store ∧
      ∀ rest, result = .pending rest → rest.Owes interpreter reached.world left := by
  have evaluates : ∀ task, run.task = some task →
      run.isReady session.world.lifecycle = true →
      session.Evaluates (.poll id save) session.world task :=
    fun task underway ready => .polls rfl found ready underway
  rcases Evaluates.of_poll rfl evaluates polled with
    ⟨rfl, idle⟩ | ⟨world, task, evaluated, store, waits⟩
  · refine ⟨ledger id, accounts.owes id, .refl _, fun rest same => ?_⟩
    exact (idle rest same).1 ▸ accounts.runs id run found
  · obtain ⟨start, origin, goals, left, moment, owes, named⟩ := accounts.evaluates guests evaluated
    refine ⟨left, store ▸ owes, store ▸ named, fun rest same => ?_⟩
    obtain ⟨reason, next, waiting, rfl⟩ := waits rest same
    rw [accounts.same] at waiting
    exact .waits moment waiting (.refl _)

/-- What is begun and polled to its end leaves the pages of the runs as they are. -/
theorem completed (guests : interpreter.host.LeavesNames)
    (accounts : session.Accounts interpreter ledger) {run : Run} {verdict : Verdict}
    {reached : Interpreter}
    (begins : session.Begins request between run)
    (completed : between.interpreter.complete fuel fuel run = some (verdict, reached)) :
    ∃ left, reached.world.store.Owes left (Others ledger none) ∧
      session.world.store.NamesBy (session.Names interpreter request) reached.world.store := by
  have tended := begins.tended World.upkeep_keepsNames
  have evaluates : ∀ task, run.task = some task →
      run.isReady between.world.lifecycle = true → session.Evaluates request between.world task :=
    fun task underway _ => .begins begins underway
  rcases Evaluates.of_complete begins.noPoll tended.interpreter evaluates completed with
    unchanged | ⟨world, task, evaluated, store⟩
  · exact ⟨[], unchanged ▸ accounts.owesNothing.later tended.world,
      unchanged ▸ .of_keepsNames tended.world⟩
  · obtain ⟨-, -, -, left, -, owes, named⟩ := accounts.evaluates guests evaluated
    rw [begins.noPoll] at owes
    exact ⟨left, store ▸ owes, store ▸ named⟩

/-- A request leads from one ledger to another, and what it names is named by evaluation. -/
theorem answer (guests : interpreter.host.LeavesNames)
    (accounts : session.Accounts interpreter ledger) {answer : Answer}
    (answered : session.answer fuel request = some (answer, after)) :
    ∃ pages, after.Accounts interpreter pages ∧
      session.world.store.NamesBy (session.Names interpreter request) after.world.store := by
  have same := (leads_answer answered).interpreter
  cases course_of_answer World.upkeep_keepsNames answered with
  | tended _ tended => exact ⟨ledger, accounts.tended tended, .of_keepsNames tended.world⟩
  | @launched _ _ between id run _ tended launches remembered =>
      subst remembered
      have later := accounts.tended tended
      have starts := launches.starts
      rw [later.same] at starts
      refine ⟨Function.update ledger id [], later.replaced rfl (.refl _) ?_ ?_ ?_,
        .of_keepsNames tended.world⟩
      · exact fun other apart => lookup_remember_ne between apart run
      · rintro _ found
        cases (lookup_remember_self between id run).symm.trans found
        exact .fresh starts.withWorld
      · exact (later.owes id).sublist (List.nil_sublist _)
  | @dropped id =>
      refine ⟨Function.update ledger id (ledger id),
        accounts.replaced rfl (.refl _) ?_ ?_ (accounts.owes id), .refl _⟩
      · exact fun other apart => lookup_forget_ne session apart
      · intro run found
        cases (lookup_forget_self session id).symm.trans found
  | unknown => exact ⟨ledger, accounts, .refl _⟩
  | completed _ tended begins completed world runs =>
      obtain ⟨left, owes, named⟩ := accounts.completed guests begins completed
      rw [← world] at owes named
      have meanwhile : session.world.MayName after.world := .of_namesBy named
      have isOpen (id : String) : ∀ commission ∈ ledger id, commission.IsOpen after.world.store :=
        fun commission mem => owes.othersOpen commission ⟨id, nofun, mem⟩
      refine ⟨ledger, ⟨?_, fun id run found => ?_, fun id => ?_⟩, named⟩
      · rw [same, accounts.same]
      · exact (accounts.runs id run (tended.runs ▸ runs ▸ found)).later meanwhile
      · exact { accounts.owes id with
          isOpen := isOpen id
          othersOpen := fun commission ⟨page, _, mem⟩ => isOpen page commission mem }
  | @suspended id _ run rest interpreter found polled =>
      obtain ⟨left, owes, named, rests⟩ := accounts.polled guests found polled
      refine ⟨Function.update ledger id left,
        accounts.replaced same (.of_namesBy named) ?_ ?_ owes, named⟩
      · exact fun other apart => lookup_remember_ne _ apart rest
      · rintro _ same
        cases (lookup_remember_self _ id rest).symm.trans same
        exact rests rest rfl
  | @ended id _ run verdict interpreter after found polled world runs =>
      obtain ⟨left, owes, named, -⟩ := accounts.polled guests found polled
      rw [← world] at owes named
      refine ⟨Function.update ledger id left,
        accounts.replaced same (.of_namesBy named) ?_ ?_ owes, named⟩
      · exact fun other apart => runs ▸ lookup_forget_ne session apart
      · intro run found
        rw [runs, lookup_forget_self] at found
        cases found

/-- A session at its beginning has nothing to name. -/
theorem start (interpreter : Interpreter) :
    (Session.start interpreter).Accounts interpreter fun _ => [] where
  same := rfl
  runs _ _ := nofun
  owes _ := ⟨List.nodup_nil, nofun, fun _ ⟨_, _, mem⟩ => absurd mem List.not_mem_nil, nofun⟩

/-- Every session that an interpreter comes to has a ledger. -/
theorem reached (guests : interpreter.host.LeavesNames)
    (accounts : session.Accounts interpreter ledger) (reached : session.Reaches after) :
    ∃ pages, after.Accounts interpreter pages := by
  induction reached with
  | start => exact ⟨ledger, accounts⟩
  | answer _ answered inductive_step =>
      obtain ⟨pages, between⟩ := inductive_step
      obtain ⟨later, accounts, -⟩ := between.answer guests answered
      exact ⟨later, accounts⟩
  | @takeEvents between _ inductive_step =>
      obtain ⟨pages, between⟩ := inductive_step
      exact ⟨pages, between.tended ⟨.refl _, rfl, rfl⟩⟩

/-- On the way to a later session functions are named only while a request is answered. -/
theorem namesUntil (guests : interpreter.host.LeavesNames)
    (accounts : session.Accounts interpreter ledger) (reached : session.Reaches after) :
    session.world.store.NamesBy (session.NamesUntil interpreter after) after.world.store := by
  induction reached with
  | start => exact .refl _
  | @answer between next fuel request answer reached answered inductive_step =>
      obtain ⟨pages, accounts⟩ := accounts.reached guests reached
      obtain ⟨-, -, named⟩ := accounts.answer guests answered
      have before := inductive_step.mono fun _ _ names => names.later (.answer .start answered)
      exact before.trans (named.mono fun _ _ names =>
        ⟨between, next, fuel, request, answer, reached, answered, .start, names⟩)
  | takeEvents _ inductive_step =>
      exact inductive_step.mono fun _ _ names => names.later (.takeEvents .start)

end Accounts

/--
Names of functions are written once.  Whatever a session has been asked before: each step of
what it evaluates leaves the names of all functions alone, but for one function that has none
and that is named by the definition whose function literal has made it.  Its name is the
identifier of the definition with the namespaces around it in front.

Until any later session a function keeps the name that it has, and a native one the name that
it was built with.  One that has none, or that is made meanwhile, may be named by such a
definition while a request is answered.
-/
theorem function_names_are_written_once (guests : interpreter.host.LeavesNames)
    (reached : (start interpreter).Reaches session) :
    (∀ request world task, session.Evaluates request world task →
      (∀ function name rest, task.process = .act (.nameFunction function name) rest →
        ∃ naming body, name = naming.name ∧ naming.Makes body ∧
          world.store.core? function = some (none, body) ∧
          interpreter.NamesAt world task function naming) ∧
      world.store.NamesBy (interpreter.NamesAt world task)
        (task.step session.interpreter.options session.interpreter.host world).world.store ∧
      session.world.store.NamesBy (session.Names interpreter request) world.store) ∧
    ∀ after, session.Reaches after →
      session.world.store.NamesBy (session.NamesUntil interpreter after) after.world.store ∧
      (∀ function name body, session.world.store.core? function = some (some name, body) →
        after.world.store.core? function = some (some name, body)) ∧
      ∀ function name native, session.world.store.core? function = some (name, .native native) →
        after.world.store.core? function = some (name, .native native) := by
  obtain ⟨ledger, accounts⟩ := (Accounts.start interpreter).reached guests reached
  refine ⟨fun request world task evaluates => ?_, fun after later => ?_⟩
  · obtain ⟨start, origin, underway, left, moment, owes, named⟩ :=
      accounts.evaluates guests evaluates
    rw [accounts.same]
    exact ⟨fun _ _ _ acts => moment.names guests owes acts, moment.namesBy_step guests owes, named⟩
  · have named := accounts.namesUntil guests later
    refine ⟨named, fun function name body found => ?_, fun function name native found => ?_⟩
    · exact (named.kept function (some name) body found).resolve_right nofun
    · refine (named.kept function name (.native native) found).resolve_right ?_
      rintro ⟨-, _, -, ⟨_, _, _, -, ⟨⟩⟩, -⟩

/-- A session of a host with a function. -/
def surveying : Session :=
  .start (.create (.silent 0 0) Probe.host [Probe.qualified "top_sync"] [] [])

/-- The definition `area = fn() { };` in the namespace `geometry`. -/
def areaNaming : Naming where
  identifier := "area"
  literal := .of (.function [] [])
  scope := .member ⟨1⟩ "geometry" surveying.interpreter.root
  context := .top .synchronous

/-- What the function does that it names. -/
def areaBody : Body :=
  .closure [] [] [] areaNaming.scope

/-- The script `namespace geometry { area = fn() { }; }`. -/
def geometry : List Node :=
  [.of (.namespaceBlock "geometry"
    [.of (.definition (.of (.identifier "area")) areaNaming.literal false [])])]

/-- The state of that script in which the function is about to be named. -/
def namingState : World × Task × List Goal :=
  (Task.ofScript surveying.interpreter.root geometry .synchronous).stateAfter
    surveying.interpreter.options surveying.interpreter.host 6 surveying.world []

/-- The session after that script. -/
def surveyed : Session :=
  ((surveying.answer 40 (.execute .synchronous (some geometry) none)).map Prod.snd).getD surveying

/-- The script `size = geometry:area; sync = Host:top_sync;`. -/
def aliases : List Node :=
  [.of (.definition (.of (.identifier "size")) (.of (.identifier "geometry:area")) false []),
    .of (.definition (.of (.identifier "sync")) (.of (.identifier (Probe.qualified "top_sync")))
      false [])]

/-- What the aliases of a session are bound to. -/
def aliased (session : Session) : List (Option Value) :=
  ["size", "sync"].map fun name =>
    (session.world.store.binding? session.interpreter.root name).map Variable.value

theorem evaluates_namingState :
    surveying.Evaluates (.execute .synchronous (some geometry) none)
      namingState.1 namingState.2.1 := by
  have begins : surveying.Evaluates (.execute .synchronous (some geometry) none)
      surveying.world (.ofScript surveying.interpreter.root geometry .synchronous) :=
    .begins .scriptAtOnce rfl
  exact begins.of_reached (Task.Reached.start.stateAfter 6)

/-- A function that a namespace has named keeps its name when it gets an alias, and so does a
function of the host. -/
theorem function_names_are_written_once_aliases :
    (∃ naming, areaNaming.name = "geometry:area" ∧ naming.name = areaNaming.name ∧
      surveying.interpreter.NamesAt namingState.1 namingState.2.1 ⟨19⟩ naming ∧
      namingState.1.store.core? ⟨19⟩ = some (none, areaBody)) ∧
    ∃ answer reply after,
      surveying.answer 40 (.execute .synchronous (some geometry) none) = some (answer, surveyed) ∧
      surveyed.answer 40 (.execute .synchronous (some aliases) none) = some (reply, after) ∧
      after.aliased = [some (.fn ⟨19⟩), some (.fn ⟨0⟩)] ∧
      after.world.store.core? ⟨19⟩ = some (some "geometry:area", areaBody) ∧
      after.world.store.core? ⟨0⟩ =
        some (some "Host:top_sync", .native (.host "Host:top_sync")) := by
  have answered : ∃ answer, surveying.answer 40 (.execute .synchronous (some geometry) none) =
      some (answer, surveyed) := ⟨_, rfl⟩
  have bound : (surveyed.answer 40 (.execute .synchronous (some aliases) none)).map
      (fun replied => replied.2.aliased) = some [some (.fn ⟨19⟩), some (.fn ⟨0⟩)] := by
    decide +kernel
  obtain ⟨answer, answered⟩ := answered
  obtain ⟨⟨reply, after⟩, replied, bound⟩ := Option.map_eq_some_iff.mp bound
  have begins : (start surveying.interpreter).Reaches surveying := .start
  have later : (start surveying.interpreter).Reaches surveyed := .answer .start answered
  obtain ⟨steps, -⟩ := function_names_are_written_once Probe.leavesNames_host begins
  obtain ⟨-, kept⟩ := function_names_are_written_once Probe.leavesNames_host later
  obtain ⟨-, named, native⟩ := kept after (.answer .start replied)
  obtain ⟨naming, body, same, -, unnamed, names⟩ :=
    (steps _ _ _ evaluates_namingState).1 ⟨19⟩ "geometry:area" _ rfl
  exact ⟨⟨naming, rfl, same.symm, names, rfl⟩, answer, reply, after, answered, replied, bound,
    named _ _ _ rfl, native _ _ _ rfl⟩

end Session

end TreeScript
