import TreeScript.Proofs.FatalErrors
import TreeScript.Proofs.LexicalFrame
import TreeScript.Proofs.Namings
import TreeScript.Proofs.SoundEdit

/-!
# Functions that are to be named

Between the function literal that makes a function and the definition that names it, much
may be evaluated: the attributes of the definition, and whatever other runs do while this
one waits.  A run keeps account of the functions that it has made and has still to name, as
commissions: at most one for each goal under way (`Task.Carries`).

`Task.Carries.step` says what a step does about them: it takes a new function on, names the
function of the innermost commission, or leaves the names of all functions alone.  Since no
function is commissioned twice, what is named has no name yet (`Task.Handles.namesBy`).
-/

namespace TreeScript

/-! ## What functions are named -/

/-- A later state of a store.  All functions have the bodies that they had, and the names that
they had, unless they had none and were named meanwhile, by the definition whose function
literal has made them; and so have those that have been made meanwhile, but for native ones. -/
structure Store.NamesBy (names : FunctionId → Naming → Prop) (before after : Store) : Prop where
  kept : ∀ function name body, before.core? function = some (name, body) →
    after.core? function = some (name, body) ∨
      name = none ∧ ∃ naming : Naming, names function naming ∧ naming.Makes body ∧
        after.core? function = some (some naming.name, body)
  made : ∀ function name body, before.core? function = none →
    after.core? function = some (some name, body) →
      (∃ native, body = .native native) ∨
        ∃ naming : Naming, names function naming ∧ naming.Makes body ∧ name = naming.name

/-- A later state of a store, without functions that have been named meanwhile. -/
def Store.KeepsNames (before after : Store) : Prop :=
  before.NamesBy (fun _ _ => False) after

/-- A later world, whatever functions have been made and named meanwhile. -/
def World.MayName (before after : World) : Prop :=
  before.store.NamesBy (fun _ _ => True) after.store

namespace Store

variable {before between after : Store} {names more : FunctionId → Naming → Prop}

namespace NamesBy

theorem trans (first : before.NamesBy names between) (second : between.NamesBy names after) :
    before.NamesBy names after where
  kept := by
    intro function name body found
    rcases first.kept function name body found with same | ⟨rfl, naming, named, makes, found⟩
    · exact second.kept function name body same
    · rcases second.kept function (some naming.name) body found with same | ⟨⟨⟩, -⟩
      exact .inr ⟨rfl, naming, named, makes, same⟩
  made := by
    intro function name body missing found
    cases known : between.core? function with
    | none => exact second.made function name body known found
    | some core =>
        obtain ⟨given, same⟩ := core
        rcases second.kept function given same known with kept | ⟨rfl, naming, named, makes, now⟩
        · cases kept.symm.trans found
          exact first.made function name body missing known
        · cases now.symm.trans found
          exact .inr ⟨naming, named, makes, rfl⟩

theorem mono (named : before.NamesBy names after)
    (within : ∀ function naming, names function naming → more function naming) :
    before.NamesBy more after where
  kept := by
    intro function name body found
    rcases named.kept function name body found with same | ⟨rfl, naming, names, rest⟩
    · exact .inl same
    · exact .inr ⟨rfl, naming, within function naming names, rest⟩
  made := by
    intro function name body missing found
    rcases named.made function name body missing found with native | ⟨naming, names, rest⟩
    · exact .inl native
    · exact .inr ⟨naming, within function naming names, rest⟩

theorem of_keepsNames (kept : before.KeepsNames after) : before.NamesBy names after :=
  NamesBy.mono kept fun _ _ => False.elim

end NamesBy

namespace KeepsNames

theorem of_core? (same : ∀ function, after.core? function = before.core? function) :
    before.KeepsNames after where
  kept function _ _ found := .inl ((same function).trans found)
  made function _ _ missing found := by
    cases missing.symm.trans ((same function).symm.trans found)

theorem of_functions (same : after.functions = before.functions) : before.KeepsNames after :=
  of_core? fun function => by rw [core?, core?, function?, function?, same]

theorem refl (store : Store) : store.KeepsNames store :=
  of_functions rfl

theorem of_eq (same : after = before) : before.KeepsNames after :=
  same ▸ refl before

theorem trans (first : before.KeepsNames between) (second : between.KeepsNames after) :
    before.KeepsNames after :=
  NamesBy.trans first second

theorem core? (kept : before.KeepsNames after) {function : FunctionId}
    {core : Option String × Body} (found : before.core? function = some core) :
    after.core? function = some core :=
  (kept.kept function core.1 core.2 found).resolve_right fun ⟨_, _, named, _⟩ => named

end KeepsNames

theorem NamesBy.refl (store : Store) : store.NamesBy names store :=
  .of_keepsNames (.refl store)

theorem KeepsCores.keepsNames {change : Store → Store} (keeps : KeepsCores change)
    (store : Store) : store.KeepsNames (change store) :=
  .of_core? (keeps store)

/-- A new function has no name yet, or it is a native one. -/
theorem keepsNames_newFunction (store : Store) (name : Option String) (body : Body)
    (noNaming : (Action.newFunction name body).isNaming = false) :
    store.KeepsNames (store.newFunction name body).1 where
  kept function given known found := by
    obtain ⟨_, present, -⟩ := Option.map_eq_some_iff.mp found
    have inside : function.index < store.functions.size :=
      (Array.getElem?_eq_some_iff.mp present).1
    rw [core?, function?, newFunction, Array.getElem?_push, if_neg (Nat.ne_of_lt inside)]
    exact .inl found
  made function given known missing found := by
    rw [core?, function?, newFunction, Array.getElem?_push] at found
    split at found
    · cases found
      cases body with
      | native native => exact .inl ⟨native, rfl⟩
      | closure _ _ _ _ => cases noNaming
    · cases missing.symm.trans found

theorem core?_newFunction_self (store : Store) (name : Option String) (body : Body) :
    (store.newFunction name body).1.core? (store.newFunction name body).2 =
      some (name, body) := by
  rw [core?, function?, newFunction, Array.getElem?_push_size]
  rfl

/-- A new function is none of those that there are. -/
theorem core?_newFunction (store : Store) (name : Option String) (body : Body) :
    store.core? (store.newFunction name body).2 = none := by
  rw [core?, function?, newFunction, Array.getElem?_eq_none (Nat.le_refl _)]
  rfl

theorem core?_nameFunction_self {store : Store} {function : FunctionId} {body : Body}
    (found : store.core? function = some (none, body)) (name : String) :
    (store.nameFunction function name).core? function = some (some name, body) := by
  obtain ⟨⟨_, attributes, known⟩, present, ⟨⟩⟩ := Option.map_eq_some_iff.mp found
  have unnamed : store.functions[function.index]? = some ⟨none, attributes, known⟩ := present
  rw [core?, function?, nameFunction, Array.getElem?_modify, if_pos rfl, unnamed]
  rfl

theorem core?_nameFunction_of_ne (store : Store) {function other : FunctionId}
    (apart : other ≠ function) (name : String) :
    (store.nameFunction function name).core? other = store.core? other := by
  have elsewhere : function.index ≠ other.index := fun same =>
    apart (congrArg FunctionId.mk same.symm)
  rw [core?, core?, function?, function?, nameFunction, Array.getElem?_modify, if_neg elsewhere]

end Store

/-! ## Actions -/

namespace World

theorem MayName.refl (world : World) : world.MayName world :=
  Store.NamesBy.refl world.store

/-- Whatever has been named meanwhile, the names have been written once. -/
theorem MayName.of_namesBy {before after : World} {names : FunctionId → Naming → Prop}
    (named : before.store.NamesBy names after.store) : before.MayName after :=
  Store.NamesBy.mono named fun _ _ _ => trivial

variable (options : Options)

/-- Edits leave the names of functions alone. -/
theorem editRelation_keepsNames (before : World) :
    EditRelation options options fun world other =>
      world = other ∧ before.store.KeepsNames world.store where
  store related := congrArg World.store related.1
  change := by
    rintro world _ change keeps ⟨rfl, kept⟩
    exact ⟨rfl, kept.trans (keeps.keepsNames world.store)⟩
  log := by
    rintro world _ name scope bound value - ⟨rfl, kept⟩
    exact ⟨rfl, kept.trans (.of_eq (store_log options name scope bound value world))⟩

theorem keepsNames_edit {α : Type} {edit : Edit α} (world : World)
    (agree : Edit.Agree
      (fun reached other => reached = other ∧ world.store.KeepsNames reached.store) edit edit) :
    world.store.KeepsNames (edit.run.run world).2.store :=
  (agree world world ⟨rfl, .refl world.store⟩).2.2

/-- Only a naming changes what a function is named. -/
theorem keepsNames_perform (world : World) {action : Action}
    (noNaming : action.isNaming = false) :
    world.store.KeepsNames (world.perform options action).2.store := by
  have relation := editRelation_keepsNames options world
  cases action with
  | nameFunction function name => cases noNaming
  | readName scope name => exact keepsNames_edit world (Edit.agree_readName relation scope name)
  | define scope isMutable pattern value =>
      exact keepsNames_edit world (Edit.agree_define relation scope isMutable pattern value)
  | decorate scope target value attributes =>
      exact keepsNames_edit world (Edit.agree_decorate relation scope target value attributes)
  | read location => exact keepsNames_edit world (Edit.agree_read relation location)
  | write location value => exact keepsNames_edit world (Edit.agree_write relation location value)
  | newFunction name body => exact world.store.keepsNames_newFunction name body noNaming
  | log name scope value => exact .of_eq (store_log options name scope none value world)
  | print value =>
      apply Store.KeepsNames.of_eq
      dsimp only [perform]
      split <;> rfl
  | ask prompt => exact .of_eq (store_ask options world prompt)
  | deliver error => exact .of_eq (store_deliver options world error)
  | mention tag => exact .of_eq (store_handler world tag .nothing)
  | subscribe transition tag => exact .of_eq (store_handler world tag .nothing)
  | unsubscribe transition tag => exact .of_eq (store_handler world tag .nothing)
  | _ => exact .of_functions rfl

end World

/-! ## Commissions -/

/-- A function that is to be named, with the definition that does so and the goals that were under
way when the function was made, innermost first. -/
structure Commission where
  function : FunctionId
  naming : Naming
  goals : List Goal

namespace Commission

/-- The commission of a goal: it may be that of the literal, which is awaited by the definition, or
that of the definition, which has asked for the literal. -/
def of (awaited : Option Naming) (goals : List Goal) : InHand → List Commission
  | none => []
  | some (function, naming) =>
      match awaited with
      | some _ => [⟨function, naming, goals⟩]
      | none => [⟨function, naming, naming.goal :: goals⟩]

/-- The function has been made, and nothing has named it yet. -/
def IsOpen (commission : Commission) (store : Store) : Prop :=
  ∃ body, store.core? commission.function = some (none, body) ∧ commission.naming.Makes body

theorem IsOpen.mono {commission : Commission} {before after : Store}
    (isOpen : commission.IsOpen before) (kept : before.KeepsNames after) :
    commission.IsOpen after := by
  obtain ⟨body, found, makes⟩ := isOpen
  exact ⟨body, kept.core? found, makes⟩

/-- What the goal of a literal answers with is in hand there, and below from then on. -/
theorem sublist_of_delivers {naming : Naming} {inHand : InHand} {outcome : Outcome}
    (delivers : Turn.Delivers naming inHand (.answer outcome)) (goals : List Goal) :
    (of none goals (naming.taken outcome)).Sublist
      (of (some naming) (naming.goal :: goals) inHand) := by
  obtain ⟨_, ⟨⟩, delivers⟩ := delivers
  cases taken : naming.taken outcome with
  | none => exact List.nil_sublist _
  | some given =>
      unfold Naming.taken at taken
      split at taken
      · rename_i function
        cases taken
        rw [delivers function rfl]
        exact .refl _
      · cases taken

end Commission

/-- The commissions of a run are open, no function is commissioned twice, and none for which there
are other commissions. -/
structure Store.Owes (store : Store) (pending : List Commission) (others : Commission → Prop) :
    Prop where
  distinct : (pending.map Commission.function).Nodup
  isOpen : ∀ commission ∈ pending, commission.IsOpen store
  othersOpen : ∀ other, others other → other.IsOpen store
  apart : ∀ commission ∈ pending, ∀ other, others other → other.function ≠ commission.function

/-! ## Tasks -/

section

variable (hosted : Prop) (script : Naming → Prop)

/-- The definitions that the innermost of some goals carries out, or the script around them. -/
def Naming.Within : List Goal → Naming → Prop
  | [] => script
  | goal :: _ => goal.Names

/-- What the innermost of some goals does about names, if a definition may await its answer. -/
def Duty.of (goals : List Goal) : Option Naming → Duty
  | none => ⟨Naming.Within script goals, fun _ => False, hosted⟩
  | some naming => ⟨fun _ => False, (· = naming), hosted⟩

/-- Whether a process names a function next. -/
def Process.isNaming {α : Type} : Process α → Bool
  | .act action _ => action.isNaming
  | _ => false

/-- A process that does its duty, and delivers what is awaited. -/
def Process.Carries (goals : List Goal) (awaited : Option Naming) (inHand : InHand)
    (process : Process Turn) : Prop :=
  process.Names (.of hosted script goals awaited)
    (fun left turn => turn.EndsIn goals ∧ ∀ naming ∈ awaited, turn.Delivers naming left) inHand

/-- Frames that do their duty, one for each goal above the foot of the task, with the commissions
that they carry. -/
inductive Frame.Carry : Option Naming → List Frame → List Goal → List Commission → Prop where
  | foot : Carry none [] [] []
  | barrier : Carry none [⟨fun outcome => .done (.answer outcome), true⟩] [] []
  | push {awaited : Option Naming} {inHand : InHand} {frame : Frame} {stack : List Frame}
      {goal : Goal} {goals : List Goal} {pending : List Commission}
      (rest : ∀ outcome, (frame.resume outcome).Carries hosted script goals awaited inHand)
      (below : Carry awaited stack goals pending) :
      Carry none (frame :: stack) (goal :: goals) (Commission.of awaited goals inHand ++ pending)
  | literal {naming : Naming} {next : Outcome → Process Turn} {stack : List Frame}
      {goals : List Goal} {pending : List Commission}
      (rest : ∀ outcome, (next outcome).Carries hosted script goals none (naming.taken outcome))
      (below : Carry none stack goals pending) :
      Carry (some naming) (⟨next, false⟩ :: stack) (naming.goal :: goals) pending

/-- A task all of whose processes do their duty, with the commissions that they carry. -/
inductive Task.Carries : Task → List Goal → List Commission → Prop where
  | intro {awaited : Option Naming} {inHand : InHand} {process : Process Turn}
      {stack : List Frame} {goals : List Goal} {pending : List Commission}
      (carries : process.Carries hosted script goals awaited inHand)
      (frames : Frame.Carry hosted script awaited stack goals pending) :
      Carries ⟨process, stack⟩ goals (Commission.of awaited goals inHand ++ pending)

/-- What a step of a task does about names. -/
inductive Task.Handles (world : World) (task : Task) (goals : List Goal) :
    World → List Commission → List Commission → Prop where
  /-- No name is given, but commissions may be given up. -/
  | keeps {next : World} {pending left : List Commission}
      (fewer : left.Sublist pending)
      (kept : world.store.KeepsNames next.store)
      (noNaming : task.process.isNaming = false) :
      Handles world task goals next pending left
  /-- A function literal makes a function that is to be named. -/
  | makes {next : World} {pending left : List Commission} {naming : Naming} {body : Body}
      {rest : FunctionId → Process Turn}
      (fewer : left.Sublist pending)
      (acts : task.process = .act (.newFunction none body) rest)
      (made : naming.Makes body)
      (store : next.store = (world.store.newFunction none body).1) :
      Handles world task goals next pending
        (⟨(world.store.newFunction none body).2, naming, goals⟩ :: left)
  /-- A definition names its function. -/
  | names {next : World} {function : FunctionId} {naming : Naming} {left : List Commission}
      {rest : Unit → Process Turn}
      (acts : task.process = .act (.nameFunction function naming.name) rest)
      (within : naming.Within script goals)
      (store : next.store = world.store.nameFunction function naming.name) :
      Handles world task goals next (⟨function, naming, naming.goal :: goals⟩ :: left) left

end

variable {hosted : Prop} {script : Naming → Prop} {options : Options} {host : Host}

/-- Functions of the host take part in all goals, or in none. -/
theorem Duty.hosted_of (goals : List Goal) (awaited : Option Naming) :
    (Duty.of hosted script goals awaited).hosted = hosted := by
  cases awaited with
  | none => rfl
  | some naming => rfl

/-- Every goal that is taken up does its duty. -/
theorem Evaluation.carries_ofGoal (options : Options) (guests : hosted → host.LeavesNames)
    (goal : Goal) (goals : List Goal) :
    (ofGoal options host goal).Carries hosted script (goal :: goals) none none :=
  (names_ofGoal options guests fun _ names => names).mono fun _ _ _ => ⟨trivial, nofun⟩

/-- The goal of a function literal delivers what is awaited. -/
theorem Evaluation.carries_literal (options : Options) (host : Host) {naming : Naming}
    (written : naming.HasLiteral) (goals : List Goal) :
    (ofGoal options host naming.goal).Carries hosted script (naming.goal :: goals) (some naming)
      none := by
  refine Process.Names.mono (delivers_ofGoal options host rfl written) fun left turn delivers => ?_
  refine ⟨trivial, ?_⟩
  rintro _ ⟨⟩
  exact delivers

/-- A rule that names only what it is to name, around all goals. -/
theorem Evaluation.carries_answering {rule : Rule Value}
    (names : rule.Names ⟨script, fun _ => False, hosted⟩ (fun _ _ => True) none) :
    (process (answering rule)).Carries hosted script [] none none := by
  rw [process_answering]
  exact Process.Names.bind names fun _ _ _ => .done ⟨trivial, nofun⟩

/-- A script does its duty around all goals. -/
theorem Evaluation.carries_runScript {root : Scope} {statements : List Node} {mode : Mode}
    (within : ∀ naming : Naming, naming.IsMember mode root statements → script naming) :
    (process (answering (runScript root statements mode))).Carries hosted script [] none none :=
  carries_answering (names_runScript within)

namespace Task

variable {world next : World} {task after : Task} {goals : List Goal}
  {pending : List Commission}

/-- What is unwound to a barrier gives up the commissions above it. -/
theorem carry_of_barrier {awaited : Option Naming} {stack outer : List Frame} {frame : Frame}
    (carry : Frame.Carry hosted script awaited stack goals pending)
    (barrier : barrier? stack = some (frame, outer)) :
    ∃ awaited inHand left,
      (∀ outcome, (frame.resume outcome).Carries hosted script
        (goals.drop (stack.length - outer.length)) awaited inHand) ∧
      Frame.Carry hosted script awaited outer (goals.drop (stack.length - outer.length)) left ∧
      (Commission.of awaited (goals.drop (stack.length - outer.length)) inHand ++ left).Sublist
        pending := by
  induction carry with
  | foot => cases barrier
  | barrier =>
      cases barrier
      exact ⟨none, none, [], fun _ => .done ⟨trivial, nofun⟩, .foot, .refl _⟩
  | @push awaited inHand first stack goal goals pending rest below inductive_step =>
      rcases barrier?_cons goal goals barrier with ⟨rfl, rfl, same⟩ | ⟨deeper, same⟩
      · rw [same]
        exact ⟨awaited, inHand, pending, rest, below, .refl _⟩
      · obtain ⟨awaited, inHand, left, resumes, frames, fewer⟩ := inductive_step deeper
        rw [same]
        exact ⟨awaited, inHand, left, resumes, frames,
          fewer.trans (List.sublist_append_right _ pending)⟩
  | @literal naming next stack goals pending rest below inductive_step =>
      rcases barrier?_cons naming.goal goals barrier with ⟨rfl, rfl, -⟩ | ⟨deeper, same⟩
      · have deeper : barrier? outer = some (_, outer) := barrier
        exact (Nat.lt_irrefl _ (length_of_barrier? deeper)).elim
      · obtain ⟨awaited, inHand, left, resumes, frames, fewer⟩ := inductive_step deeper
        rw [same]
        exact ⟨awaited, inHand, left, resumes, frames, fewer⟩

/-- A task without a commission of the innermost goal. -/
theorem Carries.plain {process : Process Turn} {stack : List Frame}
    (carries : process.Carries hosted script goals none none)
    (frames : Frame.Carry hosted script none stack goals pending) :
    Carries hosted script ⟨process, stack⟩ goals pending :=
  .intro carries frames

/-- Once a script has ended, nothing is left to be named. -/
theorem carries_answer (outcome : Outcome) :
    Carries hosted script ⟨.done (.answer outcome), []⟩ [] [] :=
  .plain (.done ⟨trivial, nofun⟩) .foot

/-- A goal is taken up without commissions of its own. -/
theorem Carries.push (guests : hosted → host.LeavesNames) {goal : Goal}
    {next : Outcome → Process Turn} {stack : List Frame} {isBarrier : Bool} {inHand : InHand}
    {awaited : Option Naming}
    (rest : ∀ outcome, (next outcome).Carries hosted script goals awaited inHand)
    (frames : Frame.Carry hosted script awaited stack goals pending) :
    Carries hosted script ⟨Evaluation.ofGoal options host goal, ⟨next, isBarrier⟩ :: stack⟩
      (goal :: goals) (Commission.of awaited goals inHand ++ pending) :=
  .plain (Evaluation.carries_ofGoal options guests goal goals) (.push rest frames)

/-- A step names the function of the innermost commission, if it names any, and takes on no
commission but for a function that it makes. -/
theorem Carries.step (guests : hosted → host.LeavesNames)
    (counted : hosted ∨ world.store.Hostless) (carries : Carries hosted script task goals pending)
    (running : task.step options host world = .running next after) :
    ∃ left, Carries hosted script after (task.goalsAfter goals) left ∧
      Handles script world task goals next pending left := by
  obtain @⟨awaited, inHand, process, stack, goals, pending, carries, frames⟩ := carries
  have same : (Commission.of awaited goals inHand ++ pending).Sublist
      (Commission.of awaited goals inHand ++ pending) := .refl _
  have outer : pending.Sublist (Commission.of awaited goals inHand ++ pending) :=
    List.sublist_append_right _ pending
  cases carries with
  | @done _ turn ended =>
      cases turn with
      | answer outcome =>
          cases frames with
          | foot => cases running
          | barrier =>
              cases running
              exact ⟨[], carries_answer outcome, .keeps (List.nil_sublist _) (.refl _) rfl⟩
          | push rest below =>
              cases running
              exact ⟨_, .intro (rest outcome) below, .keeps outer (.refl _) rfl⟩
          | @literal naming next stack goals pending rest below =>
              cases running
              have fewer := Commission.sublist_of_delivers (ended.2 naming rfl) goals
              exact ⟨_, .intro (rest outcome) below,
                .keeps (fewer.append_right pending) (.refl _) rfl⟩
      | again goal =>
          cases running
          cases frames with
          | foot => exact ended.1.elim
          | barrier => exact ended.1.elim
          | push rest below =>
              exact ⟨_, Carries.push guests rest below, .keeps outer (.refl _) rfl⟩
          | @literal naming _ _ _ _ _ _ =>
              obtain ⟨_, ⟨⟩, -⟩ := ended.2 naming rfl
  | @act _ action _ noNaming rest =>
      cases running
      have answered : (Duty.of hosted script goals awaited).hosted ∨
          action.Expected (world.perform options action).1 := by
        rw [Duty.hosted_of]
        exact counted.imp_right (World.expected_perform options action)
      exact ⟨_, .intro (rest _ answered) frames,
        .keeps same (World.keepsNames_perform options world noNaming) noNaming⟩
  | @name function naming _ names rest =>
      cases running
      cases awaited with
      | some _ => exact names.elim
      | none =>
          exact ⟨pending, .plain rest frames, .names rfl names rfl⟩
  | @make _ naming body _ makes made rest =>
      cases running
      cases awaited with
      | none => exact makes.elim
      | some _ =>
          obtain rfl := makes
          exact ⟨_, .intro (rest _) frames, .makes outer rfl made rfl⟩
  | @wait _ reason _ rest =>
      cases barrier : barrier? stack with
      | none =>
          rw [step_wait barrier] at running
          cases running
      | some innermost =>
          obtain ⟨frame, below⟩ := innermost
          obtain ⟨awaited, inHand, left, resumes, frames, fewer⟩ := carry_of_barrier frames barrier
          rw [step_wait_barrier barrier] at running
          cases running
          refine ⟨_, ?_, .keeps (fewer.trans outer) (.refl _) rfl⟩
          rw [goalsAfter, barrier]
          exact .intro (resumes cannotWait) frames
  | call rest =>
      cases running
      exact ⟨_, .push guests rest frames, .keeps same (.refl _) rfl⟩
  | literal names written rest =>
      cases running
      cases awaited with
      | some _ => exact names.elim
      | none =>
          exact ⟨pending, @Carries.intro hosted script _ none _ _ _ _
            (Evaluation.carries_literal options host written goals) (.literal rest frames),
            .keeps outer (.refl _) rfl⟩
  | drive rest =>
      cases running
      exact ⟨_, .push guests rest frames, .keeps same (.refl _) rfl⟩

/-- A task that waits keeps its commissions. -/
theorem Carries.wait {between : World} {reason : Wait}
    (carries : Carries hosted script task goals pending)
    (waiting : task.step options host world = .waiting between reason after) :
    Carries hosted script after goals pending := by
  obtain ⟨-, rest, stack, rfl, rfl⟩ := eq_of_waiting waiting
  obtain @⟨awaited, inHand, process, stack, goals, pending, carries, frames⟩ := carries
  cases carries with
  | wait rest => exact .intro rest frames

end Task

/-! ## Stores -/

namespace Store.Owes

variable {store : Store} {pending left : List Commission} {others : Commission → Prop}

theorem sublist (owes : store.Owes pending others) (fewer : left.Sublist pending) :
    store.Owes left others where
  distinct := owes.distinct.sublist (fewer.map Commission.function)
  isOpen commission mem := owes.isOpen commission (fewer.subset mem)
  othersOpen := owes.othersOpen
  apart commission mem := owes.apart commission (fewer.subset mem)

theorem later {after : Store} (owes : store.Owes pending others) (kept : store.KeepsNames after) :
    after.Owes pending others where
  distinct := owes.distinct
  isOpen commission mem := (owes.isOpen commission mem).mono kept
  othersOpen other mem := (owes.othersOpen other mem).mono kept
  apart := owes.apart

/-- A new function is commissioned nowhere else. -/
theorem newFunction (owes : store.Owes pending others) {naming : Naming} {body : Body}
    (made : naming.Makes body) (goals : List Goal) :
    (store.newFunction none body).1.Owes
      (⟨(store.newFunction none body).2, naming, goals⟩ :: pending) others := by
  have kept := owes.later (store.keepsNames_newFunction none body rfl)
  have isNew {commission : Commission} (isOpen : commission.IsOpen store) :
      commission.function ≠ (store.newFunction none body).2 := by
    obtain ⟨_, found, -⟩ := isOpen
    intro same
    rw [same, core?_newFunction] at found
    cases found
  refine ⟨List.nodup_cons.mpr ⟨?_, owes.distinct⟩, ?_, kept.othersOpen, ?_⟩
  · intro mem
    obtain ⟨commission, among, same⟩ := List.mem_map.mp mem
    exact isNew (owes.isOpen commission among) same
  · refine List.forall_mem_cons.mpr ⟨⟨body, ?_, made⟩, kept.isOpen⟩
    exact store.core?_newFunction_self none body
  · exact List.forall_mem_cons.mpr
      ⟨fun other mem => isNew (owes.othersOpen other mem), owes.apart⟩

/-- To name the function of a commission leaves all other commissions open. -/
theorem nameFunction {commission : Commission} (owes : store.Owes (commission :: left) others)
    (name : String) :
    (store.nameFunction commission.function name).Owes left others := by
  have isOpen {other : Commission} (isOpen : other.IsOpen store)
      (apart : other.function ≠ commission.function) :
      other.IsOpen (store.nameFunction commission.function name) := by
    obtain ⟨body, found, makes⟩ := isOpen
    exact ⟨body, (store.core?_nameFunction_of_ne apart name).trans found, makes⟩
  obtain ⟨first, distinct⟩ := List.nodup_cons.mp owes.distinct
  refine ⟨distinct, fun other mem => ?_, fun other mem => ?_, fun other mem => ?_⟩
  · refine isOpen (owes.isOpen other (List.mem_cons_of_mem commission mem)) fun same => first ?_
    exact List.mem_map.mpr ⟨other, mem, same⟩
  · exact isOpen (owes.othersOpen other mem)
      (owes.apart commission List.mem_cons_self other mem)
  · exact owes.apart other (List.mem_cons_of_mem commission mem)

end Store.Owes

variable {world next : World} {task : Task} {goals : List Goal} {pending left : List Commission}
  {others : Commission → Prop}

/-- What a step does about names leaves no commission of another run undone. -/
theorem Task.Handles.owes (handles : task.Handles script world goals next pending left)
    (owes : world.store.Owes pending others) : next.store.Owes left others := by
  cases handles with
  | keeps fewer kept _ => exact (owes.sublist fewer).later kept
  | makes fewer _ made store => exact store ▸ (owes.sublist fewer).newFunction made goals
  | names _ _ store => exact store ▸ owes.nameFunction _

/-- What a task is about to name is the function of a commission. -/
theorem Task.Handles.mem_of_acts (handles : task.Handles script world goals next pending left)
    {function : FunctionId} {name : String} {rest : Unit → Process Turn}
    (acts : task.process = .act (.nameFunction function name) rest) :
    ∃ naming : Naming, name = naming.name ∧ naming.Within script goals ∧
      ⟨function, naming, naming.goal :: goals⟩ ∈ pending := by
  cases handles with
  | keeps _ _ noNaming =>
      rw [acts] at noNaming
      cases noNaming
  | makes _ makes _ _ => cases acts.symm.trans makes
  | @names _ naming _ _ names within _ =>
      cases acts.symm.trans names
      exact ⟨naming, rfl, within, List.mem_cons_self⟩

/-- What a step names is the function of a commission, and has no name yet. -/
theorem Task.Handles.namesBy (handles : task.Handles script world goals next pending left)
    (owes : world.store.Owes pending others) :
    world.store.NamesBy (fun function naming =>
      (∃ rest, task.process = .act (.nameFunction function naming.name) rest) ∧
        naming.Within script goals ∧ ⟨function, naming, naming.goal :: goals⟩ ∈ pending)
      next.store := by
  cases handles with
  | keeps _ kept _ => exact .of_keepsNames kept
  | makes _ _ _ store =>
      exact .of_keepsNames (store ▸ world.store.keepsNames_newFunction none _ rfl)
  | names acts within store =>
      rename_i named naming rest
      obtain ⟨made, unnamed, makes⟩ := owes.isOpen _ List.mem_cons_self
      have named_self := Store.core?_nameFunction_self unnamed naming.name
      have others (function : FunctionId) (apart : function ≠ named) :=
        world.store.core?_nameFunction_of_ne apart naming.name
      rw [store]
      refine ⟨fun function name body found => ?_, fun function name body missing found => ?_⟩
      · by_cases same : function = named
        · subst same
          cases found.symm.trans unnamed
          exact .inr ⟨rfl, naming, ⟨⟨rest, acts⟩, within, List.mem_cons_self⟩, makes, named_self⟩
        · exact .inl ((others function same).trans found)
      · by_cases same : function = named
        · subst same
          cases missing.symm.trans unnamed
        · cases missing.symm.trans ((others function same).symm.trans found)

/-! ## Worlds of one task -/

/-- A task of a world without functions of the host, in which nothing but its own commissions is
to be named. -/
structure Task.NamesAlone (world : World) (task : Task) : Prop where
  hostless : world.store.Hostless
  carries : ∃ script goals pending, task.Carries False script goals pending ∧
    world.store.Owes pending (fun _ => False)

namespace Task.NamesAlone

variable {after : Task}

/-- A task that starts without commissions. -/
theorem start (hostless : world.store.Hostless) (carries : task.Carries False script goals []) :
    task.NamesAlone world :=
  ⟨hostless, script, goals, [], carries, List.nodup_nil, nofun, nofun, nofun⟩

/-- Only the store counts. -/
theorem of_store (alone : task.NamesAlone world) (same : next.store = world.store) :
    task.NamesAlone next := by
  obtain ⟨hostless, carries⟩ := alone
  rw [← same] at hostless carries
  exact ⟨hostless, carries⟩

theorem step (alone : task.NamesAlone world)
    (running : task.step options host world = .running next after)
    (hostless : next.store.Hostless) :
    after.NamesAlone next := by
  obtain ⟨stillHostless, script, goals, pending, carries, owes⟩ := alone
  obtain ⟨left, carries, handles⟩ := carries.step False.elim (.inr stillHostless) running
  exact ⟨hostless, script, _, left, carries, handles.owes owes⟩

/-- What the task is about to name has no name yet. -/
theorem unnamed (alone : task.NamesAlone world) {function : FunctionId} {name : String}
    {rest : Unit → Process Turn}
    (acts : task.process = .act (.nameFunction function name) rest) :
    ∀ cell ∈ world.store.function? function, cell.name = none := by
  obtain ⟨hostless, script, goals, pending, carries, owes⟩ := alone
  have running : task.step (.silent 0 0) Host.none world =
      .running (world.perform (.silent 0 0) (.nameFunction function name)).2
        ⟨rest (), task.stack⟩ := by
    rw [Task.step, acts]
  obtain ⟨left, -, handles⟩ := carries.step False.elim (.inr hostless) running
  obtain ⟨naming, -, -, mem⟩ := handles.mem_of_acts acts
  obtain ⟨body, found, -⟩ := owes.isOpen _ mem
  intro cell present
  rw [Store.core?, Option.mem_def.mp present] at found
  exact congrArg Prod.fst (Option.some.inj found)

end Task.NamesAlone

end TreeScript
