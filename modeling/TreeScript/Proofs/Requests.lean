import TreeScript.Interpreter.Session

/-!
# What requests come to

A request makes a session do one of a few things: look after the values and the
handlers of the host, remember or forget a run, run something to its end, or
poll a run that it remembers.  `Session.course_of_answer` says which, so that a
property of sessions need not be followed through every request.
-/

namespace TreeScript

namespace Interpreter

/-- The runs of scripts and of functions that an interpreter can start. -/
inductive Starts (interpreter : Interpreter) : Run → Prop where
  | script (script : List Node) : Starts interpreter (interpreter.start script)
  | scriptAtOnce (script : List Node) : Starts interpreter (interpreter.startAtOnce script)
  | call (callee : Value) (arguments : List Value) (style : CallStyle) :
      Starts interpreter (startCall callee arguments style)

/-- The runs that a session remembers when they are started. -/
inductive Launches (interpreter : Interpreter) : Run → Prop where
  | script (script : List Node) : Launches interpreter (interpreter.start script)
  | call (callee : Value) (arguments : List Value) :
      Launches interpreter (startCall callee arguments .asynchronous)

theorem Launches.starts {interpreter : Interpreter} {run : Run}
    (launches : interpreter.Launches run) : interpreter.Starts run := by
  cases launches with
  | script script => exact .script script
  | call callee arguments => exact .call callee arguments .asynchronous

end Interpreter

/-- The run that a request polls. -/
def Request.polled : Request → Option String
  | .poll id _ => some id
  | _ => none

/-- A relation of worlds that is kept while a host looks after a session. -/
structure World.Upkeep (kept : World → World → Prop) : Prop where
  refl : ∀ world, kept world world
  trans : ∀ {before between after}, kept before between → kept between after → kept before after
  readName : ∀ options scope name world,
    kept world ((Edit.readName options scope name).run.run world).2
  assign : ∀ options scope name value world,
    kept world ((Edit.assign options scope name value).run.run world).2
  declare : ∀ options scope name bound world,
    kept world ((Edit.declare options scope name bound).run.run world).2
  build : ∀ (world : World) (datum : Datum Value),
    kept world { world with store := (world.store.build datum).2 }
  transition : ∀ (world : World) transition, kept world (world.transition transition)
  subscribe : ∀ (world : World) transition tag response,
    kept world (world.subscribe transition tag response)
  unsubscribe : ∀ (world : World) transition tag response,
    kept world (world.unsubscribe transition tag response)

/-! ## Values from the host -/

namespace Datum

variable {α β ρ : Type} {kept : World → World → Prop}

/-- A computation that keeps a relation of worlds. -/
def Keeps (kept : World → World → Prop) (look : OptionT (StateM World) α) : Prop :=
  ∀ world : World, kept world (look.run.run world).2

theorem keeps_pure (upkeep : World.Upkeep kept) (result : α) : Keeps kept (pure result) :=
  fun world => upkeep.refl world

theorem Keeps.bind (upkeep : World.Upkeep kept) {look : OptionT (StateM World) α}
    (keeps : Keeps kept look)
    {continuation : α → OptionT (StateM World) β}
    (goesOn : ∀ result, Keeps kept (continuation result)) :
    Keeps kept (look >>= continuation) := by
  intro world
  have first := keeps world
  have ran : (look >>= continuation).run.run world =
      match look.run.run world with
      | (some result, reached) => (continuation result).run.run reached
      | (none, reached) => (none, reached) := by
    rw [OptionT.run_bind, Option.elimM, StateT.run_bind]
    rcases look.run.run world with ⟨_ | result, reached⟩ <;> rfl
  rw [ran]
  generalize look.run.run world = ran at first ⊢
  rcases ran with ⟨_ | result, reached⟩
  · exact first
  · exact upkeep.trans first (goesOn result reached)

section Resolution

variable {find : ρ → OptionT (StateM World) Value}

mutual

/-- Resolving references keeps what looking one up keeps. -/
theorem keeps_resolve (upkeep : World.Upkeep kept) (keeps : ∀ source, Keeps kept (find source)) :
    ∀ datum : Datum ρ, Keeps kept (resolve find datum)
  | .null => keeps_pure upkeep _
  | .bool _ => keeps_pure upkeep _
  | .num _ => keeps_pure upkeep _
  | .str _ => keeps_pure upkeep _
  | .arr items => (keeps_resolveItems upkeep keeps items).bind upkeep fun _ => keeps_pure upkeep _
  | .obj entries =>
      (keeps_resolveEntries upkeep keeps entries).bind upkeep fun _ => keeps_pure upkeep _
  | .error _ => keeps_pure upkeep _
  | .errorWith _ information =>
      (keeps_resolve upkeep keeps information).bind upkeep fun _ => keeps_pure upkeep _
  | .reference source => (keeps source).bind upkeep fun _ => keeps_pure upkeep _

theorem keeps_resolveItems (upkeep : World.Upkeep kept)
    (keeps : ∀ source, Keeps kept (find source)) :
    ∀ items : List (Datum ρ), Keeps kept (resolveItems find items)
  | [] => keeps_pure upkeep _
  | first :: rest =>
      (keeps_resolve upkeep keeps first).bind upkeep fun _ =>
        (keeps_resolveItems upkeep keeps rest).bind upkeep fun _ => keeps_pure upkeep _

theorem keeps_resolveEntries (upkeep : World.Upkeep kept)
    (keeps : ∀ source, Keeps kept (find source)) :
    ∀ entries : List (String × Datum ρ), Keeps kept (resolveEntries find entries)
  | [] => keeps_pure upkeep _
  | (_, first) :: rest =>
      (keeps_resolve upkeep keeps first).bind upkeep fun _ =>
        (keeps_resolveEntries upkeep keeps rest).bind upkeep fun _ => keeps_pure upkeep _

end

end Resolution

end Datum

namespace Session

variable {kept : World → World → Prop}

/-- Looking a reference up reads a name at most. -/
theorem keeps_find (upkeep : World.Upkeep kept) (options : Options) (root : Scope)
    (saved : List (String × Value)) (source : SessionReference) :
    Datum.Keeps kept (find options root saved source) := by
  intro world
  cases source with
  | bound name =>
      have read : kept world ((Edit.readName options root name).run.run world).2 :=
        upkeep.readName options root name world
      change kept world
        (((Edit.readName options root name).run >>= _ : StateM World (Option Value)).run world).2
      rw [StateT.run_bind]
      generalize (Edit.readName options root name).run.run world = ran at read ⊢
      rcases ran with ⟨error | value, reached⟩
      · exact read
      · exact read
  | saved name => exact upkeep.refl world
  | unreadable => exact upkeep.refl world

/-- A session after its host has looked after it. -/
structure Tended (kept : World → World → Prop) (session after : Session) : Prop where
  world : kept session.world after.world
  runs : after.runs = session.runs
  interpreter : after.interpreter = { session.interpreter with world := after.world }

/-- Only the world of a session changes. -/
theorem tended_withWorld {session : Session} {world : World} (keeps : kept session.world world) :
    Tended kept session (session.withWorld world) :=
  ⟨keeps, rfl, rfl⟩

theorem Tended.trans {session between after : Session} (upkeep : World.Upkeep kept)
    (first : Tended kept session between)
    (second : Tended kept between after) :
    Tended kept session after where
  world := upkeep.trans first.world second.world
  runs := second.runs.trans first.runs
  interpreter := by rw [second.interpreter, first.interpreter]

theorem tended_buildOne (upkeep : World.Upkeep kept) (session : Session) (datum : SessionDatum) :
    Tended kept session (session.buildOne datum).2 := by
  have looked := Datum.keeps_resolve upkeep
    (keeps_find upkeep session.interpreter.options session.interpreter.root session.saved) datum
    session.world
  unfold buildOne
  dsimp only
  split
  · rename_i resolved
    rw [world] at looked
    rw [resolved] at looked
    exact tended_withWorld (upkeep.trans looked (upkeep.build _ _))
  · rename_i resolved
    rw [world] at looked
    rw [resolved] at looked
    exact tended_withWorld looked

theorem tended_buildAll (upkeep : World.Upkeep kept) (session : Session)
    (data : List SessionDatum) :
    Tended kept session (session.buildAll data).2 := by
  induction data generalizing session with
  | nil => exact tended_withWorld (upkeep.refl _)
  | cons datum rest inductive_step =>
      have first := tended_buildOne upkeep session datum
      rw [buildAll]
      split
      · rename_i value between built
        rw [built] at first
        have both := first.trans upkeep (inductive_step between)
        split
        · rename_i values after builtAll
          rw [builtAll] at both
          exact both
        · rename_i after builtAll
          rw [builtAll] at both
          exact both
      · rename_i built
        rw [built] at first
        exact first

/-- Answering with a verdict keeps a value at most. -/
theorem answerVerdict_eq (session : Session) (save : Option String) (verdict : Verdict) :
    ∃ saved, (session.answerVerdict save verdict).2 = { session with saved := saved } := by
  unfold answerVerdict
  split
  · exact ⟨_, rfl⟩
  · exact ⟨_, rfl⟩
  · split <;> exact ⟨_, rfl⟩

/-! ## Requests -/

/-- The runs that a session begins to answer a request, after values have been built for it. -/
inductive Begins (session : Session) : Request → Session → Run → Prop where
  | script {script : List Node} {save : Option String} :
      Begins session (.execute .asynchronous (some script) save) session
        (session.interpreter.start script)
  | scriptAtOnce {script : List Node} {save : Option String} :
      Begins session (.execute .synchronous (some script) save) session
        (session.interpreter.startAtOnce script)
  | call {style : CallStyle} {callee : SessionDatum} {arguments : List SessionDatum}
      {save : Option String} {function : Value} {values : List Value} {between : Session}
      (built : session.buildAll (callee :: arguments) = (some (function :: values), between)) :
      Begins session (.call style callee arguments save) between
        (Interpreter.startCall function values style)

namespace Begins

variable {session between : Session} {request : Request} {run : Run}

theorem noPoll (begins : session.Begins request between run) : request.polled = none := by
  cases begins <;> rfl

theorem starts (begins : session.Begins request between run) :
    between.interpreter.Starts run := by
  cases begins with
  | script => exact .script _
  | scriptAtOnce => exact .scriptAtOnce _
  | call _ => exact .call _ _ _

theorem tended (begins : session.Begins request between run) (upkeep : World.Upkeep kept) :
    Tended kept session between := by
  cases begins with
  | script | scriptAtOnce => exact tended_withWorld (upkeep.refl _)
  | @call _ callee arguments _ _ _ _ built =>
      have tended := tended_buildAll upkeep session (callee :: arguments)
      rwa [built] at tended

end Begins

/-- What a request comes to, apart from its answer and the values that are kept. -/
inductive Course (kept : World → World → Prop) (fuel : Nat) (session : Session) :
    Request → Session → Prop where
  | tended {request : Request} {after : Session}
      (noPoll : request.polled = none)
      (tended : Tended kept session after) :
      Course kept fuel session request after
  | launched {request : Request} {after between : Session} {id : String} {run : Run}
      (noPoll : request.polled = none)
      (tended : Tended kept session between)
      (launches : between.interpreter.Launches run)
      (remembered : after = between.remember id run) :
      Course kept fuel session request after
  | dropped {id : String} :
      Course kept fuel session (.drop id) (session.forget id)
  | completed {request : Request} {after between : Session} {run : Run} {verdict : Verdict}
      {interpreter : Interpreter}
      (noPoll : request.polled = none)
      (tended : Tended kept session between)
      (begins : session.Begins request between run)
      (completed : between.interpreter.complete fuel fuel run = some (verdict, interpreter))
      (world : after.world = interpreter.world)
      (runs : after.runs = between.runs) :
      Course kept fuel session request after
  | unknown {id : String} {save : Option String}
      (missing : session.runs.lookup id = none) :
      Course kept fuel session (.poll id save) session
  | suspended {id : String} {save : Option String} {run rest : Run} {interpreter : Interpreter}
      (found : session.runs.lookup id = some run)
      (polled : session.interpreter.poll fuel run = some (.pending rest, interpreter)) :
      Course kept fuel session (.poll id save)
        ({ session with interpreter := interpreter }.remember id rest)
  | ended {id : String} {save : Option String} {run : Run} {verdict : Verdict}
      {interpreter : Interpreter} {after : Session}
      (found : session.runs.lookup id = some run)
      (polled : session.interpreter.poll fuel run = some (.ended verdict, interpreter))
      (world : after.world = interpreter.world)
      (runs : after.runs = (session.forget id).runs) :
      Course kept fuel session (.poll id save) after

variable {session after : Session} {fuel : Nat} {request : Request} {answer : Answer}

theorem Course.of_complete {between : Session} {save : Option String} {run : Run}
    (upkeep : World.Upkeep kept)
    (begins : session.Begins request between run)
    (answered : between.complete fuel save run = some (answer, after)) :
    Course kept fuel session request after := by
  unfold complete at answered
  split at answered
  · rename_i verdict interpreter completed
    obtain ⟨saved, same⟩ :=
      answerVerdict_eq { between with interpreter := interpreter } save verdict
    obtain rfl := (congrArg Prod.snd (Option.some.inj answered)).symm.trans same
    exact .completed begins.noPoll (begins.tended upkeep) begins completed rfl rfl
  · cases answered

/-- An edit that the host makes, and the answer with how it ends. -/
theorem Course.of_edit {α : Type} {between : Session} {edit : Edit α} {save : Option String}
    (upkeep : World.Upkeep kept)
    (noPoll : request.polled = none)
    (tended : Tended kept session between)
    (keeps : kept between.world (edit.run.run between.world).2)
    (verdict : Except Error α → Verdict)
    (answered : some ((between.edit edit).2.answerVerdict save (verdict (between.edit edit).1)) =
      some (answer, after)) :
    Course kept fuel session request after := by
  obtain ⟨saved, same⟩ :=
    answerVerdict_eq (between.edit edit).2 save (verdict (between.edit edit).1)
  obtain rfl := (congrArg Prod.snd (Option.some.inj answered)).symm.trans same
  exact .tended noPoll (tended.trans upkeep ⟨keeps, rfl, rfl⟩)

/-- A request of the host to give a name a value that is built for it. -/
theorem Course.of_set {value : SessionDatum}
    (upkeep : World.Upkeep kept)
    (noPoll : request.polled = none)
    (set : Interpreter → Value → Edit Unit)
    (keeps : ∀ interpreter value world, kept world ((set interpreter value).run.run world).2)
    (answered :
      (match session.buildOne value with
      | (some value, session) =>
          let (result, session) := session.edit (set session.interpreter value)
          some (session.answerVerdict none (silentVerdict result))
      | (none, session) => some (.refused .unreadableInput, session)) = some (answer, after)) :
    Course kept fuel session request after := by
  have built := tended_buildOne upkeep session value
  split at answered
  · rename_i given
    rw [given] at built
    exact .of_edit upkeep noPoll built (keeps _ _ _) silentVerdict answered
  · rename_i refused
    rw [refused] at built
    cases answered
    exact .tended noPoll built

/-- What answering a request comes to. -/
theorem course_of_answer (upkeep : World.Upkeep kept)
    (answered : session.answer fuel request = some (answer, after)) :
    Course kept fuel session request after := by
  have untouched : Tended kept session session := tended_withWorld (upkeep.refl _)
  cases request with
  | execute mode script save =>
      cases script with
      | none => cases mode <;> cases answered <;> exact .tended rfl untouched
      | some script =>
          cases mode with
          | asynchronous => exact .of_complete upkeep .script answered
          | synchronous => exact .of_complete upkeep .scriptAtOnce answered
  | call style callee arguments save =>
      have built := tended_buildAll upkeep session (callee :: arguments)
      unfold Session.answer at answered
      dsimp only at answered
      split at answered
      · rename_i given
        exact .of_complete upkeep (.call given) answered
      · rename_i refused
        rw [refused] at built
        cases answered
        exact .tended rfl built
  | start id script =>
      cases script with
      | none =>
          cases answered
          exact .tended rfl untouched
      | some script =>
          cases answered
          exact .launched rfl untouched (.script script) rfl
  | startCall id callee arguments =>
      have built := tended_buildAll upkeep session (callee :: arguments)
      unfold Session.answer at answered
      dsimp only at answered
      split at answered
      · rename_i given
        rw [given] at built
        cases answered
        exact .launched rfl built (.call _ _) rfl
      · rename_i refused
        rw [refused] at built
        cases answered
        exact .tended rfl built
  | poll id save =>
      unfold Session.answer at answered
      dsimp only at answered
      split at answered
      · rename_i missing
        cases answered
        exact .unknown missing
      · rename_i run found
        split at answered
        · rename_i polled
          cases answered
          exact .suspended found polled
        · rename_i verdict interpreter polled
          obtain ⟨saved, same⟩ := answerVerdict_eq
            ({ session with interpreter := interpreter }.forget id) save verdict
          obtain rfl := (congrArg Prod.snd (Option.some.inj answered)).symm.trans same
          exact .ended found polled rfl rfl
        · cases answered
  | drop id =>
      cases answered
      exact .dropped
  | transition transition =>
      cases answered
      exact .tended rfl (tended_withWorld (upkeep.transition _ _))
  | subscribe transition tag response =>
      cases answered
      exact .tended rfl (tended_withWorld (upkeep.subscribe _ _ _ _))
  | unsubscribe transition tag response =>
      cases answered
      exact .tended rfl (tended_withWorld (upkeep.unsubscribe _ _ _ _))
  | get name save =>
      exact .of_edit upkeep rfl untouched (upkeep.readName _ _ name _) (Except.map some) answered
  | assign name value =>
      exact .of_set upkeep rfl
        (fun interpreter => Edit.assign interpreter.options interpreter.root name)
        (fun interpreter => upkeep.assign interpreter.options interpreter.root name) answered
  | add name value isMutable =>
      exact .of_set upkeep rfl
        (fun interpreter value =>
          Edit.declare interpreter.options interpreter.root name (.plain isMutable value))
        (fun interpreter value => upkeep.declare interpreter.options interpreter.root name _)
        answered
  | state | existence | attributes | bindings =>
      cases answered
      exact .tended rfl untouched

/--
The sessions that are reached by requests, one after the other.  What was
recorded may be taken in between.
-/
inductive Reaches (session : Session) : Session → Prop where
  | start : Reaches session session
  | answer {between after : Session} {fuel : Nat} {request : Request} {answer : Answer}
      (reached : Reaches session between)
      (answered : between.answer fuel request = some (answer, after)) :
      Reaches session after
  | takeEvents {between : Session}
      (reached : Reaches session between) :
      Reaches session between.takeEvents.2

end Session

end TreeScript
