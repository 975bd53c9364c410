import TreeScript.Proofs.Parity
import TreeScript.Proofs.PastEvents
import TreeScript.Proofs.RuleEndings

/-!
# Scripts in pieces

The statements of a script can be given to an interpreter in pieces: some of them as
one script, and then the rest, which must not declare namespaces, as another.  By
`Evaluation.runScript_append` both ways begin alike, and what is left to do after
the first piece is the same as well.  Between the pieces the host is told that a
script is left and at its end, and that another one is entered, which makes no
difference to what follows.

`Interpreter.completesAtOnce_append` says this of scripts that must not wait.
-/

namespace TreeScript

open Rule

variable {options : Options} {host : Host} {free : Bool} {world between reached : World}

/-! ## The pieces of a script -/

namespace Evaluation

variable {root scope : Scope} {context : Context} {mode : Mode} {first second : List Node}

/-- Run statements to the value of the last one, without telling the host that they are left. -/
def runThrough (scope : Scope) (context : Context) (last : Value) : List Node → Rule Value
  | [] => return last
  | statement :: rest => do
      match ← (evaluate statement scope context).outcome with
      | .ok value => runThrough scope context value rest
      | .error (.signal signal) =>
          logBlock signal.name scope signal.carried
          throw (.signal signal)
      | .error interrupt => throw interrupt

/-- Run the first statements of a script, after collecting their namespaces. -/
def beginScript (root : Scope) (statements : List Node) (mode : Mode) : Rule Value := do
  collect mode root statements
  logBlock "enter" root none
  expectingValue (runThrough root (.top mode) .null statements)

/-- Run the last statements of a script, after one with a given value. -/
def finishScript (root : Scope) (last : Value) (statements : List Node) (mode : Mode) :
    Rule Value := do
  let value ← expectingValue (runFrom root (.top mode) last statements)
  Rule.perform (.log "end" none (some value))
  return value

theorem runFrom_append (last : Value) :
    runFrom scope context last (first ++ second) = (do
      let value ← runThrough scope context last first
      runFrom scope context value second) := by
  induction first generalizing last with
  | nil => rfl
  | cons statement rest inductive_step =>
      refine congrArg (Process.call (.evaluate statement scope context)) (funext fun outcome => ?_)
      rcases outcome with (signal | error) | value
      · rfl
      · rfl
      · exact inductive_step value

theorem expectingValue_bind (rule : Rule Value) (continuation : Value → Rule Value) :
    expectingValue (rule >>= continuation) = (do
      let value ← expectingValue rule
      expectingValue (continuation value)) := by
  have expecting (rule : Rule Value) : (expectingValue rule).run =
      rule.run.bind fun outcome => (ofExcept (Outcome.expectValue outcome)).run :=
    run_outcome_bind rule _
  have binding (rule : Rule Value) (continuation : Value → Rule Value) :
      (rule >>= continuation).run = rule.run.bind (ExceptT.bindCont continuation) := rfl
  refine ExceptT.ext ?_
  rw [expecting, binding, binding, expecting, Process.bind_assoc, Process.bind_assoc]
  refine congrArg rule.run.bind (funext fun outcome => ?_)
  rcases outcome with (signal | error) | value
  · rfl
  · rfl
  · exact (expecting (continuation value)).symm

/-- A script runs its first statements and then its last ones. -/
theorem runScript_append (plain : ∀ node ∈ second, node.kind ≠ .namespaceBlock) :
    runScript root (first ++ second) mode =
      beginScript root first mode >>= fun value => finishScript root value second mode := by
  have entering : expectingValue (runAll root (.top mode) (first ++ second)) = (do
      logBlock "enter" root none
      expectingValue (runFrom root (.top mode) .null (first ++ second))) := rfl
  simp only [runScript, beginScript, finishScript, entering, collect_append,
    collect_eq_pure plain, runFrom_append, expectingValue_bind, bind_assoc, bind_pure_unit]

/-- A script is left after its first statements, if there are no others. -/
theorem runScript_eq :
    runScript root first mode =
      beginScript root first mode >>= fun value => finishScript root value [] mode := by
  rw [← runScript_append (List.forall_mem_nil _), List.append_nil]

/-- A script without namespaces begins with its statements. -/
theorem runScript_plain (plain : ∀ node ∈ second, node.kind ≠ .namespaceBlock) :
    runScript root second mode =
      logBlock "enter" root none >>= fun _ => finishScript root .null second mode := by
  have begins : runScript root ([] ++ second) mode = _ := runScript_append plain
  exact begins

/-- What was there before a statement does not matter after it. -/
theorem finishScript_cons (last other : Value) (statement : Node) (rest : List Node) :
    finishScript root last (statement :: rest) mode =
      finishScript root other (statement :: rest) mode := rfl

/-- A script that has no statements left is at its end. -/
theorem ends_finishScript_nil_iff {value : Value} {result : Option Outcome} :
    (finishScript root value [] mode).run.Ends options host free world reached result ↔
      reached = (world.log options "block:leave" (some root.name) none (some value)).log options
          "end" none none (some value) ∧
        result = some (.ok value) :=
  Process.ends_act_iff.trans (Process.ends_act_iff.trans Process.ends_done_iff)

end Evaluation

/-! ## What is told between two scripts -/

/-- Whether an event tells of output or of a variable. -/
def Event.isAccount {α : Type} : Event α → Bool
  | .print _ => true
  | .log name _ _ _ => decide (name ∈ variableEvents)
  | _ => false

/-- What the host was told of output and variables. -/
def World.accounts (world : World) : List (Event Snapshot) :=
  world.events.toList.filter Event.isAccount

namespace Interpreter

/--
An interpreter that is the same as another one, but its host was told some more at one time.
What it was told then does not tell of output or of variables.
-/
structure SameBut (seam : List (Event Snapshot)) (interpreter other : Interpreter) : Prop where
  rest : other =
    { interpreter with world := { interpreter.world with events := other.world.events } }
  events : ∃ past told, interpreter.world.events.toList = past ++ seam ++ told ∧
    other.world.events.toList = past ++ told
  accounts : interpreter.world.accounts = other.world.accounts

theorem sameBut_preceded {seam : List (Event Snapshot)}
    (silent : ∀ event ∈ seam, ¬ event.isAccount) (interpreter : Interpreter) (world : World)
    (past : Array (Event Snapshot)) :
    SameBut seam { interpreter with world := world.preceded (past ++ seam.toArray) }
      { interpreter with world := world.preceded past } where
  rest := rfl
  events := ⟨past.toList, world.events.toList, by simp [World.preceded], by simp [World.preceded]⟩
  accounts := by simp [World.accounts, World.preceded, List.filter_eq_nil_iff.mpr silent]

/--
What the host is told between two scripts, if it wants to be: the first one is left and at
its end, and the second one is entered.
-/
def seam (interpreter : Interpreter) (value : Value) : List (Event Snapshot) :=
  if interpreter.options.reportsLog then
    let shown := interpreter.world.store.snapshot interpreter.options.detail value
    [.log "block:leave" (some interpreter.root.name) none (some shown),
      .log "end" none none (some shown),
      .log "block:enter" (some interpreter.root.name) none none]
  else []

theorem not_isAccount_of_mem_seam (interpreter : Interpreter) (value : Value) :
    ∀ event ∈ interpreter.seam value, ¬ event.isAccount := by
  unfold seam
  split
  · simp [Event.isAccount, variableEvents]
  · exact List.forall_mem_nil _

/-- An interpreter in a world where a script has been left with a value and is at its end. -/
def finished (interpreter : Interpreter) (value : Value) (world : World) : Interpreter :=
  { interpreter with
    world := (world.log interpreter.options "block:leave" (some interpreter.root.name) none
      (some value)).log interpreter.options "end" none none (some value) }

/-- To finish one script and to enter another one only adds to the record. -/
theorem log_finished (interpreter : Interpreter) (value : Value) (world : World) :
    (interpreter.finished value world).world.log interpreter.options "block:enter"
        (some interpreter.root.name) none none =
      world.unrecorded.preceded
        (world.events ++ ((interpreter.finished value world).seam value).toArray) := by
  unfold finished seam
  cases reports : interpreter.options.reportsLog with
  | false => simp [World.log, reports, World.preceded, World.unrecorded]
  | true =>
      simp only [World.log, reports, World.record, World.preceded, World.unrecorded, if_true]
      refine congrArg (fun events => { world with events := events }) (Array.ext' ?_)
      simp

/-- A script that must not wait ends with a verdict, and the interpreter is then another one. -/
def CompletesAtOnce (interpreter : Interpreter) (script : List Node) (verdict : Verdict)
    (reached : Interpreter) : Prop :=
  ∃ fuel polls,
    complete fuel polls interpreter (interpreter.startAtOnce script) = some (verdict, reached)

/-- The verdict on a rule that must not wait, and ends without a result if it wants to. -/
def verdictAtOnce (result : Option Outcome) : Verdict :=
  (Outcome.expectValue (result.getD Task.cannotWait)).map some

/-- A rule that gives no value ends with an error. -/
theorem exists_verdictAtOnce_eq_error (interrupt : Option Interrupt) :
    ∃ error, verdictAtOnce (interrupt.map .error) = .error error := by
  rcases interrupt with _ | signal | error
  · exact ⟨_, rfl⟩
  · exact ⟨_, rfl⟩
  · exact ⟨error, rfl⟩

variable {interpreter : Interpreter} {script first second : List Node} {verdict : Verdict}

/-- A script that must not wait ends as its rule does; to want to wait is an error. -/
theorem completesAtOnce_iff (nonempty : script ≠ []) {reached : Interpreter} :
    interpreter.CompletesAtOnce script verdict reached ↔
      ∃ world result,
        (Evaluation.runScript interpreter.root script .synchronous).run.Ends interpreter.options
          interpreter.host false interpreter.world world result ∧
        verdict = verdictAtOnce result ∧ reached = { interpreter with world := world } := by
  have started : interpreter.startAtOnce script =
      .start (.ofRuleAtOnce (Evaluation.runScript interpreter.root script .synchronous)) false :=
    if_neg (by simpa using nonempty)
  rw [CompletesAtOnce, started, complete_iff_ends rfl rfl]
  simp only [Run.start, conclude_returning, Task.ends_ofRuleAtOnce_iff, Prod.mk.injEq]
  constructor
  · rintro ⟨world, outcome, ends | ⟨stuck, rfl⟩, same⟩
    · exact ⟨world, some outcome, ends, same⟩
    · exact ⟨world, none, stuck, same⟩
  · rintro ⟨world, outcome | outcome, ends, same⟩
    · exact ⟨world, Task.cannotWait, .inr ⟨ends, rfl⟩, same⟩
    · exact ⟨world, outcome, .inl ends, same⟩

/-- A script that ends with a value has told the host last that it is left and at its end. -/
theorem exists_beginScript_of_completesAtOnce (nonempty : first ≠ []) {value : Value}
    {between : Interpreter}
    (completed : interpreter.CompletesAtOnce first (.ok (some value)) between) :
    ∃ middle : World,
      (Evaluation.beginScript interpreter.root first .synchronous).Ends interpreter.options
        interpreter.host false interpreter.world middle (.ok value) ∧
      between = interpreter.finished value middle := by
  obtain ⟨world, result, ends, succeeded, rfl⟩ := (completesAtOnce_iff nonempty).mp completed
  rw [Evaluation.runScript_eq] at ends
  rcases ends_run_bind_iff.mp ends with ⟨middle, given, begins, finishes⟩ | ⟨interrupt, -, rfl⟩
  · obtain ⟨rfl, rfl⟩ := Evaluation.ends_finishScript_nil_iff.mp finishes
    cases succeeded
    exact ⟨middle, begins, rfl⟩
  · obtain ⟨error, failed⟩ := exists_verdictAtOnce_eq_error interrupt
    cases succeeded.trans failed

/-- A script goes on with its last statements where the first ones have ended. -/
theorem completesAtOnce_append_iff (someFirst : first ≠ [])
    (plain : ∀ node ∈ second, node.kind ≠ .namespaceBlock) {value : Value} {middle : World}
    (begins : (Evaluation.beginScript interpreter.root first .synchronous).Ends
      interpreter.options interpreter.host false interpreter.world middle (.ok value))
    {joined : Interpreter} :
    interpreter.CompletesAtOnce (first ++ second) verdict joined ↔
      ∃ world result,
        (Evaluation.finishScript interpreter.root value second .synchronous).run.Ends
          interpreter.options interpreter.host false middle world result ∧
        verdict = verdictAtOnce result ∧ joined = { interpreter with world := world } := by
  rw [completesAtOnce_iff (List.append_ne_nil_of_left_ne_nil someFirst second),
    Evaluation.runScript_append plain]
  simp only [begins.run_bind_iff]

/-- A script without namespaces runs its statements once it is entered, whatever was before. -/
theorem completesAtOnce_plain_iff (someSecond : second ≠ [])
    (plain : ∀ node ∈ second, node.kind ≠ .namespaceBlock) (last : Value)
    {reached : Interpreter} :
    interpreter.CompletesAtOnce second verdict reached ↔
      ∃ world result,
        (Evaluation.finishScript interpreter.root last second .synchronous).run.Ends
          interpreter.options interpreter.host false
          (interpreter.world.log interpreter.options "block:enter" (some interpreter.root.name) none
            none) world result ∧
        verdict = verdictAtOnce result ∧ reached = { interpreter with world := world } := by
  obtain ⟨statement, rest, rfl⟩ := List.exists_cons_of_ne_nil someSecond
  rw [completesAtOnce_iff someSecond, Evaluation.runScript_plain plain,
    Evaluation.finishScript_cons .null last]
  refine exists_congr fun world => exists_congr fun result => and_congr_left' ?_
  exact Process.ends_act_iff

/--
A script in pieces.  The statements of `first` and `second` are given to an interpreter as
one script, or as two scripts one after the other; neither script is empty, and the second
one declares no namespaces.

If the first script ends with an error, then so does the joined one, with the same error
and in the same state.  If it ends with a value, then the second script ends from there
precisely if the joined one does, and with the same verdict.  The two interpreters that are
reached have the same bindings, the same number of steps and everything else in common, and
their hosts were told the same of output and variables.  The only difference is what is told
between two scripts.
-/
theorem completesAtOnce_append (interpreter : Interpreter) {first second : List Node}
    (someFirst : first ≠ []) (someSecond : second ≠ [])
    (plain : ∀ node ∈ second, node.kind ≠ .namespaceBlock) :
    (∀ error reached, interpreter.CompletesAtOnce first (.error error) reached →
      interpreter.CompletesAtOnce (first ++ second) (.error error) reached) ∧
    ∀ value between, interpreter.CompletesAtOnce first (.ok (some value)) between →
      ∀ verdict,
        (∀ reached, between.CompletesAtOnce second verdict reached →
          ∃ joined, interpreter.CompletesAtOnce (first ++ second) verdict joined ∧
            reached.SameBut (between.seam value) joined) ∧
        ∀ joined, interpreter.CompletesAtOnce (first ++ second) verdict joined →
          ∃ reached, between.CompletesAtOnce second verdict reached ∧
            reached.SameBut (between.seam value) joined := by
  constructor
  · intro error reached completed
    obtain ⟨world, result, ends, failed, rfl⟩ := (completesAtOnce_iff someFirst).mp completed
    rw [Evaluation.runScript_eq] at ends
    rcases ends_run_bind_iff.mp ends with ⟨_, _, -, finishes⟩ | ⟨interrupt, begins, rfl⟩
    · obtain ⟨-, rfl⟩ := Evaluation.ends_finishScript_nil_iff.mp finishes
      cases failed
    · refine (completesAtOnce_iff (List.append_ne_nil_of_left_ne_nil someFirst second)).mpr
        ⟨world, _, ?_, failed, rfl⟩
      rw [Evaluation.runScript_append plain]
      exact ends_run_bind_iff.mpr (.inr ⟨interrupt, begins, rfl⟩)
  · intro value between completed verdict
    obtain ⟨middle, begins, rfl⟩ := exists_beginScript_of_completesAtOnce someFirst completed
    -- The last statements begin in worlds that differ in what was told before, and nothing else.
    have entered := interpreter.log_finished value middle
    have silent := not_isAccount_of_mem_seam (interpreter.finished value middle) value
    constructor
    · intro reached goesOn
      obtain ⟨world, result, ends, rfl, rfl⟩ :=
        (completesAtOnce_plain_iff someSecond plain value).mp goesOn
      obtain ⟨after, rfl, anyhow⟩ := Process.Ends.preceded (entered ▸ ends)
      have joins := anyhow middle.events
      rw [World.preceded_unrecorded] at joins
      exact ⟨_, (completesAtOnce_append_iff someFirst plain begins).mpr ⟨_, _, joins, rfl, rfl⟩,
        sameBut_preceded silent interpreter after middle.events⟩
    · intro joined goesOn
      obtain ⟨world, result, ends, rfl, rfl⟩ :=
        (completesAtOnce_append_iff someFirst plain begins).mp goesOn
      obtain ⟨after, rfl, anyhow⟩ :=
        Process.Ends.preceded (middle.preceded_unrecorded.symm ▸ ends)
      refine ⟨_, (completesAtOnce_plain_iff someSecond plain value).mpr ⟨_, result, ?_, rfl, rfl⟩,
        sameBut_preceded silent interpreter after middle.events⟩
      exact entered ▸ anyhow _

/--
The pieces `x := true` and `print(x)`, in an interpreter whose host wants to be told: three
events are told between them.  The other way round, the first piece fails, and so do both.
-/
theorem completesAtOnce_append_definition :
    let interpreter :=
      create { Options.silent 0 0 with reportsLog := true, reportsOutput := true } Host.none
        [] [] []
    let definition : List Node :=
      [.of (.definition (.of (.identifier "x")) (.of (.bool true)) false [])]
    let printing : List Node :=
      [.of (.call (.of (.identifier "print")) [.of (.identifier "x")])]
    (∃ between reached joined,
      interpreter.CompletesAtOnce definition (.ok (some .null)) between ∧
      between.CompletesAtOnce printing (.ok (some .null)) reached ∧
      interpreter.CompletesAtOnce (definition ++ printing) (.ok (some .null)) joined ∧
      reached.SameBut (between.seam .null) joined ∧
      (between.seam .null).length = 3) ∧
    ∃ error reached,
      interpreter.CompletesAtOnce printing (.error error) reached ∧
      interpreter.CompletesAtOnce (printing ++ definition) (.error error) reached := by
  intro interpreter definition printing
  constructor
  · have joins := completesAtOnce_append interpreter
      (List.cons_ne_nil _ _ : definition ≠ []) (List.cons_ne_nil _ _ : printing ≠ []) (by decide)
    have begun : ∃ between reached, complete 40 1 interpreter (interpreter.startAtOnce definition) =
          some (.ok (some .null), between) ∧
        complete 60 1 between (between.startAtOnce printing) =
          some (.ok (some .null), reached) ∧
        (between.seam .null).length = 3 := ⟨_, _, rfl, rfl, rfl⟩
    obtain ⟨between, reached, begins, goesOn, told⟩ := begun
    obtain ⟨joined, completed, same⟩ :=
      (joins.2 _ between ⟨40, 1, begins⟩ _).1 reached ⟨60, 1, goesOn⟩
    exact ⟨between, reached, joined, ⟨40, 1, begins⟩, ⟨60, 1, goesOn⟩, completed, same, told⟩
  · have fails := completesAtOnce_append interpreter
      (List.cons_ne_nil _ _ : printing ≠ []) (List.cons_ne_nil _ _ : definition ≠ []) (by decide)
    have failed : ∃ error reached, complete 60 1 interpreter (interpreter.startAtOnce printing) =
        some (.error error, reached) := ⟨_, _, rfl⟩
    obtain ⟨error, reached, failed⟩ := failed
    exact ⟨error, reached, ⟨60, 1, failed⟩, fails.1 error reached ⟨60, 1, failed⟩⟩

end Interpreter

end TreeScript
