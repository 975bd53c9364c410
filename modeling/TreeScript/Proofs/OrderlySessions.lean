import TreeScript.Proofs.Elsewhere
import TreeScript.Proofs.Entry

/-!
# Sessions and the way into nodes

The runs of a session rest between two polls: a run has not been polled yet, a
function of the host waits for it, or it is suspended at the gate in front of a
node.  Only in the last case it has a step ahead of it that does not depend on
what happens meanwhile.

`Run.ahead` counts this step, and `Session.IsOrderly` says that all runs of a
session rest in one of these ways.  No request disturbs this.
-/

namespace TreeScript

variable {irq : Irq} {hosted : Prop}

/-! ## Runs -/

namespace Run

/-- A run that is suspended at a gate, for a pause or for a yield. -/
def IsHeld (irq : Irq) (run : Run) : Prop :=
  ∃ task reason, run.task = some task ∧ run.reason = some reason ∧ task.IsHeld irq reason

/-- A run of an orderly task, if it is of any. -/
def IsOrderly (irq : Irq) (hosted : Prop) (run : Run) : Prop :=
  ∀ task ∈ run.task, ∃ ahead, task.Rests irq hosted run.reason ahead

open Classical in
/-- The number of steps that a run has ahead of it, however evaluation is stopped. -/
noncomputable def ahead (irq : Irq) (run : Run) : Nat :=
  if run.IsHeld irq then 1 else 0

theorem ahead_le_one (irq : Irq) (run : Run) : run.ahead irq ≤ 1 := by
  rw [ahead]
  split
  · exact Nat.le_refl 1
  · exact Nat.zero_le 1

theorem ahead_of_not_isHeld {run : Run} (free : ¬ run.IsHeld irq) : run.ahead irq = 0 :=
  if_neg free

/-- A run that has not been polled has nothing ahead of it. -/
theorem ahead_of_fresh {run : Run} (fresh : run.reason = none) : run.ahead irq = 0 := by
  refine ahead_of_not_isHeld ?_
  rintro ⟨task, reason, -, given, -⟩
  cases fresh.symm.trans given

theorem ahead_of_rests {task : Task} {reason : Option Wait} {ahead : Nat}
    (rests : task.Rests irq hosted reason ahead) (delivers : Bool) :
    (Run.mk (some task) reason delivers).ahead irq = ahead := by
  have known := rests.ahead_eq_one_iff
  rw [Run.ahead]
  split
  · rename_i held
    obtain ⟨other, given, same, reason, held⟩ := held
    cases same
    exact (known.mpr ⟨given, reason, held⟩).symm
  · rename_i free
    cases rests with
    | outside _ _ => rfl
    | held _ _ =>
        obtain ⟨given, reason, held⟩ := known.mp rfl
        exact (free ⟨task, given, rfl, reason, held⟩).elim

theorem IsOrderly.rests {run : Run} (orderly : run.IsOrderly irq hosted) {task : Task}
    (underway : run.task = some task) :
    task.Rests irq hosted run.reason (run.ahead irq) := by
  obtain ⟨ahead, rests⟩ := orderly task underway
  rcases run with ⟨_, reason, delivers⟩
  cases underway
  exact (ahead_of_rests rests delivers).symm ▸ rests

/-- A run that waits for the end of a pause is suspended at a gate. -/
theorem IsOrderly.isHeld_of_resumed {run : Run} (orderly : run.IsOrderly irq hosted) {task : Task}
    {pause : Nat}
    (underway : run.task = some task)
    (waits : run.reason = some (.resumed pause)) :
    task.IsHeld irq (.resumed pause) := by
  have rests := orderly.rests underway
  rw [waits] at rests
  generalize run.ahead irq = ahead at rests
  cases rests with
  | outside _ free => exact absurd free (by simp)
  | held _ held => exact held

end Run

namespace Polled

/-- What polling gives is an orderly run, if it is any. -/
def IsOrderly (irq : Irq) (hosted : Prop) : Polled → Prop
  | .pending run => run.IsOrderly irq hosted
  | .ended _ => True

/-- The number of steps that what polling gives has ahead of it. -/
noncomputable def ahead (irq : Irq) : Polled → Nat
  | .pending run => run.ahead irq
  | .ended _ => 0

end Polled

namespace Interpreter

variable {interpreter after : Interpreter} {fuel : Nat} {run : Run}

theorem advances_conclude (options : Options) (delivers : Bool) (outcome : Outcome)
    (world : World) :
    world.Advances (conclude options delivers outcome world).2 0 0 :=
  .outside (steps_conclude options delivers outcome world)
    (evolves_conclude options delivers outcome world)

/-- Polling keeps runs orderly. -/
theorem orderly_poll {polled : Polled}
    (guests : hosted → interpreter.host.IsStepless)
    (hostless : hosted ∨ interpreter.world.store.Hostless)
    (orderly : run.IsOrderly interpreter.options.irq hosted)
    (answered : interpreter.poll fuel run = some (polled, after)) :
    (hosted ∨ after.world.store.Hostless) ∧
      polled.IsOrderly interpreter.options.irq hosted ∧
      interpreter.world.Advances after.world (run.ahead interpreter.options.irq)
        (polled.ahead interpreter.options.irq) := by
  cases underway : run.task with
  | none =>
      rw [poll, underway] at answered
      cases answered
      exact ⟨hostless, trivial, .turnsBack _ _⟩
  | some task =>
      cases ready : run.isReady interpreter.world.lifecycle with
      | false =>
          rw [poll, underway, ready] at answered
          cases answered
          exact ⟨hostless, orderly, .stays rfl rfl⟩
      | true =>
          have task := (orderly.rests underway).orderly interpreter.world.lifecycle.pause
          rw [poll_of_ready interpreter run underway ready] at answered
          split at answered
          · rename_i reached outcome ran
            obtain ⟨hostless, advances⟩ := task.run_finished guests hostless ran
            cases answered
            have store := store_conclude interpreter.options run.delivers outcome reached
            exact ⟨store.symm ▸ hostless, trivial, advances.trans (advances_conclude _ _ _ _)⟩
          · rename_i reached reason rest ran
            obtain ⟨left, rests, hostless, advances, -⟩ := task.run_waiting guests hostless ran
            cases answered
            refine ⟨hostless, fun task underway => ?_, ?_⟩
            · cases underway
              exact ⟨left, rests⟩
            · rw [Polled.ahead, Run.ahead_of_rests rests run.delivers]
              exact advances
          · cases answered

/-- What an orderly run takes that is run to its end. -/
theorem orderly_complete {polls : Nat} {verdict : Verdict}
    (guests : hosted → interpreter.host.IsStepless)
    (hostless : hosted ∨ interpreter.world.store.Hostless)
    (orderly : run.IsOrderly interpreter.options.irq hosted)
    (completed : complete fuel polls interpreter run = some (verdict, after)) :
    interpreter.world.Advances after.world (run.ahead interpreter.options.irq) 0 := by
  induction polls generalizing interpreter run with
  | zero => cases completed
  | succ polls inductive_step =>
      rw [complete] at completed
      split at completed
      · rename_i polled
        cases completed
        exact (orderly_poll guests hostless orderly polled).2.2
      · rename_i rest between polled
        obtain ⟨hostless, orderly, advances⟩ := orderly_poll guests hostless orderly polled
        have same := eq_of_poll polled
        generalize between.world = world at same
        subst same
        split at completed
        · exact advances.trans (inductive_step guests hostless orderly completed)
        · cases completed
      · cases completed

end Interpreter

namespace Task

theorem rests_ofRule {rule : Rule Value} (minds : rule.Minds (.stepless hosted)) :
    (ofRule rule).Rests irq hosted none 0 :=
  .outside (fun _ => ⟨.outside (Evaluation.stepless_answering minds), nofun⟩) (.inl rfl)

theorem rests_ofRuleAtOnce {rule : Rule Value} (minds : rule.Minds (.stepless hosted)) :
    (ofRuleAtOnce rule).Rests irq hosted none 0 := by
  refine .outside (fun _ => ⟨.outside (Evaluation.stepless_answering minds), ?_⟩) (.inl rfl)
  intro frame mem outcome
  obtain rfl := List.mem_singleton.mp mem
  exact .done ⟨trivial, trivial⟩

end Task

namespace Interpreter

variable {interpreter : Interpreter} {run : Run}

/-- A run that can be suspended is orderly when it is started. -/
theorem Launches.isOrderly (launches : interpreter.Launches run) (irq : Irq) (hosted : Prop) :
    run.IsOrderly irq hosted := by
  have plain : (Manner.stepless hosted).Plain .asynchronous := Manner.plain_stepless (.inr rfl)
  cases launches with
  | script script =>
      cases script with
      | nil => nofun
      | cons statement rest =>
          intro task underway
          cases underway
          exact ⟨0, Task.rests_ofRule (Evaluation.minds_runScript plain interpreter.root _)⟩
  | call callee arguments =>
      intro task underway
      cases underway
      exact ⟨0, Task.rests_ofRule
        (Evaluation.minds_enter plain Manner.stepless_delivers callee arguments)⟩

/-- Every run is orderly when it is started. -/
theorem Starts.isOrderly (starts : interpreter.Starts run) (irq : Irq) :
    run.IsOrderly irq True := by
  have plain (mode : Mode) : (Manner.stepless True).Plain mode :=
    Manner.plain_stepless (.inl trivial)
  cases starts with
  | script script =>
      have launches : interpreter.Launches _ := .script script
      exact launches.isOrderly irq True
  | scriptAtOnce script =>
      cases script with
      | nil => nofun
      | cons statement rest =>
          intro task underway
          cases underway
          exact ⟨0, Task.rests_ofRuleAtOnce
            (Evaluation.minds_runScript (plain _) interpreter.root _)⟩
  | call callee arguments style =>
      intro task underway
      cases style with
      | asynchronous =>
          have launches : interpreter.Launches _ := .call callee arguments
          exact launches.isOrderly irq True task underway
      | synchronous =>
          cases underway
          exact ⟨0, Task.rests_ofRuleAtOnce
            (Evaluation.minds_enter (plain _) Manner.stepless_delivers callee arguments)⟩
      | simple =>
          cases underway
          exact ⟨0, Task.rests_ofRule
            (Evaluation.minds_applyValue (plain _) callee arguments)⟩

theorem Starts.fresh (starts : interpreter.Starts run) : run.reason = none := by
  cases starts with
  | script script => cases script <;> rfl
  | scriptAtOnce script => cases script <;> rfl
  | call callee arguments style => cases style <;> rfl

end Interpreter

/-! ## Sessions -/

namespace Session

/-- A session whose runs are orderly. -/
structure IsOrderly (hosted : Prop) (session : Session) : Prop where
  guests : hosted → session.interpreter.host.IsStepless
  hostless : hosted ∨ session.world.store.Hostless
  runs : ∀ entry ∈ session.runs, entry.2.IsOrderly session.interpreter.options.irq hosted

variable {session after : Session}

theorem mem_of_lookup {id : String} {run : Run} (found : session.runs.lookup id = some run) :
    (id, run) ∈ session.runs := by
  obtain ⟨before, rest, split, -⟩ := List.lookup_eq_some_iff.mp found
  exact split ▸ by simp

theorem IsOrderly.of_lookup (orderly : session.IsOrderly hosted) {id : String} {run : Run}
    (found : session.runs.lookup id = some run) :
    run.IsOrderly session.interpreter.options.irq hosted :=
  orderly.runs (id, run) (mem_of_lookup found)

theorem mem_forget {id : String} {entry : String × Run} (mem : entry ∈ (session.forget id).runs) :
    entry ∈ session.runs :=
  (List.mem_filter.mp mem).1

/-- A session stays orderly when runs are added that are orderly. -/
theorem IsOrderly.of_leads {named : Option String} (orderly : session.IsOrderly hosted)
    (leads : Leads named session after)
    (hostless : hosted ∨ after.world.store.Hostless)
    (runs : ∀ entry ∈ after.runs,
      entry ∈ session.runs ∨ entry.2.IsOrderly session.interpreter.options.irq hosted) :
    after.IsOrderly hosted where
  guests isHosted := leads.interpreter ▸ orderly.guests isHosted
  hostless := hostless
  runs entry mem := by
    rw [leads.interpreter]
    exact (runs entry mem).elim (orderly.runs entry) id

/-- Whatever a session is asked, it stays orderly. -/
theorem IsOrderly.answer {fuel : Nat} {request : Request} {answer : Answer}
    (orderly : session.IsOrderly hosted)
    (answered : session.answer fuel request = some (answer, after)) :
    after.IsOrderly hosted := by
  have leads := leads_answer answered
  cases course_of_answer World.upkeep_hostless answered with
  | tended _ tended =>
      exact orderly.of_leads leads (orderly.hostless.imp_right tended.world) fun entry mem =>
        .inl (tended.runs ▸ mem)
  | launched _ tended launches remembered =>
      subst remembered
      refine orderly.of_leads leads (orderly.hostless.imp_right tended.world) fun entry mem => ?_
      rcases List.mem_cons.mp mem with rfl | mem
      · exact .inr (launches.isOrderly _ _)
      · exact .inl (tended.runs ▸ mem_forget mem)
  | dropped => exact orderly.of_leads leads orderly.hostless fun entry mem => .inl (mem_forget mem)
  | completed _ tended begins completed world runs =>
      have hostless : hosted ∨ after.world.store.Hostless :=
        orderly.hostless.imp_right fun hostless =>
          world.symm ▸ begins.starts.hostless_complete (tended.world hostless) completed
      exact orderly.of_leads leads hostless fun entry mem => .inl (tended.runs ▸ runs ▸ mem)
  | unknown missing => exact orderly
  | suspended found polled =>
      obtain ⟨hostless, rest, -⟩ :=
        Interpreter.orderly_poll orderly.guests orderly.hostless (orderly.of_lookup found) polled
      refine orderly.of_leads leads hostless fun entry mem => ?_
      rcases List.mem_cons.mp mem with rfl | mem
      · exact .inr rest
      · exact .inl (mem_forget mem)
  | ended found polled world runs =>
      obtain ⟨hostless, -, -⟩ :=
        Interpreter.orderly_poll orderly.guests orderly.hostless (orderly.of_lookup found) polled
      exact orderly.of_leads leads (world.symm ▸ hostless) fun entry mem =>
        .inl (mem_forget (runs ▸ mem))

theorem IsOrderly.takeEvents (orderly : session.IsOrderly hosted) :
    session.takeEvents.2.IsOrderly hosted :=
  ⟨orderly.guests, orderly.hostless, orderly.runs⟩

theorem Reaches.isOrderly (reached : session.Reaches after) (orderly : session.IsOrderly hosted) :
    after.IsOrderly hosted := by
  induction reached with
  | start => exact orderly
  | answer _ answered inductive_step => exact inductive_step.answer answered
  | takeEvents _ inductive_step => exact inductive_step.takeEvents

theorem isOrderly_start {interpreter : Interpreter} (guests : interpreter.host.IsStepless) :
    (start interpreter).IsOrderly True :=
  ⟨fun _ => guests, .inl trivial, nofun⟩

end Session

end TreeScript
