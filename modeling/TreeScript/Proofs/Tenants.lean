import TreeScript.Proofs.PausedSessions
import TreeScript.Proofs.SharedWorlds

/-!
# Tenants of a session

A tenant is a script that runs under an identifier and keeps to some names.  A
session serves two tenants if they share its world, and the runs of both are
mirrored by runs in worlds in which they are alone.  Polling the run of one of
them keeps that so.  When the run ends, and evaluation had not been stopped
before, the script ends alone with the same verdict, and its own world is the
one in which it has done so.
-/

namespace TreeScript

/-- A script that runs under an identifier, and names that it keeps to. -/
structure Tenant where
  id : String
  script : List Node
  names : String → Bool
  keeps : Node.keepTo names script

/-- How a script ends that is run alone on an interpreter. -/
def Interpreter.RunsTo (created : Interpreter) (script : List Node) (verdict : Verdict)
    (alone : World) : Prop :=
  ∃ fuel polls, Interpreter.complete fuel polls created (created.start script) =
    some (verdict, { created with world := alone })

/-- How far the run of a tenant has come that is mirrored in a world of its own. -/
inductive Tenant.Runs (created : Interpreter) (tenant : Tenant) (link : Link)
    (solo joint : World) : Option Run → Prop where
  | nothing
      (empty : created.start tenant.script = .nothing)
      (untouched : joint.lifecycle.isStopped = false → solo = created.world) :
      Runs created tenant link solo joint (some .nothing)
  | underway {origin task other : Task} {reason : Option Wait}
      (started : created.start tenant.script = .start origin true)
      (ready : reason = none ∨ reason = some .nextPoll)
      (mirrors : task.Mirrors created.options tenant.names link solo joint other)
      (leads : joint.lifecycle.isStopped = false →
        origin.LeadsTo created.options created.host created.world solo task) :
      Runs created tenant link solo joint (some ⟨some other, reason, true⟩)
  | ended : Runs created tenant link solo joint none

namespace Tenant

variable {created : Interpreter} {tenant : Tenant} {link wider : Link}
  {solo solo' joint next : World} {run : Option Run}

/-- A run stays mirrored while the world goes on without it. -/
theorem Runs.beside (runs : tenant.Runs created link solo joint run)
    (worlds : World.Linked created.options tenant.names link solo joint)
    (linked : World.Linked created.options tenant.names link
      { solo with lifecycle := next.lifecycle } next)
    (grows : ∀ kind, joint.store.size kind ≤ next.store.size kind)
    (settles : next.lifecycle.isStopped = false → next.lifecycle = joint.lifecycle) :
    tenant.Runs created link { solo with lifecycle := next.lifecycle } next run := by
  -- Unless evaluation has been stopped, the world of its own is the same as before.
  have same (going : next.lifecycle.isStopped = false) :
      { solo with lifecycle := next.lifecycle } = solo ∧ joint.lifecycle.isStopped = false := by
    rw [← settles going, ← worlds.lifecycle.trans (settles going).symm]
    exact ⟨rfl, worlds.lifecycle.trans (settles going).symm ▸ going⟩
  cases runs with
  | nothing empty untouched =>
      exact .nothing empty fun going => (same going).1.trans (untouched (same going).2)
  | @underway origin task other reason started ready mirrors leads =>
      have stillMirrors : task.Mirrors created.options tenant.names link
          { solo with lifecycle := next.lifecycle } next other := by
        refine ⟨linked, fun widest extension => ?_, mirrors.alone.of_store rfl⟩
        refine mirrors.tasks widest ⟨extension.within, fun pair => ?_, extension.matching⟩
        exact (extension.fresh pair).imp_right fun above => ⟨above.1, (grows _).trans above.2⟩
      refine .underway started ready stillMirrors fun going => ?_
      rw [(same going).1]
      exact leads (same going).2
  | ended => exact .ended

/-- What polling its run comes to for a tenant. -/
def Polled (created : Interpreter) (tenant : Tenant) (wider : Link) (stopped : Bool)
    (solo' next : World) : TreeScript.Polled → Prop
  | .pending run => tenant.Runs created wider solo' next (some run)
  | .ended verdict' =>
      ∃ verdict, Except.Linked Eq (Option.Rel (Value.Linked wider)) verdict verdict' ∧
        (stopped = false → created.RunsTo tenant.script verdict solo')

/-- Polling its run is a stint of a tenant. -/
theorem Runs.poll (unlimited : created.options.stepLimit = 0) {run : Run}
    (runs : tenant.Runs created link solo joint (some run))
    (worlds : World.Linked created.options tenant.names link solo joint)
    (quiet : joint.IsQuiet created.options) {fuel : Nat} {polled : TreeScript.Polled}
    {after : Interpreter}
    (answered : Interpreter.poll { created with world := joint } fuel run =
      some (polled, after)) :
    ∃ next wider solo', after = { created with world := next } ∧
      World.Stint created.options tenant.names link solo joint wider solo' next ∧
      tenant.Polled created wider joint.lifecycle.isStopped solo' next polled := by
  cases runs with
  | nothing empty untouched =>
      cases answered
      refine ⟨joint, link, solo, rfl, worlds.advance_refl.stint quiet, .ok none, .ok .none,
        fun going => ⟨0, 1, ?_⟩⟩
      rw [empty, untouched going]
      rfl
  | @underway origin task other reason started ready mirrors leads =>
      have isReady : Run.isReady ⟨some other, reason, true⟩ joint.lifecycle = true := by
        rcases ready with rfl | rfl <;> rfl
      rw [Interpreter.poll_of_ready _ _ rfl isReady] at answered
      dsimp only at answered
      split at answered
      · rename_i next outcome' ran
        obtain ⟨wider, solo', outcome, ends, advance, outcomes⟩ :=
          Task.follows_run unlimited mirrors ran
        cases answered
        obtain ⟨verdicts, linked, stillQuiet, settles⟩ :=
          Interpreter.linked_conclude advance.linked (advance.stint quiet).quiet outcomes true
        refine ⟨_, wider, _, rfl, ⟨advance.extension, linked, ?_, ?_, stillQuiet, fun going => ?_⟩,
          _, verdicts, fun going => ?_⟩
        · rw [Interpreter.store_conclude]
          exact advance.leaves.store
        · rw [Interpreter.inputs_conclude]
          exact advance.leaves.inputs
        · exact (settles going).trans advance.leaves.lifecycle
        · have underway : (created.start tenant.script).task = some origin := by rw [started]; rfl
          have fresh : (created.start tenant.script).isReady created.world.lifecycle = true := by
            rw [started]
            rfl
          have delivers : (created.start tenant.script).delivers = true := by rw [started]; rfl
          have completed := Interpreter.complete_of_ends (leads going ends) _ underway fresh
          rw [delivers] at completed
          exact completed
      · rename_i next reason' other' ran
        obtain ⟨rfl, wider, solo', task', leads', advance, mirrors'⟩ :=
          Task.follows_run unlimited mirrors ran
        cases answered
        refine ⟨next, wider, solo', rfl, advance.stint quiet,
          .underway started (.inr rfl) mirrors' fun going _ _ ends => leads ?_ (leads' ends)⟩
        exact advance.leaves.lifecycle ▸ going
      · cases answered

end Tenant

namespace Session

/-! ## Sessions that serve two tenants -/

/-- A session in which the runs of two tenants are mirrored, and nothing else runs. -/
structure Serves (created : Interpreter) (one two : Tenant) (link foreign : Link)
    (solo partner : World) (session : Session) : Prop where
  interpreter : session.interpreter = { created with world := session.world }
  quiet : session.world.IsQuiet created.options
  shared : World.Shared created.options one.names two.names link foreign solo partner
    session.world
  roots : created.root.Linked link created.root ∧ created.root.Linked foreign created.root
  own : one.Runs created link solo session.world (session.runs.lookup one.id)
  other : two.Runs created foreign partner session.world (session.runs.lookup two.id)
  alone (id : String) : id ≠ one.id → id ≠ two.id → session.runs.lookup id = none

variable {created : Interpreter} {one two : Tenant} {link foreign wider : Link}
  {solo solo' partner next : World} {session after : Session}

theorem Serves.symm (serves : Serves created one two link foreign solo partner session) :
    Serves created two one foreign link partner solo session where
  interpreter := serves.interpreter
  quiet := serves.quiet
  shared := serves.shared.symm
  roots := serves.roots.symm
  own := serves.other
  other := serves.own
  alone id notTwo notOne := serves.alone id notOne notTwo

/-- A stint of one tenant, after which its run is where it has come to. -/
theorem Serves.stint (serves : Serves created one two link foreign solo partner session)
    (distinct : one.id ≠ two.id)
    (exclusive : ¬(created.options.Asks one.names ∧ created.options.Asks two.names))
    (stint : World.Stint created.options one.names link solo session.world wider solo' next)
    (interpreter : after.interpreter = { created with world := next })
    (own : one.Runs created wider solo' next (after.runs.lookup one.id))
    (others : ∀ id, id ≠ one.id → after.runs.lookup id = session.runs.lookup id) :
    Serves created one two wider foreign solo' { partner with lifecycle := next.lifecycle }
      after := by
  have world : after.world = next := congrArg Interpreter.world interpreter
  subst world
  have linked := serves.shared.linked_stint exclusive stint
  have roots := And.intro (serves.roots.1.mono stint.extension.within) serves.roots.2
  refine ⟨interpreter, stint.quiet, serves.shared.stint exclusive stint, roots, own, ?_,
    fun id notOne notTwo => ?_⟩
  · rw [others two.id distinct.symm]
    exact serves.other.beside serves.shared.other linked stint.leaves.grows stint.settles
  · rw [others id notOne]
    exact serves.alone id notOne notTwo

theorem answerVerdict_fst (session : Session) (save : Option String) (verdict : Verdict) :
    (session.answerVerdict save verdict).1 =
      .verdict (verdict.map (Option.map session.picture)) := by
  rcases verdict with error | _ | value <;> rfl

/-- Linked verdicts look the same. -/
theorem map_snapshot_eq {names : String → Bool} {store store' : Store}
    (stores : store.Linked names link store') (detail : Detail) {verdict verdict' : Verdict}
    (verdicts : Except.Linked Eq (Option.Rel (Value.Linked link)) verdict verdict') :
    verdict.map (Option.map (store.snapshot detail)) =
      verdict'.map (Option.map (store'.snapshot detail)) := by
  cases verdicts with
  | error same => exact congrArg Except.error same
  | ok values =>
      cases values with
      | none => rfl
      | some values =>
          exact congrArg (fun shown => Except.ok (some shown)) (stores.snapshot_eq detail values)

/-- Polling the run of one tenant. -/
theorem Serves.poll (unlimited : created.options.stepLimit = 0)
    (serves : Serves created one two link foreign solo partner session)
    (distinct : one.id ≠ two.id)
    (exclusive : ¬(created.options.Asks one.names ∧ created.options.Asks two.names))
    {fuel : Nat} {save : Option String} {answer : Answer}
    (answered : session.answer fuel (.poll one.id save) = some (answer, after)) :
    ∃ wider solo',
      Serves created one two wider foreign solo'
        { partner with lifecycle := after.world.lifecycle } after ∧
      (∀ id, id ≠ one.id → after.runs.lookup id = session.runs.lookup id) ∧
      (session.runs.lookup one.id = none →
        solo'.store = solo.store ∧ after.runs.lookup one.id = none) ∧
      ∀ shown, answer = .verdict shown →
        after.runs.lookup one.id = none ∧
        (session.world.lifecycle.isStopped = false →
          ∃ verdict, created.RunsTo one.script verdict solo' ∧
            shown = verdict.map (Option.map (solo'.store.snapshot created.options.detail))) := by
  unfold Session.answer at answered
  dsimp only at answered
  cases found : session.runs.lookup one.id with
  | none =>
      rw [found] at answered
      cases answered
      exact ⟨link, solo, serves.shared.other.withLifecycle_eq.symm ▸ serves, fun _ _ => rfl,
        fun _ => ⟨rfl, found⟩, nofun⟩
  | some run =>
      rw [found] at answered
      dsimp only at answered
      have runs := serves.own
      rw [found] at runs
      cases polled : session.interpreter.poll fuel run with
      | none =>
          rw [polled] at answered
          cases answered
      | some result =>
          obtain ⟨polling, reached⟩ := result
          rw [polled] at answered
          rw [serves.interpreter] at polled
          obtain ⟨next, wider, solo', rfl, stint, outcome⟩ :=
            runs.poll unlimited serves.shared.own serves.quiet polled
          cases polling with
          | pending rest =>
              cases answered
              refine ⟨wider, solo', serves.stint distinct exclusive stint rfl ?_ fun id apart => ?_,
                fun id apart => ?_, nofun, nofun⟩
              · rw [lookup_remember_self]
                exact outcome
              · exact lookup_remember_ne _ apart rest
              · exact lookup_remember_ne _ apart rest
          | ended verdict' =>
              obtain ⟨verdict, verdicts, runsTo⟩ := outcome
              let between : Session :=
                { session with interpreter := { created with world := next } }.forget one.id
              have told : (between.answerVerdict save verdict').1 = answer :=
                congrArg Prod.fst (Option.some.inj answered)
              obtain ⟨saved, same⟩ := answerVerdict_eq between save verdict'
              obtain rfl := (congrArg Prod.snd (Option.some.inj answered)).symm.trans same
              have gone : between.runs.lookup one.id = none := lookup_forget_self _ one.id
              have others (id : String) (apart : id ≠ one.id) :
                  between.runs.lookup id = session.runs.lookup id :=
                lookup_forget_ne _ apart
              refine ⟨wider, solo', serves.stint distinct exclusive stint rfl ?_ others, others,
                nofun, fun shown isShown => ⟨gone, fun going => ⟨verdict, runsTo going, ?_⟩⟩⟩
              · rw [show List.lookup one.id between.runs = none from gone]
                exact .ended
              · cases (answerVerdict_fst between save verdict').symm.trans (told.trans isShown)
                exact (map_snapshot_eq stint.linked.store created.options.detail verdicts).symm

/-! ## Polls in any order -/

/-- What a session comes to by polling runs; what was recorded may be taken in between. -/
inductive Polls (session : Session) : Session → Prop where
  | start : Polls session session
  | poll {between after : Session} {fuel : Nat} {id : String} {save : Option String}
      {answer : Answer}
      (polls : Polls session between)
      (answered : between.answer fuel (.poll id save) = some (answer, after)) :
      Polls session after
  | takeEvents {between : Session}
      (polls : Polls session between) :
      Polls session between.takeEvents.2

/-- What has no part in evaluation makes no difference to the tenants. -/
theorem Serves.of_unmoved (distinct : one.id ≠ two.id)
    (exclusive : ¬(created.options.Asks one.names ∧ created.options.Asks two.names))
    (serves : Serves created one two link foreign solo partner session)
    (unmoved : session.world.Unmoved next) :
    Serves created one two link foreign solo partner (session.withWorld next) := by
  have stint := (serves.shared.own.advance_of_unmoved (World.unmoved_refl solo) unmoved).stint
    serves.quiet
  have own : one.Runs created link solo next (session.runs.lookup one.id) := by
    have same := stint.linked.withLifecycle_eq
    have runs := serves.own.beside serves.shared.own (by rw [same]; exact stint.linked)
      stint.leaves.grows stint.settles
    rw [same] at runs
    exact runs
  have interpreter : (session.withWorld next).interpreter = { created with world := next } := by
    rw [withWorld, serves.interpreter]
  have later := serves.stint distinct exclusive stint interpreter own fun _ _ => rfl
  have same : { partner with lifecycle := next.lifecycle } = partner := by
    rw [unmoved.lifecycle]
    exact serves.shared.other.withLifecycle_eq
  exact same ▸ later

/-- Whatever is polled, both tenants stay served, and one that has ended keeps its store. -/
theorem Serves.polls (unlimited : created.options.stepLimit = 0) (distinct : one.id ≠ two.id)
    (exclusive : ¬(created.options.Asks one.names ∧ created.options.Asks two.names))
    (serves : Serves created one two link foreign solo partner session)
    (polls : session.Polls after) :
    ∃ link' foreign' solo' partner',
      Serves created one two link' foreign' solo' partner' after ∧
        (session.runs.lookup one.id = none →
          solo'.store = solo.store ∧ after.runs.lookup one.id = none) := by
  induction polls with
  | start => exact ⟨link, foreign, solo, partner, serves, fun ended => ⟨rfl, ended⟩⟩
  | takeEvents _ inductive_step =>
      obtain ⟨link', foreign', solo', partner', serves', kept⟩ := inductive_step
      exact ⟨link', foreign', solo', partner',
        serves'.of_unmoved distinct exclusive ⟨rfl, rfl, rfl⟩, kept⟩
  | @poll between after fuel id save answer _ answered inductive_step =>
      obtain ⟨link', foreign', solo', partner', serves', kept⟩ := inductive_step
      by_cases isOne : id = one.id
      · subst isOne
        obtain ⟨wider, next, serving, -, stays, -⟩ :=
          serves'.poll unlimited distinct exclusive answered
        refine ⟨wider, foreign', next, _, serving, fun ended => ?_⟩
        obtain ⟨store, endedThen⟩ := kept ended
        exact ⟨(stays endedThen).1.trans store, (stays endedThen).2⟩
      by_cases isTwo : id = two.id
      · subst isTwo
        obtain ⟨wider, next, serving, others, -⟩ :=
          serves'.symm.poll unlimited distinct.symm (fun asks => exclusive asks.symm) answered
        refine ⟨link', wider, _, next, serving.symm, fun ended => ?_⟩
        obtain ⟨store, endedThen⟩ := kept ended
        exact ⟨store, (others one.id distinct).trans endedThen⟩
      · have unknown := serves'.alone id isOne isTwo
        unfold Session.answer at answered
        dsimp only at answered
        rw [unknown] at answered
        cases answered
        exact ⟨link', foreign', solo', partner', serves', kept⟩

/-- What the host is told a name is bound to depends on the store and the root only. -/
theorem answer_get_fst (session : Session) (fuel : Nat) (name : String) :
    (session.answer fuel (.get name none)).map Prod.fst =
      some (.verdict (match session.world.store.lookup? session.interpreter.root name with
        | some found => .ok (some (session.picture found.value))
        | none => .error (.of (.unknownIdentifier name session.interpreter.root.name)))) := by
  let reading := Edit.readName session.interpreter.options session.interpreter.root name
  have shown : (session.answer fuel (.get name none)).map Prod.fst =
      some (((session.edit reading).2.answerVerdict none
        ((session.edit reading).1.map some)).1) := rfl
  rw [shown, answerVerdict_fst, edit, Edit.run_readName]
  cases session.world.store.lookup? session.interpreter.root name with
  | none => rfl
  | some found =>
      have unmoved := World.unmoved_log session.interpreter.options "var:read"
        (some session.interpreter.root.name) (some name) (some found.value) session.world
      exact congrArg (fun store : Store => some (Answer.verdict (.ok (some
        (store.snapshot session.interpreter.options.detail found.value))))) unmoved.store

/--
A tenant ends as its script does alone, and leaves its names bound to what they
are bound to then.  Where errors that are handed to the host abort, that is so of
a run that ends before an error has stopped evaluation.
-/
def EndsAsAlone (created : Interpreter) (tenant : Tenant) (joint : Session) : Prop :=
  ∀ {before after last : Session} {fuel : Nat} {save : Option String}
    {verdict : Except Error (Option Snapshot)},
    joint.Polls before →
    (created.options.reportsErrors = true → created.options.abortOnError = true →
      before.world.lifecycle.isStopped = false) →
    before.answer fuel (.poll tenant.id save) = some (.verdict verdict, after) →
    after.Polls last →
    ∃ enough alone,
      (Session.start created).answer enough (.execute .asynchronous (some tenant.script) none) =
        some (.verdict verdict, alone) ∧
      ∀ name, tenant.names name → ∀ fuel,
        (last.answer fuel (.get name none)).map Prod.fst =
          (alone.answer fuel (.get name none)).map Prod.fst

/-- Running a script on a new session tells how it runs alone. -/
theorem answer_execute_of_runsTo {script : List Node} {verdict : Verdict} {alone : World}
    (runs : created.RunsTo script verdict alone) :
    ∃ enough ended,
      (Session.start created).answer enough (.execute .asynchronous (some script) none) =
        some (.verdict (verdict.map (Option.map
          (alone.store.snapshot created.options.detail))), ended) ∧
      ended.interpreter = { created with world := alone } := by
  obtain ⟨fuel, polls, completed⟩ := runs
  have enough := Interpreter.complete_mono (Nat.le_max_left fuel polls)
    (Nat.le_max_right fuel polls) completed
  let between : Session :=
    { Session.start created with interpreter := { created with world := alone } }
  have answered :
      (Session.start created).answer (max fuel polls) (.execute .asynchronous (some script) none) =
        some (between.answerVerdict none verdict) := by
    show Session.complete _ _ _ _ = _
    unfold Session.complete
    rw [show (Session.start created).interpreter = created from rfl, enough]
  obtain ⟨saved, same⟩ := answerVerdict_eq between none verdict
  refine ⟨max fuel polls, (between.answerVerdict none verdict).2, ?_, ?_⟩
  · rw [answered]
    exact congrArg some (Prod.ext (answerVerdict_fst between none verdict) rfl)
  · rw [same]

/-- A tenant that is served ends as alone. -/
theorem Serves.endsAsAlone (unlimited : created.options.stepLimit = 0) (distinct : one.id ≠ two.id)
    (exclusive : ¬(created.options.Asks one.names ∧ created.options.Asks two.names))
    (serves : Serves created one two link foreign solo partner session) :
    EndsAsAlone created one session := by
  intro before after last fuel save verdict polls going answered polls'
  obtain ⟨_, _, _, _, serving, -⟩ := serves.polls unlimited distinct exclusive polls
  obtain ⟨_, alone, ended, -, -, shown⟩ := serving.poll unlimited distinct exclusive answered
  obtain ⟨gone, runs⟩ := shown _ rfl
  have unstopped : before.world.lifecycle.isStopped = false := by
    rcases serving.quiet with initial | ⟨-, reports, aborts⟩
    · rw [initial]
      rfl
    · exact going reports aborts
  obtain ⟨verdict, runsTo, rfl⟩ := runs unstopped
  obtain ⟨enough, single, answered, interpreter⟩ := answer_execute_of_runsTo runsTo
  obtain ⟨_, _, later, _, serving', kept⟩ := ended.polls unlimited distinct exclusive polls'
  refine ⟨enough, single, answered, fun name named fuel => ?_⟩
  have stores := serving'.shared.own.store
  rw [(kept gone).1] at stores
  have bound := stores.lookup? named serving'.roots.1
  rw [answer_get_fst, answer_get_fst]
  unfold picture
  rw [show single.world = alone from congrArg Interpreter.world interpreter, interpreter,
    serving'.interpreter]
  dsimp only
  generalize alone.store.lookup? created.root name = found at bound ⊢
  generalize last.world.store.lookup? created.root name = found' at bound ⊢
  cases bound with
  | none => rfl
  | some bounds =>
      cases bounds with
      | plain isMutable values =>
          exact congrArg (fun shown => some (Answer.verdict (.ok (some shown))))
            (stores.snapshot_eq created.options.detail values).symm

end Session

end TreeScript
