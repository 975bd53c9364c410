import TreeScript.Proofs.Fresh
import TreeScript.Proofs.GoalContract
import TreeScript.Proofs.Reach

/-!
# Control flow is sound

In every state that a well-scoped script reaches, what is under way meets its
contract, and the frame around it meets its own for whatever may come out.  So
no signal gets to a place where nothing takes it, every function that is called
exists, and no evaluation ends with an error of the interpreter itself.
-/

namespace TreeScript

/--
Frames that meet their contracts for whatever comes out of them: `enclosure`
is what is around the node that the innermost frame waits for.
-/
inductive Frame.MeetAll : Enclosure → Nat → List Frame → Prop where
  | foot {count : Nat} : MeetAll .script count []
  | push {inner enclosure : Enclosure} {count : Nat} {frame : Frame} {outer : List Frame}
      (resumes : ∀ more, count ≤ more → ∀ outcome, EndsWithin inner Value.IsKnown more outcome →
        (frame.resume outcome).Meets (Turn.Fits enclosure) more)
      (rest : MeetAll enclosure count outer) :
      MeetAll inner count (frame :: outer)

theorem Frame.MeetAll.mono {enclosure : Enclosure} {count more : Nat} {stack : List Frame}
    (meetAll : Frame.MeetAll enclosure count stack) (grows : count ≤ more) :
    Frame.MeetAll enclosure more stack := by
  induction meetAll generalizing more with
  | foot => exact .foot
  | push resumes _ inductive_step =>
      exact .push (fun most grows' => resumes most (Nat.le_trans grows grows'))
        (inductive_step grows)

namespace Task

/-- A task that meets its contract in a world whose store is sound. -/
structure Sound (count : Nat) (world : World) (task : Task) : Prop where
  store : world.store.Sound count
  meets : ∃ enclosure, task.process.Meets (Turn.Fits enclosure) count ∧
    Frame.MeetAll enclosure count task.stack

/-- A change of the world that keeps sound stores sound. -/
def KeepsSound (world next : World) : Prop :=
  ∀ count, world.store.Sound count → ∃ more, count ≤ more ∧ next.store.Sound more

variable {options : Options} {host : Host} {world next : World} {task after : Task} {count : Nat}

/-- Waiting below a barrier gives a proper error, with which the frame of the barrier goes on. -/
theorem meets_cannotWait {enclosure : Enclosure} {stack outer : List Frame} {frame : Frame}
    (meetAll : Frame.MeetAll enclosure count stack)
    (found : barrier? stack = some (frame, outer)) :
    ∃ enclosure, (frame.resume cannotWait).Meets (Turn.Fits enclosure) count ∧
      Frame.MeetAll enclosure count outer := by
  induction meetAll with
  | foot => cases found
  | @push inner enclosure count first below resumes rest inductive_step =>
      rw [barrier?] at found
      split at found
      · cases found
        exact ⟨enclosure, resumes count (Nat.le_refl count) cannotWait trivial, rest⟩
      · exact inductive_step found

/-- A step leads from a sound state to another. -/
theorem Sound.step (sound : Sound count world task)
    (running : task.step options host world = .running next after) :
    ∃ more, count ≤ more ∧ Sound more next after := by
  rcases sound with ⟨store, enclosure, meets, meetAll⟩
  rcases task with ⟨process, stack⟩
  cases meets with
  | @done _ turn fits =>
      cases turn with
      | answer outcome =>
          cases meetAll with
          | foot => cases running
          | @push inner enclosure count frame outer resumes rest =>
              cases running
              have resumed := resumes count (Nat.le_refl count) outcome fits
              exact ⟨count, Nat.le_refl count, store, enclosure, resumed, rest⟩
      | again goal =>
          cases running
          exact ⟨count, Nat.le_refl count, store, enclosure,
            Evaluation.meets_ofGoal options host fits, meetAll⟩
  | @act _ action next fits rest =>
      rw [step_act] at running
      cases running
      rcases World.sound_perform options store action fits with ⟨more, grows, storeSound, answers⟩
      exact ⟨more, grows, storeSound, enclosure, rest more grows _ answers, meetAll.mono grows⟩
  | @wait _ reason next rest =>
      cases found : barrier? stack with
      | none =>
          rw [step_wait found] at running
          cases running
      | some barrier =>
          rcases barrier with ⟨frame, outer⟩
          rcases meets_cannotWait meetAll found with ⟨enclosure, resumed, rest⟩
          rw [step_wait_barrier found] at running
          cases running
          exact ⟨count, Nat.le_refl count, store, enclosure, resumed, rest⟩
  | @call _ inner goal next fits rest | @drive _ inner goal next fits rest =>
      cases running
      exact ⟨count, Nat.le_refl count, store, inner, Evaluation.meets_ofGoal options host fits,
        .push rest meetAll⟩

/-- A sound state that waits is sound again when it goes on. -/
theorem Sound.wait {between : World} {reason : Wait} (sound : Sound count world task)
    (waiting : task.step options host world = .waiting between reason after)
    (changed : KeepsSound between next) :
    ∃ more, count ≤ more ∧ Sound more next after := by
  rcases eq_of_waiting waiting with ⟨rfl, rest, stack, rfl, rfl⟩
  rcases sound with ⟨store, enclosure, meets, meetAll⟩
  rcases changed count store with ⟨more, grows, storeSound⟩
  cases meets with
  | wait meets => exact ⟨more, grows, storeSound, enclosure, meets more grows, meetAll.mono grows⟩

/-- A sound task that is finished has ended with a value or a proper error. -/
theorem Sound.finished {outcome : Outcome} (sound : Sound count world task)
    (finished : task.step options host world = .finished next outcome) :
    next = world ∧ EndsWithin .script Value.IsKnown count outcome := by
  rcases eq_of_finished finished with ⟨rfl, rfl⟩
  rcases sound with ⟨store, enclosure, meets, meetAll⟩
  cases meetAll with
  | foot =>
      cases meets with
      | done fits => exact ⟨rfl, fits⟩

/-- An error that a sound task answers with is proper. -/
theorem Sound.answer {error : Error} (sound : Sound count world task)
    (answers : task.process = .done (.answer (.error (.error error)))) :
    error.IsProper := by
  rcases sound with ⟨-, enclosure, meets, -⟩
  rw [answers] at meets
  cases meets with
  | done fits => exact fits

/-- A well-scoped script starts in a sound state. -/
theorem sound_ofScript (store : world.store.Sound count) (root : Scope) {script : List Node}
    (wellScoped : Node.areWellScoped script .script) (mode : Mode) :
    Sound count world (ofScript root script mode) := by
  have meets : (Evaluation.process (Evaluation.answering
      (Evaluation.runScript root script mode))).Meets (Turn.Fits .script) count :=
    Evaluation.meets_process
      (Evaluation.meets_answering (Evaluation.meets_runScript root wellScoped mode))
  cases mode with
  | asynchronous => exact ⟨store, .script, meets, .foot⟩
  | synchronous => exact ⟨store, .script, meets, .push (fun _ _ _ ends => .done ends) .foot⟩

/-- Every state that a task reaches from a sound one is sound, if the world stays so meanwhile. -/
theorem Reached.sound {start : World} {current : Task} {goals : List Goal}
    (reached : Reached options host KeepsSound start task world current goals)
    (sound : Sound count start task) :
    ∃ more, count ≤ more ∧ Sound more world current := by
  induction reached with
  | start => exact ⟨count, Nat.le_refl count, sound⟩
  | step _ running inductive_step =>
      rcases inductive_step with ⟨more, grows, sound⟩
      rcases sound.step running with ⟨most, grows', sound⟩
      exact ⟨most, Nat.le_trans grows grows', sound⟩
  | resume _ waiting changed inductive_step =>
      rcases inductive_step with ⟨more, grows, sound⟩
      rcases sound.wait waiting changed with ⟨most, grows', sound⟩
      exact ⟨most, Nat.le_trans grows grows', sound⟩

end Task

/-! ## New interpreters -/

mutual

/-- Whether a datum refers to no value that is found elsewhere. -/
def Datum.isPlain {ρ : Type} : Datum ρ → Bool
  | .arr items => Datum.arePlain items
  | .obj entries => Datum.entriesArePlain entries
  | .errorWith _ information => information.isPlain
  | .reference _ => false
  | .null | .bool _ | .num _ | .str _ | .error _ => true

/-- Whether the elements of an array are plain. -/
def Datum.arePlain {ρ : Type} : List (Datum ρ) → Bool
  | [] => true
  | first :: rest => first.isPlain && Datum.arePlain rest

/-- Whether the entries of an object are plain. -/
def Datum.entriesArePlain {ρ : Type} : List (String × Datum ρ) → Bool
  | [] => true
  | (_, first) :: rest => first.isPlain && Datum.entriesArePlain rest

end

namespace Store

variable {count : Nat}

mutual

/-- A plain datum is built in a sound store without any new functions. -/
theorem sound_build : ∀ (datum : Datum Value) {store : Store}, store.Sound count →
    datum.isPlain → (store.build datum).2.Sound count ∧ (store.build datum).1.IsKnown count
  | .null, _, sound, _ => ⟨sound, trivial⟩
  | .bool _, _, sound, _ => ⟨sound, trivial⟩
  | .num _, _, sound, _ => ⟨sound, trivial⟩
  | .str _, _, sound, _ => ⟨sound, trivial⟩
  | .error _, _, sound, _ => ⟨sound, trivial⟩
  | .errorWith _ information, _, sound, plain => sound_build information sound plain
  | .arr items, _, sound, plain => by
      rcases sound_buildItems items sound plain with ⟨built, known⟩
      exact ⟨built.newArray fun value mem => known value (List.mem_toArray.mp mem), trivial⟩
  | .obj entries, _, sound, plain => by
      rcases sound_buildEntries entries sound plain with ⟨built, known⟩
      refine ⟨built.newObject fun name value bound => ?_, trivial⟩
      rcases Dict.mem_of_find?_ofList bound with ⟨entry, mem, rfl⟩
      exact known entry mem

theorem sound_buildItems : ∀ (items : List (Datum Value)) {store : Store}, store.Sound count →
    Datum.arePlain items → (store.buildItems items).2.Sound count ∧
      ∀ value ∈ (store.buildItems items).1, value.IsKnown count
  | [], _, sound, _ => ⟨sound, nofun⟩
  | first :: rest, _, sound, plain => by
      rcases Bool.and_eq_true_iff.mp plain with ⟨firstPlain, restPlain⟩
      rcases sound_build first sound firstPlain with ⟨built, known⟩
      rcases sound_buildItems rest built restPlain with ⟨builtAll, restKnown⟩
      exact ⟨builtAll, List.forall_mem_cons.mpr ⟨known, restKnown⟩⟩

theorem sound_buildEntries : ∀ (entries : List (String × Datum Value)) {store : Store},
    store.Sound count → Datum.entriesArePlain entries →
      (store.buildEntries entries).2.Sound count ∧
        ∀ entry ∈ (store.buildEntries entries).1, entry.2.IsKnown count
  | [], _, sound, _ => ⟨sound, nofun⟩
  | (_, first) :: rest, _, sound, plain => by
      rcases Bool.and_eq_true_iff.mp plain with ⟨firstPlain, restPlain⟩
      rcases sound_build first sound firstPlain with ⟨built, known⟩
      rcases sound_buildEntries rest built restPlain with ⟨builtAll, restKnown⟩
      exact ⟨builtAll, List.forall_mem_cons.mpr ⟨known, restKnown⟩⟩

end

end Store

namespace Interpreter

/-- Bindings of values that are known among some functions, for a sound store. -/
def SoundBindings (count : Nat) (bound : Dict Variable × Store) : Prop :=
  bound.2.Sound count ∧
    ∀ name found, bound.1.find? name = some found → found.value.IsKnown count

variable {count : Nat} {store : Store} {bindings : Dict Variable}

theorem sound_insert (sound : SoundBindings count (bindings, store)) (name : String)
    {value : Value} (known : value.IsKnown count) :
    SoundBindings count (bindings.insert name (.constant value), store) := by
  refine ⟨sound.1, fun other found present => ?_⟩
  rcases Dict.eq_or_find?_of_insert present with rfl | present
  · exact known
  · exact sound.2 other found present

theorem sound_bindNatives {natives : List Native}
    (own : ∀ native ∈ natives, (Body.native native).Hostless)
    (sound : SoundBindings count (bindings, store)) :
    ∃ more, count ≤ more ∧ SoundBindings more (bindNatives store bindings natives) := by
  induction natives generalizing store bindings count with
  | nil => exact ⟨count, Nat.le_refl count, sound⟩
  | cons native rest inductive_step =>
      rcases List.forall_mem_cons.mp own with ⟨first, others⟩
      have made := sound.1.newFunction (some native.name)
        (show (Body.native native).IsSound count from first)
      have known : (Value.fn ⟨store.functions.size⟩).IsKnown (count + 1) := by
        show store.functions.size < count + 1
        rw [sound.1.size]
        exact Nat.lt_succ_self count
      have before : SoundBindings (count + 1)
          (bindings, (store.newFunction (some native.name) (.native native)).1) :=
        ⟨made, fun name found present => (sound.2 name found present).mono (Nat.le_succ count)⟩
      rcases inductive_step others (sound_insert before native.name known) with ⟨more, grows, bound⟩
      exact ⟨more, Nat.le_trans (Nat.le_succ count) grows, bound⟩

theorem sound_bindConstants {constants : List (String × Datum Value)}
    (plain : ∀ constant ∈ constants, constant.2.isPlain)
    (sound : SoundBindings count (bindings, store)) :
    SoundBindings count (bindConstants store bindings constants) := by
  induction constants generalizing store bindings with
  | nil => exact sound
  | cons constant rest inductive_step =>
      rcases List.forall_mem_cons.mp plain with ⟨first, others⟩
      rcases Store.sound_build constant.2 sound.1 first with ⟨built, known⟩
      exact inductive_step others (sound_insert ⟨built, sound.2⟩ constant.1 known)

/-- The store of an interpreter with plain constants and without functions of the host is sound. -/
theorem sound_create (options : Options) (host : Host)
    {constants : List (String × Datum Value)}
    (plain : ∀ constant ∈ constants, constant.2.isPlain) (inputs : List String) :
    ∃ count, (create options host [] constants inputs).world.store.Sound count := by
  have library : ∀ native ∈ LibraryFunction.all.map Native.library,
      (Body.native native).Hostless := by
    intro native mem
    rcases List.mem_map.mp mem with ⟨function, -, rfl⟩
    trivial
  have empty : SoundBindings 0 (.empty, .empty) :=
    ⟨Store.sound_empty, fun name found present =>
      (Dict.find?_empty_ne_some name found present).elim⟩
  rcases sound_bindNatives library (sound_bindConstants plain empty) with ⟨more, -, bound⟩
  exact ⟨more, bound.1.newLayer bound.2⟩

/-- An error that a script ends with, and that is not kept by the host, is proper. -/
theorem isProper_conclude {options : Options} {delivers : Bool} {outcome : Outcome}
    {world : World} {error : Error}
    (ends : EndsWithin .script Value.IsKnown count outcome)
    (returned : (conclude options delivers outcome world).1 = .error error) :
    error.IsProper := by
  rcases outcome with (signal | failure) | value
  · exact (Evaluation.not_endsWithin_script ends).elim
  · cases delivers with
    | false =>
        cases returned
        exact ends
    | true =>
        unfold conclude at returned
        simp only [Outcome.expectValue, if_true] at returned
        split at returned
        · rename_i handed reached delivered
          cases returned
          have same : error = failure := by
            refine World.eq_of_mem_deliver options world ?_
            rw [delivered]
            rfl
          exact same ▸ ends
        · cases returned
  · cases returned

/--
A well-scoped script never brings about an error of the interpreter itself,
wherever it gets to and however it is suspended: no node, no call and no run
ends with one.  The store is sound in a new interpreter, and it is so again in
every state that a script reaches from a sound one.
-/
theorem isProper_of_wellScoped (options : Options) (host : Host)
    {constants : List (String × Datum Value)}
    (plain : ∀ constant ∈ constants, constant.2.isPlain)
    (inputs : List String) {script : List Node}
    (wellScoped : Node.areWellScoped script .script) (mode : Mode) :
    let interpreter := create options host [] constants inputs
    (∃ count, interpreter.world.store.Sound count) ∧
      ∀ {start : World} {count : Nat}, start.store.Sound count →
        ∀ {world : World} {task : Task} {goals : List Goal},
          Task.Reached options host Task.KeepsSound start
            (Task.ofScript interpreter.root script mode) world task goals →
          (∃ more, count ≤ more ∧ world.store.Sound more) ∧
            (∀ error : Error, task.process = .done (.answer (.error (.error error))) →
              error.IsProper) ∧
            ∀ {reached : World} {outcome : Outcome},
              task.step options host world = .finished reached outcome →
              ∀ (delivers : Bool) (error : Error),
                (conclude options delivers outcome reached).1 = .error error →
                error.IsProper := by
  intro interpreter
  refine ⟨sound_create options host plain inputs, ?_⟩
  intro start count store world task goals reached
  have started := Task.sound_ofScript store interpreter.root wellScoped mode
  rcases reached.sound started with ⟨more, grows, sound⟩
  refine ⟨⟨more, grows, sound.store⟩, fun error answers => sound.answer answers, ?_⟩
  intro last outcome finished delivers error returned
  exact isProper_conclude (sound.finished finished).2 returned

/-- The script `loop #outer { fn() { return null; }(); loop { break #outer; } }`. -/
def leavesOuter : List Node :=
  [.of (.loop (some "outer")
    [.of (.call (.of (.function [] [.of (.returning (.of .null))])) []),
      .of (.loop none [.of (.breaking (some "outer") none)])])]

/-- A script that leaves a function and two loops at once brings about nothing but proper errors. -/
theorem isProper_of_wellScoped_leavesOuter :
    let interpreter := create (.silent 0 0) Host.none [] [("limit", .num (Float.ofNat 3))] []
    let state := Task.stateAfter interpreter.options interpreter.host
      (Task.ofScript interpreter.root leavesOuter .synchronous) 40 interpreter.world []
    Node.areWellScoped leavesOuter .script ∧ (∃ count, state.1.store.Sound count) ∧
      ∀ error : Error, state.2.1.process = .done (.answer (.error (.error error))) →
        error.IsProper := by
  intro interpreter state
  have plain : ∀ constant ∈ ([("limit", .num (Float.ofNat 3))] : List (String × Datum Value)),
      constant.2.isPlain := List.forall_mem_cons.mpr ⟨rfl, nofun⟩
  have wellScoped : Node.areWellScoped leavesOuter .script := by decide
  obtain ⟨⟨count, sound⟩, keeps⟩ :=
    isProper_of_wellScoped (.silent 0 0) Host.none plain [] wellScoped .synchronous
  rcases keeps sound (Task.Reached.start.stateAfter 40) with ⟨⟨more, -, still⟩, proper, -⟩
  exact ⟨wellScoped, ⟨more, still⟩, proper⟩

end Interpreter

end TreeScript
