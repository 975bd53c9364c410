import TreeScript.Proofs.Tenants

/-!
# Independent scripts

Two scripts that are started on a new interpreter without functions of the host
do not disturb each other, if they mention no names in common but those of
library functions: however their runs are polled, each of them ends as it does
alone, and leaves its names bound to what they are bound to then.

There are two things that scripts share all the same.  One is the input: two
scripts that ask for it take lines from each other.  The other one is the stop:
where errors that are handed to the host abort, an error of one script stops
the other one too, if that has not ended by then.
-/

namespace TreeScript

/-! ## New interpreters -/

/-- Bindings to functions of the library only, each of them under its name and for good. -/
def Store.BindsLibrary (store : Store) (bindings : Dict Variable) : Prop :=
  ∀ name bound, bindings.find? name = some bound →
    ∃ (function : LibraryFunction) (index : Nat), function.name = name ∧
      bound = .constant (.fn ⟨index⟩) ∧
      store.functions[index]? = some ⟨some function.name, [], .native (.library function)⟩

/-- A store with the library in its root layer. -/
structure Store.HoldsLibrary (store : Store) (root : LayerId) : Prop where
  given : root.index < store.layers.size
  binds : store.BindsLibrary (store.bindings root)
  complete (function : LibraryFunction) : ((store.bindings root).find? function.name).isSome

theorem Store.HoldsLibrary.newLayer {store : Store} {bindings : Dict Variable}
    (binds : store.BindsLibrary bindings)
    (complete : ∀ function : LibraryFunction, (bindings.find? function.name).isSome) :
    (store.newLayer bindings).1.HoldsLibrary (store.newLayer bindings).2 := by
  have same : (store.newLayer bindings).1.bindings (store.newLayer bindings).2 = bindings := by
    simp [Store.bindings, Store.newLayer]
  refine ⟨by simp [Store.newLayer], ?_, fun function => ?_⟩
  · rw [same]
    exact binds
  · rw [same]
    exact complete function

namespace Interpreter

theorem bindsLibrary_bindNatives (functions : List LibraryFunction) {store : Store}
    {bindings : Dict Variable} (binds : store.BindsLibrary bindings) :
    (bindNatives store bindings (functions.map .library)).2.BindsLibrary
      (bindNatives store bindings (functions.map .library)).1 := by
  induction functions generalizing store bindings with
  | nil => exact binds
  | cons function rest inductive_step =>
      refine inductive_step fun name bound found => ?_
      by_cases same : name = function.name
      · subst same
        rw [show Native.name (.library function) = function.name from rfl,
          Dict.find?_insert_self] at found
        cases found
        exact ⟨function, store.functions.size, rfl, rfl, Array.getElem?_push_size⟩
      · rw [show Native.name (.library function) = function.name from rfl,
          Dict.find?_insert_of_ne _ _ same] at found
        obtain ⟨known, index, named, given, held⟩ := binds name bound found
        have within := (Array.getElem?_eq_some_iff.mp held).1
        exact ⟨known, index, named, given, (Array.getElem?_push_lt within).trans
          ((Array.getElem?_eq_getElem within).symm.trans held)⟩

theorem isSome_find?_bindNatives {name : String} (natives : List Native) (store : Store)
    {bindings : Dict Variable}
    (binds : (bindings.find? name).isSome ∨ ∃ native ∈ natives, native.name = name) :
    ((bindNatives store bindings natives).1.find? name).isSome := by
  induction natives generalizing store bindings with
  | nil => exact binds.resolve_right nofun
  | cons native rest inductive_step =>
      refine inductive_step _ ?_
      by_cases same : name = native.name
      · subst same
        rw [Dict.find?_insert_self]
        exact .inl rfl
      · rw [Dict.find?_insert_of_ne _ _ same]
        refine binds.imp_right fun ⟨other, mem, named⟩ => ⟨other, ?_, named⟩
        refine (List.mem_cons.mp mem).resolve_left fun first => same ?_
        rw [← named, first]

/-- A new interpreter without functions of the host has the library in its root layer. -/
theorem holdsLibrary_create (options : Options) (host : Host) (inputs : List String) :
    ∃ root, (create options host [] [] inputs).root = .root root ∧
      (create options host [] [] inputs).world.store.HoldsLibrary root := by
  let natives := LibraryFunction.all.map Native.library
  have complete (function : LibraryFunction) :
      ((bindNatives .empty .empty natives).1.find? function.name).isSome := by
    refine isSome_find?_bindNatives natives .empty (.inr ⟨.library function, ?_, rfl⟩)
    exact List.mem_map.mpr ⟨function, by cases function <;> decide, rfl⟩
  exact ⟨_, rfl, .newLayer (bindsLibrary_bindNatives LibraryFunction.all nofun) complete⟩

end Interpreter

/-- What runs have in common on a new interpreter: some functions of the library, and the root. -/
def Store.libraryLink (store : Store) (root : LayerId) (names : String → Bool) : Link
  | .function, index, index' =>
      index = index' ∧ ∃ function : LibraryFunction, names function.name ∧
        store.functions[index]? = some ⟨some function.name, [], .native (.library function)⟩
  | .layer, index, index' => index = index' ∧ index = root.index
  | _, _, _ => False

namespace Store

variable {store : Store} {root : LayerId} {names others : String → Bool}

theorem libraryLink_eq {kind : HandleKind} {index index' : Nat}
    (pair : store.libraryLink root names kind index index') : index = index' := by
  cases kind with
  | array | object => exact pair.elim
  | function | layer => exact pair.1

/-- A store with a library is linked to itself by the functions that are known, and the root. -/
theorem HoldsLibrary.linked (holds : store.HoldsLibrary root) (names : String → Bool) :
    store.Linked names (store.libraryLink root names) store where
  matching :=
    ⟨fun pair pair' => (libraryLink_eq pair).symm.trans (libraryLink_eq pair'),
      fun pair pair' => (libraryLink_eq pair).trans (libraryLink_eq pair').symm⟩
  arrays := False.elim
  objects := False.elim
  functions := by
    rintro index _ ⟨rfl, function, named, found⟩
    rw [found]
    exact .some ⟨rfl, .library named, rfl, rfl⟩
  layers := by
    rintro _ _ ⟨rfl, rfl⟩
    have cell : store.layers[root.index]? = some (store.bindings root) := by
      unfold bindings
      rw [Array.getElem?_eq_getElem holds.given]
      rfl
    rw [cell]
    refine .some fun name named => ?_
    cases found : (store.bindings root).find? name with
    | none => exact .none
    | some bound =>
        obtain ⟨function, index, rfl, rfl, held⟩ := holds.binds name bound found
        exact .some (.plain false (.fn ⟨rfl, function, named, held⟩))

theorem HoldsLibrary.inside (holds : store.HoldsLibrary root) (names : String → Bool) :
    (store.libraryLink root names).Inside store store := by
  rintro (_ | _ | _ | _) index index' pair
  · exact pair.elim
  · exact pair.elim
  · obtain ⟨rfl, function, -, found⟩ := pair
    have within := (Array.getElem?_eq_some_iff.mp found).1
    exact ⟨within, within⟩
  · obtain ⟨rfl, rfl⟩ := pair
    exact ⟨holds.given, holds.given⟩

/-- Runs that have no names in common but those of the library are apart at the beginning. -/
theorem HoldsLibrary.apart (holds : store.HoldsLibrary root)
    (library : ∀ name, names name → others name →
      ∃ function : LibraryFunction, function.name = name) :
    (store.libraryLink root names).Apart names others (store.libraryLink root others) store where
  arrays pair := pair.elim
  objects pair := pair.elim
  functions := by
    rintro index _ _ ⟨rfl, function, -, found⟩ -
    exact ⟨_, found, nofun⟩
  layers := by
    rintro index _ _ name ⟨rfl, rfl⟩ - named named'
    obtain ⟨function, rfl⟩ := library name named named'
    obtain ⟨bound, found⟩ := Option.isSome_iff_exists.mp (holds.complete function)
    obtain ⟨_, _, _, rfl, _⟩ := holds.binds _ bound found
    exact ⟨_, found, rfl⟩

end Store

/-! ## Tenants of a new session -/

/-- A run that has just been started is mirrored by itself. -/
theorem Tenant.runs_start {created : Interpreter} (hostless : created.world.store.Hostless)
    (tenant : Tenant) {link : Link}
    (worlds : World.Linked created.options tenant.names link created.world created.world)
    (root : created.root.Linked link created.root) :
    tenant.Runs created link created.world created.world (some (created.start tenant.script)) := by
  obtain ⟨id, script, names, keeps⟩ := tenant
  cases script with
  | nil => exact .nothing rfl fun _ => rfl
  | cons statement rest =>
      let task : Task :=
        .ofRule (Evaluation.runScript created.root (statement :: rest) .asynchronous)
      have mirrors : task.Mirrors created.options names link created.world created.world task := by
        have carries : task.Carries False (fun _ => True) [] [] :=
          .plain (Evaluation.carries_runScript fun _ _ => trivial) .foot
        refine ⟨worlds, fun widest extension => ⟨?_, .nil⟩, .start hostless carries⟩
        exact Evaluation.linked_process (Evaluation.linked_answering
          (Evaluation.linked_runScript (root.mono extension.within) keeps))
      exact .underway rfl (.inl rfl) mirrors fun _ _ _ ends => ends

/-- Tenants that have no names in common but those of the library. -/
structure Tenant.IsApartFrom (one two : Tenant) : Prop where
  ids : one.id ≠ two.id
  library (name : String) : one.names name → two.names name →
    ∃ function : LibraryFunction, function.name = name

namespace Session

/-- A new session in which two tenants have been started serves them. -/
theorem serves_start (options : Options) (host : Host) (inputs : List String) {one two : Tenant}
    (apart : one.IsApartFrom two) :
    let created : Interpreter := .create options host [] [] inputs
    ∃ link foreign, Serves created one two link foreign created.world created.world
      (((start created).remember one.id (created.start one.script)).remember two.id
        (created.start two.script)) := by
  intro created
  obtain ⟨root, isRoot, holds⟩ := Interpreter.holdsLibrary_create options host inputs
  have worlds (tenant : Tenant) : World.Linked created.options tenant.names
      (created.world.store.libraryLink root tenant.names) created.world created.world :=
    ⟨holds.linked tenant.names, holds.inside tenant.names, rfl, rfl, fun _ => rfl⟩
  have roots (tenant : Tenant) :
      created.root.Linked (created.world.store.libraryLink root tenant.names) created.root := by
    rw [show created.root = .root root from isRoot]
    exact .root ⟨rfl, rfl⟩
  have hostless : created.world.store.Hostless := Interpreter.hostless_create _ _ _ _
  refine ⟨_, _, rfl, .inl rfl, ⟨worlds one, worlds two, holds.apart apart.library⟩,
    ⟨roots one, roots two⟩, ?_, ?_, fun id notOne notTwo => ?_⟩
  · rw [lookup_remember_ne _ apart.ids, lookup_remember_self]
    exact one.runs_start hostless (worlds one) (roots one)
  · rw [lookup_remember_self]
    exact two.runs_start hostless (worlds two) (roots two)
  · rw [lookup_remember_ne _ notTwo, lookup_remember_ne _ notOne]
    rfl

/--
Independent scripts.  Two scripts without namespaces and attributes are started
on a new interpreter without functions of the host and without a step limit, and
have no names in common but those of library functions.  Unless both of them can
ask for input, each of them ends as it does alone, in whatever order they are
polled, and leaves its names bound to the same values.
-/
theorem independent_scripts_end_as_alone {options : Options} (unlimited : options.stepLimit = 0)
    (host : Host) (inputs : List String) {one two : Tenant} (apart : one.IsApartFrom two)
    (exclusive : ¬(options.Asks one.names ∧ options.Asks two.names))
    {begun joint : Session} {fuel fuel' : Nat}
    (startedOne : (start (.create options host [] [] inputs)).answer fuel
      (.start one.id (some one.script)) = some (.silent, begun))
    (startedTwo : begun.answer fuel' (.start two.id (some two.script)) =
      some (.silent, joint)) :
    joint.EndsAsAlone (.create options host [] [] inputs) one ∧
      joint.EndsAsAlone (.create options host [] [] inputs) two := by
  cases startedOne
  cases startedTwo
  obtain ⟨link, foreign, serves⟩ := serves_start options host inputs apart
  exact ⟨serves.endsAsAlone unlimited apart.ids exclusive,
    serves.symm.endsAsAlone unlimited apart.ids.symm fun asks => exclusive asks.symm⟩

/-! ## Scripts in turns -/

/-- A session after polls of some runs. -/
def polled (session : Session) (ids : List String) : Session :=
  ids.foldl (fun session id => session.asked 40 (.poll id none)) session

theorem polls_polled (session : Session) (ids : List String) :
    session.Polls (session.polled ids) := by
  induction ids using List.reverseRecOn with
  | nil => exact .start
  | append_singleton ids id inductive_step =>
      rw [polled, List.foldl_concat]
      show session.Polls ((session.polled ids).asked 40 (.poll id none))
      rw [asked]
      split
      · rename_i answered
        exact inductive_step.poll answered
      · exact inductive_step

/-- A new session in which two tenants have been started. -/
def begun (created : Interpreter) (one two : Tenant) : Session :=
  ((start created).asked 40 (.start one.id (some one.script))).asked 40
    (.start two.id (some two.script))

/-- A tenant that makes an array of one text and keeps it under a name. -/
def keeper (id text name : String) : Tenant where
  id := id
  script := [
    .of (.definition (.of (.identifier name)) (.of (.arr [.of (.str text)])) false []),
    .of (.identifier name)]
  names := (· == name)
  keeps := by simp [Node.keepTo, Node.of, Node.keepsTo, Shape.keepsTo]

/-- Two tenants that are polled in turns and yield before every step. -/
theorem independent_scripts_end_as_alone_in_turns :
    let created := yielding.interpreter
    let one := keeper "one" "a" "first"
    let two := keeper "two" "b" "second"
    let joint := begun created one two
    let last := (joint.polled ["one", "two", "one", "two", "one", "two", "one", "two"]).polled
      ["one", "two"]
    joint.EndsAsAlone created one ∧ joint.EndsAsAlone created two ∧ last.runs.isEmpty = true ∧
      (last.world.store.lookup? created.root "second").map Variable.value =
        some (.arr ⟨1⟩) := by
  intro created one two joint last
  have apart : one.IsApartFrom two := by
    refine ⟨by decide, fun name isFirst isSecond => ?_⟩
    have same : "first" = "second" := (beq_iff_eq.mp isFirst).symm.trans (beq_iff_eq.mp isSecond)
    exact absurd same (by decide)
  have exclusive : ¬(created.options.Asks one.names ∧ created.options.Asks two.names) :=
    fun asks => nomatch (show false = true from asks.1.1)
  have startedOne : (start created).answer 40 (.start one.id (some one.script)) =
      some (.silent, (start created).asked 40 (.start one.id (some one.script))) := rfl
  have startedTwo : ((start created).asked 40 (.start one.id (some one.script))).answer 40
      (.start two.id (some two.script)) = some (.silent, joint) := rfl
  obtain ⟨endsOne, endsTwo⟩ :=
    independent_scripts_end_as_alone rfl Host.none [] apart exclusive startedOne startedTwo
  exact ⟨endsOne, endsTwo, by decide +kernel, by decide +kernel⟩

/-- More fuel does not change how a script runs. -/
theorem answer_execute_mono {session : Session} {fuel more : Nat} (enough : fuel ≤ more)
    {script : List Node} {result : Answer × Session}
    (answered : session.answer fuel (.execute .asynchronous (some script) none) = some result) :
    session.answer more (.execute .asynchronous (some script) none) = some result := by
  unfold Session.answer Session.complete at answered ⊢
  dsimp only at answered ⊢
  split at answered
  · rename_i completed
    rw [Interpreter.complete_mono enough enough completed]
    exact answered
  · cases answered

/-- In some order of polls that completes all runs, a tenant does not end as its script alone. -/
def EndsOtherwise (created : Interpreter) (tenant : Tenant) (joint : Session) : Prop :=
  ∃ before after fuel verdict, joint.Polls before ∧
    before.answer fuel (.poll tenant.id none) = some (.verdict verdict, after) ∧
    after.runs = [] ∧
    ∀ enough alone,
      (start created).answer enough (.execute .asynchronous (some tenant.script) none) ≠
        some (.verdict verdict, alone)

/-- The text of the value that a request was answered with, if there is one. -/
def toldText : Option (Answer × Session) → Option String
  | some (.verdict (.ok (some value)), _) => some value.display
  | _ => none

theorem exists_value_of_toldText {answered : Option (Answer × Session)} {text : String}
    (told : toldText answered = some text) :
    ∃ value after, answered = some (.verdict (.ok (some value)), after) ∧ value.display = text := by
  unfold toldText at told
  split at told
  · exact ⟨_, _, rfl, Option.some.inj told⟩
  · cases told

theorem endsOtherwise_of_toldText {created : Interpreter} {tenant : Tenant}
    {joint before : Session} {text other : String} (polls : joint.Polls before)
    (told : toldText (before.answer 40 (.poll tenant.id none)) = some text)
    (completed : (before.asked 40 (.poll tenant.id none)).runs.isEmpty = true)
    (alone : toldText ((start created).answer 40
      (.execute .asynchronous (some tenant.script) none)) = some other)
    (differ : text ≠ other) :
    joint.EndsOtherwise created tenant := by
  obtain ⟨value, after, answered, rfl⟩ := exists_value_of_toldText told
  obtain ⟨value', single, answered', rfl⟩ := exists_value_of_toldText alone
  rw [asked, answered] at completed
  refine ⟨before, after, 40, _, polls, answered, List.isEmpty_iff.mp completed,
    fun enough ended same => ?_⟩
  have first := answer_execute_mono (Nat.le_max_left enough 40) same
  have second := answer_execute_mono (Nat.le_max_right enough 40) answered'
  cases first.symm.trans second
  exact differ rfl

/-- A tenant that asks for a line of input. -/
def asker (id : String) : Tenant where
  id := id
  script := [.of (.call (.of (.identifier "readline")) [.of (.str "line?")])]
  names := (· == "readline")
  keeps := by simp [Node.keepTo, Node.of, Node.keepsTo, Shape.keepsTo]

/-- A tenant that reads a name that nothing is bound to. -/
def failer (id : String) : Tenant where
  id := id
  script := [.of (.identifier "missing")]
  names := (· == "missing")
  keeps := by simp [Node.keepTo, Node.of, Node.keepsTo, Shape.keepsTo]

/-- A tenant whose value is a text. -/
def sayer (id text : String) : Tenant where
  id := id
  script := [.of (.str text)]
  names _ := false
  keeps := by simp [Node.keepTo, Node.of, Node.keepsTo, Shape.keepsTo]

/-- An interpreter whose host has two lines to answer prompts with. -/
def prompting : Interpreter :=
  .create { Options.silent 0 0 with hasInput := true } Host.none [] [] ["a", "b"]

/-- An interpreter that is stopped by the first error that its host is handed. -/
def aborting : Interpreter :=
  .create { Options.silent 0 0 with reportsErrors := true, abortOnError := true } Host.none [] []
    []

/-- A session in which the error of one tenant has stopped the other one. -/
def spoiled : Session where
  interpreter :=
    { aborting with world := { aborting.world with steps := 1, lifecycle := .stopped } }
  runs := [("two", aborting.start (sayer "two" "b").script)]
  saved := []

theorem polls_spoiled : (begun aborting (failer "one") (sayer "two" "b")).Polls spoiled := by
  let failed : World := { aborting.world with steps := 1 }
  obtain ⟨error, ran⟩ : ∃ error, Task.run aborting.options aborting.host 40 aborting.world
      (.ofRule (Evaluation.runScript aborting.root (failer "one").script .asynchronous)) =
        some (.finished failed (.error (.error error))) := ⟨_, rfl⟩
  have stops : failed.transition .abort = { failed with lifecycle := .stopped } := by
    unfold World.transition
    rw [show failed.lifecycle = .initial from rfl, Lifecycle.initial_abort]
    rfl
  have polled : aborting.poll 40 (aborting.start (failer "one").script) =
      some (.ended (.ok none), { aborting with
        world := ({ failed with lifecycle := .stopped } : World).record (.failure error) }) := by
    rw [Interpreter.poll_of_ready _ _ rfl rfl, ran, ← stops]
    rfl
  have answered :
      (begun aborting (failer "one") (sayer "two" "b")).answer 40 (.poll "one" none) =
        some (.verdict (.ok none), spoiled.withWorld (spoiled.world.record (.failure error))) := by
    have found : (begun aborting (failer "one") (sayer "two" "b")).runs.lookup "one" =
      some (aborting.start (failer "one").script) := rfl
    have interpreter :
        (begun aborting (failer "one") (sayer "two" "b")).interpreter = aborting := rfl
    unfold Session.answer
    dsimp only
    rw [found, interpreter]
    dsimp only
    rw [polled]
    rfl
  exact (Polls.start.poll answered).takeEvents

/--
Scripts that ask for input take lines from each other, and where errors abort,
an error of one script stops the other one.
-/
theorem not_all_scripts_end_as_alone :
    ((asker "one").IsApartFrom (asker "two") ∧
      (begun prompting (asker "one") (asker "two")).EndsOtherwise prompting (asker "two")) ∧
    (failer "one").IsApartFrom (sayer "two" "b") ∧
      (begun aborting (failer "one") (sayer "two" "b")).EndsOtherwise aborting
        (sayer "two" "b") := by
  refine ⟨⟨⟨by decide, ?_⟩, ?_⟩, ⟨by decide, nofun⟩, ?_⟩
  · exact fun name isReadline _ => ⟨.readline, (beq_iff_eq.mp isReadline).symm⟩
  · have told : toldText (((begun prompting (asker "one") (asker "two")).polled ["one"]).answer 40
        (.poll "two" none)) = some "b" := by decide +kernel
    have alone : toldText ((start prompting).answer 40
        (.execute .asynchronous (some (asker "two").script) none)) = some "a" := by decide +kernel
    exact endsOtherwise_of_toldText (polls_polled _ ["one"]) told (by decide +kernel) alone
      (by decide)
  · have told : toldText (spoiled.answer 40 (.poll "two" none)) = some "null" := by
      decide +kernel
    have alone : toldText ((start aborting).answer 40
        (.execute .asynchronous (some (sayer "two" "b").script) none)) = some "b" := by
      decide +kernel
    exact endsOtherwise_of_toldText polls_spoiled told (by decide +kernel) alone (by decide)

end Session

end TreeScript
