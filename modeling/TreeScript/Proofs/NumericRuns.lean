import TreeScript.Proofs.Depth
import TreeScript.Proofs.Moments

/-!
# Runs without NaN

Division, exponentiation and remainder end with an error where the arithmetic
of doubles gives no number.  Sums, differences and products give what it gives,
whether they are asked for by a function of the library or by a compound
assignment, and so does reading a text as a number.  Nothing else makes a NaN:
in a run that starts without one, all values are free of it precisely when
those operations give none (`Interpreter.nan_free_iff`).
-/

namespace TreeScript

/-- The kind of all numbers but NaN. -/
abbrev Double.IsNumber (number : Float) : Prop :=
  number.isNaN = false

theorem Double.isKind_isNumber : IsKind IsNumber :=
  ⟨fun _ => id, fun number given => (isNaN_neg number).trans given⟩

/-! ## New interpreters -/

section Creation

variable {numbers : Float → Prop}

mutual

/-- All numbers in a datum are of a kind. -/
def Datum.Carries (numbers : Float → Prop) : Datum Value → Prop
  | .num number => numbers number
  | .arr items => Datum.CarryItems numbers items
  | .obj entries => Datum.CarryEntries numbers entries
  | .errorWith _ information => information.Carries numbers
  | .reference value => value.Carries numbers
  | .null | .bool _ | .str _ | .error _ => True

def Datum.CarryItems (numbers : Float → Prop) : List (Datum Value) → Prop
  | [] => True
  | first :: rest => first.Carries numbers ∧ Datum.CarryItems numbers rest

def Datum.CarryEntries (numbers : Float → Prop) : List (String × Datum Value) → Prop
  | [] => True
  | (_, first) :: rest => first.Carries numbers ∧ Datum.CarryEntries numbers rest

end

namespace Store.Contains

mutual

/-- Building a value stores the numbers of its datum. -/
theorem build {store : Store} (contains : store.Contains (Value.Carries numbers)) :
    ∀ datum : Datum Value, datum.Carries numbers →
      (store.build datum).1.Carries numbers ∧
        (store.build datum).2.Contains (Value.Carries numbers)
  | .null, _ | .bool _, _ | .str _, _ | .error _, _ => ⟨trivial, contains⟩
  | .num _, carries => ⟨carries, contains⟩
  | .reference _, carries => ⟨carries, contains⟩
  | .errorWith _ information, carries => contains.build information carries
  | .arr items, carry =>
      have ⟨each, built⟩ := contains.buildItems items carry
      ⟨trivial, built.newArray fun value mem => each value (List.mem_toArray.mp mem)⟩
  | .obj entries, carry =>
      have ⟨each, built⟩ := contains.buildEntries entries carry
      ⟨trivial, built.newObject fun _ _ bound =>
        have ⟨entry, mem, same⟩ := Dict.mem_of_find?_ofList bound
        same ▸ each entry mem⟩

theorem buildItems {store : Store} (contains : store.Contains (Value.Carries numbers)) :
    ∀ items : List (Datum Value), Datum.CarryItems numbers items →
      (∀ value ∈ (store.buildItems items).1, value.Carries numbers) ∧
        (store.buildItems items).2.Contains (Value.Carries numbers)
  | [], _ => ⟨List.forall_mem_nil _, contains⟩
  | first :: rest, carry =>
      have ⟨carries, built⟩ := contains.build first carry.1
      have ⟨each, further⟩ := built.buildItems rest carry.2
      ⟨List.forall_mem_cons.mpr ⟨carries, each⟩, further⟩

theorem buildEntries {store : Store} (contains : store.Contains (Value.Carries numbers)) :
    ∀ entries : List (String × Datum Value), Datum.CarryEntries numbers entries →
      (∀ entry ∈ (store.buildEntries entries).1, entry.2.Carries numbers) ∧
        (store.buildEntries entries).2.Contains (Value.Carries numbers)
  | [], _ => ⟨List.forall_mem_nil _, contains⟩
  | (_, first) :: rest, carry =>
      have ⟨carries, built⟩ := contains.build first carry.1
      have ⟨each, further⟩ := built.buildEntries rest carry.2
      ⟨List.forall_mem_cons.mpr ⟨carries, each⟩, further⟩

end

end Store.Contains

namespace Store.HasOnly

variable {store : Store} (only : store.HasOnly numbers)

theorem empty : Store.empty.HasOnly numbers where
  hostless := hostless_empty
  contains := ⟨nofun, nofun, nofun⟩
  bodies := nofun

include only

theorem newNative (name : Option String) {native : Native}
    (own : (Body.native native).Hostless) :
    (store.newFunction name (.native native)).1.HasOnly numbers where
  hostless := only.hostless.newFunction name own
  contains := only.contains.withFunctions _
  bodies function found present := by
    rw [function?, Store.newFunction, Array.getElem?_push] at present
    split at present
    · cases present
      trivial
    · exact only.bodies function found present

theorem build {datum : Datum Value} (carries : datum.Carries numbers) :
    (store.build datum).1.Carries numbers ∧ (store.build datum).2.HasOnly numbers := by
  obtain ⟨given, contains⟩ := only.contains.build datum carries
  have functions := store.functions_build datum
  refine ⟨given, only.hostless.of_functions functions, contains, ?_⟩
  intro function found present
  rw [function?, functions] at present
  exact only.bodies function found present

end Store.HasOnly

/-- The numbers in the values of some bindings are of a kind. -/
def Variable.CarryAll (numbers : Float → Prop) (bindings : Dict Variable) : Prop :=
  ∀ name bound, bindings.find? name = some bound → bound.value.Carries numbers

namespace Interpreter

theorem carryAll_insert {bindings : Dict Variable} (carry : Variable.CarryAll numbers bindings)
    (name : String) {bound : Variable} (carries : bound.value.Carries numbers) :
    Variable.CarryAll numbers (bindings.insert name bound) := by
  intro sought found present
  rcases Dict.eq_or_find?_of_insert present with rfl | present
  · exact carries
  · exact carry sought found present

theorem hasOnly_bindNatives {natives : List Native}
    (own : ∀ native ∈ natives, (Body.native native).Hostless)
    {store : Store} (only : store.HasOnly numbers)
    {bindings : Dict Variable} (carry : Variable.CarryAll numbers bindings) :
    Variable.CarryAll numbers (bindNatives store bindings natives).1 ∧
      (bindNatives store bindings natives).2.HasOnly numbers := by
  induction natives generalizing store bindings with
  | nil => exact ⟨carry, only⟩
  | cons native rest inductive_step =>
      obtain ⟨first, others⟩ := List.forall_mem_cons.mp own
      exact inductive_step others (only.newNative _ first) (carryAll_insert carry _ trivial)

theorem hasOnly_bindConstants {constants : List (String × Datum Value)}
    (each : ∀ constant ∈ constants, constant.2.Carries numbers)
    {store : Store} (only : store.HasOnly numbers)
    (bindings : Dict Variable) (carry : Variable.CarryAll numbers bindings) :
    Variable.CarryAll numbers (bindConstants store bindings constants).1 ∧
      (bindConstants store bindings constants).2.HasOnly numbers := by
  induction constants generalizing store bindings with
  | nil => exact ⟨carry, only⟩
  | cons constant rest inductive_step =>
      obtain ⟨first, others⟩ := List.forall_mem_cons.mp each
      obtain ⟨carries, built⟩ := only.build first
      exact inductive_step others built _ (carryAll_insert carry _ carries)

/-- A new interpreter has no numbers but those of its constants. -/
theorem hasOnly_create (options : Options) (host : Host)
    {constants : List (String × Datum Value)}
    (each : ∀ constant ∈ constants, constant.2.Carries numbers) (inputs : List String) :
    (create options host [] constants inputs).world.store.HasOnly numbers := by
  have library : ∀ native ∈ LibraryFunction.all.map Native.library,
      (Body.native native).Hostless := by
    intro native mem
    rcases List.mem_map.mp mem with ⟨function, -, rfl⟩
    trivial
  obtain ⟨carry, only⟩ := hasOnly_bindConstants each .empty .empty nofun
  obtain ⟨carry, only⟩ := hasOnly_bindNatives library only carry
  exact ⟨only.hostless.of_functions rfl, only.contains.newLayer carry, only.bodies⟩

end Interpreter

end Creation

/-! ## Operations -/

section

variable {options : Options} {host : Host} {arguments : List Value} {context : Context}
variable {site : Option Position}

/-- What becomes of the answer of a function that only computes with its arguments. -/
theorem Library.process_pure (answer : List Value → Except Error Value) :
    Evaluation.process (Evaluation.answering
      ((Library.pure answer).apply arguments context site)) =
    .done (.answer ((answer arguments).mapError Interrupt.error)) := by
  obtain ⟨calls, mode⟩ := context
  unfold Library.pure NativeForms.apply NativeForms.applyGeneral NativeForms.plain
  cases mode <;> (dsimp only; cases answer arguments <;> rfl)

theorem NativeForms.process_plain (value : Value) :
    Evaluation.process (Evaluation.answering
      ((NativeForms.plain fun _ _ => return value).apply arguments context site)) =
    .done (.answer (.ok value)) := by
  obtain ⟨calls, mode⟩ := context
  cases mode <;> rfl

/-- A function whose answer is not looked at answers whatever it computes. -/
theorem Native.process_of_unchecked {native : Native} {value : Value}
    (given : value ∈ native.unchecked? arguments) :
    Evaluation.process (Evaluation.answering
      ((Evaluation.nativeForms host native).apply arguments context site)) =
    .done (.answer (.ok value)) := by
  have computed {operation : Float → Float → Float}
      (given : value ∈ (Library.arithmetic operation arguments).toOption) :
      (Library.arithmetic operation arguments).mapError Interrupt.error = .ok value := by
    cases answer : Library.arithmetic operation arguments with
    | ok other =>
        rw [answer] at given
        cases given
        rfl
    | error error =>
        rw [answer] at given
        cases given
  unfold Native.unchecked? at given
  split at given
  · exact (Library.process_pure _).trans (by rw [computed given])
  · exact (Library.process_pure _).trans (by rw [computed given])
  · exact (Library.process_pure _).trans (by rw [computed given])
  · exact (NativeForms.process_plain _).trans (by rw [Option.mem_some.mp given])
  · cases given

/-- What a function of the library computes and looks at, and what it calls that. -/
def LibraryFunction.checked? : LibraryFunction → Option (String × (Float → Float → Float))
  | .div => some ("division", fun left right => left / right)
  | .pow => some ("exponentiation", Float.pow)
  | .mod => some ("remainder", Double.remainder)
  | _ => none

/-- A function that looks at what it computes refuses to answer NaN. -/
theorem LibraryFunction.process_of_checked {function : LibraryFunction} {name : String}
    {operation : Float → Float → Float} {left right : Float}
    (checks : function.checked? = some (name, operation))
    (operands : Library.operands arguments = .ok (left, right))
    (undefined : (operation left right).isNaN = true) :
    Evaluation.process (Evaluation.answering
      ((Evaluation.nativeForms host (.library function)).apply arguments context site)) =
    .done (.answer (.error (.error (.of (.invalidOperation (name ++ " produced NaN")))))) := by
  have refused : Library.checked name operation arguments =
      .error (.of (.invalidOperation (name ++ " produced NaN"))) := by
    unfold Library.checked
    rw [operands]
    exact if_pos undefined
  unfold LibraryFunction.checked? at checks
  split at checks
  · cases checks
    exact (Library.process_pure _).trans (by rw [refused]; rfl)
  · cases checks
    exact (Library.process_pure _).trans (by rw [refused]; rfl)
  · cases checks
    exact (Library.process_pure _).trans (by rw [refused]; rfl)
  · cases checks

end

/-! ## Moments -/

/-- The value that is handed on by an outcome, as a result or by a signal. -/
def Outcome.given? : Outcome → Option Value
  | .ok value => some value
  | .error (.signal (.returning value)) => some value
  | .error (.signal (.breaking _ value)) => value
  | .error _ => none

/-- All numbers that are stored, handed on or written at a moment are of a kind. -/
structure Moment.HasOnly (options : Options) (numbers : Float → Prop) (moment : Moment) : Prop where
  stored : moment.world.store.Contains (Value.Carries numbers)
  given : ∀ outcome, moment.task.process = .done (.answer outcome) →
    ∀ value ∈ outcome.given?, value.Carries numbers
  written : ∀ location number next,
    moment.task.process = .act (.write location (.num number)) next →
    (moment.world.perform options (.write location (.num number))).1 = .ok () → numbers number

section

variable {options : Options} {host : Host} {numbers : Float → Prop} {mode : Mode}
variable {meanwhile : World → World → Prop} {moment : Moment}

/-- What outcomes that end alike hand on is of the kind. -/
theorem EndsAlike.carries {fails : Error → Prop} {within : Option (List Binder)}
    {outcome other : Outcome}
    (ended : EndsAlike numbers fails within (Shared (Value.Carries numbers)) outcome other) :
    ∀ value ∈ outcome.given?, value.Carries numbers := by
  rintro value given
  cases ended with
  | error raised => cases given
  | ok result =>
      cases given
      exact result.2
  | signal signals =>
      cases signals with
      | returning carries =>
          cases given
          exact carries
      | breaking labels carries => exact carries value given
      | continuing labels => cases given

namespace Moment

/-- A moment that is in accord with itself has only numbers of the kind. -/
theorem Mirrors.hasOnly {fails : Error → Prop} {relays : Prop} {world : World} {task : Task}
    (mirrors : moment.Mirrors numbers fails relays options host world task)
    (spared : moment.IsSpared options host numbers) :
    moment.HasOnly options numbers where
  stored := mirrors.worlds.store.contains
  given := by
    intro outcome answers
    obtain ⟨world₀, ⟨process, stack⟩, underway⟩ := moment
    obtain ⟨process', stack'⟩ := task
    obtain ⟨-, within, processes, -⟩ := mirrors
    dsimp only at processes answers
    cases processes with
    | called carry => cases answers
    | failing relayed error =>
        cases answers
        nofun
    | works accords =>
        subst answers
        cases accords with
        | done ended =>
            cases ended with
            | answer ended => exact ended.carries
  written := by
    intro location number next writes accepted
    obtain ⟨world₀, ⟨process, stack⟩, underway⟩ := moment
    obtain ⟨process', stack'⟩ := task
    obtain ⟨-, within, processes, -⟩ := mirrors
    dsimp only at processes writes
    cases processes with
    | called carry => cases writes
    | failing relayed error => cases writes
    | works accords =>
        subst writes
        cases accords with
        | act actions rest =>
            cases actions with
            | same carries =>
                rcases carries with carries | ⟨_, same, summed⟩
                · exact carries
                · cases underway with
                  | nil => exact summed.elim
                  | cons undertaking outer =>
                      exact spared.writes undertaking outer location number next rfl summed rfl
                        accepted

/-- If the numbers of all moments are of a kind, then so is what is computed without a check. -/
theorem isSpared_of_hasOnly {start : World} {task : Task}
    (only : ∀ moment, Reached options host meanwhile start task moment →
      moment.HasOnly options numbers)
    (reached : Reached options host meanwhile start task moment) :
    moment.IsSpared options host numbers where
  applies := by
    rintro function arguments context site outer ⟨name, attributes, _⟩ native - calls found rfl
      value given
    obtain ⟨world, ⟨process, stack⟩, underway⟩ := moment
    obtain rfl : process = _ := calls
    have next := only _ (reached.go (.step (Task.step_apply_native found stack)))
    exact next.given _ (Native.process_of_unchecked given) value rfl
  writes _ _ location number next _ _ := (only moment reached).written location number next

/--
In a run that starts with numbers of a kind only, all numbers are of the kind
precisely when those are that nothing looks at.
-/
theorem hasOnly_iff_isSpared (kind : IsKind numbers) {start : World}
    (only : start.store.HasOnly numbers) {script : List Node}
    (written : Node.Write numbers script)
    (keeps : ∀ between next : World, meanwhile between next → next.store.HasOnly numbers)
    (root : Scope) :
    (∀ moment, Reached options host meanwhile start (Task.ofScript root script mode) moment →
      moment.HasOnly options numbers) ↔
    ∀ moment, Reached options host meanwhile start (Task.ofScript root script mode) moment →
      moment.IsSpared options host numbers := by
  refine ⟨fun each moment => isSpared_of_hasOnly each, fun spared moment reached => ?_⟩
  have same := Node.resemble_self (List.forall_mem_nil _) script written
  exact (reached.mirrors_self kind only keeps (Evaluation.accords_scripts kind same)
    spared).hasOnly (spared moment reached)

/-- An operation that is looked at ends with an error instead of NaN. -/
theorem error_of_checked {function : FunctionId} {site : Option Position} {named : Option String}
    {attributes : List Attribute} {operator : LibraryFunction} {name : String}
    {operation : Float → Float → Float} {arguments : List Value} {context : Context}
    {left right : Float}
    (applies : moment.task.process =
      Evaluation.ofGoal options host (.apply function arguments context site))
    (found : moment.world.store.function? function =
      some ⟨named, attributes, .native (.library operator)⟩)
    (checks : operator.checked? = some (name, operation))
    (operands : Library.operands arguments = .ok (left, right))
    (undefined : (operation left right).isNaN = true) :
    (moment.advance options host 1).error? =
      some (.of (.invalidOperation (name ++ " produced NaN"))) := by
  obtain ⟨world, ⟨process, stack⟩, underway⟩ := moment
  obtain rfl : process = _ := applies
  rw [advance, Task.step_apply_native found,
    LibraryFunction.process_of_checked checks operands undefined]
  rfl

end Moment

/-! ## Runs -/

namespace Interpreter

/--
A script of a new interpreter, in whose constants and literals there is no NaN,
has no NaN in a binding or a container and no NaN as the value of anything,
precisely when there is none where nothing looks at what was computed: in the
sums, differences and products of the library, in the compound assignments, and
in the numbers that texts are read as.  Division, exponentiation and remainder
end with an error instead.
-/
theorem nan_free_iff (options : Options) (host : Host) (mode : Mode)
    {constants : List (String × Datum Value)}
    (plain : ∀ constant ∈ constants, constant.2.Carries Double.IsNumber) (inputs : List String)
    {script : List Node} (written : Node.Write Double.IsNumber script)
    (keeps : ∀ between next : World, meanwhile between next →
      next.store.HasOnly Double.IsNumber) :
    let interpreter := create options host [] constants inputs
    ((∀ moment, Moment.Reached options host meanwhile interpreter.world
        (Task.ofScript interpreter.root script mode) moment →
          moment.HasOnly options Double.IsNumber) ↔
      ∀ moment, Moment.Reached options host meanwhile interpreter.world
        (Task.ofScript interpreter.root script mode) moment →
          moment.IsSpared options host Double.IsNumber) ∧
    ∀ (moment : Moment) function arguments context site named attributes operator name operation
        left right,
      moment.task.process =
        Evaluation.ofGoal options host (.apply function arguments context site) →
      moment.world.store.function? function =
        some ⟨named, attributes, .native (.library operator)⟩ →
      operator.checked? = some (name, operation) →
      Library.operands arguments = .ok (left, right) →
      (operation left right).isNaN = true →
      (moment.advance options host 1).error? =
        some (.of (.invalidOperation (name ++ " produced NaN"))) := by
  intro interpreter
  have only : interpreter.world.store.HasOnly Double.IsNumber :=
    hasOnly_create options host plain inputs
  refine ⟨Moment.hasOnly_iff_isSpared Double.isKind_isNumber only written keeps interpreter.root,
    ?_⟩
  intro moment function arguments context site named attributes operator name operation left right
    applies found checks operands undefined
  exact Moment.error_of_checked applies found checks operands undefined

/-- An interpreter with nothing but the library. -/
def calculating : Interpreter :=
  create (.silent 0 0) Host.none [] [] []

/-- The script `1 / 0 - 1 / 0`. -/
def infiniteDifference : List Node :=
  let infinite : Node :=
    .of (.binary .div (.of (.num (Float.ofNat 1))) (.of (.num (Float.ofNat 0))))
  [.of (.binary .sub infinite infinite)]

theorem write_infiniteDifference : Node.Write Double.IsNumber infiniteDifference := by
  unfold Node.Write
  decide +kernel

/-- The difference of two infinities is NaN, so something in the script is not spared. -/
theorem nan_free_iff_infiniteDifference :
    ∃ moment, Moment.Reached calculating.options calculating.host
      (fun _ next => next.store.HasOnly Double.IsNumber) calculating.world
      (Task.ofScript calculating.root infiniteDifference .synchronous) moment ∧
      ¬moment.IsSpared calculating.options calculating.host Double.IsNumber := by
  refine Classical.byContradiction fun none => ?_
  have only := (nan_free_iff calculating.options calculating.host .synchronous
    (List.forall_mem_nil _) [] write_infiniteDifference fun _ _ kept => kept).1.mpr
    fun moment reached => Classical.byContradiction fun unspared =>
      none ⟨moment, reached, unspared⟩
  have last := only _ (Moment.Reached.start.advance 44)
  obtain ⟨number, ended, undefined⟩ : ∃ number,
      (Moment.advance calculating.options calculating.host 44 ⟨calculating.world,
        Task.ofScript calculating.root infiniteDifference .synchronous, []⟩).task.process =
          .done (.answer (.ok (.num number))) ∧ number.isNaN = true :=
    ⟨_, rfl, by decide +kernel⟩
  have defined : number.isNaN = false := last.given _ ended _ rfl
  rw [undefined] at defined
  cases defined

/-- A script without NaN in it, which reads no text as a number, ends with NaN as its value. -/
theorem exists_nan_difference :
    Node.Write Double.IsNumber infiniteDifference ∧
      ∃ number, (calculating.complete 60 1 (calculating.startAtOnce infiniteDifference)).map
          Prod.fst = some (.ok (some (.num number))) ∧ number.isNaN = true :=
  ⟨write_infiniteDifference, _, rfl, by decide +kernel⟩

end Interpreter

end

end TreeScript
