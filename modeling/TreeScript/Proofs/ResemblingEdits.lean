import TreeScript.Machine.Action
import TreeScript.Proofs.EditAgreement
import TreeScript.Proofs.ResemblingStores
import TreeScript.Proofs.SoundEdit

/-!
# Actions on stores that differ in labels

Worlds resemble each other if their stores do and everything else is the same.
Actions that are the same but for labels lead from such worlds to such worlds,
and their replies are the same, but for the stores that are looked at.  Besides,
what an action replies carries only numbers of the kind, and an error that it
replies has no position yet.
-/

namespace TreeScript

/-! ## Results -/

/-- An error that has not been located yet. -/
def Error.IsBare (error : Error) : Prop :=
  error = .of error.cause

/-- A result with a property, or an error that has not been located. -/
def Answered {α : Type} (holds : α → Prop) : Except Error α → Prop
  | .ok result => holds result
  | .error error => error.IsBare

namespace Answered

variable (value : Value)

theorem asBool : Answered (fun _ => True) value.asBool := by
  cases value <;> trivial

theorem asStr : Answered (fun _ => True) value.asStr := by
  cases value <;> trivial

theorem asArr : Answered (fun _ => True) value.asArr := by
  cases value <;> trivial

theorem asObj : Answered (fun _ => True) value.asObj := by
  cases value <;> trivial

theorem asFn : Answered (fun _ => True) value.asFn := by
  cases value <;> trivial

theorem asNum {numbers : Float → Prop} {value : Value} (carries : value.Carries numbers) :
    Answered numbers value.asNum := by
  cases value with
  | num number => exact carries
  | _ => rfl

end Answered

/-! ## Worlds -/

section

variable (numbers : Float → Prop)

/-- Worlds that are the same but for labels in the bodies of functions. -/
structure World.Resembles (world other : World) : Prop where
  rest : other = { world with store := other.store }
  store : world.store.Resembles numbers other.store

/-- Edits that give the same results, and worlds that resemble each other. -/
def Edit.Resembles {α : Type} (holds : α → Prop) (edit other : Edit α) : Prop :=
  ∀ world world' : World, world.Resembles numbers world' →
    (other.run.run world').1 = (edit.run.run world).1 ∧
      Answered holds (edit.run.run world).1 ∧
        (edit.run.run world).2.Resembles numbers (other.run.run world').2

end

variable {numbers : Float → Prop}

namespace World.Resembles

variable {world other : World} (resembles : world.Resembles numbers other)

include resembles

/-- Another store in both worlds. -/
theorem withStore {store store' : Store} (stores : store.Resembles numbers store') :
    Resembles numbers { world with store := store } { other with store := store' } where
  rest := by
    rw [resembles.rest]
  store := stores

theorem record (event : Event Snapshot) :
    (world.record event).Resembles numbers (other.record event) where
  rest := by
    rw [resembles.rest]
    rfl
  store := resembles.store

theorem log (options : Options) (name : String) (scope bound : Option String)
    (value : Option Value) :
    (world.log options name scope bound value).Resembles numbers
      (other.log options name scope bound value) := by
  unfold World.log
  split
  · have snapshots : other.store.snapshot options.detail = world.store.snapshot options.detail :=
      funext (resembles.store.snapshot options.detail)
    rw [snapshots]
    exact resembles.record _
  · exact resembles

end World.Resembles

/-! ## Edits -/

namespace Edit

variable {α β : Type}

section Closure

variable {holds : α → Prop} {holdsAfter : β → Prop}

theorem resembles_pure {result : α} (given : holds result) :
    Resembles numbers holds (pure result) (pure result) :=
  fun _ _ worlds => ⟨rfl, given, worlds⟩

theorem resembles_throw {error : Error} (bare : error.IsBare) :
    Resembles numbers holds (throw error) (throw error) :=
  fun _ _ worlds => ⟨rfl, bare, worlds⟩

theorem resembles_ofExcept {result : Except Error α} (answered : Answered holds result) :
    Resembles numbers holds (liftM result) (liftM result) := by
  cases result with
  | ok value => exact resembles_pure answered
  | error error => exact resembles_throw answered

theorem Resembles.bind {edit other : Edit α} (resembles : Resembles numbers holds edit other)
    {continuation continuation' : α → Edit β}
    (goesOn : ∀ result, holds result →
      Resembles numbers holdsAfter (continuation result) (continuation' result)) :
    Resembles numbers holdsAfter (edit >>= continuation) (other >>= continuation') := by
  intro world world' worlds
  obtain ⟨same, answered, reached⟩ := resembles world world' worlds
  rw [run_bind, run_bind]
  generalize edit.run.run world = ran at same answered reached ⊢
  generalize other.run.run world' = ran' at same reached ⊢
  rcases ran with ⟨result, after⟩
  rcases ran' with ⟨result', after'⟩
  obtain rfl : result' = result := same
  cases result' with
  | error error => exact ⟨rfl, answered, reached⟩
  | ok result => exact goesOn result answered after after' reached

/-- What follows a look at the store sees stores that resemble each other. -/
theorem resembles_store_bind {continuation continuation' : Store → Edit β}
    (goesOn : ∀ seen other : Store, seen.Resembles numbers other →
      Resembles numbers holdsAfter (continuation seen) (continuation' other)) :
    Resembles numbers holdsAfter (store >>= continuation) (store >>= continuation') :=
  fun world world' worlds => goesOn world.store world'.store worlds.store world world' worlds

theorem resembles_change {change : Store → Store}
    (keeps : ∀ store other : Store, store.Resembles numbers other →
      (change store).Resembles numbers (change other)) :
    Resembles numbers (fun _ => True) (modify fun world => world.mapStore change)
      (modify fun world => world.mapStore change) :=
  fun _ _ worlds => ⟨rfl, trivial, worlds.withStore (keeps _ _ worlds.store)⟩

theorem resembles_log (options : Options) (name : String) (scope : Scope) (bound : String)
    (value : Value) :
    Resembles numbers (fun _ => True) (log options name scope bound value)
      (log options name scope bound value) :=
  fun _ _ worlds => ⟨rfl, trivial, worlds.log options name _ _ _⟩

end Closure

/-! ### Values -/

theorem resembles_newArray {items : Array Value}
    (carry : ∀ value ∈ items, value.Carries numbers) :
    Resembles numbers (Value.Carries numbers) (newArray items) (newArray items) := by
  intro world world' worlds
  obtain ⟨stores, handles⟩ := worlds.store.newArray carry
  exact ⟨congrArg (fun array => Except.ok (Value.arr array)) handles, trivial,
    worlds.withStore stores⟩

theorem carries_ofList {entries : List (String × Value)}
    (carry : ∀ entry ∈ entries, entry.2.Carries numbers) (name : String) (value : Value)
    (bound : (Dict.ofList entries).find? name = some value) :
    value.Carries numbers := by
  obtain ⟨entry, mem, rfl⟩ := Dict.mem_of_find?_ofList bound
  exact carry entry mem

theorem resembles_newObject {entries : List (String × Value)}
    (carry : ∀ entry ∈ entries, entry.2.Carries numbers) :
    Resembles numbers (Value.Carries numbers) (newObject entries) (newObject entries) := by
  intro world world' worlds
  obtain ⟨stores, handles⟩ := worlds.store.newObject (carries_ofList carry)
  exact ⟨congrArg (fun object => Except.ok (Value.obj object)) handles, trivial,
    worlds.withStore stores⟩

/-! ### Names -/

variable (options : Options)

theorem resembles_readName (scope : Scope) (name : String) :
    Resembles numbers (Value.Carries numbers) (readName options scope name)
      (readName options scope name) := by
  refine resembles_store_bind fun store other stores => ?_
  rw [stores.lookup?]
  split
  · rename_i found present
    exact (resembles_log options "var:read" scope name _).bind fun _ _ =>
      resembles_pure (stores.contains.lookup present)
  · exact resembles_throw rfl

theorem resembles_register {bound : Variable} (carries : bound.value.Carries numbers)
    (registrations : List (Scope × String)) :
    Resembles numbers (fun _ => True) (register options bound registrations)
      (register options bound registrations) := by
  induction registrations with
  | nil => exact resembles_pure trivial
  | cons place rest inductive_step =>
      refine (resembles_log options "var:add" place.1 place.2 bound.value).bind fun _ _ => ?_
      refine resembles_store_bind fun store other stores => ?_
      dsimp only
      rw [stores.bindings]
      split
      · exact resembles_throw rfl
      · exact (resembles_change fun store other stores => stores.bind _ _ carries).bind
          fun _ _ => inductive_step

theorem resembles_assign (scope : Scope) (name : String) {value : Value}
    (carries : value.Carries numbers) :
    Resembles numbers (fun _ => True) (assign options scope name value)
      (assign options scope name value) := by
  refine (resembles_log options "var:write" scope name value).bind fun _ _ => ?_
  refine resembles_store_bind fun store other stores => ?_
  rw [stores.findBinding?]
  split
  · split
    · exact resembles_change fun store other stores => stores.bind _ _ carries
    · exact resembles_throw rfl
  · exact resembles_throw rfl

/-! ### Patterns and locations -/

theorem carries_headD {values : List Value} (carry : ∀ value ∈ values, value.Carries numbers) :
    (values.headD .null).Carries numbers := by
  cases values with
  | nil => trivial
  | cons value rest => exact carry value List.mem_cons_self

theorem carries_tail {values : List Value} (carry : ∀ value ∈ values, value.Carries numbers) :
    ∀ value ∈ values.tail, value.Carries numbers :=
  fun value mem => carry value (List.mem_of_mem_tail mem)

theorem carries_getD {values : Dict Value}
    (carry : ∀ name value, values.find? name = some value → value.Carries numbers)
    (name : String) :
    ((values.find? name).getD .null).Carries numbers := by
  cases bound : values.find? name with
  | none => trivial
  | some value => exact carry name value bound

theorem carries_toList {items : Array Value} (carry : ∀ value ∈ items, value.Carries numbers) :
    ∀ value ∈ items.toList, value.Carries numbers :=
  fun value mem => carry value (Array.mem_toList_iff.mp mem)

section Recursion

variable (options : Options)

mutual

/-- Destructuring looks at the shape of a pattern only, in which no label matters. -/
theorem resembles_define (scope : Scope) (isMutable : Bool) :
    ∀ (pattern other : Node) (value : Value) {binders : List Binder},
      pattern.Resembles numbers binders other → value.Carries numbers →
      Resembles numbers (fun _ => True) (define options scope isMutable pattern value)
        (define options scope isMutable other value)
  | .mk shape span, .mk shape' span', value, _, patterns, carries => by
      cases patterns with
      | mk shapes =>
          cases shapes with
          | identifier name => exact resembles_register options carries _
          | arr each =>
              refine (resembles_ofExcept (Answered.asArr value)).bind fun array _ => ?_
              refine resembles_store_bind fun store other stores => ?_
              rw [stores.items]
              exact resembles_defineItems scope isMutable _ _ _ each
                (carries_toList (stores.contains.items array))
          | obj each =>
              refine (resembles_ofExcept (Answered.asObj value)).bind fun object _ => ?_
              refine resembles_store_bind fun store other stores => ?_
              rw [stores.entries]
              exact resembles_defineEntries scope isMutable _ _ _ each
                (stores.contains.entries object)
          | _ => exact resembles_throw rfl

theorem resembles_defineItems (scope : Scope) (isMutable : Bool) :
    ∀ (patterns others : List Node) (values : List Value) {binders : List Binder},
      Node.Resemble numbers binders patterns others →
      (∀ value ∈ values, value.Carries numbers) →
      Resembles numbers (fun _ => True) (defineItems options scope isMutable patterns values)
        (defineItems options scope isMutable others values)
  | [], _, _, _, each, _ => by
      cases each
      exact resembles_pure trivial
  | pattern :: rest, _, _, _, each, carry => by
      cases each with
      | cons first others =>
          exact (resembles_define scope isMutable pattern _ _ first (carries_headD carry)).bind
            fun _ _ => resembles_defineItems scope isMutable rest _ _ others (carries_tail carry)

theorem resembles_defineEntries (scope : Scope) (isMutable : Bool) :
    ∀ (patterns others : List (String × Node)) (values : Dict Value) {binders : List Binder},
      Node.EntriesResemble numbers binders patterns others →
      (∀ name value, values.find? name = some value → value.Carries numbers) →
      Resembles numbers (fun _ => True) (defineEntries options scope isMutable patterns values)
        (defineEntries options scope isMutable others values)
  | [], _, _, _, each, _ => by
      cases each
      exact resembles_pure trivial
  | (name, pattern) :: rest, _, _, _, each, carry => by
      cases each with
      | cons first others =>
          exact (resembles_define scope isMutable pattern _ _ first (carries_getD carry name)).bind
            fun _ _ => resembles_defineEntries scope isMutable rest _ _ others carry

end

theorem resembles_decorate (scope : Scope) {target other : Node} {binders : List Binder}
    (targets : target.Resembles numbers binders other) (value : Value)
    (attributes : List Attribute) :
    Resembles numbers (fun _ => True) (decorate scope target value attributes)
      (decorate scope other value attributes) := by
  unfold decorate
  split
  · exact resembles_pure trivial
  · refine (resembles_change fun store other stores =>
      stores.setAttributes value attributes).bind fun _ _ => ?_
    cases targets with
    | mk shapes =>
        cases shapes with
        | identifier name =>
            exact resembles_change fun store other stores => stores.describe _ _ _
        | _ => exact resembles_pure trivial

mutual

theorem resembles_read : ∀ location : Location,
    Resembles numbers (Value.Carries numbers) (read options location) (read options location)
  | .name scope name => resembles_readName options scope name
  | .element array index => by
      refine resembles_store_bind fun store other stores => ?_
      dsimp only
      rw [stores.items]
      split
      · rename_i value found
        obtain ⟨place, -, present⟩ := Option.bind_eq_some_iff.mp found
        exact resembles_pure (stores.contains.items array value (Array.mem_of_getElem? present))
      · exact resembles_throw rfl
  | .entry object name =>
      resembles_store_bind fun store other stores => by
        rw [stores.entry]
        exact resembles_pure (stores.contains.entry trivial object name)
  | .items locations =>
      (resembles_readItems locations).bind fun _ carry =>
        resembles_newArray fun value mem => carry value (List.mem_toArray.mp mem)
  | .entries locations =>
      (resembles_readEntries locations).bind fun _ carry => resembles_newObject carry

theorem resembles_readItems : ∀ locations : List Location,
    Resembles numbers (fun values => ∀ value ∈ values, value.Carries numbers)
      (readItems options locations) (readItems options locations)
  | [] => resembles_pure (List.forall_mem_nil _)
  | location :: rest =>
      (resembles_read location).bind fun _ first =>
        (resembles_readItems rest).bind fun _ others =>
          resembles_pure (List.forall_mem_cons.mpr ⟨first, others⟩)

theorem resembles_readEntries : ∀ locations : List (String × Location),
    Resembles numbers (fun entries => ∀ entry ∈ entries, entry.2.Carries numbers)
      (readEntries options locations) (readEntries options locations)
  | [] => resembles_pure (List.forall_mem_nil _)
  | (_, location) :: rest =>
      (resembles_read location).bind fun _ first =>
        (resembles_readEntries rest).bind fun _ others =>
          resembles_pure (List.forall_mem_cons.mpr ⟨first, others⟩)

end

mutual

theorem resembles_write : ∀ (location : Location) (value : Value), value.Carries numbers →
    Resembles numbers (fun _ => True) (write options location value)
      (write options location value)
  | .name scope name, value, carries => resembles_assign options scope name carries
  | .element array index, value, carries => by
      refine resembles_store_bind fun store other stores => ?_
      dsimp only
      rw [stores.items]
      split
      · exact resembles_change fun store other stores => stores.setItem array _ carries
      · exact resembles_throw rfl
  | .entry object name, _, carries =>
      resembles_change fun _ _ stores => stores.setEntry object name carries
  | .items locations, value, _ =>
      (resembles_ofExcept (Answered.asArr value)).bind fun array _ =>
        resembles_store_bind fun store other stores => by
          rw [stores.items]
          exact resembles_writeItems locations _ (carries_toList (stores.contains.items array))
  | .entries locations, value, _ =>
      (resembles_ofExcept (Answered.asObj value)).bind fun object _ =>
        resembles_store_bind fun store other stores => by
          rw [stores.entries]
          exact resembles_writeEntries locations _ (stores.contains.entries object)

theorem resembles_writeItems : ∀ (locations : List Location) (values : List Value),
    (∀ value ∈ values, value.Carries numbers) →
    Resembles numbers (fun _ => True) (writeItems options locations values)
      (writeItems options locations values)
  | [], _, _ => resembles_pure trivial
  | location :: rest, _, carry =>
      (resembles_write location _ (carries_headD carry)).bind fun _ _ =>
        resembles_writeItems rest _ (carries_tail carry)

theorem resembles_writeEntries : ∀ (locations : List (String × Location)) (values : Dict Value),
    (∀ name value, values.find? name = some value → value.Carries numbers) →
    Resembles numbers (fun _ => True) (writeEntries options locations values)
      (writeEntries options locations values)
  | [], _, _ => resembles_pure trivial
  | (name, location) :: rest, values, carry =>
      (resembles_write location _ (carries_getD carry name)).bind fun _ _ =>
        resembles_writeEntries rest values carry

end

end Recursion

/-! ### Writing a number that is refused -/

section Refusals

/-- Edits that give the same results and worlds that resemble each other where they fail. -/
def ResemblesFailing (numbers : Float → Prop) (edit other : Edit Unit) : Prop :=
  ∀ world world' : World, world.Resembles numbers world' →
    (edit.run.run world).1 ≠ .ok () →
      (other.run.run world').1 = (edit.run.run world).1 ∧
        Answered (fun _ => True) (edit.run.run world).1 ∧
          (edit.run.run world).2.Resembles numbers (other.run.run world').2

theorem resemblesFailing_throw {error : Error} (bare : error.IsBare) :
    ResemblesFailing numbers (throw error) (throw error) :=
  fun _ _ worlds _ => ⟨rfl, bare, worlds⟩

theorem resemblesFailing_modify (change : World → World) (other : Edit Unit) :
    ResemblesFailing numbers (modify change) other :=
  fun _ _ _ failed => (failed rfl).elim

theorem Resembles.bind_failing {holds : α → Prop} {edit other : Edit α}
    (resembles : Resembles numbers holds edit other) {continuation continuation' : α → Edit Unit}
    (goesOn : ∀ result, holds result →
      ResemblesFailing numbers (continuation result) (continuation' result)) :
    ResemblesFailing numbers (edit >>= continuation) (other >>= continuation') := by
  intro world world' worlds
  obtain ⟨same, answered, reached⟩ := resembles world world' worlds
  rw [run_bind, run_bind]
  generalize edit.run.run world = ran at same answered reached ⊢
  generalize other.run.run world' = ran' at same reached ⊢
  rcases ran with ⟨result, after⟩
  rcases ran' with ⟨result', after'⟩
  obtain rfl : result' = result := same
  cases result' with
  | error error => exact fun _ => ⟨rfl, answered, reached⟩
  | ok result => exact goesOn result answered after after' reached

theorem resemblesFailing_store_bind {continuation continuation' : Store → Edit Unit}
    (goesOn : ∀ seen other : Store, seen.Resembles numbers other →
      ResemblesFailing numbers (continuation seen) (continuation' other)) :
    ResemblesFailing numbers (store >>= continuation) (store >>= continuation') :=
  fun world world' worlds => goesOn world.store world'.store worlds.store world world' worlds

/-- A number is written at once or not at all, whatever kind it is of. -/
theorem resemblesFailing_write (options : Options) (location : Location) (number : Float) :
    ResemblesFailing numbers (write options location (.num number))
      (write options location (.num number)) := by
  cases location with
  | name scope name =>
      refine (resembles_log options "var:write" scope name _).bind_failing fun _ _ => ?_
      refine resemblesFailing_store_bind fun seen other stores => ?_
      rw [stores.findBinding?]
      split
      · split
        · exact resemblesFailing_modify _ _
        · exact resemblesFailing_throw rfl
      · exact resemblesFailing_throw rfl
  | element array index =>
      refine resemblesFailing_store_bind fun seen other stores => ?_
      dsimp only
      rw [stores.items]
      split
      · exact resemblesFailing_modify _ _
      · exact resemblesFailing_throw rfl
  | entry object name => exact resemblesFailing_modify _ _
  | items locations | entries locations =>
      exact resemblesFailing_throw rfl

end Refusals

end Edit

/-! ## Actions -/

namespace Action

section

variable (numbers sums : Float → Prop)

/--
An action of a script that holds no nodes, and values only in which all numbers
are of a kind.  A number that is written somewhere may also be one of some sums.
-/
def Carries : Action → Prop
  | .write _ value => value.Carries numbers ∨ ∃ number, value = .num number ∧ sums number
  | .newLayer bindings =>
      ∀ name bound, bindings.find? name = some bound → bound.value.Carries numbers
  | .newArray items => ∀ value ∈ items, value.Carries numbers
  | .newObject entries => ∀ entry ∈ entries, entry.2.Carries numbers
  | .push _ value => value.Carries numbers
  | .define _ _ _ _ | .decorate _ _ _ _ | .newFunction _ _ => False
  | .deliver _ | .transition _ | .mention _ | .subscribe _ _ | .unsubscribe _ _ => False
  | _ => True

/-- What an action replies in worlds that resemble each other. -/
def Gives : (action : Action) → action.Reply → action.Reply → Prop
  | .store, seen, other => Store.Resembles numbers seen other
  | .readName _ _, reply, other => other = reply ∧ Answered (Value.Carries numbers) reply
  | .read _, reply, other => other = reply ∧ Answered (Value.Carries numbers) reply
  | .write _ _, reply, other => other = reply ∧ Answered (fun _ => True) reply
  | .pop _, reply, other => other = reply ∧ Value.Carries numbers reply
  | _, reply, other => other = reply

/-- Actions that are the same but for labels, and what they reply. -/
inductive Resembles :
    (action other : Action) → (action.Reply → other.Reply → Prop) → Prop where
  | same {action : Action} (carries : action.Carries numbers sums) :
      Resembles action action (action.Gives numbers)
  | define {scope : Scope} {isMutable : Bool} {pattern other : Node} {value : Value}
      {binders : List Binder} (patterns : pattern.Resembles numbers binders other)
      (carries : value.Carries numbers) :
      Resembles (.define scope isMutable pattern value) (.define scope isMutable other value)
        fun reply reply' => reply' = reply ∧ Answered (fun _ => True) reply
  | decorate {scope : Scope} {target other : Node} {value : Value} {attributes : List Attribute}
      {binders : List Binder} (targets : target.Resembles numbers binders other) :
      Resembles (.decorate scope target value attributes) (.decorate scope other value attributes)
        fun reply reply' => reply' = reply ∧ Answered (fun _ => True) reply
  | newFunction {name : Option String} {body other : Body}
      (bodies : body.Resembles numbers other) :
      Resembles (.newFunction name body) (.newFunction name other) fun reply reply' =>
        reply' = reply

end

end Action

namespace World

variable (options : Options) {world other : World}

theorem Resembles.ask (resembles : world.Resembles numbers other) (prompt : String) :
    (other.ask options prompt).1 = (world.ask options prompt).1 ∧
      (world.ask options prompt).2.Resembles numbers (other.ask options prompt).2 := by
  have inputs : other.inputs = world.inputs := by
    rw [resembles.rest]
  unfold World.ask
  split
  · refine ⟨congrArg (fun lines : List String => some (lines.headD "")) inputs, ?_⟩
    have asked := resembles.record (.prompt prompt)
    constructor
    · dsimp only
      rw [asked.rest, inputs]
    · exact asked.store
  · exact ⟨rfl, resembles⟩

/-- Actions that are the same but for labels keep worlds that resemble each other so. -/
theorem resembles_perform (worlds : world.Resembles numbers other) {action action' : Action}
    {replies : action.Reply → action'.Reply → Prop}
    (actions : Action.Resembles numbers numbers action action' replies) :
    replies (world.perform options action).1 (other.perform options action').1 ∧
      (world.perform options action).2.Resembles numbers (other.perform options action').2 := by
  cases actions with
  | define patterns carries =>
      obtain ⟨same, answered, reached⟩ :=
        Edit.resembles_define options _ _ _ _ _ patterns carries world other worlds
      exact ⟨⟨same, answered⟩, reached⟩
  | decorate targets =>
      obtain ⟨same, answered, reached⟩ :=
        Edit.resembles_decorate _ targets _ _ world other worlds
      exact ⟨⟨same, answered⟩, reached⟩
  | newFunction bodies =>
      obtain ⟨stores, handles⟩ := worlds.store.newFunction _ bodies
      exact ⟨handles, worlds.withStore stores⟩
  | same carries =>
      cases action with
      | store => exact ⟨worlds.store, worlds⟩
      | isStopped | pause | steps =>
          refine ⟨?_, worlds⟩
          rw [worlds.rest]
          rfl
      | tick =>
          refine ⟨?_, ?_, worlds.store⟩
          · rw [worlds.rest]
            rfl
          · show { other with steps := _ } = _
            rw [worlds.rest]
            rfl
      | readName scope name =>
          obtain ⟨same, answered, reached⟩ :=
            Edit.resembles_readName options scope name world other worlds
          exact ⟨⟨same, answered⟩, reached⟩
      | read location =>
          obtain ⟨same, answered, reached⟩ :=
            Edit.resembles_read options location world other worlds
          exact ⟨⟨same, answered⟩, reached⟩
      | write location value =>
          have carried : value.Carries numbers := by
            rcases carries with carried | ⟨number, rfl, carried⟩ <;> exact carried
          obtain ⟨same, answered, reached⟩ :=
            Edit.resembles_write options location value carried world other worlds
          exact ⟨⟨same, answered⟩, reached⟩
      | newLayer bindings =>
          obtain ⟨stores, handles⟩ := worlds.store.newLayer carries
          exact ⟨handles, worlds.withStore stores⟩
      | newArray items =>
          obtain ⟨stores, handles⟩ := worlds.store.newArray carries
          exact ⟨handles, worlds.withStore stores⟩
      | newObject entries =>
          obtain ⟨stores, handles⟩ := worlds.store.newObject (Edit.carries_ofList carries)
          exact ⟨handles, worlds.withStore stores⟩
      | nameFunction function name =>
          exact ⟨rfl, worlds.withStore (worlds.store.nameFunction function name)⟩
      | push array value => exact ⟨rfl, worlds.withStore (worlds.store.push array carries)⟩
      | pop array =>
          refine ⟨⟨?_, ?_⟩, worlds.withStore (worlds.store.pop array)⟩
          · show ((other.store.items array).back?.getD .null) =
              ((world.store.items array).back?.getD .null)
            rw [worlds.store.items]
          · show ((world.store.items array).back?.getD .null).Carries numbers
            cases last : (world.store.items array).back? with
            | none => trivial
            | some value =>
                exact worlds.store.contains.items array value (Array.mem_of_back? last)
      | log name scope value => exact ⟨rfl, worlds.log options name scope none value⟩
      | print value =>
          refine ⟨rfl, ?_⟩
          dsimp only [perform]
          split
          · rw [worlds.store.snapshot]
            exact worlds.record _
          · exact worlds
      | note value =>
          refine ⟨rfl, ?_⟩
          dsimp only [perform]
          rw [worlds.store.snapshot]
          exact worlds.record _
      | yielded =>
          refine ⟨rfl, ?_⟩
          have steps : other.steps = world.steps := by
            rw [worlds.rest]
          dsimp only [perform]
          rw [steps]
          exact worlds.record _
      | ask prompt => exact worlds.ask options prompt
      | _ => exact carries.elim

/--
Actions that may write a number of another kind keep worlds that resemble each other so,
if it is refused where it is of another kind.
-/
theorem resembles_perform_spared {sums : Float → Prop} (worlds : world.Resembles numbers other)
    {action action' : Action} {replies : action.Reply → action'.Reply → Prop}
    (actions : Action.Resembles numbers sums action action' replies)
    (spared : ∀ location number, action = .write location (.num number) → sums number →
      (world.perform options (.write location (.num number))).1 = .ok () → numbers number) :
    replies (world.perform options action).1 (other.perform options action').1 ∧
      (world.perform options action).2.Resembles numbers (other.perform options action').2 := by
  cases actions with
  | define patterns carries =>
      exact resembles_perform options worlds (.define patterns carries)
  | decorate targets => exact resembles_perform options worlds (.decorate targets)
  | newFunction bodies => exact resembles_perform options worlds (.newFunction bodies)
  | same carries =>
      cases action with
      | write location value =>
          rcases carries with carries | ⟨number, rfl, summed⟩
          · exact resembles_perform options worlds (.same (.inl carries))
          · by_cases written : (world.perform options (.write location (.num number))).1 = .ok ()
            · exact resembles_perform options worlds
                (.same (.inl (spared location number rfl summed written)))
            · obtain ⟨same, answered, reached⟩ :=
                Edit.resemblesFailing_write options location number world other worlds written
              exact ⟨⟨same, answered⟩, reached⟩
      | _ => exact resembles_perform options worlds (.same carries)

end World

end TreeScript
