import TreeScript.Machine.Action
import TreeScript.Proofs.EditAgreement
import TreeScript.Proofs.SoundStore

/-!
# Actions on sound stores

Edits and actions keep a store sound, as long as they are given values that are
known in it; and what they reply is known in it, or is an error that a script
may bring about.  Only the creation of a function makes more functions known.
-/

namespace TreeScript

/-- An error that a script may bring about: any but one of the interpreter itself. -/
def Error.IsProper (error : Error) : Prop :=
  match error.cause with
  | .internal _ => False
  | _ => True

/-- A result with a property, or a proper error. -/
def Replies {α : Type} (holds : α → Prop) : Except Error α → Prop
  | .ok result => holds result
  | .error error => error.IsProper

namespace Replies

variable (value : Value)

theorem asBool : Replies (fun _ => True) value.asBool := by
  cases value <;> trivial

theorem asNum : Replies (fun _ => True) value.asNum := by
  cases value <;> trivial

theorem asStr : Replies (fun _ => True) value.asStr := by
  cases value <;> trivial

theorem asArr : Replies (fun _ => True) value.asArr := by
  cases value <;> trivial

theorem asObj : Replies (fun _ => True) value.asObj := by
  cases value <;> trivial

/-- The function that a known value is, is known. -/
theorem asFn {count : Nat} {value : Value} (known : value.IsKnown count) :
    Replies (fun function => (Value.fn function).IsKnown count) value.asFn := by
  cases value with
  | fn function => exact known
  | _ => trivial

end Replies

theorem World.store_log (options : Options) (name : String) (scope bound : Option String)
    (value : Option Value) (world : World) :
    (world.log options name scope bound value).store = world.store := by
  unfold World.log
  split <;> rfl

/-! ## Edits -/

namespace Edit

variable {α β : Type} {count : Nat}

/-- An edit that keeps a sound store sound, and what it gives. -/
def Keeps (count : Nat) (holds : α → Prop) (edit : Edit α) : Prop :=
  ∀ world : World, world.store.Sound count →
    (edit.run.run world).2.store.Sound count ∧ Replies holds (edit.run.run world).1

section Closure

variable {holds : α → Prop} {holdsAfter : β → Prop}

theorem keeps_pure {result : α} (given : holds result) : Keeps count holds (pure result) :=
  fun _ sound => ⟨sound, given⟩

theorem keeps_throw {error : Error} (proper : error.IsProper) :
    Keeps count holds (throw error) :=
  fun _ sound => ⟨sound, proper⟩

theorem keeps_ofExcept {result : Except Error α} (replies : Replies holds result) :
    Keeps count holds (liftM result) := by
  cases result with
  | ok value => exact keeps_pure replies
  | error error => exact keeps_throw replies

theorem Keeps.bind {edit : Edit α} (keeps : Keeps count holds edit)
    {continuation : α → Edit β}
    (goesOn : ∀ result, holds result → Keeps count holdsAfter (continuation result)) :
    Keeps count holdsAfter (edit >>= continuation) := by
  intro world sound
  have kept := keeps world sound
  rw [run_bind]
  generalize edit.run.run world = ran at kept ⊢
  rcases ran with ⟨error | result, reached⟩
  · exact kept
  · exact goesOn result kept.2 reached kept.1

theorem keeps_store : Keeps count (Store.Sound count) store :=
  fun _ sound => ⟨sound, sound⟩

theorem keeps_change {change : Store → Store}
    (keeps : ∀ store : Store, store.Sound count → (change store).Sound count) :
    Keeps count (fun _ => True) (modify fun world => world.mapStore change) :=
  fun world sound => ⟨keeps world.store sound, trivial⟩

theorem keeps_log (options : Options) (name : String) (scope : Scope) (bound : String)
    (value : Value) :
    Keeps count (fun _ => True) (log options name scope bound value) := by
  intro world sound
  refine ⟨?_, trivial⟩
  show (world.log options name (some scope.name) (some bound) (some value)).store.Sound count
  rw [World.store_log]
  exact sound

end Closure

/-! ### Values -/

theorem keeps_newArray {items : Array Value} (known : ∀ value ∈ items, value.IsKnown count) :
    Keeps count (Value.IsKnown count) (newArray items) :=
  fun _ sound => ⟨sound.newArray known, trivial⟩

theorem keeps_newObject {entries : List (String × Value)}
    (known : ∀ entry ∈ entries, entry.2.IsKnown count) :
    Keeps count (Value.IsKnown count) (newObject entries) := by
  intro world sound
  refine ⟨sound.newObject fun name value bound => ?_, trivial⟩
  rcases Dict.mem_of_find?_ofList bound with ⟨entry, mem, rfl⟩
  exact known entry mem

/-! ### Names -/

variable (options : Options)

theorem keeps_readName (scope : Scope) (name : String) :
    Keeps count (Value.IsKnown count) (readName options scope name) := by
  refine keeps_store.bind ?_
  intro store sound
  split
  · rename_i found present
    exact (keeps_log options "var:read" scope name _).bind fun _ _ =>
      keeps_pure (sound.lookup present)
  · exact keeps_throw trivial

theorem keeps_register {bound : Variable} (known : bound.value.IsKnown count)
    (registrations : List (Scope × String)) :
    Keeps count (fun _ => True) (register options bound registrations) := by
  induction registrations with
  | nil => exact keeps_pure trivial
  | cons registration rest inductive_step =>
      refine (keeps_log options "var:add" registration.1 registration.2 bound.value).bind ?_
      intro _ _
      refine keeps_store.bind ?_
      intro store _
      split
      · exact keeps_throw trivial
      · exact (keeps_change fun store sound => sound.bind _ _ known).bind fun _ _ =>
          inductive_step

theorem keeps_assign (scope : Scope) (name : String) {value : Value}
    (known : value.IsKnown count) :
    Keeps count (fun _ => True) (assign options scope name value) := by
  refine (keeps_log options "var:write" scope name value).bind ?_
  intro _ _
  refine keeps_store.bind ?_
  intro store _
  split
  · split
    · exact keeps_change fun store sound => sound.bind _ _ known
    · exact keeps_throw trivial
  · exact keeps_throw trivial

/-! ### Patterns and locations -/

theorem isKnown_headD {values : List Value} (known : ∀ value ∈ values, value.IsKnown count) :
    (values.headD .null).IsKnown count := by
  cases values with
  | nil => trivial
  | cons value rest => exact known value List.mem_cons_self

theorem isKnown_tail {values : List Value} (known : ∀ value ∈ values, value.IsKnown count) :
    ∀ value ∈ values.tail, value.IsKnown count :=
  fun value mem => known value (List.mem_of_mem_tail mem)

theorem isKnown_getD {values : Dict Value}
    (known : ∀ name value, values.find? name = some value → value.IsKnown count)
    (name : String) :
    ((values.find? name).getD .null).IsKnown count := by
  cases bound : values.find? name with
  | none => trivial
  | some value => exact known name value bound

theorem isKnown_toList {items : Array Value} (known : ∀ value ∈ items, value.IsKnown count) :
    ∀ value ∈ items.toList, value.IsKnown count :=
  fun value mem => known value (Array.mem_toList_iff.mp mem)

section Recursion

variable (options : Options)

mutual

theorem keeps_define (scope : Scope) (isMutable : Bool) :
    ∀ (pattern : Node) (value : Value), value.IsKnown count →
      Keeps count (fun _ => True) (define options scope isMutable pattern value)
  | .mk shape span, value, known => by
      cases shape with
      | identifier name => exact keeps_register options known _
      | arr patterns =>
          refine (keeps_ofExcept (Replies.asArr value)).bind ?_
          intro array _
          refine keeps_store.bind ?_
          intro store sound
          exact keeps_defineItems scope isMutable patterns _ (isKnown_toList (sound.items array))
      | obj patterns =>
          refine (keeps_ofExcept (Replies.asObj value)).bind ?_
          intro object _
          refine keeps_store.bind ?_
          intro store sound
          exact keeps_defineEntries scope isMutable patterns _ (sound.entries object)
      | _ => exact keeps_throw trivial

theorem keeps_defineItems (scope : Scope) (isMutable : Bool) :
    ∀ (patterns : List Node) (values : List Value), (∀ value ∈ values, value.IsKnown count) →
      Keeps count (fun _ => True) (defineItems options scope isMutable patterns values)
  | [], _, _ => keeps_pure trivial
  | pattern :: rest, _, known =>
      (keeps_define scope isMutable pattern _ (isKnown_headD known)).bind fun _ _ =>
        keeps_defineItems scope isMutable rest _ (isKnown_tail known)

theorem keeps_defineEntries (scope : Scope) (isMutable : Bool) :
    ∀ (patterns : List (String × Node)) (values : Dict Value),
      (∀ name value, values.find? name = some value → value.IsKnown count) →
      Keeps count (fun _ => True) (defineEntries options scope isMutable patterns values)
  | [], _, _ => keeps_pure trivial
  | (name, pattern) :: rest, values, known =>
      (keeps_define scope isMutable pattern _ (isKnown_getD known name)).bind fun _ _ =>
        keeps_defineEntries scope isMutable rest values known

end

theorem keeps_decorate (scope : Scope) (target : Node) (value : Value)
    (attributes : List Attribute) :
    Keeps count (fun _ => True) (decorate scope target value attributes) := by
  unfold decorate
  split
  · exact keeps_pure trivial
  · refine (keeps_change fun store sound => sound.setAttributes value attributes).bind ?_
    intro _ _
    split
    · exact keeps_change fun store sound => sound.describe _ _ _
    · exact keeps_pure trivial

mutual

theorem keeps_read : ∀ location : Location,
    Keeps count (Value.IsKnown count) (read options location)
  | .name scope name => keeps_readName options scope name
  | .element array index => by
      refine keeps_store.bind ?_
      intro store sound
      dsimp only
      split
      · rename_i value found
        rcases Option.bind_eq_some_iff.mp found with ⟨place, -, present⟩
        exact keeps_pure (sound.items array value (Array.mem_of_getElem? present))
      · exact keeps_throw trivial
  | .entry object name =>
      keeps_store.bind fun _ sound => keeps_pure (sound.entry object name)
  | .items locations =>
      (keeps_readItems locations).bind fun _ known =>
        keeps_newArray fun value mem => known value (List.mem_toArray.mp mem)
  | .entries locations =>
      (keeps_readEntries locations).bind fun _ known => keeps_newObject known

theorem keeps_readItems : ∀ locations : List Location,
    Keeps count (fun values => ∀ value ∈ values, value.IsKnown count) (readItems options locations)
  | [] => keeps_pure nofun
  | location :: rest =>
      (keeps_read location).bind fun _ first =>
        (keeps_readItems rest).bind fun _ others =>
          keeps_pure (List.forall_mem_cons.mpr ⟨first, others⟩)

theorem keeps_readEntries : ∀ locations : List (String × Location),
    Keeps count (fun entries => ∀ entry ∈ entries, entry.2.IsKnown count)
      (readEntries options locations)
  | [] => keeps_pure nofun
  | (_, location) :: rest =>
      (keeps_read location).bind fun _ first =>
        (keeps_readEntries rest).bind fun _ others =>
          keeps_pure (List.forall_mem_cons.mpr ⟨first, others⟩)

end

mutual

theorem keeps_write : ∀ (location : Location) (value : Value), value.IsKnown count →
    Keeps count (fun _ => True) (write options location value)
  | .name scope name, value, known => keeps_assign options scope name known
  | .element array index, value, known => by
      refine keeps_store.bind ?_
      intro store _
      dsimp only
      split
      · refine keeps_change fun store sound => sound.modifyItems array ?_
        intro items before other mem
        rcases Array.mem_or_eq_of_mem_setIfInBounds mem with present | rfl
        · exact before other present
        · exact known
      · exact keeps_throw trivial
  | .entry object name, _, known => keeps_change fun _ sound => sound.setEntry object name known
  | .items locations, value, _ =>
      (keeps_ofExcept (Replies.asArr value)).bind fun array _ =>
        keeps_store.bind fun _ sound =>
          keeps_writeItems locations _ (isKnown_toList (sound.items array))
  | .entries locations, value, _ =>
      (keeps_ofExcept (Replies.asObj value)).bind fun object _ =>
        keeps_store.bind fun _ sound => keeps_writeEntries locations _ (sound.entries object)

theorem keeps_writeItems : ∀ (locations : List Location) (values : List Value),
    (∀ value ∈ values, value.IsKnown count) →
    Keeps count (fun _ => True) (writeItems options locations values)
  | [], _, _ => keeps_pure trivial
  | location :: rest, _, known =>
      (keeps_write location _ (isKnown_headD known)).bind fun _ _ =>
        keeps_writeItems rest _ (isKnown_tail known)

theorem keeps_writeEntries : ∀ (locations : List (String × Location)) (values : Dict Value),
    (∀ name value, values.find? name = some value → value.IsKnown count) →
    Keeps count (fun _ => True) (writeEntries options locations values)
  | [], _, _ => keeps_pure trivial
  | (name, location) :: rest, values, known =>
      (keeps_write location _ (isKnown_getD known name)).bind fun _ _ =>
        keeps_writeEntries rest values known

end

end Recursion

end Edit

/-! ## Actions -/

namespace Action

/-- An action that is given nothing but what is known, and functions that are sound. -/
def Fits (count : Nat) : Action → Prop
  | .define _ _ _ value => value.IsKnown count
  | .write _ value => value.IsKnown count
  | .newLayer bindings =>
      ∀ name bound, bindings.find? name = some bound → bound.value.IsKnown count
  | .newArray items => ∀ value ∈ items, value.IsKnown count
  | .newObject entries => ∀ entry ∈ entries, entry.2.IsKnown count
  | .newFunction _ body => body.IsSound count
  | .push _ value => value.IsKnown count
  | _ => True

/-- What an action may reply when there are `count` functions. -/
def Answers (count : Nat) : (action : Action) → action.Reply → Prop
  | .store, seen => Store.Sound count seen
  | .readName _ _, reply => Replies (Value.IsKnown count) reply
  | .define _ _ _ _, reply => Replies (fun _ => True) reply
  | .decorate _ _ _ _, reply => Replies (fun _ => True) reply
  | .read _, reply => Replies (Value.IsKnown count) reply
  | .write _ _, reply => Replies (fun _ => True) reply
  | .newFunction _ _, function => (Value.fn function).IsKnown count
  | .pop _, value => value.IsKnown count
  | .deliver error, reply => error.IsProper → ∀ returned ∈ reply, returned.IsProper
  | _, _ => True

end Action

namespace World

variable (options : Options) {world : World} {count : Nat}

theorem store_handler (world : World) (tag : String) (response : Response) :
    (world.handler tag response).2.store = world.store := by
  unfold handler
  split <;> rfl

theorem store_deliver (world : World) (error : Error) :
    (world.deliver options error).2.store = world.store := by
  unfold deliver
  split
  · split
    · split <;> rfl
    · rfl
  · rfl

theorem store_ask (world : World) (prompt : String) :
    (world.ask options prompt).2.store = world.store := by
  unfold ask
  split <;> rfl

/-- An error that is handed to the host and returned is the same. -/
theorem eq_of_mem_deliver {error returned : Error} (world : World)
    (mem : returned ∈ (world.deliver options error).1) :
    returned = error := by
  unfold deliver at mem
  split at mem
  · split at mem
    · split at mem <;> cases mem
    · cases mem
  · cases mem
    rfl

/-- An action that fits keeps the store sound, and replies as it may. -/
theorem sound_perform (sound : world.store.Sound count) (action : Action)
    (fits : action.Fits count) :
    ∃ more, count ≤ more ∧ (world.perform options action).2.store.Sound more ∧
      action.Answers more (world.perform options action).1 := by
  have keep {reached : World} {answered : Prop} (same : reached.store = world.store)
      (answers : answered) :
      ∃ more, count ≤ more ∧ reached.store.Sound more ∧ answered :=
    ⟨count, Nat.le_refl count, same ▸ sound, answers⟩
  cases action with
  | store => exact ⟨count, Nat.le_refl count, sound, sound⟩
  | readName scope name =>
      exact ⟨count, Nat.le_refl count, Edit.keeps_readName options scope name world sound⟩
  | define scope isMutable pattern value =>
      exact ⟨count, Nat.le_refl count,
        Edit.keeps_define options scope isMutable pattern value fits world sound⟩
  | decorate scope target value attributes =>
      exact ⟨count, Nat.le_refl count,
        Edit.keeps_decorate scope target value attributes world sound⟩
  | read location => exact ⟨count, Nat.le_refl count, Edit.keeps_read options location world sound⟩
  | write location value =>
      exact ⟨count, Nat.le_refl count, Edit.keeps_write options location value fits world sound⟩
  | newLayer bindings => exact ⟨count, Nat.le_refl count, sound.newLayer fits, trivial⟩
  | newArray items => exact ⟨count, Nat.le_refl count, sound.newArray fits, trivial⟩
  | newObject entries =>
      refine ⟨count, Nat.le_refl count, sound.newObject fun name value bound => ?_, trivial⟩
      rcases Dict.mem_of_find?_ofList bound with ⟨entry, mem, rfl⟩
      exact fits entry mem
  | newFunction name body =>
      refine ⟨count + 1, Nat.le_succ count, sound.newFunction name fits, ?_⟩
      show world.store.functions.size < count + 1
      rw [sound.size]
      exact Nat.lt_succ_self count
  | nameFunction function name =>
      exact ⟨count, Nat.le_refl count, sound.nameFunction function name, trivial⟩
  | push array value =>
      have pushed : (world.store.modifyItems array fun items => items.push value).Sound count := by
        refine sound.modifyItems array ?_
        intro items before other mem
        rcases Array.mem_push.mp mem with present | rfl
        · exact before other present
        · exact fits
      exact ⟨count, Nat.le_refl count, pushed, trivial⟩
  | pop array =>
      have popped : (world.store.modifyItems array Array.pop).Sound count := by
        refine sound.modifyItems array fun items before other mem => before other ?_
        rw [← Array.mem_toList_iff, Array.toList_pop] at mem
        exact Array.mem_toList_iff.mp ((List.dropLast_sublist _).mem mem)
      refine ⟨count, Nat.le_refl count, popped, ?_⟩
      · show ((world.store.items array).back?.getD .null).IsKnown count
        cases last : (world.store.items array).back? with
        | none => trivial
        | some value => exact sound.items array value (Array.mem_of_back? last)
  | log name scope value => exact keep (store_log options name scope none value world) trivial
  | print value =>
      refine keep ?_ trivial
      show (if options.reportsOutput then _ else world).store = world.store
      split <;> rfl
  | ask prompt => exact keep (store_ask options world prompt) trivial
  | deliver error =>
      refine keep (store_deliver options world error) ?_
      intro proper returned mem
      rw [eq_of_mem_deliver options world mem]
      exact proper
  | mention tag => exact keep (store_handler world tag .nothing) trivial
  | subscribe transition tag => exact keep (store_handler world tag .nothing) trivial
  | unsubscribe transition tag => exact keep (store_handler world tag .nothing) trivial
  | _ => exact keep rfl trivial

end World

end TreeScript
