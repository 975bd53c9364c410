import TreeScript.Proofs.ConstructContract
import TreeScript.Proofs.GoalComparison

/-!
# Contracts of functions

A function that is called with known values ends with a known value or a proper
error.  The functions of the library and the methods of values know nothing of
signals; a closure takes the value of a `return`, and no other signal leaves
the body of a function whose statements are well-scoped.
-/

namespace TreeScript

namespace Replies

variable {α β : Type} {holds : α → Prop} {holdsAfter : β → Prop}

theorem bind {result : Except Error α} (replies : Replies holds result)
    {continuation : α → Except Error β}
    (goesOn : ∀ value, holds value → Replies holdsAfter (continuation value)) :
    Replies holdsAfter (result >>= continuation) := by
  cases result with
  | ok value => exact goesOn value replies
  | error error => exact replies

variable {count : Nat} {arguments : List Value}

theorem argument (known : ∀ argument ∈ arguments, argument.IsKnown count) (place : Nat) :
    Replies (Value.IsKnown count) (argument arguments place) := by
  unfold TreeScript.argument
  split
  · rename_i value given
    exact known value (List.mem_of_getElem? given)
  · trivial

end Replies

namespace Library

variable {count : Nat} {arguments : List Value}

theorem replies_operands (known : ∀ argument ∈ arguments, argument.IsKnown count) :
    Replies (fun _ => True) (operands arguments) := by
  refine (Replies.argument known 0).bind ?_
  intro left _
  refine (Replies.asNum left).bind ?_
  intro left _
  refine (Replies.argument known 1).bind ?_
  intro right _
  exact (Replies.asNum right).bind fun _ _ => trivial

theorem replies_arithmetic (operation : Float → Float → Float)
    (known : ∀ argument ∈ arguments, argument.IsKnown count) :
    Replies (Value.IsKnown count) (arithmetic operation arguments) :=
  (replies_operands known).bind fun _ _ => trivial

theorem replies_comparison (compares : Float → Float → Bool)
    (known : ∀ argument ∈ arguments, argument.IsKnown count) :
    Replies (Value.IsKnown count) (comparison compares arguments) :=
  (replies_operands known).bind fun _ _ => trivial

theorem replies_checked (name : String) (operation : Float → Float → Float)
    (known : ∀ argument ∈ arguments, argument.IsKnown count) :
    Replies (Value.IsKnown count) (checked name operation arguments) := by
  refine (replies_operands known).bind ?_
  intro operands _
  dsimp only
  split <;> trivial

theorem isKnown_rangeItems (first last : Float) :
    ∀ value ∈ rangeItems first last, value.IsKnown count := by
  intro value mem
  unfold rangeItems at mem
  split at mem
  · rcases Array.mem_ofFn.mp mem with ⟨place, rfl⟩
    trivial
  · rcases Array.mem_ofFn.mp mem with ⟨place, rfl⟩
    trivial

theorem replies_range (known : ∀ argument ∈ arguments, argument.IsKnown count) :
    Replies (fun items => ∀ value ∈ items, ∀ more, Value.IsKnown more value) (range arguments) := by
  refine (replies_operands known).bind ?_
  intro operands _
  dsimp only
  split
  · trivial
  · split
    · trivial
    · exact fun value mem more => isKnown_rangeItems _ _ value mem

theorem replies_createError (known : ∀ argument ∈ arguments, argument.IsKnown count) :
    Replies (Value.IsKnown count) (createError arguments) := by
  refine (Replies.argument known 0).bind ?_
  intro name _
  refine (Replies.asStr name).bind ?_
  intro name _
  show (Value.ofError name arguments[1]?).IsKnown count
  cases given : arguments[1]? with
  | none => trivial
  | some information => exact known information (List.mem_of_getElem? given)

end Library

namespace NativeForms

/-- A native function that gives a known value for known arguments. -/
def Sound (forms : NativeForms) : Prop :=
  ∀ {enclosure : Enclosure} {count : Nat} {arguments : List Value},
    (∀ argument ∈ arguments, argument.IsKnown count) →
    ∀ (context : Context) (site : Option Position),
      (forms.apply arguments context site).Meets enclosure Value.IsKnown count

theorem sound_plain {answer : List Value → Rule Value}
    (meets : ∀ {enclosure : Enclosure} {count : Nat} {arguments : List Value},
      (∀ argument ∈ arguments, argument.IsKnown count) →
      (answer arguments).Meets enclosure Value.IsKnown count) :
    (plain fun arguments _ => answer arguments).Sound := by
  intro enclosure count arguments known context site
  rw [plain_apply]
  exact meets known

theorem sound_later {answer : List Value → Rule Value}
    (meets : ∀ {enclosure : Enclosure} {count : Nat} {arguments : List Value},
      (∀ argument ∈ arguments, argument.IsKnown count) →
      (answer arguments).Meets enclosure Value.IsKnown count) :
    (later fun arguments _ => answer arguments).Sound := by
  intro enclosure count arguments known context site
  rcases context with ⟨calls, mode⟩
  cases mode with
  | asynchronous =>
      rw [later_apply_asynchronous]
      exact meets known
  | synchronous =>
      rw [later_apply_synchronous]
      exact Rule.meets_fail trivial

theorem sound_pure {answer : List Value → Except Error Value}
    (replies : ∀ {count : Nat} {arguments : List Value},
      (∀ argument ∈ arguments, argument.IsKnown count) →
      Replies (Value.IsKnown count) (answer arguments)) :
    (Library.pure answer).Sound :=
  sound_plain fun known => Rule.meets_reply (replies known)

end NativeForms

open Rule

/-! ## The library -/

namespace Library

variable {enclosure : Enclosure} {count : Nat} {arguments : List Value}

theorem meets_argument (known : ∀ argument ∈ arguments, argument.IsKnown count) (place : Nat) :
    (ofExcept (argument arguments place)).Meets enclosure Value.IsKnown count :=
  meets_reply (Replies.argument known place)

theorem meets_compare (known : ∀ argument ∈ arguments, argument.IsKnown count) :
    (compare arguments).Meets enclosure (fun _ _ => True) count := by
  refine (meets_argument known 0).bind ?_
  intro _ grows _ _
  have stillKnown := fun value mem => (known value mem).mono grows
  exact (meets_argument stillKnown 1).bind fun _ _ _ _ => meets_glance _

theorem meets_readLine (known : ∀ argument ∈ arguments, argument.IsKnown count) :
    (readLine arguments).Meets enclosure Value.IsKnown count := by
  refine (meets_argument known 0).bind ?_
  intro _ _ prompt _
  refine (meets_ofExcept (Replies.asStr prompt)).bind ?_
  intro _ _ prompt _
  refine (meets_perform (.ask prompt) trivial).bind ?_
  intro _ _ line _
  cases line with
  | none => exact meets_pure trivial
  | some line => exact meets_pure trivial

/-- The functions of the library are sound. -/
theorem sound_forms (function : LibraryFunction) : (forms function).Sound := by
  cases function with
  | add => exact NativeForms.sound_pure (replies_arithmetic _)
  | sub => exact NativeForms.sound_pure (replies_arithmetic _)
  | mul => exact NativeForms.sound_pure (replies_arithmetic _)
  | div => exact NativeForms.sound_pure (replies_checked _ _)
  | pow => exact NativeForms.sound_pure (replies_checked _ _)
  | mod => exact NativeForms.sound_pure (replies_checked _ _)
  | lt => exact NativeForms.sound_pure (replies_comparison _)
  | lteq => exact NativeForms.sound_pure (replies_comparison _)
  | gt => exact NativeForms.sound_pure (replies_comparison _)
  | gteq => exact NativeForms.sound_pure (replies_comparison _)
  | eq | neq =>
      refine NativeForms.sound_plain fun known => ?_
      exact (meets_compare known).bind fun _ _ _ _ => meets_pure trivial
  | type =>
      refine NativeForms.sound_pure fun known => ?_
      exact (Replies.argument known 0).bind fun _ _ => trivial
  | toStr =>
      refine NativeForms.sound_plain fun known => ?_
      refine (meets_argument known 0).bind ?_
      intro _ _ value _
      exact (meets_glance _).bind fun _ _ _ _ => meets_pure trivial
  | range =>
      refine NativeForms.sound_plain fun known => ?_
      refine (meets_ofExcept (replies_range known)).bind ?_
      intro more _ items itemsKnown
      have fits := fun value mem => itemsKnown value mem more
      exact (meets_perform (.newArray items) fits).bind fun _ _ _ _ => meets_pure trivial
  | createError => exact NativeForms.sound_pure replies_createError
  | print =>
      refine NativeForms.sound_plain fun known => ?_
      refine (meets_argument known 0).bind ?_
      intro _ _ value _
      exact (meets_perform (.print value) trivial).bind fun _ _ _ _ => meets_pure trivial
  | readline => exact NativeForms.sound_later meets_readLine

end Library

/-! ## Methods -/

namespace Method

variable {enclosure : Enclosure} {count : Nat} {arguments : List Value}

theorem meets_callBack {callee : Value} (known : callee.IsKnown count)
    (argumentsKnown : ∀ argument ∈ arguments, argument.IsKnown count) (context : Context) :
    (callBack callee arguments context).Meets enclosure Value.IsKnown count := by
  refine (meets_ofExcept (Replies.asFn known)).bind ?_
  intro _ grows function functionKnown
  exact meets_call ⟨functionKnown.mono grows, fun value mem =>
    (argumentsKnown value mem).mono grows⟩

theorem meets_callBackAtOnce {callee : Value} (known : callee.IsKnown count)
    (argumentsKnown : ∀ argument ∈ arguments, argument.IsKnown count) (context : Context) :
    (callBackAtOnce callee arguments context).Meets enclosure Value.IsKnown count := by
  refine (meets_ofExcept (Replies.asFn known)).bind ?_
  intro _ grows function functionKnown
  exact meets_drive ⟨functionKnown.mono grows, fun value mem =>
    (argumentsKnown value mem).mono grows⟩

theorem meets_mapArray (array : ArrayId)
    (known : ∀ argument ∈ arguments, argument.IsKnown count)
    {call : Value → List Value → Rule Value}
    (meets : ∀ {more : Nat} {callee : Value} {values : List Value}, callee.IsKnown more →
      (∀ value ∈ values, value.IsKnown more) →
      (call callee values).Meets enclosure Value.IsKnown more) :
    (mapArray array arguments call).Meets enclosure Value.IsKnown count := by
  have seen {count : Nat} : (look fun store => (store.items array).toList).Meets enclosure
      (fun more items => ∀ value ∈ items, value.IsKnown more) count :=
    meets_look fun _ _ _ sound => Edit.isKnown_toList (sound.items array)
  refine (Library.meets_argument known 0).bind ?_
  intro _ _ callee calleeKnown
  refine seen.bind ?_
  intro more grows items itemsKnown
  have mapped : (Rule.traverse
      (fun numbered => call callee [numbered.1, .num (Float.ofNat numbered.2)])
      items.zipIdx).Meets enclosure
        (fun most results => ∀ value ∈ results, value.IsKnown most) more := by
    refine meets_traverse Value.IsKnown.mono ?_
    intro element mem most grows'
    have itemKnown := (itemsKnown element.1 (List.fst_mem_of_mem_zipIdx mem)).mono grows'
    refine meets (calleeKnown.mono (Nat.le_trans grows grows')) ?_
    exact List.forall_mem_cons.mpr
      ⟨itemKnown, List.forall_mem_cons.mpr ⟨trivial, List.forall_mem_nil _⟩⟩
  refine mapped.bind ?_
  intro _ _ results resultsKnown
  have fits := fun value mem => resultsKnown value (List.mem_toArray.mp mem)
  exact (meets_perform (.newArray results.toArray) fits).bind fun _ _ _ _ => meets_pure trivial

theorem replies_pieces (text : String) (arguments : List Value) :
    Replies (fun _ => True) (pieces text arguments) := by
  unfold pieces
  split
  · trivial
  · exact (Replies.asStr _).bind fun _ _ => trivial

theorem replies_separator (arguments : List Value) :
    Replies (fun _ => True) (separator arguments) := by
  unfold separator
  split
  · trivial
  · exact Replies.asStr _

/-- A method that gives the same plain value for all arguments. -/
theorem sound_constant (value : Value) (known : ∀ count, value.IsKnown count) :
    (NativeForms.plain fun _ _ => pure value).Sound :=
  NativeForms.sound_plain fun _ => meets_pure (known _)

theorem sound_arrMap (array : ArrayId) : (arrMap array).forms.Sound := by
  intro enclosure count arguments known context site
  rcases context with ⟨calls, mode⟩
  cases mode with
  | asynchronous =>
      rw [arrMap_apply_asynchronous]
      exact meets_mapArray array known fun calleeKnown valuesKnown =>
        meets_callBack calleeKnown valuesKnown _
  | synchronous =>
      rw [arrMap_apply_synchronous]
      exact meets_mapArray array known fun calleeKnown valuesKnown =>
        meets_callBackAtOnce calleeKnown valuesKnown _

/-- The methods of values are sound. -/
theorem sound_forms (method : Method) : method.forms.Sound := by
  cases method with
  | strUpper text => exact sound_constant (.str _) fun _ => trivial
  | strLower text => exact sound_constant (.str _) fun _ => trivial
  | strToNum text =>
      refine sound_constant _ ?_
      intro count
      unfold textToNum
      split <;> trivial
  | strSplit text =>
      refine NativeForms.sound_plain fun _ => ?_
      refine (meets_ofExcept (replies_pieces text _)).bind ?_
      intro _ _ texts _
      refine (meets_perform (.newArray _) fun value mem => ?_).bind
        fun _ _ _ _ => meets_pure trivial
      rcases List.mem_map.mp (List.mem_toArray.mp mem) with ⟨piece, -, rfl⟩
      trivial
  | numToStr number => exact sound_constant (.str _) fun _ => trivial
  | boolToStr truth => exact sound_constant (.str _) fun _ => trivial
  | arrPush array =>
      refine NativeForms.sound_plain fun known => ?_
      refine (Library.meets_argument known 0).bind ?_
      intro _ _ value valueKnown
      exact (meets_perform (.push array value) valueKnown).bind fun _ _ _ _ => meets_pure trivial
  | arrPop array => exact NativeForms.sound_plain fun _ => meets_perform (.pop array) trivial
  | arrJoin array =>
      refine NativeForms.sound_plain fun _ => ?_
      refine (meets_ofExcept (replies_separator _)).bind ?_
      intro _ _ separator _
      exact (meets_glance _).bind fun _ _ _ _ => meets_pure trivial
  | arrMap array => exact sound_arrMap array

end Method

/-! ## Calls -/

namespace Evaluation

variable {enclosure : Enclosure} {count : Nat} {context : Context}

theorem sound_nativeForms (host : Host) {native : Native}
    (hostless : (Body.native native).Hostless) :
    (nativeForms host native).Sound := by
  cases native with
  | library function => exact Library.sound_forms function
  | method property => exact property.sound_forms
  | host name => exact hostless.elim

theorem meets_bindParameters (scope : Scope) {parameters : List Parameter}
    {fallbacks : List (Option Value)} {arguments : List Value}
    (fallbacksKnown : ∀ value, some value ∈ fallbacks → value.IsKnown count)
    (argumentsKnown : ∀ argument ∈ arguments, argument.IsKnown count) :
    (bindParameters scope parameters fallbacks arguments).Meets enclosure
      (fun _ _ => True) count := by
  induction parameters generalizing count fallbacks arguments with
  | nil => exact meets_pure trivial
  | cons parameter rest inductive_step =>
      rw [bindParameters]
      split
      · rename_i value given
        have known : value.IsKnown count := by
          rcases Option.or_eq_some_iff.mp given with present | ⟨-, missing⟩
          · exact argumentsKnown value (List.mem_of_mem_head? present)
          · refine fallbacksKnown value (List.mem_of_mem_head? ?_)
            exact Option.join_eq_some_iff.mp missing
        refine (meets_perform (.define scope true parameter.target value) known).attempt.bind ?_
        intro _ grows _ _
        refine inductive_step ?_ ?_
        · exact fun value mem => (fallbacksKnown value (List.mem_of_mem_tail mem)).mono grows
        · exact fun value mem => (argumentsKnown value (List.mem_of_mem_tail mem)).mono grows
      · exact meets_fail trivial

/-- Of the signals of its statements, only a `return` leaves a function. -/
theorem ends_endOfBody {outcome : Outcome}
    (ends : EndsWithin .function Value.IsKnown count outcome) :
    EndsWithin enclosure Value.IsKnown count (endOfBody outcome) := by
  rcases outcome with (signal | error) | value
  · cases signal with
    | returning value => exact ends.2
    | breaking label value => cases label <;> cases ends.1
    | continuing label => cases label <;> cases ends.1
  · exact ends
  · exact ends

theorem meets_applyClosure (options : Options) (name : Option String)
    {parameters : List Parameter} {fallbacks : List (Option Value)} {statements : List Node}
    {scope : Scope}
    (sound : (Body.closure parameters fallbacks statements scope).IsSound count)
    {arguments : List Value}
    (argumentsKnown : ∀ argument ∈ arguments, argument.IsKnown count)
    (site : Option Position) :
    (applyClosure options name parameters fallbacks statements scope arguments context site).Meets
      enclosure Value.IsKnown count := by
  have rest : (do
      let inner ← openScope scope .empty
      bindParameters inner parameters fallbacks arguments
      let outcome ←
        (runAll inner (context.enter (name.getD anonymous) site) statements).outcome
      ExceptT.mk (.done (endOfBody outcome)) : Rule Value).Meets enclosure
      Value.IsKnown count := by
    refine (meets_openScope_empty scope).bind ?_
    intro _ grows inner _
    refine (meets_bindParameters inner (fun value mem => (sound.1 value mem).mono grows)
      (fun value mem => (argumentsKnown value mem).mono grows)).bind fun _ _ _ _ => ?_
    exact (meets_runAll sound.2 inner).outcome_bind fun _ _ _ ends => .done (ends_endOfBody ends)
  unfold applyClosure
  split
  · exact meets_fail trivial
  · exact rest

/-- A function that is known meets its contract. -/
theorem meets_apply (options : Options) (host : Host) {function : FunctionId}
    (known : (Value.fn function).IsKnown count) {arguments : List Value}
    (argumentsKnown : ∀ argument ∈ arguments, argument.IsKnown count)
    (site : Option Position) :
    (apply options host function arguments context site).Meets enclosure Value.IsKnown count := by
  have looked : (look fun store => store.function? function).Meets enclosure
      (fun more found => ∃ callee, found = some callee ∧ callee.body.IsSound more) count :=
    meets_look fun _ grows _ sound => sound.exists_function (known.mono grows)
  refine looked.bind ?_
  intro _ grows found present
  rcases present with ⟨⟨name, attributes, body⟩, rfl, sound⟩
  have stillKnown := fun value mem => (argumentsKnown value mem).mono grows
  cases body with
  | closure parameters fallbacks statements scope =>
      exact meets_applyClosure options name sound stillKnown site
  | native native => exact sound_nativeForms host sound stillKnown context site

end Evaluation

end TreeScript
