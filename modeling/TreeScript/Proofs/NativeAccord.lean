import TreeScript.Proofs.ConstructAccord
import TreeScript.Proofs.GoalComparison

/-!
# Native functions in accord

The functions of the library and the methods give the same in stores that are
the same but for labels.  What they give carries only numbers of the kind, as
long as the kind takes in every number and what is computed without a check
(`Native.Spares`): sums, differences and products, and the numbers that texts
are read as.
-/

namespace TreeScript

open Rule

/-- What a native function gives without looking at the number in it. -/
def Native.unchecked? : Native → List Value → Option Value
  | .library .add, arguments =>
      (Library.arithmetic (fun left right => left + right) arguments).toOption
  | .library .sub, arguments =>
      (Library.arithmetic (fun left right => left - right) arguments).toOption
  | .library .mul, arguments =>
      (Library.arithmetic (fun left right => left * right) arguments).toOption
  | .method (.strToNum text), _ => some (Method.textToNum text)
  | _, _ => none

/-- Whatever a native function gives without looking at it carries numbers of a kind. -/
def Native.Spares (numbers : Float → Prop) (native : Native) (arguments : List Value) : Prop :=
  ∀ value ∈ native.unchecked? arguments, value.Carries numbers

variable {numbers : Float → Prop} {terms : Terms} {arguments : List Value}

/-! ## Results that may fail -/

namespace Answered

variable {α β : Type} {holds : α → Prop} {holdsAfter : β → Prop}

theorem bind {result : Except Error α} (answered : Answered holds result)
    {continuation : α → Except Error β}
    (goesOn : ∀ value, holds value → Answered holdsAfter (continuation value)) :
    Answered holdsAfter (result >>= continuation) := by
  cases result with
  | ok value => exact goesOn value answered
  | error error => exact answered

theorem argument (carry : ∀ value ∈ arguments, value.Carries numbers) (place : Nat) :
    Answered (Value.Carries numbers) (argument arguments place) := by
  unfold TreeScript.argument
  split
  · rename_i value present
    exact carry value (List.mem_of_getElem? present)
  · rfl

theorem operands (carry : ∀ value ∈ arguments, value.Carries numbers) :
    Answered (fun _ => True) (Library.operands arguments) :=
  (argument carry 0).bind fun _ carries => (asNum carries).bind fun _ _ =>
    (argument carry 1).bind fun _ carries => (asNum carries).bind fun _ _ => trivial

/-- The result of an operation carries what is asked of the values that it gives. -/
theorem arithmetic (carry : ∀ value ∈ arguments, value.Carries numbers)
    {operation : Float → Float → Float}
    (spared : ∀ value ∈ (Library.arithmetic operation arguments).toOption, value.Carries numbers) :
    Answered (Value.Carries numbers) (Library.arithmetic operation arguments) := by
  have answered : Answered (fun _ => True) (Library.arithmetic operation arguments) :=
    (operands carry).bind fun _ _ => trivial
  cases result : Library.arithmetic operation arguments with
  | ok value => exact spared value (by rw [result]; rfl)
  | error error =>
      rw [result] at answered
      exact answered

theorem checked (ordinary : ∀ number : Float, number.isNaN = false → numbers number)
    (carry : ∀ value ∈ arguments, value.Carries numbers) (name : String)
    (operation : Float → Float → Float) :
    Answered (Value.Carries numbers) (Library.checked name operation arguments) := by
  refine (operands carry).bind fun pair _ => ?_
  dsimp only
  split
  · rfl
  · rename_i number
    exact ordinary _ (Bool.eq_false_iff.mpr number)

theorem comparison (carry : ∀ value ∈ arguments, value.Carries numbers)
    (holds : Float → Float → Bool) :
    Answered (Value.Carries numbers) (Library.comparison holds arguments) :=
  (operands carry).bind fun _ _ => trivial

/-- Every element of a range is a number, since its bounds are finite. -/
theorem range (ordinary : ∀ number : Float, number.isNaN = false → numbers number)
    (carry : ∀ value ∈ arguments, value.Carries numbers) :
    Answered (fun items => ∀ value ∈ items, value.Carries numbers) (Library.range arguments) := by
  refine (operands carry).bind fun bounds _ => ?_
  dsimp only
  split
  · rfl
  · rename_i finite
    split
    · rfl
    · intro value mem
      have bound : bounds.1.isFinite = true := by
        rw [Bool.not_eq_true, Bool.not_eq_false', Bool.and_eq_true] at finite
        exact finite.1
      unfold Library.rangeItems at mem
      split at mem
      · obtain ⟨place, rfl⟩ := Array.mem_ofFn.mp mem
        exact ordinary _ (Double.isNaN_add bound (Double.isNaN_ofNat place))
      · obtain ⟨place, rfl⟩ := Array.mem_ofFn.mp mem
        exact ordinary _ (Double.isNaN_sub bound (Double.isNaN_ofNat place))

theorem createError (carry : ∀ value ∈ arguments, value.Carries numbers) :
    Answered (Value.Carries numbers) (Library.createError arguments) := by
  refine (argument carry 0).bind fun name _ => (asStr name).bind fun name _ => ?_
  cases present : arguments[1]? with
  | none => trivial
  | some information => exact carry information (List.mem_of_getElem? present)

end Answered

/-! ## Functions of the library -/

/-- A rule of a call that gives the same value in stores that are the same but for labels. -/
abbrev Rule.Replies (numbers : Float → Prop) (terms : Terms) (rule : Rule Value) : Prop :=
  Accords numbers terms none (Shared (Value.Carries numbers)) rule rule

namespace NativeForms

variable {context : Context} {site : Option Position}

theorem replies_plain {answer : List Value → Rule Value}
    (replies : (answer arguments).Replies numbers terms) :
    ((plain fun arguments _ => answer arguments).apply arguments context site).Replies
      numbers terms := by
  unfold Rule.Replies
  rw [plain_apply]
  exact replies

theorem replies_pure (fit : terms.Fit numbers (context.enter "<native>" site))
    {answer : List Value → Except Error Value}
    (answered : Answered (Value.Carries numbers) (answer arguments)) :
    ((Library.pure answer).apply arguments context site).Replies numbers terms :=
  replies_plain (accords_ofExcept fit.bare answered)

theorem replies_later (fit : terms.Fit numbers (context.enter "<native>" site))
    {answer : List Value → Rule Value} (replies : (answer arguments).Replies numbers terms) :
    ((later fun arguments _ => answer arguments).apply arguments context site).Replies
      numbers terms := by
  obtain ⟨calls, mode⟩ := context
  unfold Rule.Replies
  cases mode with
  | asynchronous =>
      rw [later_apply_asynchronous]
      exact replies
  | synchronous =>
      rw [later_apply_synchronous]
      exact accords_fail (fit.bare _ rfl)

end NativeForms

section Natives

variable {context : Context} {site : Option Position}
variable (fit : terms.Fit numbers (context.enter "<native>" site))
variable (carry : ∀ value ∈ arguments, value.Carries numbers)

include fit carry

namespace Library

theorem accords_compare :
    Accords numbers terms none (Shared fun _ => True) (compare arguments) (compare arguments) :=
  (accords_ofExcept fit.bare (Answered.argument carry 0)).andThen fun left _ =>
    (accords_ofExcept fit.bare (Answered.argument carry 1)).andThen fun right _ =>
      accords_glance _ fun _ _ stores => stores.equal left right

theorem replies_readLine : (readLine arguments).Replies numbers terms := by
  refine (accords_ofExcept fit.bare (Answered.argument carry 0)).andThen fun prompt _ => ?_
  refine (accords_ofExcept fit.bare (Answered.asStr prompt)).andThen fun prompt _ => ?_
  refine (Evaluation.accords_acting (.ask prompt) trivial fun _ _ => id).andThen
    fun line _ => ?_
  cases line with
  | none => exact accords_same trivial
  | some line => exact accords_same trivial

theorem replies_forms (function : LibraryFunction)
    (spares : (Native.library function).Spares numbers arguments) :
    ((forms function).apply arguments context site).Replies numbers terms := by
  cases function with
  | add | sub | mul => exact NativeForms.replies_pure fit (Answered.arithmetic carry spares)
  | div | pow | mod =>
      exact NativeForms.replies_pure fit (Answered.checked fit.ordinary carry _ _)
  | lt | lteq | gt | gteq => exact NativeForms.replies_pure fit (Answered.comparison carry _)
  | eq | neq =>
      exact NativeForms.replies_plain
        ((accords_compare fit carry).andThen fun _ _ => accords_same trivial)
  | type =>
      exact NativeForms.replies_pure fit ((Answered.argument carry 0).bind fun _ _ => trivial)
  | toStr =>
      refine NativeForms.replies_plain ?_
      refine (accords_ofExcept fit.bare (Answered.argument carry 0)).andThen fun value _ => ?_
      exact (accords_glance _ fun store other stores => stores.display value).andThen fun _ _ =>
        accords_same trivial
  | range =>
      refine NativeForms.replies_plain ?_
      refine (accords_ofExcept fit.bare (Answered.range fit.ordinary carry)).andThen
        fun items given => ?_
      exact (Evaluation.accords_acting (.newArray items) given fun _ _ => id).andThen
        fun _ _ => accords_same trivial
  | createError => exact NativeForms.replies_pure fit (Answered.createError carry)
  | print =>
      refine NativeForms.replies_plain ?_
      refine (accords_ofExcept fit.bare (Answered.argument carry 0)).andThen fun value _ => ?_
      exact (Evaluation.accords_acting (.print value) trivial fun _ _ => id).andThen
        fun _ _ => accords_same trivial
  | readline => exact NativeForms.replies_later fit (replies_readLine fit carry)

end Library

/-! ## Methods -/

namespace Method

omit fit carry in
theorem answered_pieces (text : String) (arguments : List Value) :
    Answered (fun _ => True) (pieces text arguments) := by
  unfold pieces
  split
  · trivial
  · exact (Answered.asStr _).bind fun _ _ => trivial

omit fit carry in
theorem answered_separator (arguments : List Value) :
    Answered (fun _ => True) (separator arguments) := by
  unfold separator
  split
  · trivial
  · exact Answered.asStr _

/-- Calling back with the elements of an array, which carry what the store does. -/
theorem replies_mapArray (array : ArrayId) {call : Value → List Value → Rule Value}
    (calls : ∀ callee values, (∀ value ∈ values, value.Carries numbers) →
      (call callee values).Replies numbers terms) :
    (mapArray array arguments call).Replies numbers terms := by
  refine (accords_ofExcept fit.bare (Answered.argument carry 0)).andThen fun callee _ => ?_
  refine (accords_look _ (fun items => ∀ value ∈ items, value.Carries numbers)
    fun store other stores => ⟨by rw [stores.items], fun value mem =>
      stores.contains.items array value (Array.mem_toList_iff.mp mem)⟩).andThen
    fun items given => ?_
  refine (accords_traverse (fun (item, place) => call callee [item, .num (Float.ofNat place)])
    (Value.Carries numbers) fun element mem => ?_).andThen fun results all => ?_
  · have place : (Value.num (Float.ofNat element.2)).Carries numbers :=
      fit.ordinary _ (Double.isNaN_ofNat _)
    exact calls callee _ (List.forall_mem_cons.mpr
      ⟨given _ (List.fst_mem_of_mem_zipIdx mem), List.forall_mem_singleton.mpr place⟩)
  · exact Evaluation.accords_newArray all

theorem replies_arrMap (array : ArrayId) :
    ((arrMap array).forms.apply arguments context site).Replies numbers terms := by
  obtain ⟨calls, mode⟩ := context
  cases mode with
  | asynchronous =>
      rw [arrMap_apply_asynchronous]
      exact replies_mapArray fit carry array fun callee values given =>
        (accords_ofExcept fit.bare (Answered.asFn callee)).andThen fun _ _ =>
          accords_call (.apply given) fit.asked
  | synchronous =>
      rw [arrMap_apply_synchronous]
      exact replies_mapArray fit carry array fun callee values given =>
        (accords_ofExcept fit.bare (Answered.asFn callee)).andThen fun _ _ =>
          accords_drive (.apply given) fit.asked

theorem replies_forms (method : Method)
    (spares : (Native.method method).Spares numbers arguments) :
    (method.forms.apply arguments context site).Replies numbers terms := by
  cases method with
  | strToNum text =>
      -- The value is named, since otherwise the text would be read to see what it carries.
      obtain ⟨value, known⟩ : ∃ value, textToNum text = value := ⟨_, rfl⟩
      have given : value ∈ (Native.method (.strToNum text)).unchecked? arguments := by
        rw [Native.unchecked?, known]
        exact Option.mem_some_self value
      rw [Method.forms, known]
      exact NativeForms.replies_plain (accords_same (spares value given))
  | strSplit text =>
      refine NativeForms.replies_plain ?_
      refine (accords_ofExcept fit.bare (answered_pieces text arguments)).andThen
        fun texts _ => Evaluation.accords_newArray fun value mem => ?_
      obtain ⟨text, -, rfl⟩ := List.mem_map.mp mem
      trivial
  | arrPush array =>
      refine NativeForms.replies_plain ?_
      refine (accords_ofExcept fit.bare (Answered.argument carry 0)).andThen
        fun value carries => ?_
      exact (Evaluation.accords_acting (.push array value) carries
        fun _ _ => id).andThen fun _ _ => accords_same trivial
  | arrPop array =>
      exact NativeForms.replies_plain (accords_act (.pop array) trivial)
  | arrJoin array =>
      refine NativeForms.replies_plain ?_
      refine (accords_ofExcept fit.bare (answered_separator arguments)).andThen
        fun separator _ => ?_
      refine (accords_glance (fun store => (store.items array).toList.map store.display)
        fun store other stores => ?_).andThen fun _ _ => accords_same trivial
      rw [stores.items, funext stores.display]
  | arrMap array => exact replies_arrMap fit carry array
  | _ => exact NativeForms.replies_plain (accords_same trivial)

end Method

/-- A native function that is not the host's. -/
theorem replies_native {host : Host} {native : Native}
    (hostless : (Body.native native).Hostless) (spares : native.Spares numbers arguments) :
    ((Evaluation.nativeForms host native).apply arguments context site).Replies numbers terms := by
  cases native with
  | library function => exact Library.replies_forms fit carry function spares
  | method property => exact Method.replies_forms fit carry property spares
  | host name => exact hostless.elim

end Natives

end TreeScript
