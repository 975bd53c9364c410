import TreeScript.Evaluation.Loop
import TreeScript.Proofs.Accord
import TreeScript.Proofs.NotANumber

/-!
# Constructs in accord

Nodes that are the same but for labels have rules that are in accord.  What is
particular to labels is in two places only: a labelled clause or block takes
the breaks that refer to it (`EndsAlike.takeBreak`), and a loop takes the
signals that refer to it or that have no label (`EndsAlike.iteration`).
-/

namespace TreeScript

variable {numbers : Float → Prop} {terms : Terms} {binders : List Binder}

/-! ## Signals -/

section

variable {within : Option (List Binder)} {signal other : Signal}

theorem Signal.Resembles.name (signals : signal.Resembles numbers within other) :
    other.name = signal.name := by
  cases signals <;> rfl

/-- The error of a signal that nothing takes. -/
def Signal.unexpected (signal : Signal) : Error :=
  .of (.internal ("Unexpected " ++ signal.name ++ " outside of a function or loop"))

theorem Signal.Resembles.carried (signals : signal.Resembles numbers within other) :
    other.carried = signal.carried := by
  cases signals <;> rfl

end

section

variable {fails : Error → Prop} {label label' : Option String} {outcome outcome' : Outcome}

/-- A labelled clause takes the breaks that refer to it, and no others. -/
theorem EndsAlike.takeBreak
    (ended : EndsAlike numbers fails (some (⟨label, label', false⟩ :: binders))
      (Shared (Value.Carries numbers)) outcome outcome') :
    EndsAlike numbers fails (some binders) (Shared (Value.Carries numbers))
      (outcome.takeBreak label) (outcome'.takeBreak label') := by
  cases ended with
  | ok given => exact .ok given
  | error raised => exact .error raised
  | signal signals =>
      cases signals with
      | returning carries => exact .signal (.returning carries)
      | continuing labels => exact .signal (.continuing labels)
      | @breaking _ target target' value labels carries =>
          cases target <;> cases target' <;> try exact labels.elim
          · exact .signal (.breaking labels carries)
          · rename_i target target'
            have refer : Binder.Refer (⟨label, label', false⟩ :: binders) target target' := labels
            dsimp only [Outcome.takeBreak]
            by_cases own : label = some target
            · rw [if_pos own, if_pos (refer.iff.mp own)]
              refine .ok ⟨rfl, ?_⟩
              cases value with
              | none => trivial
              | some value => exact carries value rfl
            · rw [if_neg own, if_neg fun ownOther => own (refer.iff.mpr ownOther)]
              exact .signal (.breaking (refer.outer own) carries)

/-- What a loop takes is its own by both labels or by neither. -/
theorem Iteration.isOwn_iff {target target' : Option String}
    (labels : Binder.ReferIfAny (⟨label, label', true⟩ :: binders) target target') :
    isOwn label' target' = isOwn label target := by
  cases target <;> cases target' <;> try exact labels.elim
  · rfl
  · rename_i target target'
    have refer : Binder.Refer (⟨label, label', true⟩ :: binders) target target' := labels
    have same : label = some target ↔ label' = some target' := refer.iff
    show (some target' == label') = (some target == label)
    rw [Bool.eq_iff_iff, beq_iff_eq, beq_iff_eq, eq_comm, ← same, eq_comm]

/-- What is not a loop's own refers to something further out. -/
theorem Iteration.outer_of_not_isOwn {target target' : Option String}
    (labels : Binder.ReferIfAny (⟨label, label', true⟩ :: binders) target target')
    (foreign : ¬isOwn label target = true) :
    Binder.ReferIfAny binders target target' := by
  cases target <;> cases target' <;> try exact labels.elim
  · trivial
  · rename_i target target'
    have refer : Binder.Refer (⟨label, label', true⟩ :: binders) target target' := labels
    exact refer.outer fun own => foreign (beq_iff_eq.mpr own.symm)

/-- A loop takes the signals that are its own, and lets the others through. -/
theorem EndsAlike.iteration
    (ended : EndsAlike numbers (fun _ => False) (some (⟨label, label', true⟩ :: binders))
      (Shared (Value.Carries numbers)) outcome outcome') :
    (Iteration.ofOutcome label' outcome' = Iteration.ofOutcome label outcome ∧
        ∀ interrupt, Iteration.ofOutcome label outcome ≠ .propagate interrupt) ∨
      ∃ signal other : Signal, signal.Resembles numbers (some binders) other ∧
        Iteration.ofOutcome label outcome = .propagate (.signal signal) ∧
        Iteration.ofOutcome label' outcome' = .propagate (.signal other) := by
  cases ended with
  | ok given => exact .inl ⟨rfl, nofun⟩
  | error raised => exact raised.elim
  | signal signals =>
      cases signals with
      | returning carries => exact .inr ⟨_, _, .returning carries, rfl, rfl⟩
      | @breaking _ target target' value labels carries =>
          dsimp only [Iteration.ofOutcome]
          rw [Iteration.isOwn_iff labels]
          split
          · exact .inl ⟨rfl, nofun⟩
          · rename_i foreign
            exact .inr ⟨_, _, .breaking (Iteration.outer_of_not_isOwn labels foreign) carries,
              rfl, rfl⟩
      | @continuing _ target target' labels =>
          dsimp only [Iteration.ofOutcome]
          rw [Iteration.isOwn_iff labels]
          split
          · exact .inl ⟨rfl, nofun⟩
          · rename_i foreign
            exact .inr ⟨_, _, .continuing (Iteration.outer_of_not_isOwn labels foreign), rfl, rfl⟩

end

namespace Evaluation

open Rule

/-- Rules for nodes inside some constructs that give the same value. -/
abbrev Agree (numbers : Float → Prop) (terms : Terms) (binders : List Binder)
    (rule other : Rule Value) : Prop :=
  Accords numbers terms (some binders) (Shared (Value.Carries numbers)) rule other

variable {context : Context} {scope : Scope}

/-! ## Nodes in sequence -/

section Sequence

variable (asked : terms.asks context.calls)

include asked

theorem accords_evaluate {node other : Node} (nodes : node.Resembles numbers binders other) :
    Agree numbers terms binders (evaluate node scope context) (evaluate other scope context) :=
  accords_call (.evaluate nodes) asked

theorem accords_evaluateAll {nodes others : List Node}
    (each : Node.Resemble numbers binders nodes others) :
    Accords numbers terms (some binders)
      (Shared fun values => ∀ value ∈ values, value.Carries numbers)
      (evaluateAll scope context nodes) (evaluateAll scope context others) := by
  induction nodes generalizing others with
  | nil =>
      cases each
      exact accords_traverse_nil
  | cons node rest inductive_step =>
      cases each with
      | cons first others =>
          exact accords_traverse_cons (accords_evaluate asked first) (inductive_step others)

theorem accords_evaluateEntries {entries others : List (String × Node)}
    (each : Node.EntriesResemble numbers binders entries others) :
    Accords numbers terms (some binders)
      (Shared fun entries => ∀ entry ∈ entries, entry.2.Carries numbers)
      (evaluateEntries scope context entries) (evaluateEntries scope context others) := by
  induction entries generalizing others with
  | nil =>
      cases each
      exact accords_traverse_nil
  | cons entry rest inductive_step =>
      cases each with
      | cons first others =>
          exact accords_traverse_cons
            ((accords_evaluate asked first).andThen fun value carries => accords_same carries)
            (inductive_step others)

theorem accords_evaluateAttributes {attributes others : List (String × Node)}
    (each : Node.EntriesResemble numbers binders attributes others) :
    Accords numbers terms (some binders) (Shared fun _ => True)
      (evaluateAttributes scope context attributes) (evaluateAttributes scope context others) :=
  (accords_evaluateEntries asked each).andThen fun _ _ => accords_same trivial

end Sequence

section

variable {within : Option (List Binder)}

/-- An action of which the reply is the same for both. -/
theorem accords_acting (action : Action) (carries : action.Carries numbers terms.sums)
    (plain : ∀ reply other, action.Gives numbers reply other → other = reply) :
    Accords numbers terms within (Shared fun _ => True) (perform action) (perform action) :=
  Process.Accords.act (.same carries) fun reply other gives =>
    .done (.ok ⟨plain reply other gives, trivial⟩)

/-- A new array of values that carry numbers of the kind. -/
theorem accords_newArray {values : List Value} (carry : ∀ value ∈ values, value.Carries numbers) :
    Accords numbers terms within (Shared (Value.Carries numbers))
      (do return Value.arr (← perform (.newArray values.toArray)))
      (do return Value.arr (← perform (.newArray values.toArray))) := by
  have carryAll : ∀ value ∈ values.toArray, value.Carries numbers :=
    fun value mem => carry value (List.mem_toArray.mp mem)
  exact (accords_acting (.newArray _) carryAll fun _ _ => id).andThen fun _ _ =>
    accords_same trivial

theorem accords_openScope {bindings : Dict Variable}
    (carry : ∀ name bound, bindings.find? name = some bound → bound.value.Carries numbers) :
    Accords numbers terms within (Shared fun _ => True) (openScope scope bindings)
      (openScope scope bindings) :=
  (accords_acting (.newLayer bindings) carry fun _ _ => id).andThen fun _ _ =>
    accords_same trivial

theorem carries_empty (name : String) (bound : Variable) :
    (Dict.empty : Dict Variable).find? name = some bound → bound.value.Carries numbers :=
  nofun

theorem accords_logBlock (event : String) (value : Option Value) :
    Accords numbers terms within (Shared fun _ => True) (logBlock event scope value)
      (logBlock event scope value) :=
  accords_acting (.log _ _ _) trivial fun _ _ => id

end

section Statements

variable (asked : terms.asks context.calls)

include asked

theorem accords_runFrom {statements others : List Node}
    (each : Node.Resemble numbers binders statements others) {last : Value}
    (carries : last.Carries numbers) :
    Agree numbers terms binders (runFrom scope context last statements)
      (runFrom scope context last others) := by
  induction statements generalizing others last with
  | nil =>
      cases each
      exact (accords_logBlock "leave" (some last)).andThen fun _ _ => accords_same carries
  | cons statement rest inductive_step =>
      cases each with
      | cons first others =>
          refine (accords_evaluate asked first).outcome_bind (fun result result' ended => ?_)
            fun error => ⟨rfl, rfl⟩
          cases ended with
          | ok given =>
              obtain ⟨rfl, given⟩ := given
              exact inductive_step others given
          | error raised => exact raised.elim
          | signal signals =>
              dsimp only
              rw [signals.name, signals.carried]
              exact (accords_logBlock _ _).andThen fun _ _ => accords_signal signals

theorem accords_runAll {statements others : List Node}
    (each : Node.Resemble numbers binders statements others) :
    Agree numbers terms binders (runAll scope context statements)
      (runAll scope context others) :=
  (accords_logBlock "enter" none).andThen fun _ _ => accords_runFrom asked each trivial

theorem accords_evaluateClause {node other : Node} (nodes : node.Resembles numbers binders other) :
    Agree numbers terms binders (evaluateClause node scope context)
      (evaluateClause other scope context) := by
  unfold evaluateClause
  rw [nodes.isStatement]
  split
  · exact (accords_openScope carries_empty).andThen fun _ _ => accords_evaluate asked nodes
  · exact accords_evaluate asked nodes

end Statements

/-- A rule may end with an outcome. -/
theorem accords_ending {within : Option (List Binder)} {outcome other : Outcome}
    (ended : EndsAlike numbers (fun _ => False) within (Shared (Value.Carries numbers))
      outcome other) :
    Accords numbers terms within (Shared (Value.Carries numbers)) (ExceptT.mk (.done outcome))
      (ExceptT.mk (.done other)) := by
  refine .done ?_
  cases ended with
  | ok given => exact .ok given
  | signal signals => exact .signal signals
  | error raised => exact raised.elim

theorem accords_takingBreaks {rule other : Rule Value} {label label' : Option String}
    (accords : Agree numbers terms (⟨label, label', false⟩ :: binders) rule other) :
    Agree numbers terms binders (takingBreaks label rule) (takingBreaks label' other) :=
  accords.outcome_bind (fun _ _ ended => accords_ending ended.takeBreak) fun _ => ⟨rfl, rfl⟩

/-! ## Constructs -/

section Constructs

variable (fit : terms.Fit numbers context)

include fit

theorem accords_evaluateBool {node other : Node} (nodes : node.Resembles numbers binders other) :
    Accords numbers terms (some binders) (Shared fun _ => True) (evaluateBool node scope context)
      (evaluateBool other scope context) :=
  (accords_evaluate fit.asked nodes).andThen fun value _ =>
    accords_ofExcept fit.bare (Answered.asBool value)

theorem accords_evaluateNum {node other : Node} (nodes : node.Resembles numbers binders other) :
    Accords numbers terms (some binders) (Shared numbers) (evaluateNum node scope context)
      (evaluateNum other scope context) :=
  (accords_evaluate fit.asked nodes).andThen fun _ carries =>
    accords_ofExcept fit.bare (Answered.asNum carries)

theorem accords_otherwise {label label' : Option String} {otherwise otherwise' : Option Node}
    (rest : Node.ResembleIfAny numbers (⟨label, label', false⟩ :: binders) otherwise otherwise') :
    Agree numbers terms binders (chooseBranch label otherwise scope context [])
      (chooseBranch label' otherwise' scope context []) := by
  cases rest with
  | none => exact accords_same trivial
  | some nodes => exact accords_takingBreaks (accords_evaluateClause fit.asked nodes)

theorem accords_chooseBranch {label label' : Option String} {otherwise otherwise' : Option Node}
    {branches branches' : List (Node × Node)}
    (each : Node.BranchesResemble numbers ⟨label, label', false⟩ binders branches branches')
    (rest : Node.ResembleIfAny numbers (⟨label, label', false⟩ :: binders) otherwise otherwise') :
    Agree numbers terms binders (chooseBranch label otherwise scope context branches)
      (chooseBranch label' otherwise' scope context branches') := by
  induction branches generalizing branches' with
  | nil =>
      cases each
      exact accords_otherwise fit rest
  | cons branch further inductive_step =>
      cases each with
      | cons conditions clauses others =>
          refine (accords_evaluateBool fit conditions).andThen fun chosen _ => ?_
          cases chosen with
          | true => exact accords_takingBreaks (accords_evaluateClause fit.asked clauses)
          | false => exact inductive_step others

theorem accords_chooseCase {label label' : Option String} (subject : Value)
    {otherwise otherwise' : Option Node} {candidates candidates' : List (Node × Node)}
    (each : Node.BranchesResemble numbers ⟨label, label', false⟩ binders candidates candidates')
    (rest : Node.ResembleIfAny numbers (⟨label, label', false⟩ :: binders) otherwise otherwise') :
    Agree numbers terms binders (chooseCase label subject otherwise scope context candidates)
      (chooseCase label' subject otherwise' scope context candidates') := by
  induction candidates generalizing candidates' with
  | nil =>
      cases each
      exact accords_otherwise fit rest
  | cons candidate further inductive_step =>
      cases each with
      | cons conditions clauses others =>
          refine (accords_evaluate fit.asked conditions).andThen fun value _ => ?_
          refine (accords_glance _ fun store other stores => stores.equal subject value).andThen
            fun chosen _ => ?_
          cases chosen with
          | true => exact accords_takingBreaks (accords_evaluateClause fit.asked clauses)
          | false => exact inductive_step others

omit fit in
theorem accords_nameLiteral {within : Option (List Binder)} {inner : List Binder}
    {target target' literal literal' : Node}
    (targets : target.Resembles numbers inner target')
    (literals : literal.Resembles numbers binders literal') (value : Value) :
    Accords numbers terms within (Shared fun _ => True) (nameLiteral scope target literal value)
      (nameLiteral scope target' literal' value) := by
  cases literals with
  | mk shapes =>
      cases shapes with
      | function each bodies =>
          cases targets with
          | mk shapes =>
              cases shapes with
              | identifier name =>
                  cases value with
                  | fn function =>
                      exact accords_acting (.nameFunction _ _) trivial fun _ _ => id
                  | _ => exact accords_same trivial
              | _ => exact accords_same trivial
      | _ => exact accords_same trivial

theorem accords_defining {within : Option (List Binder)} (isMutable : Bool)
    {pattern other : Node} {value : Value}
    (patterns : pattern.Resembles numbers binders other) (carries : value.Carries numbers) :
    Accords numbers terms within (Shared fun _ => True)
      (attempt (perform (.define scope isMutable pattern value)))
      (attempt (perform (.define scope isMutable other value))) :=
  Accords.attempt fit.bare (accords_perform (.define patterns carries))

theorem accords_decorating {within : Option (List Binder)} {target other : Node}
    (targets : target.Resembles numbers binders other) (value : Value)
    (attributes : List Attribute) :
    Accords numbers terms within (Shared fun _ => True)
      (attempt (perform (.decorate scope target value attributes)))
      (attempt (perform (.decorate scope other value attributes))) :=
  Accords.attempt fit.bare (accords_perform (.decorate targets))

theorem accords_writing {within : Option (List Binder)} (location : Location) {value : Value}
    (carries : (Action.write location value).Carries numbers terms.sums) :
    Accords numbers terms within (Shared fun _ => True)
      (attempt (perform (.write location value)))
      (attempt (perform (.write location value))) :=
  Accords.attempt fit.bare (accords_act (.write location value) carries)

theorem accords_reading {within : Option (List Binder)} (name : String) :
    Accords numbers terms within (Shared (Value.Carries numbers))
      (attempt (perform (.readName scope name))) (attempt (perform (.readName scope name))) :=
  Accords.attempt fit.bare (accords_act (.readName scope name) trivial)

theorem accords_define {target target' literal literal' : Node} (isMutable : Bool)
    {attributes attributes' : List (String × Node)}
    (targets : target.Resembles numbers binders target')
    (literals : literal.Resembles numbers binders literal')
    (each : Node.EntriesResemble numbers binders attributes attributes') :
    Agree numbers terms binders (define target literal isMutable attributes scope context)
      (define target' literal' isMutable attributes' scope context) := by
  refine (accords_evaluate fit.asked literals).andThen fun value carries => ?_
  refine (accords_evaluateAttributes fit.asked each).andThen fun attributes _ => ?_
  refine (accords_nameLiteral targets literals value).andThen fun _ _ => ?_
  refine (accords_defining fit isMutable targets carries).andThen fun _ _ => ?_
  exact (accords_decorating fit targets value attributes).andThen fun _ _ => accords_same trivial

omit fit in
mutual

theorem accords_locate (fit : terms.Fit numbers context) :
    ∀ (target other : Node) {binders : List Binder}, target.Resembles numbers binders other →
      Accords numbers terms (some binders) (Shared fun _ => True) (locate scope context target)
        (locate scope context other)
  | .mk shape span, .mk shape' span', _, targets => by
      cases targets with
      | mk shapes =>
          cases shapes with
          | identifier name => exact accords_same trivial
          | index targets places =>
              refine (accords_evaluate fit.asked targets).andThen fun target _ => ?_
              refine (accords_evaluate fit.asked places).andThen fun place _ => ?_
              split
              · exact accords_same trivial
              · exact accords_same trivial
              · exact (accords_glance _ fun store other stores => stores.literal _).andThen
                  fun _ _ => accords_fail (fit.bare _ rfl)
          | prop targets =>
              refine (accords_evaluate fit.asked targets).andThen fun target _ => ?_
              exact (accords_ofExcept fit.bare (Answered.asObj target)).andThen fun _ _ =>
                accords_same trivial
          | arr each =>
              exact (accords_locateItems fit [] _ _ each).andThen fun _ _ => accords_same trivial
          | obj each =>
              exact (accords_locateEntries fit [] _ _ each).andThen fun _ _ =>
                accords_same trivial
          | _ => exact accords_fail (fit.bare _ rfl)

theorem accords_locateItems (fit : terms.Fit numbers context) :
    ∀ (earlier : List Location) (targets others : List Node) {binders : List Binder},
      Node.Resemble numbers binders targets others →
        Accords numbers terms (some binders) (Shared fun _ => True)
          (locateItems scope context earlier targets) (locateItems scope context earlier others)
  | _, [], _, _, each => by
      cases each
      exact accords_same trivial
  | _, target :: rest, _, _, each => by
      cases each with
      | cons first others =>
          exact (accords_locate fit target _ first).andThen fun _ _ =>
            accords_locateItems fit _ rest _ others

theorem accords_locateEntries (fit : terms.Fit numbers context) :
    ∀ (earlier : List (String × Location)) (targets others : List (String × Node))
      {binders : List Binder}, Node.EntriesResemble numbers binders targets others →
        Accords numbers terms (some binders) (Shared fun _ => True)
          (locateEntries scope context earlier targets)
          (locateEntries scope context earlier others)
  | _, [], _, _, each => by
      cases each
      exact accords_same trivial
  | _, (_, target) :: rest, _, _, each => by
      cases each with
      | cons first others =>
          exact (accords_locate fit target _ first).andThen fun _ _ =>
            accords_locateEntries fit _ rest _ others

end

theorem accords_assign {target target' source source' : Node}
    (targets : target.Resembles numbers binders target')
    (sources : source.Resembles numbers binders source') :
    Agree numbers terms binders (assign target source scope context)
      (assign target' source' scope context) := by
  refine (accords_locate fit target target' targets).andThen fun location _ => ?_
  refine (accords_evaluate fit.asked sources).andThen fun value carries => ?_
  exact (accords_writing fit location (.inl carries)).andThen fun _ _ => accords_same trivial

/-- What a compound assignment writes is among the sums. -/
theorem accords_compound (operator : CompoundOperator) {target target' source source' : Node}
    (targets : target.Resembles numbers binders target')
    (sources : source.Resembles numbers binders source')
    (sums : ∀ number : Float, terms.sums number) :
    Agree numbers terms binders (compound operator target source scope context)
      (compound operator target' source' scope context) := by
  refine (accords_locate fit target target' targets).andThen fun location _ => ?_
  refine (accords_evaluateNum fit sources).andThen fun change _ => ?_
  refine (Accords.attempt fit.bare (accords_act (.read location) trivial)).andThen
    fun current carries => ?_
  refine (accords_ofExcept fit.bare (Answered.asNum carries)).andThen fun current _ => ?_
  exact (accords_writing fit location (.inr ⟨_, rfl, sums _⟩)).andThen fun _ _ =>
    accords_same trivial

omit fit in
theorem accords_fillTemplate (asked : terms.asks context.calls) {parts parts' : List Part}
    (each : Part.Resemble numbers binders parts parts') :
    Accords numbers terms (some binders) (Shared fun _ => True)
      (fillTemplate scope context parts) (fillTemplate scope context parts') := by
  have texts : Accords numbers terms (some binders) (Shared fun results => ∀ text ∈ results, True)
      (Rule.traverse (partText scope context) parts)
      (Rule.traverse (partText scope context) parts') := by
    induction parts generalizing parts' with
    | nil =>
        cases each
        exact accords_traverse_nil
    | cons part rest inductive_step =>
        cases each with
        | text others =>
            exact accords_traverse_cons (accords_same trivial) (inductive_step others)
        | expression first others =>
            refine accords_traverse_cons ?_ (inductive_step others)
            exact (accords_evaluate asked first).andThen fun value _ =>
              accords_glance _ fun store other stores => stores.display value
  exact texts.andThen fun _ _ => accords_same trivial

omit fit in
theorem accords_fallbacks (asked : terms.asks context.calls)
    {parameters parameters' : List Parameter}
    (each : Parameter.Resemble numbers binders parameters parameters') :
    Accords numbers terms (some binders)
      (Shared fun fallbacks => ∀ fallback ∈ fallbacks, ∀ value ∈ fallback,
        Value.Carries numbers value)
      (fallbacks scope context parameters) (fallbacks scope context parameters') := by
  induction parameters generalizing parameters' with
  | nil =>
      cases each
      exact accords_traverse_nil
  | cons parameter rest inductive_step =>
      cases each with
      | @cons _ _ _ isOptional _ _ _ _ targets fallbacks others =>
          refine accords_traverse_cons ?_ (inductive_step others)
          cases fallbacks with
          | none =>
              refine accords_same fun value present => ?_
              cases isOptional with
              | true =>
                  cases present
                  trivial
              | false => cases present
          | some nodes =>
              refine (accords_evaluate asked nodes).andThen fun value carries => ?_
              refine accords_same fun other present => ?_
              cases present
              exact carries

theorem accords_logical (operator : LogicalOperator) {left left' right right' : Node}
    (lefts : left.Resembles numbers binders left')
    (rights : right.Resembles numbers binders right') :
    Agree numbers terms binders (logical operator left right scope context)
      (logical operator left' right' scope context) := by
  refine (accords_evaluateBool fit lefts).andThen fun first _ => ?_
  split
  · exact accords_same trivial
  · exact accords_same trivial
  · exact (accords_evaluateBool fit rights).andThen fun _ _ => accords_same trivial

theorem accords_calling (function : FunctionId) {arguments : List Value} (site : Option Position)
    (carry : ∀ argument ∈ arguments, argument.Carries numbers) :
    Agree numbers terms binders (call (.apply function arguments context site))
      (call (.apply function arguments context site)) := by
  refine .call (.apply carry) fit.asked (fun outcome outcome' alike => .done ?_) fun _ => ⟨rfl, rfl⟩
  cases alike with
  | ok given => exact .ok given
  | signal signals => cases signals
  | error raised => exact raised.elim

theorem accords_binary (operator : BinaryOperator) {left left' right right' : Node}
    (lefts : left.Resembles numbers binders left')
    (rights : right.Resembles numbers binders right') :
    Agree numbers terms binders (binary operator left right scope context)
      (binary operator left' right' scope context) := by
  refine (accords_reading fit _).andThen fun callee _ => ?_
  refine (accords_ofExcept fit.bare (Answered.asFn callee)).andThen fun function _ => ?_
  refine (accords_evaluate fit.asked lefts).andThen fun first carries => ?_
  refine (accords_evaluate fit.asked rights).andThen fun second carries' => ?_
  exact accords_calling fit function none
    (List.forall_mem_cons.mpr ⟨carries, List.forall_mem_singleton.mpr carries'⟩)

/-! ### Properties -/

omit fit in
/-- A property that is a value carries what its owner does, or is a length. -/
theorem carries_found (ordinary : ∀ number : Float, number.isNaN = false → numbers number)
    {store : Store} {target : Value} (carries : target.Carries numbers) {name : String}
    {value : Value} (found : Property.find? store target name = some (.value value)) :
    value.Carries numbers := by
  cases target with
  | str text =>
      have found : Property.ofText? text name = some (.value value) := found
      unfold Property.ofText? at found
      split at found <;> cases found
      exact ordinary _ (Double.isNaN_ofNat _)
  | arr array =>
      have found : Property.ofArray? array _ name = some (.value value) := found
      unfold Property.ofArray? at found
      split at found <;> cases found
      exact ordinary _ (Double.isNaN_ofNat _)
  | error errorName =>
      have found : Property.ofError? errorName .null name = some (.value value) := found
      unfold Property.ofError? at found
      split at found <;> cases found <;> trivial
  | errorWith errorName information =>
      have found : Property.ofError? errorName information name = some (.value value) := found
      unfold Property.ofError? at found
      split at found <;> cases found
      · trivial
      · exact carries
  | num number | bool truth =>
      dsimp only [Property.find?] at found
      split at found <;> cases found
  | _ => cases found

omit fit in
theorem find?_resembles {store other : Store} (stores : store.Resembles numbers other)
    (target : Value) (name : String) :
    Property.find? other target name = Property.find? store target name := by
  cases target with
  | arr array =>
      unfold Property.find?
      dsimp only
      rw [stores.items]
  | _ => rfl

theorem accords_get {target : Value} (carries : target.Carries numbers) (name : String) :
    Agree numbers terms binders (Property.get target name) (Property.get target name) := by
  unfold Property.get
  split
  · rename_i object
    exact accords_look _ _ fun store other stores =>
      ⟨stores.entry object name, stores.contains.entry trivial object name⟩
  · refine (accords_look _ (fun found => ∀ value, found = some (.value value) →
      value.Carries numbers) fun store other stores =>
        ⟨find?_resembles stores target name, fun value found =>
          carries_found fit.ordinary carries found⟩).andThen fun found given => ?_
    split
    · exact accords_same (given _ rfl)
    · rename_i property
      have hostless : (Body.native (.method property)).Hostless := trivial
      exact (accords_perform (.newFunction (.native hostless))).bind fun _ _ same =>
        accords_pure ⟨congrArg Value.fn same, trivial⟩
    · exact accords_fail (fit.bare _ rfl)

omit fit in
theorem answered_character (text : String) (index : Float) :
    Answered (Value.Carries numbers) (Property.character text index) := by
  unfold Property.character
  split
  · trivial
  · rfl

theorem accords_item {target place : Value} (carries : place.Carries numbers) :
    Agree numbers terms binders (Property.item target place) (Property.item target place) := by
  cases target with
  | arr array =>
      refine (accords_ofExcept fit.bare (Answered.asNum carries)).andThen fun index _ => ?_
      refine (accords_look _ (fun items => ∀ value ∈ items, value.Carries numbers)
        fun store other stores => ⟨stores.items array, stores.contains.items array⟩).andThen
          fun items carry => ?_
      split
      · rename_i value found
        obtain ⟨place, -, present⟩ := Option.bind_eq_some_iff.mp found
        exact accords_same (carry value (Array.mem_of_getElem? present))
      · exact accords_fail (fit.bare _ rfl)
  | obj object =>
      exact (accords_ofExcept fit.bare (Answered.asStr place)).andThen fun name _ =>
        accords_look _ _ fun store other stores =>
          ⟨stores.entry object name, stores.contains.entry trivial object name⟩
  | str text =>
      exact (accords_ofExcept fit.bare (Answered.asNum carries)).andThen fun index _ =>
        accords_ofExcept fit.bare (answered_character text index)
  | _ =>
      exact (accords_glance _ fun store other stores => stores.literal place).andThen fun _ _ =>
        accords_fail (fit.bare _ rfl)

/-! ### Loops and signals -/

theorem accords_rangeLoop {label label' : Option String} (counter : String)
    {start start' : Option Node} {count count' body body' : Node}
    (starts : Node.ResembleIfAny numbers binders start start')
    (headers : count.Resembles numbers binders count')
    (bodies : body.Resembles numbers (⟨label, label', true⟩ :: binders) body') :
    Agree numbers terms binders (rangeLoop label counter start count body scope context)
      (rangeLoop label' counter start' count' body' scope context) := by
  have rest {first : Value} (carries : first.Carries numbers) :
      Agree numbers terms binders (do
          let count ← evaluate count scope context
          let first ← first.asNum
          let limit := first + (← count.asNum)
          Rule.call (.range label counter first limit body scope context)) (do
          let count ← evaluate count' scope context
          let first ← first.asNum
          let limit := first + (← count.asNum)
          Rule.call (.range label' counter first limit body' scope context)) := by
    refine (accords_evaluate fit.asked headers).andThen fun limit carriesLimit => ?_
    refine (accords_ofExcept fit.bare (Answered.asNum carries)).andThen fun first _ => ?_
    refine (accords_ofExcept fit.bare (Answered.asNum carriesLimit)).andThen fun limit _ => ?_
    exact accords_call (.range bodies) fit.asked
  cases starts with
  | none => exact rest (fit.ordinary _ (Double.isNaN_ofNat 0))
  | some nodes =>
      exact (accords_evaluate fit.asked nodes).andThen fun first carries => rest carries

omit fit in
theorem accords_breaking (asked : terms.asks context.calls) {label label' : Option String}
    {value value' : Option Node} (labels : Binder.ReferIfAny binders label label')
    (values : Node.ResembleIfAny numbers binders value value') (start : Position) :
    Agree numbers terms binders (construct scope context start (.breaking label value))
      (construct scope context start (.breaking label' value')) := by
  have rest {value : Option Value} (carries : ∀ carried ∈ value, carried.Carries numbers) :
      Agree numbers terms binders (do
          logBlock "break" scope none
          throw (.signal (.breaking label value))) (do
          logBlock "break" scope none
          throw (.signal (.breaking label' value))) :=
    (accords_logBlock "break" none).andThen fun _ _ => accords_signal (.breaking labels carries)
  cases values with
  | none => exact rest nofun
  | some nodes =>
      refine (accords_evaluate asked nodes).andThen fun value carries => rest ?_
      rintro _ ⟨⟩
      exact carries

/-- Constructs that are the same but for labels are in accord. -/
theorem accords_construct (start : Position) {shape shape' : Shape}
    (shapes : shape.Resembles numbers binders shape')
    (sums : ∀ operator target value, shape = .compound operator target value →
      ∀ number : Float, terms.sums number) :
    Agree numbers terms binders (construct scope context start shape)
      (construct scope context start shape') := by
  cases shapes with
  | namespaceBlock each => exact accords_same trivial
  | metadata => exact accords_same trivial
  | definition targets values each => exact accords_define fit _ targets values each
  | returning values =>
      refine (accords_evaluate fit.asked values).andThen fun value carries => ?_
      exact (accords_logBlock "return" (some value)).andThen fun _ _ =>
        accords_signal (.returning carries)
  | each patterns headers bodies =>
      refine (accords_evaluate fit.asked headers).andThen fun items _ => ?_
      refine (accords_ofExcept fit.bare (Answered.asArr items)).andThen fun array _ => ?_
      exact accords_call (.each patterns bodies) fit.asked
  | times headers bodies =>
      exact (accords_evaluateNum fit headers).andThen fun limit _ =>
        accords_call (.times bodies) fit.asked
  | range starts headers bodies => exact accords_rangeLoop fit _ starts headers bodies
  | loop each => exact accords_call (.loop each) fit.asked
  | breaking labels values => exact accords_breaking fit.asked labels values start
  | continuing labels =>
      exact (accords_logBlock "continue" none).andThen fun _ _ =>
        accords_signal (.continuing labels)
  | assign targets values => exact accords_assign fit targets values
  | compound targets values =>
      exact accords_compound fit _ targets values (sums _ _ _ rfl)
  | conditional each rest => exact accords_chooseBranch fit each rest
  | function each bodies =>
      refine (accords_fallbacks fit.asked each).andThen fun fallbacks carry => ?_
      refine (accords_perform (.newFunction (.closure each ?_ bodies))).bind fun _ _ same =>
        accords_pure ⟨congrArg Value.fn same, trivial⟩
      exact fun value mem => carry _ mem value rfl
  | selection subjects each rest =>
      exact (accords_evaluate fit.asked subjects).andThen fun subject _ =>
        accords_chooseCase fit subject each rest
  | block each =>
      exact (accords_openScope carries_empty).andThen fun _ _ =>
        accords_takingBreaks (accords_runAll fit.asked each)
  | existence name =>
      exact (accords_glance _ fun store other stores => stores.isBound scope name).andThen
        fun _ _ => accords_same trivial
  | template each =>
      exact (accords_fillTemplate fit.asked each).andThen fun _ _ => accords_same trivial
  | num written => exact accords_same written
  | str text | bool truth | null => exact accords_same trivial
  | obj each =>
      refine (accords_evaluateEntries fit.asked each).andThen fun values carry => ?_
      exact (accords_acting (.newObject values) carry fun _ _ => id).andThen fun _ _ =>
        accords_same trivial
  | arr each =>
      exact (accords_evaluateAll fit.asked each).andThen fun values carry =>
        accords_newArray carry
  | @unary _ operator _ _ operands =>
      cases operator with
      | not =>
          exact (accords_evaluateBool fit operands).andThen fun _ _ => accords_same trivial
      | plus =>
          exact (accords_evaluateNum fit operands).andThen fun _ carries => accords_same carries
      | minus =>
          exact (accords_evaluateNum fit operands).andThen fun number carries =>
            accords_same (fit.neg number carries)
  | binary lefts rights => exact accords_binary fit _ lefts rights
  | logical lefts rights => exact accords_logical fit _ lefts rights
  | identifier name => exact accords_reading fit name
  | call callees each =>
      refine (accords_evaluate fit.asked callees).andThen fun callee _ => ?_
      refine (accords_ofExcept fit.bare (Answered.asFn callee)).andThen fun function _ => ?_
      exact (accords_evaluateAll fit.asked each).andThen fun arguments carry =>
        accords_calling fit function (some start) carry
  | index targets places =>
      refine (accords_evaluate fit.asked targets).andThen fun target _ => ?_
      exact (accords_evaluate fit.asked places).andThen fun place carries =>
        accords_item fit carries
  | prop targets =>
      exact (accords_evaluate fit.asked targets).andThen fun target carries =>
        accords_get fit carries _
  | erased type => exact accords_fail (fit.bare _ rfl)

end Constructs

end Evaluation

end TreeScript
