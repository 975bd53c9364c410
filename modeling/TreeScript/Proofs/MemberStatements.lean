import TreeScript.Proofs.Evolution
import TreeScript.Proofs.Pace

/-!
# Members of a namespace as statements

There are two rules for a definition: one for the statements of a script, and one
for the members of a namespace, which are defined before the script runs.  Both
evaluate the value, then the attributes, name a function and bind the name.  But
a member evaluates its attributes in the scope around the namespace, and it is
defined even if evaluation has been stopped by then.

`Evaluation.collects_as_evaluated` says that nothing else makes a difference: where
no member's attributes tell these scopes apart and evaluation is not stopped, a
namespace is collected as if its members were statements.
-/

namespace TreeScript

open Rule

variable {options : Options} {host : Host} {mode : Mode} {world other reached : World}
variable {α β γ δ : Type}

/-! ## Endings that agree -/

/--
Endings that agree: with results that are related, or with errors for the same
cause.  Where one is left by a signal, the other makes an error of it.
-/
inductive EndingsAgree (related : α → β → Prop) :
    Except Interrupt α → Except Interrupt β → Prop where
  | ok {left : α} {right : β}
      (results : related left right) :
      EndingsAgree related (.ok left) (.ok right)
  | error {left right : Error}
      (same : left.cause = right.cause) :
      EndingsAgree related (.error (.error left)) (.error (.error right))
  | signal {error : Error} {signal : Signal} {text : String}
      (internal : error.cause = .internal text) :
      EndingsAgree related (.error (.error error)) (.error (.signal signal))

theorem EndingsAgree.error_iff {related : α → β → Prop} {relatedThen : γ → δ → Prop}
    {left right : Interrupt} (agree : EndingsAgree related (.error left) (.error right)) :
    EndingsAgree relatedThen (.error left) (.error right) := by
  cases agree with
  | error same => exact .error same
  | signal internal => exact .signal internal

/-- An error that is only located is for the same cause. -/
theorem EndingsAgree.mapError_right {related : α → β → Prop} {left : Except Interrupt α}
    {right : Except Interrupt β} (agree : EndingsAgree related left right) {change : Error → Error}
    (keeps : ∀ error, (change error).cause = error.cause) :
    EndingsAgree related left (right.mapError (Interrupt.mapError change)) := by
  cases agree with
  | ok results => exact .ok results
  | error same => exact .error (same.trans (keeps _).symm)
  | signal internal => exact .signal internal

namespace Rule

/-- Evaluation that has been stopped stays so up to the end of a rule. -/
theorem Ends.isStopped {rule : Rule α} {free : Bool} {result : Except Interrupt α}
    (ends : rule.Ends options host free world reached result)
    (running : reached.lifecycle.isStopped = false) :
    world.lifecycle.isStopped = false := by
  have evolves : world.lifecycle.Evolves reached.lifecycle :=
    Process.Ends.related (fun world next => world.lifecycle.Evolves next.lifecycle)
      (fun _ => .refl) .trans (fun world action => world.evolves_perform options action) ends
  refine eq_false_of_ne_true fun stopped => ?_
  cases (evolves.isStopped stopped).symm.trans running

/--
Two rules that come, each from its own world, to worlds that coincide and to
endings that agree, unless evaluation is stopped there.
-/
structure Alike (options : Options) (host : Host) (mode : Mode) (world other : World)
    (agree : Except Interrupt α → Except Interrupt β → Prop) (first : Rule α) (second : Rule β) :
    Prop where
  forth : ∀ {reached result}, first.Ends options host mode.isFree world reached result →
    reached.lifecycle.isStopped = false →
    ∃ next result', second.Ends options host mode.isFree other next result' ∧
      reached.Coincides next ∧ agree result result'
  back : ∀ {next result'}, second.Ends options host mode.isFree other next result' →
    next.lifecycle.isStopped = false →
    ∃ reached result, first.Ends options host mode.isFree world reached result ∧
      reached.Coincides next ∧ agree result result'

variable {first : Rule α} {second : Rule β} {related : α → β → Prop} {relatedThen : γ → δ → Prop}

theorem alike_pure {left : α} {right : β} (results : related left right)
    (coincides : world.Coincides other) :
    Alike options host mode world other (EndingsAgree related) (pure left) (pure right) where
  forth ends _ := by
    obtain ⟨rfl, rfl⟩ := ends_pure_iff.mp ends
    exact ⟨_, _, ends_pure_iff.mpr ⟨rfl, rfl⟩, coincides, .ok results⟩
  back ends _ := by
    obtain ⟨rfl, rfl⟩ := ends_pure_iff.mp ends
    exact ⟨_, _, ends_pure_iff.mpr ⟨rfl, rfl⟩, coincides, .ok results⟩

/-- Rules that are alike go on alike where they have given related results. -/
theorem Alike.bind {continuation : α → Rule γ} {continuation' : β → Rule δ}
    (alike : Alike options host mode world other (EndingsAgree related) first second)
    (goesOn : ∀ {between between' left right},
      first.Ends options host mode.isFree world between (.ok left) →
      between.Coincides between' → related left right →
      Alike options host mode between between' (EndingsAgree relatedThen) (continuation left)
        (continuation' right)) :
    Alike options host mode world other (EndingsAgree relatedThen) (first >>= continuation)
      (second >>= continuation') where
  forth ends running := by
    rcases ends_bind_iff.mp ends with ⟨between, left, before, after⟩ | ⟨interrupt, before, rfl⟩
    · obtain ⟨between', _, before', coincides, agree⟩ :=
        alike.forth before (after.isStopped running)
      cases agree with
      | ok results =>
          obtain ⟨next, result', after', coincides, agree⟩ :=
            (goesOn before coincides results).forth after running
          exact ⟨next, result', ends_bind_iff.mpr (.inl ⟨_, _, before', after'⟩), coincides, agree⟩
    · obtain ⟨next, result', before', coincides, agree⟩ := alike.forth before running
      cases result' with
      | ok _ => cases agree
      | error _ =>
          exact ⟨next, _, ends_bind_iff.mpr (.inr ⟨_, before', rfl⟩), coincides, agree.error_iff⟩
  back ends running := by
    rcases ends_bind_iff.mp ends with ⟨between, right, before, after⟩ | ⟨interrupt, before, rfl⟩
    · obtain ⟨_, _, before', coincides, agree⟩ := alike.back before (after.isStopped running)
      cases agree with
      | ok results =>
          obtain ⟨reached, result, after', coincides, agree⟩ :=
            (goesOn before' coincides results).back after running
          exact ⟨reached, result, ends_bind_iff.mpr (.inl ⟨_, _, before', after'⟩), coincides,
            agree⟩
    · obtain ⟨reached, result, before', coincides, agree⟩ := alike.back before running
      cases result with
      | ok _ => cases agree
      | error _ =>
          exact ⟨reached, _, ends_bind_iff.mpr (.inr ⟨_, before', rfl⟩), coincides,
            agree.error_iff⟩

/-- What is returned in the end makes no difference to what is done. -/
theorem Alike.returning {given : β → δ}
    (alike : Alike options host mode world other (EndingsAgree related) first second) :
    Alike options host mode world other (EndingsAgree fun _ _ => True) first
      (second >>= fun result => pure (given result)) := by
  rw [← bind_pure (x := first)]
  exact alike.bind fun _ coincides _ => alike_pure trivial coincides

section Minding

variable (unlimited : options.stepLimit = 0) (guests : host.IsTimeless)

include unlimited guests

/-- What only changes the endings of another rule, to ones that agree, is like that rule. -/
theorem alike_of_ends_iff {rule : Rule α} {changed : Rule β}
    {agree : Except Interrupt β → Except Interrupt α → Prop}
    (change : Except Interrupt α → Except Interrupt β)
    (ends : ∀ {reached result}, changed.Ends options host mode.isFree world reached result ↔
      ∃ given, rule.Ends options host mode.isFree world reached given ∧ result = change given)
    (agrees : ∀ {reached given}, rule.Ends options host mode.isFree world reached given →
      agree (change given) given)
    (minds : rule.Minds (.timeless mode)) (coincides : world.Coincides other) :
    Alike options host mode world other agree changed rule where
  forth ended _ := by
    obtain ⟨given, before, rfl⟩ := ends.mp ended
    obtain ⟨next, after, alike⟩ := before.coincides minds unlimited guests coincides
    exact ⟨next, given, after, alike, agrees before⟩
  back after _ := by
    obtain ⟨reached, before, alike⟩ := after.coincides minds unlimited guests coincides.symm
    exact ⟨reached, _, ends.mpr ⟨_, before, rfl⟩, alike.symm, agrees before⟩

/-- A rule that no signal leaves is like itself in another world. -/
theorem alike_self {rule : Rule α} (minds : rule.Minds (.timeless mode))
    (direct : ∀ {reached signal}, ¬ rule.Ends options host mode.isFree world reached
      (.error (.signal signal)))
    (coincides : world.Coincides other) :
    Alike options host mode world other (EndingsAgree Eq) rule rule := by
  refine alike_of_ends_iff unlimited guests id (by simp) ?_ minds coincides
  rintro reached ((signal | error) | value) ends
  · exact (direct ends).elim
  · exact .error rfl
  · exact .ok rfl

end Minding

end Rule

namespace Evaluation

variable {outer inner : Scope}

/-- On the way into a node only the pace changes. -/
theorem coincides_of_arrives {next : World} (arrives : world.Arrives options mode next) :
    world.Coincides next := by
  cases mode with
  | asynchronous => exact arrives.2 ▸ (World.Coincides.refl world).afterYield _
  | synchronous => exact arrives ▸ World.Coincides.refl world

/-- What is defined without having been stopped has found no pause in effect. -/
theorem exists_arrives {position : Position} {target literal : Node} {name : String}
    {attributes : List (String × Node)} {result : Except Interrupt Unit}
    (named : target.shape = .identifier name)
    (ends : (defineMember outer inner mode position target literal false attributes).Ends options
      host mode.isFree world reached result)
    (running : world.lifecycle.isStopped = false) (coincides : world.Coincides other) :
    ∃ entered, other.Arrives options mode entered := by
  have asked : ∃ between outcome, (evaluate literal inner (.top mode)).Ends options host mode.isFree
      world between outcome := by
    rw [defineMember_identifier named] at ends
    rcases ends_bind_iff.mp ends with ⟨between, value, ends, -⟩ | ⟨interrupt, ends, -⟩
    · exact ⟨_, _, ends_expectingValue_ok_iff.mp ends⟩
    · obtain ⟨given, ends, -⟩ := ends_expectingValue_iff.mp ends
      exact ⟨_, _, ends⟩
  obtain ⟨between, outcome, ends⟩ := asked
  rcases ends_evaluate_top_iff.mp ends with ⟨stopped, -⟩ | ⟨-, entered, given, arrives, -⟩
  · cases stopped.symm.trans running
  · cases mode with
    | asynchronous => exact ⟨_, coincides.lifecycle ▸ arrives.1, rfl⟩
    | synchronous => exact ⟨_, rfl⟩

/-! ## One member -/

section Members

variable (unlimited : options.stepLimit = 0) (guests : host.IsTimeless)

include unlimited guests

/-- A value is the same where no signal may leave the rule. -/
theorem alike_expectingValue {rule : Rule Value} (minds : rule.Minds (.timeless mode))
    (coincides : world.Coincides other) :
    Alike options host mode world other (EndingsAgree Eq) (expectingValue rule) rule := by
  refine alike_of_ends_iff unlimited guests _ ends_expectingValue_iff ?_ minds coincides
  rintro reached ((signal | error) | value) -
  · exact .signal rfl
  · exact .error rfl
  · exact .ok rfl

/--
Attributes are the same where no signal may leave the rule, and where another
rule for them ends alike.
-/
theorem alike_expectingAttributes {given rule : Rule (List Attribute)}
    (same : ∀ {reached result}, given.Ends options host mode.isFree world reached result ↔
      rule.Ends options host mode.isFree world reached result)
    (minds : rule.Minds (.timeless mode)) (coincides : world.Coincides other) :
    Alike options host mode world other (EndingsAgree Eq) (expectingAttributes given) rule := by
  refine alike_of_ends_iff unlimited guests _
    (ends_expectingAttributes_iff.trans (exists_congr fun _ => and_congr_left' same)) ?_ minds
    coincides
  rintro reached ((signal | error) | attributes) -
  · exact .signal rfl
  · exact .error rfl
  · exact .ok rfl

/-- Errors that are only located are for the same cause. -/
theorem alike_mapError {rule : Rule α} (minds : rule.Minds (.timeless mode))
    {change : Error → Error} (keeps : ∀ error, (change error).cause = error.cause)
    (direct : ∀ {reached signal}, ¬ rule.Ends options host mode.isFree world reached
      (.error (.signal signal)))
    (coincides : world.Coincides other) :
    Alike options host mode world other (EndingsAgree Eq) (mapError change rule) rule := by
  refine alike_of_ends_iff unlimited guests _ ends_mapError_iff ?_ minds coincides
  rintro reached ((signal | error) | value) ends
  · exact (direct ends).elim
  · exact .error (keeps error)
  · exact .ok rfl

omit unlimited guests in
theorem signal_ne_mapError {given : Except Error α} {signal : Signal} :
    (.error (.signal signal) : Except Interrupt α) ≠ given.mapError .error := by
  cases given <;> nofun

omit unlimited guests in
theorem not_ends_nameLiteral {scope : Scope} {target literal : Node} {value : Value}
    {signal : Signal} :
    ¬ (nameLiteral scope target literal value).Ends options host mode.isFree world reached
      (.error (.signal signal)) := by
  intro ends
  unfold nameLiteral at ends
  split at ends
  · cases (ends_perform_iff.mp ends).2
  · cases (ends_pure_iff.mp ends).2

/-- A definition does as a member what it does as a statement, if its attributes do. -/
theorem alike_defineMember {position : Position} {target literal : Node} {name : String}
    {attributes : List (String × Node)} (named : target.shape = .identifier name)
    (same : ∀ {between value}, (evaluate literal inner (.top mode)).Ends options host mode.isFree
      world between (.ok value) → ∀ {next result},
        (evaluateAttributes outer (.top mode) attributes).Ends options host mode.isFree between
            next result ↔
          (evaluateAttributes inner (.top mode) attributes).Ends options host mode.isFree between
            next result)
    (coincides : world.Coincides other) :
    Alike options host mode world other (EndingsAgree fun _ _ => True)
      (defineMember outer inner mode position target literal false attributes)
      (define target literal false attributes inner (.top mode)) := by
  have closed : Closed (Context.top mode).mode fun _ rule => rule.Minds (.timeless mode) :=
    (Manner.plain_timeless mode).closed
  have valuing : (evaluate literal inner (.top mode)).Minds (.timeless mode) :=
    closed_evaluate closed literal
  have attributing : (evaluateAttributes inner (.top mode) attributes).Minds (.timeless mode) :=
    closed_evaluateAttributes closed attributes
  have naming (value : Value) :
      (nameLiteral inner target literal value).Minds (.timeless mode) :=
    closed_nameLiteral closed (fun _ _ => minds_perform ((Manner.plain_timeless mode).acts
      (.nameFunction _ _) trivial)) target literal value
  have defining (value : Value) :
      (attempt (perform (.define inner false target value))).Minds (.timeless mode) :=
    closed_defining closed false target value
  have decorating (value : Value) (attributes : List Attribute) :
      (attempt (perform (.decorate inner target value attributes))).Minds (.timeless mode) :=
    closed_attempt closed (minds_perform ((Manner.plain_timeless mode).acts
      (.decorate inner target value attributes) trivial))
  have placed (error : Error) : (error.positioned position).cause = error.cause := rfl
  rw [defineMember_identifier named, define]
  refine (alike_expectingValue unlimited guests valuing coincides).bind
    fun {_ _ value _} valued coincides results => ?_
  cases results
  refine (alike_expectingAttributes unlimited guests
    (same (ends_expectingValue_ok_iff.mp valued)) attributing coincides).bind
    fun {_ _ attributes _} _ coincides results => ?_
  cases results
  refine (alike_self unlimited guests (naming value) not_ends_nameLiteral coincides).bind
    fun _ coincides _ => ?_
  refine (alike_mapError unlimited guests (defining value) placed
    (fun ends => signal_ne_mapError (ends_attempt_define_iff.mp ends).2) coincides).bind
    fun _ coincides _ => ?_
  exact (alike_self unlimited guests (decorating value attributes)
    (fun ends => signal_ne_mapError (ends_attempt_decorate_iff.mp ends).2) coincides).returning

/-- A member is defined as the statement is evaluated, if its attributes are. -/
theorem alike_member {member target literal : Node} {name : String}
    {attributes : List (String × Node)}
    (shape : member.shape = .definition target literal false attributes)
    (named : target.shape = .identifier name)
    (same : ∀ {between value}, (evaluate literal inner (.top mode)).Ends options host mode.isFree
      world between (.ok value) → ∀ {next result},
        (evaluateAttributes outer (.top mode) attributes).Ends options host mode.isFree between
            next result ↔
          (evaluateAttributes inner (.top mode) attributes).Ends options host mode.isFree between
            next result)
    (coincides : world.Coincides other) :
    Alike options host mode world other (EndingsAgree fun _ _ => True)
      (defineMember outer inner mode member.start target literal false attributes)
      (evaluate member inner (.top mode)) := by
  -- The statement is a node of its own, so there is one more step in front of it.
  have behind {entered : World} (arrives : other.Arrives options mode entered) :
      Alike options host mode world (entered.tick options).2 (EndingsAgree fun _ _ => True)
        (defineMember outer inner mode member.start target literal false attributes)
        (if (entered.tick options).1 then construct inner (.top mode) member.start member.shape
          else fail (.of .stepLimit)) := by
    have ticks : (entered.tick options).1 = true := by simp [World.tick, unlimited]
    rw [ticks, shape]
    exact alike_defineMember unlimited guests named same
      ((coincides.trans (coincides_of_arrives arrives)).tick options)
  constructor
  · intro reached result ends running
    have started := coincides.lifecycle ▸ ends.isStopped running
    obtain ⟨entered, arrives⟩ := exists_arrives named ends (ends.isStopped running) coincides
    obtain ⟨next, given, ends, coincides, agree⟩ := (behind arrives).forth ends running
    exact ⟨next, _, ends_evaluate_top_iff.mpr (.inr ⟨started, entered, given, arrives, ends, rfl⟩),
      coincides, agree.mapError_right fun error => error.cause_locate member.start []⟩
  · intro next result ends running
    rcases ends_evaluate_top_iff.mp ends with
      ⟨stopped, rfl, -⟩ | ⟨-, entered, given, arrives, constructs, rfl⟩
    · cases stopped.symm.trans running
    · obtain ⟨reached, result, ends, coincides, agree⟩ := (behind arrives).back constructs running
      exact ⟨reached, result, ends, coincides,
        agree.mapError_right fun error => error.cause_locate member.start []⟩

end Members

end Evaluation

/-! ## All members -/

/-- A definition of an immutable variable with a plain name. -/
def Node.DefinesConstant (node : Node) : Prop :=
  ∃ target literal attributes name, node.shape = .definition target literal false attributes ∧
    target.shape = .identifier name

/-- Whether the attributes of a definition are literals. -/
def Node.attributesAreLiterals (node : Node) : Bool :=
  match node.shape with
  | .definition _ _ _ attributes => attributes.all fun entry => entry.2.shape.literal?.isSome
  | _ => true

namespace Evaluation

section Collection

variable (options : Options) (host : Host) (mode : Mode) (outer inner : Scope)

/--
Whenever the members in front of one have been defined and its value has been
evaluated, its attributes end alike in both scopes.
-/
def AttributesAgree (world : World) (members : List Node) : Prop :=
  ∀ (earlier : List Node) {later : List Node} {member target literal : Node} {isMutable : Bool}
    {attributes : List (String × Node)},
    members = earlier ++ member :: later →
    member.shape = .definition target literal isMutable attributes →
    ∀ {before between : World} {value : Value},
      (defineMembers outer inner mode earlier).Ends options host mode.isFree world before (.ok ()) →
      (evaluate literal inner (.top mode)).Ends options host mode.isFree before between
        (.ok value) →
      ∀ {next : World} {result : Except Interrupt (List Attribute)},
        (evaluateAttributes outer (.top mode) attributes).Ends options host mode.isFree between
            next result ↔
          (evaluateAttributes inner (.top mode) attributes).Ends options host mode.isFree between
            next result

variable {options host mode outer inner}

theorem defineMembers_cons {member target literal : Node} {attributes : List (String × Node)}
    (shape : member.shape = .definition target literal false attributes) (rest : List Node) :
    defineMembers outer inner mode (member :: rest) =
      defineMember outer inner mode member.start target literal false attributes >>= fun _ =>
        defineMembers outer inner mode rest := by
  rw [defineMembers, shape]

variable (unlimited : options.stepLimit = 0) (guests : host.IsTimeless)

include unlimited guests

/-- Members are defined one after the other as the statements are evaluated. -/
theorem alike_defineMembers {members : List Node}
    (constants : ∀ member ∈ members, member.DefinesConstant)
    (agree : AttributesAgree options host mode outer inner world members)
    (coincides : world.Coincides other) :
    Alike options host mode world other (EndingsAgree fun _ _ => True)
      (defineMembers outer inner mode members) (evaluateAll inner (.top mode) members) := by
  induction members generalizing world other with
  | nil => exact alike_pure trivial coincides
  | cons member rest inductive_step =>
      obtain ⟨target, literal, attributes, name, shape, named⟩ := constants member (.head rest)
      rw [defineMembers_cons shape, evaluateAll, traverse_cons]
      refine (alike_member unlimited guests shape named
        (agree [] rfl shape (ends_pure_iff.mpr ⟨rfl, rfl⟩)) coincides).bind
        fun defined coincides _ => ?_
      refine (inductive_step (fun member inside => constants member (.tail _ inside)) ?_
        coincides).returning
      intro earlier later next target literal isMutable attributes split shape before between value
        ends valued
      refine agree (member :: earlier) (congrArg (member :: ·) split) shape ?_ valued
      rw [defineMembers_cons ‹_›]
      exact ends_bind_iff.mpr (.inl ⟨_, _, defined, ends⟩)

end Collection

/-- Among definitions there are no namespaces to collect. -/
theorem collect_of_constants {scope : Scope} {members : List Node}
    (constants : ∀ member ∈ members, member.DefinesConstant) :
    collect mode scope members = pure () := by
  induction members with
  | nil => rfl
  | cons member rest inductive_step =>
      obtain ⟨target, literal, attributes, name, shape, -⟩ := constants member (.head rest)
      rcases member with ⟨_, span⟩
      cases shape
      rw [collect, inductive_step fun member inside => constants member (.tail _ inside)]
      rfl

variable {outer : Scope}

/--
A namespace whose members are definitions of constants is collected as if they
were statements in its scope, unless attributes tell that scope from the one
around it or evaluation is stopped: the same values, functions and attributes
are bound to the same names, and failures have the same cause.
-/
theorem collects_as_evaluated (unlimited : options.stepLimit = 0) (guests : host.IsTimeless)
    {space : String} {members : List Node} {span : Span}
    (constants : ∀ member ∈ members, member.DefinesConstant) :
    let inner : Scope := .member (world.perform options (.newLayer .empty)).1 space outer
    let opened := (world.perform options (.newLayer .empty)).2
    AttributesAgree options host mode outer inner opened members →
    Alike options host mode world opened (EndingsAgree fun _ _ => True)
      (collectNode mode outer (.mk (.namespaceBlock space members) span))
      (evaluateAll inner (.top mode) members) := by
  intro inner opened agree
  have alike := alike_defineMembers unlimited guests constants agree (.refl opened)
  have collects {reached : World} {result : Except Interrupt Unit} :
      (collectNode mode outer (.mk (.namespaceBlock space members) span)).Ends options host
          mode.isFree world reached result ↔
        (defineMembers outer inner mode members).Ends options host mode.isFree opened reached
          result := by
    rw [collectNode]
    refine ends_perform_bind_iff.trans ?_
    show Ends options host mode.isFree opened (collect mode inner members >>= fun _ =>
      defineMembers outer inner mode members) reached result ↔ _
    rw [collect_of_constants constants, pure_bind]
  exact ⟨fun ends => alike.forth (collects.mp ends), fun ends running =>
    let ⟨reached, result, ends, agree⟩ := alike.back ends running
    ⟨reached, result, collects.mpr ends, agree⟩⟩

/-- Attributes that are literals do not tell scopes apart. -/
theorem attributesAgree_of_literals {inner : Scope} {members : List Node}
    (literals : ∀ member ∈ members, member.attributesAreLiterals = true) :
    AttributesAgree options host mode outer inner world members := by
  intro earlier later member target literal isMutable attributes split shape before between value
    _ _ next result
  have given := literals member (by simp [split])
  rw [Node.attributesAreLiterals, shape] at given
  refine ends_bind_congr (ends_traverse_congr fun entry inside => ?_) .rfl
  obtain ⟨value, literal⟩ := Option.isSome_iff_exists.mp (List.all_eq_true.mp given entry inside)
  exact ends_bind_congr (ends_literal_congr literal) .rfl

/-! ## An attribute that tells the scopes apart -/

section Concrete

/-- Two members, the second of which may have an attribute. -/
def twoMembers (attributes : List (String × Node)) : List Node := [
  .of (.definition (.of (.identifier "y")) (.of (.bool true)) false []),
  .of (.definition (.of (.identifier "x")) (.of (.bool false)) false attributes)]

theorem definesConstant_of_twoMembers (attributes : List (String × Node)) :
    ∀ member ∈ twoMembers attributes, member.DefinesConstant := by
  simp [twoMembers, Node.DefinesConstant, Node.of, Node.shape]

/-- An interpreter without natives of a host. -/
def bare : Interpreter :=
  Interpreter.create (.silent 0 Options.defaultDepthLimit) Host.none [] [] []

/-- A namespace with such members. -/
def twoInside (attributes : List (String × Node)) : Node :=
  .of (.namespaceBlock "N" (twoMembers attributes))

/-- The world in which its layer has been made. -/
def openedForTwo : World :=
  (bare.world.perform bare.options (.newLayer .empty)).2

/-- The rule for its members as statements in its scope. -/
def twoStatements (attributes : List (String × Node)) : Rule (List Value) :=
  evaluateAll (.member ⟨1⟩ "N" bare.root) (.top .asynchronous) (twoMembers attributes)

/-- An attribute that is a literal makes no difference. -/
theorem collects_as_evaluated_literal :
    (∃ reached, (collectNode .asynchronous bare.root (twoInside [("a", .of .null)])).Ends
      bare.options bare.host true bare.world reached (.ok ())) ∧
    Alike bare.options bare.host .asynchronous bare.world openedForTwo
      (EndingsAgree fun _ _ => True)
      (collectNode .asynchronous bare.root (twoInside [("a", .of .null)]))
      (twoStatements [("a", .of .null)]) := by
  have unlimited : bare.options.stepLimit = 0 := rfl
  constructor
  · obtain ⟨result, ends, same⟩ := ends_of_run bare.options bare.host bare.world
      (collectNode .asynchronous bare.root (twoInside [("a", .of .null)])) 28 rfl
    cases result with
    | error _ => cases same
    | ok _ => exact ⟨_, ends⟩
  · exact collects_as_evaluated unlimited Host.isTimeless_none (definesConstant_of_twoMembers _)
      (attributesAgree_of_literals (by simp [twoMembers]; decide))

/--
An attribute that mentions a member in front of it: as statements the definitions
succeed, but as members they fail, since the attribute is evaluated around the
namespace.
-/
theorem exists_unlike_statements :
    (∃ reached error,
      (collectNode .asynchronous bare.root (twoInside [("a", .of (.identifier "y"))])).Ends
        bare.options bare.host true bare.world reached (.error (.error error)) ∧
      error.cause = .unknownIdentifier "y" "<root>") ∧
    ∃ reached values,
      (twoStatements [("a", .of (.identifier "y"))]).Ends bare.options bare.host true openedForTwo
        reached (.ok values) := by
  constructor
  · obtain ⟨result, ends, same⟩ := ends_of_run bare.options bare.host bare.world
      (collectNode .asynchronous bare.root (twoInside [("a", .of (.identifier "y"))])) 26 rfl
    rcases result with (signal | error) | given
    · cases same
    · cases same
      exact ⟨_, _, ends, rfl⟩
    · cases same
  · obtain ⟨result, ends, same⟩ := ends_of_run bare.options bare.host openedForTwo
      (twoStatements [("a", .of (.identifier "y"))]) 36 rfl
    cases result with
    | error _ => cases same
    | ok values => exact ⟨_, values, ends⟩

end Concrete

end Evaluation

end TreeScript
