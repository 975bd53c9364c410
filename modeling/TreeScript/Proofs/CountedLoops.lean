import TreeScript.Proofs.Fresh
import TreeScript.Proofs.Rounds
import TreeScript.Proofs.WholeNumbers

/-!
# Counted loops

A loop that runs a number of times counts up to it, with or without a name for the
number of the round.  `CountedLoop.runs_count_times` shows that it counts without a
mistake as long as all numbers are whole and do not exceed 2 ^ 53 in magnitude: it
has exactly as many rounds as it is asked for, unless a round breaks it, and the
name is bound to the numbers from the first one on.
-/

namespace TreeScript

open Double Evaluation

/-- What a loop counts with: nothing that its body can see, or a name, and where that begins. -/
inductive Counter where
  | hidden
  | named (name : String) (start : Option Node)

/-- A loop that runs a number of times, where it stands. -/
structure CountedLoop where
  label : Option String
  counter : Counter
  count : Node
  body : Node
  scope : Scope
  context : Context

namespace Counter

/-- The node that gives the first number, if there is one. -/
def start? : Counter → Option Node
  | .hidden => none
  | .named _ start => start

/-- The first number that is not counted any more. -/
def limit (first number : Float) : Counter → Float
  | .hidden => number
  | .named _ _ => first + number

/-- Numbers that can be counted without a mistake. -/
def CanCount (start count : Int) : Counter → Prop
  | .hidden => count ≤ 2 ^ 53
  | .named _ _ => start.natAbs ≤ 2 ^ 53 ∧ (start + count).natAbs ≤ 2 ^ 53

/--
The scope for a round, and the world in which there is this scope: that of the loop,
or a new child of it that binds the name to the number for good.
-/
inductive Opens (scope : Scope) (number : Float) (start : World) :
    Counter → World → Scope → Prop where
  | hidden : Opens scope number start .hidden start scope
  | named {name : String} {first : Option Node} {layer : LayerId} {opened : World}
      (opens : start.OpensLayer (Dict.empty.insert name (.constant (.num number))) layer opened) :
      Opens scope number start (.named name first) opened (.child layer scope)

end Counter

section Clauses

variable (options : Options) (host : Host) (body : Node) (context : Context)

/-- The world in which the goal of a clause is evaluated. -/
def clauseWorld (world : World) : World :=
  if body.isStatement then (world.perform options (.newLayer .empty)).2 else world

/-- The goal of a clause. -/
def clauseGoal (world : World) (scope : Scope) : Goal :=
  .evaluate body
    (if body.isStatement then .child (world.perform options (.newLayer .empty)).1 scope else scope)
    context

theorem enters_clause (world : World) (scope : Scope) :
    (evaluateClause body scope context).Enters options host world
      (clauseWorld options body world) (clauseGoal options body context world scope) := by
  rw [evaluateClause, clauseWorld, clauseGoal]
  cases body.isStatement with
  | false => exact Rule.enters_call _
  | true => exact .perform (Rule.enters_call _)

end Clauses

namespace Counter

variable (options : Options) (scope : Scope) (number : Float) (start : World)

/-- The world in which there is the scope for a round. -/
def world : Counter → World
  | .hidden => start
  | .named name _ =>
      (start.perform options
        (.newLayer (Dict.empty.insert name (.constant (.num number))))).2

/-- The scope for a round. -/
def inner : Counter → Scope
  | .hidden => scope
  | .named name _ =>
      .child (start.perform options
        (.newLayer (Dict.empty.insert name (.constant (.num number))))).1 scope

theorem opens_world_inner (counter : Counter) :
    counter.Opens scope number start (counter.world options number start)
      (counter.inner options scope number start) := by
  cases counter with
  | hidden => exact .hidden
  | named name first => exact .named (start.opensLayer_perform options _)

end Counter

namespace CountedLoop

variable (loop : CountedLoop)

/-- The construct of the loop. -/
def shape : Shape :=
  match loop.counter with
  | .hidden => .times loop.label loop.count loop.body
  | .named name start => .range loop.label name start loop.count loop.body

/-- What is left of the loop when a number comes next. -/
def rest (number limit : Float) : Goal :=
  match loop.counter with
  | .hidden => .times loop.label number limit loop.body loop.scope loop.context
  | .named name _ => .range loop.label name number limit loop.body loop.scope loop.context

section Turns

variable (options : Options) (host : Host)

/-- What the loop does about a number. -/
def entry (number limit : Float) (start : World) : Entry :=
  if number < limit then
    if start.lifecycle.isStopped then .finished
    else
      let opened := loop.counter.world options number start
      .body (clauseWorld options loop.body opened)
        (clauseGoal options loop.body loop.context opened
          (loop.counter.inner options loop.scope number start))
  else .finished

theorem ofGoal_rest_of_not_lt {number limit : Float} (passed : ¬number < limit) :
    ofGoal options host (loop.rest number limit) = .done finished := by
  have isOver : (!decide (number < limit)) = true := by simpa using passed
  rw [rest]
  cases loop.counter with
  | hidden =>
      rw [ofGoal, turn, timesTurn, if_pos isOver]
      rfl
  | named name start =>
      rw [ofGoal, turn, rangeTurn, if_pos isOver]
      rfl

/-- The process of the loop when there is still something to count. -/
theorem ofGoal_rest_of_lt {number limit : Float} (counts : number < limit) :
    ofGoal options host (loop.rest number limit) =
      .act .isStopped fun stopped =>
        if stopped then .done finished
        else
          let next (inner : Scope) :=
            (evaluateClause loop.body inner loop.context).run.bind fun outcome =>
              .done (Entry.turnAfterBody loop.label
                (loop.rest (number + Float.ofNat 1) limit) outcome)
          match loop.counter with
          | .hidden => next loop.scope
          | .named name _ =>
              .act (.newLayer (Dict.empty.insert name (.constant (.num number)))) fun layer =>
                next (.child layer loop.scope) := by
  have goesOn : ¬(!decide (number < limit)) = true := by simpa using counts
  simp only [rest]
  cases loop.counter with
  | hidden =>
      rw [ofGoal, turn, timesTurn, if_neg goesOn]
      refine congrArg (Process.act Action.isStopped) (funext fun stopped => ?_)
      cases stopped with
      | true => rfl
      | false => exact process_turnAfter _ _ _
  | named name first =>
      rw [ofGoal, turn, rangeTurn, if_neg goesOn]
      refine congrArg (Process.act Action.isStopped) (funext fun stopped => ?_)
      cases stopped with
      | true => rfl
      | false => exact congrArg (Process.act _) (funext fun layer => process_turnAfter _ _ _)

theorem comesTo_entry (number limit : Float) (start : World) :
    Task.ComesTo options host start
      (Task.forGoal options host (loop.rest number limit))
      ((loop.entry options number limit start).world start)
      ⟨(loop.entry options number limit start).process loop.label
        (loop.rest (number + Float.ofNat 1) limit), []⟩ := by
  rw [entry, Task.forGoal]
  split
  · rename_i counts
    rw [loop.ofGoal_rest_of_lt options host counts]
    refine .act ?_
    dsimp only [World.perform]
    cases start.lifecycle.isStopped with
    | true => exact .refl _ _
    | false =>
        cases loop.counter with
        | hidden => exact enters_clause options host loop.body loop.context start loop.scope _
        | named name first => exact .act (enters_clause options host loop.body loop.context _ _ _)
  · rename_i passed
    rw [loop.ofGoal_rest_of_not_lt options host passed]
    exact .refl _ _

/-- The loop, once its header has been evaluated. -/
def looping (first limit : Float) : Looping options host where
  label := loop.label
  rest place := loop.rest (counted first place) limit
  entry place start := loop.entry options (counted first place) limit start
  enters place start :=
    loop.comesTo_entry options host (counted first place) limit start

end Turns

section Rounds

variable (options : Options) (host : Host) (meanwhile : Wait → World → World → Prop)

/-- A round of the loop: the body is evaluated in a scope that has been made for its number. -/
structure IsRound (first : Float) (place : Nat) (round : Round) : Prop where
  running : round.start.lifecycle.isStopped = false
  evaluates : ∃ opened inner,
    loop.counter.Opens loop.scope (counted first place) round.start opened inner ∧
    Task.EndsAmid options host meanwhile opened
      (Task.ofRule (evaluateClause loop.body inner loop.context)) round.ended round.outcome

/-- Evaluation has not been stopped, and the body comes to an end in a scope for its number. -/
structure BodyEnsures (holds : Outcome → Prop) (first : Float) (place : Nat) (start : World) :
    Prop where
  running : start.lifecycle.isStopped = false
  ensures : ∀ opened inner, loop.counter.Opens loop.scope (counted first place) start opened inner →
    Task.Ensures options host meanwhile (fun _ outcome => holds outcome) opened
      (Task.ofRule (evaluateClause loop.body inner loop.context))

variable {options host meanwhile} {first limit : Float} {place : Nat} {round : Round}

theorem isRound_of_looping
    (isRound : (loop.looping options host first limit).IsRound meanwhile place
      round) :
    loop.IsRound options host meanwhile first place round := by
  obtain ⟨opened, goal, entered, ends⟩ := isRound
  simp only [looping, entry] at entered
  split at entered
  · split at entered
    · cases entered
    · rename_i running
      cases entered
      exact {
        running := eq_false_of_ne_true running
        evaluates := ⟨_, _, loop.counter.opens_world_inner options loop.scope _ _,
          (enters_clause options host loop.body loop.context _ _).endsAmid_iff.mpr ends⟩ }
  · cases entered

/-- What the body ensures holds of the outcome of a round. -/
theorem BodyEnsures.holds_of_isRound {holds : Outcome → Prop}
    (ensures : loop.BodyEnsures options host meanwhile holds first place round.start)
    (isRound : loop.IsRound options host meanwhile first place round) :
    holds round.outcome := by
  obtain ⟨opened, inner, opens, ends⟩ := isRound.evaluates
  exact (ensures.ensures opened inner opens).holds_of_endsAmid ends

theorem BodyEnsures.imp {holds holds' : Outcome → Prop} {start : World}
    (implies : ∀ outcome, holds outcome → holds' outcome)
    (ensures : loop.BodyEnsures options host meanwhile holds first place start) :
    loop.BodyEnsures options host meanwhile holds' first place start where
  running := ensures.running
  ensures opened inner opens :=
    (ensures.ensures opened inner opens).strengthen fun _ outcome _ => implies outcome

/-- The loop enters its body at a place that is before the limit. -/
theorem bodyEnsures_looping {start : World} {holds : Outcome → Prop}
    (counts : counted first place < limit)
    (ensures : loop.BodyEnsures options host meanwhile holds first place start) :
    ∃ opened goal,
      (loop.looping options host first limit).entry place start =
        .body opened goal ∧
      Task.Ensures options host meanwhile (fun _ outcome => holds outcome) opened
        (Task.forGoal options host goal) := by
  refine ⟨_, _, ?_, (enters_clause options host loop.body loop.context _ _).ensures_iff.mp
    (ensures.ensures _ _ (loop.counter.opens_world_inner options loop.scope _ _))⟩
  simp only [looping, entry]
  rw [if_pos counts, ensures.running]
  rfl

/-- A loop between whole numbers has as many rounds as there are numbers, unless it is broken. -/
theorem ensures_completes {start count : Int} {entered : World}
    (isFirst : integer? first = some start) (isLimit : integer? limit = some (start + count))
    (bounded : start.natAbs ≤ 2 ^ 53) (within : start + count ≤ 2 ^ 53)
    (uninterrupted : ∀ rounds between,
      Rounds loop.label (loop.IsRound options host meanwhile first) entered rounds
        between →
      rounds.length < count.toNat →
      loop.BodyEnsures options host meanwhile
        (fun outcome => ∀ interrupt, Iteration.ofOutcome loop.label outcome ≠ .propagate interrupt)
        first rounds.length between) :
    Task.Ensures options host meanwhile
      (fun reached outcome => outcome = .ok .null ∧
        Completes loop.label (loop.IsRound options host meanwhile first) entered
          count.toNat reached)
      entered (Task.forGoal options host (loop.rest first limit)) := by
  have counts (place : Nat) (inside : place ≤ count.toNat) :
      counted first place < limit ↔ start + place < start + count :=
    lt_iff (integer?_counted isFirst bounded (by omega)) isLimit
  let goals := loop.looping options host first limit
  have isOver : ∀ rounds between,
      Rounds goals.label (goals.IsRound meanwhile) entered rounds between →
      rounds.length = count.toNat → goals.entry count.toNat between = .finished := by
    intro rounds between _ _
    refine if_neg fun passes => ?_
    have further := (counts count.toNat (Nat.le_refl _)).mp passes
    omega
  have goesOn : ∀ rounds between,
      Rounds goals.label (goals.IsRound meanwhile) entered rounds between →
      rounds.length < count.toNat → goals.BodyEnsures meanwhile rounds.length between := by
    intro rounds between run fewer
    have run := run.imp fun _ _ => loop.isRound_of_looping
    refine loop.bodyEnsures_looping ?_ (uninterrupted rounds between run fewer)
    rw [counts rounds.length (Nat.le_of_lt fewer)]
    omega
  refine (Looping.ensures isOver goesOn).strengthen fun reached outcome _ fits => ?_
  exact ⟨fits.1, fits.2.imp fun _ _ => loop.isRound_of_looping⟩

end Rounds

section Header

variable (options : Options) (host : Host) (meanwhile : Wait → World → World → Prop)

/-- The number of rounds is evaluated, and something holds of the world and of the number. -/
def CountEnsures (ready : World → Float → Prop) (world : World) : Prop :=
  Task.Ensures options host meanwhile
    (fun entered outcome => ∃ number, outcome = .ok (.num number) ∧ ready entered number)
    world (Task.forGoal options host (.evaluate loop.count loop.scope loop.context))

/-- The header is evaluated, and something holds of the world and of the numbers it gives. -/
def HeaderEnsures (ready : World → Float → Float → Prop) (world : World) : Prop :=
  match loop.counter.start? with
  | none =>
      loop.CountEnsures options host meanwhile
        (fun entered number => ready entered (Float.ofNat 0) number) world
  | some node =>
      Task.Ensures options host meanwhile
        (fun between outcome => ∃ first, outcome = .ok (.num first) ∧
          loop.CountEnsures options host meanwhile
            (fun entered number => ready entered first number) between)
        world (Task.forGoal options host (.evaluate node loop.scope loop.context))

variable {options host meanwhile}

/-- After its header the construct is the loop from the first number to the limit. -/
theorem ensures_construct {ready : World → Float → Float → Prop} {holds : World → Outcome → Prop}
    {world : World} (position : Position)
    (header : loop.HeaderEnsures options host meanwhile ready world)
    (goesOn : ∀ entered first number, ready entered first number →
      (loop.counter.start? = none → first = Float.ofNat 0) →
      Task.Ensures options host meanwhile holds entered
        (Task.forGoal options host
          (loop.rest first (loop.counter.limit first number)))) :
    Task.Ensures options host meanwhile holds world
      (Task.ofRule (construct loop.scope loop.context position loop.shape)) := by
  rcases loop with ⟨label, counter, count, body, scope, context⟩
  cases counter with
  | hidden =>
      have split : construct scope context position (.times label count body) =
          (do
            let value ← Rule.call (.evaluate count scope context)
            let limit ← value.asNum
            Rule.call (.times label (Float.ofNat 0) limit body scope context)) :=
        bind_assoc _ _ _
      refine split ▸ Rule.ensures_call_bind (header.strengthen fun entered outcome _ fits => ?_)
      obtain ⟨number, rfl, isReady⟩ := fits
      exact ⟨_, rfl, (Rule.enters_call _).ensures_iff.mpr
        (goesOn _ _ _ isReady fun _ => rfl)⟩
  | named name start =>
      cases start with
      | none =>
          refine Rule.ensures_call_bind (header.strengthen fun entered outcome _ fits => ?_)
          obtain ⟨number, rfl, isReady⟩ := fits
          exact ⟨_, rfl, (Rule.enters_call _).ensures_iff.mpr
            (goesOn _ _ _ isReady fun _ => rfl)⟩
      | some node =>
          refine Rule.ensures_call_bind (header.strengthen fun between outcome _ fits => ?_)
          obtain ⟨first, rfl, counts⟩ := fits
          refine ⟨_, rfl, ?_⟩
          refine Rule.ensures_call_bind (counts.strengthen fun entered outcome _ fits => ?_)
          obtain ⟨number, rfl, isReady⟩ := fits
          exact ⟨_, rfl, (Rule.enters_call _).ensures_iff.mpr (goesOn _ _ _ isReady nofun)⟩

end Header

/-- The limit of numbers that can be counted is a whole number as well. -/
theorem Counter.integer?_limit {counter : Counter} {first number : Float} {start count : Int}
    (isFirst : integer? first = some start) (isNumber : integer? number = some count)
    (fromZero : counter.start? = none → first = Float.ofNat 0)
    (canCount : counter.CanCount start count) :
    integer? (counter.limit first number) = some (start + count) ∧
      start.natAbs ≤ 2 ^ 53 ∧ start + count ≤ 2 ^ 53 := by
  cases counter with
  | hidden =>
      obtain rfl := fromZero rfl
      obtain rfl : 0 = start := Option.some.inj (integer?_zero.symm.trans isFirst)
      rw [Int.zero_add]
      exact ⟨isNumber, by simp, canCount⟩
  | named name node =>
      obtain ⟨fromStart, toEnd⟩ := canCount
      exact ⟨integer?_add isFirst isNumber toEnd, fromStart, by omega⟩

section Counting

variable (options : Options) (host : Host) (meanwhile : Wait → World → World → Prop)

/-- The body ensures something in every round that the loop comes to before it has had a number. -/
def BodyAlways (ready : World → Float → Prop) (count : Nat) (holds : Outcome → Prop) : Prop :=
  ∀ entered first rounds between, ready entered first →
    Rounds loop.label (loop.IsRound options host meanwhile first) entered rounds between →
    rounds.length < count →
    loop.BodyEnsures options host meanwhile holds first rounds.length between

variable {options host meanwhile} {ready : World → Float → Prop} {world : World}

theorem BodyAlways.imp {count : Nat} {holds holds' : Outcome → Prop}
    (implies : ∀ outcome, holds outcome → holds' outcome)
    (always : loop.BodyAlways options host meanwhile ready count holds) :
    loop.BodyAlways options host meanwhile ready count holds' :=
  fun entered first rounds between isReady run fewer =>
    (always entered first rounds between isReady run fewer).imp loop implies

/-- After a header that gives whole numbers the loop counts them, unless it is broken. -/
theorem ensures_counting (position : Position) {start count : Int}
    (header : loop.HeaderEnsures options host meanwhile
      (fun entered first number => integer? first = some start ∧ integer? number = some count ∧
        ready entered first) world)
    (canCount : loop.counter.CanCount start count)
    (uninterrupted : loop.BodyAlways options host meanwhile ready count.toNat fun outcome =>
      ∀ interrupt, Iteration.ofOutcome loop.label outcome ≠ .propagate interrupt) :
    Task.Ensures options host meanwhile
      (fun reached outcome => outcome = .ok .null ∧ ∃ entered first, ready entered first ∧
        (∀ place < count.toNat, integer? (counted first place) = some (start + place)) ∧
        Completes loop.label (loop.IsRound options host meanwhile first) entered count.toNat
          reached)
      world (Task.ofRule (construct loop.scope loop.context position loop.shape)) := by
  refine loop.ensures_construct position header fun entered first number given fromZero => ?_
  obtain ⟨isFirst, isNumber, isReady⟩ := given
  obtain ⟨isLimit, bounded, within⟩ := Counter.integer?_limit isFirst isNumber fromZero canCount
  have rounds := loop.ensures_completes isFirst isLimit bounded within
    fun rounds between => uninterrupted entered first rounds between isReady
  refine rounds.strengthen fun reached outcome _ fits => ?_
  refine ⟨fits.1, entered, first, isReady, fun place inside => ?_, fits.2⟩
  exact integer?_counted isFirst bounded (by omega)

/--
Counted loops have exactly as many rounds as they are asked for.  Let the header of a
loop give whole numbers, a first one and a count, of which neither the first one nor
their sum exceeds 2 ^ 53 in magnitude; a loop without a name for the number starts
with zero, and its count does not exceed 2 ^ 53.

If evaluation is not stopped and the body always lets the loop go on, then the loop
comes to an end with `null`, after as many rounds as the count says and after none if
it is negative.  In each round the body is evaluated in a new child scope that binds
the name to the number of the round for good, which is the first number plus the
number of rounds before.

If the body may also break the loop, the loop still comes to an end with `null`: it
has had all rounds, or the first round that breaks it is the last one it has had.
-/
theorem runs_count_times (position : Position) {start count : Int}
    (header : loop.HeaderEnsures options host meanwhile
      (fun entered first number => integer? first = some start ∧ integer? number = some count ∧
        ready entered first) world)
    (canCount : loop.counter.CanCount start count) :
    let isRound := loop.IsRound options host meanwhile
    let bodyAlways := loop.BodyAlways options host meanwhile ready count.toNat
    let numbered (first : Float) := ∀ place < count.toNat,
      integer? (counted first place) = some (start + place)
    (bodyAlways (fun outcome => Iteration.ofOutcome loop.label outcome = .next) →
      Task.Ensures options host meanwhile
        (fun reached outcome => outcome = .ok .null ∧ ∃ entered first rounds,
          ready entered first ∧ numbered first ∧ rounds.length = count.toNat ∧
          Rounds loop.label (isRound first) entered rounds reached)
        world (Task.ofRule (construct loop.scope loop.context position loop.shape))) ∧
    (bodyAlways (fun outcome => ∀ interrupt,
        Iteration.ofOutcome loop.label outcome ≠ .propagate interrupt) →
      Task.Ensures options host meanwhile
        (fun reached outcome => outcome = .ok .null ∧ ∃ entered first,
          ready entered first ∧ numbered first ∧
          Completes loop.label (isRound first) entered count.toNat reached)
        world (Task.ofRule (construct loop.scope loop.context position loop.shape))) := by
  intro isRound bodyAlways numbered
  refine ⟨fun continues => ?_, loop.ensures_counting position header canCount⟩
  have uninterrupted : bodyAlways fun outcome => ∀ interrupt,
      Iteration.ofOutcome loop.label outcome ≠ .propagate interrupt := by
    refine continues.imp loop fun outcome next interrupt propagates => ?_
    cases next.symm.trans propagates
  refine (loop.ensures_counting position header canCount uninterrupted).strengthen
    fun reached outcome _ fits => ?_
  obtain ⟨isNull, entered, first, isReady, isNumbered, completes⟩ := fits
  refine ⟨isNull, entered, first, ?_⟩
  cases completes with
  | all run all => exact ⟨_, isReady, isNumbered, all, run⟩
  | broken earlier fewer isLast breaks =>
      have next :=
        (continues entered first _ _ isReady earlier fewer).holds_of_isRound loop isLast
      cases next.symm.trans breaks

end Counting

/-- A loop that has a body evaluated three times, counting from zero. -/
def thrice (body : Shape) : CountedLoop :=
  ⟨none, .named "number" none, .mk (.num (Float.ofNat 3)) default, .mk body default, .root ⟨0⟩,
    .top .synchronous⟩

section Thrice

variable {body : Shape} {outcome : Outcome} {first : Float} {entered between : World}
variable {rounds : List Round}
variable (known : (body, outcome) ∈ [(Shape.null, Except.ok Value.null),
  (.breaking none none, .error (.signal (.breaking none none)))])

include known

/-- The bodies `null` and `break` come to their ends at once and stop nothing. -/
theorem ensures_body_thrice
    (world : World) (scope : Scope) (running : world.lifecycle.isStopped = false) :
    Task.Ensures (.silent 0 0) Host.none (fun _ _ _ => True)
      (fun reached given => reached.lifecycle.isStopped = false ∧ given = outcome)
      world (Task.ofRule (evaluateClause (.mk body default) scope (.top .synchronous))) := by
  rcases world with
    ⟨store, steps, ⟨isStopped, pause, pauses, onAbort, onPause, onUnpause⟩, roster, inputs, events⟩
  obtain rfl : isStopped = false := running
  simp only [List.mem_cons, Prod.mk.injEq, List.not_mem_nil, or_false] at known
  rcases known with ⟨rfl, rfl⟩ | ⟨rfl, rfl⟩
  · exact .of_run 10 rfl ⟨rfl, rfl⟩
  · exact .of_run 10 rfl ⟨rfl, rfl⟩

theorem running_of_rounds_thrice
    (running : entered.lifecycle.isStopped = false)
    (run : Rounds none ((thrice body).IsRound (.silent 0 0)
      Host.none (fun _ _ _ => True) first) entered rounds between) :
    between.lifecycle.isStopped = false := by
  cases run with
  | none => exact running
  | more earlier isLast continues =>
      obtain ⟨opened, inner, opens, ends⟩ := isLast.evaluates
      cases opens with
      | named opens =>
          have stillRunning : opened.lifecycle.isStopped = false := by
            rw [opens.onlyStore]
            exact isLast.running
          exact ((ensures_body_thrice known opened _ stillRunning).holds_of_endsAmid ends).1

theorem bodyEnsures_thrice
    (running : entered.lifecycle.isStopped = false)
    (run : Rounds none ((thrice body).IsRound (.silent 0 0)
      Host.none (fun _ _ _ => True) first) entered rounds between) :
    (thrice body).BodyEnsures (.silent 0 0) Host.none
      (fun _ _ _ => True) (fun given => given = outcome) first rounds.length between where
  running := running_of_rounds_thrice known running run
  ensures opened inner opens := by
    have runningBetween := running_of_rounds_thrice known running run
    cases opens with
    | named opens =>
        have stillRunning : opened.lifecycle.isStopped = false := by
          rw [opens.onlyStore]
          exact runningBetween
        exact (ensures_body_thrice known opened _ stillRunning).strengthen
          fun _ _ _ fits => fits.2

omit known

/-- The header gives zero and three. -/
theorem headerEnsures_thrice :
    (thrice body).HeaderEnsures (.silent 0 0) Host.none
      (fun _ _ _ => True)
      (fun entered first number => integer? first = some 0 ∧ integer? number = some 3 ∧
        entered.lifecycle.isStopped = false) default :=
  .of_run 10 rfl ⟨Float.ofNat 3, rfl, integer?_zero, by decide +kernel, rfl⟩

/-- Three rounds are had of a body that does nothing, and one of a body that breaks the loop. -/
theorem runs_count_times_thrice :
    Task.Ensures (.silent 0 0) Host.none (fun _ _ _ => True)
      (fun reached outcome => outcome = .ok .null ∧ ∃ entered first rounds,
        entered.lifecycle.isStopped = false ∧
        (∀ place < 3, integer? (counted first place) = some (0 + place)) ∧ rounds.length = 3 ∧
        Rounds none ((thrice .null).IsRound (.silent 0 0)
          Host.none (fun _ _ _ => True) first) entered rounds reached)
      default (Task.ofRule (construct (.root ⟨0⟩) (.top .synchronous) default
        (thrice .null).shape)) ∧
    Task.Ensures (.silent 0 0) Host.none (fun _ _ _ => True)
      (fun reached outcome => outcome = .ok .null ∧ ∃ entered first,
        entered.lifecycle.isStopped = false ∧
        (∀ place < 3, integer? (counted first place) = some (0 + place)) ∧
        Completes none ((thrice (.breaking none none)).IsRound
          (.silent 0 0) Host.none (fun _ _ _ => True) first) entered 3 reached)
      default (Task.ofRule (construct (.root ⟨0⟩) (.top .synchronous) default
        (thrice (.breaking none none)).shape)) := by
  constructor
  · refine (runs_count_times (thrice .null) default headerEnsures_thrice
      ⟨by decide, by decide⟩).1 ?_
    intro entered first rounds between running run _
    refine (bodyEnsures_thrice (.head _) running run).imp _ ?_
    rintro _ rfl
    rfl
  · refine (runs_count_times (thrice (.breaking none none)) default headerEnsures_thrice
      ⟨by decide, by decide⟩).2 ?_
    intro entered first rounds between running run _
    refine (bodyEnsures_thrice (.tail _ (.head _)) running run).imp _ ?_
    rintro _ rfl interrupt propagates
    cases propagates

end Thrice

end CountedLoop

end TreeScript
