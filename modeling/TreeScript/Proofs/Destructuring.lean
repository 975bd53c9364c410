import TreeScript.Evaluation.Construct
import TreeScript.Proofs.Slots

/-!
# Destructuring definitions and assignments

A pattern of names can stand on the left of a definition and of an assignment.
The rule that distributes the value is written twice, for nodes and for the
locations that they evaluate to.  `World.destructuring_agrees` shows that it is
one rule: defining the pattern in a new child scope and writing to it where its
names are mutable variables come to the same end and give the same values to the
same names, also if the value does not fit and the rest of the names get nothing.
-/

namespace TreeScript

namespace Evaluation

variable (scope : Scope) (context : Context)

mutual

/-- A pattern of names on the left of an assignment is the location of its names. -/
theorem locate_pattern {node : Node} {pattern : Pattern String}
    (isPattern : node.pattern? = some pattern) :
    locate scope context node = pure (pattern.location fun name => .name scope name) := by
  cases node with
  | mk shape span =>
      cases shape with
      | identifier name =>
          obtain rfl := Option.some.inj isPattern
          rfl
      | arr items =>
          obtain ⟨parts, inside, rfl⟩ := Option.map_eq_some_iff.mp isPattern
          rw [locate, locateItems_patterns inside [], pure_bind]
          rfl
      | obj entries =>
          obtain ⟨parts, inside, rfl⟩ := Option.map_eq_some_iff.mp isPattern
          rw [locate, locateEntries_patterns inside [], pure_bind]
          rfl
      | _ => cases isPattern

theorem locateItems_patterns {items : List Node} {parts : List (Pattern String)}
    (arePatterns : Node.patternsOfItems? items = some parts) (earlier : List Location) :
    locateItems scope context earlier items =
      pure (earlier.reverse ++ Pattern.locationsOfItems (fun name => .name scope name) parts) := by
  cases items with
  | nil =>
      obtain rfl := Option.some.inj arePatterns
      rw [locateItems, Pattern.locationsOfItems, List.append_nil]
  | cons node rest =>
      obtain ⟨part, here, others⟩ := Option.bind_eq_some_iff.mp arePatterns
      obtain ⟨parts, there, rfl⟩ := Option.map_eq_some_iff.mp others
      rw [locateItems, locate_pattern here, pure_bind, locateItems_patterns there,
        Pattern.locationsOfItems, List.reverse_cons, List.append_assoc, List.singleton_append]

theorem locateEntries_patterns {entries : List (String × Node)}
    {parts : List (String × Pattern String)}
    (arePatterns : Node.patternsOfEntries? entries = some parts)
    (earlier : List (String × Location)) :
    locateEntries scope context earlier entries =
      pure (earlier.reverse ++
        Pattern.locationsOfEntries (fun name => .name scope name) parts) := by
  rcases entries with - | ⟨⟨name, node⟩, rest⟩
  · obtain rfl := Option.some.inj arePatterns
    rw [locateEntries, Pattern.locationsOfEntries, List.append_nil]
  · obtain ⟨part, here, others⟩ := Option.bind_eq_some_iff.mp arePatterns
    obtain ⟨parts, there, rfl⟩ := Option.map_eq_some_iff.mp others
    rw [locateEntries, locate_pattern here, pure_bind, locateEntries_patterns there,
      Pattern.locationsOfEntries, List.reverse_cons, List.append_assoc, List.singleton_append]

end

end Evaluation

namespace World

variable (options : Options)

/-- What defining a pattern in a new child scope comes to. -/
theorem perform_define_newLayer (world : World) {node : Node} {pattern : Pattern String}
    (isPattern : node.pattern? = some pattern) (outer : Scope) (isMutable : Bool) {value : Value}
    (distinct : ((world.store.deal pattern value).parts.map Prod.fst).Nodup) :
    let dealt := world.store.deal pattern value
    let opened := world.perform options (.newLayer .empty)
    let defined := opened.2.perform options (.define (.child opened.1 outer) isMutable node value)
    defined.1 = dealt.result ∧
    (∀ name part, (name, part) ∈ dealt.parts →
      defined.2.store.held? (opened.1, name) = some (.plain isMutable part)) ∧
    ∀ name, name ∉ dealt.parts.map Prod.fst → defined.2.store.held? (opened.1, name) = none := by
  intro dealt opened defined
  have sameContainers : opened.2.store.SharesContainers world.store := ⟨rfl, rfl⟩
  have inside : opened.1.index < opened.2.store.layers.size := by
    simp [opened, perform, Store.newLayer]
  have unbound (name : String) : opened.2.store.held? (opened.1, name) = none := by
    rw [Store.held?, show opened.2.store.bindings opened.1 = .empty from
      world.store.bindings_newLayer_self .empty, Dict.find?_empty]
  rw [← sameContainers.deal] at distinct
  obtain ⟨reached, ran, received⟩ :=
    Edit.run_define_child options isPattern inside unbound outer isMutable distinct
  rw [sameContainers.deal] at ran received
  have definedSo : defined = (dealt.result, reached) := ran
  rw [definedSo]
  refine ⟨rfl, ?_, ?_⟩
  · intro name part mem
    exact received.holds ((opened.1, name), _) (List.mem_map.mpr ⟨(name, part), mem, rfl⟩)
  · intro name outside
    rw [received.others (opened.1, name), unbound]
    simpa using outside

/-- What writing to a pattern of mutable variables of one scope comes to. -/
theorem perform_write_pattern (world : World) (scope : Scope) {pattern : Pattern String}
    (distinct : pattern.places.Nodup)
    (declared : ∀ name ∈ pattern.places, ∃ found,
      world.store.binding? scope name = some found ∧ found.isMutable = true)
    (value : Value) :
    let dealt := world.store.deal pattern value
    let written := world.perform options
      (.write (pattern.location fun name => .name scope name) value)
    written.1 = dealt.result ∧
    (∀ name part, (name, part) ∈ dealt.parts → ∃ found,
      world.store.binding? scope name = some found ∧
        written.2.store.binding? scope name = some { found with value := part }) ∧
    ∀ name, name ∉ dealt.parts.map Prod.fst →
      written.2.store.binding? scope name = world.store.binding? scope name := by
  intro dealt written
  have different : (pattern.places.map fun name => world.store.seat (scope, name)).Nodup := by
    rw [List.Nodup, List.pairwise_map]
    exact distinct.imp fun differ same => differ (congrArg Prod.snd same)
  obtain ⟨reached, ran, -, assigned, kept⟩ :=
    Edit.run_write_names options (fun name => (scope, name)) different declared value
  have writtenSo : written = (dealt.result, reached) := ran
  rw [writtenSo]
  refine ⟨rfl, ?_, ?_⟩
  · intro name part mem
    exact assigned (name, part) mem
  · intro name outside
    refine kept scope name fun mem => outside ?_
    simp only [List.map_map, List.mem_map] at mem
    obtain ⟨part, mem, same⟩ := mem
    have sameName : part.1 = name := congrArg Prod.snd same
    exact List.mem_map.mpr ⟨part, mem, sameName⟩

/--
Destructuring definitions and destructuring assignments follow one rule.  Let a
node be a pattern of different names, and let each of them be a mutable variable
of a scope.  Defining the pattern in a new child scope of whatever scope, and
writing to the location that the pattern evaluates to, both end as dealing the
value out to the pattern does: they succeed together, or fail with the same
error.  The new layer then binds the names that have been dealt something, each
to its part, and no others; and the variables of these names have got the same
parts, while those of the other names are as they were.
-/
theorem destructuring_agrees (world : World) (scope outer : Scope) (node : Node)
    (pattern : Pattern String) (isMutable : Bool) (value : Value)
    (isPattern : node.pattern? = some pattern)
    (distinct : pattern.places.Nodup)
    (declared : ∀ name ∈ pattern.places, ∃ found,
      world.store.binding? scope name = some found ∧ found.isMutable = true) :
    ∃ location, (∀ context, Evaluation.locate scope context node = pure location) ∧
      let dealt := world.store.deal pattern value
      let opened := world.perform options (.newLayer .empty)
      let defined := opened.2.perform options (.define (.child opened.1 outer) isMutable node value)
      let written := world.perform options (.write location value)
      defined.1 = dealt.result ∧ written.1 = dealt.result ∧
      (∀ name part, (name, part) ∈ dealt.parts →
        (defined.2.store.bindings opened.1).find? name = some (.plain isMutable part) ∧
        ∃ found, world.store.binding? scope name = some found ∧
          written.2.store.binding? scope name = some { found with value := part }) ∧
      ∀ name, name ∉ dealt.parts.map Prod.fst →
        (defined.2.store.bindings opened.1).find? name = none ∧
        written.2.store.binding? scope name = world.store.binding? scope name := by
  refine ⟨_, fun context => Evaluation.locate_pattern scope context isPattern, ?_⟩
  intro dealt opened defined written
  obtain ⟨definedSo, bound, unbound⟩ :=
    perform_define_newLayer options world isPattern outer isMutable
      (distinct.sublist (world.store.targets_deal pattern value))
  obtain ⟨writtenSo, assigned, kept⟩ :=
    perform_write_pattern options world scope distinct declared value
  refine ⟨definedSo, writtenSo, ?_, ?_⟩
  · intro name part mem
    exact ⟨bound name part mem, assigned name part mem⟩
  · intro name outside
    exact ⟨unbound name outside, kept name outside⟩

/-- A pattern for an array of one value and of an object with one entry. -/
def halfway : Node :=
  .mk (.arr [.mk (.identifier "first") default,
    .mk (.obj [("rest", .mk (.identifier "second") default)]) default]) default

/-- A world with an array of one element, in which two variables are declared. -/
def halfFilled : World :=
  { (default : World) with
    store :=
      { Store.empty with
        arrays := #[⟨#[.bool true], []⟩]
        layers := #[(Dict.empty.insert "first" (.plain true .null)).insert "second"
          (.plain true (.bool false))] } }

/-- A value that fits the first half of a pattern fills one name in either way. -/
theorem destructuring_agrees_halfway :
    ∃ location, (∀ context, Evaluation.locate (.root ⟨0⟩) context halfway = pure location) ∧
      let opened := halfFilled.perform (.silent 0 0) (.newLayer .empty)
      let defined := opened.2.perform (.silent 0 0)
        (.define (.child opened.1 (.root ⟨0⟩)) false halfway (.arr ⟨0⟩))
      let written := halfFilled.perform (.silent 0 0) (.write location (.arr ⟨0⟩))
      defined.1 = .error (Value.mismatch "obj" .null) ∧
      written.1 = .error (Value.mismatch "obj" .null) ∧
      (defined.2.store.bindings opened.1).find? "first" = some (.plain false (.bool true)) ∧
      (defined.2.store.bindings opened.1).find? "second" = none ∧
      written.2.store.binding? (.root ⟨0⟩) "first" = some (.plain true (.bool true)) ∧
      written.2.store.binding? (.root ⟨0⟩) "second" = some (.plain true (.bool false)) := by
  have first : halfFilled.store.binding? (.root ⟨0⟩) "first" = some (.plain true .null) := by
    decide +kernel
  have second :
      halfFilled.store.binding? (.root ⟨0⟩) "second" = some (.plain true (.bool false)) := by
    decide +kernel
  have declared : ∀ name ∈ ["first", "second"], ∃ found,
      halfFilled.store.binding? (.root ⟨0⟩) name = some found ∧ found.isMutable = true := by
    simp [first, second, Variable.plain]
  obtain ⟨location, located, defined, written, given, others⟩ :=
    destructuring_agrees (.silent 0 0) halfFilled (.root ⟨0⟩) (.root ⟨0⟩) halfway
      (.items [.place "first", .entries [("rest", .place "second")]]) false (.arr ⟨0⟩) rfl
      (by decide) declared
  have dealt : halfFilled.store.deal
      (.items [.place "first", .entries [("rest", .place "second")]]) (.arr ⟨0⟩) =
      ⟨[("first", .bool true)], .error (Value.mismatch "obj" .null)⟩ := rfl
  rw [dealt] at defined written given others
  obtain ⟨bound, found, before, assigned⟩ := given "first" (.bool true) (.head _)
  obtain ⟨unbound, kept⟩ := others "second" (by simp)
  obtain rfl := Option.some.inj (first.symm.trans before)
  exact ⟨location, located, defined, written, bound, unbound, assigned, kept.trans second⟩

end World

end TreeScript
