import TreeScript.Proofs.Slots
import Mathlib.Data.List.Forall2

/-!
# Writing to groups of variables and reading them back

A group of variables, built from arrays and objects to any depth, can be written
to if the value has an array or an object wherever the group has one:
`Store.Fits`.  What is read afterwards is the part of the value that the group
has room for, made of new arrays and objects: `Store.Projects`.
`World.read_of_write_pattern` says both, and that nothing else changes.
-/

namespace TreeScript

namespace Dict

variable {α β : Type}

theorem find?_foldl_insert_eq_none_iff {entries : List (String × α)} {dict : Dict α}
    {name : String} :
    (entries.foldl (fun dict entry => dict.insert entry.1 entry.2) dict).find? name = none ↔
      dict.find? name = none ∧ name ∉ entries.map Prod.fst := by
  induction entries generalizing dict with
  | nil => simp
  | cons entry rest inductive_step =>
      rw [List.foldl_cons, inductive_step, List.map_cons, List.mem_cons, not_or, ← and_assoc]
      by_cases same : name = entry.1
      · simp [same]
      · simp [same, find?_insert_of_ne dict entry.2 same]

/-- A dictionary of a list binds the names of the list. -/
theorem find?_ofList_eq_none_iff {entries : List (String × α)} {name : String} :
    (ofList entries).find? name = none ↔ name ∉ entries.map Prod.fst := by
  simp [ofList, find?_foldl_insert_eq_none_iff]

/-- Lists whose entries are related one by one make dictionaries that are related so. -/
theorem optionRel_ofNamed (related : String → α → β → Prop) {entries : List (String × α)}
    {others : List (String × β)}
    (each : List.Forall₂
      (fun entry other => other.1 = entry.1 ∧ related entry.1 entry.2 other.2) entries others)
    (name : String) :
    Option.Rel (related name) ((ofList entries).find? name) ((ofList others).find? name) := by
  have within : ∀ {dict : Dict α} {other : Dict β},
      Option.Rel (related name) (dict.find? name) (other.find? name) →
      Option.Rel (related name)
        ((entries.foldl (fun dict entry => dict.insert entry.1 entry.2) dict).find? name)
        ((others.foldl (fun dict entry => dict.insert entry.1 entry.2) other).find? name) := by
    induction each with
    | nil => exact id
    | @cons entry other _ _ first _ inductive_step =>
        intro dict other' held
        refine inductive_step ?_
        dsimp only
        rw [first.1]
        by_cases here : name = entry.1
        · subst here
          rw [find?_insert_self, find?_insert_self]
          exact .some first.2
        · rw [find?_insert_of_ne _ _ here, find?_insert_of_ne _ _ here]
          exact held
  refine within ?_
  rw [find?_empty, find?_empty]
  exact .none

end Dict

namespace Store

variable {α : Type}

/-! ## Which values fit -/

/--
A value fits a pattern if it is an array wherever the pattern asks for elements
and an object wherever it asks for entries.  Missing parts count as `null`.
-/
inductive Fits (store : Store) : Pattern α → Value → Prop
  | place (target : α) (value : Value) : Fits store (.place target) value
  | items {parts : List (Pattern α)} {array : ArrayId}
      (each : ∀ index (inside : index < parts.length),
        Fits store parts[index] (store.element array index)) :
      Fits store (.items parts) (.arr array)
  | entries {parts : List (String × Pattern α)} {object : ObjectId}
      (each : ∀ name part, (name, part) ∈ parts → Fits store part (store.entry object name)) :
      Fits store (.entries parts) (.obj object)

section

variable (store : Store)

mutual

/-- The values that can be dealt out completely are those that fit. -/
theorem result_deal_eq_ok_iff : ∀ (pattern : Pattern α) (value : Value),
    (store.deal pattern value).result = .ok () ↔ store.Fits pattern value
  | .place target, value => by
      simp [deal, Pattern.dealt, Fits.place]
  | .items parts, value => by
      cases value with
      | arr array =>
          refine (result_dealtItems_eq_ok_iff array 0 parts).trans ?_
          constructor
          · intro each
            exact .items fun index inside => by simpa using each index inside
          · intro fits index inside
            cases fits with
            | items each => simpa using each index inside
      | _ =>
          constructor <;> nofun
  | .entries parts, value => by
      cases value with
      | obj object =>
          refine (result_dealtEntries_eq_ok_iff object parts).trans ?_
          constructor
          · exact .entries
          · intro fits
            cases fits with
            | entries each => exact each
      | _ =>
          constructor <;> nofun

theorem result_dealtItems_eq_ok_iff (array : ArrayId) : ∀ (place : Nat) (parts : List (Pattern α)),
    (Pattern.dealtItems store.element store.entry array place parts).result = .ok () ↔
      ∀ index (inside : index < parts.length),
        store.Fits parts[index] (store.element array (place + index))
  | _, [] => by simp [Pattern.dealtItems, Dealt.nothing]
  | place, part :: rest => by
      rw [Pattern.dealtItems, Dealt.result_andThen_eq_ok_iff,
        result_dealtItems_eq_ok_iff array (place + 1) rest]
      constructor
      · rintro ⟨first, others⟩ index inside
        cases index with
        | zero => exact (result_deal_eq_ok_iff part _).mp first
        | succ index =>
            have fits := others index (Nat.lt_of_succ_lt_succ inside)
            rw [Nat.add_right_comm] at fits
            exact fits
      · intro each
        constructor
        · exact (result_deal_eq_ok_iff part _).mpr (each 0 (Nat.succ_pos _))
        · intro index inside
          rw [Nat.add_right_comm]
          exact each (index + 1) (Nat.succ_lt_succ inside)

theorem result_dealtEntries_eq_ok_iff (object : ObjectId) :
    ∀ parts : List (String × Pattern α),
    (Pattern.dealtEntries store.element store.entry object parts).result = .ok () ↔
      ∀ name part, (name, part) ∈ parts → store.Fits part (store.entry object name)
  | [] => by simp [Pattern.dealtEntries, Dealt.nothing]
  | (name, part) :: rest => by
      rw [Pattern.dealtEntries, Dealt.result_andThen_eq_ok_iff,
        result_dealtEntries_eq_ok_iff object rest]
      refine (and_congr_left' (result_deal_eq_ok_iff part _)).trans ?_
      simp only [List.mem_cons, Prod.mk.injEq, or_imp, forall_and, and_imp, forall_eq_apply_imp_iff,
        forall_eq]

end

end

/-! ## What is read back -/

/-- Names are looked up in the layers alone. -/
theorem lookup?_of_layers {before after : Store} (same : after.layers = before.layers)
    (scope : Scope) (name : String) :
    after.lookup? scope name = before.lookup? scope name := by
  have found (name : String) (layers : List LayerId) :
      after.findBinding? name layers = before.findBinding? name layers := by
    induction layers with
    | nil => rfl
    | cons first outer inductive_step =>
        rw [findBinding?, findBinding?, inductive_step, bindings, bindings, same]
  rw [lookup?, lookup?, binding?, binding?, binding?, binding?, found, found]

theorem items_newArray (store : Store) (items : Array Value) :
    (store.newArray items).1.items (store.newArray items).2 = items := by
  simp [Store.newArray, Store.items]

theorem element_newArray (store : Store) (items : Array Value) (index : Nat) :
    (store.newArray items).1.element (store.newArray items).2 index =
      items[index]?.getD .null := by
  rw [element, items_newArray]

theorem entries_newObject (store : Store) (entries : Dict Value) :
    (store.newObject entries).1.entries (store.newObject entries).2 = entries := by
  simp [Store.newObject, Store.entries]

theorem entry_newObject (store : Store) (entries : Dict Value) (name : String) :
    (store.newObject entries).1.entry (store.newObject entries).2 name =
      (entries.find? name).getD .null := by
  rw [entry, entries_newObject]

/-- Growing at its end leaves an array as it was below its old size. -/
theorem getElem?_of_prefix {before after : Array α} (grows : before.toList <+: after.toList)
    {index : Nat} (inside : index < before.size) :
    after[index]? = before[index]? := by
  obtain ⟨added, same⟩ := grows
  rw [← Array.getElem?_toList, ← same, List.getElem?_append_left (by simpa using inside),
    Array.getElem?_toList]

/-- Between two stores nothing has happened but that arrays and objects have been added. -/
structure AddsContainers (before after : Store) : Prop where
  layers : after.layers = before.layers
  functions : after.functions = before.functions
  arrays : before.arrays.toList <+: after.arrays.toList
  objects : before.objects.toList <+: after.objects.toList

namespace AddsContainers

theorem refl (store : Store) : store.AddsContainers store :=
  ⟨rfl, rfl, List.prefix_rfl, List.prefix_rfl⟩

theorem trans {before between after : Store} (first : before.AddsContainers between)
    (second : between.AddsContainers after) :
    before.AddsContainers after where
  layers := second.layers.trans first.layers
  functions := second.functions.trans first.functions
  arrays := first.arrays.trans second.arrays
  objects := first.objects.trans second.objects

theorem newArray (store : Store) (items : Array Value) :
    store.AddsContainers (store.newArray items).1 where
  layers := rfl
  functions := rfl
  arrays := by simp [Store.newArray]
  objects := List.prefix_rfl

theorem newObject (store : Store) (entries : Dict Value) :
    store.AddsContainers (store.newObject entries).1 where
  layers := rfl
  functions := rfl
  arrays := List.prefix_rfl
  objects := by simp [Store.newObject]

variable {before after : Store}

theorem size_arrays (adds : before.AddsContainers after) :
    before.arrays.size ≤ after.arrays.size := by
  simpa using adds.arrays.length_le

theorem size_objects (adds : before.AddsContainers after) :
    before.objects.size ≤ after.objects.size := by
  simpa using adds.objects.length_le

theorem items (adds : before.AddsContainers after) {array : ArrayId}
    (inside : array.index < before.arrays.size) :
    after.items array = before.items array := by
  rw [Store.items, Store.items, getElem?_of_prefix adds.arrays inside]

theorem entries (adds : before.AddsContainers after) {object : ObjectId}
    (inside : object.index < before.objects.size) :
    after.entries object = before.entries object := by
  rw [Store.entries, Store.entries, getElem?_of_prefix adds.objects inside]

theorem element (adds : before.AddsContainers after) {array : ArrayId}
    (inside : array.index < before.arrays.size) (index : Nat) :
    after.element array index = before.element array index := by
  rw [Store.element, Store.element, adds.items inside]

theorem entry (adds : before.AddsContainers after) {object : ObjectId}
    (inside : object.index < before.objects.size) (name : String) :
    after.entry object name = before.entry object name := by
  rw [Store.entry, Store.entry, adds.entries inside]

end AddsContainers

/-- There are no fewer containers in a later store. -/
def IsOutgrown (source later : Store) : Prop :=
  source.arrays.size ≤ later.arrays.size ∧ source.objects.size ≤ later.objects.size

theorem IsOutgrown.adds {source between after : Store} (outgrown : source.IsOutgrown between)
    (adds : between.AddsContainers after) :
    source.IsOutgrown after :=
  ⟨Nat.le_trans outgrown.1 adds.size_arrays, Nat.le_trans outgrown.2 adds.size_objects⟩

/--
A value of one store that is given back in a later one is the part of a value that
a pattern has room for.  In place of each array there is a new one with as many
elements as the pattern, and in place of each object a new one with the names of
the pattern; parts that are missing have become `null`.  Where the pattern has a
name more than once, the last one counts.
-/
inductive Projects (source later : Store) : Pattern α → Value → Value → Prop
  | place (target : α) (value : Value) : Projects source later (.place target) value value
  | items {parts : List (Pattern α)} {array given : ArrayId}
      (isNew : source.arrays.size ≤ given.index) (isThere : given.index < later.arrays.size)
      (size : (later.items given).size = parts.length)
      (each : ∀ index (inside : index < parts.length),
        Projects source later parts[index] (source.element array index)
          (later.element given index)) :
      Projects source later (.items parts) (.arr array) (.arr given)
  | entries {parts : List (String × Pattern α)} {object given : ObjectId}
      (isNew : source.objects.size ≤ given.index) (isThere : given.index < later.objects.size)
      (names : ∀ name, (later.entries given).contains name = true ↔ name ∈ parts.map Prod.fst)
      (each : ∀ name part, (Dict.ofList parts).find? name = some part →
        Projects source later part (source.entry object name) (later.entry given name)) :
      Projects source later (.entries parts) (.obj object) (.obj given)

theorem Projects.mono {source between after : Store} (adds : between.AddsContainers after)
    {pattern : Pattern α} {value given : Value}
    (projects : source.Projects between pattern value given) :
    source.Projects after pattern value given := by
  induction projects with
  | place target value => exact .place target value
  | @items parts array given isNew isThere size each inductive_step =>
      refine .items isNew (Nat.lt_of_lt_of_le isThere adds.size_arrays)
        (adds.items isThere ▸ size) ?_
      intro index inside
      rw [adds.element isThere]
      exact inductive_step index inside
  | @entries parts object given isNew isThere names each inductive_step =>
      refine .entries isNew (Nat.lt_of_lt_of_le isThere adds.size_objects)
        (adds.entries isThere ▸ names) ?_
      intro name part found
      rw [adds.entry isThere]
      exact inductive_step name part found

/-- Projections of the elements, in a new array, are the projection of an array. -/
theorem Projects.newArray {source between : Store} (outgrown : source.IsOutgrown between)
    {parts : List (Pattern α)} {array : ArrayId} {values : List Value}
    (length : values.length = parts.length)
    (each : ∀ index (inside : index < parts.length),
      source.Projects between parts[index] (source.element array index)
        (values[index]?.getD .null)) :
    source.Projects (between.newArray values.toArray).1 (.items parts) (.arr array)
      (.arr (between.newArray values.toArray).2) := by
  refine .items outgrown.1 ?_ ?_ ?_
  · simp [Store.newArray]
  · rw [items_newArray, List.size_toArray, length]
  · intro index inside
    rw [element_newArray, List.getElem?_toArray]
    exact (each index inside).mono (.newArray between values.toArray)

/-- Projections of the entries, in a new object, are the projection of an object. -/
theorem Projects.newObject {source between : Store} (outgrown : source.IsOutgrown between)
    {parts : List (String × Pattern α)} {object : ObjectId} {values : List (String × Value)}
    (each : List.Forall₂ (fun part given => given.1 = part.1 ∧
      source.Projects between part.2 (source.entry object part.1) given.2) parts values) :
    source.Projects (between.newObject (Dict.ofList values)).1 (.entries parts) (.obj object)
      (.obj (between.newObject (Dict.ofList values)).2) := by
  have listed := Dict.optionRel_ofNamed (fun name part given =>
    source.Projects between part (source.entry object name) given) each
  refine .entries outgrown.2 ?_ ?_ ?_
  · simp [Store.newObject]
  · intro name
    have parallel := listed name
    rw [entries_newObject, Dict.contains, ← not_iff_not, ← Dict.find?_ofList_eq_none_iff]
    generalize (Dict.ofList parts).find? name = known at parallel ⊢
    generalize (Dict.ofList values).find? name = read at parallel ⊢
    cases parallel <;> simp
  · intro name part found
    have parallel := listed name
    rw [found] at parallel
    rw [entry_newObject]
    generalize (Dict.ofList values).find? name = read at parallel ⊢
    cases parallel with
    | some projects => exact projects.mono (.newObject between (Dict.ofList values))

end Store

namespace Edit

variable {α : Type} (options : Options) (target : α → Scope × String)

/-- The parts that have been dealt out can be read where they have been put. -/
def Recalls (dealt : Dealt α) (store : Store) : Prop :=
  ∀ part ∈ dealt.parts, ∃ found,
    store.lookup? (target part.1).1 (target part.1).2 = some found ∧ found.value = part.2

section Recalls

variable {target}

theorem Recalls.of_layers {dealt : Dealt α} {before after : Store}
    (recalls : Recalls target dealt before) (same : after.layers = before.layers) :
    Recalls target dealt after := by
  intro part mem
  obtain ⟨found, bound, value⟩ := recalls part mem
  refine ⟨found, ?_, value⟩
  rwa [Store.lookup?_of_layers same]

theorem Recalls.split {first second : Dealt α} {store : Store}
    (recalls : Recalls target (first.andThen second) store) (fits : first.result = .ok ()) :
    Recalls target first store ∧ Recalls target second store := by
  obtain ⟨parts, result⟩ := first
  obtain rfl : result = .ok () := fits
  simp only [Recalls, Dealt.andThen_ok, List.mem_append] at recalls ⊢
  exact ⟨fun part mem => recalls part (.inl mem), fun part mem => recalls part (.inr mem)⟩

end Recalls

section Reading

variable (source : Store)

mutual

/-- Where a value has been put at a pattern of variables, its projection is read. -/
theorem run_read : ∀ (pattern : Pattern α) (value : Value) (world : World),
    source.IsOutgrown world.store → (source.deal pattern value).result = .ok () →
    Recalls target (source.deal pattern value) world.store →
    ∃ given reached, (read options (pattern.location fun place =>
        .name (target place).1 (target place).2)).run.run world = (.ok given, reached) ∧
      world.store.AddsContainers reached.store ∧
      source.Projects reached.store pattern value given
  | .place place, value, world, _, _, recalls => by
      obtain ⟨found, bound, rfl⟩ := recalls (place, value) (.head _)
      have logged := World.store_log options "var:read" (some (target place).1.name)
        (some (target place).2) (some found.value) world
      refine ⟨found.value, world.log options "var:read" (some (target place).1.name)
        (some (target place).2) (some found.value), ?_, ?_, .place place found.value⟩
      · rw [Pattern.location, read, run_readName, bound]
      · rw [logged]
        exact .refl world.store
  | .items parts, value, world, later, fits, recalls => by
      cases value with
      | arr array =>
          obtain ⟨values, between, ran, adds, length, each⟩ :=
            run_readItems array parts 0 world later fits recalls
          refine ⟨.arr (between.store.newArray values.toArray).2,
            { between with store := (between.store.newArray values.toArray).1 }, ?_,
            adds.trans (.newArray between.store values.toArray),
            .newArray (later.adds adds) length (by simpa using each)⟩
          rw [Pattern.location, read, run_bind, ran]
          rfl
      | _ => cases fits
  | .entries parts, value, world, later, fits, recalls => by
      cases value with
      | obj object =>
          obtain ⟨values, between, ran, adds, each⟩ :=
            run_readEntries object parts world later fits recalls
          refine ⟨.obj (between.store.newObject (Dict.ofList values)).2,
            { between with store := (between.store.newObject (Dict.ofList values)).1 }, ?_,
            adds.trans (.newObject between.store (Dict.ofList values)),
            .newObject (later.adds adds) each⟩
          rw [Pattern.location, read, run_bind, ran]
          rfl
      | _ => cases fits

theorem run_readItems (array : ArrayId) :
    ∀ (parts : List (Pattern α)) (place : Nat) (world : World),
    source.IsOutgrown world.store →
    (Pattern.dealtItems source.element source.entry array place parts).result = .ok () →
    Recalls target (Pattern.dealtItems source.element source.entry array place parts)
      world.store →
    ∃ values reached, (readItems options (Pattern.locationsOfItems (fun place =>
        .name (target place).1 (target place).2) parts)).run.run world = (.ok values, reached) ∧
      world.store.AddsContainers reached.store ∧ values.length = parts.length ∧
      ∀ index (inside : index < parts.length),
        source.Projects reached.store parts[index] (source.element array (place + index))
          (values[index]?.getD .null)
  | [], _, world, _, _, _ => ⟨[], world, rfl, .refl world.store, rfl, nofun⟩
  | part :: rest, place, world, later, fits, recalls => by
      obtain ⟨fitsHere, fitsThere⟩ := (Dealt.result_andThen_eq_ok_iff _ _).mp fits
      obtain ⟨recallsHere, recallsThere⟩ := Recalls.split recalls fitsHere
      obtain ⟨given, between, ran, adds, projects⟩ :=
        run_read part (source.element array place) world later fitsHere recallsHere
      obtain ⟨values, reached, goesOn, addsLater, length, each⟩ :=
        run_readItems array rest (place + 1) between (later.adds adds) fitsThere
          (recallsThere.of_layers adds.layers)
      refine ⟨given :: values, reached, ?_, adds.trans addsLater, congrArg Nat.succ length, ?_⟩
      · rw [Pattern.locationsOfItems, readItems, run_bind, ran]
        dsimp only
        rw [run_bind, goesOn]
        rfl
      · intro index inside
        cases index with
        | zero => exact projects.mono addsLater
        | succ index =>
            have projects := each index (Nat.lt_of_succ_lt_succ inside)
            rw [Nat.add_right_comm] at projects
            exact projects

theorem run_readEntries (object : ObjectId) :
    ∀ (parts : List (String × Pattern α)) (world : World),
    source.IsOutgrown world.store →
    (Pattern.dealtEntries source.element source.entry object parts).result = .ok () →
    Recalls target (Pattern.dealtEntries source.element source.entry object parts) world.store →
    ∃ values reached, (readEntries options (Pattern.locationsOfEntries (fun place =>
        .name (target place).1 (target place).2) parts)).run.run world = (.ok values, reached) ∧
      world.store.AddsContainers reached.store ∧
      List.Forall₂ (fun part given => given.1 = part.1 ∧
        source.Projects reached.store part.2 (source.entry object part.1) given.2) parts values
  | [], world, _, _, _ => ⟨[], world, rfl, .refl world.store, .nil⟩
  | (name, part) :: rest, world, later, fits, recalls => by
      obtain ⟨fitsHere, fitsThere⟩ := (Dealt.result_andThen_eq_ok_iff _ _).mp fits
      obtain ⟨recallsHere, recallsThere⟩ := Recalls.split recalls fitsHere
      obtain ⟨given, between, ran, adds, projects⟩ :=
        run_read part (source.entry object name) world later fitsHere recallsHere
      obtain ⟨values, reached, goesOn, addsLater, each⟩ :=
        run_readEntries object rest between (later.adds adds) fitsThere
          (recallsThere.of_layers adds.layers)
      refine ⟨(name, given) :: values, reached, ?_, adds.trans addsLater,
        .cons ⟨rfl, projects.mono addsLater⟩ each⟩
      rw [Pattern.locationsOfEntries, readEntries, run_bind, ran]
      dsimp only
      rw [run_bind, goesOn]
      rfl

end

end Reading

end Edit

namespace World

variable (options : Options)

/--
The law of writing to and reading from a group of variables that are mutable and
all different.  Writing succeeds precisely if the value has an array or an object
wherever the group has one, parts that it lacks counting as `null`.  If it does,
reading the group gives the projection of the value onto it.  Writing leaves all
other variables and all arrays, objects and functions as they were, and reading
adds nothing but the containers of the projection.
-/
theorem read_of_write_pattern (world : World) (pattern : Pattern (Scope × String)) (value : Value)
    (mutables : ∀ place ∈ pattern.places, ∃ found,
      world.store.binding? place.1 place.2 = some found ∧ found.isMutable = true)
    (distinct : (pattern.places.map world.store.seat).Nodup) :
    let location := pattern.location fun place => .name place.1 place.2
    let written := world.perform options (.write location value)
    let read := written.2.perform options (.read location)
    (written.1 = .ok () ↔ world.store.Fits pattern value) ∧
    (written.1 = .ok () →
      (∃ given, read.1 = .ok given ∧ world.store.Projects read.2.store pattern value given) ∧
      (∀ slot, slot ∉ pattern.places.map world.store.seat →
        written.2.store.held? slot = world.store.held? slot) ∧
      written.2.store.SharesContainers world.store ∧
      written.2.store.functions = world.store.functions ∧
      written.2.store.AddsContainers read.2.store) := by
  intro location written read
  obtain ⟨reached, ran, received, assigned, -⟩ :=
    Edit.run_write_names options (fun place => place) distinct mutables value
  have writtenSo : written = ((world.store.deal pattern value).result, reached) := ran
  constructor
  · rw [writtenSo]
    exact world.store.result_deal_eq_ok_iff pattern value
  intro fits
  rw [writtenSo] at fits
  have recalls : Edit.Recalls (fun place => place) (world.store.deal pattern value)
      reached.store := by
    intro part mem
    obtain ⟨found, -, now⟩ := assigned part mem
    exact ⟨_, by rw [Store.lookup?, now, Option.some_or], rfl⟩
  have outgrown : world.store.IsOutgrown reached.store := by
    constructor
    · exact Nat.le_of_eq (congrArg Array.size received.containers.arrays).symm
    · exact Nat.le_of_eq (congrArg Array.size received.containers.objects).symm
  obtain ⟨given, last, readSo, adds, projects⟩ :=
    Edit.run_read options (fun place => place) world.store pattern value reached outgrown fits
      recalls
  have readSo : read = (.ok given, last) := by
    show written.2.perform options (.read location) = _
    rw [writtenSo]
    exact readSo
  rw [readSo, writtenSo]
  refine ⟨⟨given, rfl, projects⟩, ?_, received.containers, received.functions, adds⟩
  intro slot outside
  refine received.others slot fun mem => outside ?_
  have within := (world.store.targets_deal pattern value).map world.store.seat
  rw [List.map_map] at mem within
  exact within.subset mem

/-- A world with an array of one element, and with one name bound in two layers. -/
def shadowed : World :=
  { (default : World) with
    store :=
      { Store.empty with
        arrays := #[⟨#[.bool true], []⟩]
        layers := #[Dict.empty.insert "x" (.plain true .null),
          Dict.empty.insert "x" (.plain true (.bool false))] } }

/-- The variables of one name that a scope has in two layers, the nearer one first. -/
def bothLayers : Pattern (Scope × String) :=
  .items [.place (.child ⟨1⟩ (.root ⟨0⟩), "x"), .place (.root ⟨0⟩, "x")]

/--
Two variables of one name are written to as a group of which the value lacks one;
what is read then has `null` in its place.
-/
theorem read_of_write_pattern_shadowed :
    let location := bothLayers.location fun place => .name place.1 place.2
    let written := shadowed.perform (.silent 0 0) (.write location (.arr ⟨0⟩))
    let read := written.2.perform (.silent 0 0) (.read location)
    written.1 = .ok () ∧ ∃ given, read.1 = .ok (.arr given) ∧
      (read.2.store.items given).size = 2 ∧ read.2.store.element given 0 = .bool true ∧
      read.2.store.element given 1 = .null := by
  have mutables : ∀ place ∈ bothLayers.places, ∃ found,
      shadowed.store.binding? place.1 place.2 = some found ∧ found.isMutable = true := by
    have near : shadowed.store.binding? (.child ⟨1⟩ (.root ⟨0⟩)) "x" =
        some (.plain true (.bool false)) := by
      decide +kernel
    have far : shadowed.store.binding? (.root ⟨0⟩) "x" = some (.plain true .null) := by
      decide +kernel
    simp [bothLayers, Pattern.places, Pattern.placesOfItems, near, far, Variable.plain]
  obtain ⟨succeeds, afterwards⟩ :=
    read_of_write_pattern (.silent 0 0) shadowed bothLayers (.arr ⟨0⟩) mutables
      (by decide +kernel)
  have fits : shadowed.store.Fits bothLayers (.arr ⟨0⟩) := by
    refine .items fun index inside => ?_
    match index, inside with
    | 0, _ => exact .place _ _
    | 1, _ => exact .place _ _
  have succeeded := succeeds.mpr fits
  obtain ⟨⟨given, readSo, projects⟩, -⟩ := afterwards succeeded
  cases given with
  | arr given =>
      refine ⟨succeeded, given, readSo, ?_⟩
      generalize (perform _ _ (.read _)).2.store = later at projects ⊢
      rw [bothLayers] at projects
      cases projects with
      | items _ _ size each =>
          have first := each 0 (by decide)
          have second := each 1 (by decide)
          refine ⟨size, ?_, ?_⟩
          · generalize later.element given 0 = part at first ⊢
            cases first
            rfl
          · generalize later.element given 1 = part at second ⊢
            cases second
            rfl
  | _ => cases projects

end World

end TreeScript
