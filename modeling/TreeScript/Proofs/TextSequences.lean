import TreeScript.Proofs.ContainerAccess
import TreeScript.Proofs.GoalAccord

/-!
# Texts as sequences

A text is split into an array of texts and put together again from one.  Whatever
the separator is, splitting loses nothing.  Without a separator the pieces are the
characters, and they are what indexing the text finds.
-/

namespace TreeScript

open Rule

variable {options : Options} {host : Host} {free : Bool} {world reached : World}

/-! ## Pieces -/

namespace Text

/-- Texts of one character each are put together to the text of the characters. -/
theorem intercalate_singletons (characters : List Char) :
    "".intercalate (characters.map fun character => String.ofList [character]) =
      String.ofList characters := by
  induction characters with
  | nil => simp
  | cons first rest inductive_step =>
      cases rest with
      | nil => simp
      | cons second rest =>
          rw [List.map_cons, String.intercalate_cons_of_ne_nil (by simp), inductive_step,
            String.append_empty, ← String.ofList_append, List.singleton_append]

theorem intercalate_characters (text : String) : "".intercalate (characters text) = text := by
  rw [characters, intercalate_singletons, String.ofList_toList]

/-- The pieces of a text, with the separator between them, are the text. -/
theorem exists_pieces (text : String) (separator : Option String) :
    ∃ pieces, Method.pieces text (separator.map Value.str).toList = .ok pieces ∧
      (separator.getD "").intercalate pieces = text := by
  cases separator with
  | none => exact ⟨_, rfl, intercalate_characters text⟩
  | some separator =>
      by_cases invisible : separator = ""
      · subst invisible
        exact ⟨_, rfl, intercalate_characters text⟩
      · refine ⟨split separator text, ?_, intercalate_split text invisible⟩
        show Except.ok (if separator.isEmpty then characters text else split separator text) = _
        rw [if_neg (by simpa using invisible)]

end Text

/-! ## Methods -/

namespace Property

/-- Call a property of a value: what `target.name(...)` does once its parts have been evaluated. -/
def call (target : Value) (name : String) (arguments : List Value) (context : Context)
    (site : Option Position) : Rule Value := do
  let callee ← get target name
  let function ← callee.asFn
  Rule.call (.apply function arguments context site)

end Property

namespace World

/-- The world after a method has been taken from a value. -/
def taking (world : World) (property : Method) : World :=
  { world with
    store := (world.store.newFunction (some property.name) (.native (.method property))).1 }

end World

namespace Property

variable {target : Value} {name : String} {property : Method} {arguments : List Value}
variable {context : Context} {site : Option Position}

/-- To call a method of a text or an array is to take it from the value and to run it. -/
theorem ends_call {answer : List Value → Rule Value} {outcome : Outcome}
    (plain : property.forms = .plain fun arguments _ => answer arguments)
    (takes : (get target name).Ends options host free world (world.taking property)
      (.ok (.fn (world.store.newFunction (some property.name) (.native (.method property))).2)))
    (answers : (answer arguments).Ends options host free (world.taking property) reached outcome) :
    (call target name arguments context site).Ends options host free world reached outcome := by
  have known := world.store.function?_newFunction (some property.name)
    (.native (.method property))
  apply takes.andThen
  apply (ends_ofExcept_ok rfl).andThen
  apply (Evaluation.ends_call_iff rfl).mpr
  rw [Evaluation.apply_eq]
  apply (ends_look _).andThen
  show Rule.Ends options host free (world.taking property) (Evaluation.applyFound options host
    arguments context site ((world.taking property).store.function? _)) reached outcome
  rw [World.taking, known]
  show (property.forms.apply arguments context site).Ends options host free _ reached outcome
  rw [plain, NativeForms.plain_apply]
  exact answers

/-- Splitting a text gives an array of its pieces. -/
theorem ends_call_split {text : String} {pieces : List String}
    (split : Method.pieces text arguments = .ok pieces) :
    ∃ array between, (call (.str text) "split" arguments context site).Ends options host free world
        between (.ok (.arr array)) ∧
      between.store.items array = (pieces.map Value.str).toArray := by
  have takes : (get (.str text) "split").Ends options host free world
      (world.taking (.strSplit text)) _ :=
    (ends_look _).andThen (ends_perform_bind_iff.mpr (ends_pure _))
  let taken := (world.taking (.strSplit text)).store
  let items := (pieces.map Value.str).toArray
  refine ⟨(taken.newArray items).2, { world with store := (taken.newArray items).1 },
    ends_call rfl takes ?_, taken.items_newArray items⟩
  apply (ends_ofExcept_ok split).andThen
  exact ends_perform_bind_iff.mpr (ends_pure _)

theorem map_display_str (store : Store) (pieces : List String) :
    (pieces.map Value.str).map store.display = pieces := by
  have displayed : store.display ∘ Value.str = id := rfl
  rw [List.map_map, displayed, List.map_id]

/-- Joining an array of texts puts the separator between them. -/
theorem ends_call_join {array : ArrayId} {pieces : List String} {separator : String}
    (held : world.store.items array = (pieces.map Value.str).toArray)
    (separated : Method.separator arguments = .ok separator) :
    (call (.arr array) "join" arguments context site).Ends options host free world
      (world.taking (.arrJoin array)) (.ok (.str (separator.intercalate pieces))) := by
  have takes : (get (.arr array) "join").Ends options host free world
      (world.taking (.arrJoin array)) _ :=
    (ends_look _).andThen (ends_perform_bind_iff.mpr (ends_pure _))
  refine ends_call rfl takes ?_
  apply (ends_ofExcept_ok separated).andThen
  apply (ends_look _).andThen
  have shown : (world.store.items array).toList.map (world.taking (.arrJoin array)).store.display =
      pieces := by
    rw [held, List.toList_toArray, map_display_str]
  rw [← shown]
  exact ends_pure _

end Property

/-! ## Characters -/

theorem slot?_eq_none_iff {index : Float} {length : Nat} :
    slot? index length = none ↔ ∀ place < length, Double.integer? index ≠ some (place : Int) := by
  simp only [Option.eq_none_iff_forall_ne_some, ne_eq, slot?_eq_some_iff,
    Double.natural?_eq_some_iff]
  constructor
  · exact fun missing place inside found => missing place ⟨found, inside⟩
  · exact fun missing place ⟨found, inside⟩ => missing place inside found

namespace Property

/-- An expression for a character of a text finds what the text has at the place. -/
theorem ends_item_text (text : String) (index : Float) :
    (item (.str text) (.num index)).Ends options host free world world
      ((character text index).mapError .error) :=
  (ends_ofExcept_ok rfl).andThen (ends_ofExcept_iff.mpr ⟨rfl, rfl⟩)

end Property

/--
The values of an array are the characters of a text: there are as many as the text
is long, each is a text of one character, and each stands where indexing the text
finds it, which fails for all other numbers.
-/
structure Text.IsSpelled (options : Options) (host : Host) (free : Bool) (text : String)
    (items : Array Value) : Prop where
  length : ∀ world, (Property.get (.str text) "len").Ends options host free world world
    (.ok (.num (Float.ofNat items.size)))
  single : ∀ item ∈ items, ∃ character, item = .str (String.ofList [character])
  inside : ∀ world index place (inside : place < items.size),
    Double.integer? index = some (place : Int) →
    (Property.item (.str text) (.num index)).Ends options host free world world
      (.ok items[place])
  outside : ∀ world index, (∀ place < items.size, Double.integer? index ≠ some (place : Int)) →
    (Property.item (.str text) (.num index)).Ends options host free world world
      (.error (.error (outOfRange index items.size)))

/-- Indexing a text finds its characters. -/
theorem Property.character_of_inside {text : String} {index : Float} {place : Nat}
    (found : Double.integer? index = some (place : Int)) (inside : place < text.toList.length) :
    Property.character text index = .ok (.str (String.ofList [text.toList[place]])) := by
  have slot : slot? index text.length = some place := by
    rw [slot?_eq_some_iff, Double.natural?_eq_some_iff]
    exact ⟨found, String.length_toList ▸ inside⟩
  rw [Property.character, slot, Option.bind_some, Text.character?_eq_getElem?,
    List.getElem?_eq_getElem inside]

theorem Text.isSpelled_characters (text : String) :
    IsSpelled options host free text ((characters text).map Value.str).toArray := by
  have size : ((characters text).map Value.str).toArray.size = text.length := by
    simp [characters, String.length_toList]
  constructor
  · intro world
    rw [size]
    exact (ends_look _).andThen (ends_pure _)
  · intro item mem
    simp only [characters, List.map_map, List.mem_toArray, List.mem_map] at mem
    obtain ⟨character, -, same⟩ := mem
    exact ⟨character, same.symm⟩
  · intro world index place inside found
    have within : place < text.toList.length := by
      rw [String.length_toList, ← size]
      exact inside
    have ends := @Property.ends_item_text options host free world text index
    rw [Property.character_of_inside found within] at ends
    have item : ((characters text).map Value.str).toArray[place] =
        .str (String.ofList [text.toList[place]]) := by
      simp [characters]
    rw [item]
    exact ends
  · intro world index missing
    rw [size] at missing ⊢
    have missed : Property.character text index = .error (outOfRange index text.length) := by
      rw [Property.character, slot?_eq_none_iff.mpr missing, Option.bind_none]
    have ends := @Property.ends_item_text options host free world text index
    rw [missed] at ends
    exact ends

/-! ## Splitting and joining -/

variable {context later : Context} {site laterSite : Option Position}

/-- Split with some arguments, a text gives a new array of its characters. -/
def Text.GivesCharacters (options : Options) (host : Host) (free : Bool) (world : World)
    (context : Context) (site : Option Position) (text : String) (arguments : List Value) : Prop :=
  ∃ array between,
    (Property.call (.str text) "split" arguments context site).Ends options host free world between
      (.ok (.arr array)) ∧
    IsSpelled options host free text (between.store.items array)

theorem Text.givesCharacters_of_pieces {text : String} {arguments : List Value}
    (split : Method.pieces text arguments = .ok (characters text)) :
    GivesCharacters options host free world context site text arguments := by
  obtain ⟨array, between, splits, held⟩ := Property.ends_call_split split
  refine ⟨array, between, splits, ?_⟩
  rw [held]
  exact isSpelled_characters text

/--
Whatever a text is split with, joining the pieces with the same gives the text
back.  Split without a separator, or with the empty one, a text gives its characters.
-/
theorem Text.split_and_join (text : String) (separator : Option String) :
    (∃ array between after,
      (Property.call (.str text) "split" (separator.map Value.str).toList context site).Ends
        options host free world between (.ok (.arr array)) ∧
      (Property.call (.arr array) "join" (separator.map Value.str).toList later laterSite).Ends
        options host free between after (.ok (.str text))) ∧
    GivesCharacters options host free world context site text [] ∧
    GivesCharacters options host free world context site text [.str ""] := by
  refine ⟨?_, givesCharacters_of_pieces rfl, givesCharacters_of_pieces rfl⟩
  obtain ⟨pieces, split, whole⟩ := exists_pieces text separator
  obtain ⟨array, between, splits, held⟩ := Property.ends_call_split split
  have separated :
      Method.separator (separator.map Value.str).toList = .ok (separator.getD "") := by
    cases separator <;> rfl
  have joins := @Property.ends_call_join options host free between _ later laterSite _ _ _ held
    separated
  rw [whole] at joins
  exact ⟨array, between, _, splits, joins⟩

end TreeScript
