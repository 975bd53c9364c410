import TreeScript.Proofs.Unfoldings

/-!
# Texts and documents of pictures

What is written for a picture is put together from what is written for its parts,
and every part is written, in its order and with its name: `Rendering.Renders`.
A text and a JSON document differ only in what they write for each kind of value
and for a cut, as `Rendering.text` and `Rendering.document` say.

Every picture has one rendering by these rules, which is the one that the traversals
of pictures find (`Rendering.Governs.renders_iff`).  So texts and documents of
values render unfoldings that are cut at cycles: an array that is reached twice is
written out twice, and three dots or null stand where a container lies inside itself.
-/

namespace TreeScript

namespace Snapshot

variable {Result : Type}

/-- What is written for each kind of value, for a function as it is shown, and for a cut. -/
structure Rendering (Result : Type) where
  null : Result
  bool : Bool → Result
  num : Float → Result
  str : String → Result
  arr : List Result → Result
  obj : List (String × Result) → Result
  fn : String → Result
  error : String → Result
  errorWith : String → Result → Result
  cut : Result

namespace Rendering

/-- What is written for a picture, if all elements, entries and informations are written. -/
inductive Renders (rendering : Rendering Result) : Snapshot → Result → Prop where
  | null : Renders rendering .null rendering.null
  | bool (truth : Bool) : Renders rendering (.bool truth) (rendering.bool truth)
  | num (number : Float) : Renders rendering (.num number) (rendering.num number)
  | str (text : String) : Renders rendering (.str text) (rendering.str text)
  | arr {items : List Snapshot} {attributes : List (String × Snapshot)}
      {written : Snapshot → Result}
      (each : ∀ item ∈ items, Renders rendering item (written item)) :
      Renders rendering (.arr items attributes) (rendering.arr (items.map written))
  | obj {entries attributes : List (String × Snapshot)} {written : Snapshot → Result}
      (each : ∀ entry ∈ entries, Renders rendering entry.2 (written entry.2)) :
      Renders rendering (.obj entries attributes)
        (rendering.obj (entries.map fun entry => (entry.1, written entry.2)))
  | fn (name : Option String) (shown : String) (attributes : List (String × Snapshot)) :
      Renders rendering (.fn name shown attributes) (rendering.fn shown)
  | error (name : String) : Renders rendering (.error name) (rendering.error name)
  | errorWith (name : String) {information : Snapshot} {written : Result}
      (renders : Renders rendering information written) :
      Renders rendering (.errorWith name information) (rendering.errorWith name written)
  | cycle (place : Nat) : Renders rendering (.cycle place) rendering.cut

/-- A traversal of pictures writes what the rendering says at every picture. -/
structure Governs (rendering : Rendering Result) (write : Snapshot → Result) : Prop where
  null : write .null = rendering.null
  bool : ∀ truth, write (.bool truth) = rendering.bool truth
  num : ∀ number, write (.num number) = rendering.num number
  str : ∀ text, write (.str text) = rendering.str text
  arr : ∀ items attributes, write (.arr items attributes) = rendering.arr (items.map write)
  obj : ∀ entries attributes, write (.obj entries attributes) =
    rendering.obj (entries.map fun entry => (entry.1, write entry.2))
  fn : ∀ name shown attributes, write (.fn name shown attributes) = rendering.fn shown
  error : ∀ name, write (.error name) = rendering.error name
  errorWith : ∀ name information,
    write (.errorWith name information) = rendering.errorWith name (write information)
  cycle : ∀ place, write (.cycle place) = rendering.cut

namespace Governs

variable {rendering : Rendering Result} {write : Snapshot → Result}

theorem renders (governs : rendering.Governs write) (picture : Snapshot) :
    rendering.Renders picture (write picture) := by
  cases picture with
  | null =>
      rw [governs.null]
      exact .null
  | bool truth =>
      rw [governs.bool]
      exact .bool truth
  | num number =>
      rw [governs.num]
      exact .num number
  | str text =>
      rw [governs.str]
      exact .str text
  | arr items attributes =>
      rw [governs.arr]
      exact .arr fun item listed => governs.renders item
  | obj entries attributes =>
      rw [governs.obj]
      exact .obj fun entry listed => governs.renders entry.2
  | fn name shown attributes =>
      rw [governs.fn]
      exact .fn name shown attributes
  | error name =>
      rw [governs.error]
      exact .error name
  | errorWith name information =>
      rw [governs.errorWith]
      exact .errorWith name (governs.renders information)
  | cycle place =>
      rw [governs.cycle]
      exact .cycle place
termination_by sizeOf picture
decreasing_by
  · have smaller := List.sizeOf_lt_of_mem listed
    rw [Snapshot.arr.sizeOf_spec]
    omega
  · have smaller := List.sizeOf_lt_of_mem listed
    have part : sizeOf entry = 1 + sizeOf entry.1 + sizeOf entry.2 := rfl
    rw [Snapshot.obj.sizeOf_spec]
    omega
  · rw [Snapshot.errorWith.sizeOf_spec]
    omega

theorem eq_of_renders (governs : rendering.Governs write) {picture : Snapshot} {result : Result}
    (renders : rendering.Renders picture result) :
    result = write picture := by
  induction renders with
  | null => exact governs.null.symm
  | bool truth => exact (governs.bool truth).symm
  | num number => exact (governs.num number).symm
  | str text => exact (governs.str text).symm
  | arr _ inductive_step =>
      rw [governs.arr, List.map_congr_left inductive_step]
  | obj _ inductive_step =>
      rw [governs.obj]
      refine congrArg rendering.obj (List.map_congr_left fun entry listed => ?_)
      rw [inductive_step entry listed]
  | fn name shown attributes => exact (governs.fn name shown attributes).symm
  | error name => exact (governs.error name).symm
  | errorWith name _ inductive_step => rw [governs.errorWith, inductive_step]
  | cycle place => exact (governs.cycle place).symm

/-- A picture has one rendering. -/
theorem renders_iff (governs : rendering.Governs write) {picture : Snapshot} {result : Result} :
    rendering.Renders picture result ↔ result = write picture := by
  constructor
  · exact governs.eq_of_renders
  · rintro rfl
    exact governs.renders picture

end Governs

end Rendering

/-! ## Texts in quotes -/

/-- Write something else for every occurrence of a character. -/
def substitute (character : Char) (replacement : List Char) (text : List Char) : List Char :=
  text.flatMap fun other => if other = character then replacement else [other]

/--
A text in quotes, where the characters that need a backslash are replaced one after
another.  The backslash itself comes first, so that no other one is doubled.
-/
def inQuotes (text : String) : String :=
  let slashed := substitute '\\' ['\\', '\\'] text.toList
  let quoted := substitute '"' ['\\', '"'] slashed
  let returned := substitute '\r' ['\\', 'r'] quoted
  "\"" ++ String.ofList (substitute '\n' ['\\', 'n'] returned) ++ "\""

theorem substitute_append (character : Char) (replacement text other : List Char) :
    substitute character replacement (text ++ other) =
      substitute character replacement text ++ substitute character replacement other :=
  List.flatMap_append

/-- One pass over the characters writes what the four replacements write in turn. -/
theorem flatMap_escape (text : List Char) :
    text.flatMap escape =
      substitute '\n' ['\\', 'n'] (substitute '\r' ['\\', 'r']
        (substitute '"' ['\\', '"'] (substitute '\\' ['\\', '\\'] text))) := by
  induction text with
  | nil => rfl
  | cons first rest inductive_step =>
      have once : escape first = substitute '\n' ['\\', 'n'] (substitute '\r' ['\\', 'r']
          (substitute '"' ['\\', '"'] (substitute '\\' ['\\', '\\'] [first]))) := by
        unfold escape
        split_ifs <;> simp_all [substitute]
      rw [List.flatMap_cons, inductive_step, once, ← List.singleton_append (l := rest)]
      simp only [substitute_append]

theorem quote_eq_inQuotes (text : String) : quote text = inQuotes text := by
  rw [← String.toList_inj, quote, inQuotes, flatMap_escape]
  simp

/-! ## Texts and documents -/

namespace Rendering

/-- The text of a picture. -/
def text : Rendering String where
  null := "null"
  bool truth := if truth then "true" else "false"
  num := Number.display
  str := inQuotes
  arr items := "[ " ++ String.intercalate ", " items ++ " ]"
  obj entries :=
    "\x7b " ++ String.intercalate ", " (entries.map fun entry => entry.1 ++ ": " ++ entry.2) ++
      " \x7d"
  fn shown := shown
  error name := "Error: " ++ name
  errorWith name _ := "Error: " ++ name
  cut := "..."

/-- The JSON document of a picture.  Numbers that are not finite have none. -/
def document : Rendering Document where
  null := .null
  bool := .bool
  num number := if number.isFinite then .num (.real number) else .null
  str := .str
  arr := .arr
  obj := .obj
  fn _ := .null
  error name := .obj [("error", .str name)]
  errorWith name information := .obj [("error", .str name), ("info", information)]
  cut := .null

end Rendering

theorem literals_eq_map (pictures : List Snapshot) :
    literals pictures = pictures.map literal := by
  induction pictures with
  | nil => rfl
  | cons first rest inductive_step => rw [literals, inductive_step, List.map_cons]

theorem entryLiterals_eq_map (pictures : List (String × Snapshot)) :
    entryLiterals pictures = pictures.map fun entry => entry.1 ++ ": " ++ entry.2.literal := by
  induction pictures with
  | nil => rfl
  | cons first rest inductive_step => rw [entryLiterals, inductive_step, List.map_cons]

theorem documents_eq_map (pictures : List Snapshot) :
    documents pictures = pictures.map toDocument := by
  induction pictures with
  | nil => rfl
  | cons first rest inductive_step => rw [documents, inductive_step, List.map_cons]

theorem entryDocuments_eq_map (pictures : List (String × Snapshot)) :
    entryDocuments pictures = pictures.map fun entry => (entry.1, entry.2.toDocument) := by
  induction pictures with
  | nil => rfl
  | cons first rest inductive_step => rw [entryDocuments, inductive_step, List.map_cons]

theorem governs_literal : Rendering.text.Governs literal where
  null := rfl
  bool _ := rfl
  num _ := rfl
  str := quote_eq_inQuotes
  arr items _ := by
    rw [literal, literals_eq_map]
    rfl
  obj entries _ := by
    rw [literal, entryLiterals_eq_map]
    simp [Rendering.text, Function.comp_def]
  fn _ _ _ := rfl
  error _ := rfl
  errorWith _ _ := rfl
  cycle _ := rfl

theorem governs_toDocument : Rendering.document.Governs toDocument where
  null := rfl
  bool _ := rfl
  num _ := rfl
  str _ := rfl
  arr items _ := by
    rw [toDocument, documents_eq_map]
    rfl
  obj entries _ := by
    rw [toDocument, entryDocuments_eq_map]
    rfl
  fn _ _ _ := rfl
  error _ := rfl
  errorWith _ _ := rfl
  cycle _ := rfl

/-- What a picture is printed as: a string as it is, and anything else as inside of containers. -/
inductive Prints : Snapshot → String → Prop where
  | str (text : String) : Prints (.str text) text
  | other {picture : Snapshot} {text : String} (noString : ∀ text, picture ≠ .str text)
      (renders : Rendering.text.Renders picture text) :
      Prints picture text

theorem display_eq_literal {picture : Snapshot} (noString : ∀ text, picture ≠ .str text) :
    picture.display = picture.literal := by
  cases picture with
  | str text => exact absurd rfl (noString text)
  | _ => rfl

theorem prints_iff {picture : Snapshot} {text : String} :
    picture.Prints text ↔ text = picture.display := by
  constructor
  · intro prints
    cases prints with
    | str => rfl
    | other noString renders =>
        rw [display_eq_literal noString]
        exact governs_literal.eq_of_renders renders
  · rintro rfl
    by_cases noString : ∀ text, picture ≠ .str text
    · rw [display_eq_literal noString]
      exact .other noString (governs_literal.renders picture)
    · obtain ⟨text, rfl⟩ := not_forall_not.mp noString
      exact .str text

end Snapshot

namespace Store

/--
The two texts of a value render one picture of it, and its JSON document renders
another one.  Both pictures are unfoldings that are cut at cycles.  Whatever a picture
shows is written out, a cut as three dots in a text and as null in a document, and
a value has no other texts and no other document.
-/
theorem renderings_unfold (store : Store) (value : Value) :
    ∃ picture depicted,
      store.IsUnfolding .contents value picture ∧ store.IsUnfolding .document value depicted ∧
      (∀ text, picture.Prints text ↔ text = store.display value) ∧
      (∀ text, Snapshot.Rendering.text.Renders picture text ↔ text = store.literal value) ∧
      ∀ document, Snapshot.Rendering.document.Renders depicted document ↔
        document = store.toDocument value := by
  refine ⟨store.snapshot .contents value, store.snapshot .document value,
    isUnfolding_snapshot rfl value, isUnfolding_snapshot rfl value, ?_, ?_, ?_⟩
  · exact fun text => Snapshot.prints_iff
  · exact fun text => Snapshot.governs_literal.renders_iff
  · exact fun document => Snapshot.governs_toDocument.renders_iff

end Store

end TreeScript
