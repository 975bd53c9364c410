import Mathlib
import TreeScript.Proofs.Bisimilarity
import TreeScript.Proofs.Renderings
import TreeScript.Proofs.WholeRemainders

/-!
# Literal texts can be read back

The literal text of a value shows strings in quotes, and separators, brackets and
keywords may stand inside of the quotes.  Still a text belongs to one value only,
as long as the value is made of null, truth values, whole numbers, strings and
arrays.

A text is taken apart from the left.  Its first character says what kind of value
it is the text of, and where the text of an element stops is known from what may
follow it: nothing, a separator or a closing bracket.  This makes the texts of
pictures a prefix code (`Snapshot.IsPlain.isPrefixFree`), and values whose
pictures agree are related by a bisimulation.
-/

namespace TreeScript

/-- A number that is whole and of less than sixteen digits. -/
def Number.IsShortWhole (number : Float) (whole : Int) : Prop :=
  Double.integer? number = some whole ∧ whole.natAbs < 10 ^ 15

namespace Snapshot

open Number

/-! ## Plain pictures -/

/-- A picture that shows null, truth values, whole numbers, strings and arrays of such. -/
inductive IsPlain : Snapshot → Prop where
  | null : IsPlain .null
  | bool (truth : Bool) : IsPlain (.bool truth)
  | num {number : Float} {whole : Int} (isWhole : IsShortWhole number whole) :
      IsPlain (.num number)
  | str (text : String) : IsPlain (.str text)
  | arr {items : List Snapshot} {attributes : List (String × Snapshot)}
      (each : ∀ item ∈ items, IsPlain item) :
      IsPlain (.arr items attributes)

/-- Two pictures say the same by themselves, and their elements have the same texts. -/
inductive Agrees : Snapshot → Snapshot → Prop where
  | null : Agrees .null .null
  | bool (truth : Bool) : Agrees (.bool truth) (.bool truth)
  | num {number other : Float} {whole : Int} (isWhole : IsShortWhole number whole)
      (isWhole' : IsShortWhole other whole) :
      Agrees (.num number) (.num other)
  | str (text : String) : Agrees (.str text) (.str text)
  | arr {items others : List Snapshot} {attributes attributes' : List (String × Snapshot)}
      (same : items.map literal = others.map literal) :
      Agrees (.arr items attributes) (.arr others attributes')

/-- The characters of the literal text of a picture. -/
def letters (picture : Snapshot) : List Char :=
  picture.literal.toList

theorem display_eq_toString {number : Float} {whole : Int}
    (isWhole : IsShortWhole number whole) : Number.display number = toString whole := by
  obtain ⟨isInteger, bounded⟩ := isWhole
  have finite := isInteger
  unfold Double.integer? at finite
  unfold Number.display
  cases unpacked : Double.ofFloat number with
  | nan => simp [unpacked] at finite
  | infinite negative => simp [unpacked] at finite
  | finite negative significand exponent =>
      have bounded : whole.natAbs < Number.displayLimit := bounded
      simp only [isInteger, if_pos bounded]

theorem letters_num {number : Float} {whole : Int} (isWhole : IsShortWhole number whole) :
    letters (.num number) = (toString whole).toList := by
  rw [letters, literal, display_eq_toString isWhole]

theorem letters_str (text : String) :
    letters (.str text) = '"' :: (text.toList.flatMap escape ++ ['"']) := by
  rw [letters, literal, quote, String.toList_ofList]

/-- The texts of the elements of an array behind its first one, each with a separator before it. -/
def following (items : List Snapshot) : List Char :=
  items.flatMap fun item => ',' :: ' ' :: item.letters

theorem intercalate_cons (first : Snapshot) (rest : List Snapshot) :
    [',', ' '].intercalate ((first :: rest).map letters) = first.letters ++ following rest := by
  induction rest generalizing first with
  | nil => simp [following]
  | cons second rest inductive_step =>
      rw [List.map_cons, List.intercalate_cons_of_ne_nil (by simp), inductive_step]
      simp [following]

theorem letters_arr (items : List Snapshot) (attributes : List (String × Snapshot)) :
    letters (.arr items attributes) =
      '[' :: ' ' :: ([',', ' '].intercalate (items.map letters) ++ [' ', ']']) := by
  have texts : (literals items).map String.toList = items.map letters := by
    rw [literals_eq_map, List.map_map]
    rfl
  rw [letters, literal, String.toList_append, String.toList_append, String.toList_intercalate,
    texts]
  rfl

theorem Agrees.letters_eq {picture other : Snapshot} (agrees : picture.Agrees other) :
    picture.letters = other.letters := by
  cases agrees with
  | null | bool | str => rfl
  | num isWhole isWhole' => rw [letters_num isWhole, letters_num isWhole']
  | arr same => rw [letters, letters, literal, literal, literals_eq_map, literals_eq_map, same]

/-! ## What a text begins with -/

/-- The characters that whole numbers are written with. -/
def isNumeral (character : Char) : Bool :=
  character.isDigit || character == '-'

/-- What the first character of a text says about it: all numerals say that a number is shown. -/
def mark (character : Char) : Char :=
  if isNumeral character then '0' else character

/-- What the text of a picture begins with. -/
def opening : Snapshot → Char
  | .null => 'n'
  | .bool truth => if truth then 't' else 'f'
  | .num _ => '0'
  | .str _ => '"'
  | _ => '['

theorem isNumeral_toString (whole : Int) :
    ∀ character ∈ (toString whole).toList, isNumeral character = true := by
  have digits (number : Nat) : ∀ character ∈ number.repr.toList, isNumeral character = true := by
    intro character listed
    rw [Nat.repr_eq_ofList_toDigits, String.toList_ofList] at listed
    rw [isNumeral, Nat.isDigit_of_mem_toDigits (by decide) (by decide) listed, Bool.true_or]
  rw [Int.toString_eq_repr, Int.repr_eq_if]
  split
  · exact digits _
  · rw [String.toList_append]
    exact List.forall_mem_append.mpr ⟨by simp [isNumeral], digits _⟩

theorem exists_numeral (whole : Int) :
    ∃ first rest, (toString whole).toList = first :: rest ∧ isNumeral first = true := by
  have numerals := isNumeral_toString whole
  cases written : (toString whole).toList with
  | nil =>
      rw [Int.toString_eq_repr, Int.repr_eq_if] at written
      split at written <;> simp [Nat.repr_eq_ofList_toDigits, Nat.toDigits_ne_nil] at written
  | cons first rest =>
      rw [written] at numerals
      exact ⟨first, rest, rfl, numerals first List.mem_cons_self⟩

theorem IsPlain.mark_head {picture : Snapshot} (plain : picture.IsPlain) (rest : List Char) :
    (picture.letters ++ rest).head?.map mark = some picture.opening := by
  cases plain with
  | null => rfl
  | bool truth => cases truth <;> rfl
  | num isWhole =>
      obtain ⟨first, others, written, isNumeral⟩ := exists_numeral _
      rw [letters_num isWhole, written]
      exact congrArg some (if_pos isNumeral)
  | str text =>
      rw [letters_str]
      rfl
  | arr each =>
      rw [letters_arr]
      rfl

/-! ## Where a text ends -/

/-- What may follow the text of a picture: nothing, a separator or a closing bracket. -/
def IsEnd (rest : List Char) : Prop :=
  ∀ character ∈ rest.head?, character = ',' ∨ character = ' '

theorem IsEnd.takeWhile_eq {rest : List Char} (ends : IsEnd rest) :
    rest.takeWhile isNumeral = [] := by
  cases rest with
  | nil => rfl
  | cons first rest =>
      rcases ends first rfl with rfl | rfl <;> rfl

theorem isEnd_following (items : List Snapshot) (rest : List Char) :
    IsEnd (following items ++ ' ' :: ']' :: rest) := by
  intro character first
  cases items with
  | nil => exact .inr (Option.some.inj first).symm
  | cons item items => exact .inl (Option.some.inj first).symm

theorem eq_of_numerals_append {whole other : Int} {rest rest' : List Char} (ends : IsEnd rest)
    (ends' : IsEnd rest')
    (same : (toString whole).toList ++ rest = (toString other).toList ++ rest') :
    whole = other := by
  have numerals := congrArg (List.takeWhile isNumeral) same
  rw [List.takeWhile_append_of_pos (isNumeral_toString whole),
    List.takeWhile_append_of_pos (isNumeral_toString other), ends.takeWhile_eq,
    ends'.takeWhile_eq, List.append_nil, List.append_nil] at numerals
  exact Int.repr_inj.mp (String.toList_inj.mp numerals)

/-- What is written for a character tells which one it is, whatever follows. -/
theorem eq_of_escape_append {character other : Char} {rest rest' : List Char}
    (same : escape character ++ rest = escape other ++ rest') :
    character = other ∧ rest = rest' := by
  unfold escape at same
  grind

/-- No character is written in such a way that it looks like the closing quote. -/
theorem escape_append_ne (character : Char) (rest rest' : List Char) :
    escape character ++ rest ≠ '"' :: rest' := by
  unfold escape
  grind

theorem eq_of_quoted_append {characters others rest rest' : List Char}
    (same : characters.flatMap escape ++ '"' :: rest = others.flatMap escape ++ '"' :: rest') :
    characters = others := by
  induction characters generalizing others with
  | nil =>
      cases others with
      | nil => rfl
      | cons other others =>
          rw [List.flatMap_cons, List.append_assoc] at same
          exact absurd same.symm (escape_append_ne _ _ _)
  | cons first characters inductive_step =>
      cases others with
      | nil =>
          rw [List.flatMap_cons, List.append_assoc] at same
          exact absurd same (escape_append_ne _ _ _)
      | cons other others =>
          simp only [List.flatMap_cons, List.append_assoc] at same
          obtain ⟨rfl, continued⟩ := eq_of_escape_append same
          rw [inductive_step continued]

/-! ## The prefix code -/

/-- The text of a picture can be taken off the front of a longer text in one way only. -/
def IsPrefixFree (picture : Snapshot) : Prop :=
  ∀ {other : Snapshot} {rest rest' : List Char}, other.IsPlain → IsEnd rest → IsEnd rest' →
    picture.letters ++ rest = other.letters ++ rest' → picture.Agrees other

theorem IsPrefixFree.rest_eq {picture other : Snapshot} {rest rest' : List Char}
    (prefixFree : picture.IsPrefixFree) (plain : other.IsPlain) (ends : IsEnd rest)
    (ends' : IsEnd rest') (same : picture.letters ++ rest = other.letters ++ rest') :
    picture.literal = other.literal ∧ rest = rest' := by
  have letters := (prefixFree plain ends ends' same).letters_eq
  rw [letters] at same
  exact ⟨String.toList_inj.mp letters, List.append_cancel_left same⟩

section Elements

variable {items others : List Snapshot} {rest rest' : List Char}

theorem map_literal_eq_of_following (each : ∀ item ∈ items, item.IsPrefixFree)
    (plain : ∀ other ∈ others, other.IsPlain)
    (same : following items ++ ' ' :: ']' :: rest = following others ++ ' ' :: ']' :: rest') :
    items.map literal = others.map literal := by
  induction items generalizing others with
  | nil =>
      cases others with
      | nil => rfl
      | cons other others => simp [following] at same
  | cons item items inductive_step =>
      cases others with
      | nil => simp [following] at same
      | cons other others =>
          obtain ⟨prefixFree, each⟩ := List.forall_mem_cons.mp each
          obtain ⟨plainOther, plain⟩ := List.forall_mem_cons.mp plain
          have same : item.letters ++ (following items ++ ' ' :: ']' :: rest) =
              other.letters ++ (following others ++ ' ' :: ']' :: rest') := by
            simpa [following] using same
          obtain ⟨first, same⟩ := prefixFree.rest_eq plainOther (isEnd_following items rest)
            (isEnd_following others rest') same
          rw [List.map_cons, List.map_cons, first, inductive_step each plain same]

/-- What is between the brackets of an array determines the texts of its elements. -/
theorem map_literal_eq_of_intercalate (plainItems : ∀ item ∈ items, item.IsPlain)
    (each : ∀ item ∈ items, item.IsPrefixFree) (plain : ∀ other ∈ others, other.IsPlain)
    (same : [',', ' '].intercalate (items.map letters) ++ ' ' :: ']' :: rest =
      [',', ' '].intercalate (others.map letters) ++ ' ' :: ']' :: rest') :
    items.map literal = others.map literal := by
  have bracket {picture : Snapshot} (isPlain : picture.IsPlain) (tail rest : List Char) :
      picture.letters ++ tail ≠ ' ' :: rest := by
    intro starts
    have opening := isPlain.mark_head tail
    rw [starts] at opening
    cases isPlain with
    | bool truth => cases truth <;> cases opening
    | _ => cases opening
  cases items with
  | nil =>
      cases others with
      | nil => rfl
      | cons other others =>
          rw [intercalate_cons, List.append_assoc] at same
          exact absurd same.symm (bracket (List.forall_mem_cons.mp plain).1 _ _)
  | cons item items =>
      cases others with
      | nil =>
          rw [intercalate_cons, List.append_assoc] at same
          exact absurd same (bracket (List.forall_mem_cons.mp plainItems).1 _ _)
      | cons other others =>
          obtain ⟨prefixFree, each⟩ := List.forall_mem_cons.mp each
          obtain ⟨plainOther, plain⟩ := List.forall_mem_cons.mp plain
          rw [intercalate_cons, intercalate_cons, List.append_assoc, List.append_assoc] at same
          obtain ⟨first, same⟩ := prefixFree.rest_eq plainOther (isEnd_following items rest)
            (isEnd_following others rest') same
          rw [List.map_cons, List.map_cons, first, map_literal_eq_of_following each plain same]

end Elements

namespace IsPlain

variable {picture other : Snapshot}

/-- Texts that begin alike belong to pictures of one kind. -/
theorem opening_eq {rest rest' : List Char} (plain : picture.IsPlain) (plain' : other.IsPlain)
    (same : picture.letters ++ rest = other.letters ++ rest') :
    picture.opening = other.opening := by
  have marked := plain.mark_head rest
  rw [same, plain'.mark_head] at marked
  exact (Option.some.inj marked).symm

/-- The texts of plain pictures are a prefix code. -/
theorem isPrefixFree (plain : picture.IsPlain) : picture.IsPrefixFree := by
  induction plain with
  | null =>
      intro other rest rest' plain _ _ same
      have opening := null.opening_eq plain same
      cases plain with
      | null => exact .null
      | bool truth => cases truth <;> cases opening
      | _ => cases opening
  | bool truth =>
      intro other rest rest' plain _ _ same
      have opening := (bool truth).opening_eq plain same
      cases plain with
      | bool truth' =>
          cases truth <;> cases truth' <;> first | exact .bool _ | cases opening
      | _ => cases truth <;> cases opening
  | num isWhole =>
      intro other rest rest' plain ends ends' same
      have opening := (num isWhole).opening_eq plain same
      cases plain with
      | num isWhole' =>
          rw [letters_num isWhole, letters_num isWhole'] at same
          obtain rfl := eq_of_numerals_append ends ends' same
          exact .num isWhole isWhole'
      | bool truth => cases truth <;> cases opening
      | _ => cases opening
  | str text =>
      intro other rest rest' plain _ _ same
      have opening := (str text).opening_eq plain same
      cases plain with
      | str text' =>
          rw [letters_str, letters_str] at same
          have characters := eq_of_quoted_append (by simpa using same)
          rw [String.toList_inj.mp characters]
          exact .str text'
      | bool truth => cases truth <;> cases opening
      | _ => cases opening
  | arr each inductive_step =>
      intro other rest rest' plain _ _ same
      have opening := (arr each).opening_eq plain same
      cases plain with
      | arr each' =>
          rw [letters_arr, letters_arr] at same
          exact .arr (map_literal_eq_of_intercalate each inductive_step each' (by simpa using same))
      | bool truth => cases truth <;> cases opening
      | _ => cases opening

/-- Plain pictures that have one text agree. -/
theorem agrees (plain : picture.IsPlain) (plain' : other.IsPlain)
    (same : picture.literal = other.literal) : picture.Agrees other :=
  @isPrefixFree _ plain _ [] [] plain' nofun nofun (by rw [letters, letters, same])

end IsPlain

end Snapshot

/-- Null, a truth value, a whole number of less than sixteen digits, a string or an array. -/
def Value.IsPlain : Value → Prop
  | .null | .bool _ | .str _ | .arr _ => True
  | .num number => ∃ whole, Number.IsShortWhole number whole
  | .obj _ | .fn _ | .error _ | .errorWith _ _ => False

namespace Store

variable {store : Store} {path path' : List ContainerId} {left right value : Value}

/-! ## Trees of plain data -/

/-- Below the containers of a path a value is made of plain data, and no container recurs in it. -/
structure IsPlainTree (store : Store) (path : List ContainerId) (value : Value) : Prop where
  plain : ∀ places inner, store.at? .contents value places = some inner → inner.IsPlain
  acyclic : ∀ places, ¬ store.RecursAt .contents path value places

namespace IsPlainTree

theorem isClosed {container : ContainerId} (tree : store.IsPlainTree path container.value) :
    container ∉ path :=
  fun listed => tree.acyclic [] (recursAt_nil_iff.mpr ⟨container, rfl, listed⟩)

/-- The elements of an array are trees below it. -/
theorem element {array : ArrayId} (tree : store.IsPlainTree path (.arr array)) {index : Nat}
    (found : (store.items array)[index]? = some value) :
    store.IsPlainTree (.arr array :: path) value := by
  have found : store.member? .contents (.arr array) (.member index) = some value := found
  constructor
  · intro places inner leads
    exact tree.plain (.member index :: places) inner (by rwa [at?, found, Option.bind_some])
  · intro places
    have closed := tree.acyclic (.member index :: places)
    rwa [recursAt_cons_iff found] at closed

end IsPlainTree

/-- What holds no other value is a tree if it is plain. -/
theorem isPlainTree_of_leaf (plain : value.IsPlain)
    (leaf : ∀ place, store.member? .contents value place = none)
    (noContainer : ∀ container : ContainerId, value ≠ container.value) :
    store.IsPlainTree path value := by
  have only {places : List Snapshot.Place} {inner : Value}
      (leads : store.at? .contents value places = some inner) : inner = value := by
    cases places with
    | nil => exact (Option.some.inj leads).symm
    | cons place rest => rw [at?, leaf, Option.bind_none] at leads; cases leads
  constructor
  · intro places inner leads
    exact only leads ▸ plain
  · rintro places ⟨container, leads, -⟩
    exact noContainer container (only leads).symm

/-- An array is a tree if it is not open and its elements are trees below it. -/
theorem isPlainTree_arr_iff {array : ArrayId} :
    store.IsPlainTree path (.arr array) ↔
      ContainerId.arr array ∉ path ∧
        ∀ value ∈ (store.items array).toList, store.IsPlainTree (.arr array :: path) value := by
  constructor
  · intro tree
    refine ⟨@IsPlainTree.isClosed _ _ (.arr array) tree, fun value listed => ?_⟩
    obtain ⟨index, found⟩ := List.mem_iff_getElem?.mp listed
    exact tree.element (Array.getElem?_toList.symm.trans found)
  · rintro ⟨isClosed, each⟩
    have element {place : Snapshot.Place} {inner : Value}
        (found : store.member? .contents (.arr array) place = some inner) :
        store.IsPlainTree (.arr array :: path) inner := by
      cases place with
      | information => cases found
      | member index => exact each _ (List.mem_of_getElem? (Array.getElem?_toList.trans found))
    constructor
    · intro places inner leads
      cases places with
      | nil =>
          obtain rfl := Option.some.inj leads
          trivial
      | cons place rest =>
          obtain ⟨member, found, leads⟩ := Option.bind_eq_some_iff.mp leads
          exact (element found).plain rest inner leads
    · intro places
      cases places with
      | nil =>
          rw [recursAt_nil_iff]
          rintro ⟨container, stands, listed⟩
          exact isClosed (@ContainerId.value_injective (.arr array) container stands ▸ listed)
      | cons place rest =>
          intro recurs
          have ⟨container, leads, _⟩ := recurs
          obtain ⟨member, found, -⟩ := Option.bind_eq_some_iff.mp leads
          exact (element found).acyclic rest ((recursAt_cons_iff found).mp recurs)

/-! ## Their pictures and their equality -/

/-- The picture of an array that is not open shows its elements, each of them below the array. -/
theorem pictureBelow_arr {array : ArrayId} (isPath : store.IsPath path)
    (isClosed : ContainerId.arr array ∉ path) :
    store.pictureBelow .contents path (.arr array) =
      .arr ((store.items array).toList.map
        (store.pictureBelow .contents (.arr array :: path))) [] := by
  rw [pictureBelow_eq isPath, Value.picture, picturePart_of_isClosed isClosed]
  rfl

theorem IsPath.element {array : ArrayId} (isPath : store.IsPath path)
    (tree : store.IsPlainTree path (.arr array))
    (listed : value ∈ (store.items array).toList) :
    store.IsPath (.arr array :: path) :=
  isPath.cons (@IsPlainTree.isClosed _ _ (.arr array) tree) (index_lt_of_mem_items listed)

/-- A tree of plain data has a plain picture. -/
theorem isPlain_pictureBelow (isPath : store.IsPath path) (tree : store.IsPlainTree path value) :
    (store.pictureBelow .contents path value).IsPlain := by
  induction room : store.containerCount - path.length using Nat.strongRecOn
    generalizing path value with
  | ind room inductive_step =>
      subst room
      have plain := tree.plain [] value rfl
      cases value with
      | null => rw [pictureBelow_eq isPath]; exact .null
      | bool truth => rw [pictureBelow_eq isPath]; exact .bool truth
      | str text => rw [pictureBelow_eq isPath]; exact .str text
      | num number =>
          obtain ⟨whole, isWhole⟩ := plain
          rw [pictureBelow_eq isPath]
          exact .num isWhole
      | arr array =>
          obtain ⟨isClosed, each⟩ := isPlainTree_arr_iff.mp tree
          rw [pictureBelow_arr isPath isClosed]
          refine .arr (List.forall_mem_map.mpr fun value listed => ?_)
          have isPath := isPath.element tree listed
          exact inductive_step _ isPath.room_lt isPath (each value listed) rfl
      | obj | fn | error | errorWith => cases plain

/-- Trees of plain data below some containers, the pictures of which have one text. -/
structure HaveOneText (store : Store) (path path' : List ContainerId) (left right : Value) :
    Prop where
  isPath : store.IsPath path
  isPath' : store.IsPath path'
  tree : store.IsPlainTree path left
  tree' : store.IsPlainTree path' right
  same : (store.pictureBelow .contents path left).literal =
    (store.pictureBelow .contents path' right).literal

theorem HaveOneText.agrees (haveOneText : store.HaveOneText path path' left right) :
    (store.pictureBelow .contents path left).Agrees
      (store.pictureBelow .contents path' right) :=
  (isPlain_pictureBelow haveOneText.isPath haveOneText.tree).agrees
    (isPlain_pictureBelow haveOneText.isPath' haveOneText.tree') haveOneText.same

/-- Arrays with one text have elements with one text each. -/
theorem HaveOneText.elements {array other : ArrayId}
    (haveOneText : store.HaveOneText path path' (.arr array) (.arr other)) :
    List.Forall₂ (store.HaveOneText (.arr array :: path) (.arr other :: path'))
      (store.items array).toList (store.items other).toList := by
  have agrees := haveOneText.agrees
  obtain ⟨isPath, isPath', tree, tree', -⟩ := haveOneText
  obtain ⟨isClosed, each⟩ := isPlainTree_arr_iff.mp tree
  obtain ⟨isClosed', each'⟩ := isPlainTree_arr_iff.mp tree'
  rw [pictureBelow_arr isPath isClosed, pictureBelow_arr isPath' isClosed'] at agrees
  cases agrees with
  | arr same =>
      rw [← List.forall₂_eq_eq_eq, List.forall₂_map_left_iff, List.forall₂_map_left_iff,
        List.forall₂_map_right_iff, List.forall₂_map_right_iff, List.forall₂_iff_zip] at same
      refine List.forall₂_iff_zip.mpr ⟨same.1, fun {first second} place => ?_⟩
      obtain ⟨listed, listed'⟩ := List.of_mem_zip place
      exact ⟨isPath.element tree listed, isPath'.element tree' listed', each first listed,
        each' second listed', same.2 place⟩

theorem isBisimulation_haveOneText :
    store.IsBisimulation fun left right =>
      ∃ path path', store.HaveOneText path path' left right := by
  rintro left right ⟨path, path', haveOneText⟩
  have agrees := haveOneText.agrees
  have looks := looksLike_pictureBelow haveOneText.isPath rfl (haveOneText.tree.acyclic [])
  have looks' := looksLike_pictureBelow haveOneText.isPath' rfl (haveOneText.tree'.acyclic [])
  generalize store.pictureBelow .contents path left = picture at agrees looks
  generalize store.pictureBelow .contents path' right = other at agrees looks'
  cases agrees with
  | null =>
      cases looks
      cases looks'
      exact .null
  | bool truth =>
      cases looks
      cases looks'
      exact .bool truth
  | num isWhole isWhole' =>
      cases looks
      cases looks'
      exact .num ((Double.beq_iff isWhole.1 isWhole'.1).mpr rfl)
  | str text =>
      cases looks
      cases looks'
      exact .str text
  | arr =>
      cases looks
      cases looks'
      exact .arr (.inr (haveOneText.elements.imp fun _ _ related => ⟨_, _, related⟩))

/--
The literal text of a value that is made of null, truth values, whole numbers of
less than sixteen digits, strings and arrays, and that does not contain itself,
belongs to this value only.
-/
theorem equal_of_literal_eq (tree : store.IsPlainTree [] left) (tree' : store.IsPlainTree [] right)
    (same : store.literal left = store.literal right) :
    store.equal left right = true :=
  store.isGreatest_equal.2 isBisimulation_haveOneText left right
    ⟨[], [], .nil, .nil, tree, tree', same⟩

/-- Nested arrays that differ in nothing but the sign of a zero. -/
def signedZeros : Store :=
  let store := (Store.empty.newArray #[.num (Float.ofBits 0), .str "], \"[ "]).1
  let store := (store.newArray #[.num (Float.ofBits 0x8000000000000000), .str "], \"[ "]).1
  let store := (store.newArray #[.arr ⟨0⟩, .null, .arr ⟨0⟩]).1
  (store.newArray #[.arr ⟨1⟩, .null, .arr ⟨0⟩]).1

theorem equal_signedZeros :
    signedZeros.IsPlainTree [] (.arr ⟨2⟩) ∧ signedZeros.IsPlainTree [] (.arr ⟨3⟩) ∧
      signedZeros.literal (.arr ⟨2⟩) = signedZeros.literal (.arr ⟨3⟩) ∧
      signedZeros.equal (.arr ⟨2⟩) (.arr ⟨3⟩) = true := by
  have zero : Number.IsShortWhole (Float.ofBits 0) 0 := ⟨by decide +kernel, by decide⟩
  have zero' : Number.IsShortWhole (Float.ofBits 0x8000000000000000) 0 :=
    ⟨by decide +kernel, by decide⟩
  have same : signedZeros.literal (.arr ⟨2⟩) = signedZeros.literal (.arr ⟨3⟩) := by
    have inner : Snapshot.literal (.arr [.num (Float.ofBits 0), .str "], \"[ "] []) =
        Snapshot.literal (.arr [.num (Float.ofBits 0x8000000000000000), .str "], \"[ "] []) := by
      simp only [Snapshot.literal, Snapshot.literals, Snapshot.display_eq_toString zero,
        Snapshot.display_eq_toString zero']
    show Snapshot.literal (.arr [.arr [.num (Float.ofBits 0), .str "], \"[ "] [], .null, _] []) =
      Snapshot.literal
        (.arr [.arr [.num (Float.ofBits 0x8000000000000000), .str "], \"[ "] [], .null, _] [])
    rw [Snapshot.literal, Snapshot.literal, Snapshot.literals, Snapshot.literals, inner]
    rfl
  have leaf {path : List ContainerId} : ∀ value ∈ [Value.num (Float.ofBits 0),
      .num (Float.ofBits 0x8000000000000000), .null, .str "], \"[ "],
      signedZeros.IsPlainTree path value := by
    simp only [List.forall_mem_cons]
    refine ⟨?_, ?_, ?_, ?_, List.forall_mem_nil _⟩ <;>
      refine isPlainTree_of_leaf ?_ (fun place => by cases place <;> rfl)
        (fun container same => by cases container <;> cases same)
    exacts [⟨0, zero⟩, ⟨0, zero'⟩, trivial, trivial]
  have inner {path : List ContainerId} {index : Nat} (isFirst : index < 2)
      (isClosed : ContainerId.arr ⟨index⟩ ∉ path) :
      signedZeros.IsPlainTree path (.arr ⟨index⟩) := by
    refine isPlainTree_arr_iff.mpr ⟨isClosed, fun value listed => leaf value ?_⟩
    obtain rfl | rfl : index = 0 ∨ index = 1 := by omega
    all_goals
      have listed : value ∈ [_, _] := listed
      simp only [List.mem_cons] at listed ⊢
      tauto
  have outer {index first : Nat} (isOuter : 2 ≤ index) (isFirst : first < 2)
      (holds : (signedZeros.items ⟨index⟩).toList = [.arr ⟨first⟩, .null, .arr ⟨0⟩]) :
      signedZeros.IsPlainTree [] (.arr ⟨index⟩) := by
    refine isPlainTree_arr_iff.mpr ⟨List.not_mem_nil, ?_⟩
    rw [holds]
    simp only [List.forall_mem_cons]
    have apart {other : Nat} (isInner : other < 2) :
        ContainerId.arr ⟨other⟩ ∉ [ContainerId.arr ⟨index⟩] := by
      simp only [List.mem_singleton, ContainerId.arr.injEq, ArrayId.mk.injEq]
      omega
    exact ⟨inner isFirst (apart isFirst), leaf .null (by simp),
      inner (by decide) (apart (by decide)), List.forall_mem_nil _⟩
  have tree := @outer 2 0 (by decide) (by decide) rfl
  have tree' := @outer 3 1 (by decide) (by decide) rfl
  exact ⟨tree, tree', same, equal_of_literal_eq tree tree' same⟩

end Store

end TreeScript
