import TreeScript.Store.Equality
import Mathlib

/-!
# Equality decides bisimilarity

A comparison keeps the pairs of containers that it is inside of, and a pair met
again counts as equal.  Two things have to be said of that.  It ends, because a
pair is opened only if it is not open yet and there are finitely many of them;
and it is right, because values that are equal as long as some pairs count as
equal are related by a relation that takes nothing for granted but these pairs.
At the start no pair is open, so what is left is the greatest bisimulation: the
greatest relation between values under which related values look alike and hold
related values.
-/

namespace TreeScript

/-! ## Numbers -/

namespace Number

open Float.Model

/-- Numbers are equal if they are the same number, or zeros of whatever sign. -/
theorem compare_eq_eq_iff (left right : UnpackedFloat) :
    left.compare right = some .eq ↔
      left = right ∧ left ≠ .notANumber ∨
        ∃ sign other, left = .zero sign ∧ right = .zero other := by
  have same (sign : UnpackedFloat.Sign) : compare sign sign = .eq := by
    cases sign <;> rfl
  rcases left with (_ | _) | _ | (_ | _) | ⟨_ | _, mantissa, exponent, positive⟩ <;>
    rcases right with (_ | _) | _ | (_ | _) | ⟨_ | _, mantissa', exponent', positive'⟩ <;>
      simp [UnpackedFloat.compare, same, Ordering.then_eq_eq, Ordering.swap_eq_eq, and_comm]

theorem beq_eq_true_iff (left right : Float) :
    (left == right) = true ↔
      left.toModel.unpack.compare right.toModel.unpack = some .eq := by
  change (left.toModel.unpack.compare right.toModel.unpack == some .eq) = true ↔ _
  exact beq_iff_eq

theorem beq_symm {left right : Float}
    (same : (left == right) = true) :
    (right == left) = true := by
  rw [beq_eq_true_iff, compare_eq_eq_iff] at same ⊢
  rcases same with ⟨equal, number⟩ | ⟨sign, other, zero, zero'⟩
  · exact .inl ⟨equal.symm, equal ▸ number⟩
  · exact .inr ⟨other, sign, zero', zero⟩

theorem beq_trans {left middle right : Float}
    (first : (left == middle) = true)
    (second : (middle == right) = true) :
    (left == right) = true := by
  rw [beq_eq_true_iff, compare_eq_eq_iff] at first second ⊢
  rcases first with ⟨equal, number⟩ | ⟨sign, other, zero, zero'⟩
  · rw [equal]
    exact second
  · rcases second with ⟨equal, number⟩ | ⟨sign', other', _, zero''⟩
    · exact .inr ⟨sign, other, zero, equal ▸ zero'⟩
    · exact .inr ⟨sign, other', zero, zero''⟩

end Number

/-! ## Bisimulations -/

/-- The left one of two containers, as a value. -/
def ContainerPair.left : ContainerPair → Value
  | .arrays left _ => .arr left
  | .objects left _ => .obj left

/-- The right one of two containers, as a value. -/
def ContainerPair.right : ContainerPair → Value
  | .arrays _ right => .arr right
  | .objects _ right => .obj right

/-- A relation between values, of which one may ask whether it is a bisimulation. -/
abbrev Value.Relation :=
  Value → Value → Prop

/-- The elements of two arrays are related place by place, the entries of two objects by name. -/
def Store.RelatesContents (store : Store) (related : Value.Relation) : ContainerPair → Prop
  | .arrays left right =>
      List.Forall₂ related (store.items left).toList (store.items right).toList
  | .objects left right =>
      ∀ name, Option.Rel related ((store.entries left).find? name)
        ((store.entries right).find? name)

/--
Two values look alike: they are of one type, what they say themselves is equal,
and what they hold is related.
-/
inductive Value.Matches (related : Value.Relation) (contents : ContainerPair → Prop) :
    Value.Relation where
  | null : Matches related contents .null .null
  | bool (truth : Bool) : Matches related contents (.bool truth) (.bool truth)
  | num {left right : Float}
      (same : (left == right) = true) :
      Matches related contents (.num left) (.num right)
  | str (text : String) : Matches related contents (.str text) (.str text)
  | arr {left right : ArrayId}
      (alike : left = right ∨ contents (.arrays left right)) :
      Matches related contents (.arr left) (.arr right)
  | obj {left right : ObjectId}
      (alike : left = right ∨ contents (.objects left right)) :
      Matches related contents (.obj left) (.obj right)
  | fn (function : FunctionId) : Matches related contents (.fn function) (.fn function)
  | error (name : String) : Matches related contents (.error name) (.error name)
  | errorWith (name : String) {information other : Value}
      (informed : related information other) :
      Matches related contents (.errorWith name information) (.errorWith name other)

/-- Related values look alike, where related containers are the same or hold related values. -/
def Store.IsBisimulation (store : Store) (related : Value.Relation) : Prop :=
  ∀ left right, related left right →
    Value.Matches related (store.RelatesContents related) left right

/-- What values hold need be related in another way only where they look alike by it. -/
theorem Value.Matches.imp {related weaker : Value.Relation}
    {contents fewer : ContainerPair → Prop} {left right : Value}
    (informed : ∀ name information other,
      left = .errorWith name information → right = .errorWith name other →
        related information other → weaker information other)
    (held : ∀ pair : ContainerPair,
      left = pair.left → right = pair.right → pair.left ≠ pair.right →
        contents pair → fewer pair)
    (alike : Matches related contents left right) :
    Matches weaker fewer left right := by
  cases alike with
  | null => exact .null
  | bool truth => exact .bool truth
  | num same => exact .num same
  | str text => exact .str text
  | @arr array other alike =>
    refine .arr (or_iff_not_imp_left.2 fun different => ?_)
    exact held (.arrays array other) rfl rfl (by simpa [ContainerPair.left, ContainerPair.right])
      (alike.resolve_left different)
  | @obj object other alike =>
    refine .obj (or_iff_not_imp_left.2 fun different => ?_)
    exact held (.objects object other) rfl rfl (by simpa [ContainerPair.left, ContainerPair.right])
      (alike.resolve_left different)
  | fn function => exact .fn function
  | error name => exact .error name
  | errorWith name alike => exact .errorWith name (informed _ _ _ rfl rfl alike)

theorem Value.Matches.mono {related weaker : Value.Relation}
    {contents fewer : ContainerPair → Prop} {left right : Value}
    (implied : related ≤ weaker)
    (held : ∀ pair, contents pair → fewer pair)
    (alike : Matches related contents left right) :
    Matches weaker fewer left right :=
  alike.imp (fun _ information other _ _ => implied information other)
    fun pair _ _ _ => held pair

/-! ## The contents of two containers -/

theorem exists_mem_of_forall₂ {α β : Type} {related : α → β → Prop} {left : List α}
    {right : List β} {first : α}
    (alike : List.Forall₂ related left right)
    (member : first ∈ left) :
    ∃ other ∈ right, related first other := by
  obtain ⟨place, inside, rfl⟩ := List.mem_iff_getElem.1 member
  have within : place < right.length := alike.length_eq ▸ inside
  exact ⟨right[place], List.getElem_mem within, alike.get inside within⟩

theorem Dict.mem_names_iff {α : Type} (dict : Dict α) (name : String) :
    name ∈ dict.entries.map Prod.fst ↔ (dict.find? name).isSome := by
  rw [Option.isSome_iff_exists]
  constructor
  · intro member
    obtain ⟨⟨_, value⟩, listed, rfl⟩ := List.mem_map.1 member
    exact ⟨value, (dict.mem_entries_iff _ _).1 listed⟩
  · rintro ⟨value, bound⟩
    exact List.mem_map.2 ⟨(name, value), (dict.mem_entries_iff _ _).2 bound, rfl⟩

namespace Store

theorem equalLists_eq_true_iff {α : Type} (equal : α → α → Bool) (left right : List α) :
    equalLists equal left right = true ↔
      List.Forall₂ (fun first other => equal first other = true) left right := by
  induction left generalizing right with
  | nil => cases right <;> simp [equalLists]
  | cons first rest hypothesis => cases right <;> simp [equalLists, hypothesis]

section Entries

variable {α β : Type} {related : α → β → Prop} {left : Dict α} {right : Dict β}

/-- A name that is bound on one side of two lists of entries that agree is bound on the other. -/
theorem exists_find?_of_entries {name : String} {value : α}
    (alike : List.Forall₂ (fun entry other => entry.1 = other.1 ∧ related entry.2 other.2)
      left.entries right.entries)
    (bound : left.find? name = some value) :
    ∃ other, right.find? name = some other ∧ related value other := by
  obtain ⟨⟨_, other⟩, member, rfl, held⟩ :=
    exists_mem_of_forall₂ alike ((left.mem_entries_iff name value).2 bound)
  exact ⟨other, (right.mem_entries_iff _ _).1 member, held⟩

/-- The entries of two dictionaries agree if every name is bound alike. -/
theorem forall₂_entries_iff :
    List.Forall₂ (fun entry other => entry.1 = other.1 ∧ related entry.2 other.2)
        left.entries right.entries ↔
      ∀ name, Option.Rel related (left.find? name) (right.find? name) := by
  constructor
  · intro alike name
    cases bound : left.find? name with
    | some value =>
      obtain ⟨other, bound', held⟩ := exists_find?_of_entries alike bound
      rw [bound']
      exact .some held
    | none =>
      cases bound' : right.find? name with
      | none => exact .none
      | some other =>
        have flipped := (alike.imp fun entry other ⟨same, held⟩ =>
          (⟨same.symm, held⟩ : other.1 = entry.1 ∧ flip related other.2 entry.2)).flip
        obtain ⟨value, missing, _⟩ := exists_find?_of_entries flipped bound'
        rw [bound] at missing
        cases missing
  · intro alike
    have names : left.entries.map Prod.fst = right.entries.map Prod.fst := by
      refine List.Pairwise.eq_of_mem_iff (r := (· < ·)) ?_ ?_ fun name => ?_
      · exact List.pairwise_map.2 left.sorted_entries
      · exact List.pairwise_map.2 right.sorted_entries
      · have bound := alike name
        rw [left.mem_names_iff, right.mem_names_iff]
        generalize left.find? name = value at bound ⊢
        generalize right.find? name = other at bound ⊢
        cases bound with
        | some held => exact Iff.rfl
        | none => exact Iff.rfl
    have named : List.Forall₂ (fun entry other => entry.1 = other.1)
        left.entries right.entries := by
      rw [← List.forall₂_map_right_iff, ← List.forall₂_map_left_iff]
      rw [List.forall₂_eq_eq_eq, names]
    rw [List.forall₂_iff_zip]
    refine ⟨named.length_eq, fun {entry other} place => ?_⟩
    obtain ⟨name, value⟩ := entry
    obtain ⟨_, value'⟩ := other
    obtain rfl := List.forall₂_zip named place
    obtain ⟨member, member'⟩ := List.of_mem_zip place
    have held := alike name
    rw [(left.mem_entries_iff _ _).1 member, (right.mem_entries_iff _ _).1 member'] at held
    exact ⟨rfl, Option.rel_some_some.1 held⟩

end Entries

/-- Whether the contents of two containers are equal, as a relation of what they hold. -/
theorem equalContents_eq_true_iff (store : Store) (equal : Value → Value → Bool)
    (pair : ContainerPair) :
    store.equalContents equal pair = true ↔
      store.RelatesContents (fun left right => equal left right = true) pair := by
  cases pair with
  | arrays left right =>
    simp only [equalContents, RelatesContents, Bool.and_eq_true, beq_iff_eq,
      equalLists_eq_true_iff, ← Array.length_toList]
    exact and_iff_right_of_imp List.Forall₂.length_eq
  | objects left right =>
    simp only [equalContents, RelatesContents, Bool.and_eq_true, beq_iff_eq,
      equalLists_eq_true_iff, ← Dict.length_entries, ← forall₂_entries_iff]
    exact and_iff_right_of_imp List.Forall₂.length_eq

end Store

/-- Whether two values are equal, as a relation of their data and of what they hold. -/
theorem Value.equals_eq_true_iff (contents : ContainerPair → Bool) (left right : Value) :
    Value.equals contents left right = true ↔
      Value.Matches (fun left right => Value.equals contents left right = true)
        (fun pair => contents pair = true) left right := by
  constructor
  · intro same
    fun_cases Value.equals contents left right with
    | case1 => exact .null
    | case2 truth other => exact eq_of_beq same ▸ .bool truth
    | case3 number other => exact .num same
    | case4 text other => exact eq_of_beq same ▸ .str text
    | case5 array other => exact .arr (by simpa [Value.equals] using same)
    | case6 object other => exact .obj (by simpa [Value.equals] using same)
    | case7 function other => exact eq_of_beq same ▸ .fn function
    | case8 name other => exact eq_of_beq same ▸ .error name
    | case9 name information name' other =>
      obtain ⟨named, informed⟩ := Bool.and_eq_true_iff.1 same
      exact eq_of_beq named ▸ .errorWith name informed
    | case10 => simp_all [Value.equals]
  · intro alike
    cases alike with
    | num same => exact same
    | arr alike => simpa [Value.equals] using alike
    | obj alike => simpa [Value.equals] using alike
    | errorWith name informed => simpa [Value.equals] using informed
    | _ => simp [Value.equals]

/-! ## The comparison as a recursion -/

/-- A call of the comparison: the pairs that it is inside of, and the two values. -/
structure EqualityCall where
  opened : List ContainerPair
  left : Value
  right : Value

namespace Store

/-- Two values that two containers hold in one place or by one name. -/
inductive Holds (store : Store) : ContainerPair → Value → Value → Prop where
  | element {array other : ArrayId} {left right : Value}
      (place : (left, right) ∈ (store.items array).toList.zip (store.items other).toList) :
      Holds store (.arrays array other) left right
  | entry {object other : ObjectId} {name : String} {left right : Value}
      (bound : (store.entries object).find? name = some left)
      (bound' : (store.entries other).find? name = some right) :
      Holds store (.objects object other) left right

/--
The calls that a call makes: for the information of two error values, and for
what two containers hold that are neither the same nor being compared.
-/
inductive Calls (store : Store) : EqualityCall → EqualityCall → Prop where
  | information (opened : List ContainerPair) (name other : String) (left right : Value) :
      Calls store ⟨opened, left, right⟩
        ⟨opened, .errorWith name left, .errorWith other right⟩
  | contents {opened : List ContainerPair} {pair : ContainerPair} {left right : Value}
      (different : pair.left ≠ pair.right)
      (closed : pair ∉ opened)
      (held : store.Holds pair left right) :
      Calls store ⟨pair :: opened, left, right⟩ ⟨opened, pair.left, pair.right⟩

/--
A comparison by the recursion alone: a call compares two values, where a pair
that is open counts as equal and any other one is opened.
-/
def Compares (store : Store) (compare : List ContainerPair → Value → Value → Bool) : Prop :=
  ∀ opened left right,
    compare opened left right =
      Value.equals (fun pair =>
        opened.contains pair || store.equalContents (compare (pair :: opened)) pair)
        left right

/-! ### Termination -/

/-- All pairs of containers of one kind. -/
def pairs (store : Store) : Finset ContainerPair :=
  (Finset.range store.arrays.size ×ˢ Finset.range store.arrays.size).image
      (fun place => .arrays ⟨place.1⟩ ⟨place.2⟩) ∪
    (Finset.range store.objects.size ×ˢ Finset.range store.objects.size).image
      (fun place => .objects ⟨place.1⟩ ⟨place.2⟩)

theorem card_pairs (store : Store) : store.pairs.card = store.pairCount := by
  rw [pairs, Finset.card_union_of_disjoint, Finset.card_image_of_injective,
    Finset.card_image_of_injective]
  · simp [pairCount]
  · rintro ⟨left, right⟩ ⟨left', right'⟩ same
    simpa using same
  · rintro ⟨left, right⟩ ⟨left', right'⟩ same
    simpa using same
  · rw [Finset.disjoint_left]
    intro pair array object
    obtain ⟨_, _, rfl⟩ := Finset.mem_image.1 array
    simp at object

theorem index_lt_of_mem_items {store : Store} {array : ArrayId} {value : Value}
    (member : value ∈ (store.items array).toList) :
    array.index < store.arrays.size := by
  by_contra outside
  rw [items, Array.getElem?_eq_none (Nat.le_of_not_lt outside)] at member
  cases member

theorem index_lt_of_find?_entries {store : Store} {object : ObjectId} {name : String}
    {value : Value}
    (bound : (store.entries object).find? name = some value) :
    object.index < store.objects.size := by
  by_contra outside
  rw [entries, Array.getElem?_eq_none (Nat.le_of_not_lt outside)] at bound
  simp at bound

/-- Only containers of the store hold anything. -/
theorem Holds.mem_pairs {store : Store} {pair : ContainerPair} {left right : Value}
    (held : store.Holds pair left right) :
    pair ∈ store.pairs := by
  cases held with
  | @element array other left right place =>
    obtain ⟨member, member'⟩ := List.of_mem_zip place
    refine Finset.mem_union_left _ (Finset.mem_image.2 ⟨(array.index, other.index), ?_, rfl⟩)
    simpa using ⟨index_lt_of_mem_items member, index_lt_of_mem_items member'⟩
  | @entry object other name left right bound bound' =>
    refine Finset.mem_union_right _ (Finset.mem_image.2 ⟨(object.index, other.index), ?_, rfl⟩)
    simpa using ⟨index_lt_of_find?_entries bound, index_lt_of_find?_entries bound'⟩

/-- The number of pairs that can still be opened. -/
def room (store : Store) (opened : List ContainerPair) : Nat :=
  (store.pairs \ opened.toFinset).card

/-- Opening a pair takes it from those that can still be opened. -/
theorem room_cons {store : Store} {opened : List ContainerPair} {pair : ContainerPair}
    (member : pair ∈ store.pairs)
    (closed : pair ∉ opened) :
    store.room (pair :: opened) + 1 = store.room opened := by
  have remaining : store.pairs \ (pair :: opened).toFinset =
      (store.pairs \ opened.toFinset).erase pair := by
    rw [List.toFinset_cons, Finset.sdiff_insert]
  rw [room, remaining]
  exact Finset.card_erase_add_one (by simpa using ⟨member, closed⟩)

/-- No chain of calls goes on for ever: each opens a new pair or goes into an error value. -/
theorem wellFounded_calls (store : Store) : WellFounded store.Calls := by
  let measure (call : EqualityCall) : Nat × Nat := (store.room call.opened, sizeOf call.left)
  have decreasing : Subrelation store.Calls
      (InvImage (Prod.Lex (· < ·) (· < ·)) measure) := by
    intro inner outer called
    cases called with
    | information opened name other left right =>
      refine Prod.Lex.right _ ?_
      simp only [Value.errorWith.sizeOf_spec]
      omega
    | contents different closed held =>
      have opening := room_cons held.mem_pairs closed
      exact Prod.Lex.left _ _ (Nat.lt_of_succ_le opening.le)
  exact decreasing.wf (InvImage.wf measure (Nat.lt_wfRel.wf.prod_lex Nat.lt_wfRel.wf))

/-! ### What a call compares -/

/-- The contents of two containers depend on a relation only where they hold values. -/
theorem RelatesContents.imp {store : Store} {related weaker : Value.Relation}
    {pair : ContainerPair}
    (implied : ∀ left right, store.Holds pair left right → related left right →
      weaker left right)
    (contents : store.RelatesContents related pair) :
    store.RelatesContents weaker pair := by
  cases pair with
  | arrays left right =>
    obtain ⟨lengths, elements⟩ := List.forall₂_iff_zip.1 contents
    exact List.forall₂_iff_zip.2 ⟨lengths, fun place =>
      implied _ _ (.element place) (elements place)⟩
  | objects left right =>
    intro name
    have held := contents name
    cases bound : (store.entries left).find? name with
    | none =>
      cases bound' : (store.entries right).find? name with
      | none => exact .none
      | some other => simp [bound, bound'] at held
    | some value =>
      cases bound' : (store.entries right).find? name with
      | none => simp [bound, bound'] at held
      | some other =>
        rw [bound, bound', Option.rel_some_some] at held
        exact .some (implied _ _ (.entry bound bound') held)

theorem equalWithin_succ (store : Store) (budget : Nat) (assumed : List ContainerPair) :
    store.equalWithin (budget + 1) assumed =
      Value.equals fun pair =>
        assumed.contains pair
          || store.equalContents (store.equalWithin budget (pair :: assumed)) pair :=
  rfl

/-- The comparison with as many openings as there are pairs left satisfies the recursion. -/
theorem compares_equalWithin (store : Store) :
    store.Compares fun opened => store.equalWithin (store.room opened + 1) opened := by
  intro opened left right
  beta_reduce
  rw [equalWithin_succ]
  congr 1
  funext pair
  by_cases member : pair ∈ opened
  · simp [member]
  · by_cases inside : pair ∈ store.pairs
    · rw [room_cons inside member]
    · congr 1
      rw [Bool.eq_iff_iff, equalContents_eq_true_iff, equalContents_eq_true_iff]
      constructor <;> exact RelatesContents.imp fun _ _ held => absurd held.mem_pairs inside

theorem equal_eq_equalWithin (store : Store) :
    store.equal = store.equalWithin (store.room [] + 1) [] := by
  funext left right
  rw [equal, room, List.toFinset_nil, Finset.sdiff_empty, card_pairs]

/-! ## Relations that take open pairs for granted -/

/-- One look at two values, where the pairs that are open are taken for granted. -/
def matching (store : Store) (opened : List ContainerPair) : Value.Relation →o Value.Relation where
  toFun related :=
    Value.Matches related fun pair => pair ∈ opened ∨ store.RelatesContents related pair
  monotone' := by
    intro related weaker implied left right alike
    exact alike.mono implied fun pair =>
      Or.imp_right (RelatesContents.imp fun left right _ => implied left right)

/-- Two values are similar if they look alike for ever, up to the pairs that are open. -/
def Similar (store : Store) (opened : List ContainerPair) : Value.Relation :=
  (store.matching opened).gfp

theorem similar_iff (store : Store) (opened : List ContainerPair) (left right : Value) :
    store.Similar opened left right ↔
      Value.Matches (store.Similar opened)
        (fun pair => pair ∈ opened ∨ store.RelatesContents (store.Similar opened) pair)
        left right := by
  have fixed : store.matching opened (store.Similar opened) = store.Similar opened :=
    (store.matching opened).map_gfp
  exact iff_of_eq (congrFun (congrFun fixed.symm left) right)

/-- A pair whose contents are similar need not be taken for granted. -/
theorem Similar.close {store : Store} {opened : List ContainerPair} {pair : ContainerPair}
    (contents : store.RelatesContents (store.Similar (pair :: opened)) pair) :
    store.Similar (pair :: opened) ≤ store.Similar opened := by
  refine (store.matching opened).le_gfp fun left right similar => ?_
  refine ((store.similar_iff _ _ _).1 similar).mono le_rfl fun other found => ?_
  rcases found with member | found
  · rcases List.mem_cons.1 member with rfl | member
    · exact .inr contents
    · exact .inl member
  · exact .inr found

/-- Nothing is lost by taking more for granted. -/
theorem Similar.weaken {store : Store} {opened : List ContainerPair} (pair : ContainerPair) :
    store.Similar opened ≤ store.Similar (pair :: opened) := by
  refine (store.matching (pair :: opened)).le_gfp fun left right similar => ?_
  exact ((store.similar_iff _ _ _).1 similar).mono le_rfl fun other =>
    Or.imp_left (List.mem_cons_of_mem pair)

section Recursion

variable {store : Store} {compare : List ContainerPair → Value → Value → Bool}

/-- Values that a call finds equal are similar up to the pairs that the call is inside of. -/
theorem Compares.similar
    (recursion : store.Compares compare)
    (call : EqualityCall)
    (same : compare call.opened call.left call.right = true) :
    store.Similar call.opened call.left call.right := by
  induction call using store.wellFounded_calls.induction with
  | _ call hypothesis =>
    obtain ⟨opened, left, right⟩ := call
    rw [recursion, Value.equals_eq_true_iff] at same
    rw [similar_iff]
    refine same.imp ?_ ?_
    · rintro name information other rfl rfl informed
      rw [← recursion] at informed
      exact hypothesis _ (.information opened name name information other) informed
    · rintro pair rfl rfl different found
      by_cases closed : pair ∈ opened
      · exact .inl closed
      simp only [closed, List.contains_eq_mem, decide_false, Bool.false_or,
        equalContents_eq_true_iff] at found
      have similar : store.RelatesContents (store.Similar (pair :: opened)) pair :=
        found.imp fun left right held => hypothesis _ (.contents different closed held)
      exact .inr (similar.imp fun left right _ => Similar.close similar left right)

/-- Values that are similar up to the pairs that a call is inside of are found equal by it. -/
theorem Compares.of_similar
    (recursion : store.Compares compare)
    (call : EqualityCall)
    (similar : store.Similar call.opened call.left call.right) :
    compare call.opened call.left call.right = true := by
  induction call using store.wellFounded_calls.induction with
  | _ call hypothesis =>
    obtain ⟨opened, left, right⟩ := call
    rw [recursion, Value.equals_eq_true_iff]
    refine ((store.similar_iff _ _ _).1 similar).imp ?_ ?_
    · rintro name information other rfl rfl informed
      rw [← recursion]
      exact hypothesis _ (.information opened name name information other) informed
    · rintro pair rfl rfl different found
      by_cases closed : pair ∈ opened
      · simp [closed]
      simp only [closed, List.contains_eq_mem, decide_false, Bool.false_or,
        equalContents_eq_true_iff]
      exact (found.resolve_left closed).imp fun left right held similar =>
        hypothesis _ (.contents different closed held) (Similar.weaken pair left right similar)

theorem Compares.eq_true_iff
    (recursion : store.Compares compare)
    (opened : List ContainerPair)
    (left right : Value) :
    compare opened left right = true ↔ store.Similar opened left right :=
  ⟨recursion.similar ⟨opened, left, right⟩, recursion.of_similar ⟨opened, left, right⟩⟩

/-- The recursion has one solution only. -/
theorem Compares.unique {other : List ContainerPair → Value → Value → Bool}
    (recursion : store.Compares compare)
    (recursion' : store.Compares other) :
    compare = other := by
  funext opened left right
  rw [Bool.eq_iff_iff, recursion.eq_true_iff, recursion'.eq_true_iff]

end Recursion

/-! ## Converse and composition -/

theorem optionRel_flip {related : Value.Relation} {left right : Option Value}
    (held : Option.Rel related left right) :
    Option.Rel (flip related) right left := by
  cases held with
  | some held => exact .some held
  | none => exact .none

theorem optionRel_comp {related : Value.Relation} {left middle right : Option Value}
    (first : Option.Rel related left middle)
    (second : Option.Rel related middle right) :
    Option.Rel (Relation.Comp related related) left right := by
  cases first with
  | some first =>
    cases second with
    | some second => exact .some ⟨_, first, second⟩
  | none =>
    cases second with
    | none => exact .none

theorem forall₂_comp {related : Value.Relation} {left middle right : List Value}
    (first : List.Forall₂ related left middle)
    (second : List.Forall₂ related middle right) :
    List.Forall₂ (Relation.Comp related related) left right := by
  induction first generalizing right with
  | nil =>
    cases second with
    | nil => exact .nil
  | cons held _ hypothesis =>
    cases second with
    | cons held' others => exact .cons ⟨_, held, held'⟩ (hypothesis others)

namespace IsBisimulation

variable {store : Store} {related : Value.Relation}

theorem converse
    (bisimulation : store.IsBisimulation related) :
    store.IsBisimulation (flip related) := by
  intro right left held
  cases bisimulation left right held with
  | null => exact .null
  | bool truth => exact .bool truth
  | num same => exact .num (Number.beq_symm same)
  | str text => exact .str text
  | arr alike =>
    refine .arr (alike.imp Eq.symm fun elements => ?_)
    exact (show List.Forall₂ (flip (flip related)) _ _ from elements).flip
  | obj alike =>
    exact .obj (alike.imp Eq.symm fun entries name => optionRel_flip (entries name))
  | fn function => exact .fn function
  | error name => exact .error name
  | errorWith name informed => exact .errorWith name informed

/-- Identical containers are related to others by one of the two steps alone. -/
theorem composition
    (bisimulation : store.IsBisimulation related) :
    store.IsBisimulation (related ⊔ Relation.Comp related related) := by
  have weaker : related ≤ related ⊔ Relation.Comp related related := le_sup_left
  have composed : Relation.Comp related related ≤ related ⊔ Relation.Comp related related :=
    le_sup_right
  have direct {pair : ContainerPair} :
      store.RelatesContents related pair →
        store.RelatesContents (related ⊔ Relation.Comp related related) pair :=
    RelatesContents.imp fun left right _ => weaker left right
  rintro left right (held | ⟨middle, first, second⟩)
  · exact (bisimulation left right held).mono weaker fun pair => direct
  cases bisimulation left middle first with
  | null =>
    cases bisimulation _ right second with
    | null => exact .null
  | bool truth =>
    cases bisimulation _ right second with
    | bool => exact .bool truth
  | num same =>
    cases bisimulation _ right second with
    | num same' => exact .num (Number.beq_trans same same')
  | str text =>
    cases bisimulation _ right second with
    | str => exact .str text
  | arr alike =>
    cases bisimulation _ right second with
    | arr alike' =>
      rcases alike with rfl | elements
      · exact .arr (alike'.imp_right direct)
      rcases alike' with rfl | elements'
      · exact .arr (.inr (direct elements))
      exact .arr (.inr ((forall₂_comp elements elements').imp composed))
  | obj alike =>
    cases bisimulation _ right second with
    | obj alike' =>
      rcases alike with rfl | entries
      · exact .obj (alike'.imp_right direct)
      rcases alike' with rfl | entries'
      · exact .obj (.inr (direct entries))
      exact .obj (.inr (RelatesContents.imp (fun left right _ => composed left right)
        fun name => optionRel_comp (entries name) (entries' name)))
  | fn function =>
    cases bisimulation _ right second with
    | fn => exact .fn function
  | error name =>
    cases bisimulation _ right second with
    | error => exact .error name
  | errorWith name informed =>
    cases bisimulation _ right second with
    | errorWith _ informed' => exact .errorWith name (.inr ⟨_, informed, informed'⟩)

end IsBisimulation

/-! ## Equality -/

theorem isBisimulation_iff (store : Store) (related : Value.Relation) :
    store.IsBisimulation related ↔ related ≤ store.matching [] related := by
  have alike (left right : Value) :
      store.matching [] related left right ↔
        Value.Matches related (store.RelatesContents related) left right :=
    ⟨Value.Matches.mono le_rfl fun pair found => found.resolve_left List.not_mem_nil,
      Value.Matches.mono le_rfl fun pair => .inr⟩
  exact forall₂_congr fun left right => imp_congr_right fun _ => (alike left right).symm

/-- Equality is the greatest bisimulation. -/
theorem isGreatest_equal (store : Store) :
    IsGreatest {related | store.IsBisimulation related}
      (fun left right => store.equal left right = true) := by
  have similar : (fun left right => store.equal left right = true) = store.Similar [] := by
    funext left right
    rw [equal_eq_equalWithin, store.compares_equalWithin.eq_true_iff]
  have bisimulations : {related | store.IsBisimulation related} =
      {related | related ≤ store.matching [] related} :=
    Set.ext store.isBisimulation_iff
  rw [similar, bisimulations]
  exact (store.matching []).isGreatest_gfp_le

theorem equal_symm {store : Store} {left right : Value}
    (same : store.equal left right = true) :
    store.equal right left = true :=
  store.isGreatest_equal.2 store.isGreatest_equal.1.converse _ _ same

theorem equal_trans {store : Store} {left middle right : Value}
    (first : store.equal left middle = true)
    (second : store.equal middle right = true) :
    store.equal left right = true :=
  store.isGreatest_equal.2 store.isGreatest_equal.1.composition _ _
    (.inr ⟨middle, first, second⟩)

/--
Equality of values decides bisimilarity.  No chain of calls of the comparison is
infinite, so that its recursion has one solution; what that answers when no pair
is open is whether two values are equal; and this is the greatest bisimulation,
which is symmetric and transitive.
-/
theorem equal_decides_bisimilarity (store : Store) :
    WellFounded store.Calls ∧
      (∃ compare, store.Compares compare ∧ compare [] = store.equal ∧
        ∀ other, store.Compares other → other = compare) ∧
      IsGreatest {related | store.IsBisimulation related}
        (fun left right => store.equal left right = true) ∧
      (∀ left right, store.equal left right = true → store.equal right left = true) ∧
      ∀ left middle right, store.equal left middle = true → store.equal middle right = true →
        store.equal left right = true := by
  refine ⟨store.wellFounded_calls, ⟨_, store.compares_equalWithin, ?_, ?_⟩,
    store.isGreatest_equal, ?_, ?_⟩
  · exact store.equal_eq_equalWithin.symm
  · intro other recursion
    exact recursion.unique store.compares_equalWithin
  · intro left right
    exact equal_symm
  · intro left middle right
    exact equal_trans

end Store

end TreeScript
