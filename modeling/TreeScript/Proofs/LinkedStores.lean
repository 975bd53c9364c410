import TreeScript.Proofs.Links
import TreeScript.Store.Binding

/-!
# Linked stores

Two stores are linked if what linked handles stand for is linked again.  Every
operation on linked handles keeps stores linked.  A new handle may be linked to
a new one: `Link.Extends` says that a link has been extended by handles that
neither store has given out, so that everything linked before is still linked.
-/

namespace TreeScript

/-! ## Parts of stores -/

/-- Arrays of linked elements, without attributes. -/
structure ArrayCell.Linked (link : Link) (cell other : ArrayCell) : Prop where
  items : List.Forall₂ (Value.Linked link) cell.items.toList other.items.toList
  bare : cell.attributes = [] ∧ other.attributes = []

/-- Objects of linked entries, without attributes. -/
structure ObjectCell.Linked (link : Link) (cell other : ObjectCell) : Prop where
  entries (name : String) :
    Option.Rel (Value.Linked link) (cell.entries.find? name) (other.entries.find? name)
  bare : cell.attributes = [] ∧ other.attributes = []

/-- Functions of one name that do linked things, without attributes. -/
structure Function.Linked (names : String → Bool) (link : Link) (function other : Function) :
    Prop where
  name : function.name = other.name
  body : function.body.Linked names link other.body
  bare : function.attributes = [] ∧ other.attributes = []

section

variable {names : String → Bool} {link wider : Link} (within : link ≤ wider)

include within

theorem ArrayCell.Linked.mono {cell other : ArrayCell} (linked : cell.Linked link other) :
    cell.Linked wider other where
  items := linked.items.imp fun _ _ given => given.mono within
  bare := linked.bare

theorem ObjectCell.Linked.mono {cell other : ObjectCell} (linked : cell.Linked link other) :
    cell.Linked wider other where
  entries name := optionRel_imp (fun _ _ given => given.mono within) (linked.entries name)
  bare := linked.bare

theorem Function.Linked.mono {function other : Function}
    (linked : function.Linked names link other) :
    function.Linked names wider other where
  name := linked.name
  body := linked.body.mono within
  bare := linked.bare

end

section Places

variable {α β : Type} {related : α → β → Prop}

/-- Two places are changed alike, or both of them are not the ones that are changed. -/
theorem optionRel_modify {cells : Array α} {others : Array β} {index place : Nat}
    {other place' : Nat}
    (held : Option.Rel related cells[place]? others[place']?)
    (same : index = place ↔ other = place')
    {change : α → α} {change' : β → β}
    (keeps : ∀ cell cell', related cell cell' → related (change cell) (change' cell')) :
    Option.Rel related (cells.modify index change)[place]?
      (others.modify other change')[place']? := by
  rw [Array.getElem?_modify, Array.getElem?_modify]
  by_cases here : index = place
  · rw [if_pos here, if_pos (same.mp here)]
    exact optionRel_map keeps held
  · rw [if_neg here, if_neg fun there => here (same.mpr there)]
    exact held

/-- Two places are both the new ones, or both of them are not. -/
theorem optionRel_push {cells : Array α} {others : Array β} {place place' : Nat}
    (held : Option.Rel related cells[place]? others[place']?)
    (same : place = cells.size ↔ place' = others.size)
    {cell : α} {other : β} (given : related cell other) :
    Option.Rel related (cells.push cell)[place]? (others.push other)[place']? := by
  rw [Array.getElem?_push, Array.getElem?_push]
  by_cases here : place = cells.size
  · rw [if_pos here, if_pos (same.mp here)]
    exact .some given
  · rw [if_neg here, if_neg fun there => here (same.mpr there)]
    exact held

theorem optionRel_getElem? {values : List α} {others : List β}
    (each : List.Forall₂ related values others) (place : Nat) :
    Option.Rel related values[place]? others[place]? := by
  induction each generalizing place with
  | nil => exact .none
  | cons first _ inductive_step =>
      cases place with
      | zero => exact .some first
      | succ place => exact inductive_step place

theorem forall₂_tail {values : List α} {others : List β}
    (each : List.Forall₂ related values others) :
    List.Forall₂ related values.tail others.tail := by
  cases each with
  | nil => exact .nil
  | cons _ rest => exact rest

theorem forall₂_set {values : List α} {others : List β}
    (each : List.Forall₂ related values others) (place : Nat) {value : α} {other : β}
    (given : related value other) :
    List.Forall₂ related (values.set place value) (others.set place other) := by
  induction each generalizing place with
  | nil => exact .nil
  | cons first rest inductive_step =>
      cases place with
      | zero => exact .cons given rest
      | succ place => exact .cons first (inductive_step place)

theorem optionRel_empty (name : String) :
    Option.Rel related ((Dict.empty : Dict α).find? name) ((Dict.empty : Dict β).find? name) := by
  rw [Dict.find?_empty, Dict.find?_empty]
  exact .none

theorem optionRel_insert {dict : Dict α} {other : Dict β} {looked : String}
    (held : Option.Rel related (dict.find? looked) (other.find? looked))
    (name : String) {value : α} {value' : β} (given : related value value') :
    Option.Rel related ((dict.insert name value).find? looked)
      ((other.insert name value').find? looked) := by
  by_cases here : looked = name
  · subst here
    rw [Dict.find?_insert_self, Dict.find?_insert_self]
    exact .some given
  · rw [Dict.find?_insert_of_ne _ _ here, Dict.find?_insert_of_ne _ _ here]
    exact held

theorem optionRel_foldl {entries : List (String × α)} {others : List (String × β)}
    (each : List.Forall₂ (Named related) entries others)
    {dict : Dict α} {other : Dict β} {name : String}
    (held : Option.Rel related (dict.find? name) (other.find? name)) :
    Option.Rel related
      ((entries.foldl (fun dict entry => dict.insert entry.1 entry.2) dict).find? name)
      ((others.foldl (fun dict entry => dict.insert entry.1 entry.2) other).find? name) := by
  induction each generalizing dict other with
  | nil => exact held
  | cons first _ inductive_step =>
      cases first with
      | mk bound contents => exact inductive_step (optionRel_insert held bound contents)

theorem optionRel_ofList {entries : List (String × α)} {others : List (String × β)}
    (each : List.Forall₂ (Named related) entries others) (name : String) :
    Option.Rel related ((Dict.ofList entries).find? name) ((Dict.ofList others).find? name) :=
  optionRel_foldl each (optionRel_empty name)

end Places

/-! ## Stores -/

/-- Two stores in which linked handles stand for linked things. -/
structure Store.Linked (names : String → Bool) (link : Link) (store other : Store) : Prop where
  matching : link.IsMatching
  arrays {index index' : Nat} :
    link .array index index' →
      Option.Rel (ArrayCell.Linked link) store.arrays[index]? other.arrays[index']?
  objects {index index' : Nat} :
    link .object index index' →
      Option.Rel (ObjectCell.Linked link) store.objects[index]? other.objects[index']?
  functions {index index' : Nat} :
    link .function index index' →
      Option.Rel (Function.Linked names link) store.functions[index]? other.functions[index']?
  layers {index index' : Nat} :
    link .layer index index' →
      Option.Rel (Bindings.Linked names link) store.layers[index]? other.layers[index']?

/-- The number of handles of a kind that a store has given out. -/
def Store.size (store : Store) : HandleKind → Nat
  | .array => store.arrays.size
  | .object => store.objects.size
  | .function => store.functions.size
  | .layer => store.layers.size

namespace Store

variable (store : Store)

@[simp]
theorem size_modifyItems (array : ArrayId) (change : Array Value → Array Value)
    (kind : HandleKind) : (store.modifyItems array change).size kind = store.size kind := by
  cases kind <;> simp [size, modifyItems]

@[simp]
theorem size_setEntry (object : ObjectId) (name : String) (value : Value) (kind : HandleKind) :
    (store.setEntry object name value).size kind = store.size kind := by
  cases kind <;> simp [size, setEntry]

@[simp]
theorem size_nameFunction (function : FunctionId) (name : String) (kind : HandleKind) :
    (store.nameFunction function name).size kind = store.size kind := by
  cases kind <;> simp [size, nameFunction]

@[simp]
theorem size_modifyLayer (layer : LayerId) (change : Dict Variable → Dict Variable)
    (kind : HandleKind) : (store.modifyLayer layer change).size kind = store.size kind := by
  cases kind <;> simp [size, modifyLayer]

end Store

/-- A store after another one, with one more handle of a kind. -/
structure Store.Gives (kind : HandleKind) (store after : Store) : Prop where
  grows (other : HandleKind) : store.size other ≤ after.size other
  more : store.size kind < after.size kind

namespace Store

variable (store : Store)

theorem gives_newArray (items : Array Value) :
    Gives .array store (store.newArray items).1 where
  grows kind := by cases kind <;> simp [size, newArray]
  more := by simp [size, newArray]

theorem gives_newObject (entries : Dict Value) :
    Gives .object store (store.newObject entries).1 where
  grows kind := by cases kind <;> simp [size, newObject]
  more := by simp [size, newObject]

theorem gives_newFunction (name : Option String) (body : Body) :
    Gives .function store (store.newFunction name body).1 where
  grows kind := by cases kind <;> simp [size, newFunction]
  more := by simp [size, newFunction]

theorem gives_newLayer (bindings : Dict Variable) :
    Gives .layer store (store.newLayer bindings).1 where
  grows kind := by cases kind <;> simp [size, newLayer]
  more := by simp [size, newLayer]

end Store

namespace Link

/-- A link of handles that two stores have given out. -/
def Inside (link : Link) (store other : Store) : Prop :=
  ∀ kind index index', link kind index index' →
    index < store.size kind ∧ index' < other.size kind

/-- A link with one more pair of handles. -/
def add (link : Link) (kind : HandleKind) (index index' : Nat) : Link :=
  fun other place place' =>
    link other place place' ∨ (other = kind ∧ place = index ∧ place' = index')

/-- A link that is extended by handles that two stores have not given out. -/
structure Extends (link : Link) (store other : Store) (wider : Link) : Prop where
  within : link ≤ wider
  fresh {kind : HandleKind} {index index' : Nat} :
    wider kind index index' →
      link kind index index' ∨ (store.size kind ≤ index ∧ other.size kind ≤ index')
  matching : wider.IsMatching

variable {names : String → Bool} {link wider widest : Link} {store other between between' : Store}

theorem Inside.mono (inside : link.Inside store other)
    (grows : ∀ kind, store.size kind ≤ between.size kind)
    (grows' : ∀ kind, other.size kind ≤ between'.size kind) :
    link.Inside between between' :=
  fun kind index index' pair =>
    ⟨Nat.lt_of_lt_of_le (inside kind index index' pair).1 (grows kind),
      Nat.lt_of_lt_of_le (inside kind index index' pair).2 (grows' kind)⟩

/-- A pair of new handles has been given out after that. -/
theorem Inside.add (inside : link.Inside store other) {kind : HandleKind}
    (gives : Store.Gives kind store between) (gives' : Store.Gives kind other between') :
    (link.add kind (store.size kind) (other.size kind)).Inside between between' := by
  rintro of index index' (earlier | ⟨rfl, rfl, rfl⟩)
  · exact inside.mono gives.grows gives'.grows of index index' earlier
  · exact ⟨gives.more, gives'.more⟩

theorem extends_refl (matching : link.IsMatching) (store other : Store) :
    link.Extends store other link where
  within := le_refl link
  fresh := .inl
  matching := matching

theorem Extends.trans (first : link.Extends store other wider)
    (grows : ∀ kind, store.size kind ≤ between.size kind)
    (grows' : ∀ kind, other.size kind ≤ between'.size kind)
    (second : wider.Extends between between' widest) :
    link.Extends store other widest where
  within := le_trans first.within second.within
  fresh {kind index index'} pair := by
    rcases second.fresh pair with earlier | ⟨above, above'⟩
    · exact first.fresh earlier
    · exact .inr ⟨Nat.le_trans (grows kind) above, Nat.le_trans (grows' kind) above'⟩
  matching := second.matching

/-- The next handles of a kind may be linked. -/
theorem extends_add (matching : link.IsMatching) (inside : link.Inside store other)
    (kind : HandleKind) :
    link.Extends store other (link.add kind (store.size kind) (other.size kind)) where
  within _ _ _ pair := .inl pair
  fresh {other index index'} pair := by
    rcases pair with earlier | ⟨rfl, rfl, rfl⟩
    · exact .inl earlier
    · exact .inr ⟨Nat.le_refl _, Nat.le_refl _⟩
  matching := by
    constructor
    · rintro _ _ _ _ (earlier | ⟨rfl, rfl, rfl⟩) (earlier' | ⟨same, here, rfl⟩)
      · exact matching.functional earlier earlier'
      · subst same here
        exact absurd (inside _ _ _ earlier).1 (Nat.lt_irrefl _)
      · exact absurd (inside _ _ _ earlier').1 (Nat.lt_irrefl _)
      · rfl
    · rintro _ _ _ _ (earlier | ⟨rfl, rfl, rfl⟩) (earlier' | ⟨same, rfl, here⟩)
      · exact matching.injective earlier earlier'
      · subst same here
        exact absurd (inside _ _ _ earlier).2 (Nat.lt_irrefl _)
      · exact absurd (inside _ _ _ earlier').2 (Nat.lt_irrefl _)
      · rfl

/-- What is linked under a link is so under one that it is extended to. -/
theorem Extends.linked (extension : link.Extends store other wider)
    (linked : store.Linked names link other) :
    store.Linked names wider other where
  matching := extension.matching
  arrays pair := by
    rcases extension.fresh pair with earlier | ⟨above, above'⟩
    · exact optionRel_imp (fun _ _ given => given.mono extension.within) (linked.arrays earlier)
    · rw [Array.getElem?_eq_none above, Array.getElem?_eq_none above']
      exact .none
  objects pair := by
    rcases extension.fresh pair with earlier | ⟨above, above'⟩
    · exact optionRel_imp (fun _ _ given => given.mono extension.within) (linked.objects earlier)
    · rw [Array.getElem?_eq_none above, Array.getElem?_eq_none above']
      exact .none
  functions pair := by
    rcases extension.fresh pair with earlier | ⟨above, above'⟩
    · exact optionRel_imp (fun _ _ given => given.mono extension.within) (linked.functions earlier)
    · rw [Array.getElem?_eq_none above, Array.getElem?_eq_none above']
      exact .none
  layers pair := by
    rcases extension.fresh pair with earlier | ⟨above, above'⟩
    · exact optionRel_imp (fun _ _ given => given.mono extension.within) (linked.layers earlier)
    · rw [Array.getElem?_eq_none above, Array.getElem?_eq_none above']
      exact .none

end Link

namespace Store.Linked

variable {names : String → Bool} {link : Link} {store other : Store}
  (linked : store.Linked names link other)

include linked

/-! ## Looking at linked stores -/

theorem items {array array' : ArrayId} (handles : link .array array.index array'.index) :
    List.Forall₂ (Value.Linked link) (store.items array).toList (other.items array').toList := by
  have cells : Option.Rel (fun items items' : Array Value =>
      List.Forall₂ (Value.Linked link) items.toList items'.toList)
      (store.arrays[array.index]?.map ArrayCell.items)
      (other.arrays[array'.index]?.map ArrayCell.items) :=
    optionRel_map (fun _ _ cells => cells.items) (linked.arrays handles)
  refine optionRel_getD ?_ cells
  exact .nil

theorem size_items {array array' : ArrayId} (handles : link .array array.index array'.index) :
    (store.items array).size = (other.items array').size := by
  simpa using (linked.items handles).length_eq

theorem item {array array' : ArrayId} (handles : link .array array.index array'.index)
    (place : Nat) :
    Option.Rel (Value.Linked link) (store.items array)[place]? (other.items array')[place]? := by
  rw [← Array.getElem?_toList, ← Array.getElem?_toList]
  exact optionRel_getElem? (linked.items handles) place

theorem lastItem {array array' : ArrayId} (handles : link .array array.index array'.index) :
    Option.Rel (Value.Linked link) (store.items array).back? (other.items array').back? := by
  rw [Array.back?_eq_getElem?, Array.back?_eq_getElem?, linked.size_items handles]
  exact linked.item handles _

/-- What stands at the place that a number stands for. -/
theorem slot {array array' : ArrayId} (handles : link .array array.index array'.index)
    (index : Float) :
    Option.Rel (Value.Linked link)
      ((slot? index (store.items array).size).bind fun place => (store.items array)[place]?)
      ((slot? index (other.items array').size).bind fun place => (other.items array')[place]?) := by
  rw [linked.size_items handles]
  cases slot? index (other.items array').size with
  | none => exact .none
  | some place => exact linked.item handles place

theorem entries {object object' : ObjectId} (handles : link .object object.index object'.index)
    (name : String) :
    Option.Rel (Value.Linked link) ((store.entries object).find? name)
      ((other.entries object').find? name) := by
  have cells : Option.Rel (fun entries entries' : Dict Value =>
      ∀ name, Option.Rel (Value.Linked link) (entries.find? name) (entries'.find? name))
      (store.objects[object.index]?.map ObjectCell.entries)
      (other.objects[object'.index]?.map ObjectCell.entries) :=
    optionRel_map (fun _ _ cells => cells.entries) (linked.objects handles)
  exact optionRel_getD optionRel_empty cells name

theorem entry {object object' : ObjectId} (handles : link .object object.index object'.index)
    (name : String) :
    (store.entry object name).Linked link (other.entry object' name) :=
  optionRel_getD .null (linked.entries handles name)

theorem function? {function function' : FunctionId}
    (handles : link .function function.index function'.index) :
    Option.Rel (Function.Linked names link) (store.function? function)
      (other.function? function') :=
  linked.functions handles

theorem bindings {layer layer' : LayerId} (handles : link .layer layer.index layer'.index) :
    Bindings.Linked names link (store.bindings layer) (other.bindings layer') :=
  optionRel_getD (fun name _ => optionRel_empty name) (linked.layers handles)

theorem findBinding? {name : String} (named : names name) {layers layers' : List LayerId}
    (each : List.Forall₂ (fun layer layer' : LayerId => link .layer layer.index layer'.index)
      layers layers') :
    Option.Rel
      (fun found found' : LayerId × Variable =>
        link .layer found.1.index found'.1.index ∧ found.2.Linked link found'.2)
      (store.findBinding? name layers) (other.findBinding? name layers') := by
  induction each with
  | nil => exact .none
  | @cons layer layer' _ _ handles _ inductive_step =>
      have here := linked.bindings handles name named
      rw [Store.findBinding?, Store.findBinding?]
      generalize (store.bindings layer).find? name = found at here ⊢
      generalize (other.bindings layer').find? name = found' at here ⊢
      cases here with
      | none => exact inductive_step
      | some bounds => exact .some ⟨handles, bounds⟩

theorem binding? {name : String} (named : names name) {scope scope' : Scope}
    (scopes : scope.Linked link scope') :
    Option.Rel (Variable.Linked link) (store.binding? scope name) (other.binding? scope' name) :=
  optionRel_map (fun _ _ found => found.2) (linked.findBinding? named scopes.layers)

theorem lookup? {name : String} (named : names name) {scope scope' : Scope}
    (scopes : scope.Linked link scope') :
    Option.Rel (Variable.Linked link) (store.lookup? scope name) (other.lookup? scope' name) := by
  have plain (store : Store) {scope : Scope} (qualifier : scope.qualifier = "") :
      store.lookup? scope name = store.binding? scope name := by
    simp [Store.lookup?, qualifier]
  rw [plain store scopes.qualifier.1, plain other scopes.qualifier.2]
  exact linked.binding? named scopes

theorem isBound {name : String} (named : names name) {scope scope' : Scope}
    (scopes : scope.Linked link scope') :
    store.isBound scope name = other.isBound scope' name := by
  have found := linked.binding? named scopes
  unfold Store.isBound
  generalize store.binding? scope name = bound at found ⊢
  generalize other.binding? scope' name = bound' at found ⊢
  cases found <;> rfl

theorem attributes {value value' : Value} (values : value.Linked link value') :
    store.attributes value = [] ∧ other.attributes value' = [] := by
  let bare (attributes attributes' : List Attribute) : Prop := attributes = [] ∧ attributes' = []
  have neither : bare [] [] := ⟨rfl, rfl⟩
  cases values with
  | arr handles =>
      have cells : Option.Rel bare _ _ :=
        optionRel_map (fun _ _ cells => cells.bare) (linked.arrays handles)
      exact optionRel_getD neither cells
  | obj handles =>
      have cells : Option.Rel bare _ _ :=
        optionRel_map (fun _ _ cells => cells.bare) (linked.objects handles)
      exact optionRel_getD neither cells
  | fn handles =>
      have functions : Option.Rel bare _ _ :=
        optionRel_map (fun _ _ found => found.bare) (linked.functions handles)
      exact optionRel_getD neither functions
  | _ => exact neither

/-! ## Changing linked stores -/

theorem iff_of_pairs {kind : HandleKind} {index index' place place' : Nat}
    (pair : link kind index index') (other : link kind place place') :
    index = place ↔ index' = place' := by
  constructor
  · rintro rfl
    exact linked.matching.functional pair other
  · rintro rfl
    exact linked.matching.injective pair other

theorem modifyItems {array array' : ArrayId} (handles : link .array array.index array'.index)
    {change change' : Array Value → Array Value}
    (keeps : ∀ items items' : Array Value,
      List.Forall₂ (Value.Linked link) items.toList items'.toList →
        List.Forall₂ (Value.Linked link) (change items).toList (change' items').toList) :
    (store.modifyItems array change).Linked names link (other.modifyItems array' change') where
  matching := linked.matching
  arrays pair :=
    optionRel_modify (linked.arrays pair) (linked.iff_of_pairs handles pair)
      fun _ _ cells => ⟨keeps _ _ cells.items, cells.bare⟩
  objects := linked.objects
  functions := linked.functions
  layers := linked.layers

theorem push {array array' : ArrayId} (handles : link .array array.index array'.index)
    {value value' : Value} (values : value.Linked link value') :
    (store.modifyItems array fun items => items.push value).Linked names link
      (other.modifyItems array' fun items => items.push value') := by
  refine linked.modifyItems handles fun items items' each => ?_
  rw [Array.toList_push, Array.toList_push]
  exact List.rel_append each (.cons values .nil)

theorem pop {array array' : ArrayId} (handles : link .array array.index array'.index) :
    (store.modifyItems array Array.pop).Linked names link
      (other.modifyItems array' Array.pop) := by
  refine linked.modifyItems handles fun items items' each => ?_
  rw [Array.toList_pop, Array.toList_pop, List.dropLast_eq_take, List.dropLast_eq_take,
    each.length_eq]
  exact List.forall₂_take _ each

theorem setItem {array array' : ArrayId} (handles : link .array array.index array'.index)
    (place : Nat) {value value' : Value} (values : value.Linked link value') :
    (store.modifyItems array fun items => items.setIfInBounds place value).Linked names link
      (other.modifyItems array' fun items => items.setIfInBounds place value') := by
  refine linked.modifyItems handles fun items items' each => ?_
  rw [Array.toList_setIfInBounds, Array.toList_setIfInBounds]
  exact forall₂_set each place values

theorem setEntry {object object' : ObjectId} (handles : link .object object.index object'.index)
    (name : String) {value value' : Value} (values : value.Linked link value') :
    (store.setEntry object name value).Linked names link (other.setEntry object' name value') where
  matching := linked.matching
  arrays := linked.arrays
  objects pair :=
    optionRel_modify (linked.objects pair) (linked.iff_of_pairs handles pair)
      fun _ _ cells =>
        ⟨fun looked => optionRel_insert (cells.entries looked) name values, cells.bare⟩
  functions := linked.functions
  layers := linked.layers

/-- What is linked to a function without a name has no name. -/
theorem unnamed {function function' : FunctionId}
    (handles : link .function function.index function'.index)
    (unnamed : ∀ cell ∈ store.function? function, cell.name = none) :
    ∀ cell ∈ other.function? function', cell.name = none := by
  intro cell present
  have functions : Option.Rel (Function.Linked names link) (store.function? function)
      (other.function? function') := linked.functions handles
  rw [Option.mem_def.mp present] at functions
  cases found : store.function? function with
  | none =>
      rw [found] at functions
      cases functions
  | some known =>
      rw [found] at functions
      exact (Option.rel_some_some.mp functions).name.symm.trans (unnamed known found)

theorem nameFunction {function function' : FunctionId}
    (handles : link .function function.index function'.index) (name : String) :
    (store.nameFunction function name).Linked names link (other.nameFunction function' name) where
  matching := linked.matching
  arrays := linked.arrays
  objects := linked.objects
  functions pair :=
    optionRel_modify (linked.functions pair) (linked.iff_of_pairs handles pair)
      fun _ _ functions =>
        ⟨rfl, functions.body, functions.bare⟩
  layers := linked.layers

theorem modifyLayer {layer layer' : LayerId} (handles : link .layer layer.index layer'.index)
    (name : String) {bound bound' : Variable} (bounds : bound.Linked link bound') :
    (store.modifyLayer layer fun bindings => bindings.insert name bound).Linked names link
      (other.modifyLayer layer' fun bindings => bindings.insert name bound') where
  matching := linked.matching
  arrays := linked.arrays
  objects := linked.objects
  functions := linked.functions
  layers pair :=
    optionRel_modify (linked.layers pair) (linked.iff_of_pairs handles pair)
      fun _ _ bindings looked named => optionRel_insert (bindings looked named) name bounds

theorem newArray (handles : link .array store.arrays.size other.arrays.size)
    {items items' : Array Value}
    (values : List.Forall₂ (Value.Linked link) items.toList items'.toList) :
    (store.newArray items).1.Linked names link (other.newArray items').1 where
  matching := linked.matching
  arrays pair := optionRel_push (linked.arrays pair) (linked.iff_of_pairs pair handles)
    ⟨values, rfl, rfl⟩
  objects := linked.objects
  functions := linked.functions
  layers := linked.layers

theorem newObject (handles : link .object store.objects.size other.objects.size)
    {entries entries' : Dict Value}
    (values : ∀ name, Option.Rel (Value.Linked link) (entries.find? name) (entries'.find? name)) :
    (store.newObject entries).1.Linked names link (other.newObject entries').1 where
  matching := linked.matching
  arrays := linked.arrays
  objects pair := optionRel_push (linked.objects pair) (linked.iff_of_pairs pair handles)
    ⟨values, rfl, rfl⟩
  functions := linked.functions
  layers := linked.layers

theorem newFunction (handles : link .function store.functions.size other.functions.size)
    (name : Option String) {body body' : Body} (bodies : body.Linked names link body') :
    (store.newFunction name body).1.Linked names link (other.newFunction name body').1 where
  matching := linked.matching
  arrays := linked.arrays
  objects := linked.objects
  functions pair := optionRel_push (linked.functions pair) (linked.iff_of_pairs pair handles)
    ⟨rfl, bodies, rfl, rfl⟩
  layers := linked.layers

theorem newLayer (handles : link .layer store.layers.size other.layers.size)
    {bindings bindings' : Dict Variable} (each : Bindings.Linked names link bindings bindings') :
    (store.newLayer bindings).1.Linked names link (other.newLayer bindings').1 where
  matching := linked.matching
  arrays := linked.arrays
  objects := linked.objects
  functions := linked.functions
  layers pair := optionRel_push (linked.layers pair) (linked.iff_of_pairs pair handles) each

end Store.Linked

end TreeScript
