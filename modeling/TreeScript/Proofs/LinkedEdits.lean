import TreeScript.Proofs.Bindings
import TreeScript.Proofs.Separation

/-!
# Edits of linked worlds

Two worlds are linked if their stores are, evaluation has been stopped in both
of them or in neither, nothing has paused it, and the same input is left in both
of them if the script can ask for it.  Linked edits advance linked worlds together: they end
with linked results in worlds that are linked again, perhaps by a link that has
been extended, and what the second one changes belongs to the link.
-/

namespace TreeScript

/-- Whether a script that keeps to some names can ask the host for input. -/
def Options.Asks (options : Options) (names : String → Bool) : Prop :=
  options.hasInput = true ∧ names LibraryFunction.readline.name

namespace World

/-- Worlds that are the same to a script, as far as it keeps to some names. -/
structure Linked (options : Options) (names : String → Bool) (link : Link)
    (world other : World) : Prop where
  store : world.store.Linked names link other.store
  inside : link.Inside world.store other.store
  lifecycle : world.lifecycle = other.lifecycle
  unpaused : other.lifecycle.pause = none
  inputs : options.Asks names → world.inputs = other.inputs

/-- A change of the world that is confined to what belongs to a link. -/
structure Leaves (options : Options) (names : String → Bool) (link : Link)
    (before after : World) : Prop where
  store : before.store.Leaves names link after.store
  lifecycle : after.lifecycle = before.lifecycle
  inputs : after.inputs = before.inputs ∨ options.Asks names

/-- How two linked worlds go on: to worlds that are linked by a wider link. -/
structure Advance (options : Options) (names : String → Bool) (link : Link)
    (world other : World) (wider : Link) (next next' : World) : Prop where
  extension : link.Extends world.store other.store wider
  grows (kind : HandleKind) : world.store.size kind ≤ next.store.size kind
  linked : Linked options names wider next next'
  leaves : other.Leaves options names link next'

/-- A world that differs from another one in steps, the roster and the record only. -/
structure Unmoved (world next : World) : Prop where
  store : next.store = world.store
  lifecycle : next.lifecycle = world.lifecycle
  inputs : next.inputs = world.inputs

theorem unmoved_refl (world : World) : world.Unmoved world :=
  ⟨rfl, rfl, rfl⟩

theorem Unmoved.trans {world between next : World} (first : world.Unmoved between)
    (second : between.Unmoved next) : world.Unmoved next :=
  ⟨second.store.trans first.store, second.lifecycle.trans first.lifecycle,
    second.inputs.trans first.inputs⟩

theorem unmoved_log (options : Options) (name : String) (scope bound : Option String)
    (value : Option Value) (world : World) :
    world.Unmoved (world.log options name scope bound value) := by
  unfold World.log
  split
  · exact ⟨rfl, rfl, rfl⟩
  · exact unmoved_refl world

variable {options : Options} {names : String → Bool} {link wider widest : Link}
  {world other between between' next next' : World}

/-- What has no part in evaluation may change, the record for example. -/
theorem Linked.advance_of_unmoved (linked : Linked options names link world other)
    (unmoved : world.Unmoved next) (unmoved' : other.Unmoved next') :
    Advance options names link world other link next next' where
  extension := Link.extends_refl linked.store.matching _ _
  grows kind := Nat.le_of_eq (by rw [unmoved.store])
  linked := by
    refine ⟨?_, ?_, ?_, ?_, fun asks => ?_⟩
    · rw [unmoved.store, unmoved'.store]
      exact linked.store
    · rw [unmoved.store, unmoved'.store]
      exact linked.inside
    · rw [unmoved.lifecycle, unmoved'.lifecycle]
      exact linked.lifecycle
    · rw [unmoved'.lifecycle]
      exact linked.unpaused
    · rw [unmoved.inputs, unmoved'.inputs]
      exact linked.inputs asks
  leaves := ⟨unmoved'.store ▸ Store.leaves_refl names link other.store, unmoved'.lifecycle,
    .inl unmoved'.inputs⟩

theorem Linked.advance_refl (linked : Linked options names link world other) :
    Advance options names link world other link world other :=
  linked.advance_of_unmoved (unmoved_refl world) (unmoved_refl other)

theorem Advance.trans (first : Advance options names link world other wider between between')
    (second : Advance options names wider between between' widest next next') :
    Advance options names link world other widest next next' where
  extension := first.extension.trans first.grows first.leaves.store.grows second.extension
  grows kind := Nat.le_trans (first.grows kind) (second.grows kind)
  linked := second.linked
  leaves := by
    refine ⟨first.leaves.store.trans first.extension second.leaves.store,
      second.leaves.lifecycle.trans first.leaves.lifecycle, ?_⟩
    rcases first.leaves.inputs with same | asks
    · exact second.leaves.inputs.imp_left fun same' => same'.trans same
    · exact .inr asks

/-- Stores that are changed alike, without new handles. -/
theorem Linked.advance_change (linked : Linked options names link world other)
    {store store' : Store} (stores : store.Linked names link store')
    (sizes : ∀ kind, store.size kind = world.store.size kind)
    (leaves : other.store.Leaves names link store') :
    Advance options names link world other link { world with store := store }
      { other with store := store' } where
  extension := Link.extends_refl linked.store.matching _ _
  grows kind := Nat.le_of_eq (sizes kind).symm
  linked := ⟨stores, linked.inside.mono (fun kind => Nat.le_of_eq (sizes kind).symm) leaves.grows,
    linked.lifecycle, linked.unpaused, linked.inputs⟩
  leaves := ⟨leaves, rfl, .inl rfl⟩

/-- Stores that give out one more handle of a kind each; the new handles are linked then. -/
theorem Linked.advance_give (linked : Linked options names link world other)
    {kind : HandleKind} {store store' : Store}
    (gives : Store.Gives kind world.store store)
    (gives' : Store.Gives kind other.store store')
    (stores : ∀ wider : Link, link ≤ wider → world.store.Linked names wider other.store →
      wider kind (world.store.size kind) (other.store.size kind) →
        store.Linked names wider store')
    (leaves : other.store.Leaves names link store') :
    Advance options names link world other
      (link.add kind (world.store.size kind) (other.store.size kind))
      { world with store := store } { other with store := store' } := by
  have extension := Link.extends_add linked.store.matching linked.inside kind
  exact ⟨extension, gives.grows,
    ⟨stores _ extension.within (extension.linked linked.store) (.inr ⟨rfl, rfl, rfl⟩),
      linked.inside.add gives gives', linked.lifecycle, linked.unpaused, linked.inputs⟩,
    ⟨leaves, rfl, .inl rfl⟩⟩

end World

namespace Edit

variable {α β γ δ : Type}

/-- Edits that advance two worlds together, with linked results. -/
def LinkedAt (options : Options) (names : String → Bool) (link : Link)
    (same : Link → α → β → Prop) (edit : Edit α) (other : Edit β) (world world' : World) : Prop :=
  ∃ wider,
    World.Advance options names link world world' wider (edit.run.run world).2
      (other.run.run world').2 ∧
      Except.Linked Eq (same wider) (edit.run.run world).1 (other.run.run world').1

/-- Edits that advance linked worlds together. -/
def Linked (options : Options) (names : String → Bool) (link : Link)
    (same : Link → α → β → Prop) (edit : Edit α) (other : Edit β) : Prop :=
  ∀ world world', World.Linked options names link world world' →
    LinkedAt options names link same edit other world world'

section Closure

variable {options : Options} {names : String → Bool} {link : Link}
  {same : Link → α → β → Prop} {sameAfter : Link → γ → δ → Prop}

theorem linked_pure {result : α} {other : β} (results : same link result other) :
    Linked options names link same (pure result) (pure other) :=
  fun _ _ linked => ⟨link, linked.advance_refl, .ok results⟩

theorem linked_throw (error : Error) :
    Linked options names link same (throw error) (throw error) :=
  fun _ _ linked => ⟨link, linked.advance_refl, .error rfl⟩

theorem linked_ofExcept {related : α → β → Prop} {result : Except Error α}
    {other : Except Error β} (results : Except.Linked Eq related result other) :
    Linked options names link (fun _ => related) (liftM result) (liftM other) := by
  cases results with
  | ok results => exact linked_pure results
  | error failures => exact failures ▸ linked_throw _

/-- What has been linked stays so under a wider link, for which the rest has to be linked. -/
theorem LinkedAt.bind {edit : Edit α} {other : Edit β} {world world' : World}
    (linked : LinkedAt options names link same edit other world world')
    {continuation : α → Edit γ} {continuation' : β → Edit δ}
    (goesOn : ∀ wider, link ≤ wider → ∀ result result', same wider result result' →
      Linked options names wider sameAfter (continuation result) (continuation' result')) :
    LinkedAt options names link sameAfter (edit >>= continuation) (other >>= continuation')
      world world' := by
  obtain ⟨wider, advance, results⟩ := linked
  unfold LinkedAt
  rw [run_bind, run_bind]
  generalize edit.run.run world = ran at advance results ⊢
  generalize other.run.run world' = ran' at advance results ⊢
  rcases ran with ⟨error | result, reached⟩ <;> rcases ran' with ⟨error' | result', reached'⟩
  · cases results with
    | error failures => exact ⟨wider, advance, .error failures⟩
  · cases results
  · cases results
  · cases results with
    | ok results =>
        obtain ⟨widest, further, after⟩ :=
          goesOn wider advance.extension.within result result' results reached reached'
            advance.linked
        exact ⟨widest, advance.trans further, after⟩

theorem Linked.bind {edit : Edit α} {other : Edit β}
    (linked : Linked options names link same edit other)
    {continuation : α → Edit γ} {continuation' : β → Edit δ}
    (goesOn : ∀ wider, link ≤ wider → ∀ result result', same wider result result' →
      Linked options names wider sameAfter (continuation result) (continuation' result')) :
    Linked options names link sameAfter (edit >>= continuation) (other >>= continuation') :=
  fun world world' worlds => (linked world world' worlds).bind goesOn

/-- Looking at the store changes nothing, so what follows sees the store as it still is. -/
theorem linkedAt_store_bind {continuation : Store → Edit γ} {continuation' : Store → Edit δ}
    {world world' : World}
    (goesOn : LinkedAt options names link sameAfter (continuation world.store)
      (continuation' world'.store) world world') :
    LinkedAt options names link sameAfter (store >>= continuation) (store >>= continuation')
      world world' :=
  goesOn

theorem linked_store_bind {continuation : Store → Edit γ} {continuation' : Store → Edit δ}
    (goesOn : ∀ store store' : Store, store.Linked names link store' →
      Linked options names link sameAfter (continuation store) (continuation' store')) :
    Linked options names link sameAfter (store >>= continuation) (store >>= continuation') :=
  fun world world' worlds =>
    linkedAt_store_bind (goesOn world.store world'.store worlds.store world world' worlds)

theorem linked_log (name : String) (scope scope' : Scope) (bound : String)
    (value value' : Value) :
    Linked options names link (fun _ _ _ => True) (log options name scope bound value)
      (log options name scope' bound value') :=
  fun _ _ worlds =>
    ⟨link, worlds.advance_of_unmoved (World.unmoved_log ..) (World.unmoved_log ..), .ok trivial⟩

theorem linked_newArray {values values' : List Value}
    (each : List.Forall₂ (Value.Linked link) values values') :
    Linked options names link Value.Linked (newArray values.toArray) (newArray values'.toArray) :=
  fun _ _ worlds =>
    ⟨_, worlds.advance_give (Store.gives_newArray _ _) (Store.gives_newArray _ _)
      (fun _ within stores handles =>
        stores.newArray handles (each.imp fun _ _ given => given.mono within))
      (Store.leaves_newArray _),
      .ok (.arr (Or.inr ⟨rfl, rfl, rfl⟩))⟩

theorem linked_newObject {entries entries' : List (String × Value)}
    (each : List.Forall₂ (Named (Value.Linked link)) entries entries') :
    Linked options names link Value.Linked (newObject entries) (newObject entries') :=
  fun _ _ worlds =>
    ⟨_, worlds.advance_give (Store.gives_newObject _ _) (Store.gives_newObject _ _)
      (fun _ within stores handles => stores.newObject handles <| optionRel_ofList <|
        each.imp fun _ _ given => given.imp fun _ _ given => given.mono within)
      (Store.leaves_newObject _),
      .ok (.obj (Or.inr ⟨rfl, rfl, rfl⟩))⟩

/-! ## Names -/

theorem linked_readName {scope scope' : Scope} (scopes : scope.Linked link scope')
    {name : String} (named : names name) :
    Linked options names link Value.Linked (readName options scope name)
      (readName options scope' name) := by
  refine linked_store_bind fun store store' stores => ?_
  have found := stores.lookup? named scopes
  generalize store.lookup? scope name = bound at found ⊢
  generalize store'.lookup? scope' name = bound' at found ⊢
  cases found with
  | none => exact scopes.name ▸ linked_throw _
  | some bounds =>
      cases bounds with
      | plain isMutable values =>
          exact (linked_log _ _ _ _ _ _).bind fun _ within _ _ _ => linked_pure (values.mono within)

/-- A definition binds a name that is not bound in the layer, so it replaces nothing. -/
theorem linked_declare {scope scope' : Scope} (scopes : scope.Linked link scope')
    {name : String} (named : names name) {bound bound' : Variable}
    (bounds : bound.Linked link bound') :
    Linked options names link (fun _ _ _ => True) (declare options scope name bound)
      (declare options scope' name bound') := by
  unfold declare
  rw [(scopes.registrations name).1, (scopes.registrations name).2]
  refine (linked_log _ _ _ _ _ _).bind fun wider within _ _ _ world world' worlds => ?_
  refine linkedAt_store_bind ?_
  have found := worlds.store.bindings (within _ _ _ scopes.layer) name named
  unfold Dict.contains
  cases taken : (world.store.bindings scope.layer).find? name with
  | some earlier =>
      rw [taken] at found
      cases taken' : (world'.store.bindings scope'.layer).find? name with
      | some earlier' => exact scopes.name ▸ linked_throw _ world world' worlds
      | none =>
          rw [taken'] at found
          cases found
  | none =>
      rw [taken] at found
      cases taken' : (world'.store.bindings scope'.layer).find? name with
      | some earlier' =>
          rw [taken'] at found
          cases found
      | none =>
          have free : ∀ earlier ∈ (world'.store.bindings scope'.layer).find? name,
              earlier.isMutable = true := by
            rw [taken']
            nofun
          have advance := worlds.advance_change
            (worlds.store.modifyLayer (within _ _ _ scopes.layer) name (bounds.mono within))
            (Store.size_modifyLayer _ _ _)
            (Store.leaves_modifyLayer (within _ _ _ scopes.layer) named free bound')
          exact ⟨wider, advance, .ok trivial⟩

/-- An assignment replaces a binding that it has found to be assignable. -/
theorem linked_assign {scope scope' : Scope} (scopes : scope.Linked link scope')
    {name : String} (named : names name) {value value' : Value}
    (values : value.Linked link value') :
    Linked options names link (fun _ _ _ => True) (assign options scope name value)
      (assign options scope' name value') := by
  refine (linked_log _ _ _ _ _ _).bind fun wider within _ _ _ world world' worlds => ?_
  refine linkedAt_store_bind ?_
  have found := worlds.store.findBinding? named (scopes.mono within).layers
  have present {layer : LayerId} {bound : Variable}
      (given : world'.store.findBinding? name scope'.layers = some (layer, bound)) :=
    Store.find?_of_findBinding? given
  generalize world.store.findBinding? name scope.layers = place at found ⊢
  generalize world'.store.findBinding? name scope'.layers = place' at found present ⊢
  cases found with
  | none => exact scopes.name ▸ linked_throw _ world world' worlds
  | @some place place' both =>
      obtain ⟨layer, bound⟩ := place
      obtain ⟨layer', bound'⟩ := place'
      obtain ⟨handles, bounds⟩ := both
      cases bounds with
      | plain isMutable earlier =>
          cases isMutable with
          | false => exact linked_throw _ world world' worlds
          | true =>
              have assignable : ∀ replaced ∈ (world'.store.bindings layer').find? name,
                  replaced.isMutable = true := by
                rw [present rfl]
                rintro _ ⟨⟩
                rfl
              have advance := worlds.advance_change
                (worlds.store.modifyLayer handles name (.plain true (values.mono within)))
                (Store.size_modifyLayer _ _ _)
                (Store.leaves_modifyLayer handles named assignable _)
              exact ⟨wider, advance, .ok trivial⟩

end Closure

/-! ## Patterns and targets -/

section Recursion

variable {options : Options} {names : String → Bool}

mutual

theorem linked_define (isMutable : Bool) {scope scope' : Scope} :
    ∀ (pattern : Node) {link : Link} {value value' : Value}, pattern.keepsTo names →
      scope.Linked link scope' → value.Linked link value' →
        Linked options names link (fun _ _ _ => True) (define options scope isMutable pattern value)
          (define options scope' isMutable pattern value')
  | .mk shape span, link, value, value', keeps, scopes, values => by
      cases shape with
      | identifier name => exact linked_declare scopes keeps (.plain isMutable values)
      | arr patterns =>
          refine (linked_ofExcept values.asArr).bind fun wider within array array' handles => ?_
          refine linked_store_bind fun store store' stores => ?_
          exact linked_defineItems isMutable patterns keeps (scopes.mono within)
            (stores.items (within _ _ _ handles))
      | obj patterns =>
          refine (linked_ofExcept values.asObj).bind fun wider within object object' handles => ?_
          refine linked_store_bind fun store store' stores => ?_
          exact linked_defineEntries isMutable patterns keeps (scopes.mono within)
            (stores.entries (within _ _ _ handles))
      | _ => exact linked_throw _

theorem linked_defineItems (isMutable : Bool) {scope scope' : Scope} :
    ∀ (patterns : List Node) {link : Link} {values values' : List Value},
      Node.keepTo names patterns → scope.Linked link scope' →
        List.Forall₂ (Value.Linked link) values values' →
          Linked options names link (fun _ _ _ => True)
            (defineItems options scope isMutable patterns values)
            (defineItems options scope' isMutable patterns values')
  | [], _, _, _, _, _, _ => linked_pure trivial
  | pattern :: rest, _, _, _, keep, scopes, values => by
      obtain ⟨keeps, keep⟩ := Bool.and_eq_true_iff.mp keep
      refine (linked_define isMutable pattern keeps scopes (Value.Linked.headD values)).bind
        fun _ within _ _ _ => ?_
      exact linked_defineItems isMutable rest keep (scopes.mono within)
        ((forall₂_tail values).imp fun _ _ given => given.mono within)

theorem linked_defineEntries (isMutable : Bool) {scope scope' : Scope} :
    ∀ (patterns : List (String × Node)) {link : Link} {values values' : Dict Value},
      Node.entriesKeepTo names patterns → scope.Linked link scope' →
        (∀ name, Option.Rel (Value.Linked link) (values.find? name) (values'.find? name)) →
          Linked options names link (fun _ _ _ => True)
            (defineEntries options scope isMutable patterns values)
            (defineEntries options scope' isMutable patterns values')
  | [], _, _, _, _, _, _ => linked_pure trivial
  | (name, pattern) :: rest, _, _, _, keep, scopes, values => by
      obtain ⟨keeps, keep⟩ := Bool.and_eq_true_iff.mp keep
      refine (linked_define isMutable pattern keeps scopes
        (optionRel_getD .null (values name))).bind fun _ within _ _ _ => ?_
      exact linked_defineEntries isMutable rest keep (scopes.mono within) fun name =>
        optionRel_imp (fun _ _ given => given.mono within) (values name)

end

mutual

theorem linked_read :
    ∀ (location : Location) {link : Link} {location' : Location},
      location.Linked names link location' →
        Linked options names link Value.Linked (read options location) (read options location')
  | .name scope name, _, _, .name scopes named => linked_readName scopes named
  | .element array index, _, _, .element handles _ => by
      refine linked_store_bind fun store store' stores => ?_
      have found := stores.slot handles index
      have size := stores.size_items handles
      dsimp only
      split <;> rename_i found₁ <;> split <;> rename_i found₂ <;> rw [found₁, found₂] at found
      · cases found with
        | some values => exact linked_pure values
      · cases found
      · cases found
      · exact size ▸ linked_throw _
  | .entry object name, _, _, .entry handles _ =>
      linked_store_bind fun _ _ stores => linked_pure (stores.entry handles name)
  | .items locations, _, _, .items each =>
      (linked_readItems locations each).bind fun _ _ _ _ values => linked_newArray values
  | .entries locations, _, _, .entries each =>
      (linked_readEntries locations each).bind fun _ _ _ _ values => linked_newObject values

theorem linked_readItems :
    ∀ (locations : List Location) {link : Link} {locations' : List Location},
      List.Forall₂ (Location.Linked names link) locations locations' →
        Linked options names link (fun wider => List.Forall₂ (Value.Linked wider))
          (readItems options locations) (readItems options locations')
  | [], _, _, .nil => linked_pure .nil
  | location :: rest, _, _, .cons first others =>
      (linked_read location first).bind fun _ within _ _ value =>
        (linked_readItems rest (Location.Linked.monoItems within others)).bind
          fun _ within' _ _ values => linked_pure (.cons (value.mono within') values)

theorem linked_readEntries :
    ∀ (locations : List (String × Location)) {link : Link} {locations' : List (String × Location)},
      List.Forall₂ (Named (Location.Linked names link)) locations locations' →
        Linked options names link (fun wider => List.Forall₂ (Named (Value.Linked wider)))
          (readEntries options locations) (readEntries options locations')
  | [], _, _, .nil => linked_pure .nil
  | (name, location) :: rest, _, _, .cons (.mk _ first) others =>
      (linked_read location first).bind fun _ within _ _ value =>
        (linked_readEntries rest (Location.Linked.monoEntries within others)).bind
          fun _ within' _ _ values => linked_pure (.cons (.mk name (value.mono within')) values)

end

/-- A change of the store alone. -/
theorem linked_modify {link : Link} {change change' : Store → Store}
    (stores : ∀ store store' : Store, store.Linked names link store' →
      (change store).Linked names link (change' store'))
    (sizes : ∀ (store : Store) (kind : HandleKind), (change store).size kind = store.size kind)
    (leaves : ∀ store : Store, store.Leaves names link (change' store)) :
    Linked options names link (fun _ _ _ => True)
      (modify fun world => world.mapStore change) (modify fun world => world.mapStore change') :=
  fun _ _ worlds =>
    ⟨link, worlds.advance_change (stores _ _ worlds.store) (sizes _) (leaves _), .ok trivial⟩

mutual

theorem linked_write :
    ∀ (location : Location) {link : Link} {location' : Location} {value value' : Value},
      location.Linked names link location' → value.Linked link value' →
        Linked options names link (fun _ _ _ => True) (write options location value)
          (write options location' value')
  | .name scope name, _, _, _, _, .name scopes named, values => linked_assign scopes named values
  | .element array index, _, _, _, _, .element handles _, values => by
      refine linked_store_bind fun store store' stores => ?_
      dsimp only
      rw [stores.size_items handles]
      split
      · exact linked_modify (fun _ _ stores => stores.setItem handles _ values)
          (fun store => store.size_modifyItems _ _) fun _ => Store.leaves_modifyItems handles _
      · exact linked_throw _
  | .entry object name, _, _, _, _, .entry handles _, values =>
      linked_modify (fun _ _ stores => stores.setEntry handles name values)
        (fun store => store.size_setEntry _ _ _) fun _ => Store.leaves_setEntry handles _ _
  | .items locations, _, _, _, _, .items each, values => by
      refine (linked_ofExcept values.asArr).bind fun wider within array array' handles => ?_
      refine linked_store_bind fun store store' stores => ?_
      exact linked_writeItems locations (Location.Linked.monoItems within each)
        (stores.items (within _ _ _ handles))
  | .entries locations, _, _, _, _, .entries each, values => by
      refine (linked_ofExcept values.asObj).bind fun wider within object object' handles => ?_
      refine linked_store_bind fun store store' stores => ?_
      exact linked_writeEntries locations (Location.Linked.monoEntries within each)
        (stores.entries (within _ _ _ handles))

theorem linked_writeItems :
    ∀ (locations : List Location) {link : Link} {locations' : List Location}
      {values values' : List Value},
      List.Forall₂ (Location.Linked names link) locations locations' →
        List.Forall₂ (Value.Linked link) values values' →
          Linked options names link (fun _ _ _ => True) (writeItems options locations values)
            (writeItems options locations' values')
  | [], _, _, _, _, .nil, _ => linked_pure trivial
  | location :: rest, _, _, _, _, .cons first others, values =>
      (linked_write location first (Value.Linked.headD values)).bind fun _ within _ _ _ =>
        linked_writeItems rest (Location.Linked.monoItems within others)
          ((forall₂_tail values).imp fun _ _ given => given.mono within)

theorem linked_writeEntries :
    ∀ (locations : List (String × Location)) {link : Link} {locations' : List (String × Location)}
      {values values' : Dict Value},
      List.Forall₂ (Named (Location.Linked names link)) locations locations' →
        (∀ name, Option.Rel (Value.Linked link) (values.find? name) (values'.find? name)) →
          Linked options names link (fun _ _ _ => True) (writeEntries options locations values)
            (writeEntries options locations' values')
  | [], _, _, _, _, .nil, _ => linked_pure trivial
  | (name, location) :: rest, _, _, _, _, .cons (.mk _ first) others, values =>
      (linked_write location first (optionRel_getD .null (values name))).bind
        fun _ within _ _ _ =>
          linked_writeEntries rest (Location.Linked.monoEntries within others) fun name =>
            optionRel_imp (fun _ _ given => given.mono within) (values name)

end

end Recursion

end Edit

end TreeScript
