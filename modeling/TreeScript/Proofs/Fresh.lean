import TreeScript.Interpreter.Basic
import TreeScript.Proofs.ActionAgreement

/-!
# New interpreters

An interpreter that is created without functions of the host has none in its
store, whatever constants it is given: building a datum makes arrays and
objects, and neither functions nor layers.
-/

namespace TreeScript

namespace Store

section Building

variable {α : Type} {part : Store → α}

mutual

/-- Building a value leaves alone what new arrays and objects leave alone. -/
theorem build_keeps
    (arrays : ∀ store items, part (newArray store items).1 = part store)
    (objects : ∀ store entries, part (newObject store entries).1 = part store)
    (store : Store) :
    ∀ datum : Datum Value, part (store.build datum).2 = part store
  | .null => rfl
  | .bool _ => rfl
  | .num _ => rfl
  | .str _ => rfl
  | .arr items => (arrays _ _).trans (buildItems_keeps arrays objects store items)
  | .obj entries => (objects _ _).trans (buildEntries_keeps arrays objects store entries)
  | .error _ => rfl
  | .errorWith _ information => build_keeps arrays objects store information
  | .reference _ => rfl

theorem buildItems_keeps
    (arrays : ∀ store items, part (newArray store items).1 = part store)
    (objects : ∀ store entries, part (newObject store entries).1 = part store)
    (store : Store) :
    ∀ items : List (Datum Value), part (store.buildItems items).2 = part store
  | [] => rfl
  | first :: rest =>
      (buildItems_keeps arrays objects (store.build first).2 rest).trans
        (build_keeps arrays objects store first)

theorem buildEntries_keeps
    (arrays : ∀ store items, part (newArray store items).1 = part store)
    (objects : ∀ store entries, part (newObject store entries).1 = part store)
    (store : Store) :
    ∀ entries : List (String × Datum Value), part (store.buildEntries entries).2 = part store
  | [] => rfl
  | (_, first) :: rest =>
      (buildEntries_keeps arrays objects (store.build first).2 rest).trans
        (build_keeps arrays objects store first)

end

end Building

/-- Building a value makes no function. -/
theorem functions_build (store : Store) (datum : Datum Value) :
    (store.build datum).2.functions = store.functions :=
  store.build_keeps (fun _ _ => rfl) (fun _ _ => rfl) datum

/-- Building a value makes no layer. -/
theorem layers_build (store : Store) (datum : Datum Value) :
    (store.build datum).2.layers = store.layers :=
  store.build_keeps (fun _ _ => rfl) (fun _ _ => rfl) datum

/-- Whether there are functions of the host depends on the functions only. -/
theorem Hostless.of_functions {store other : Store}
    (hostless : store.Hostless)
    (functions : other.functions = store.functions) :
    other.Hostless := by
  intro function found present
  rw [function?, functions] at present
  exact hostless function found present

theorem hostless_empty : Store.empty.Hostless := by
  intro function found present
  cases present

end Store

/-- A node without a position. -/
def Node.of (shape : Shape) : Node :=
  .mk shape default

/-- The options of an interpreter that neither yields nor tells its host anything. -/
def Options.silent (stepLimit depthLimit : Nat) : Options where
  stepLimit := stepLimit
  depthLimit := depthLimit
  abortOnError := false
  reportsErrors := false
  reportsLog := false
  reportsOutput := false
  hasInput := false
  detail := .contents
  irq := ⟨Float.ofNat 0, .custom false⟩

namespace Interpreter

theorem hostless_bindNatives {natives : List Native}
    (own : ∀ native ∈ natives, (Body.native native).Hostless)
    {store : Store} (hostless : store.Hostless) (bindings : Dict Variable) :
    (bindNatives store bindings natives).2.Hostless := by
  induction natives generalizing store bindings with
  | nil => exact hostless
  | cons native rest inductive_step =>
      have first := own native List.mem_cons_self
      exact inductive_step (fun other mem => own other (List.mem_cons_of_mem native mem))
        (hostless.newFunction (some native.name) first) _

theorem functions_bindConstants (store : Store) (bindings : Dict Variable)
    (constants : List (String × Datum Value)) :
    (bindConstants store bindings constants).2.functions = store.functions := by
  induction constants generalizing store bindings with
  | nil => rfl
  | cons constant rest inductive_step =>
      exact (inductive_step (store.build constant.2).2 _).trans
        (store.functions_build constant.2)

/-- The functions of an interpreter without functions of the host are those of the library. -/
theorem hostless_create (options : Options) (host : Host)
    (constants : List (String × Datum Value)) (inputs : List String) :
    (create options host [] constants inputs).world.store.Hostless := by
  have library : ∀ native ∈ LibraryFunction.all.map Native.library,
      (Body.native native).Hostless := by
    intro native mem
    rcases List.mem_map.mp mem with ⟨function, -, rfl⟩
    trivial
  have bound := functions_bindConstants .empty .empty constants
  exact (hostless_bindNatives library (Store.hostless_empty.of_functions bound)
    (bindConstants .empty .empty constants).1).of_functions rfl

end Interpreter

end TreeScript
