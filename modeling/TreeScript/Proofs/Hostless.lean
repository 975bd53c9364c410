import TreeScript.Machine.Process

/-!
# Stores without functions of the host

The functions of the library and the methods of values neither touch the
lifecycle nor hand control to the host.  As long as every native function in
the store is one of them, a running script performs only the actions singled
out here, and what these actions reply never brings a function of the host
into play.
-/

namespace TreeScript

/-- A body that the host did not supply. -/
def Body.Hostless : Body → Prop
  | .native (.host _) => False
  | _ => True

/-- A store whose functions are closures, functions of the library and methods. -/
def Store.Hostless (store : Store) : Prop :=
  ∀ (function : FunctionId) (found : Function),
    store.function? function = some found → found.body.Hostless

namespace Action

/-- An action that leaves the lifecycle alone and creates no function of the host. -/
def Hostless : Action → Prop
  | .newFunction _ body => body.Hostless
  | .deliver _ => False
  | .transition _ => False
  | .mention _ => False
  | .subscribe _ _ => False
  | .unsubscribe _ _ => False
  | _ => True

/-- A hostless action other than taking a step. -/
def Plain : Action → Prop
  | .tick => False
  | action => action.Hostless

theorem Plain.hostless {action : Action} (plain : action.Plain) : action.Hostless := by
  cases action with
  | tick => exact plain.elim
  | _ => exact plain

theorem Plain.ne_tick {action : Action} (plain : action.Plain) : action ≠ .tick := by
  rintro rfl
  exact plain

/--
An action by which a construct or a function of the library looks at the world
or changes it.  Steps, the pause and yields are not for them to look at.
-/
def IsQuiet : Action → Prop
  | .tick => False
  | .pause => False
  | .steps => False
  | .yielded => False
  | action => action.Hostless

theorem IsQuiet.plain {action : Action} (quiet : action.IsQuiet) : action.Plain := by
  cases action with
  | tick | pause | steps | yielded => exact quiet.elim
  | _ => exact quiet

/-- The replies that are to be expected from a world without functions of the host. -/
def Expected : (action : Action) → action.Reply → Prop
  | .store, seen => Store.Hostless seen
  | _, _ => True

end Action

end TreeScript
