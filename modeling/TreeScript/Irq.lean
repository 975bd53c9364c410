import TreeScript.Error
import TreeScript.Number.Double

/-!
# Regular yielding

While a script runs asynchronously it yields at regular intervals, counted in
evaluation steps, so that other work gets its turn.  The rate says how many
steps lie between two yields, and zero switches yielding off.
-/

namespace TreeScript

/-- How the interpreter yields. -/
inductive Sleep where
  /-- Sleep for some milliseconds. -/
  | timed (milliseconds : Float)
  /-- Tell the host, which may take its time. -/
  | custom (suspends : Bool)
  deriving DecidableEq

/-- The rate of yielding and what a yield does. -/
structure Irq where
  rate : Float
  sleep : Sleep
  deriving DecidableEq

namespace Irq

/-- The rate when none is given. -/
def defaultRate : Float :=
  Float.ofNat 300

/-- What a yield does when nothing is said about it: a sleep of five milliseconds. -/
def defaultSleep : Sleep :=
  .timed (Float.ofNat 5)

/-- No whole second from this one on can be slept for. -/
def secondsLimit : Float :=
  Float.ofNat (1 <<< 64)

/-- Whether a sleep of so many milliseconds is possible. -/
def isDuration (milliseconds : Float) : Bool :=
  Float.ofNat 0 ≤ milliseconds && milliseconds / Float.ofNat 1000 < secondsLimit

/-- Check the rate and the sleep, and fill in what is missing. -/
def create (rate : Option Float) (sleep : Option Sleep) : Except Error Irq :=
  let rate := rate.getD defaultRate
  let sleep := sleep.getD defaultSleep
  if Float.ofNat 0 ≤ rate then
    match sleep with
    | .timed milliseconds =>
        if isDuration milliseconds then .ok ⟨rate, sleep⟩
        else .error (.of (.hostSide "irqSleep must be a function or a positive number."))
    | .custom _ => .ok ⟨rate, sleep⟩
  else
    .error (.of (.hostSide
      ("Invalid IRQ rate (" ++ Number.plain rate ++ "): must be non-negative number")))

/-- Whether the interpreter yields before the step after `steps`. -/
def isDue (irq : Irq) (steps : Nat) : Bool :=
  irq.rate != Float.ofNat 0
    && irq.rate - Float.ofNat 1 ≤ Double.remainder (Float.ofNat steps) irq.rate

end Irq

end TreeScript
